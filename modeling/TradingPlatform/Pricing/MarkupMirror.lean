import TradingPlatform.Library.PutAll
import TradingPlatform.Pricing.MarkupProfiles

namespace TradingPlatform

open StepRuns

section Keys

theorem split_at_last {c : Char} {front other back rest : List Char} (inBack : c ∉ back)
    (inRest : c ∉ rest) (same : front ++ c :: back = other ++ c :: rest) :
    front = other ∧ back = rest := by
  have reversed : back.reverse ++ c :: front.reverse = rest.reverse ++ c :: other.reverse := by
    simpa using congrArg List.reverse same
  have firstOnly : ∀ l : List Char, ∀ m, c ∉ l →
      (l.reverse ++ c :: m).takeWhile (· ≠ c) = l.reverse := by
    intro l m absent
    have kept : ∀ d ∈ l.reverse, decide (d ≠ c) = true := by
      intro d member
      refine decide_eq_true ?_
      rintro rfl
      exact absent (List.mem_reverse.mp member)
    rw [List.takeWhile_append_of_pos kept, List.takeWhile_cons_of_neg (by simp), List.append_nil]
  have backs : back.reverse = rest.reverse := by
    rw [← firstOnly back front.reverse inBack, reversed, firstOnly rest other.reverse inRest]
  have equal : back = rest := List.reverse_injective backs
  subst equal
  exact ⟨by simpa using List.append_cancel_right same, rfl⟩

variable {code other : String} {g h : GroupUuid}

theorem toList_overrideKey (code group : String) : (overrideKey code group).toList =
    ("symbol:markup:".toList ++ code.toList) ++ ':' :: group.toList := by
  unfold overrideKey
  simp

theorem overrideKey_inj (same : overrideKey code g = overrideKey other h) :
    code = other ∧ g = h := by
  have lists := congrArg String.toList same
  rw [toList_overrideKey, toList_overrideKey] at lists
  obtain ⟨codes, groups⟩ := split_at_last g.2 h.2 lists
  exact ⟨String.toList_inj.mp (List.append_cancel_left codes),
    Subtype.ext (String.toList_inj.mp groups)⟩

theorem markupKey_eq (code group : String) :
    markupKey code group = overrideKey (toUpperCase code) group := rfl

theorem toUpperCase_twice (code : String) :
    toUpperCase (toUpperCase code) = toUpperCase code := by
  unfold toUpperCase
  rw [String.toList_ofList, List.map_map]
  congr 1
  exact List.map_congr_left fun c _ => Char.toUpper_toUpper_eq_toUpper c

/-- Clearing the keys of a group leaves those of the others. -/
theorem not_ofGroup (differ : g ≠ h) : ofGroup g (overrideKey code h) = false := by
  rw [Bool.eq_false_iff]
  intro matching
  unfold ofGroup at matching
  simp only [Bool.and_eq_true, List.isSuffixOf_iff_suffix] at matching
  obtain ⟨front, split⟩ := matching.1.2
  rw [toList_overrideKey] at split
  have colon : (":" ++ (g : String)).toList = ':' :: g.1.toList := by simp
  rw [colon] at split
  exact differ (Subtype.ext (String.toList_inj.mp (split_at_last g.2 h.2 split).2))

theorem lawful_setAll : PutAll.Lawful (fun (redis : MarkupKeys) key => redis key)
    fun redis write => Function.update redis write.1 (some write.2) := by
  intro redis write key
  exact Function.update_apply redis write.1 (some write.2) key

theorem lawful_insert {K V : Type*} [DecidableEq K] :
    PutAll.Lawful (fun (table : FiniteTable K V) key => table.lookup key)
      fun table write => table.insert write.1 write.2 := by
  intro table write key
  split
  next same => rw [same]; exact AList.lookup_insert _
  next differ => exact AList.lookup_insert_ne differ

end Keys

namespace MarkupTables
variable {db : MarkupTables} {p : ProfileId} {symbol a b : CatalogId} {code x y : String}
  {g : GroupUuid} {m : MarkupConfig}

theorem mem_symbolOverrides : (symbol, code, m) ∈ db.symbolOverrides p ↔
    db.overrides.lookup (p, symbol) = some m ∧ db.symbols.lookup symbol = some code := by
  unfold symbolOverrides
  rw [List.mem_filterMap]
  constructor
  · rintro ⟨⟨⟨q, b⟩, stored⟩, member, kept⟩
    dsimp only at kept
    split_ifs at kept with own
    obtain ⟨found, known, same⟩ := Option.map_eq_some_iff.mp kept
    cases same
    subst own
    exact ⟨AList.mem_lookup_iff.mpr member, known⟩
  · rintro ⟨stored, known⟩
    refine ⟨⟨(p, symbol), m⟩, AList.mem_lookup_iff.mp stored, ?_⟩
    simp [known]

theorem mem_allSymbolCodes : code ∈ db.allSymbolCodes ↔
    ∃ symbol, db.symbols.lookup symbol = some code := by
  unfold allSymbolCodes
  rw [List.mem_map]
  constructor
  · rintro ⟨row, member, rfl⟩
    exact ⟨row.1, AList.mem_lookup_iff.mpr member⟩
  · rintro ⟨symbol, known⟩
    exact ⟨⟨symbol, code⟩, AList.mem_lookup_iff.mp known, rfl⟩

theorem mem_groupIds : g ∈ db.groupIdsByProfileId p ↔ db.groups.lookup g = some (some p) := by
  unfold groupIdsByProfileId
  simp only [List.mem_map, List.mem_filter, decide_eq_true_eq]
  constructor
  · rintro ⟨⟨h, q⟩, ⟨member, own⟩, rfl⟩
    cases own
    exact AList.mem_lookup_iff.mpr member
  · intro known
    exact ⟨⟨g, some p⟩, ⟨AList.mem_lookup_iff.mp known, rfl⟩, rfl⟩

/-- No two codes differ in the case of letters only. -/
def DistinctCodes (db : MarkupTables) : Prop :=
  ∀ a b x y, db.symbols.lookup a = some x → db.symbols.lookup b = some y →
    toUpperCase x = toUpperCase y → a = b

theorem DistinctCodes.code_eq (distinct : db.DistinctCodes) (first : db.symbols.lookup a = some x)
    (second : db.symbols.lookup b = some y) (same : toUpperCase x = toUpperCase y) : x = y := by
  cases distinct a b x y first second same
  exact Option.some.inj (first.symm.trans second)

/-- The map of the sync finds the override of the symbol. -/
theorem codeMarkup_eq (distinct : db.DistinctCodes) (known : db.symbols.lookup symbol = some code)
    (q : Option ProfileId) : db.codeMarkup q code = MarkupSystem.expected db q symbol := by
  cases q with
  | none => rfl
  | some p =>
    unfold codeMarkup MarkupSystem.expected defaultMarkup
    rw [Option.elim_some, Option.bind_some]
    have found : ((db.symbolOverrides p).findSome? fun o =>
        if o.2.1 = code then some o.2.2 else none) = db.overrides.lookup (p, symbol) := by
      cases stored : db.overrides.lookup (p, symbol) with
      | none =>
        rw [List.findSome?_eq_none_iff]
        rintro ⟨other, otherCode, m⟩ member
        obtain ⟨row, name⟩ := mem_symbolOverrides.mp member
        by_cases same : otherCode = code
        · subst same
          cases distinct _ _ _ _ name known rfl
          rw [stored] at row
          cases row
        · exact if_neg same
      | some m =>
        have member := mem_symbolOverrides.mpr ⟨stored, known⟩
        have some' : ((db.symbolOverrides p).findSome? fun o =>
            if o.2.1 = code then some o.2.2 else none).isSome := by
          rw [List.findSome?_isSome_iff]
          exact ⟨_, member, by simp⟩
        obtain ⟨value, equal⟩ := Option.isSome_iff_exists.mp some'
        obtain ⟨⟨other, otherCode, n⟩, listed, kept⟩ :=
          List.exists_of_findSome?_eq_some equal
        dsimp only at kept
        split_ifs at kept with same
        obtain ⟨row, name⟩ := mem_symbolOverrides.mp listed
        subst same
        cases distinct _ _ _ _ name known rfl
        rw [stored] at row
        cases row
        rw [equal, kept]
    rw [found]
    cases stored : db.overrides.lookup (p, symbol) <;> simp [stored]

end MarkupTables

namespace MarkupSystem
variable {s after : MarkupSystem} {db : MarkupTables} {p : ProfileId} {q : Option ProfileId}
  {symbol a : CatalogId} {code x : String} {g : GroupUuid} {m : MarkupConfig}

/-- The invariant: Redis mirrors the tables, codes have keys of their own, and
what the rows and the keys refer to exists. -/
structure Synced (s : MarkupSystem) : Prop where
  mirrors : s.Mirrors
  distinct : s.db.DistinctCodes
  keyed : ∀ key m, s.redis key = some m → ∃ symbol code,
    s.db.symbols.lookup symbol = some code ∧
      ∃ g : GroupUuid, key = overrideKey code g ∨ key = markupKey code g
  used : ∀ g p, s.db.groups.lookup g = some (some p) → (s.db.profiles.lookup p).isSome
  rows : ∀ p symbol m, s.db.overrides.lookup (p, symbol) = some m →
    (s.db.profiles.lookup p).isSome ∧ (s.db.symbols.lookup symbol).isSome ∧
      numericConfig m = some m

theorem lookup_withoutProfile (groups : List GroupUuid)
    (table : FiniteTable GroupUuid (Option ProfileId))
    (unset : ∀ q, table.lookup g = some q → q = none) :
    ∀ q, (groups.foldl (fun table g => table.insert g none) table).lookup g = some q →
      q = none := by
  induction groups generalizing table with
  | nil => exact unset
  | cons h rest ih =>
    refine ih _ fun q found => ?_
    by_cases same : g = h
    · subst same
      rw [AList.lookup_insert] at found
      exact (Option.some.inj found).symm
    · rw [AList.lookup_insert_ne same] at found
      exact unset q found

theorem synced_fresh (groups : List GroupUuid) : Synced (fresh groups) where
  mirrors _ _ _ _ _ known := by cases known
  distinct _ _ _ _ known := by cases known
  keyed _ _ stored := by cases stored
  used g p known := by
    have unset : some p = none := lookup_withoutProfile groups ∅ nofun (some p) known
    cases unset
  rows _ _ _ stored := by cases stored

theorem numericConfig_stored {n : MarkupConfig} (accepted : numericConfig m = some n) :
    numericConfig n = some n := by
  unfold numericConfig at accepted
  split at accepted
  next bid ask bidStored askStored =>
    cases accepted
    unfold numericConfig
    have bidAgain : numericMarkup bid = some bid := HalfAway.column_column bidStored
    have askAgain : numericMarkup ask = some ask := HalfAway.column_column askStored
    rw [bidAgain, askAgain]
  next => cases accepted

/-- A symbol's markup for a group, read after some keys have been set. -/
theorem percentages_setAll {redis : MarkupKeys} {writes : List (String × MarkupConfig)}
    (member : (markupKey code g, m) ∈ writes)
    (only : ∀ n, (markupKey code g, n) ∈ writes → n = m) :
    percentages (setAll redis writes) code g = m := by
  have stored : setAll redis writes (markupKey code g) = some m :=
    PutAll.get_foldl_of_mem lawful_setAll member only redis
  rw [percentages, stored, Option.getD_some]

theorem percentages_untouched {redis : MarkupKeys} {writes : List (String × MarkupConfig)}
    (absent : ∀ n, (markupKey code g, n) ∉ writes) :
    percentages (setAll redis writes) code g = percentages redis code g := by
  have same : setAll redis writes (markupKey code g) = redis (markupKey code g) :=
    PutAll.get_foldl_of_notMem lawful_setAll absent redis
  rw [percentages, percentages, same]

theorem setAll_keyed {redis : MarkupKeys} {writes : List (String × MarkupConfig)}
    {P : String → Prop} (before : ∀ key m, redis key = some m → P key)
    (written : ∀ write ∈ writes, P write.1) :
    ∀ key m, setAll redis writes key = some m → P key := by
  induction writes generalizing redis with
  | nil => exact before
  | cons write rest ih =>
    refine ih (fun key m stored => ?_) fun later member =>
      written later (List.mem_cons_of_mem _ member)
    by_cases same : key = write.1
    · rw [same]
      exact written write List.mem_cons_self
    · change Function.update redis write.1 (some write.2) key = some m at stored
      rw [Function.update_of_ne same] at stored
      exact before key m stored

/-- The steps that keep the mirror: an edited profile is used by no group, or
its defaults stay or count for no symbol; an override goes to a profile that no
group uses, or for a code in capitals it is a value that the column stores as
it is, and for any other code it changes nothing; a transfer makes only such
copies, or to capital codes and to its end; a new code differs from the others
in more than case, and the profiles in use have no default markup. -/
def KeepsMirror (s : MarkupSystem) : MarkupAction → Prop
  | .updateProfile p m => s.db.groupIdsByProfileId p = [] ∨
    numericConfig m = s.db.profiles.lookup p ∨
    ∀ symbol ∈ s.db.symbols.keys, (s.db.overrides.lookup (p, symbol)).isSome
  | .upsertSymbolOverride p symbol bid ask => s.db.groupIdsByProfileId p = [] ∨
    ∀ code ∈ s.db.symbols.lookup symbol, numericConfig ⟨bid.getD 0, ask.getD 0⟩ =
      if toUpperCase code = code then some ⟨bid.getD 0, ask.getD 0⟩
      else some (expected s.db (some p) symbol)
  | .transferMarkups source targets includeMarkups => includeMarkups = true →
    ∀ copy ∈ copied s.db source targets, s.db.groupIdsByProfileId copy.1 = [] ∨
      expected s.db (some copy.1) copy.2.1 = copy.2.2 ∨
      (copied s.db source targets = s.db.copies source targets ∧
        ∀ code ∈ s.db.symbols.lookup copy.2.1, toUpperCase code = code)
  | .createSymbol _ code =>
    (∀ other ∈ s.db.allSymbolCodes, toUpperCase other ≠ toUpperCase code) ∧
    ∀ g ∈ s.db.groups.keys, ∀ q ∈ s.db.groups.lookup g, ∀ p ∈ q,
      s.db.profiles.lookup p = some ⟨0, 0⟩
  | .createProfile _ _ => True
  | .updateGroupPriceProfile _ _ => True
  | .bootstrap => True

theorem Synced.createProfile (synced : Synced s) {id : ProfileId}
    (taken : s.createProfile id m = some after) : Synced after := by
  unfold MarkupSystem.createProfile at taken
  split_ifs at taken with unknown
  obtain ⟨stored, _, rfl⟩ := Option.map_eq_some_iff.mp taken
  have kept : ∀ p, (s.db.profiles.lookup p).isSome →
      (s.db.profiles.insert id stored).lookup p = s.db.profiles.lookup p := by
    intro p exists'
    refine AList.lookup_insert_ne ?_
    rintro rfl
    rw [unknown] at exists'
    cases exists'
  refine ⟨fun g q known a x name => ?_, synced.distinct, synced.keyed, fun g p known => ?_,
    fun p symbol m row => ?_⟩
  · rw [synced.mirrors g q known a x name]
    cases q with
    | none => rfl
    | some p =>
      unfold expected
      dsimp only
      rw [kept p (synced.used g p known)]
  · dsimp only
    rw [kept p (synced.used g p known)]
    exact synced.used g p known
  · obtain ⟨profile, rest⟩ := synced.rows p symbol m row
    dsimp only
    rw [kept p profile]
    exact ⟨profile, rest⟩

theorem Synced.updateProfile (synced : Synced s) {id : ProfileId}
    (keeps : KeepsMirror s (.updateProfile id m))
    (taken : s.updateProfile id m = some after) : Synced after := by
  unfold MarkupSystem.updateProfile at taken
  split_ifs at taken
  obtain ⟨stored, numeric, rfl⟩ := Option.map_eq_some_iff.mp taken
  have some' : ∀ p, (s.db.profiles.lookup p).isSome →
      ((s.db.profiles.insert id stored).lookup p).isSome := by
    intro p exists'
    by_cases own : p = id
    · subst own
      rw [AList.lookup_insert]
      rfl
    · rw [AList.lookup_insert_ne own]
      exact exists'
  refine ⟨fun g q known a x name => ?_, synced.distinct, synced.keyed,
    fun g p known => some' p (synced.used g p known), fun p symbol m row => ?_⟩
  · rw [synced.mirrors g q known a x name]
    cases q with
    | none => rfl
    | some p =>
      unfold expected
      dsimp only
      by_cases own : p = id
      · subst own
        rw [AList.lookup_insert]
        rcases keeps with unused | same | overridden
        · have member : g ∈ s.db.groupIdsByProfileId p := MarkupTables.mem_groupIds.mpr known
          rw [unused] at member
          cases member
        · rw [← same, numeric]
        · have listed : a ∈ s.db.symbols.keys :=
            AList.mem_keys.mp (AList.lookup_isSome.mp (by rw [name]; rfl))
          obtain ⟨row, found⟩ := Option.isSome_iff_exists.mp (overridden a listed)
          rw [found]
          rfl
      · rw [AList.lookup_insert_ne own]
  · obtain ⟨profile, rest⟩ := synced.rows p symbol m row
    exact ⟨some' p profile, rest⟩

theorem Synced.createSymbol (synced : Synced s) {id : CatalogId}
    (keeps : KeepsMirror s (.createSymbol id code))
    (taken : s.createSymbol id code = some after) : Synced after := by
  unfold MarkupSystem.createSymbol at taken
  split_ifs at taken with allowed
  cases taken
  obtain ⟨newCode, noDefaults⟩ := keeps
  have old : ∀ symbol code', s.db.symbols.lookup symbol = some code' →
      (s.db.symbols.insert id code).lookup symbol = some code' := by
    intro symbol code' known
    rw [AList.lookup_insert_ne, known]
    rintro rfl
    rw [allowed.1] at known
    cases known
  have apart : ∀ symbol code', s.db.symbols.lookup symbol = some code' →
      toUpperCase code' ≠ toUpperCase code := fun symbol code' known =>
    newCode code' (MarkupTables.mem_allSymbolCodes.mpr ⟨symbol, known⟩)
  have cases' : ∀ symbol code', (s.db.symbols.insert id code).lookup symbol = some code' →
      symbol = id ∧ code' = code ∨ s.db.symbols.lookup symbol = some code' := by
    intro symbol code' known
    by_cases own : symbol = id
    · subst own
      rw [AList.lookup_insert] at known
      exact .inl ⟨rfl, (Option.some.inj known).symm⟩
    · rw [AList.lookup_insert_ne own] at known
      exact .inr known
  refine ⟨fun g q known a x name => ?_, fun a b x y first second same => ?_,
    fun key m stored => ?_, synced.used, fun p symbol m row => ?_⟩
  · rcases cases' a x name with ⟨rfl, rfl⟩ | name
    · have unset : s.redis (markupKey x g) = none := by
        rw [Option.eq_none_iff_forall_ne_some]
        intro m stored
        obtain ⟨symbol, code', known', h, same⟩ := synced.keyed _ _ stored
        rw [markupKey_eq] at same
        rcases same with same | same
        · refine apart symbol code' known' ?_
          rw [← (overrideKey_inj same).1, toUpperCase_twice]
        · exact apart symbol code' known' (overrideKey_inj same).1.symm
      have noRow : ∀ p, s.db.overrides.lookup (p, a) = none := by
        intro p
        rw [Option.eq_none_iff_forall_ne_some]
        intro m row
        have exists' := (synced.rows p a m row).2.1
        rw [allowed.1] at exists'
        cases exists'
      rw [percentages, unset, Option.getD_none]
      cases q with
      | none => rfl
      | some p =>
        have listed : g ∈ s.db.groups.keys :=
          AList.mem_keys.mp (AList.lookup_isSome.mp (by rw [known]; rfl))
        unfold expected
        dsimp only
        rw [noRow, noDefaults g listed _ known p rfl]
        rfl
    · exact synced.mirrors g q known a x name
  · rcases cases' a x first with ⟨rfl, rfl⟩ | oldFirst <;>
      rcases cases' b y second with ⟨rfl, rfl⟩ | oldSecond
    · rfl
    · exact absurd same.symm (apart b y oldSecond)
    · exact absurd same (apart a x oldFirst)
    · exact synced.distinct a b x y oldFirst oldSecond same
  · obtain ⟨symbol, code', known', rest⟩ := synced.keyed key m stored
    exact ⟨symbol, code', old symbol code' known', rest⟩
  · obtain ⟨profile, exists', numeric⟩ := synced.rows p symbol m row
    obtain ⟨code', known'⟩ := Option.isSome_iff_exists.mp exists'
    exact ⟨profile, by rw [old symbol code' known']; rfl, numeric⟩

/-- What a change of overrides and the keys that follow it leave to show: a
symbol whose key is among the writes for its group has there the markup that is
expected now, and any other one is expected to have the markup it had. -/
theorem Synced.overridden (synced : Synced s)
    {overrides : FiniteTable (ProfileId × CatalogId) MarkupConfig}
    {writes : List (String × MarkupConfig)}
    (rows : ∀ p symbol m, overrides.lookup (p, symbol) = some m →
      (s.db.profiles.lookup p).isSome ∧ (s.db.symbols.lookup symbol).isSome ∧
        numericConfig m = some m)
    (written : ∀ write ∈ writes, ∃ symbol code, s.db.symbols.lookup symbol = some code ∧
      ∃ g : GroupUuid, write.1 = overrideKey code g)
    (current : ∀ (g : GroupUuid) p symbol code, s.db.groups.lookup g = some (some p) →
      s.db.symbols.lookup symbol = some code →
      (toUpperCase code = code ∧ ∃ m, (overrideKey code g, m) ∈ writes) ∨
        expected { s.db with overrides := overrides } (some p) symbol =
          expected s.db (some p) symbol)
    (only : ∀ (g : GroupUuid) symbol code m, s.db.symbols.lookup symbol = some code →
      toUpperCase code = code → (overrideKey code g, m) ∈ writes →
      ∃ p, s.db.groups.lookup g = some (some p) ∧
        m = expected { s.db with overrides := overrides } (some p) symbol) :
    Synced ⟨{ s.db with overrides := overrides }, setAll s.redis writes⟩ where
  mirrors g q known a x name := by
    have named : s.db.symbols.lookup a = some x := name
    have grouped : s.db.groups.lookup g = some q := known
    dsimp only
    by_cases inWrites : toUpperCase x = x ∧ ∃ m, (overrideKey x g, m) ∈ writes
    · obtain ⟨upper, m, member⟩ := inWrites
      obtain ⟨p, used, value⟩ := only g a x m named upper member
      rw [grouped] at used
      cases used
      have key : markupKey x g = overrideKey x g := by rw [markupKey_eq, upper]
      rw [← value]
      refine percentages_setAll (key ▸ member) fun n again => ?_
      obtain ⟨p', used', value'⟩ := only g a x n named upper (key ▸ again)
      rw [grouped] at used'
      cases used'
      rw [value', value]
    · have absent : ∀ n, (markupKey x g, n) ∉ writes := by
        intro n member
        obtain ⟨symbol, code, known', h, same⟩ := written _ member
        rw [markupKey_eq] at same
        obtain ⟨codes, rfl⟩ := overrideKey_inj same
        have equal : code = x :=
          synced.distinct.code_eq known' named (by rw [← codes, toUpperCase_twice])
        subst equal
        rw [markupKey_eq, codes] at member
        exact inWrites ⟨codes, n, member⟩
      rw [percentages_untouched absent, synced.mirrors g q grouped a x named]
      cases q with
      | none => rfl
      | some p => exact ((current g p a x grouped named).resolve_left inWrites).symm
  distinct := synced.distinct
  keyed := setAll_keyed synced.keyed fun write member => by
    obtain ⟨symbol, code, known, g, key⟩ := written write member
    exact ⟨symbol, code, known, g, .inl key⟩
  used := synced.used
  rows := rows

theorem Synced.upsertSymbolOverride (synced : Synced s) {bid ask : Option ℚ}
    (keeps : KeepsMirror s (.upsertSymbolOverride p symbol bid ask))
    (taken : s.upsertSymbolOverride p symbol bid ask = some after) : Synced after := by
  unfold MarkupSystem.upsertSymbolOverride MarkupTables.upsert at taken
  dsimp only at taken
  unfold KeepsMirror at keeps
  dsimp only at keeps
  generalize (⟨bid.getD 0, ask.getD 0⟩ : MarkupConfig) = sent at taken keeps
  split at taken
  next db code upserted name =>
    cases taken
    split_ifs at upserted with exist
    obtain ⟨stored, numeric, rfl⟩ := Option.map_eq_some_iff.mp upserted
    have unused : s.db.groupIdsByProfileId p = [] →
        ∀ g, s.db.groups.lookup g ≠ some (some p) := by
      intro none g known
      have member := MarkupTables.mem_groupIds.mpr known
      rw [none] at member
      cases member
    have mem_writes : ∀ key n, (key, n) ∈ MarkupTables.overrideWrites
        { s.db with overrides := s.db.overrides.insert (p, symbol) stored } p code sent ↔
        ∃ g : GroupUuid, s.db.groups.lookup g = some (some p) ∧ key = overrideKey code g ∧
          n = sent := by
      intro key n
      simp only [MarkupTables.overrideWrites, List.mem_map, MarkupTables.mem_groupIds,
        Prod.mk.injEq]
      constructor
      · rintro ⟨g, known, rfl, rfl⟩
        exact ⟨g, known, rfl, rfl⟩
      · rintro ⟨g, known, rfl, rfl⟩
        exact ⟨g, known, rfl, rfl⟩
    have here : expected { s.db with overrides := s.db.overrides.insert (p, symbol) stored }
        (some p) symbol = stored := by
      simp [expected, AList.lookup_insert]
    refine synced.overridden (fun p' symbol' m row => ?_) (fun write member => ?_)
      (fun g p' symbol' code' known known' => ?_) fun g symbol' code' m known' upper member => ?_
    · by_cases own : (p', symbol') = (p, symbol)
      · cases own
        rw [AList.lookup_insert] at row
        cases row
        exact ⟨exist.1, exist.2, numericConfig_stored numeric⟩
      · rw [AList.lookup_insert_ne own] at row
        exact synced.rows p' symbol' m row
    · obtain ⟨g, _, key, _⟩ := (mem_writes write.1 write.2).mp member
      exact ⟨symbol, code, name, g, key⟩
    · by_cases own : (p', symbol') = (p, symbol)
      · cases own
        rw [name] at known'
        cases known'
        rcases keeps with none | values
        · exact absurd known (unused none g)
        · have value := values code name
          split_ifs at value with upper
          · exact .inl ⟨upper, sent, (mem_writes _ _).mpr ⟨g, known, rfl, rfl⟩⟩
          · rw [numeric] at value
            exact .inr (here.trans (Option.some.inj value))
      · refine .inr ?_
        unfold expected
        dsimp only
        rw [AList.lookup_insert_ne own]
    · obtain ⟨h, used, key, rfl⟩ := (mem_writes _ _).mp member
      obtain ⟨rfl, rfl⟩ := overrideKey_inj key
      cases synced.distinct _ _ _ _ known' name rfl
      refine ⟨p, used, ?_⟩
      rw [here]
      rcases keeps with none | values
      · exact absurd used (unused none g)
      · have value := values code' name
        rw [numeric, if_pos upper] at value
        exact (Option.some.inj value).symm
  next => cases taken

/-- The table after some copies, one row after the other. -/
def copyOverrides (overrides : FiniteTable (ProfileId × CatalogId) MarkupConfig)
    (made : List (ProfileId × CatalogId × MarkupConfig)) :
    FiniteTable (ProfileId × CatalogId) MarkupConfig :=
  (made.map fun copy => ((copy.1, copy.2.1), copy.2.2)).foldl
    (fun table write => table.insert write.1 write.2) overrides

/-- The tables after some copies. -/
def afterCopies (db : MarkupTables) (made : List (ProfileId × CatalogId × MarkupConfig)) :
    MarkupTables :=
  { db with overrides := copyOverrides db.overrides made }

/-- The upserts stop before the first profile that does not exist. -/
theorem copyAll_eq {list : List (ProfileId × CatalogId × MarkupConfig)}
    (fine : ∀ copy ∈ list, (db.symbols.lookup copy.2.1).isSome ∧
      numericConfig copy.2.2 = some copy.2.2) :
    db.copyAll list =
      (afterCopies db (list.takeWhile fun copy => (db.profiles.lookup copy.1).isSome),
        decide ((list.takeWhile fun copy => (db.profiles.lookup copy.1).isSome) = list)) := by
  induction list generalizing db with
  | nil => rfl
  | cons copy rest ih =>
    obtain ⟨p, symbol, m⟩ := copy
    obtain ⟨known, numeric⟩ := fine _ List.mem_cons_self
    rw [MarkupTables.copyAll, MarkupTables.upsert]
    by_cases exists' : (db.profiles.lookup p).isSome
    · rw [if_pos ⟨exists', known⟩, numeric, Option.map_some]
      dsimp only
      have later := fun copy later => fine copy (List.mem_cons_of_mem _ later)
      rw [ih (by exact later)]
      simp [exists', afterCopies, copyOverrides]
    · rw [if_neg fun both => exists' both.1]
      simp [exists', afterCopies, copyOverrides]

section Copies
variable {overrides : FiniteTable (ProfileId × CatalogId) MarkupConfig}
  {made : List (ProfileId × CatalogId × MarkupConfig)}

theorem lookup_copied (member : (p, symbol, m) ∈ made)
    (only : ∀ n, (p, symbol, n) ∈ made → n = m) :
    (copyOverrides overrides made).lookup (p, symbol) = some m := by
  refine PutAll.get_foldl_of_mem (k := (p, symbol)) (v := m) lawful_insert
    (List.mem_map.mpr ⟨(p, symbol, m), member, rfl⟩) (fun n again => ?_) overrides
  obtain ⟨⟨p', symbol', n'⟩, listed, same⟩ := List.mem_map.mp again
  cases same
  exact only _ listed

theorem lookup_uncopied (absent : ∀ m, (p, symbol, m) ∉ made) :
    (copyOverrides overrides made).lookup (p, symbol) = overrides.lookup (p, symbol) := by
  refine PutAll.get_foldl_of_notMem (k := (p, symbol)) lawful_insert
    (fun m member => ?_) overrides
  obtain ⟨⟨p', symbol', m'⟩, listed, same⟩ := List.mem_map.mp member
  cases same
  exact absent _ listed

theorem expected_of_row (row : overrides.lookup (p, symbol) = some m) :
    expected { db with overrides := overrides } (some p) symbol = m := by
  simp [expected, row]

end Copies

section Transfer
variable {source : ProfileId} {targets : List ProfileId}
  {list made : List (ProfileId × CatalogId × MarkupConfig)}

/-- Copies of the overrides of a profile to some others. -/
def CopiesOf (db : MarkupTables) (source : ProfileId) (targets : List ProfileId)
    (list : List (ProfileId × CatalogId × MarkupConfig)) : Prop :=
  ∀ copy ∈ list, copy.1 ∈ targets ∧
    ∃ code, (copy.2.1, code, copy.2.2) ∈ db.symbolOverrides source

theorem CopiesOf.unique (copies : CopiesOf db source targets made) {n : MarkupConfig}
    (first : (p, symbol, m) ∈ made) (second : (p, symbol, n) ∈ made) : n = m := by
  obtain ⟨_, _, row⟩ := copies _ first
  obtain ⟨_, _, again⟩ := copies _ second
  have stored := (MarkupTables.mem_symbolOverrides.mp row).1
  rw [(MarkupTables.mem_symbolOverrides.mp again).1] at stored
  exact Option.some.inj stored

/-- A symbol shows its copy, or what it showed before. -/
theorem CopiesOf.change (copies : CopiesOf db source targets made) (p : ProfileId)
    (symbol : CatalogId) :
    (∃ m, (p, symbol, m) ∈ made ∧
      (copyOverrides db.overrides made).lookup (p, symbol) = some m) ∨
    (copyOverrides db.overrides made).lookup (p, symbol) = db.overrides.lookup (p, symbol) := by
  by_cases copied : ∃ m, (p, symbol, m) ∈ made
  · obtain ⟨m, member⟩ := copied
    exact .inl ⟨m, member, lookup_copied member fun n again => copies.unique member again⟩
  · exact .inr (lookup_uncopied fun m member => copied ⟨m, member⟩)

theorem Synced.copiedRows (synced : Synced s) (copies : CopiesOf s.db source targets made)
    (exist : ∀ copy ∈ made, (s.db.profiles.lookup copy.1).isSome)
    (row : (copyOverrides s.db.overrides made).lookup (p, symbol) = some m) :
    (s.db.profiles.lookup p).isSome ∧ (s.db.symbols.lookup symbol).isSome ∧
      numericConfig m = some m := by
  obtain ⟨n, member, found⟩ | same := copies.change p symbol
  · rw [row] at found
    cases found
    obtain ⟨_, _, original⟩ := copies _ member
    have old := synced.rows _ _ _ (MarkupTables.mem_symbolOverrides.mp original).1
    exact ⟨exist _ member, old.2⟩
  · rw [same] at row
    exact synced.rows p symbol m row

theorem mem_targetWrites {write : String × MarkupConfig} :
    write ∈ (targets.flatMap fun target => (db.symbolOverrides target).flatMap fun o =>
      db.overrideWrites target o.2.1 o.2.2) ↔
    ∃ target ∈ targets, ∃ symbol code, db.overrides.lookup (target, symbol) = some write.2 ∧
      db.symbols.lookup symbol = some code ∧
      ∃ g : GroupUuid, db.groups.lookup g = some (some target) ∧ write.1 = overrideKey code g := by
  simp only [List.mem_flatMap, MarkupTables.overrideWrites, List.mem_map, MarkupTables.mem_groupIds]
  constructor
  · rintro ⟨target, listed, ⟨symbol, code, m⟩, row, g, used, rfl⟩
    obtain ⟨stored, known⟩ := MarkupTables.mem_symbolOverrides.mp row
    exact ⟨target, listed, symbol, code, stored, known, g, used, rfl⟩
  · rintro ⟨target, listed, symbol, code, stored, known, g, used, key⟩
    have row := MarkupTables.mem_symbolOverrides.mpr ⟨stored, known⟩
    exact ⟨target, listed, _, row, g, used, by rw [← key]⟩

/-- Copies of the overrides of a profile, made up to the first failure and
followed by the keys of the targets if there is none. -/
theorem Synced.transferred (synced : Synced s) (copies : CopiesOf s.db source targets list)
    (keeps : ∀ copy ∈ list.takeWhile fun copy => (s.db.profiles.lookup copy.1).isSome,
      s.db.groupIdsByProfileId copy.1 = [] ∨
      expected s.db (some copy.1) copy.2.1 = copy.2.2 ∨
      ((list.takeWhile fun copy => (s.db.profiles.lookup copy.1).isSome) = list ∧
        ∀ code ∈ s.db.symbols.lookup copy.2.1, toUpperCase code = code))
    {complete : Bool} (made : s.db.copyAll list = (db, complete)) :
    Synced ⟨db, if complete then setAll s.redis (targets.flatMap fun target =>
      (db.symbolOverrides target).flatMap fun o => db.overrideWrites target o.2.1 o.2.2)
      else s.redis⟩ := by
  have fine : ∀ copy ∈ list, (s.db.symbols.lookup copy.2.1).isSome ∧
      numericConfig copy.2.2 = some copy.2.2 := by
    intro copy member
    obtain ⟨_, code, row⟩ := copies copy member
    exact (synced.rows _ _ _ (MarkupTables.mem_symbolOverrides.mp row).1).2
  rw [copyAll_eq fine] at made
  obtain ⟨rfl, rfl⟩ := Prod.mk.inj made
  clear made
  generalize reached : (list.takeWhile fun copy => (s.db.profiles.lookup copy.1).isSome) = made
    at keeps ⊢
  have madeCopies : CopiesOf s.db source targets made := by
    intro copy member
    rw [← reached] at member
    exact copies copy ((List.takeWhile_sublist _).subset member)
  have exist : ∀ copy ∈ made, (s.db.profiles.lookup copy.1).isSome := by
    intro copy member
    rw [← reached] at member
    simpa using List.mem_takeWhile_imp member
  have rows := fun p symbol m
      (row : (copyOverrides s.db.overrides made).lookup (p, symbol) = some m) =>
    synced.copiedRows madeCopies exist row
  have current : ∀ (g : GroupUuid) p symbol code, s.db.groups.lookup g = some (some p) →
      s.db.symbols.lookup symbol = some code →
      (made = list ∧ toUpperCase code = code ∧ ∃ m, (p, symbol, m) ∈ made ∧
        (copyOverrides s.db.overrides made).lookup (p, symbol) = some m) ∨
      expected { s.db with overrides := copyOverrides s.db.overrides made } (some p) symbol =
        expected s.db (some p) symbol := by
    intro g p symbol code used known
    obtain ⟨m, member, stored⟩ | same := madeCopies.change p symbol
    · rcases keeps _ member with unused | same | ⟨whole, upper⟩
      · have listed := MarkupTables.mem_groupIds.mpr used
        rw [unused] at listed
        cases listed
      · exact .inr ((expected_of_row stored).trans same.symm)
      · exact .inl ⟨whole, upper code known, m, member, stored⟩
    · refine .inr ?_
      unfold expected
      dsimp only
      rw [same]
  by_cases whole : made = list
  · rw [decide_eq_true whole, if_pos rfl]
    refine synced.overridden rows (fun write member => ?_)
      (fun g p symbol code used known => ?_) fun g symbol code m known upper member => ?_
    · obtain ⟨_, _, symbol, code, _, known, g, _, key⟩ := mem_targetWrites.mp member
      exact ⟨symbol, code, known, g, key⟩
    · rcases current g p symbol code used known with ⟨_, upper, m, member, row⟩ | same
      · have target : p ∈ targets := (madeCopies _ member).1
        exact .inl ⟨upper, m, mem_targetWrites.mpr ⟨p, target, symbol, code, row, known, g, used, rfl⟩⟩
      · exact .inr same
    · obtain ⟨p, _, other, otherCode, row, known', h, used, key⟩ := mem_targetWrites.mp member
      obtain ⟨rfl, rfl⟩ := overrideKey_inj key
      cases synced.distinct _ _ _ _ known known' rfl
      exact ⟨p, used, (expected_of_row row).symm⟩
  · rw [decide_eq_false whole, if_neg Bool.false_ne_true]
    have nothing : setAll s.redis [] = s.redis := rfl
    rw [← nothing]
    refine synced.overridden rows (fun write member => ?_)
      (fun g p symbol code used known => ?_) fun g symbol code m known upper member => ?_
    · cases member
    · exact .inr ((current g p symbol code used known).resolve_left fun all => whole all.1)
    · cases member

theorem Synced.transferMarkups (synced : Synced s) {includeMarkups : Bool}
    (keeps : KeepsMirror s (.transferMarkups source targets includeMarkups)) :
    Synced (s.transferMarkups source targets includeMarkups) := by
  have transferred : ∀ db complete, s.db.copyAll
      (if includeMarkups then s.db.copies source targets else []) = (db, complete) →
      Synced ⟨db, if complete then setAll s.redis (targets.flatMap fun target =>
        (db.symbolOverrides target).flatMap fun o => db.overrideWrites target o.2.1 o.2.2)
        else s.redis⟩ := by
    intro db complete made
    by_cases included : includeMarkups = true
    · rw [if_pos included] at made
      have copies : CopiesOf s.db source targets (s.db.copies source targets) := by
        intro copy member
        obtain ⟨target, listed, row⟩ := List.mem_flatMap.mp member
        obtain ⟨⟨symbol, code, m⟩, original, rfl⟩ := List.mem_map.mp row
        exact ⟨(List.mem_filter.mp listed).1, code, original⟩
      exact synced.transferred copies (keeps included) made
    · rw [if_neg included] at made
      have copies : CopiesOf s.db source targets [] := by
        intro copy member
        cases member
      refine synced.transferred copies (fun copy member => ?_) made
      cases member
  unfold MarkupSystem.transferMarkups
  split
  next db made => simpa using transferred db false made
  next db made => simpa using transferred db true made

end Transfer

section FullWriters

/-- What a full writer sets for one code of a group is what is expected. -/
theorem Synced.groupWrites (synced : Synced s) {h : GroupUuid} {r : Option ProfileId}
    (known : s.db.symbols.lookup symbol = some code)
    (written : (markupKey code g, m) ∈ s.db.groupWrites h r) :
    g = h ∧ m = expected s.db r symbol := by
  obtain ⟨other, listed, same⟩ := List.mem_map.mp written
  obtain ⟨symbol', known'⟩ := MarkupTables.mem_allSymbolCodes.mp listed
  obtain ⟨keys, rfl⟩ := Prod.mk.inj same
  rw [markupKey_eq, markupKey_eq] at keys
  obtain ⟨codes, groups⟩ := overrideKey_inj keys
  cases synced.distinct.code_eq known' known codes
  exact ⟨groups.symm, MarkupTables.codeMarkup_eq synced.distinct known r⟩

theorem Synced.mem_groupWrites (synced : Synced s) {r : Option ProfileId}
    (known : s.db.symbols.lookup symbol = some code) :
    (markupKey code g, expected s.db r symbol) ∈ s.db.groupWrites g r := by
  rw [← MarkupTables.codeMarkup_eq synced.distinct known r]
  exact List.mem_map.mpr ⟨code, MarkupTables.mem_allSymbolCodes.mpr ⟨symbol, known⟩, rfl⟩

theorem groupWrites_keyed {r : Option ProfileId} {write : String × MarkupConfig}
    (member : write ∈ db.groupWrites g r) : ∃ symbol code, db.symbols.lookup symbol = some code ∧
      ∃ g : GroupUuid, write.1 = overrideKey code g ∨ write.1 = markupKey code g := by
  obtain ⟨code, listed, rfl⟩ := List.mem_map.mp member
  obtain ⟨symbol, known⟩ := MarkupTables.mem_allSymbolCodes.mp listed
  exact ⟨symbol, code, known, g, .inr rfl⟩

theorem Synced.updateGroupPriceProfile (synced : Synced s)
    (taken : s.updateGroupPriceProfile g q = some after) : Synced after := by
  unfold MarkupSystem.updateGroupPriceProfile at taken
  split_ifs at taken with allowed
  cases taken
  refine ⟨fun h r known a x name => ?_, synced.distinct, setAll_keyed (fun key m stored => ?_)
    fun write member => groupWrites_keyed member, fun h p known => ?_, synced.rows⟩
  · have named : s.db.symbols.lookup a = some x := name
    by_cases own : h = g
    · subst own
      dsimp only at known
      rw [AList.lookup_insert] at known
      cases known
      refine percentages_setAll (synced.mem_groupWrites named) fun n again => ?_
      exact (synced.groupWrites named again).2
    · dsimp only at known
      rw [AList.lookup_insert_ne own] at known
      have absent : ∀ n, (markupKey x h, n) ∉ s.db.groupWrites g q := fun n member =>
        own (synced.groupWrites named member).1
      refine (percentages_untouched absent).trans ?_
      have kept : ofGroup g (markupKey x h) = false := by
        rw [markupKey_eq]
        exact not_ofGroup (Ne.symm own)
      have same : (if ofGroup g (markupKey x h) then .none else s.redis (markupKey x h)) =
          s.redis (markupKey x h) := by
        rw [kept, if_neg Bool.false_ne_true]
      unfold percentages
      dsimp only
      rw [same]
      exact synced.mirrors h r known a x named
  · split_ifs at stored
    exact synced.keyed key m stored
  · by_cases own : h = g
    · subst own
      dsimp only at known
      rw [AList.lookup_insert] at known
      cases known
      exact allowed.1 p rfl
    · dsimp only at known
      rw [AList.lookup_insert_ne own] at known
      exact synced.used h p known

theorem mem_bootstrapWrites {write : String × MarkupConfig} : write ∈ db.bootstrapWrites ↔
    ∃ g p, db.groups.lookup g = some (some p) ∧ write ∈ db.groupWrites g (some p) := by
  unfold MarkupTables.bootstrapWrites
  rw [List.mem_flatMap]
  constructor
  · rintro ⟨⟨g, r⟩, listed, member⟩
    cases r with
    | none => cases member
    | some p => exact ⟨g, p, AList.mem_lookup_iff.mpr listed, member⟩
  · rintro ⟨g, p, used, member⟩
    exact ⟨⟨g, some p⟩, AList.mem_lookup_iff.mp used, member⟩

theorem Synced.bootstrap (synced : Synced s) :
    Synced { s with redis := setAll s.redis s.db.bootstrapWrites } := by
  refine ⟨fun g r known a x name => ?_, synced.distinct, setAll_keyed synced.keyed
    fun write member => ?_, synced.used, synced.rows⟩
  · have named : s.db.symbols.lookup a = some x := name
    have own : ∀ n, (markupKey x g, n) ∈ s.db.bootstrapWrites →
        ∃ p, r = some p ∧ n = expected s.db r a := by
      intro n member
      obtain ⟨h, p, used, written⟩ := mem_bootstrapWrites.mp member
      obtain ⟨rfl, value⟩ := synced.groupWrites named written
      have same : some r = some (some p) := known.symm.trans used
      cases same
      exact ⟨p, rfl, value⟩
    cases r with
    | some p =>
      have member := mem_bootstrapWrites.mpr ⟨g, p, known, synced.mem_groupWrites named⟩
      exact percentages_setAll member fun n again => (own n again).choose_spec.2
    | none =>
      have absent : ∀ n, (markupKey x g, n) ∉ s.db.bootstrapWrites := by
        intro n member
        obtain ⟨p, missing, _⟩ := own n member
        cases missing
      exact (percentages_untouched absent).trans (synced.mirrors g .none known a x named)
  · obtain ⟨g, p, _, written⟩ := mem_bootstrapWrites.mp member
    exact groupWrites_keyed written

end FullWriters

theorem Synced.step (synced : Synced s) {action : MarkupAction} (keeps : KeepsMirror s action)
    (taken : s.step action = some after) : Synced after := by
  cases action with
  | createProfile id m => exact synced.createProfile taken
  | updateProfile id m => exact synced.updateProfile keeps taken
  | upsertSymbolOverride p symbol bid ask => exact synced.upsertSymbolOverride keeps taken
  | transferMarkups source targets includeMarkups =>
    cases taken
    exact synced.transferMarkups keeps
  | updateGroupPriceProfile g p => exact synced.updateGroupPriceProfile taken
  | createSymbol id code => exact synced.createSymbol keeps taken
  | bootstrap =>
    cases taken
    exact synced.bootstrap

/-- In a run whose steps all keep the mirror, every client sees the markups
that the tables say. -/
theorem profiles_mirrored_of_run {groups : List GroupUuid} {actions : List MarkupAction}
    (run : GuardedRun step KeepsMirror (fresh groups) actions s) : s.Mirrors :=
  (run.invariant (synced_fresh groups) fun _ _ _ keeps taken synced =>
    synced.step keeps taken).mirrors

instance (s : MarkupSystem) : DecidablePred s.KeepsMirror := fun action => by
  cases action with
  | createProfile => exact isTrue trivial
  | updateProfile => exact inferInstanceAs (Decidable (_ ∨ _ ∨ _))
  | upsertSymbolOverride => exact inferInstanceAs (Decidable (_ ∨ _))
  | transferMarkups => exact inferInstanceAs (Decidable (_ → _))
  | updateGroupPriceProfile => exact isTrue trivial
  | createSymbol => exact inferInstanceAs (Decidable (_ ∧ _))
  | bootstrap => exact isTrue trivial

theorem noColon : ':' ∉ "g".toList := by simp

/-- The override of a profile in use is changed: its group sees it at once. -/
theorem mirrors_of_overridden : ∃ s, GuardedRun step KeepsMirror (fresh [⟨"g", noColon⟩])
    [.createSymbol 0 "EURUSD", .createProfile 7 ⟨1 / 100, 0⟩,
      .updateGroupPriceProfile ⟨"g", noColon⟩ (some 7),
      .upsertSymbolOverride 7 0 (some (1 / 4)) .none] s ∧ s.Mirrors := by
  have evaluates : (runGuarded step KeepsMirror (fresh [⟨"g", noColon⟩])
      [.createSymbol 0 "EURUSD", .createProfile 7 ⟨1 / 100, 0⟩,
        .updateGroupPriceProfile ⟨"g", noColon⟩ (some 7),
        .upsertSymbolOverride 7 0 (some (1 / 4)) .none]).map
      (fun s => percentages s.redis "EURUSD" "g") = some ⟨1 / 4, 0⟩ := by decide +kernel
  obtain ⟨s, reached, _⟩ := Option.map_eq_some_iff.mp evaluates
  exact ⟨s, .of_eval reached, profiles_mirrored_of_run (.of_eval reached)⟩

/-- The defaults of a profile in use are changed: its group keeps the old ones. -/
theorem not_mirrors_after_updateProfile : ∃ s, Run step (fresh [⟨"g", noColon⟩])
    [.createSymbol 0 "EURUSD", .createProfile 7 ⟨0, 0⟩,
      .updateGroupPriceProfile ⟨"g", noColon⟩ (some 7), .updateProfile 7 ⟨1, 1⟩] s ∧
    ¬ s.Mirrors := by
  have evaluates : (runGuarded step (fun _ _ => True) (fresh [⟨"g", noColon⟩])
      [.createSymbol 0 "EURUSD", .createProfile 7 ⟨0, 0⟩,
        .updateGroupPriceProfile ⟨"g", noColon⟩ (some 7), .updateProfile 7 ⟨1, 1⟩]).map
      (fun s => (percentages s.redis "EURUSD" "g", expected s.db (some 7) 0,
        s.db.groups.lookup ⟨"g", noColon⟩, s.db.symbols.lookup 0)) =
      some (⟨0, 0⟩, ⟨1, 1⟩, some (some 7), some "EURUSD") := by decide +kernel
  obtain ⟨s, reached, reads⟩ := Option.map_eq_some_iff.mp evaluates
  simp only [Prod.mk.injEq] at reads
  obtain ⟨shown, wanted, grouped, named⟩ := reads
  refine ⟨s, .of_eval reached, fun mirrors => ?_⟩
  have same := mirrors _ _ grouped _ _ named
  rw [wanted] at same
  have differ : (⟨0, 0⟩ : MarkupConfig) ≠ ⟨1, 1⟩ := by decide
  exact differ (shown.symm.trans same)

end MarkupSystem

end TradingPlatform
