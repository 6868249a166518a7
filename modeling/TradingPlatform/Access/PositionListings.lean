import TradingPlatform.Access.AdminPositions

namespace TradingPlatform.Access
open Pages
open RequestTexts (eqIgnoreAsciiCase)

/-- The position belongs to one of the users. -/
def ownedBy (formats : Formats) (ids : List Uuid) (m : Hash) : Bool :=
  ((m "user_id").bind formats.parseUuid).any (· ∈ ids)

namespace Desk
variable (formats : Formats) (ids : List Uuid)

/-- Under the key there is a position of one of the users. -/
def shows (d : Desk) (key : String) : Bool := (d.hgetall key).any (ownedBy formats ids)

/-- Both have the same of the users and of their positions, in the same order,
and the same prices. -/
structure SameFor (d d' : Desk) : Prop where
  keys : d.positionKeys.filter (d.shows formats ids) = d'.positionKeys.filter (d'.shows formats ids)
  indexes : ∀ symbol, (indexedIds d symbol).filter (fun id => d.shows formats ids (posByIdPrefix ++ id)) =
    (indexedIds d' symbol).filter fun id => d'.shows formats ids (posByIdPrefix ++ id)
  hashes : ∀ key, d.shows formats ids key = true ∨ d'.shows formats ids key = true →
    d.hgetall key = d'.hgetall key
  users : ∀ u ∈ ids, d.tables.users.lookup u = d'.tables.users.lookup u
  groups : ∀ u ∈ ids, ∀ user, d.tables.users.lookup u = some user → ∀ group,
    user.groupId = some group → d.tables.userGroups.lookup group = d'.tables.userGroups.lookup group
  prices : d.prices = d'.prices
  costs : ∀ key, d.shows formats ids key = true → ∀ id,
    key = posByIdPrefix ++ id ∨
      id = String.ofList (trimStartMatches posByIdPrefix.toList key.length key.toList) →
    (formats.parseUuid id).bind d.costs = (formats.parseUuid id).bind d'.costs

end Desk

section Lists
variable {α β : Type*}

/-- What a filter lets through comes from where a weaker one lets through. -/
theorem filter_filterMap_of_imp {g : α → Option β} {p : β → Bool} {q : α → Bool} {l : List α}
    (implies : ∀ x ∈ l, ∀ y ∈ g x, p y = true → q x = true) :
    (l.filterMap g).filter p = ((l.filter q).filterMap g).filter p := by
  induction l with
  | nil => rfl
  | cons x l ih =>
    have rest := ih fun y member => implies y (List.mem_cons_of_mem _ member)
    have here := implies x List.mem_cons_self
    cases value : g x with
    | none =>
      cases keep : q x <;> simp [value, keep, rest]
    | some y =>
      cases keep : q x with
      | true => simp [value, keep, List.filter_cons, rest]
      | false =>
        have dropped : p y = false := by
          by_contra kept
          have passes := here y value (by simpa using kept)
          simp [keep] at passes
        simp [value, keep, dropped, rest]

theorem filter_firstSeen (p : String → Bool) (ids : List String) :
    (firstSeen ids).filter p = firstSeen (ids.filter p) := by
  induction ids with
  | nil => rfl
  | cons id ids ih =>
    cases keep : p id with
    | true =>
      simp only [firstSeen, List.filter_cons, keep, if_true, List.filter_filter, ← ih]
      congr 2
      funext other
      exact Bool.and_comm _ _
    | false =>
      simp only [firstSeen, List.filter_cons, keep, Bool.false_eq_true, if_false,
        List.filter_filter, ← ih]
      refine List.filter_congr fun other _ => ?_
      have apart : p other = true → other ≠ id := fun kept same => by simp [same, keep] at kept
      by_cases kept : p other = true
      · simp [kept, apart kept]
      · simp [kept]

end Lists

section Scoped
variable {F : Type} {numbers : Numbers F} {formats : Formats} {ids other : List Uuid} {d d' : Desk}
  {q : ListPositionsQuery} {claims : Claims} {statuses : List String}

theorem ownedBy_of_selects {m : Hash} (selected : selects formats statuses q (some ids) m = true) :
    ownedBy formats ids m = true := by
  simp only [selects, Bool.and_eq_true, Option.all_some] at selected
  exact selected.2

/-- The selection goes by which users are allowed, in whatever order. -/
theorem selects_congr (members : ∀ u, u ∈ ids ↔ u ∈ other) :
    selects formats statuses q (some ids) = selects formats statuses q (some other) := by
  funext m
  have same : (fun u => decide (u ∈ ids)) = fun u => decide (u ∈ other) := by
    funext u
    exact decide_eq_decide.mpr (members u)
  simp only [selects, Option.all_some, same]

namespace Desk.SameFor

theorem shows_eq (same : SameFor formats ids d d') (key : String) :
    d.shows formats ids key = d'.shows formats ids key := by
  by_cases shown : d.shows formats ids key = true ∨ d'.shows formats ids key = true
  · have stored := same.hashes key shown
    simp only [shows, stored]
  · rw [not_or, Bool.not_eq_true, Bool.not_eq_true] at shown
    rw [shown.1, shown.2]

/-- A listing that goes through the hashes of the same shown keys finds the same. -/
theorem selected_eq (same : SameFor formats ids d d') {keys keys' : List String}
    (keyOf idOf : String → String)
    (listed : keys.filter (fun x => d.shows formats ids (keyOf x)) =
      keys'.filter fun x => d'.shows formats ids (keyOf x)) :
    (keys.filterMap fun x => (d.hgetall (keyOf x)).map (idOf x, ·)).filter
        (fun row => selects formats statuses q (some ids) row.2) =
      (keys'.filterMap fun x => (d'.hgetall (keyOf x)).map (idOf x, ·)).filter
        fun row => selects formats statuses q (some ids) row.2 := by
  have owned (desk : Desk) (l : List String) : ∀ x ∈ l, ∀ row ∈ (desk.hgetall (keyOf x)).map (idOf x, ·),
      selects formats statuses q (some ids) row.2 = true → desk.shows formats ids (keyOf x) = true := by
    intro x _ row found selected
    obtain ⟨m, stored, rfl⟩ := Option.mem_map.mp found
    rw [shows, stored]
    exact ownedBy_of_selects selected
  rw [filter_filterMap_of_imp (owned d keys), filter_filterMap_of_imp (owned d' keys'), listed]
  congr 1
  refine List.filterMap_congr fun x member => ?_
  rw [same.hashes (keyOf x) (.inr (List.mem_filter.mp member).2)]

theorem closed_eq (same : SameFor formats ids d d') :
    (closedCandidates d).filter (fun row => selects formats statuses q (some ids) row.2) =
      (closedCandidates d').filter fun row => selects formats statuses q (some ids) row.2 := by
  refine same.selected_eq id (fun key =>
    String.ofList (trimStartMatches posByIdPrefix.toList key.length key.toList)) ?_
  simp only [List.filter_filter, id]
  have first := congrArg (List.filter fun key => posByIdPrefix.toList <+: key.toList) same.keys
  simpa only [List.filter_filter, Bool.and_comm] using first

theorem open_eq (same : SameFor formats ids d d') :
    (openCandidates formats d q).filter (fun row => selects formats statuses q (some ids) row.2) =
      (openCandidates formats d' q).filter fun row => selects formats statuses q (some ids) row.2 := by
  refine same.selected_eq (posByIdPrefix ++ ·) id ?_
  simp only [openIds]
  cases exactPositionId formats q with
  | some id =>
    refine List.filter_congr fun x _ => ?_
    exact same.shows_eq _
  | none =>
    simp only [filter_firstSeen]
    rw [same.indexes]

theorem userInfo_eq (same : SameFor formats ids d d') {u : Uuid} (allowed : u ∈ ids) :
    userInfo d.tables u = userInfo d'.tables u := by
  have row := same.users u allowed
  cases stored : d.tables.users.lookup u with
  | none =>
    rw [stored] at row
    simp [userInfo, userMap, stored, ← row]
  | some user =>
    rw [stored] at row
    cases inGroup : user.groupId with
    | none => simp [userInfo, userMap, stored, ← row, inGroup]
    | some group =>
      have name := same.groups u allowed user stored group inGroup
      simp [userInfo, userMap, stored, ← row, inGroup, name]

end Desk.SameFor

/-- The user that an owned position names is one of the users. -/
theorem mem_of_ownedBy {m : Hash} (owned : ownedBy formats ids m = true) {u : Uuid}
    (parsed : formats.parseUuid ((m "user_id").getD "") = some u) : u ∈ ids := by
  obtain ⟨v, named, allowed⟩ := Option.any_eq_true _ _ |>.mp owned
  obtain ⟨text, stored, reads⟩ := Option.bind_eq_some_iff.mp named
  rw [stored, Option.getD_some, reads] at parsed
  cases parsed
  simpa using allowed

theorem closedRow_eq (same : d.SameFor formats ids d') {id : String} {m : Hash}
    (owned : ownedBy formats ids m = true) :
    closedRow numbers formats d.tables id m = closedRow numbers formats d'.tables id m := by
  unfold closedRow
  refine Option.map_congr fun u parsed => ?_
  rw [same.userInfo_eq (mem_of_ownedBy owned parsed)]

theorem openRow_eq (same : d.SameFor formats ids d') {id : String} {m : Hash}
    (owned : ownedBy formats ids m = true) :
    openRow numbers formats d.tables id m = openRow numbers formats d'.tables id m := by
  unfold openRow
  refine Option.map_congr fun u parsed => ?_
  rw [same.userInfo_eq (mem_of_ownedBy owned parsed)]

theorem closedKeyed_eq (same : d.SameFor formats ids d') :
    closedKeyed numbers formats d q (some ids) = closedKeyed numbers formats d' q (some ids) := by
  unfold closedKeyed
  rw [← same.closed_eq]
  congr 2
  refine List.filterMap_congr fun row member => ?_
  exact closedRow_eq same (ownedBy_of_selects (List.mem_filter.mp member).2)

theorem openKeyed_eq (same : d.SameFor formats ids d') :
    openKeyed numbers formats d q (some ids) = openKeyed numbers formats d' q (some ids) := by
  unfold openKeyed
  rw [← same.open_eq]
  congr 2
  refine List.filterMap_congr fun row member => ?_
  exact openRow_eq same (ownedBy_of_selects (List.mem_filter.mp member).2)

theorem mem_keyed {rows : List (ℤ × AdminPosition F)} {row : ℤ × AdminPosition F} :
    row ∈ keyed formats q rows ↔ row ∈ rows ∧ retained formats q row.2 = true := by
  simp [keyed]

/-- A listed closed position is filed under the text of a key that holds a
position of an allowed user. -/
theorem key_of_closedKeyed {p : AdminPosition F}
    (member : p ∈ closedKeyed numbers formats d q (some ids)) :
    ∃ key, d.shows formats ids key = true ∧
      p.id = String.ofList (trimStartMatches posByIdPrefix.toList key.length key.toList) := by
  obtain ⟨row, kept, rfl⟩ := List.mem_map.mp member
  obtain ⟨⟨id, m⟩, found, made⟩ := List.mem_filterMap.mp (mem_keyed.mp kept).1
  obtain ⟨candidate, selected⟩ := List.mem_filter.mp found
  obtain ⟨key, _, stored⟩ := List.mem_filterMap.mp candidate
  obtain ⟨m', holds, same⟩ := Option.map_eq_some_iff.mp stored
  obtain ⟨rfl, rfl⟩ := Prod.mk.inj same
  obtain ⟨u, _, rfl⟩ := Option.map_eq_some_iff.mp made
  refine ⟨key, ?_, rfl⟩
  rw [Desk.shows, holds]
  exact ownedBy_of_selects selected

/-- A listed open position is filed under a key that holds a position of an
allowed user. -/
theorem key_of_openKeyed {p : AdminPosition F}
    (member : p ∈ openKeyed numbers formats d q (some ids)) :
    d.shows formats ids (posByIdPrefix ++ p.id) = true := by
  obtain ⟨row, kept, rfl⟩ := List.mem_map.mp member
  obtain ⟨⟨id, m⟩, found, made⟩ := List.mem_filterMap.mp (mem_keyed.mp kept).1
  obtain ⟨candidate, selected⟩ := List.mem_filter.mp found
  obtain ⟨id', _, stored⟩ := List.mem_filterMap.mp candidate
  obtain ⟨m', holds, same⟩ := Option.map_eq_some_iff.mp stored
  obtain ⟨rfl, rfl⟩ := Prod.mk.inj same
  obtain ⟨u, _, rfl⟩ := Option.map_eq_some_iff.mp made
  rw [Desk.shows, holds]
  exact ownedBy_of_selects selected

theorem pageOf_congr {costs costs' : Uuid → Option (ℚ × ℚ)} {rows : List (AdminPosition F)}
    (same : ∀ p ∈ rows, (formats.parseUuid p.id).bind costs = (formats.parseUuid p.id).bind costs') :
    pageOf numbers formats costs q rows = pageOf numbers formats costs' q rows := by
  have items (n k : ℕ) : ((rows.drop n).take k).map (attachCosts numbers formats costs) =
      ((rows.drop n).take k).map (attachCosts numbers formats costs') := by
    refine List.map_congr_left fun p member => ?_
    have listed := List.mem_of_mem_drop (List.mem_of_mem_take member)
    simp only [attachCosts, same p listed]
  simp only [pageOf, items]

@[simp] theorem markPosition_id {prices : String → Option (Option (ℚ × ℚ))} {p : AdminPosition F} :
    (markPosition numbers prices p).id = p.id := by
  unfold markPosition
  split <;> rfl

theorem listClosedPositionsAdmin_eq (same : d.SameFor formats ids d') :
    listClosedPositionsAdmin numbers formats d q (some ids) =
      listClosedPositionsAdmin numbers formats d' q (some ids) := by
  have page : pageOf numbers formats d.costs q (closedKeyed numbers formats d q (some ids)) =
      pageOf numbers formats d'.costs q (closedKeyed numbers formats d q (some ids)) := by
    refine pageOf_congr fun p member => ?_
    obtain ⟨key, shown, filed⟩ := key_of_closedKeyed member
    exact same.costs key shown p.id (.inr filed)
  rw [closedKeyed_eq same] at page
  simp only [listClosedPositionsAdmin, closedKeyed_eq same, page]

theorem listOpenPositionsAdmin_eq (same : d.SameFor formats ids d') :
    listOpenPositionsAdmin numbers formats d q (some ids) =
      listOpenPositionsAdmin numbers formats d' q (some ids) := by
  have page : pageOf numbers formats d.costs q
        ((openKeyed numbers formats d q (some ids)).map (markPosition numbers d.prices)) =
      pageOf numbers formats d'.costs q
        ((openKeyed numbers formats d q (some ids)).map (markPosition numbers d.prices)) := by
    refine pageOf_congr fun p member => ?_
    obtain ⟨p, listed, rfl⟩ := List.mem_map.mp member
    rw [markPosition_id]
    exact same.costs _ (key_of_openKeyed listed) p.id (.inl rfl)
  rw [openKeyed_eq same, same.prices] at page
  simp only [listOpenPositionsAdmin, openKeyed_eq same, same.prices, page]

/-- The answer to who lists positions depends on nothing but the users they are
allowed and what is theirs: whatever happens to other users' positions and rows, it stays the same. -/
theorem listAdminPositions_eq (same : d.SameFor formats ids d')
    (members : ∀ u, u ∈ ids ↔ u ∈ other)
    (permission : checkPermission d.tables claims "trading:view" =
      checkPermission d'.tables claims "trading:view")
    (scope : resolveAllowedUserIdsForTrading d.tables claims = .ok (some ids))
    (scope' : resolveAllowedUserIdsForTrading d'.tables claims = .ok (some other)) :
    listAdminPositions numbers formats d claims q = listAdminPositions numbers formats d' claims q := by
  have closed : listClosedPositionsAdmin numbers formats d q (some ids) =
      listClosedPositionsAdmin numbers formats d' q (some ids) := listClosedPositionsAdmin_eq same
  have opened : listOpenPositionsAdmin numbers formats d q (some ids) =
      listOpenPositionsAdmin numbers formats d' q (some ids) := listOpenPositionsAdmin_eq same
  have ordered : listClosedPositionsAdmin numbers formats d' q (some ids) =
        listClosedPositionsAdmin numbers formats d' q (some other) ∧
      listOpenPositionsAdmin numbers formats d' q (some ids) =
        listOpenPositionsAdmin numbers formats d' q (some other) := by
    simp only [listClosedPositionsAdmin, listOpenPositionsAdmin, closedKeyed, openKeyed,
      selects_congr members, and_self]
  unfold listAdminPositions
  rw [permission, scope, scope']
  cases checkPermission d'.tables claims "trading:view" with
  | error => rfl
  | ok =>
    simp only [bind, Except.bind, closed, opened, ordered.1, ordered.2]

end Scoped

section Agency

/-- Numbers that are whole. -/
def wholeNumbers : Numbers ℤ where
  parse := parseInteger 64
  zero := 0
  positive x := 0 < x
  add := (· + ·)
  percent pnl margin := pnl * 100 / margin
  decimal x := x
  float := Rat.floor

/-- The texts of UUIDs that differ in their last digits, which are decimal. -/
def plainFormats : Formats where
  parseUuid s := if "00000000-0000-4000-8000-".toList <+: s.toList then
    (parseInteger 64 (String.ofList (s.toList.drop 24))).map Int.toNat else none
  showUuid u := "00000000-0000-4000-8000-" ++ toString u
  toLowercase := id
  toUppercase := id
  datetime _ _ := none

/-- An agent, with the row 30 in `managers`, and a client in a group that has
the tag of that row. -/
def agency : Tables where
  users := ((∅ : FiniteTable Uuid User).insert 100000000007
    ⟨some "Ann", some "Lee", "ann@desk", some 40, none, false⟩).insert 3
    ⟨some "Bo", some "Ray", "bo@desk", none, some 90, false⟩
  managers := (∅ : FiniteTable Uuid Uuid).insert 3 30
  tagAssignments := [⟨5, "manager", 30⟩, ⟨5, "group", 40⟩]
  permissionProfileGrants := [(90, "trading:view")]
  leads := []
  userGroups := (∅ : FiniteTable Uuid String).insert 40 "Gold"

def clientPosition : Hash := fun field =>
  [("user_id", "00000000-0000-4000-8000-100000000007"), ("status", "open"), ("symbol", "EURUSD"),
    ("size", "2"), ("entry_price", "3")].lookup field

def strangerPosition : Hash := fun field =>
  [("user_id", "00000000-0000-4000-8000-100000000008"), ("status", "open"),
    ("symbol", "EURUSD")].lookup field

def clientDesk : Desk where
  tables := agency
  positionKeys := ["pos:by_id:1"]
  hgetall key := if key = "pos:by_id:1" then some clientPosition else some fun _ => none
  openIndexes := [("pos:open:EURUSD", ["1"])]
  prices _ := none
  costs _ := none

/-- The desk with a position of a user whom the agent is not let at. -/
def strangerDesk : Desk :=
  { clientDesk with
    positionKeys := ["pos:by_id:2", "pos:by_id:1"]
    hgetall := fun key =>
      if key = "pos:by_id:2" then some strangerPosition else clientDesk.hgetall key
    openIndexes := [("pos:open:EURUSD", ["2", "1"])] }

theorem sameFor_stranger : clientDesk.SameFor plainFormats [100000000007] strangerDesk where
  keys := by decide +kernel
  indexes := by
    intro symbol
    cases symbol with
    | none => decide +kernel
    | some symbol =>
      by_cases there : "pos:open:" ++ symbol = "pos:open:EURUSD"
      · simp only [indexedIds, there]
        decide +kernel
      · have missed : ("pos:open:" ++ symbol == "pos:open:EURUSD") = false := by simpa using there
        simp only [indexedIds, clientDesk, strangerDesk, List.lookup_cons, missed]
        rfl
  hashes := by
    intro key shown
    by_cases stranger : key = "pos:by_id:2"
    · subst stranger
      exact absurd shown (by decide +kernel)
    · simp [strangerDesk, stranger]
  users := fun _ _ => rfl
  groups := fun _ _ _ _ _ _ => rfl
  prices := rfl
  costs := fun _ _ _ _ => rfl

theorem listAdminPositions_stranger :
    listAdminPositions wholeNumbers plainFormats clientDesk ⟨3, "agent"⟩ {} =
      listAdminPositions wholeNumbers plainFormats strangerDesk ⟨3, "agent"⟩ {} :=
  listAdminPositions_eq sameFor_stranger (fun _ => Iff.rfl) rfl
    (by decide +kernel) (by decide +kernel)

end Agency

section Cursors
variable {F : Type} {numbers : Numbers F} {formats : Formats} {q : ListPositionsQuery}
  {claims : Claims} {d : Desk} {allowed : Option (List Uuid)}

/-- The text of a natural number is read back. -/
theorem parseInteger_toString {n : ℕ} (i64 : n < 2 ^ 63) :
    parseInteger 64 (toString (n : ℤ)) = some (n : ℤ) := by
  have text : (toString (n : ℤ)).toList = Nat.toDigits 10 n := Nat.toList_repr
  have digits : (Nat.toDigits 10 n).all Char.isDigit = true := by
    rw [List.all_eq_true]
    exact fun c member => Nat.isDigit_of_mem_toDigits (by norm_num) (by norm_num) member
  have reads : Nat.ofDigitChars 10 (Nat.toDigits 10 n) 0 = n := Nat.ofDigitChars_ten_toDigits
  have range : -2 ^ 63 ≤ (n : ℤ) ∧ (n : ℤ) < 2 ^ 63 := ⟨by omega, by exact_mod_cast i64⟩
  obtain ⟨c, rest, split⟩ := List.exists_cons_of_ne_nil (Nat.toDigits_ne_nil (n := n) (b := 10))
  have first : c.isDigit = true := List.all_eq_true.mp digits c (by rw [split]; exact List.mem_cons_self)
  have plus : c ≠ '+' := fun same => by rw [same] at first; exact absurd first (by decide)
  have minus : c ≠ '-' := fun same => by rw [same] at first; exact absurd first (by decide)
  rw [split] at text digits reads
  unfold parseInteger
  simp only [text]
  split
  next same => exact absurd (List.cons.inj same).1 plus
  next same => exact absurd (List.cons.inj same).1 minus
  next =>
    simp only [ne_eq, reduceCtorEq, not_false_eq_true, true_and, digits, if_true, reads,
      Option.map_some]
    rw [Option.filter_some, if_pos (decide_eq_true range)]

/-- The cursor of a page is the text of the next offset. -/
theorem pageOf_encoded {costs : Uuid → Option (ℚ × ℚ)} {rows : List (AdminPosition F)}
    (small : rows.length < 2 ^ 63) {cursor : Option ℤ}
    (offset : ∀ n ∈ cursor, ∃ k : ℕ, n = k ∧ k ≤ rows.length) :
    pageOf numbers formats costs { q with cursor := cursor.map toString } rows =
      ((offsetPage (min (q.limit.getD 50) 500) rows cursor).1.map (attachCosts numbers formats costs),
        (offsetPage (min (q.limit.getD 50) 500) rows cursor).2.map toString) := by
  have read : ((cursor.map toString).bind (parseInteger 64)).getD 0 = cursor.getD 0 := by
    cases cursor with
    | none => rfl
    | some n =>
      obtain ⟨k, rfl, inside⟩ := offset n rfl
      have reads := parseInteger_toString (show k < 2 ^ 63 by omega)
      rw [Option.map_some, Option.bind_some, reads]
  simp only [pageOf, offsetPage, read, List.length_map]
  split <;> rfl

/-- Whoever follows the cursors of one listing reads all of it, and only a
limit of zero never comes to an end. -/
theorem pageOf_walk {costs : Uuid → Option (ℚ × ℚ)} {rows : List (AdminPosition F)}
    (small : rows.length < 2 ^ 63) (i64 : ∀ limit ∈ q.limit, -2 ^ 63 ≤ limit) :
    (∀ visits : List (Unit × List (AdminPosition F)),
      Walk (fun _ cursor => pageOf numbers formats costs { q with cursor } rows) none visits →
        collected visits = rows.map (attachCosts numbers formats costs)) ∧
    ((∃ visits : List (Unit × List (AdminPosition F)),
      Walk (fun _ cursor => pageOf numbers formats costs { q with cursor } rows) none visits) ↔
        q.limit ≠ some 0 ∨ rows = []) := by
  have lower : -2 ^ 63 ≤ min (q.limit.getD 50) 500 := by
    cases given : q.limit with
    | none => norm_num
    | some limit => exact le_min (i64 limit given) (by norm_num)
  have upper : min (q.limit.getD 50) 500 < 2 ^ 63 := (min_le_right _ _).trans_lt (by norm_num)
  have zero : min (q.limit.getD 50) 500 = 0 ↔ q.limit = some 0 := by
    cases q.limit with
    | none => simp
    | some limit =>
      rw [Option.getD_some, Option.some.injEq]
      omega
  have stays : ∀ (_ : Unit) (cursor : Option ℤ) (next : ℤ),
      (∀ n ∈ cursor, ∃ k : ℕ, n = k ∧ k ≤ rows.length) →
      (offsetPage (min (q.limit.getD 50) 500) rows cursor).2 = some next →
      ∀ n ∈ some next, ∃ k : ℕ, n = k ∧ k ≤ rows.length := by
    intro _ cursor next offset goesOn m same
    cases Option.mem_some.mp same
    cases cursor with
    | none => exact offsetPage_next (n := 0) small lower upper (Nat.zero_le _) goesOn
    | some n =>
      obtain ⟨k, rfl, inside⟩ := offset n rfl
      exact offsetPage_next small lower upper inside goesOn
  have encodes : Encodes (fun _ : Unit => offsetPage (min (q.limit.getD 50) 500) rows)
      (fun _ cursor => pageOf numbers formats costs { q with cursor } rows)
      (fun _ => attachCosts numbers formats costs) toString
      (fun cursor => ∀ n ∈ cursor, ∃ k : ℕ, n = k ∧ k ≤ rows.length) :=
    ⟨fun _ cursor offset => pageOf_encoded small offset, stays⟩
  have encoded (visits : List (Unit × List (AdminPosition F))) :
      Walk (fun _ cursor => pageOf numbers formats costs { q with cursor } rows) none visits ↔
        ∃ plain, Walk (fun _ => offsetPage (min (q.limit.getD 50) 500) rows) none plain ∧
          visits = plain.map fun visit =>
            (visit.1, visit.2.map (attachCosts numbers formats costs)) :=
    walk_encoded encodes fun n (none_ : n ∈ none) => nomatch none_
  have begins (visits : List (Unit × List (AdminPosition F))) :
      Walk (fun _ => offsetPage (min (q.limit.getD 50) 500) rows) none visits ↔
        Walk (fun _ => offsetPage (min (q.limit.getD 50) 500) rows) (some ((0 : ℕ) : ℤ)) visits :=
    ⟨Walk.of_same fun _ => rfl, Walk.of_same fun _ => rfl⟩
  constructor
  · intro visits walk
    obtain ⟨plain, offsets, rfl⟩ := (encoded visits).mp walk
    have all := collected_of_offsets small lower upper ((begins plain).mp offsets) 0 (Nat.zero_le _) rfl
    rw [collected_map, all, List.drop_zero]
  constructor
  · rintro ⟨visits, walk⟩
    obtain ⟨plain, offsets, _⟩ := (encoded visits).mp walk
    by_contra stuck
    rw [not_or, not_not] at stuck
    rw [zero.mpr stuck.1] at begins offsets
    exact not_walk_of_zero ((begins plain).mp offsets) 0 (List.length_pos_of_ne_nil stuck.2) rfl small
  · intro moves
    obtain ⟨plain, offsets⟩ := exists_offsets () small lower upper
      (moves.imp_left fun nonzero => mt zero.mp nonzero) (Nat.zero_le rows.length)
    exact ⟨_, (encoded _).mpr ⟨plain, (begins plain).mpr offsets, rfl⟩⟩

/-- The positions that a query is about, as they are when its first page is asked for. -/
def listed (numbers : Numbers F) (formats : Formats) (d : Desk) (q : ListPositionsQuery)
    (allowed : Option (List Uuid)) : List (AdminPosition F) :=
  if q.status.any (eqIgnoreAsciiCase · "closed") then closedKeyed numbers formats d q allowed
  else (openKeyed numbers formats d q allowed).map (markPosition numbers d.prices)

/-- A page of the answer, with the cursor of the next one. -/
def answer (numbers : Numbers F) (formats : Formats) (claims : Claims) (q : ListPositionsQuery)
    (d : Desk) (cursor : Option String) : List (AdminPosition F) × Option String :=
  match listAdminPositions numbers formats d claims { q with cursor } with
  | .ok response => (response.items, response.cursor)
  | .error _ => ([], none)

theorem answer_eq (permission : checkPermission d.tables claims "trading:view" = .ok ())
    (scope : resolveAllowedUserIdsForTrading d.tables claims = .ok allowed) (cursor : Option String) :
    answer numbers formats claims q d cursor =
      pageOf numbers formats d.costs { q with cursor } (listed numbers formats d q allowed) := by
  simp only [answer, listAdminPositions, permission, scope, bind, Except.bind, listed]
  by_cases closed : q.status.any (eqIgnoreAsciiCase · "closed") = true
  · simp only [closed, if_true]
    rfl
  · simp only [closed, Bool.false_eq_true, if_false]
    rfl

/-- Whoever follows the cursors reads every position that the query is about
once, from the latest; only a limit of zero brings the same page for ever. -/
theorem listAdminPositions_walk (permission : checkPermission d.tables claims "trading:view" = .ok ())
    (scope : resolveAllowedUserIdsForTrading d.tables claims = .ok allowed)
    (small : (listed numbers formats d q allowed).length < 2 ^ 63)
    (i64 : ∀ limit ∈ q.limit, -2 ^ 63 ≤ limit) :
    (∀ visits : List (Unit × List (AdminPosition F)),
      Walk (fun _ => answer numbers formats claims q d) none visits →
        collected visits =
          (listed numbers formats d q allowed).map (attachCosts numbers formats d.costs)) ∧
    ((∃ visits : List (Unit × List (AdminPosition F)),
      Walk (fun _ => answer numbers formats claims q d) none visits) ↔
        q.limit ≠ some 0 ∨ listed numbers formats d q allowed = []) := by
  have pages : answer numbers formats claims q d = fun cursor =>
      pageOf numbers formats d.costs { q with cursor } (listed numbers formats d q allowed) :=
    funext fun cursor => answer_eq permission scope cursor
  rw [pages]
  exact pageOf_walk small i64

theorem listAdminPositions_walk_stranger :
    (∀ visits : List (Unit × List (AdminPosition ℤ)),
      Walk (fun _ => answer wholeNumbers plainFormats ⟨3, "agent"⟩ { limit := some 1 } strangerDesk)
          none visits →
        collected visits = (listed wholeNumbers plainFormats strangerDesk { limit := some 1 }
          (some [100000000007])).map (attachCosts wholeNumbers plainFormats strangerDesk.costs)) ∧
    ((∃ visits : List (Unit × List (AdminPosition ℤ)),
      Walk (fun _ => answer wholeNumbers plainFormats ⟨3, "agent"⟩ { limit := some 1 } strangerDesk)
          none visits) ↔
        (some 1 : Option ℤ) ≠ some 0 ∨ listed wholeNumbers plainFormats strangerDesk
          { limit := some 1 } (some [100000000007]) = []) :=
  listAdminPositions_walk (q := { limit := some 1 }) (by decide +kernel) (by decide +kernel)
    (by decide +kernel) (by decide)

end Cursors
end TradingPlatform.Access
