import TradingPlatform.Auth.PermissionProfiles

namespace TradingPlatform.PermissionProfiles
open Statements RequestTexts

section Runs
variable {lower : String → String} {t : Tables} {id now : ℕ}

/-- What is seen of the profile after some statements. -/
def seenAfter (seen : Observed) (done : List Statement) : Observed := done.foldl Statement.effect seen

/-- None of the statements is refused. -/
def Passes (lower : String → String) (t : Tables) (id : ℕ) :
    Observed → List Statement → Prop
  | _, [] => True
  | seen, q :: rest => ¬q.Refused lower t id seen ∧ Passes lower t id (q.effect seen) rest

theorem passes_append {first second : List Statement} {seen : Observed} :
    Passes lower t id seen (first ++ second) ↔
      Passes lower t id seen first ∧ Passes lower t id (seenAfter seen first) second := by
  induction first generalizing seen with
  | nil => simp [Passes, seenAfter]
  | cons q first ih =>
    simp only [List.cons_append, Passes, ih, and_assoc]
    rfl

theorem Reached.passes {seen : Observed} {before after : Tables}
    (reached : Reached t id seen before) {done : List Statement}
    (all : done.foldlM (Tables.run lower id now) before = .ok after) :
    Passes lower t id seen done ∧ Reached t id (seenAfter seen done) after := by
  induction done generalizing seen before with
  | nil =>
    obtain rfl := Except.ok.inj all
    exact ⟨trivial, reached⟩
  | cons q done ih =>
    rw [List.foldlM_cons] at all
    by_cases refused : q.Refused lower t id seen
    · obtain ⟨e, fails⟩ := reached.refused now refused
      rw [fails] at all
      cases all
    · obtain ⟨next, taken, still⟩ := reached.accepted now refused
      rw [taken] at all
      obtain ⟨passes, final⟩ := ih still all
      exact ⟨⟨refused, passes⟩, final⟩

theorem Reached.foldlM {seen : Observed} {before : Tables} (reached : Reached t id seen before)
    (now : ℕ) {done : List Statement} (passes : Passes lower t id seen done) :
    ∃ after, done.foldlM (Tables.run lower id now) before = .ok after ∧
      Reached t id (seenAfter seen done) after := by
  induction done generalizing seen before with
  | nil => exact ⟨before, rfl, reached⟩
  | cons q done ih =>
    obtain ⟨accepted, passes⟩ := passes
    obtain ⟨next, taken, still⟩ := reached.accepted now accepted
    obtain ⟨after, all, final⟩ := ih still passes
    refine ⟨after, ?_, final⟩
    rw [List.foldlM_cons, taken]
    exact all

theorem Reached.refused_iff {seen : Observed} {after : Tables} (reached : Reached t id seen after)
    (now : ℕ) (q : Statement) :
    (∃ e, after.run lower id now q = .error e) ↔ q.Refused lower t id seen := by
  constructor
  · rintro ⟨e, fails⟩
    by_contra accepted
    obtain ⟨next, taken, -⟩ := reached.accepted now accepted
    rw [fails] at taken
    cases taken
  · exact reached.refused now

end Runs

section Property
variable (lower : String → String) (now : ℕ) (fault : Option ℕ) (t : Tables) (request : Request)

/-- The call returns a profile. -/
def Accepted : Prop := ∃ profile, (edit lower now fault t request).1 = .ok (some profile)

/-- An edit is atomic and normalising. -/
structure AtomicNormalising : Prop where
  unchanged : ∀ e, (edit lower now fault t request).1 = .error e →
    ∀ id, (edit lower now fault t request).2.observed id = t.observed id
  grants : Accepted lower now fault t request →
    (edit lower now fault t request).2.granted request.id =
      request.keys.elim (t.granted request.id) fun keys => (trimmedKeys keys).toFinset
  others : ∀ id, id ≠ request.id →
    (edit lower now fault t request).2.granted id = t.granted id
  accepts : ∀ keys other, request.keys = some keys →
    (trimmedKeys other).toFinset = (trimmedKeys keys).toFinset →
    Accepted lower now none t (request.withKeys other) → Accepted lower now none t request

/-- The first statement to fail, if one does, comes before what the statements
change or after they have restored it. -/
def FailsUnchanged : Prop :=
  ∀ done failing rest, request.statements t = done ++ failing :: rest →
    Passes lower t request.id (t.observed request.id) done → Outlasts fault done.length →
    (fault = some done.length ∨
      failing.Refused lower t request.id (seenAfter (t.observed request.id) done)) →
    seenAfter (t.observed request.id) done = t.observed request.id

/-- An update of a stored profile that nothing but a repeated key stands
against. -/
structure OtherwiseAcceptable (id : ℕ) (name : Option String)
    (description : Option (Option String)) (keys : List String) : Prop where
  stored : id ∈ t.profiles
  name : ∀ newName ∈ nonblank name, fits 255 newName ∧ ¬t.nameTaken lower id newName
  description : ∀ text ∈ description, (nonblank text).all storable
  known : ∀ key ∈ trimmedKeys keys, key ∈ t.permissions

/-- An update repeats no key that is otherwise acceptable. -/
def NoRepeatedKey : Request → Prop
  | .create .. => True
  | .update _ _ _ none => True
  | .update id name description (some keys) =>
    OtherwiseAcceptable lower t id name description keys → (trimmedKeys keys).Nodup

end Property

section Plans
variable {lower : String → String} {t : Tables} {id : ℕ} {seen : Observed} {keys : List String}

theorem seenAfter_append (seen : Observed) (first second : List Statement) :
    seenAfter seen (first ++ second) = seenAfter (seenAfter seen first) second :=
  List.foldl_append

theorem seenAfter_checks (seen : Observed) (keys : List String) :
    seenAfter seen (keys.map .checks) = seen := by
  induction keys with
  | nil => rfl
  | cons key keys ih => exact ih

theorem seenAfter_grants (seen : Observed) (keys : List String) (onConflict : Bool) :
    seenAfter seen (keys.map (.grants · onConflict)) =
      { seen with keys := keys.toFinset ∪ seen.keys } := by
  induction keys generalizing seen with
  | nil => simp [seenAfter]
  | cons key keys ih =>
    have next := ih (Statement.effect seen (.grants key onConflict))
    have order : keys.toFinset ∪ insert key seen.keys = insert key keys.toFinset ∪ seen.keys := by
      ext other
      simp only [Finset.mem_union, Finset.mem_insert]
      tauto
    simpa [seenAfter, Statement.effect, order] using next

theorem passes_checks : Passes lower t id seen (keys.map .checks) ↔
    ∀ key ∈ keys, key ∈ t.permissions := by
  induction keys generalizing seen with
  | nil => simp [Passes]
  | cons key keys ih => simp [Passes, Statement.Refused, Statement.effect, ih]

theorem passes_grants_onConflict (known : ∀ key ∈ keys, key ∈ t.permissions)
    (stored : seen.profile.isSome) : Passes lower t id seen (keys.map (.grants · true)) := by
  induction keys generalizing seen with
  | nil => trivial
  | cons key keys ih =>
    have short := t.short key (known key List.mem_cons_self)
    have some_profile : seen.profile ≠ none := Option.isSome_iff_ne_none.mp stored
    refine ⟨by simp [Statement.Refused, some_profile, short], ?_⟩
    exact ih (fun other member => known other (List.mem_cons_of_mem _ member)) stored

/-- Without `ON CONFLICT` the keys have to be new. -/
theorem passes_grants_iff (known : ∀ key ∈ keys, key ∈ t.permissions)
    (stored : seen.profile.isSome) : Passes lower t id seen (keys.map (.grants · false)) ↔
      keys.Nodup ∧ ∀ key ∈ keys, key ∉ seen.keys := by
  induction keys generalizing seen with
  | nil => simp [Passes]
  | cons key keys ih =>
    have short := t.short key (known key List.mem_cons_self)
    have some_profile : seen.profile ≠ none := Option.isSome_iff_ne_none.mp stored
    have rest : Passes lower t id (Statement.effect seen (.grants key false))
        (keys.map (.grants · false)) ↔ keys.Nodup ∧ ∀ other ∈ keys, other ∉ insert key seen.keys :=
      ih (fun other member => known other (List.mem_cons_of_mem _ member)) stored
    rw [List.map_cons, Passes, rest]
    simp only [Statement.Refused, some_profile, short, List.nodup_cons, List.forall_mem_cons,
      Finset.mem_insert, not_or]
    constructor
    · rintro ⟨new, distinct, others⟩
      refine ⟨⟨fun member => (others key member).1 rfl, distinct⟩, by simpa using new, ?_⟩
      exact fun other member => (others other member).2
    · rintro ⟨⟨single, distinct⟩, new, others⟩
      refine ⟨by simpa using new, distinct, fun other member => ⟨?_, others other member⟩⟩
      exact fun same => single (same ▸ member)

/-- The statements of an update before those about the keys. -/
def ownStatements (name : Option String) (description : Option (Option String)) :
    List Statement :=
  ((nonblank name).map Statement.renames).toList ++
    (description.map fun text => Statement.describes (nonblank text)).toList

theorem seenAfter_own (seen : Observed) (name : Option String)
    (description : Option (Option String)) :
    (seenAfter seen (ownStatements name description)).keys = seen.keys ∧
      (seenAfter seen (ownStatements name description)).profile.isSome = seen.profile.isSome := by
  unfold ownStatements
  cases nonblank name <;> cases description <;> simp [seenAfter, Statement.effect]

theorem passes_own (stored : seen.profile.isSome) (name : Option String)
    (description : Option (Option String)) :
    Passes lower t id seen (ownStatements name description) ↔
      (∀ newName ∈ nonblank name, fits 255 newName ∧ ¬t.nameTaken lower id newName) ∧
        ∀ text ∈ description, (nonblank text).all storable := by
  unfold ownStatements
  cases nonblank name <;> cases description <;>
    simp [Passes, Statement.Refused, stored]

theorem updateStatements_some (name : Option String) (description : Option (Option String))
    (keys : List String) : updateStatements name description (some keys) =
      ownStatements name description ++ (trimmedKeys keys).map .checks ++
        .clears :: ((trimmedKeys keys).map (.grants · false) ++ [.touches, .returns]) := by
  simp [updateStatements, ownStatements, validatePermissionKeys]

theorem updateStatements_none (name : Option String) (description : Option (Option String)) :
    updateStatements name description none = ownStatements name description ++ [.returns] := by
  simp [updateStatements, ownStatements]

theorem passes_updateStatements (stored : seen.profile.isSome) (name : Option String)
    (description : Option (Option String)) :
    Passes lower t id seen (updateStatements name description (some keys)) ↔
      Passes lower t id seen (ownStatements name description) ∧
        (∀ key ∈ trimmedKeys keys, key ∈ t.permissions) ∧ (trimmedKeys keys).Nodup := by
  have still : (seenAfter seen (ownStatements name description)).profile.isSome := by
    rw [(seenAfter_own seen name description).2]
    exact stored
  rw [updateStatements_some, passes_append, passes_append, seenAfter_append, seenAfter_checks,
    passes_checks, and_assoc, Passes]
  refine and_congr_right fun _ => and_congr_right fun known => ?_
  have cleared : (Statement.effect (seenAfter seen (ownStatements name description))
      .clears).profile.isSome := still
  rw [passes_append, passes_grants_iff known cleared]
  simp [Passes, Statement.Refused, Statement.effect]

theorem seenAfter_updateStatements (seen : Observed) (name : Option String)
    (description : Option (Option String)) :
    (seenAfter seen (updateStatements name description (some keys))).keys =
        (trimmedKeys keys).toFinset ∧
      (seenAfter seen (updateStatements name description (some keys))).profile.isSome =
        seen.profile.isSome := by
  rw [updateStatements_some, seenAfter_append, seenAfter_append, seenAfter_checks]
  have grants : seenAfter (Statement.effect (seenAfter seen (ownStatements name description))
      .clears) ((trimmedKeys keys).map (.grants · false)) =
      { seenAfter seen (ownStatements name description) with
        keys := (trimmedKeys keys).toFinset } := by
    rw [seenAfter_grants]
    simp [Statement.effect]
  have split : seenAfter (seenAfter seen (ownStatements name description))
      (.clears :: ((trimmedKeys keys).map (.grants · false) ++ [.touches, .returns])) =
      seenAfter (seenAfter (Statement.effect (seenAfter seen (ownStatements name description))
        .clears) ((trimmedKeys keys).map (.grants · false))) [.touches, .returns] :=
    seenAfter_append ..
  rw [split, grants]
  exact ⟨rfl, (seenAfter_own seen name description).2⟩

theorem passes_finds {rest : List Statement} :
    Passes lower t id seen (.finds :: rest) ↔ Passes lower t id seen rest :=
  ⟨And.right, fun passes => ⟨not_false, passes⟩⟩

theorem seenAfter_finds (seen : Observed) (rest : List Statement) :
    seenAfter seen (.finds :: rest) = seenAfter seen rest := rfl

end Plans

section Edits
variable {lower : String → String} {now : ℕ} {fault : Option ℕ} {t : Tables} {request : Request}

/-- How an edit ends. -/
theorem edit_cases (lower : String → String) (now : ℕ) (fault : Option ℕ) (t : Tables)
    (named : request.isNameless = false) :
    (∃ final, edit lower now fault t request =
        (.ok (final.profiles.lookup request.id), final) ∧
      Outlasts fault (request.statements t).length ∧
      Passes lower t request.id (t.observed request.id) (request.statements t) ∧
      Reached t request.id (seenAfter (t.observed request.id) (request.statements t)) final) ∨
    ∃ done failing rest middle e, request.statements t = done ++ failing :: rest ∧
      edit lower now fault t request = (.error e, middle) ∧ Outlasts fault done.length ∧
      Passes lower t request.id (t.observed request.id) done ∧
      Reached t request.id (seenAfter (t.observed request.id) done) middle ∧
      (fault = some done.length ∨
        failing.Refused lower t request.id (seenAfter (t.observed request.id) done)) := by
  have start := Reached.start t request.id
  unfold edit
  rw [named]
  rcases execute_cases (Tables.run lower request.id now) .database fault (request.statements t) t
    with ⟨final, ends, outlasts, passes⟩ |
      ⟨done, failing, rest, middle, e, plan, ends, outlasts, passes, stops⟩
  · obtain ⟨accepted, reached⟩ := start.passes passes
    exact .inl ⟨final, by rw [ends]; rfl, outlasts, accepted, reached⟩
  · obtain ⟨accepted, reached⟩ := start.passes passes
    refine .inr ⟨done, failing, rest, middle, e, plan, by rw [ends]; rfl, outlasts, accepted,
      reached, ?_⟩
    exact stops.imp_right (reached.refused_iff now failing).mp

theorem edit_of_stops (now : ℕ) (named : request.isNameless = false) {done rest : List Statement}
    {failing : Statement} (plan : request.statements t = done ++ failing :: rest)
    (passes : Passes lower t request.id (t.observed request.id) done)
    (outlasts : Outlasts fault done.length)
    (stops : fault = some done.length ∨
      failing.Refused lower t request.id (seenAfter (t.observed request.id) done)) :
    ∃ e middle, edit lower now fault t request = (.error e, middle) ∧
      Reached t request.id (seenAfter (t.observed request.id) done) middle := by
  obtain ⟨middle, all, reached⟩ := (Reached.start t request.id).foldlM now passes
  have stopped := stops.imp_right (reached.refused_iff now failing).mpr
  obtain ⟨e, ends⟩ := execute_of_stops Failure.database outlasts all stopped
  refine ⟨e, middle, ?_, reached⟩
  unfold edit
  rw [named, plan, ends]
  rfl

theorem edit_of_passes (now : ℕ) (named : request.isNameless = false)
    (passes : Passes lower t request.id (t.observed request.id) (request.statements t)) :
    ∃ final, edit lower now none t request = (.ok (final.profiles.lookup request.id), final) ∧
      Reached t request.id (seenAfter (t.observed request.id) (request.statements t)) final := by
  obtain ⟨final, all, reached⟩ := (Reached.start t request.id).foldlM now passes
  have endless : Outlasts none (request.statements t).length := by
    intro number lost
    cases lost
  have ends := execute_of_passes Failure.database endless all
  refine ⟨final, ?_, reached⟩
  unfold edit
  rw [named, ends]
  rfl

/-- Without a lost connection an edit is accepted if no statement is refused
and a profile is there in the end. -/
theorem accepted_none_iff : Accepted lower now none t request ↔ request.isNameless = false ∧
    Passes lower t request.id (t.observed request.id) (request.statements t) ∧
    (seenAfter (t.observed request.id) (request.statements t)).profile.isSome := by
  constructor
  · rintro ⟨profile, accepted⟩
    by_cases named : request.isNameless = false
    · rcases edit_cases lower now none t named with
        ⟨final, ends, -, passes, reached⟩ | ⟨_, _, _, _, e, -, ends, -⟩
      · rw [ends] at accepted
        have found : final.profiles.lookup request.id = some profile := Except.ok.inj accepted
        refine ⟨named, passes, ?_⟩
        rw [← reached.lookup_isSome, found]
        rfl
      · rw [ends] at accepted
        cases accepted
    · rw [Bool.not_eq_false] at named
      simp [edit, named] at accepted
  · rintro ⟨named, passes, stored⟩
    obtain ⟨final, ends, reached⟩ := edit_of_passes now named passes
    rw [← reached.lookup_isSome] at stored
    obtain ⟨profile, found⟩ := Option.isSome_iff_exists.mp stored
    exact ⟨profile, by rw [ends]; exact congrArg Except.ok found⟩

theorem observed_profile_isSome (id : ℕ) :
    (t.observed id).profile.isSome ↔ id ∈ t.profiles := by
  simp [Tables.observed, AList.lookup_isSome]

theorem accepted_update_iff {id : ℕ} {name : Option String} {description : Option (Option String)}
    {keys : List String} :
    Accepted lower now none t (.update id name description (some keys)) ↔
      OtherwiseAcceptable lower t id name description keys ∧ (trimmedKeys keys).Nodup := by
  rw [accepted_none_iff]
  have same : (Request.update id name description (some keys)).id = id := rfl
  by_cases stored : id ∈ t.profiles
  · have shown := (observed_profile_isSome id).mpr stored
    have plan : (Request.update id name description (some keys)).statements t =
        .finds :: updateStatements name description (some keys) := if_pos stored
    rw [plan, same, passes_finds, passes_updateStatements shown, passes_own shown, seenAfter_finds,
      (seenAfter_updateStatements _ name description).2]
    constructor
    · rintro ⟨-, ⟨⟨names, texts⟩, known, distinct⟩, -⟩
      exact ⟨⟨stored, names, texts, known⟩, distinct⟩
    · rintro ⟨⟨-, names, texts, known⟩, distinct⟩
      exact ⟨rfl, ⟨⟨names, texts⟩, known, distinct⟩, shown⟩
  · have plan : (Request.update id name description (some keys)).statements t = [.finds] :=
      if_neg stored
    rw [plan, same, seenAfter_finds]
    constructor
    · rintro ⟨-, -, shown⟩
      exact absurd ((observed_profile_isSome id).mp shown) stored
    · rintro ⟨acceptable, -⟩
      exact absurd acceptable.stored stored

theorem accepted_create_iff {id : ℕ} {name : String} {description : Option String}
    {keys : List String} {createdByUserId : Option ℕ} :
    Accepted lower now none t (.create id name description keys createdByUserId) ↔
      trimText name ≠ "" ∧ (∀ key ∈ trimmedKeys keys, key ∈ t.permissions) ∧
        ¬(Statement.inserts (trimText name) (nonblank description) createdByUserId).Refused
          lower t id (t.observed id) := by
  rw [accepted_none_iff]
  have same : (Request.create id name description keys createdByUserId).id = id := rfl
  have nameless : (Request.create id name description keys createdByUserId).isNameless = false ↔
      trimText name ≠ "" := by simp [Request.isNameless]
  rw [nameless, same]
  refine and_congr_right fun named => ?_
  have plan : (Request.create id name description keys createdByUserId).statements t =
      createStatements name description keys createdByUserId := if_neg named
  have inserted : (Statement.effect (t.observed id)
      (.inserts (trimText name) (nonblank description) createdByUserId)).profile.isSome := rfl
  rw [plan, createStatements, validatePermissionKeys, passes_append, passes_checks,
    seenAfter_checks, Passes, passes_append, seenAfter_append, seenAfter_checks]
  constructor
  · rintro ⟨⟨known, accepted, -⟩, -⟩
    exact ⟨known, accepted⟩
  · rintro ⟨known, accepted⟩
    refine ⟨⟨known, accepted, passes_grants_onConflict known inserted, not_false, trivial⟩, ?_⟩
    have split : seenAfter (t.observed id)
        (.inserts (trimText name) (nonblank description) createdByUserId ::
          ((trimmedKeys keys).map (.grants · true) ++ [.returns])) =
        seenAfter (seenAfter (Statement.effect (t.observed id)
          (.inserts (trimText name) (nonblank description) createdByUserId))
            ((trimmedKeys keys).map (.grants · true))) [.returns] := seenAfter_append ..
    rw [split, seenAfter_grants]
    rfl

theorem exists_distinct (keys : List String) :
    ∃ other, trimmedKeys other = (trimmedKeys keys).dedup := by
  have within : (trimmedKeys keys).dedup.Sublist (keys.map trimText) :=
    (List.dedup_sublist _).trans List.filter_sublist
  obtain ⟨other, -, same⟩ := List.sublist_map_iff.mp within
  refine ⟨other, ?_⟩
  unfold trimmedKeys at same ⊢
  rw [← same]
  refine List.filter_eq_self.mpr fun key member => ?_
  exact (List.mem_filter.mp (List.mem_dedup.mp member)).2

theorem OtherwiseAcceptable.of_same {id : ℕ} {name : Option String}
    {description : Option (Option String)} {keys other : List String}
    (acceptable : OtherwiseAcceptable lower t id name description keys)
    (same : (trimmedKeys other).toFinset = (trimmedKeys keys).toFinset) :
    OtherwiseAcceptable lower t id name description other := by
  refine ⟨acceptable.stored, acceptable.name, acceptable.description, fun key member => ?_⟩
  have shared : key ∈ (trimmedKeys keys).toFinset := same ▸ List.mem_toFinset.mpr member
  exact acceptable.known key (List.mem_toFinset.mp shared)

/-- What distinguishes key lists with the same keys is whether one is repeated
in an update. -/
theorem accepts_iff : (∀ keys other, request.keys = some keys →
    (trimmedKeys other).toFinset = (trimmedKeys keys).toFinset →
    Accepted lower now none t (request.withKeys other) → Accepted lower now none t request) ↔
      NoRepeatedKey lower t request := by
  cases request with
  | create id name description keys createdByUserId =>
    refine iff_of_true ?_ trivial
    intro keys' other given same accepted
    obtain rfl := Option.some.inj given
    obtain ⟨named, known, inserted⟩ := accepted_create_iff.mp accepted
    refine accepted_create_iff.mpr ⟨named, fun key member => known key ?_, inserted⟩
    have shared := List.mem_toFinset.mpr member
    rw [← same] at shared
    exact List.mem_toFinset.mp shared
  | update id name description keys =>
    cases keys with
    | none =>
      refine iff_of_true ?_ trivial
      intro keys other given
      cases given
    | some keys =>
      constructor
      · intro accepts acceptable
        obtain ⟨other, distinct⟩ := exists_distinct keys
        have same : (trimmedKeys other).toFinset = (trimmedKeys keys).toFinset := by
          rw [distinct]
          ext key
          simp
        have accepted : Accepted lower now none t (.update id name description (some other)) :=
          accepted_update_iff.mpr ⟨acceptable.of_same same, by
            rw [distinct]
            exact List.nodup_dedup _⟩
        exact (accepted_update_iff.mp (accepts keys other rfl same accepted)).2
      · intro distinct keys' other given same accepted
        obtain rfl := Option.some.inj given
        obtain ⟨acceptable, -⟩ := accepted_update_iff.mp accepted
        have own := acceptable.of_same same.symm
        exact accepted_update_iff.mpr ⟨own, distinct own⟩

/-- Nothing is granted to a profile that is not there. -/
theorem granted_of_missing {id : ℕ} (missing : id ∉ t.profiles) : t.granted id = ∅ := by
  refine Finset.eq_empty_of_forall_notMem fun key member => missing ?_
  exact t.owned (id, key) (Tables.mem_granted.mp member)

/-- The grants that the statements of a request lead to, if none is refused. -/
theorem seenAfter_statements_keys (named : request.isNameless = false)
    (passes : Passes lower t request.id (t.observed request.id) (request.statements t))
    (stored : (seenAfter (t.observed request.id) (request.statements t)).profile.isSome) :
    (seenAfter (t.observed request.id) (request.statements t)).keys =
      request.keys.elim (t.granted request.id) fun keys => (trimmedKeys keys).toFinset := by
  cases request with
  | create id name description keys createdByUserId =>
    have same : (Request.create id name description keys createdByUserId).id = id := rfl
    have plan : (Request.create id name description keys createdByUserId).statements t =
        createStatements name description keys createdByUserId :=
      if_neg (by simpa [Request.isNameless] using named)
    rw [plan, same, createStatements, validatePermissionKeys, passes_append, seenAfter_checks]
      at passes
    obtain ⟨-, accepted, -⟩ := passes
    have missing : id ∉ t.profiles := by
      intro stored
      exact accepted (.inl ((observed_profile_isSome id).mpr stored))
    rw [plan, same, createStatements, validatePermissionKeys, seenAfter_append, seenAfter_checks]
    have split : seenAfter (t.observed id)
        (.inserts (trimText name) (nonblank description) createdByUserId ::
          ((trimmedKeys keys).map (.grants · true) ++ [.returns])) =
        seenAfter (seenAfter (Statement.effect (t.observed id)
          (.inserts (trimText name) (nonblank description) createdByUserId))
            ((trimmedKeys keys).map (.grants · true))) [.returns] := seenAfter_append ..
    rw [split, seenAfter_grants]
    have nothing : (t.observed id).keys = ∅ := granted_of_missing missing
    simp [seenAfter, Statement.effect, nothing, Request.keys]
  | update id name description keys =>
    have same : (Request.update id name description keys).id = id := rfl
    by_cases found : id ∈ t.profiles
    · have plan : (Request.update id name description keys).statements t =
          .finds :: updateStatements name description keys := if_pos found
      rw [plan, same, seenAfter_finds]
      cases keys with
      | none =>
        rw [updateStatements_none, seenAfter_append]
        exact (seenAfter_own _ name description).1
      | some keys => exact (seenAfter_updateStatements _ name description).1
    · have plan : (Request.update id name description keys).statements t = [.finds] :=
        if_neg found
      rw [plan, same, seenAfter_finds] at stored
      exact absurd ((observed_profile_isSome id).mp stored) found

/-- One profile that grants one key, and another key that it does not. -/
def oneProfile : Tables where
  profiles := AList.singleton 1 ⟨"Desk", none, 0, 0, none⟩
  grants := {(1, "users:view")}
  permissions := {"users:view", "leads:view"}
  users := ∅
  owned := by decide
  short := by decide +kernel

end Edits

end TradingPlatform.PermissionProfiles
