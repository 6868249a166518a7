import TradingPlatform.Auth.RequestTexts
import TradingPlatform.Library.FiniteTable
import TradingPlatform.Library.Statements

namespace TradingPlatform.PermissionProfiles
open Statements RequestTexts

/-- A row of `permission_profiles` but its id. -/
structure PermissionProfile where
  name : String
  description : Option String
  createdAt : ℕ
  updatedAt : ℕ
  createdByUserId : Option ℕ
  deriving DecidableEq, Repr

/-- The tables with their constraints: the foreign key of
`permission_profile_grants`, and the length of a permission key. -/
structure Tables where
  profiles : FiniteTable ℕ PermissionProfile
  /-- `permission_profile_grants`, whose primary key is the pair. -/
  grants : Finset (ℕ × String)
  /-- The keys of `permissions`. -/
  permissions : Finset String
  /-- The ids of `users`. -/
  users : Finset ℕ
  owned : ∀ grant ∈ grants, grant.1 ∈ profiles
  short : ∀ key ∈ permissions, fits 100 key

/-- The statements of the service; `grants` may have an
`ON CONFLICT DO NOTHING`. -/
inductive Statement
  | finds
  | checks (key : String)
  | inserts (name : String) (description : Option String) (createdByUserId : Option ℕ)
  | renames (name : String)
  | describes (description : Option String)
  | clears
  | grants (key : String) (onConflict : Bool)
  | touches
  | returns
  deriving DecidableEq, Repr

namespace Tables

/-- The unique index on `LOWER(name)`. -/
def nameTaken (lower : String → String) (t : Tables) (id : ℕ) (name : String) : Bool :=
  t.profiles.entries.any fun row => row.1 ≠ id ∧ lower row.2.name = lower name

theorem owned_insert {t : Tables} {id : ℕ} {profile : PermissionProfile} :
    ∀ grant ∈ t.grants, grant.1 ∈ t.profiles.insert id profile :=
  fun grant member => AList.mem_insert _ |>.mpr (.inr (t.owned grant member))

/-- A row of `permission_profiles` is written. -/
def putProfile (t : Tables) (id : ℕ) (profile : PermissionProfile) : Tables :=
  { t with profiles := t.profiles.insert id profile, owned := owned_insert }

/-- `DELETE` of the grants of a profile. -/
def clearGrants (t : Tables) (id : ℕ) : Tables :=
  { t with
    grants := t.grants.filter (·.1 ≠ id)
    owned := fun grant member => t.owned grant (Finset.mem_filter.mp member).1 }

def addGrant (t : Tables) {id : ℕ} (exists_ : id ∈ t.profiles) (key : String) : Tables :=
  { t with
    grants := insert (id, key) t.grants
    owned := fun grant member => (Finset.mem_insert.mp member).elim
      (fun new => new ▸ exists_) (t.owned grant) }

/-- A statement of a call about the profile `id`, at the time `now`. -/
def run (lower : String → String) (id now : ℕ) (t : Tables) : Statement → Except Failure Tables
  | .finds | .returns => .ok t
  | .checks key =>
    if storable key then
      if key ∈ t.permissions then .ok t
      else .error (.rejected ("Unknown permission key: " ++ key))
    else .error .database
  | .inserts name description createdByUserId =>
    if id ∉ t.profiles ∧ fits 255 name ∧ description.all storable ∧ ¬t.nameTaken lower id name ∧
        createdByUserId.all (· ∈ t.users) then
      .ok (t.putProfile id ⟨name, description, now, now, createdByUserId⟩)
    else .error .database
  | .renames name =>
    match t.profiles.lookup id with
    | none => .ok t
    | some profile =>
      if fits 255 name ∧ ¬t.nameTaken lower id name then
        .ok (t.putProfile id { profile with name := name, updatedAt := now })
      else .error .database
  | .describes description =>
    if description.all storable then
      match t.profiles.lookup id with
      | none => .ok t
      | some profile =>
        .ok (t.putProfile id { profile with description := description, updatedAt := now })
    else .error .database
  | .clears => .ok (t.clearGrants id)
  | .grants key onConflict =>
    if exists_ : id ∈ t.profiles then
      if fits 100 key ∧ (onConflict ∨ (id, key) ∉ t.grants) then .ok (t.addGrant exists_ key)
      else .error .database
    else .error .database
  | .touches =>
    match t.profiles.lookup id with
    | none => .ok t
    | some profile => .ok (t.putProfile id { profile with updatedAt := now })

end Tables

section Service

/-- The keys that are looked at: trimmed, without the blank ones. -/
def trimmedKeys (keys : List String) : List String := (keys.map trimText).filter (· ≠ "")

def validatePermissionKeys (keys : List String) : List Statement :=
  (trimmedKeys keys).map .checks

def createStatements (name : String) (description : Option String) (keys : List String)
    (createdByUserId : Option ℕ) : List Statement :=
  validatePermissionKeys keys ++
    .inserts (trimText name) (nonblank description) createdByUserId ::
      ((trimmedKeys keys).map (.grants · true) ++ [.returns])

/-- What follows once the profile is found. -/
def updateStatements (name : Option String) (description : Option (Option String))
    (keys : Option (List String)) : List Statement :=
  ((nonblank name).map Statement.renames).toList ++
    (description.map fun text => Statement.describes (nonblank text)).toList ++
    (keys.elim [] fun keys => validatePermissionKeys keys ++
      .clears :: ((trimmedKeys keys).map (.grants · false) ++ [.touches])) ++ [.returns]

inductive Request
  | create (id : ℕ) (name : String) (description : Option String) (keys : List String)
      (createdByUserId : Option ℕ)
  | update (id : ℕ) (name : Option String) (description : Option (Option String))
      (keys : Option (List String))
  deriving DecidableEq, Repr

namespace Request

/-- The profile that is updated, or the id that a new one is given. -/
def id : Request → ℕ
  | create id .. | update id .. => id

def keys : Request → Option (List String)
  | create _ _ _ keys _ => some keys
  | update _ _ _ keys => keys

def withKeys : Request → List String → Request
  | create id name description _ creator, keys => create id name description keys creator
  | update id name description _, keys => update id name description (some keys)

/-- The statements of a request, as long as none fails. -/
def statements (t : Tables) : Request → List Statement
  | create _ name description keys creator =>
    if trimText name = "" then [] else createStatements name description keys creator
  | update id name description keys =>
    if id ∈ t.profiles then .finds :: updateStatements name description keys else [.finds]

def isNameless : Request → Bool
  | create _ name .. => trimText name = ""
  | update .. => false

end Request

/-- `create` or `update`: the row that is returned, and the tables after it. -/
def edit (lower : String → String) (now : ℕ) (fault : Option ℕ) (t : Tables) (request : Request) :
    Except Failure (Option PermissionProfile) × Tables :=
  if request.isNameless then (.error (.rejected "Name is required"), t)
  else
    let (outcome, after) := execute (Tables.run lower request.id now) .database fault
      (request.statements t) t
    (outcome.map fun _ => after.profiles.lookup request.id, after)

end Service

/-- What is seen of one profile: its name and description, and its grants. -/
structure Observed where
  profile : Option (String × Option String)
  keys : Finset String
  deriving DecidableEq

namespace Tables

def granted (t : Tables) (id : ℕ) : Finset String := (t.grants.filter (·.1 = id)).image (·.2)

def observed (t : Tables) (id : ℕ) : Observed :=
  ⟨(t.profiles.lookup id).map fun profile => (profile.name, profile.description), t.granted id⟩

theorem mem_granted {t : Tables} {id : ℕ} {key : String} :
    key ∈ t.granted id ↔ (id, key) ∈ t.grants := by
  simp [granted]

theorem nameTaken_iff {lower : String → String} {t : Tables} {id : ℕ} {name : String} :
    t.nameTaken lower id name ↔ ∃ other profile, t.profiles.lookup other = some profile ∧
      other ≠ id ∧ lower profile.name = lower name := by
  unfold nameTaken
  rw [List.any_eq_true]
  constructor
  · rintro ⟨⟨other, profile⟩, member, holds⟩
    exact ⟨other, profile, AList.mem_lookup_iff.mpr member, by simpa using holds⟩
  · rintro ⟨other, profile, found, different, same⟩
    exact ⟨⟨other, profile⟩, AList.mem_lookup_iff.mp found, by simp [different, same]⟩

end Tables

/-- What a statement that is done changes of it. -/
def Statement.effect (seen : Observed) : Statement → Observed
  | .inserts name description _ => { seen with profile := some (name, description) }
  | .renames name => { seen with profile := seen.profile.map fun profile => (name, profile.2) }
  | .describes description =>
    { seen with profile := seen.profile.map fun profile => (profile.1, description) }
  | .clears => { seen with keys := ∅ }
  | .grants key _ => { seen with keys := insert key seen.keys }
  | .finds | .checks _ | .touches | .returns => seen

/-- The statement is refused on tables that show so much of the profile. -/
def Statement.Refused (lower : String → String) (t : Tables) (id : ℕ) (seen : Observed) :
    Statement → Prop
  | .checks key => key ∉ t.permissions
  | .inserts name description createdByUserId =>
    seen.profile.isSome ∨ ¬fits 255 name ∨ ¬description.all storable ∨
      t.nameTaken lower id name ∨ ¬createdByUserId.all (· ∈ t.users)
  | .renames name => seen.profile.isSome ∧ (¬fits 255 name ∨ t.nameTaken lower id name)
  | .describes description => ¬description.all storable
  | .grants key onConflict =>
    seen.profile = none ∨ ¬fits 100 key ∨ (¬onConflict ∧ key ∈ seen.keys)
  | .finds | .clears | .touches | .returns => False

section Reached
variable {lower : String → String} {t after : Tables} {id : ℕ} {seen : Observed}

/-- The tables show so much of the profile `id` and are as before otherwise. -/
structure Reached (t : Tables) (id : ℕ) (seen : Observed) (after : Tables) : Prop where
  observed : after.observed id = seen
  others : ∀ other, other ≠ id → after.profiles.lookup other = t.profiles.lookup other
  otherGrants : ∀ other, other ≠ id → after.granted other = t.granted other
  permissions : after.permissions = t.permissions
  users : after.users = t.users

theorem Reached.start (t : Tables) (id : ℕ) : Reached t id (t.observed id) t :=
  ⟨rfl, fun _ _ => rfl, fun _ _ => rfl, rfl, rfl⟩

theorem Reached.observed_other (reached : Reached t id seen after) {other : ℕ}
    (different : other ≠ id) : after.observed other = t.observed other := by
  unfold Tables.observed
  rw [reached.others other different, reached.otherGrants other different]

theorem Reached.nameTaken (reached : Reached t id seen after) (name : String) :
    after.nameTaken lower id name = t.nameTaken lower id name := by
  rw [Bool.eq_iff_iff, Tables.nameTaken_iff, Tables.nameTaken_iff]
  constructor <;> rintro ⟨other, profile, found, different, same⟩
  · exact ⟨other, profile, (reached.others other different).symm.trans found, different, same⟩
  · exact ⟨other, profile, (reached.others other different).trans found, different, same⟩

theorem Reached.lookup_isSome (reached : Reached t id seen after) :
    (after.profiles.lookup id).isSome = seen.profile.isSome := by
  rw [← reached.observed]
  simp [Tables.observed]

theorem Reached.mem_iff (reached : Reached t id seen after) :
    id ∈ after.profiles ↔ seen.profile.isSome := by
  rw [← reached.lookup_isSome, AList.lookup_isSome]

theorem Reached.keys (reached : Reached t id seen after) : after.granted id = seen.keys :=
  congrArg Observed.keys reached.observed

theorem Reached.shown (reached : Reached t id seen after) {profile : PermissionProfile}
    (lookup : after.profiles.lookup id = some profile) :
    seen.profile = some (profile.name, profile.description) := by
  rw [← reached.observed]
  simp [Tables.observed, lookup]

/-- Without a row nothing is there to be changed. -/
theorem Reached.unseen (reached : Reached t id seen after)
    (lookup : after.profiles.lookup id = none)
    (change : String × Option String → String × Option String) :
    { seen with profile := seen.profile.map change } = seen := by
  have missing : seen.profile = none := by
    rw [← reached.observed]
    simp [Tables.observed, lookup]
  cases seen
  simp_all

/-- One row of `permission_profiles` is written. -/
theorem Reached.put (reached : Reached t id seen after) (profile : PermissionProfile) :
    Reached t id { seen with profile := some (profile.name, profile.description) }
      (after.putProfile id profile) := by
  refine ⟨?_, fun other different => ?_, reached.otherGrants, reached.permissions, reached.users⟩
  · have keys : (after.putProfile id profile).granted id = seen.keys := reached.keys
    unfold Tables.observed
    rw [keys]
    simp [Tables.putProfile]
  · rw [← reached.others other different]
    exact AList.lookup_insert_ne different

theorem Reached.clear (reached : Reached t id seen after) :
    Reached t id { seen with keys := ∅ } (after.clearGrants id) := by
  refine ⟨?_, reached.others, fun other different => ?_, reached.permissions, reached.users⟩
  · have none_left : (after.clearGrants id).granted id = ∅ := by
      ext key
      simp [Tables.mem_granted, Tables.clearGrants]
    have profile : (after.observed id).profile = seen.profile := by rw [reached.observed]
    unfold Tables.observed at profile ⊢
    rw [none_left]
    simpa [Tables.clearGrants] using profile
  · rw [← reached.otherGrants other different]
    ext key
    simp [Tables.mem_granted, Tables.clearGrants, different]

theorem Reached.add (reached : Reached t id seen after) (exists_ : id ∈ after.profiles)
    (key : String) :
    Reached t id { seen with keys := insert key seen.keys } (after.addGrant exists_ key) := by
  refine ⟨?_, reached.others, fun other different => ?_, reached.permissions, reached.users⟩
  · have one_more : (after.addGrant exists_ key).granted id = insert key seen.keys := by
      rw [← reached.keys]
      ext other
      simp [Tables.mem_granted, Tables.addGrant]
    have profile : (after.observed id).profile = seen.profile := by rw [reached.observed]
    unfold Tables.observed at profile ⊢
    rw [one_more]
    simpa [Tables.addGrant] using profile
  · rw [← reached.otherGrants other different]
    ext other'
    simp [Tables.mem_granted, Tables.addGrant, different]

/-- A statement that is refused changes nothing. -/
theorem Reached.refused (reached : Reached t id seen after) (now : ℕ) {q : Statement}
    (refused : q.Refused lower t id seen) : ∃ e, after.run lower id now q = .error e := by
  cases q with
  | finds => exact refused.elim
  | clears => exact refused.elim
  | touches => exact refused.elim
  | returns => exact refused.elim
  | checks key =>
    have unknown : key ∉ after.permissions := by rw [reached.permissions]; exact refused
    by_cases legal : storable key
    · refine ⟨.rejected ("Unknown permission key: " ++ key), ?_⟩
      simp only [Tables.run, if_pos legal, if_neg unknown]
    · exact ⟨.database, by simp only [Tables.run, if_neg legal]⟩
  | inserts name description createdByUserId =>
    refine ⟨.database, if_neg ?_⟩
    rw [reached.mem_iff, reached.nameTaken, reached.users]
    simp only [Statement.Refused] at refused
    tauto
  | renames name =>
    obtain ⟨found, refused⟩ := refused
    rw [← reached.lookup_isSome] at found
    obtain ⟨profile, lookup⟩ := Option.isSome_iff_exists.mp found
    refine ⟨.database, ?_⟩
    simp only [Tables.run, lookup]
    refine if_neg ?_
    rw [reached.nameTaken]
    tauto
  | describes description => exact ⟨.database, if_neg refused⟩
  | grants key onConflict =>
    refine ⟨.database, ?_⟩
    by_cases exists_ : id ∈ after.profiles
    · have some_profile := reached.mem_iff.mp exists_
      simp only [Tables.run, dif_pos exists_]
      refine if_neg ?_
      rw [← Tables.mem_granted, reached.keys]
      have present : seen.profile ≠ none := fun missing => by simp [missing] at some_profile
      rcases refused with missing | long | ⟨plain, repeated⟩
      · exact absurd missing present
      · exact fun holds => long holds.1
      · exact fun holds => holds.2.elim plain fun new => new repeated
    · simp only [Tables.run, dif_neg exists_]

theorem Reached.accepted (reached : Reached t id seen after) (now : ℕ) {q : Statement}
    (accepted : ¬q.Refused lower t id seen) : ∃ next, after.run lower id now q = .ok next ∧
      Reached t id (q.effect seen) next := by
  cases q with
  | finds => exact ⟨after, rfl, reached⟩
  | returns => exact ⟨after, rfl, reached⟩
  | clears => exact ⟨_, rfl, reached.clear⟩
  | checks key =>
    have known : key ∈ t.permissions := not_not.mp accepted
    have legal : storable key := (Bool.and_eq_true_iff.mp (t.short key known)).1
    have member : key ∈ after.permissions := by rw [reached.permissions]; exact known
    exact ⟨after, by simp only [Tables.run, if_pos legal, if_pos member], reached⟩
  | inserts name description createdByUserId =>
    have holds : id ∉ after.profiles ∧ fits 255 name ∧ description.all storable ∧
        ¬after.nameTaken lower id name ∧ createdByUserId.all (· ∈ after.users) := by
      rw [reached.mem_iff, reached.nameTaken, reached.users]
      simp only [Statement.Refused] at accepted
      tauto
    exact ⟨_, if_pos holds, reached.put ⟨name, description, now, now, createdByUserId⟩⟩
  | renames name =>
    cases lookup : after.profiles.lookup id with
    | none =>
      refine ⟨after, by simp only [Tables.run, lookup], ?_⟩
      simpa only [Statement.effect, reached.unseen lookup] using reached
    | some profile =>
      have shown := reached.shown lookup
      have holds : fits 255 name ∧ ¬after.nameTaken lower id name := by
        rw [reached.nameTaken]
        simp only [Statement.Refused, shown] at accepted
        simp_all
      refine ⟨_, by simp only [Tables.run, lookup]; exact if_pos holds, ?_⟩
      have written := reached.put { profile with name := name, updatedAt := now }
      simpa only [Statement.effect, shown, Option.map_some] using written
  | describes description =>
    have legal : description.all storable := not_not.mp accepted
    cases lookup : after.profiles.lookup id with
    | none =>
      refine ⟨after, by simp only [Tables.run, lookup, if_pos legal], ?_⟩
      simpa only [Statement.effect, reached.unseen lookup] using reached
    | some profile =>
      refine ⟨after.putProfile id { profile with description := description, updatedAt := now },
        by simp only [Tables.run, lookup, if_pos legal], ?_⟩
      have written := reached.put { profile with description := description, updatedAt := now }
      simpa only [Statement.effect, reached.shown lookup, Option.map_some] using written
  | touches =>
    cases lookup : after.profiles.lookup id with
    | none => exact ⟨after, by simp only [Tables.run, lookup], reached⟩
    | some profile =>
      refine ⟨after.putProfile id { profile with updatedAt := now },
        by simp only [Tables.run, lookup], ?_⟩
      have written := reached.put { profile with updatedAt := now }
      have same : { seen with profile := some (profile.name, profile.description) } = seen := by
        rw [← reached.shown lookup]
      simpa only [Statement.effect, same] using written
  | grants key onConflict =>
    simp only [Statement.Refused, not_or] at accepted
    obtain ⟨some_profile, short, new⟩ := accepted
    have exists_ : id ∈ after.profiles :=
      reached.mem_iff.mpr (Option.isSome_iff_ne_none.mpr some_profile)
    have holds : fits 100 key ∧ (onConflict ∨ (id, key) ∉ after.grants) := by
      rw [← Tables.mem_granted, reached.keys]
      tauto
    refine ⟨after.addGrant exists_ key, ?_, reached.add exists_ key⟩
    simp only [Tables.run, dif_pos exists_, if_pos holds]

end Reached

end TradingPlatform.PermissionProfiles
