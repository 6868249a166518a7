import TradingPlatform.Library.FiniteTable

namespace TradingPlatform.Access

abbrev Uuid := ℕ

/-- What the scope of a caller and the listings read of a row of `users`. -/
structure User where
  firstName : Option String
  lastName : Option String
  email : String
  groupId : Option Uuid
  permissionProfileId : Option Uuid
  /-- `deleted_at IS NOT NULL` -/
  deleted : Bool
  deriving DecidableEq, Repr

structure TagAssignment where
  tagId : Uuid
  entityType : String
  entityId : Uuid
  deriving DecidableEq, Repr

structure Lead where
  id : Uuid
  createdById : Option Uuid
  ownerId : Option Uuid
  deriving DecidableEq, Repr

structure Tables where
  users : FiniteTable Uuid User
  /-- The ids of `managers` by `user_id`, which is unique. -/
  managers : FiniteTable Uuid Uuid
  tagAssignments : List TagAssignment
  permissionProfileGrants : List (Uuid × String)
  leads : List Lead
  userGroups : FiniteTable Uuid String

structure Claims where
  sub : Uuid
  role : String
  deriving DecidableEq, Repr

/-- How a request is refused: with a message of the service, or as `DB_ERROR`
with one of the database. -/
inductive Failure
  | response (status : ℕ) (code message : String)
  | database
  deriving DecidableEq, Repr

def forbidden (message : String) : Failure := .response 403 "FORBIDDEN" message

namespace Claims

def isAdmin (claims : Claims) : Bool := claims.role = "admin"

def isSuperAdmin (claims : Claims) : Bool := claims.role = "super_admin"

end Claims

section Source
variable (t : Tables) (claims : Claims)

/-- The permission is looked up in the caller's profile. -/
def checkProfile (permission : String) : Except Failure Unit :=
  match t.users.lookup claims.sub with
  | none => .error (forbidden "No permission profile assigned")
  | some user =>
    match user.permissionProfileId with
    -- a NULL is not read into a `Uuid`
    | none => .error .database
    | some pid =>
      if (pid, permission) ∈ t.permissionProfileGrants then .ok ()
      else .error (forbidden ("Missing permission: " ++ permission))

def checkPermission (permission : String) : Except Failure Unit :=
  if claims.isAdmin || claims.isSuperAdmin then .ok () else checkProfile t claims permission

def checkPermissionProfileOnly (permission : String) : Except Failure Unit :=
  if claims.isSuperAdmin then .ok () else checkProfile t claims permission

/-- `SELECT tag_id FROM tag_assignments WHERE entity_type = … AND entity_id = …` -/
def tagIds (entityType : String) (entityId : Uuid) : List Uuid :=
  (t.tagAssignments.filter fun a => a.entityType = entityType ∧ a.entityId = entityId).map (·.tagId)

/-- `SELECT DISTINCT entity_id FROM tag_assignments WHERE entity_type = 'group' AND
tag_id = ANY($1)` -/
def groupIdsWithTags (tags : List Uuid) : List Uuid :=
  ((t.tagAssignments.filter fun a => a.entityType = "group" ∧ a.tagId ∈ tags).map
    (·.entityId)).dedup

def resolveAllowedGroupIds : Except Failure (Option (List Uuid)) :=
  let managerId := t.managers.lookup claims.sub
  if (claims.isAdmin || claims.isSuperAdmin) && managerId.isNone then .ok none
  else do
    if !claims.isAdmin && !claims.isSuperAdmin then checkProfile t claims "users:view"
    match managerId with
    | none => .ok (some [])
    | some mid =>
      let managerTagIds := tagIds t "manager" mid
      if managerTagIds = [] then .ok (some [])
      else .ok (some (groupIdsWithTags t managerTagIds))

def ensureUserInAllowedGroups (allowedGroupIds : Option (List Uuid)) (targetUserId : Uuid) :
    Except Failure Unit :=
  match allowedGroupIds with
  | none => .ok ()
  | some ids =>
    if ids = [] then .error (forbidden "Access denied to this resource")
    else match (t.users.lookup targetUserId).filter (!·.deleted) with
      | none => .error (.response 404 "USER_NOT_FOUND" "User not found")
      | some user =>
        if user.groupId.any (· ∈ ids) then .ok ()
        else .error (forbidden "Access denied to this resource")

/-- `SELECT id FROM users WHERE group_id = ANY($1) AND deleted_at IS NULL` -/
def userIdsInGroups (groupIds : List Uuid) : List Uuid :=
  (t.users.entries.filter fun row => row.2.groupId.any (· ∈ groupIds) && !row.2.deleted).map (·.1)

def resolveAllowedUserIdsForTrading : Except Failure (Option (List Uuid)) :=
  if claims.isSuperAdmin then .ok none
  else
    let tags :=
      if claims.isAdmin then tagIds t "user" claims.sub
      else match t.managers.lookup claims.sub with
        | none => []
        | some mid => tagIds t "manager" mid
    if tags = [] then .ok (some [])
    else
      let groupIds := groupIdsWithTags t tags
      if groupIds = [] then .ok (some [])
      else .ok (some (userIdsInGroups t groupIds))

def resolveAllowedLeadIds : Except Failure (Option (List Uuid)) :=
  if claims.isSuperAdmin then .ok none
  else .ok (some ((t.leads.filter fun lead =>
    lead.createdById = some claims.sub ∨ lead.ownerId = some claims.sub).map (·.id)))

end Source

section Scopes
variable {t : Tables} {claims : Claims} {target : Uuid}

/-- A tag is assigned to the entity. -/
def Tables.Tagged (t : Tables) (entityType : String) (entityId tag : Uuid) : Prop :=
  ⟨tag, entityType, entityId⟩ ∈ t.tagAssignments

/-- The live user is in a group that has a tag in common with the entity. -/
def Tables.Covers (t : Tables) (entityType : String) (entityId target : Uuid) : Prop :=
  ∃ user, t.users.lookup target = some user ∧ user.deleted = false ∧
    ∃ group, user.groupId = some group ∧
      ∃ tag, t.Tagged entityType entityId tag ∧ t.Tagged "group" group tag

/-- The trading listings show the caller what is the target's. -/
def AdmitsTrading (t : Tables) (claims : Claims) (target : Uuid) : Prop :=
  ∃ allowed, resolveAllowedUserIdsForTrading t claims = .ok allowed ∧
    ∀ ids ∈ allowed, target ∈ ids

/-- The routes about one user let the caller at the target. -/
def AdmitsUser (t : Tables) (claims : Claims) (target : Uuid) : Prop :=
  ∃ allowed, resolveAllowedGroupIds t claims = .ok allowed ∧
    ensureUserInAllowedGroups t allowed target = .ok ()

theorem mem_tagIds {entityType : String} {entityId tag : Uuid} :
    tag ∈ tagIds t entityType entityId ↔ t.Tagged entityType entityId tag := by
  simp only [tagIds, Tables.Tagged, List.mem_map, List.mem_filter, decide_eq_true_eq]
  constructor
  · rintro ⟨a, ⟨member, rfl, rfl⟩, rfl⟩
    exact member
  · exact fun member => ⟨_, ⟨member, rfl, rfl⟩, rfl⟩

theorem mem_groupIdsWithTags {tags : List Uuid} {group : Uuid} :
    group ∈ groupIdsWithTags t tags ↔ ∃ tag ∈ tags, t.Tagged "group" group tag := by
  simp only [groupIdsWithTags, Tables.Tagged, List.mem_dedup, List.mem_map, List.mem_filter,
    decide_eq_true_eq]
  constructor
  · rintro ⟨a, ⟨member, isGroup, tagged⟩, rfl⟩
    exact ⟨a.tagId, tagged, isGroup ▸ member⟩
  · exact fun ⟨tag, tagged, member⟩ => ⟨_, ⟨member, rfl, tagged⟩, rfl⟩

theorem mem_userIdsInGroups {groups : List Uuid} : target ∈ userIdsInGroups t groups ↔
    ∃ user, t.users.lookup target = some user ∧ user.deleted = false ∧
      ∃ group ∈ groups, user.groupId = some group := by
  simp only [userIdsInGroups, List.mem_map, List.mem_filter, Bool.and_eq_true, Option.any_eq_true,
    decide_eq_true_eq, Bool.not_eq_true']
  constructor
  · rintro ⟨⟨id, user⟩, ⟨member, ⟨group, same, allowed⟩, live⟩, rfl⟩
    exact ⟨user, AList.mem_lookup_iff.mpr member, live, group, allowed, same⟩
  · rintro ⟨user, stored, live, group, allowed, same⟩
    exact ⟨⟨target, user⟩, ⟨AList.mem_lookup_iff.mp stored, ⟨group, same, allowed⟩, live⟩, rfl⟩

/-- The users in the groups with an entity's tags are the ones it covers. -/
theorem mem_userIds_of_tags {entityType : String} {entityId : Uuid} :
    target ∈ userIdsInGroups t (groupIdsWithTags t (tagIds t entityType entityId)) ↔
      t.Covers entityType entityId target := by
  simp only [mem_userIdsInGroups, mem_groupIdsWithTags, mem_tagIds, Tables.Covers]
  constructor
  · rintro ⟨user, stored, live, group, ⟨tag, own, groups⟩, same⟩
    exact ⟨user, stored, live, group, same, tag, own, groups⟩
  · rintro ⟨user, stored, live, group, same, tag, own, groups⟩
    exact ⟨user, stored, live, group, ⟨tag, own, groups⟩, same⟩

/-- `ensure_user_in_allowed_groups` lets a caller at the live users in the groups. -/
theorem ensureUserInAllowedGroups_some {ids : List Uuid} :
    ensureUserInAllowedGroups t (some ids) target = .ok () ↔ target ∈ userIdsInGroups t ids := by
  rw [mem_userIdsInGroups]
  simp only [ensureUserInAllowedGroups]
  by_cases empty : ids = []
  · simp [empty]
  rw [if_neg empty]
  cases stored : t.users.lookup target with
  | none => simp
  | some user =>
    cases live : user.deleted with
    | true => simp [Option.filter, live]
    | false =>
      have visible : (some user).filter (!·.deleted) = some user := by simp [Option.filter, live]
      simp only [visible]
      cases same : user.groupId with
      | none => simp [live, same]
      | some group =>
        by_cases allowed : group ∈ ids
        · simp [allowed, live, same]
        · simp [allowed, live, same]

/-- A listing without an entry for an empty scope is the same listing. -/
theorem resolveAllowedUserIds_of_tags {tags : List Uuid} (notSuper : claims.isSuperAdmin = false)
    (own : (if claims.isAdmin then tagIds t "user" claims.sub
      else match t.managers.lookup claims.sub with
        | none => []
        | some mid => tagIds t "manager" mid) = tags) :
    ∃ ids, resolveAllowedUserIdsForTrading t claims = .ok (some ids) ∧
      ∀ target, target ∈ ids ↔ target ∈ userIdsInGroups t (groupIdsWithTags t tags) := by
  simp only [resolveAllowedUserIdsForTrading, notSuper, Bool.false_eq_true, if_false, own]
  by_cases none_ : tags = []
  · refine ⟨[], by rw [if_pos none_], fun target => ?_⟩
    simp [mem_userIdsInGroups, mem_groupIdsWithTags, none_]
  rw [if_neg none_]
  by_cases empty : groupIdsWithTags t tags = []
  · refine ⟨[], by rw [if_pos empty], fun target => ?_⟩
    simp [mem_userIdsInGroups, empty]
  · exact ⟨_, by rw [if_neg empty], fun _ => Iff.rfl⟩

/-- The scope of the trading listings can always be told. -/
theorem resolves (t : Tables) (claims : Claims) :
    ∃ allowed, resolveAllowedUserIdsForTrading t claims = .ok allowed := by
  cases super : claims.isSuperAdmin with
  | true => exact ⟨none, by simp [resolveAllowedUserIdsForTrading, super]⟩
  | false =>
    obtain ⟨ids, resolved, _⟩ := resolveAllowedUserIds_of_tags (t := t) super rfl
    exact ⟨some ids, resolved⟩

theorem admitsTrading_of_some {ids : List Uuid}
    (resolved : resolveAllowedUserIdsForTrading t claims = .ok (some ids)) :
    AdmitsTrading t claims target ↔ target ∈ ids := by
  simp [AdmitsTrading, resolved]

/-- Whose trading a caller sees. -/
theorem admitsTrading_iff : AdmitsTrading t claims target ↔
    claims.isSuperAdmin = true ∨
      (claims.isSuperAdmin = false ∧ claims.isAdmin = true ∧ t.Covers "user" claims.sub target) ∨
      (claims.isSuperAdmin = false ∧ claims.isAdmin = false ∧
        ∃ mid, t.managers.lookup claims.sub = some mid ∧ t.Covers "manager" mid target) := by
  cases super : claims.isSuperAdmin with
  | true => simp [AdmitsTrading, resolveAllowedUserIdsForTrading, super]
  | false =>
    obtain ⟨ids, resolved, member⟩ := resolveAllowedUserIds_of_tags super rfl
    rw [admitsTrading_of_some resolved, member]
    cases admin : claims.isAdmin with
    | true => simp [mem_userIds_of_tags]
    | false =>
      cases row : t.managers.lookup claims.sub with
      | none => simp [mem_userIdsInGroups, mem_groupIdsWithTags]
      | some mid => simp [mem_userIds_of_tags]

/-- The groups a caller with a row in `managers` is held to, once the
permission is there. -/
theorem resolveAllowedGroupIds_of_manager {mid : Uuid}
    (row : t.managers.lookup claims.sub = some mid) :
    (∃ ids, resolveAllowedGroupIds t claims =
        (checkPermission t claims "users:view").map (fun _ => some ids) ∧
      ∀ group, group ∈ ids ↔ group ∈ groupIdsWithTags t (tagIds t "manager" mid)) := by
  have listed : ∃ ids, (if tagIds t "manager" mid = [] then (.ok (some []) : Except Failure _)
        else .ok (some (groupIdsWithTags t (tagIds t "manager" mid)))) = .ok (some ids) ∧
      ∀ group, group ∈ ids ↔ group ∈ groupIdsWithTags t (tagIds t "manager" mid) := by
    by_cases none_ : tagIds t "manager" mid = []
    · refine ⟨[], by rw [if_pos none_], fun group => ?_⟩
      simp [mem_groupIdsWithTags, none_]
    · exact ⟨_, by rw [if_neg none_], fun _ => Iff.rfl⟩
  obtain ⟨ids, same, member⟩ := listed
  refine ⟨ids, ?_, member⟩
  simp only [resolveAllowedGroupIds, row, Option.isNone_some, Bool.and_false, Bool.false_eq_true,
    if_false, same, checkPermission]
  cases admin : claims.isAdmin <;> cases super : claims.isSuperAdmin <;> rfl

/-- Which users a caller's requests about one user are let at. -/
theorem admitsUser_iff : AdmitsUser t claims target ↔
    ((claims.isAdmin || claims.isSuperAdmin) = true ∧ t.managers.lookup claims.sub = none) ∨
      (checkPermission t claims "users:view" = .ok () ∧
        ∃ mid, t.managers.lookup claims.sub = some mid ∧ t.Covers "manager" mid target) := by
  cases row : t.managers.lookup claims.sub with
  | some mid =>
    obtain ⟨ids, resolved, member⟩ := resolveAllowedGroupIds_of_manager row
    have same : target ∈ userIdsInGroups t ids ↔ t.Covers "manager" mid target := by
      rw [← mem_userIds_of_tags, mem_userIdsInGroups, mem_userIdsInGroups]
      simp only [member]
    simp only [AdmitsUser, resolved, reduceCtorEq, and_false, false_or, Option.some.injEq,
      exists_eq_left']
    cases permission : checkPermission t claims "users:view" with
    | error => simp [Except.map]
    | ok => simp [Except.map, ensureUserInAllowedGroups_some, same]
  | none =>
    simp only [AdmitsUser, resolveAllowedGroupIds, row]
    cases admin : claims.isAdmin <;> cases super : claims.isSuperAdmin <;>
      simp [ensureUserInAllowedGroups]
    -- without a row and without the role no group is allowed
    cases checkProfile t claims "users:view" <;> simp [bind, Except.bind]

/-- Who is let at whom. The trading listings go by the caller's own tags for an
admin and by the tags of the row in `managers` for staff, the routes about one
user by the row in `managers` for both; for staff the two are the same scope. -/
theorem scopes (t : Tables) (claims : Claims) (target : Uuid) :
    (AdmitsTrading t claims target ↔
      claims.isSuperAdmin = true ∨
      (claims.isSuperAdmin = false ∧ claims.isAdmin = true ∧ t.Covers "user" claims.sub target) ∨
      (claims.isSuperAdmin = false ∧ claims.isAdmin = false ∧
        ∃ mid, t.managers.lookup claims.sub = some mid ∧ t.Covers "manager" mid target)) ∧
    (AdmitsUser t claims target ↔
      ((claims.isAdmin || claims.isSuperAdmin) = true ∧ t.managers.lookup claims.sub = none) ∨
      (checkPermission t claims "users:view" = .ok () ∧
        ∃ mid, t.managers.lookup claims.sub = some mid ∧ t.Covers "manager" mid target)) ∧
    ((claims.isAdmin || claims.isSuperAdmin) = false →
      (AdmitsUser t claims target ↔
        checkPermission t claims "users:view" = .ok () ∧ AdmitsTrading t claims target)) := by
  refine ⟨admitsTrading_iff, admitsUser_iff, fun staff => ?_⟩
  obtain ⟨notAdmin, notSuper⟩ := Bool.or_eq_false_iff.mp staff
  rw [admitsUser_iff, admitsTrading_iff]
  simp [notAdmin, notSuper]

end Scopes
end TradingPlatform.Access
