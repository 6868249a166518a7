import Mathlib.Data.Rat.Floor
import TradingPlatform.Auth.RequestTexts
import TradingPlatform.Library.FiniteTable
import TradingPlatform.Library.HalfAway

namespace TradingPlatform.GroupUpdate
open RequestTexts

/-- A row of `user_groups` but its id. -/
structure UserGroup where
  name : String
  description : Option String
  status : String
  signupSlug : Option String
  defaultPriceProfileId : Option ℕ
  defaultLeverageProfileId : Option ℕ
  marginCallLevel : Option ℚ
  stopOutLevel : Option ℚ
  createdAt : ℕ
  updatedAt : ℕ
  createdByUserId : Option ℕ
  hideLeverageInTerminal : Bool
  timezone : Option String
  displayCurrency : Option String
  swapEnabled : Bool
  feesEnabled : Bool
  defaultSlippageBps : Option ℤ
  deriving DecidableEq, Repr

/-- A field of a JSON object. -/
inductive JsonField (α : Type*)
  | absent
  | null
  | value (a : α)
  deriving DecidableEq, Repr

namespace JsonField
variable {α : Type*}

/-- serde's `Option<T>` -/
def decode : JsonField α → Option α
  | absent | null => none
  | value a => some a

/-- serde's `Option<Option<T>>` without a deserialiser of its own. -/
def decodeNested : JsonField α → Option (Option α)
  | absent | null => none
  | value a => some (some a)

end JsonField

/-- The body of the request; `F` is the type `f64`. -/
structure GroupBody (F : Type*) where
  name : String
  description : JsonField String
  status : String
  marginCallLevel : JsonField F
  stopOutLevel : JsonField F
  signupSlug : JsonField String
  hideLeverageInTerminal : JsonField Bool
  timezone : JsonField String
  displayCurrency : JsonField String
  swapEnabled : JsonField Bool
  feesEnabled : JsonField Bool
  defaultSlippageBps : JsonField ℤ

structure UpdateGroupRequest (F : Type*) where
  name : String
  description : Option String
  status : String
  marginCallLevel : Option F
  stopOutLevel : Option F
  signupSlug : Option (Option String)
  hideLeverageInTerminal : Option Bool
  timezone : Option (Option String)
  displayCurrency : Option (Option String)
  swapEnabled : Option Bool
  feesEnabled : Option Bool
  defaultSlippageBps : Option (Option ℤ)

variable {F : Type*}

/-- The range of `i32` -/
def isInt32 (n : ℤ) : Bool := -2 ^ 31 ≤ n ∧ n < 2 ^ 31

/-- Undefined if a number is not an `i32`. -/
def GroupBody.decode (body : GroupBody F) : Option (UpdateGroupRequest F) :=
  if body.defaultSlippageBps.decode.all isInt32 then
    some {
      name := body.name
      description := body.description.decode
      status := body.status
      marginCallLevel := body.marginCallLevel.decode
      stopOutLevel := body.stopOutLevel.decode
      signupSlug := body.signupSlug.decodeNested
      hideLeverageInTerminal := body.hideLeverageInTerminal.decode
      timezone := body.timezone.decodeNested
      displayCurrency := body.displayCurrency.decodeNested
      swapEnabled := body.swapEnabled.decode
      feesEnabled := body.feesEnabled.decode
      defaultSlippageBps := body.defaultSlippageBps.decodeNested }
  else none

section Service

def isAsciiAlphanumeric (c : Char) : Bool :=
  ('0' ≤ c ∧ c ≤ '9') ∨ ('A' ≤ c ∧ c ≤ 'Z') ∨ ('a' ≤ c ∧ c ≤ 'z')

/-- `toLowercase` is `str::to_lowercase`. -/
def normalizeAndValidateSlug (toLowercase : String → String) (slug : String) :
    Except Failure String :=
  let s := toLowercase (trimText slug)
  if s.utf8ByteSize < 3 ∨ 20 < s.utf8ByteSize then
    .error (.rejected "Signup slug must be 3–20 characters")
  else if s.toList.all isAsciiAlphanumeric then .ok s
  else .error (.rejected "Signup slug can only contain letters and numbers")

def slugValue (toLowercase : String → String) :
    Option (Option String) → Except Failure (Option String)
  | none => .ok none
  | some none => .ok none
  | some (some s) =>
    if trimText s = "" then .ok none else (normalizeAndValidateSlug toLowercase s).map some

/-- `(update_tz, tz_value)`, and the same for the display currency. -/
def textValue : Option (Option String) → Bool × Option String
  | none => (false, none)
  | some none => (true, none)
  | some (some s) => if trimText s = "" then (true, none) else (true, some (trimText s))

/-- `(update_slip, slip_value)` -/
def slipValue : Option (Option ℤ) → Except Failure (Bool × Option ℤ)
  | none => .ok (false, none)
  | some none => .ok (true, none)
  | some (some v) =>
    if v < 0 then .error (.rejected "default_slippage_bps must be >= 0") else .ok (true, some v)

/-- `CASE WHEN $9 THEN $10 ELSE timezone END`, with its two parameters. -/
def caseWhen {α : Type*} (given : Bool × Option α) (stored : Option α) : Option α :=
  if given.1 then given.2 else stored

/-- A level as its NUMERIC(5, 2) column stores it: nothing, a number or, on an
overflow, an error. -/
def numericLevel (level : Option ℚ) : Option (Option ℚ) :=
  level.elim (some none) fun x => (HalfAway.column 5 2 x).map some

/-- Another group has the slug. -/
def slugTaken (groups : FiniteTable ℕ UserGroup) (id : ℕ) (slug : Option String) : Bool :=
  slug.isSome && groups.entries.any fun row => row.1 ≠ id ∧ row.2.signupSlug = slug

/-- The `SET` list of the statement, with its parameters as the columns take
them. -/
def UpdateGroupRequest.written (request : UpdateGroupRequest F) (now : ℕ) (stored : UserGroup)
    (status : String) (marginCallLevel stopOutLevel : Option ℚ) (slug : Option String)
    (slippage : Bool × Option ℤ) : UserGroup :=
  { stored with
    name := request.name
    description := request.description
    status := status
    marginCallLevel := marginCallLevel
    stopOutLevel := stopOutLevel
    signupSlug := slug
    hideLeverageInTerminal := request.hideLeverageInTerminal.getD stored.hideLeverageInTerminal
    timezone := caseWhen (textValue request.timezone) stored.timezone
    displayCurrency := caseWhen (textValue request.displayCurrency) stored.displayCurrency
    swapEnabled := request.swapEnabled.getD stored.swapEnabled
    feesEnabled := request.feesEnabled.getD stored.feesEnabled
    defaultSlippageBps := caseWhen slippage stored.defaultSlippageBps
    updatedAt := now }

/-- `AdminGroupsService::update_group`. `fromF64` is `Decimal::from_f64`. -/
def updateGroup (fromF64 : F → Option ℚ) (toLowercase : String → String) (now : ℕ)
    (groups : FiniteTable ℕ UserGroup) (id : ℕ) (request : UpdateGroupRequest F) :
    Except Failure (UserGroup × FiniteTable ℕ UserGroup) :=
  if request.name.utf8ByteSize < 2 ∨ 40 < request.name.utf8ByteSize then
    .error (.rejected "Name must be between 2 and 40 characters")
  else
    match slugValue toLowercase request.signupSlug, slipValue request.defaultSlippageBps with
    | .error e, _ => .error e
    | _, .error e => .error e
    | .ok slug, .ok slippage =>
      if ¬(storable request.name ∧ request.description.all storable ∧ storable request.status ∧
          (textValue request.timezone).2.all storable ∧
          (textValue request.displayCurrency).2.all storable) then
        .error .database
      else
        match groups.lookup id with
        | none => .error (.rejected "Group not found")
        | some stored =>
          match varchar 50 request.status, numericLevel (request.marginCallLevel.bind fromF64),
              numericLevel (request.stopOutLevel.bind fromF64) with
          | some status, some marginCallLevel, some stopOutLevel =>
            if slugTaken groups id slug then .error .database
            else
              let updated :=
                request.written now stored status marginCallLevel stopOutLevel slug slippage
              .ok (updated, groups.insert id updated)
          | _, _, _ => .error .database

/-- The endpoint, for a caller with the permission. -/
def updateGroupFromBody (fromF64 : F → Option ℚ) (toLowercase : String → String) (now : ℕ)
    (groups : FiniteTable ℕ UserGroup) (id : ℕ) (body : GroupBody F) :
    Option (Except Failure (UserGroup × FiniteTable ℕ UserGroup)) :=
  body.decode.map (updateGroup fromF64 toLowercase now groups id)

end Service

section Property

/-- What the field of a nullable column asks for. -/
def Requested {α β : Type*} (is : α → β → Prop) :
    JsonField α → Option β → Option β → Prop
  | .absent, stored, updated => updated = stored
  | .null, _, updated => updated = none
  | .value a, _, updated => ∃ b, updated = some b ∧ is a b

/-- What the field of a column that cannot be NULL asks for. -/
def RequestedFlag : JsonField Bool → Bool → Bool → Prop
  | .absent, stored, updated => updated = stored
  | .null, _, _ => True
  | .value b, _, updated => updated = b

/-- The row is changed as the body says and in nothing else but the time of the
update. -/
structure AsRequested (fromF64 : F → Option ℚ) (body : GroupBody F) (stored updated : UserGroup) :
    Prop where
  name : updated.name = body.name
  status : updated.status = body.status
  description : Requested Eq body.description stored.description updated.description
  marginCallLevel : Requested (fun level x => fromF64 level = some x) body.marginCallLevel
    stored.marginCallLevel updated.marginCallLevel
  stopOutLevel : Requested (fun level x => fromF64 level = some x) body.stopOutLevel
    stored.stopOutLevel updated.stopOutLevel
  signupSlug : Requested Eq body.signupSlug stored.signupSlug updated.signupSlug
  hideLeverageInTerminal : RequestedFlag body.hideLeverageInTerminal
    stored.hideLeverageInTerminal updated.hideLeverageInTerminal
  timezone : Requested Eq body.timezone stored.timezone updated.timezone
  displayCurrency : Requested Eq body.displayCurrency stored.displayCurrency
    updated.displayCurrency
  swapEnabled : RequestedFlag body.swapEnabled stored.swapEnabled updated.swapEnabled
  feesEnabled : RequestedFlag body.feesEnabled stored.feesEnabled updated.feesEnabled
  defaultSlippageBps : Requested Eq body.defaultSlippageBps stored.defaultSlippageBps
    updated.defaultSlippageBps
  defaultPriceProfileId : updated.defaultPriceProfileId = stored.defaultPriceProfileId
  defaultLeverageProfileId : updated.defaultLeverageProfileId = stored.defaultLeverageProfileId
  createdAt : updated.createdAt = stored.createdAt
  createdByUserId : updated.createdByUserId = stored.createdByUserId

/-- The table after an update, in which only this row may have changed. -/
structure ExactUpdate (fromF64 : F → Option ℚ) (groups after : FiniteTable ℕ UserGroup) (id : ℕ)
    (body : GroupBody F) (stored updated : UserGroup) : Prop where
  row : after.lookup id = some updated
  others : ∀ other, other ≠ id → after.lookup other = groups.lookup other
  columns : AsRequested fromF64 body stored updated

/-- A column that an update overwrites is given or holds nothing. -/
def GivenOrEmpty {α β : Type*} (field : JsonField α) (stored : Option β) : Prop :=
  field = .absent → stored = none

/-- A column that an update cannot clear is not to be cleared. -/
def NotCleared {α β : Type*} (field : JsonField α) (stored : Option β) : Prop :=
  field = .null → stored = none

/-- A level that a NUMERIC(5, 2) column can hold. -/
def ExactLevel (fromF64 : F → Option ℚ) (field : JsonField F) : Prop :=
  ∀ level, field = .value level → ∃ x, fromF64 level = some x ∧ HalfAway.OnScale (10 ^ 2) x

/-- A text that is stored as it is given. -/
def Trimmed (field : JsonField String) : Prop :=
  ∀ s, field = .value s → s ≠ "" ∧ trimText s = s

/-- The bodies that an update of the stored row carries out as they say. -/
structure CarriedOut (fromF64 : F → Option ℚ) (toLowercase : String → String) (body : GroupBody F)
    (stored : UserGroup) : Prop where
  status : body.status.length ≤ 50
  description : GivenOrEmpty body.description stored.description
  marginCallLevel : GivenOrEmpty body.marginCallLevel stored.marginCallLevel
  marginCallExact : ExactLevel fromF64 body.marginCallLevel
  stopOutLevel : GivenOrEmpty body.stopOutLevel stored.stopOutLevel
  stopOutExact : ExactLevel fromF64 body.stopOutLevel
  signupSlug : GivenOrEmpty body.signupSlug stored.signupSlug
  slugNormal : ∀ s, body.signupSlug = .value s → trimText s ≠ "" ∧ toLowercase (trimText s) = s
  timezone : NotCleared body.timezone stored.timezone
  timezoneTrimmed : Trimmed body.timezone
  displayCurrency : NotCleared body.displayCurrency stored.displayCurrency
  displayCurrencyTrimmed : Trimmed body.displayCurrency
  defaultSlippageBps : NotCleared body.defaultSlippageBps stored.defaultSlippageBps

end Property

section Columns
variable {α : Type*}

/-- `description = $3` -/
theorem requested_overwrite {field : JsonField α} {stored : Option α} :
    Requested Eq field stored field.decode ↔ GivenOrEmpty field stored := by
  cases field <;> simp [Requested, GivenOrEmpty, JsonField.decode, eq_comm]

theorem requested_level {fromF64 : F → Option ℚ} {field : JsonField F} {stored updated : Option ℚ}
    (column : numericLevel (field.decode.bind fromF64) = some updated) :
    Requested (fun level x => fromF64 level = some x) field stored updated ↔
      GivenOrEmpty field stored ∧ ExactLevel fromF64 field := by
  cases field with
  | absent =>
    obtain rfl := Option.some.inj column
    simp [Requested, GivenOrEmpty, ExactLevel, eq_comm]
  | null =>
    obtain rfl := Option.some.inj column
    simp [Requested, GivenOrEmpty, ExactLevel]
  | value level =>
    have given : GivenOrEmpty (JsonField.value level) stored := fun absent => nomatch absent
    simp only [Requested, given, true_and]
    cases read : fromF64 level with
    | none => simp [ExactLevel, read]
    | some x =>
      simp only [JsonField.decode, Option.bind_some, read, numericLevel, Option.elim] at column
      obtain ⟨y, accepted, rfl⟩ := Option.map_eq_some_iff.mp column
      have same := HalfAway.column_eq_self_iff accepted
      constructor
      · rintro ⟨b, shown, exact⟩ level' value
        obtain rfl := JsonField.value.inj value
        refine ⟨x, read, same.mp ?_⟩
        exact (Option.some.inj shown).trans (Option.some.inj exact).symm
      · intro exact
        obtain ⟨x', read', onScale⟩ := exact level rfl
        rw [read] at read'
        obtain rfl := Option.some.inj read'
        exact ⟨y, rfl, congrArg some (same.mpr onScale).symm⟩

theorem requested_slug {toLowercase : String → String} {field : JsonField String}
    {stored slug : Option String}
    (validated : slugValue toLowercase field.decodeNested = .ok slug) :
    Requested Eq field stored slug ↔ GivenOrEmpty field stored ∧
      ∀ s, field = .value s → trimText s ≠ "" ∧ toLowercase (trimText s) = s := by
  cases field with
  | absent =>
    obtain rfl := Except.ok.inj validated
    simpa [Requested, GivenOrEmpty] using eq_comm
  | null =>
    obtain rfl := Except.ok.inj validated
    simp [Requested, GivenOrEmpty]
  | value s =>
    by_cases blank : trimText s = ""
    · simp only [JsonField.decodeNested, slugValue, if_pos blank] at validated
      obtain rfl := Except.ok.inj validated
      simp [Requested, GivenOrEmpty, blank]
    · simp only [JsonField.decodeNested, slugValue, if_neg blank, normalizeAndValidateSlug]
        at validated
      split at validated
      · cases validated
      · split at validated
        · obtain rfl := Except.ok.inj validated
          simp [Requested, GivenOrEmpty, blank]
        · cases validated

/-- `CASE WHEN $9 THEN $10 ELSE timezone END` -/
theorem requested_text {field : JsonField String} {stored : Option String} :
    Requested Eq field stored (caseWhen (textValue field.decodeNested) stored) ↔
      NotCleared field stored ∧ Trimmed field := by
  cases field with
  | absent => simp [Requested, NotCleared, Trimmed, JsonField.decodeNested, textValue, caseWhen]
  | null => simp [Requested, NotCleared, Trimmed, JsonField.decodeNested, textValue, caseWhen]
  | value s =>
    by_cases blank : trimText s = ""
    · have cleared : caseWhen (textValue (JsonField.value s).decodeNested) stored = none := by
        simp [JsonField.decodeNested, textValue, caseWhen, blank]
      simp [Requested, cleared, NotCleared, Trimmed, blank, eq_comm]
    · have written : caseWhen (textValue (JsonField.value s).decodeNested) stored =
          some (trimText s) := by
        simp [JsonField.decodeNested, textValue, caseWhen, blank]
      simp only [Requested, written, NotCleared, Trimmed]
      constructor
      · rintro ⟨b, shown, rfl⟩
        refine ⟨fun null => (nomatch null), fun s' value => ?_⟩
        obtain rfl := JsonField.value.inj value
        have same : trimText s = s := Option.some.inj shown
        exact ⟨fun empty => blank (same.trans empty), same⟩
      · rintro ⟨-, trimmed⟩
        exact ⟨s, congrArg some (trimmed s rfl).2, rfl⟩

theorem requested_slippage {field : JsonField ℤ} {stored : Option ℤ} {given : Bool × Option ℤ}
    (validated : slipValue field.decodeNested = .ok given) :
    Requested Eq field stored (caseWhen given stored) ↔ NotCleared field stored := by
  cases field with
  | absent =>
    obtain rfl := Except.ok.inj validated
    simp [Requested, NotCleared, caseWhen]
  | null =>
    obtain rfl := Except.ok.inj validated
    simp [Requested, NotCleared, caseWhen]
  | value v =>
    simp only [JsonField.decodeNested, slipValue] at validated
    split at validated
    · cases validated
    · obtain rfl := Except.ok.inj validated
      simp [Requested, NotCleared, caseWhen]

/-- `COALESCE($8, hide_leverage_in_terminal)` -/
theorem requestedFlag_coalesce (field : JsonField Bool) (stored : Bool) :
    RequestedFlag field stored (field.decode.getD stored) := by
  cases field <;> simp [RequestedFlag, JsonField.decode]

theorem varchar_eq_self_iff {limit : ℕ} {s column : String}
    (accepted : varchar limit s = some column) : column = s ↔ s.length ≤ limit := by
  unfold varchar at accepted
  split_ifs at accepted with fits spaces
  · obtain rfl := Option.some.inj accepted
    simpa using fits
  · obtain rfl := Option.some.inj accepted
    refine iff_of_false (fun same => fits ?_) fits
    rw [← same]
    simp

end Columns

section Update
variable {fromF64 : F → Option ℚ} {toLowercase : String → String} {now id : ℕ}
  {groups after : FiniteTable ℕ UserGroup} {stored updated : UserGroup}

/-- What an update that succeeds has written. -/
theorem updateGroup_ok {request : UpdateGroupRequest F} (found : groups.lookup id = some stored)
    (succeeds : updateGroup fromF64 toLowercase now groups id request = .ok (updated, after)) :
    ∃ status marginCallLevel stopOutLevel slug slippage,
      varchar 50 request.status = some status ∧
      numericLevel (request.marginCallLevel.bind fromF64) = some marginCallLevel ∧
      numericLevel (request.stopOutLevel.bind fromF64) = some stopOutLevel ∧
      slugValue toLowercase request.signupSlug = .ok slug ∧
      slipValue request.defaultSlippageBps = .ok slippage ∧
      updated = request.written now stored status marginCallLevel stopOutLevel slug slippage ∧
      after = groups.insert id updated := by
  unfold updateGroup at succeeds
  split at succeeds
  · cases succeeds
  cases validated : slugValue toLowercase request.signupSlug with
  | error e =>
    rw [validated] at succeeds
    cases succeeds
  | ok slug =>
    cases checked : slipValue request.defaultSlippageBps with
    | error e =>
      rw [validated, checked] at succeeds
      cases succeeds
    | ok slippage =>
      rw [validated, checked] at succeeds
      simp only [found] at succeeds
      split at succeeds
      · cases succeeds
      split at succeeds
      next status marginCallLevel stopOutLevel statusColumn marginColumn stopColumn =>
        split at succeeds
        · cases succeeds
        · obtain ⟨rfl, rfl⟩ := Prod.mk.inj (Except.ok.inj succeeds)
          exact ⟨status, marginCallLevel, stopOutLevel, slug, slippage, statusColumn, marginColumn,
            stopColumn, rfl, rfl, rfl, rfl⟩
      next => cases succeeds

/-- An update that succeeds changes exactly what its body says if and only if
the body gives every column that is overwritten and not empty, clears none that
it cannot clear, and has its values as they are stored. -/
theorem exactUpdate_iff {body : GroupBody F} (found : groups.lookup id = some stored)
    (succeeds : updateGroupFromBody fromF64 toLowercase now groups id body =
      some (.ok (updated, after))) :
    ExactUpdate fromF64 groups after id body stored updated ↔
      CarriedOut fromF64 toLowercase body stored := by
  obtain ⟨request, decoded, taken⟩ := Option.map_eq_some_iff.mp succeeds
  unfold GroupBody.decode at decoded
  split at decoded
  next =>
    obtain rfl := Option.some.inj decoded
    obtain ⟨status, marginCallLevel, stopOutLevel, slug, slippage, statusColumn, marginColumn,
      stopColumn, slugged, slipped, rfl, rfl⟩ := updateGroup_ok found taken
    constructor
    · rintro ⟨-, -, columns⟩
      obtain ⟨overwritten, exactMargin⟩ := (requested_level marginColumn).mp columns.marginCallLevel
      obtain ⟨overwritten', exactStop⟩ := (requested_level stopColumn).mp columns.stopOutLevel
      obtain ⟨slugGiven, normal⟩ := (requested_slug slugged).mp columns.signupSlug
      obtain ⟨zoneKept, zoneTrimmed⟩ := requested_text.mp columns.timezone
      obtain ⟨currencyKept, currencyTrimmed⟩ := requested_text.mp columns.displayCurrency
      exact ⟨(varchar_eq_self_iff statusColumn).mp columns.status,
        requested_overwrite.mp columns.description, overwritten, exactMargin, overwritten',
        exactStop, slugGiven, normal, zoneKept, zoneTrimmed, currencyKept, currencyTrimmed,
        (requested_slippage slipped).mp columns.defaultSlippageBps⟩
    · intro carried
      refine ⟨AList.lookup_insert _, fun other different => AList.lookup_insert_ne different, ?_⟩
      exact {
        name := rfl
        status := (varchar_eq_self_iff statusColumn).mpr carried.status
        description := requested_overwrite.mpr carried.description
        marginCallLevel :=
          (requested_level marginColumn).mpr ⟨carried.marginCallLevel, carried.marginCallExact⟩
        stopOutLevel :=
          (requested_level stopColumn).mpr ⟨carried.stopOutLevel, carried.stopOutExact⟩
        signupSlug := (requested_slug slugged).mpr ⟨carried.signupSlug, carried.slugNormal⟩
        hideLeverageInTerminal := requestedFlag_coalesce _ _
        timezone := requested_text.mpr ⟨carried.timezone, carried.timezoneTrimmed⟩
        displayCurrency :=
          requested_text.mpr ⟨carried.displayCurrency, carried.displayCurrencyTrimmed⟩
        swapEnabled := requestedFlag_coalesce _ _
        feesEnabled := requestedFlag_coalesce _ _
        defaultSlippageBps := (requested_slippage slipped).mpr carried.defaultSlippageBps
        defaultPriceProfileId := rfl
        defaultLeverageProfileId := rfl
        createdAt := rfl
        createdByUserId := rfl }
  next => cases decoded

/-- A group with a sign-up link. -/
def goldGroup : UserGroup where
  name := "Gold"
  description := none
  status := "active"
  signupSlug := some "golduser"
  defaultPriceProfileId := some 7
  defaultLeverageProfileId := none
  marginCallLevel := none
  stopOutLevel := none
  createdAt := 0
  updatedAt := 0
  createdByUserId := none
  hideLeverageInTerminal := true
  timezone := some "Europe/London"
  displayCurrency := none
  swapEnabled := true
  feesEnabled := false
  defaultSlippageBps := none

/-- A new name and nothing else but the sign-up slug. -/
def renameGold (signupSlug : JsonField String) : GroupBody ℚ where
  name := "Gold II"
  description := .absent
  status := "active"
  marginCallLevel := .absent
  stopOutLevel := .null
  signupSlug := signupSlug
  hideLeverageInTerminal := .null
  timezone := .absent
  displayCurrency := .null
  swapEnabled := .absent
  feesEnabled := .value true
  defaultSlippageBps := .value 15

/-- What becomes of the group, given the slug that is written. -/
def renamedGroup (signupSlug : Option String) : UserGroup :=
  { goldGroup with
    name := "Gold II"
    signupSlug := signupSlug
    feesEnabled := true
    defaultSlippageBps := some 15
    updatedAt := 5 }

theorem updateGroup_renameGold_slug :
    updateGroupFromBody some (fun s => s) 5 (AList.singleton 1 goldGroup) 1 (renameGold (.value "golduser")) =
      some (.ok (renamedGroup (some "golduser"),
        (AList.singleton 1 goldGroup).insert 1 (renamedGroup (some "golduser")))) := by
  rfl

theorem exactUpdate_iff_renameGold :
    ExactUpdate some (AList.singleton 1 goldGroup)
        ((AList.singleton 1 goldGroup).insert 1 (renamedGroup (some "golduser"))) 1
        (renameGold (.value "golduser")) goldGroup (renamedGroup (some "golduser")) ↔
      CarriedOut some (fun s => s) (renameGold (.value "golduser")) goldGroup :=
  exactUpdate_iff rfl updateGroup_renameGold_slug

/-- Without the slug in the body the group loses its sign-up link. -/
theorem not_exactUpdate_absentSlug :
    ¬∀ (F : Type) (fromF64 : F → Option ℚ) (toLowercase : String → String) (now id : ℕ)
      (groups after : FiniteTable ℕ UserGroup) (body : GroupBody F) (stored updated : UserGroup),
      groups.lookup id = some stored →
      updateGroupFromBody fromF64 toLowercase now groups id body = some (.ok (updated, after)) →
      ExactUpdate fromF64 groups after id body stored updated := by
  intro all
  have succeeds : updateGroupFromBody some (fun s => s) 5 (AList.singleton 1 goldGroup) 1
      (renameGold .absent) = some (.ok (renamedGroup none,
        (AList.singleton 1 goldGroup).insert 1 (renamedGroup none))) := by
    rfl
  have exact := all ℚ some (fun s => s) 5 1 _ _ _ goldGroup _ rfl succeeds
  have kept : (none : Option String) = some "golduser" := exact.columns.signupSlug
  cases kept

end Update

end TradingPlatform.GroupUpdate
