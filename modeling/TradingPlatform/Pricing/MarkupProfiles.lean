import TradingPlatform.Library.FiniteTable
import TradingPlatform.Library.HalfAway
import TradingPlatform.Library.StepRuns
import TradingPlatform.Pricing.ChannelPrices
import TradingPlatform.Pricing.SymbolKeys

namespace TradingPlatform

abbrev ProfileId := ℕ
abbrev CatalogId := ℕ

/-- A group id as it is printed, a UUID. -/
abbrev GroupUuid := { g : String // ':' ∉ g.toList }

/-- A markup as a NUMERIC(20, 8) column stores it, if it has room for it. -/
def numericMarkup (x : ℚ) : Option ℚ := HalfAway.column 20 8 x

/-- Both sides of a markup, or an error of the database. -/
def numericConfig (markup : MarkupConfig) : Option MarkupConfig :=
  match numericMarkup markup.bidMarkup, numericMarkup markup.askMarkup with
  | some bid, some ask => some ⟨bid, ask⟩
  | _, _ => none

/-- The tables `symbols` (its codes), `price_stream_profiles`,
`symbol_markup_overrides` and `user_groups` (its price profiles). -/
structure MarkupTables where
  symbols : FiniteTable CatalogId String
  profiles : FiniteTable ProfileId MarkupConfig
  overrides : FiniteTable (ProfileId × CatalogId) MarkupConfig
  groups : FiniteTable GroupUuid (Option ProfileId)

abbrev MarkupKeys := String → Option MarkupConfig

/-- The key that `sync_redis_markup_for_override` sets. -/
def overrideKey (code group : String) : String := "symbol:markup:" ++ code ++ ":" ++ group

/-- SET of some keys in order. -/
def setAll (redis : MarkupKeys) (writes : List (String × MarkupConfig)) : MarkupKeys :=
  writes.foldl (fun redis write => Function.update redis write.1 (some write.2)) redis

/-- A key of the pattern `symbol:markup:*:{group}`. -/
def ofGroup (group key : String) : Bool :=
  "symbol:markup:".toList.isPrefixOf key.toList && (":" ++ group).toList.isSuffixOf key.toList &&
    decide ("symbol:markup:".length + (":" ++ group).length ≤ key.length)

namespace MarkupTables

/-- `get_all_symbol_codes` -/
def allSymbolCodes (db : MarkupTables) : List String := db.symbols.entries.map (·.2)

/-- `get_group_ids_by_profile_id` -/
def groupIdsByProfileId (db : MarkupTables) (p : ProfileId) : List GroupUuid :=
  (db.groups.entries.filter fun row => row.2 = some p).map (·.1)

/-- `get_symbol_overrides`: symbol, code and markup of each override. -/
def symbolOverrides (db : MarkupTables) (p : ProfileId) :
    List (CatalogId × String × MarkupConfig) :=
  db.overrides.entries.filterMap fun row =>
    if row.1.1 = p then (db.symbols.lookup row.1.2).map fun code => (row.1.2, code, row.2) else none

/-- The default of a profile as the sync reads it. -/
def defaultMarkup (db : MarkupTables) (p : Option ProfileId) : MarkupConfig :=
  (p.bind db.profiles.lookup).getD ⟨0, 0⟩

/-- The markup of a code: its entry in `override_map`, or the default. -/
def codeMarkup (db : MarkupTables) (p : Option ProfileId) (code : String) : MarkupConfig :=
  ((p.elim [] db.symbolOverrides).findSome? fun o =>
    if o.2.1 = code then some o.2.2 else none).getD (db.defaultMarkup p)

/-- The keys of a group as the two full writers set them. -/
def groupWrites (db : MarkupTables) (g : GroupUuid) (p : Option ProfileId) :
    List (String × MarkupConfig) :=
  db.allSymbolCodes.map fun code => (markupKey code g, db.codeMarkup p code)

/-- `bootstrap_price_groups_redis`: the groups that have a profile. -/
def bootstrapWrites (db : MarkupTables) : List (String × MarkupConfig) :=
  db.groups.entries.flatMap fun row => row.2.elim [] fun p => db.groupWrites row.1 (some p)

/-- `sync_redis_markup_for_override` for the groups of a profile. -/
def overrideWrites (db : MarkupTables) (p : ProfileId) (code : String) (markup : MarkupConfig) :
    List (String × MarkupConfig) :=
  (db.groupIdsByProfileId p).map fun g : GroupUuid => (overrideKey code g.1, markup)

/-- The upsert of one override; the profile and the symbol are foreign keys. -/
def upsert (db : MarkupTables) (p : ProfileId) (symbol : CatalogId) (markup : MarkupConfig) :
    Option MarkupTables :=
  if (db.profiles.lookup p).isSome ∧ (db.symbols.lookup symbol).isSome then
    (numericConfig markup).map fun stored =>
      { db with overrides := db.overrides.insert (p, symbol) stored }
  else none

/-- `copy_profile_markups_to_profiles`, one upsert after the other; whether all
of them succeeded. -/
def copyAll (db : MarkupTables) : List (ProfileId × CatalogId × MarkupConfig) → MarkupTables × Bool
  | [] => (db, true)
  | (p, symbol, markup) :: rest =>
    match db.upsert p symbol markup with
    | none => (db, false)
    | some db => db.copyAll rest

/-- The upserts of a copy in order. -/
def copies (db : MarkupTables) (source : ProfileId) (targets : List ProfileId) :
    List (ProfileId × CatalogId × MarkupConfig) :=
  (targets.filter (· ≠ source)).flatMap fun target =>
    (db.symbolOverrides source).map fun o => (target, o.1, o.2.2)

end MarkupTables

/-- The database and the markup keys of Redis. -/
structure MarkupSystem where
  db : MarkupTables
  redis : MarkupKeys

/-- The operations; a markup that is missing or empty in an upsert is `none`. -/
inductive MarkupAction
  | createProfile (id : ProfileId) (markup : MarkupConfig)
  | updateProfile (id : ProfileId) (markup : MarkupConfig)
  | upsertSymbolOverride (p : ProfileId) (symbol : CatalogId) (bid ask : Option ℚ)
  | transferMarkups (source : ProfileId) (targets : List ProfileId) (includeMarkups : Bool)
  | updateGroupPriceProfile (g : GroupUuid) (p : Option ProfileId)
  | createSymbol (id : CatalogId) (code : String)
  | bootstrap

namespace MarkupSystem

def createProfile (s : MarkupSystem) (id : ProfileId) (markup : MarkupConfig) :
    Option MarkupSystem :=
  if s.db.profiles.lookup id = none then
    (numericConfig markup).map fun stored =>
      { s with db := { s.db with profiles := s.db.profiles.insert id stored } }
  else none

/-- `update_profile`: the row is all that changes. -/
def updateProfile (s : MarkupSystem) (id : ProfileId) (markup : MarkupConfig) :
    Option MarkupSystem :=
  if (s.db.profiles.lookup id).isSome then
    (numericConfig markup).map fun stored =>
      { s with db := { s.db with profiles := s.db.profiles.insert id stored } }
  else none

/-- `upsert_symbol_override`. Redis gets the markup as it was sent. -/
def upsertSymbolOverride (s : MarkupSystem) (p : ProfileId) (symbol : CatalogId)
    (bid ask : Option ℚ) : Option MarkupSystem :=
  let markup : MarkupConfig := ⟨bid.getD 0, ask.getD 0⟩
  match s.db.upsert p symbol markup, s.db.symbols.lookup symbol with
  | some db, some code =>
    some ⟨db, setAll s.redis (db.overrideWrites p code markup)⟩
  | _, _ => none

/-- `transfer_markups`. When an upsert fails the copies made before it stay,
and Redis is not reached. -/
def transferMarkups (s : MarkupSystem) (source : ProfileId) (targets : List ProfileId)
    (includeMarkups : Bool) : MarkupSystem :=
  match s.db.copyAll (if includeMarkups then s.db.copies source targets else []) with
  | (db, false) => { s with db := db }
  | (db, true) =>
    ⟨db, setAll s.redis (targets.flatMap fun target =>
      (db.symbolOverrides target).flatMap fun o => db.overrideWrites target o.2.1 o.2.2)⟩

/-- `update_group_price_profile` and `sync_redis_after_group_profile_change`. -/
def updateGroupPriceProfile (s : MarkupSystem) (g : GroupUuid) (p : Option ProfileId) :
    Option MarkupSystem :=
  if (∀ id ∈ p, (s.db.profiles.lookup id).isSome) ∧ (s.db.groups.lookup g).isSome then
    let db := { s.db with groups := s.db.groups.insert g p }
    let cleared : MarkupKeys := fun key => if ofGroup g key then none else s.redis key
    some ⟨db, setAll cleared (db.groupWrites g p)⟩
  else none

/-- `create_symbol`; codes are unique. -/
def createSymbol (s : MarkupSystem) (id : CatalogId) (code : String) : Option MarkupSystem :=
  if s.db.symbols.lookup id = none ∧ code ∉ s.db.allSymbolCodes ∧
      2 ≤ code.utf8ByteSize ∧ code.utf8ByteSize ≤ 50 then
    some { s with db := { s.db with symbols := s.db.symbols.insert id code } }
  else none

def step (s : MarkupSystem) : MarkupAction → Option MarkupSystem
  | .createProfile id markup => s.createProfile id markup
  | .updateProfile id markup => s.updateProfile id markup
  | .upsertSymbolOverride p symbol bid ask => s.upsertSymbolOverride p symbol bid ask
  | .transferMarkups source targets includeMarkups =>
    some (s.transferMarkups source targets includeMarkups)
  | .updateGroupPriceProfile g p => s.updateGroupPriceProfile g p
  | .createSymbol id code => s.createSymbol id code
  | .bootstrap => some { s with redis := setAll s.redis s.db.bootstrapWrites }

/-- Some groups without a profile, and nothing else yet. -/
def fresh (groups : List GroupUuid) : MarkupSystem where
  db :=
    { symbols := ∅, profiles := ∅, overrides := ∅
      groups := groups.foldl (fun table g => table.insert g none) ∅ }
  redis := fun _ => none

/-- The markup that a symbol has for the groups with a price profile: its
override in the profile, else the default of the profile, and zero without a
profile. -/
def expected (db : MarkupTables) (p : Option ProfileId) (symbol : CatalogId) : MarkupConfig :=
  match p with
  | none => ⟨0, 0⟩
  | some p => ((db.overrides.lookup (p, symbol)).orElse fun _ => db.profiles.lookup p).getD ⟨0, 0⟩

/-- The copies of a transfer that are made: those before the first one to a
profile that does not exist. -/
def copied (db : MarkupTables) (source : ProfileId) (targets : List ProfileId) :
    List (ProfileId × CatalogId × MarkupConfig) :=
  (db.copies source targets).takeWhile fun copy => (db.profiles.lookup copy.1).isSome

/-- What data-provider reads is what the tables say, no markup being zero. -/
def Mirrors (s : MarkupSystem) : Prop :=
  ∀ g p, s.db.groups.lookup g = some p → ∀ symbol code, s.db.symbols.lookup symbol = some code →
    percentages s.redis code g = expected s.db p symbol

end MarkupSystem

end TradingPlatform
