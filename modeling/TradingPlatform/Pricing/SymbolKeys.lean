import TradingPlatform.Gateway.Broadcaster
import TradingPlatform.Summary.AccountSummary

namespace TradingPlatform

/-- What the feeds and the terminal read of a row of `symbols`. -/
structure CatalogRow where
  code : Symbol
  providerSymbol : Option Symbol
  assetClass : Option String
  quoteCurrency : String
  deriving DecidableEq, Repr

section Feed

/-- SQL `TRIM`, which takes spaces only. -/
def sqlTrim (s : String) : String := String.ofList (strip (· = ' ') s.toList)

def toUpperCase (s : String) : String := String.ofList (s.toList.map Char.toUpper)

/-- The symbol of `fetch_mmdps_catalog_symbols` for a row,
`UPPER(TRIM(COALESCE(NULLIF(TRIM(provider_symbol), ''), code)))` trimmed again,
unless it is empty. -/
def CatalogRow.feedSymbol (row : CatalogRow) : Option Symbol :=
  let provider := (row.providerSymbol.map sqlTrim).filter (· ≠ "")
  let key := toUpperCase (trim (toUpperCase (sqlTrim (provider.getD row.code))))
  if key = "" then none else some key

end Feed

section Browser

/-- The end of `normalizeSymbolKey`: a USDT name becomes the USD name, but for
the two instruments that are traded under both. -/
def collapseUsdt (u : List Char) : List Char :=
  if u = "EURUSDT".toList ∨ u = "XAUUSDT".toList then u
  else if "USDT".toList <:+ u then u.take (u.length - 4) ++ "USD".toList
  else u

/-- A symbol without its slashes, then without its dashes. -/
def dropSeparators (u : List Char) : List Char := (u.filter (· ≠ '/')).filter (· ≠ '-')

def normalizeSymbolKey (symbol : String) : String :=
  String.ofList (collapseUsdt (dropSeparators (trim (toUpperCase symbol)).toList))

/-- Whether `terminalFeedSymbol` reads the provider's name. -/
def CatalogRow.named (row : CatalogRow) : Bool := row.providerSymbol.any (trim · ≠ "")

/-- The code in `terminalFeedSymbol` of a row without a provider's name. -/
def CatalogRow.rawCode (row : CatalogRow) : List Char :=
  let normalized := (row.code.toList.map Char.toUpper).filter (· ≠ '-')
  if row.assetClass = some "Crypto" ∧ row.quoteCurrency = "USD" ∧
      "USD".toList <:+ normalized ∧ ¬ "USDT".toList <:+ normalized then
    normalized.take (normalized.length - 3) ++ "USDT".toList
  else normalized

def terminalFeedSymbol (row : CatalogRow) : String :=
  normalizeSymbolKey (if row.named then trim (toUpperCase (row.providerSymbol.getD ""))
    else String.ofList row.rawCode)

def terminalPriceLookupKey (row : CatalogRow) : String :=
  normalizeSymbolKey (terminalFeedSymbol row)

def normalizeWsSubscribeSymbols (symbols : List String) : List String :=
  (((symbols.filter (trim · ≠ "")).map normalizeSymbolKey).filter (· ≠ "")).eraseDups

/-- The gateway once a browser that shows the row has subscribed. -/
def Gateway.showing (s : Gateway) (c : ConnId) (row : CatalogRow) : Gateway :=
  (requestedSymbols (normalizeWsSubscribeSymbols [terminalFeedSymbol row])).foldl
    (subscribeSymbol c) s

end Browser

section Engine

/-- `TICKS_PREFIX` -/
def ticksPrefix : String := "ticks."

/-- The subject on which a tick goes out, with no group when there are none. -/
def tickSubject (symbol : Symbol) (groupId : GroupId) : String :=
  if groupId = "" then ticksPrefix ++ symbol else ticksPrefix ++ symbol ++ "." ++ groupId

/-- `strip_prefix(TICKS_PREFIX)` -/
def stripTicksPrefix (subject : String) : Option (List Char) :=
  if ticksPrefix.toList <+: subject.toList then some (subject.toList.drop ticksPrefix.length)
  else none

/-- `parse_symbol_from_tick_subject` -/
def parseSymbolFromTickSubject (subject : String) : Option String :=
  (stripTicksPrefix subject).map String.ofList

/-- `parse_tick_subject_per_group`, which splits at the first dot. -/
def parseTickSubjectPerGroup (subject : String) : Option (String × String) :=
  (stripTicksPrefix subject).bind fun rest =>
    match rest.dropWhile (· ≠ '.') with
    | [] => none
    | _ :: groupId =>
      if groupId = [] then none
      else some (String.ofList (rest.takeWhile (· ≠ '.')), String.ofList groupId)

/-- The symbol and the group under which `handle_tick` processes a tick. -/
def filedTick (subject : String) : Option (Symbol × Option GroupId) :=
  match parseTickSubjectPerGroup subject with
  | some (symbol, groupId) => some (normalizeSymbol symbol, some groupId)
  | none => (parseSymbolFromTickSubject subject).map fun symbol => (normalizeSymbol symbol, none)

/-- The Redis key that `process_tick` writes. -/
def tickPriceKey (filed : Symbol × Option GroupId) : String :=
  "prices:" ++ filed.1 ++ ":" ++ filed.2.getD ""

end Engine

/-- The browser that shows the row gets the tick and takes it for the row. -/
def BrowserTakes (row : CatalogRow) (s : Gateway) (c : ConnId) (tick : Symbol) : Prop :=
  c ∈ (s.showing c row).tickSubscribers tick ∧
    normalizeSymbolKey tick = terminalPriceLookupKey row

/-- The engine files the tick under the symbol of the row's orders. -/
def EngineTakes (row : CatalogRow) (tick : Symbol) (groupId : GroupId) : Prop :=
  (filedTick (tickSubject tick groupId)).map (·.1) = some (normalizeSymbol row.code)

/-- The key of the tick's price is one that is read for the row. -/
def SummaryTakes (row : CatalogRow) (tick : Symbol) (groupId : GroupId) : Prop :=
  ∃ filed, filedTick (tickSubject tick groupId) = some filed ∧
    tickPriceKey filed ∈ priceRedisKeys row.code groupId

/-- A registered connection that has subscribed to nothing yet. -/
structure Gateway.Silent (s : Gateway) (c : ConnId) : Prop where
  registered : (s.connections.lookup c).isSome
  silent : ∀ symbol, c ∉ s.symbolSubscribers symbol

/-- Every tick of the row is taken for it, and no tick of another instrument of
the catalog is. -/
structure TicksRouted (catalog : List CatalogRow) (row : CatalogRow) (feed : Symbol) : Prop where
  browser : ∀ (s : Gateway) c, s.Silent c → BrowserTakes row s c feed
  engine : ∀ groupId, EngineTakes row feed groupId
  summary : ∀ groupId, SummaryTakes row feed groupId
  others : ∀ other ∈ catalog, ∀ tick, other.feedSymbol = some tick → tick ≠ feed →
    (∀ (s : Gateway) c, s.Silent c → ¬ BrowserTakes row s c tick) ∧
      ∀ groupId, ¬ EngineTakes row tick groupId ∧ ¬ SummaryTakes row tick groupId

end TradingPlatform
