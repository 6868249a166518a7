import TradingPlatform.Summary.MarkedClose

namespace TradingPlatform

/-- `decimal_usd_to_micro_e6` -/
def decimalUsdToMicroE6 (d : ℚ) : ℤ :=
  let scaled := if 0 ≤ d then ⌊d * 1000000⌋ else ⌈d * 1000000⌉
  if -2 ^ 63 ≤ scaled ∧ scaled < 2 ^ 63 then scaled else 0

/-- The currency that the suffix of a symbol suggests. -/
def inferQuote (symbol : Symbol) : String :=
  (["USDT", "USDC", "EUR", "GBP", "AUD", "NZD", "CAD", "CHF", "JPY", "SGD", "TRY", "SEK", "NOK",
    "DKK", "CNH", "HKD", "HUF", "PLN", "ZAR", "MXN", "CNY", "USD"].find? fun q =>
      decide (q.toList <:+ (normalizeSymbol symbol).toList)).getD "USD"

/-- `parse_fx_rates_json`: the engine drops rates that are not positive. -/
def parseFxRatesJson (rates : Rates) : Rates := fun code =>
  if code = "USD" ∨ code = "USDT" then some 1 else (rates code).filter (0 < ·)

/-- The engine's conversion, where what cannot be converted is zero. -/
def engineUsd (rates : Rates) (quote : String) (amount : ℚ) : ℚ :=
  match convertWithRates amount quote "USD" (parseFxRatesJson rates) with
  | .ok usd => usd
  | .error _ => 0

def PositionId.isUuid : PositionId → Bool
  | .uuid _ => true
  | .legacy _ => false

/-- A tick of a group, or of all groups. -/
structure PriceTick where
  symbol : Symbol
  groupId : Option GroupId
  bid : ℚ
  ask : ℚ
  deriving DecidableEq, Repr

namespace PriceTick
variable (t : PriceTick)

def group : Option GroupId := (t.groupId.map trim).filter (· ≠ "")

def priceKey : String := "prices:" ++ t.symbol ++ ":" ++ t.groupId.getD ""

/-- The PnL of a hash at this tick, in its quote currency. -/
def unrealQuote (h : PositionHash) : ℚ :=
  let size := h.size.getD 0
  let avg := (h.avgPrice.orElse fun _ => h.entryPrice).getD 0
  match h.side.getD .LONG with
  | .LONG => (t.bid - avg) * size
  | .SHORT => (avg - t.ask) * size

def micro (rates : Rates) (h : PositionHash) : ℤ :=
  decimalUsdToMicroE6 (engineUsd rates (inferQuote (trim t.symbol)) (t.unrealQuote h))

/-- The tick refreshes an open hash of its group that the symbol's index lists. -/
def Refreshes (st : Store) (p : PositionId) (h : PositionHash) : Prop :=
  p ∈ (st.index .posOpen (trim t.symbol)).keys ∧ p.isUuid = true ∧ h.status = some .OPEN ∧
    ∀ g ∈ t.group, h.groupId.getD "" = g

instance (st : Store) (p : PositionId) (h : PositionHash) : Decidable (t.Refreshes st p h) :=
  inferInstanceAs (Decidable (_ ∧ _ ∧ _ ∧ _))

/-- The positions to refresh, with the hashes read. -/
def batch (st : Store) : List (PositionId × PositionHash) :=
  (st.index .posOpen (trim t.symbol)).keys.filterMap fun p =>
    ((st.hash p).filter fun h => decide (t.Refreshes st p h)).map (p, ·)

def refreshed (h : PositionHash) : PositionHash :=
  { h with unrealizedPnl := some (t.unrealQuote h) }

end PriceTick

/-- Redis as the two services that keep unrealised PnL see it. -/
structure UnrealizedDesk where
  store : Store
  /-- `unrealized_pnl_usd_e6` of `pos:by_id:{id}` -/
  usdE6 : PositionId → Option ℤ
  /-- `pos:agg:unrealized_usd_e6:{user_id}` -/
  aggregate : UserId → Option ℤ
  /-- `pos:cache:swap_open_usd_e6:{user_id}` -/
  swapCache : UserId → Option ℤ
  prices : String → Option (ℚ × ℚ)

namespace UnrealizedDesk

section Script
variable (d : UnrealizedDesk) (userId : UserId)

/-- What a listed id adds to the sum of `aggregate_user_unrealized_usd_e6.lua`. -/
def share (p : PositionId) : ℤ :=
  if (d.store.hash p).bind (·.status) = some .OPEN then (d.usdE6 p).getD 0 else 0

def openSum : ℤ := ∑ p ∈ d.store.userPositions userId, d.share p

/-- `aggregate_user_unrealized_usd_e6.lua` -/
def aggregateUser (swapE6 : ℤ) : UnrealizedDesk :=
  { d with aggregate := Function.update d.aggregate userId (some (d.openSum userId - swapE6)) }

def swap : ℤ := (d.swapCache userId).getD 0

end Script

section Services
variable (rates : Rates) (symbols : FiniteTable SymbolId SymbolRow)

/-- The HSETs of one position of the batch. -/
def writeRefreshed (t : PriceTick) (d : UnrealizedDesk) (u : PositionId × PositionHash) :
    UnrealizedDesk :=
  { d with
    usdE6 := Function.update d.usdE6 u.1 (some (t.micro rates u.2))
    store := d.store.hset u.1 fun h => { h with unrealizedPnl := some (t.unrealQuote u.2) } }

/-- `refresh_symbol_positions_unrealized` -/
def refreshSymbolPositionsUnrealized (t : PriceTick) (d : UnrealizedDesk) : UnrealizedDesk :=
  let batch := t.batch d.store
  let affectedUsers := (batch.filterMap (·.2.userId)).dedup
  affectedUsers.foldl (fun d userId => d.aggregateUser userId (d.swap userId))
    (batch.foldl (writeRefreshed rates t) d)

/-- The price key and the refresh of `process_tick`. -/
def processTick (d : UnrealizedDesk) (t : PriceTick) : UnrealizedDesk :=
  refreshSymbolPositionsUnrealized rates t
    { d with prices := Function.update d.prices t.priceKey (some (t.bid, t.ask)) }

/-- The input of an account summary over these prices. -/
def summaryInput (prices : String → Option (ℚ × ℚ)) : SummaryInput where
  mode := .hedged
  rates := rates
  symbols := symbols
  store := .empty
  ids := []
  prices := prices
  rows := []

/-- The USD that the loop of the summary takes for an open hash, if it does
not skip it. -/
def countedUsd (prices : String → Option (ℚ × ℚ)) (h : PositionHash) : Option ℚ :=
  let inp := summaryInput rates symbols prices
  (inp.symbolMap (normalizeSymbol (h.symbol.getD ""))).bind fun quote =>
    if quoteCurrencySupported rates quote ∧ h.status = some .OPEN then
      match convertWithRates (inp.unrealizedQuote h).1 quote "USD" rates with
      | .ok usd => some usd
      | .error _ => none
    else none

/-- What `fetch_position_aggregates_from_redis` writes: the fields of all
listed ids are cleared, those of the counted positions set, and the script
is called with the swap that the positions table sums up to. -/
def fetchPositionAggregates (userId : UserId) (swapOpen : ℚ) (d : UnrealizedDesk) :
    UnrealizedDesk :=
  let written : UnrealizedDesk := { d with
    usdE6 := fun p =>
      if p ∈ d.store.userPositions userId ∧ p.isUuid = true then
        (d.store.hash p).bind fun h =>
          (countedUsd rates symbols d.prices h).map decimalUsdToMicroE6
      else d.usdE6 p
    swapCache := Function.update d.swapCache userId (some (decimalUsdToMicroE6 swapOpen)) }
  written.aggregateUser userId (decimalUsdToMicroE6 swapOpen)

end Services

end UnrealizedDesk

end TradingPlatform
