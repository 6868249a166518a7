import TradingPlatform.Library.Grouping
import TradingPlatform.Summary.FxRates

namespace TradingPlatform

open Grouping

/-- A row of `symbols`. -/
structure SymbolRow where
  code : Symbol
  quoteCurrency : String
  deriving DecidableEq, Repr

/-- `users.margin_calculation_type` -/
inductive MarginMode
  | hedged | net
  deriving DecidableEq, Repr

/-- The columns of a `positions` row that the summary reads. -/
structure DbPosition where
  uuid : ℕ
  symbolId : SymbolId
  side : PositionSide
  size : ℚ
  marginUsed : ℚ
  pnl : ℚ
  realizedPnl : Option ℚ := none
  unrealizedPnl : Option ℚ := none
  bonusLossAbsorbed : Option ℚ := none
  accumulatedSwapUsd : ℚ := 0
  status : PositionStatus
  deriving DecidableEq, Repr

/-- Everything a summary is computed from: the user's settings, the FX
snapshot, Redis with a listing of `pos:{user_id}` and the prices in it, and
the user's rows in the database. -/
structure SummaryInput where
  mode : MarginMode
  rates : Rates
  symbols : FiniteTable SymbolId SymbolRow
  store : Store
  ids : List PositionId
  prices : String → Option (ℚ × ℚ) := fun _ => none
  priceOverrides : Option (Symbol × GroupId → Option (ℚ × ℚ)) := none
  rows : List DbPosition
  availableBalance : ℚ := 0
  lockedBalance : ℚ := 0
  bonusBalance : ℚ := 0
  totalSwapPaidUsd : ℚ := 0
  totalFeesPaidUsd : ℚ := 0

/-- `price_redis_keys` -/
def priceRedisKeys (symbol : Symbol) (groupId : GroupId) : List String :=
  if "USD".toList <:+ symbol.toList ∧ ¬ "USDT".toList <:+ symbol.toList then
    ["prices:" ++ symbol ++ ":" ++ groupId, "prices:" ++ (symbol ++ "T") ++ ":" ++ groupId]
  else ["prices:" ++ symbol ++ ":" ++ groupId]

/-- What is accumulated for one group of a net margin. -/
structure NetGroup where
  totalAbsSize : ℚ
  netSignedSize : ℚ
  totalMargin : ℚ
  quoteCurrency : String
  deriving DecidableEq, Repr

namespace NetGroup

def start (quote : String) : NetGroup := ⟨0, 0, 0, quote⟩

def add (g : NetGroup) (size signed margin : ℚ) : NetGroup :=
  { g with
    totalAbsSize := g.totalAbsSize + size
    netSignedSize := g.netSignedSize + signed
    totalMargin := g.totalMargin + margin }

/-- `net_ratio * total_margin` -/
def marginQuote (g : NetGroup) : ℚ :=
  min (|g.netSignedSize| / g.totalAbsSize) 1 * g.totalMargin

def marginUsd (rates : Rates) (g : NetGroup) : ℚ :=
  if 0 < g.totalAbsSize ∧ quoteCurrencySupported rates g.quoteCurrency then
    match convertWithRates g.marginQuote g.quoteCurrency "USD" rates with
    | .ok usd => usd
    | .error _ => 0
  else 0

end NetGroup

/-- Adds an amount in USD, or leaves the total when it cannot be converted. -/
def addUsd (rates : Rates) (quote : String) (amount total : ℚ) : ℚ :=
  if quoteCurrencySupported rates quote then
    match convertWithRates amount quote "USD" rates with
    | .ok usd => total + usd
    | .error _ => total
  else total

def sumUsd {α : Type} (rates : Rates) (quote : α → String) (amount : α → ℚ) (xs : List α) : ℚ :=
  xs.foldl (fun total x => addUsd rates (quote x) (amount x) total) 0

namespace SummaryInput
variable (inp : SummaryInput)

def getPriceFromRedis (symbol : Symbol) (groupId : GroupId) : Option (ℚ × ℚ) :=
  (priceRedisKeys symbol groupId).findSome? fun key =>
    (inp.prices key).filter fun price => decide (0 < price.1 ∧ 0 < price.2)

/-- `get_symbol_code_to_quote_currency_map`, a later row replacing an earlier one. -/
def symbolMap : Symbol → Option String :=
  inp.symbols.entries.foldl (fun map row =>
    Function.update map (normalizeSymbol row.2.code) (some (normalizeSymbol row.2.quoteCurrency)))
    fun _ => none

/-- The unrealised PnL of an open hash in its quote currency, and whether a
failed conversion takes the margin back. -/
def unrealizedQuote (h : PositionHash) : ℚ × Bool :=
  let symbol := h.symbol.getD ""
  let groupId := h.groupId.getD ""
  let stored := h.unrealizedPnl.getD 0
  let marked (price : ℚ × ℚ) : ℚ :=
    match h.side with
    | some .LONG => (price.1 - h.avgPrice.getD 0) * h.size.getD 0
    | some .SHORT => (h.avgPrice.getD 0 - price.2) * h.size.getD 0
    | none => stored
  match inp.priceOverrides with
  | some overrides =>
    match overrides (symbol, groupId) with
    | some price => (marked price, true)
    | none =>
      match inp.getPriceFromRedis symbol groupId with
      | some price => (marked price, true)
      | none => (stored, false)
  | none =>
    match inp.getPriceFromRedis symbol groupId with
    | some price => (marked price, true)
    | none => (stored, true)

/-- The running totals of the Redis loop. -/
structure RedisTotals where
  marginUsed : ℚ := 0
  unrealizedPnl : ℚ := 0
  realizedPnl : ℚ := 0
  netGroups : FiniteTable (Symbol × GroupId) NetGroup := ∅

def hashKey (h : PositionHash) : Symbol × GroupId := (h.symbol.getD "", h.groupId.getD "")

def hashSigned (h : PositionHash) : ℚ :=
  match h.side with
  | some .LONG => h.size.getD 0
  | some .SHORT => -h.size.getD 0
  | none => h.size.getD 0

/-- The margin part of an open position; `none` when it is skipped. -/
def chargeMargin (totals : RedisTotals) (quote : String) (h : PositionHash) :
    Option RedisTotals :=
  match inp.mode with
  | .net => some { totals with
      netGroups := addTo hashKey (fun _ => .start quote)
        (fun g h => g.add (h.size.getD 0) (hashSigned h) (h.margin.getD 0)) totals.netGroups h }
  | .hedged =>
    match convertWithRates (h.margin.getD 0) quote "USD" inp.rates with
    | .error _ => none
    | .ok usd => some { totals with marginUsed := totals.marginUsed + usd }

/-- One round of the loop over `pos:{user_id}`. -/
def redisStep (totals : RedisTotals) : PositionId → RedisTotals
  | .legacy _ => totals
  | .uuid n =>
    let h := (inp.store.hash (.uuid n)).getD {}
    match inp.symbolMap (normalizeSymbol (h.symbol.getD "")) with
    | none => totals
    | some quote =>
      if quoteCurrencySupported inp.rates quote then
        match convertWithRates (h.realizedPnl.getD 0) quote "USD" inp.rates with
        | .error _ => totals
        | .ok realUsd =>
          if h.status = some .OPEN then
            match inp.chargeMargin totals quote h with
            | none => totals
            | some charged =>
              match convertWithRates (inp.unrealizedQuote h).1 quote "USD" inp.rates with
              | .ok usd => { charged with
                  unrealizedPnl := charged.unrealizedPnl + usd
                  realizedPnl := charged.realizedPnl + realUsd }
              | .error _ =>
                if inp.mode = .hedged ∧ (inp.unrealizedQuote h).2 then totals else charged
          else { totals with realizedPnl := totals.realizedPnl + realUsd }
      else totals

/-- A row with its symbol, of the statuses asked for. -/
def joined (wanted : PositionStatus → Bool) : List (DbPosition × SymbolRow) :=
  inp.rows.filterMap fun row =>
    if wanted row.status then (inp.symbols.lookup row.symbolId).map (row, ·) else none

def isOpen (status : PositionStatus) : Bool := status = .OPEN

/-- The sum over open rows alone: no join with `symbols`. -/
def sumOpenAccumulatedSwapUsd : ℚ :=
  ((inp.rows.filter fun row => isOpen row.status).map (·.accumulatedSwapUsd)).sum

/-- Some margin used, unrealised PnL and realised PnL. -/
def fetchPositionAggregatesFromRedis : ℚ × ℚ × ℚ :=
  let totals := inp.ids.foldl inp.redisStep {}
  (totals.marginUsed + FiniteTable.total (fun _ g => g.marginUsd inp.rates) totals.netGroups,
    totals.unrealizedPnl - inp.sumOpenAccumulatedSwapUsd, totals.realizedPnl)

/-- PnL of a closed row with the loss that the bonus absorbed. -/
def closedPnl (row : DbPosition) : ℚ :=
  (if row.pnl ≠ 0 then row.pnl else row.realizedPnl.getD 0 + row.unrealizedPnl.getD 0) +
    row.bonusLossAbsorbed.getD 0

def sumClosedRealizedPnlUsd : ℚ :=
  sumUsd inp.rates (fun p : DbPosition × SymbolRow => trim p.2.quoteCurrency)
    (fun p => closedPnl p.1) (inp.joined fun status => !isOpen status)

def rowSigned (row : DbPosition) : ℚ :=
  match row.side with
  | .LONG => row.size
  | .SHORT => -row.size

def dbGroups : FiniteTable SymbolId NetGroup :=
  grouped (fun p : DbPosition × SymbolRow => p.1.symbolId)
    (fun p => .start (trim p.2.quoteCurrency))
    (fun g p => g.add p.1.size (rowSigned p.1) p.1.marginUsed) (inp.joined isOpen)

/-- Margin used, realised PnL and unrealised PnL, in this order. -/
def fetchPositionAggregatesFromDb : ℚ × ℚ × ℚ :=
  let totalMarginUsed := match inp.mode with
    | .net => FiniteTable.total (fun _ g => g.marginUsd inp.rates) inp.dbGroups
    | .hedged => sumUsd inp.rates (fun p : DbPosition × SymbolRow => trim p.2.quoteCurrency)
        (·.1.marginUsed) (inp.joined isOpen)
  let totalUnrealizedPnl := sumUsd inp.rates
    (fun p : DbPosition × SymbolRow => trim p.2.quoteCurrency) (·.1.pnl) (inp.joined isOpen)
  (totalMarginUsed, inp.sumClosedRealizedPnlUsd,
    totalUnrealizedPnl - inp.sumOpenAccumulatedSwapUsd)

/-- Closed PnL from the hashes. -/
def sumClosedRealizedPnlRedisUsd : ℚ :=
  inp.ids.foldl (fun total p =>
    match p with
    | .legacy _ => total
    | .uuid n =>
      let h := (inp.store.hash (.uuid n)).getD {}
      if h.status = some .CLOSED ∨ h.status = some .LIQUIDATED then
        match inp.symbolMap (normalizeSymbol (h.symbol.getD "")) with
        | none => total
        | some quote => addUsd inp.rates quote (h.realizedPnl.getD 0) total
      else total) 0

end SummaryInput

/-- The number printed as the margin level. -/
inductive MarginLevel
  | inf
  | percent (q : ℚ)
  deriving DecidableEq, Repr

structure AccountSummary where
  balance : ℚ
  equity : ℚ
  marginUsed : ℚ
  freeMargin : ℚ
  marginLevel : MarginLevel
  realizedPnl : ℚ
  unrealizedPnl : ℚ
  bonus : ℚ
  totalSwapPaidUsd : ℚ
  totalFeesPaidUsd : ℚ
  deriving DecidableEq, Repr

/-- `compute_account_summary_inner`; `indexAvailable` says whether the Redis
path yields `Some`. -/
def SummaryInput.computeAccountSummaryInner (inp : SummaryInput) (indexAvailable : Bool) :
    AccountSummary :=
  let (marginUsed, unrealizedPnl, _) :=
    if indexAvailable then inp.fetchPositionAggregatesFromRedis
    else inp.fetchPositionAggregatesFromDb
  let closed := inp.sumClosedRealizedPnlUsd
  let balance := inp.availableBalance + inp.lockedBalance
  let equity := balance + inp.bonusBalance + unrealizedPnl
  { balance := balance
    equity := equity
    marginUsed := marginUsed
    freeMargin := if marginUsed ≤ equity then equity - marginUsed else 0
    marginLevel := if 0 < marginUsed then .percent (equity / marginUsed * 100) else .inf
    realizedPnl :=
      if closed = 0 ∧ indexAvailable then inp.sumClosedRealizedPnlRedisUsd else closed
    unrealizedPnl := unrealizedPnl
    bonus := inp.bonusBalance
    totalSwapPaidUsd := inp.totalSwapPaidUsd
    totalFeesPaidUsd := inp.totalFeesPaidUsd }

end TradingPlatform
