import TradingPlatform.Library.HalfAway
import TradingPlatform.Engine.OrderTasks
import TradingPlatform.Orders.OrderCalls
import TradingPlatform.Pricing.SymbolKeys

namespace TradingPlatform

abbrev LeverageProfileId := ℕ
abbrev FeeRuleId := ℕ

/-- What the order routes read of a row of `users`. -/
structure TradingUser where
  minLeverage : Option ℤ
  maxLeverage : Option ℤ
  accountType : Option String
  tradingAccess : String
  groupId : Option GroupId
  deriving DecidableEq, Repr

/-- A row of `user_groups`. -/
structure UserGroup where
  defaultLeverageProfileId : Option LeverageProfileId
  feesEnabled : Bool
  defaultSlippageBps : Option ℤ
  deriving DecidableEq, Repr

/-- A row of `group_symbols`, the settings of one symbol for one group. -/
structure GroupSymbol where
  leverageProfileId : Option LeverageProfileId
  enabled : Bool
  deriving DecidableEq, Repr

/-- A row of `symbols`. -/
structure TradingSymbol where
  code : Symbol
  market : Option String
  tradingEnabled : Bool
  closeOnly : Bool
  allowNewOrders : Bool
  deriving DecidableEq, Repr

/-- A row of `fee_rules`; without a symbol or a market it is for all of them. -/
structure GroupFeeRule where
  id : FeeRuleId
  groupId : GroupId
  symbol : Option Symbol
  market : Option String
  active : Bool
  rule : FeeRule
  deriving DecidableEq, Repr

/-- The tables that the terms of an order come from. Symbols are in the order
in which a query returns them, fee rules the latest first; at most one leverage
profile is the default. -/
structure TradingTables where
  users : FiniteTable UserId TradingUser
  groups : FiniteTable GroupId UserGroup
  groupSymbols : FiniteTable (GroupId × SymbolId) GroupSymbol
  symbols : FiniteTable SymbolId TradingSymbol
  defaultLeverageProfile : Option LeverageProfileId
  tiers : LeverageProfileId → List LeverageTier
  feeRules : List GroupFeeRule
  platformSlippageBps : Option ℤ

/-- SQL `LOWER(TRIM(code))` -/
def lowerTrim (s : String) : String := String.ofList ((sqlTrim s).toList.map Char.toLower)

/-- A row of the answer of `list_group_symbols`. -/
structure GroupSymbolRow where
  symbolId : SymbolId
  symbolCode : Symbol
  leverageProfileId : Option LeverageProfileId
  enabled : Bool
  deriving DecidableEq, Repr

namespace TradingTables
variable (db : TradingTables)

def groupOf (userId : UserId) : Option GroupId := (db.users.lookup userId).bind (·.groupId)

/-- `list_group_symbols`, without its order. -/
def listGroupSymbols (g : GroupId) : List GroupSymbolRow :=
  match db.groups.lookup g with
  | none => []
  | some group => db.symbols.entries.map fun s =>
    let settings := db.groupSymbols.lookup (g, s.1)
    { symbolId := s.1
      symbolCode := s.2.code
      leverageProfileId := ((settings.bind (·.leverageProfileId)).orElse
        fun _ => group.defaultLeverageProfileId).orElse fun _ => db.defaultLeverageProfile
      enabled := (settings.map (·.enabled)).getD s.2.tradingEnabled }

/-- The symbol that a query by `LOWER(TRIM(code))` returns first. -/
def symbolLike (code : Symbol) : Option (SymbolId × TradingSymbol) :=
  (db.symbols.entries.find? fun s => lowerTrim s.2.code = lowerTrim code).map fun s => (s.1, s.2)

/-- `resolve_leverage_profile_id_for_user_symbol` -/
def resolveLeverageProfile (userId : UserId) (code : Symbol) : Option LeverageProfileId := do
  let g ← db.groupOf userId
  let group ← db.groups.lookup g
  let symbol ← db.symbolLike code
  match ((db.groupSymbols.lookup (g, symbol.1)).bind (·.leverageProfileId)).orElse
      fun _ => group.defaultLeverageProfileId with
  | some id => some id
  | none => db.defaultLeverageProfile

/-- `resolve_symbol_market` -/
def resolveSymbolMarket (code : Symbol) : String :=
  ((db.symbolLike code).bind (·.2.market)).getD "forex"

/-- `resolve_fee_rule`: the most specific of the group's rules, of those the latest. -/
def resolveFeeRule (g : GroupId) (code : Symbol) (market : String) : Option GroupFeeRule :=
  if ((db.groups.lookup g).map (·.feesEnabled)).getD false then
    let fitting := db.feeRules.filter fun r => r.groupId = g ∧ r.active ∧
      (∀ symbol ∈ r.symbol, symbol = trim code) ∧
      ∀ name ∈ r.market, name = String.ofList ((trim market).toList.map Char.toLower)
    [(true, true), (true, false), (false, true), (false, false)].findSome? fun named =>
      fitting.find? fun r => (r.symbol.isSome, r.market.isSome) = named
  else none

/-- `resolve_slippage` -/
def resolveSlippage (groupId : Option GroupId) (requestedBps : Option ℤ) : ℤ :=
  match requestedBps with
  | some bps => min (max bps 0) 500
  | none =>
    match (groupId.bind db.groups.lookup).bind (·.defaultSlippageBps) with
    | some bps => max bps 0
    | none =>
      match db.platformSlippageBps with
      | some bps => max bps 0
      | none => 50

end TradingTables

/-- `get_price_from_redis`, with no group an empty id. -/
def getPrice (prices : String → Option (ℚ × ℚ)) (code : Symbol) (groupId : Option GroupId) :
    Option (ℚ × ℚ) :=
  (priceRedisKeys code (groupId.getD "")).findSome? fun key =>
    (prices key).filter fun price => decide (0 < price.1 ∧ 0 < price.2)

inductive TimeInForce
  | gtc | ioc | fok
  deriving DecidableEq, Repr

/-- The body of a request to place an order; a decimal is `none` when it does not parse. -/
structure OrderForm extends PlaceOrderRequest where
  symbol : Symbol
  sl : Option (Option ℚ)
  tp : Option (Option ℚ)
  tif : Option String
  clientOrderId : Option String
  slippageBps : Option ℤ
  deriving DecidableEq, Repr

/-- The whole command, with the fields that the engine only passes on. -/
@[ext] structure PublishedCommand extends PlaceOrderCommand where
  tif : TimeInForce
  clientOrderId : Option String
  ts : Millis
  minLeverage : Option ℤ
  maxLeverage : Option ℤ
  leverageTiers : Option (List LeverageTier)
  deriving DecidableEq, Repr

/-- A row of `orders` as `sync_pending_orders` reads it. -/
structure PendingOrderRow where
  id : OrderId
  userId : UserId
  symbolCode : Symbol
  side : String
  orderType : String
  size : ℚ
  price : Option ℚ
  stopPrice : Option ℚ
  reference : Option String
  createdAt : Millis
  marginFromCash : ℚ
  marginFromBonus : ℚ
  requestedBid : Option ℚ
  requestedAsk : Option ℚ
  maxSlippageBps : Option ℤ
  deriving DecidableEq, Repr

/-- What `place_order` reads besides the tables of the terms: the side of the
open position, the session, the free margin and the wallet, the prices in Redis
for the margin and then for the snapshot; and the queries that fail. -/
structure PlacementReads where
  orderId : OrderId
  now : Millis
  openPositionSide : Option PositionSide
  sessionOpen : Bool
  freeMargin : ℚ
  wallet : Wallet
  prices : String → Option (ℚ × ℚ)
  snapshotPrices : String → Option (ℚ × ℚ)
  fails : OrderCallStep → Bool

/-- An accepted order: its symbol, its margin and fee rule, its row and its command. -/
structure AcceptedOrder where
  symbolId : SymbolId
  details : OrderMarginDetails
  feeRule : Option GroupFeeRule
  row : PendingOrderRow
  command : PublishedCommand

/-- A NUMERIC(20, 8) column. -/
def orderColumn (x : ℚ) : Option ℚ := HalfAway.column 20 8 x

/-- Such a column that may be NULL. -/
def nullableColumn (x : Option ℚ) : Option (Option ℚ) :=
  x.elim (some none) fun q => (orderColumn q).map some

/-- The time in force of a request; any other text is read as GTC. -/
def OrderForm.timeInForce (form : OrderForm) : TimeInForce :=
  if form.tif = some "IOC" then .ioc else if form.tif = some "FOK" then .fok else .gtc

/-- The row that `place_order` inserts, unless a value does not fit. -/
def PublishedCommand.insert (c : PublishedCommand) (form : OrderForm) (m : Margins) :
    Option PendingOrderRow := do
  let size ← orderColumn c.size
  let price ← nullableColumn c.limitPrice
  let stopPrice ← nullableColumn c.sl
  let marginFromCash ← orderColumn m.1
  let marginFromBonus ← orderColumn m.2
  let requestedBid ← nullableColumn c.requestedBid
  let requestedAsk ← nullableColumn c.requestedAsk
  if form.clientOrderId.all (·.length ≤ 255) then
    some
      { id := c.orderId
        userId := c.userId
        symbolCode := form.symbol
        side := form.sideUpper.toLower
        orderType := form.orderTypeUpper.toLower
        size := size
        price := price
        stopPrice := stopPrice
        reference := form.clientOrderId
        createdAt := c.ts
        marginFromCash := marginFromCash
        marginFromBonus := marginFromBonus
        requestedBid := requestedBid
        requestedAsk := requestedAsk
        maxSlippageBps := c.maxSlippageBps }
  else none

namespace TradingTables
variable (db : TradingTables)

/-- What `place_order` reads for a user of whom the token says this group. -/
def placementContext (userId : UserId) (token : Option GroupId) (form : OrderForm)
    (symbol : TradingSymbol) (reads : PlacementReads) : PlacementContext :=
  let user := (db.users.lookup userId).getD ⟨none, none, none, "full", none⟩
  let groupId := token.or user.groupId
  { userMinLeverage := user.minLeverage
    userMaxLeverage := user.maxLeverage
    accountType := user.accountType
    profile := (db.resolveLeverageProfile userId form.symbol).map db.tiers
    price := getPrice reads.prices form.symbol groupId
    feeRule := (groupId.bind fun g =>
      db.resolveFeeRule g form.symbol (db.resolveSymbolMarket form.symbol)).map (·.rule)
    tradingAccess := user.tradingAccess
    tradingEnabled := symbol.tradingEnabled
    closeOnly := symbol.closeOnly
    allowNewOrders := symbol.allowNewOrders
    openPositionSide := reads.openPositionSide
    sessionOpen := reads.sessionOpen
    freeMargin := reads.freeMargin
    wallet := reads.wallet }

/-- The command of `place_order`. -/
def placeCommand (userId : UserId) (token : Option GroupId) (form : OrderForm)
    (reads : PlacementReads) (req : MarginRequest) (details : OrderMarginDetails) (m : Margins) :
    PublishedCommand :=
  let groupId := token.or (db.groupOf userId)
  let snapshot := getPrice reads.snapshotPrices form.symbol groupId
  { orderId := reads.orderId
    userId := userId
    symbol := form.symbol
    groupId := groupId
    side := req.side
    orderType := req.orderType
    size := req.size
    limitPrice := req.limitPrice
    sl := form.sl.join
    tp := form.tp.join
    idempotencyKey := form.idempotencyKey
    accountType := some details.accountType
    marginFromCash := some m.1
    marginFromBonus := some m.2
    requestedBid := snapshot.map Prod.fst
    requestedAsk := snapshot.map Prod.snd
    maxSlippageBps := some (db.resolveSlippage groupId form.slippageBps)
    tif := form.timeInForce
    clientOrderId := form.clientOrderId
    ts := reads.now
    minLeverage := details.limits.minLeverage
    maxLeverage := details.limits.maxLeverage
    leverageTiers := details.limits.leverageTiers }

/-- `place_order` for a user and the group in the token, up to the publish of
its command, with an idempotency key that is new. -/
def placeOrder (userId : UserId) (token : Option GroupId) (form : OrderForm)
    (reads : PlacementReads) : Option AcceptedOrder := do
  let symbol ← db.symbols.entries.find? fun s => s.2.code = form.symbol
  let ctx := db.placementContext userId token form symbol.2 reads
  let details ← (form.checks ctx reads.fails).toOption
  let placement ← (details.lock reads.wallet reads.freeMargin reads.fails).toOption
  let side ← Side.parseUpper form.sideUpper
  let orderType ← OrderType.parseUpper form.orderTypeUpper
  let size ← form.size
  let req : MarginRequest := ⟨side, orderType, size, form.limitPrice.join⟩
  let command := db.placeCommand userId token form reads req details placement.allocation
  let row ← command.insert form placement.allocation
  some
    { symbolId := symbol.1
      details := details
      feeRule := (token.or (db.groupOf userId)).bind fun g =>
        db.resolveFeeRule g form.symbol (db.resolveSymbolMarket form.symbol)
      row := row
      command := command }

end TradingTables

/-- What `sync_pending_orders` finds for one row: the tables, and which of its
queries for the user, the profile and the tiers succeed. -/
structure SyncReads where
  db : TradingTables
  userRead : Bool
  profileRead : Bool
  tiersRead : Bool

/-- The tiers that the sync puts into a command. -/
def SyncReads.leverageTiers (reads : SyncReads) (userId : UserId) (code : Symbol) :
    Option (List LeverageTier) :=
  let profile := if reads.profileRead then reads.db.resolveLeverageProfile userId code else none
  match profile.map fun id => if reads.tiersRead then reads.db.tiers id else [] with
  | some (tier :: rest) => some (tier :: rest)
  | _ => none

namespace PendingOrderRow
variable (row : PendingOrderRow) (reads : SyncReads)

/-- The command that `sync_pending_orders` builds. -/
def syncCommand (side : Side) (orderType : OrderType) : PublishedCommand :=
  let user := if reads.userRead then reads.db.users.lookup row.userId else none
  { orderId := row.id
    userId := row.userId
    symbol := row.symbolCode
    groupId := user.bind (·.groupId)
    side := side
    orderType := orderType
    size := row.size
    limitPrice := row.price
    sl := row.stopPrice
    tp := none
    idempotencyKey := "sync-" ++ toString row.id
    accountType := ((user.bind (·.accountType)).filter
      fun s => s = "hedging" ∨ s = "netting").orElse fun _ => some "hedging"
    marginFromCash := some row.marginFromCash
    marginFromBonus := some row.marginFromBonus
    requestedBid := row.requestedBid
    requestedAsk := row.requestedAsk
    maxSlippageBps := row.maxSlippageBps
    tif := .gtc
    clientOrderId := row.reference
    ts := row.createdAt
    minLeverage := user.bind (·.minLeverage)
    maxLeverage := user.bind (·.maxLeverage)
    leverageTiers := reads.leverageTiers row.userId row.symbolCode }

/-- `sync_pending_orders` for one pending row; a side or a type that orders do
not have is an error. -/
def resync : Option PublishedCommand := do
  let side ← Side.parseUpper row.side.toUpper
  let orderType ← OrderType.parseUpper row.orderType.toUpper
  some (row.syncCommand reads side orderType)

end PendingOrderRow

end TradingPlatform
