import TradingPlatform.Library.FiniteTable
import TradingPlatform.Orders.OrderMargin

namespace TradingPlatform

/-- The answers of `place_order` and `create_admin_order` other than success. -/
inductive OrderCallError
  | status (code : ℕ)
  | refused (e : PlaceOrderError)
  | bonusLock
  | coded (code : String)
  deriving DecidableEq, Repr

/-- The steps of the two handlers that may fail by themselves. -/
inductive OrderCallStep
  | permission
  | fetchUser
  | fetchSymbol
  | marginQueries
  | symbolFlags
  | closingIntent
  | sessionStatus
  | redisConnection
  | idempotencyCheck
  | freeMarginRead
  | resolveSlippage
  | begin
  | lockMargin
  | insertOrder
  | chargeFee
  | commit
  | redisConnectionPostCommit
  | idempotencyStore
  | versionedMessage
  | serializeCommand
  | publishJetStream
  | publishNats
  | adminEvent
  deriving DecidableEq, Repr

/-- A request with its texts in the case that they are compared in. A decimal
is `none` when it does not parse. -/
structure PlaceOrderRequest where
  sideUpper : String
  orderTypeUpper : String
  size : Option ℚ
  limitPrice : Option (Option ℚ)
  idempotencyKey : String
  deriving DecidableEq, Repr

structure CreateOrderRequest where
  userIdValid : Bool
  symbolIdValid : Bool
  sideUpper : String
  sideLower : String
  orderTypeUpper : String
  orderTypeLower : String
  size : Option ℚ
  price : Option ℚ
  deriving DecidableEq, Repr

/-- A pending row of orders, with the key of the request that it is for. -/
structure PlacedOrder where
  userId : UserId
  margins : Margins
  idempotencyKey : Option String
  deriving DecidableEq

/-- What the two handlers write: the wallets, the orders and the fee log in
Postgres, the keys `order:idempotency:*` in Redis and the commands handed to
the engine's queue; and the ids that `Uuid::new_v4` has given out. -/
structure TradingStores where
  wallets : UserId → Wallet
  orders : FiniteTable OrderId PlacedOrder
  fees : List (OrderId × ℚ)
  keys : String → Option OrderId
  commands : List OrderId
  issued : List OrderId

def Side.parseUpper (s : String) : Option Side :=
  if s = "BUY" then some .BUY else if s = "SELL" then some .SELL else none

def Side.parseLower (s : String) : Option Side :=
  if s = "buy" then some .BUY else if s = "sell" then some .SELL else none

def OrderType.parseUpper (s : String) : Option OrderType :=
  if s = "MARKET" then some .MARKET else if s = "LIMIT" then some .LIMIT else none

def OrderType.parseLower (s : String) : Option OrderType :=
  if s = "market" then some .MARKET else if s = "limit" then some .LIMIT else none

/-- The labels of the Postgres types `order_side` and `order_type`. -/
def insertCasts (side orderType : String) : Bool :=
  side ∈ ["buy", "sell"] ∧ orderType ∈ ["market", "limit", "stop", "stop_limit"]

abbrev Answer := Except OrderCallError

/-- Goes on unless the condition holds. -/
def failIf (b : Bool) (e : OrderCallError) : Answer Unit := if b then .error e else .ok ()

def require {α : Type} (value : Option α) (e : OrderCallError) : Answer α :=
  match value with
  | some a => .ok a
  | none => .error e

theorem require_bind_ok {α β : Type} {value : Option α} {e : OrderCallError} {f : α → Answer β}
    {b : β} (ok : (require value e >>= f) = .ok b) : ∃ a, value = some a ∧ f a = .ok b := by
  cases value with
  | none => cases ok
  | some a => exact ⟨a, rfl, ok⟩

theorem failIf_bind_ok {α : Type} {b : Bool} {e : OrderCallError} {f : Unit → Answer α} {a : α}
    (ok : (failIf b e >>= f) = .ok a) : b = false ∧ f () = .ok a := by
  cases b with
  | true => cases ok
  | false => exact ⟨rfl, ok⟩

def badRequest : OrderCallError := .refused .badRequest

/-- `place_order` up to the idempotency check. -/
def PlaceOrderRequest.checks (r : PlaceOrderRequest) (ctx : PlacementContext)
    (fails : OrderCallStep → Bool) : Answer OrderMarginDetails := do
  let orderType ← require (OrderType.parseUpper r.orderTypeUpper) badRequest
  let side ← require (Side.parseUpper r.sideUpper) badRequest
  let size ← require r.size badRequest
  failIf (size ≤ 0) badRequest
  let limitPrice ← require (r.limitPrice.elim (some none) (·.map some)) badRequest
  failIf (orderType = .LIMIT ∧ limitPrice = none) badRequest
  failIf (fails .fetchUser) (.status 500)
  failIf (ctx.tradingAccess ≠ "full") (.refused .tradingRestricted)
  failIf (fails .marginQueries) (.status 500)
  let details ← (ctx.computeOrderMarginDetails ⟨side, orderType, size, limitPrice⟩).mapError .refused
  failIf (fails .symbolFlags) (.status 500)
  failIf (¬ctx.tradingEnabled) (.refused (.orderForbidden "TRADING_DISABLED"))
  failIf (fails .closingIntent) (.status 500)
  let closing := isClosingIntent ctx.openPositionSide side
  failIf (ctx.closeOnly ∧ ¬closing) (.refused (.orderForbidden "CLOSE_ONLY"))
  failIf (¬ctx.allowNewOrders ∧ ¬closing) (.refused (.orderForbidden "NEW_ORDERS_DISABLED"))
  failIf (fails .sessionStatus) (.status 500)
  failIf (¬ctx.sessionOpen) (.refused (.orderForbidden "MARKET_CLOSED"))
  failIf (details.requiredMargin < minRequiredMarginUsd)
    (.refused (.minimumMarginNotMet details.requiredMargin minRequiredMarginUsd))
  failIf (fails .redisConnection) (.status 503)
  failIf (fails .idempotencyCheck) (.status 500)
  return details

/-- The free-margin check and the transaction of `place_order`. -/
def OrderMarginDetails.lock (details : OrderMarginDetails) (wallet : Wallet) (freeMargin : ℚ)
    (fails : OrderCallStep → Bool) : Answer Placement := do
  failIf (fails .freeMarginRead) (.status 500)
  let total := details.requiredMargin + details.estimatedFeeUsd
  let insufficient := OrderCallError.refused (.insufficientMargin details.requiredMargin
    details.estimatedFeeUsd total freeMargin)
  failIf (freeMargin < total) insufficient
  failIf (fails .resolveSlippage) (.status 500)
  failIf (fails .begin) (.status 500)
  failIf (fails .lockMargin) .bonusLock
  let (locked, allocation) ← require (wallet.lockMargin details.requiredMargin) insufficient
  failIf (fails .insertOrder) (.status 500)
  failIf (fails .chargeFee) (.status 500)
  let charged ← require (locked.chargePlacementFee details.estimatedFeeUsd) insufficient
  failIf (fails .commit) (.status 500)
  return ⟨details, charged, allocation⟩

/-- `place_order` up to the commit of its transaction: an error, the order that
the idempotency key has already, or the placement to be committed. -/
def PlaceOrderRequest.beforeCommit (r : PlaceOrderRequest) (s : TradingStores) (userId : UserId)
    (ctx : PlacementContext) (fails : OrderCallStep → Bool) : Answer (OrderId ⊕ Placement) :=
  match r.checks ctx fails with
  | .error e => .error e
  | .ok details =>
    match s.keys r.idempotencyKey with
    | some existing => .ok (.inl existing)
    | none => (details.lock (s.wallets userId) ctx.freeMargin fails).map .inr

/-- `create_admin_order` up to its commit; any order type but a limit is priced
as a market order. -/
def CreateOrderRequest.beforeCommit (r : CreateOrderRequest) (s : TradingStores) (userId : UserId)
    (ctx : PlacementContext) (fails : OrderCallStep → Bool) : Answer Placement := do
  failIf (fails .permission) (.coded "PERMISSION_DENIED")
  failIf (¬r.userIdValid) (.coded "INVALID_USER_ID")
  failIf (¬r.symbolIdValid) (.coded "INVALID_SYMBOL_ID")
  let size ← require r.size (.coded "INVALID_SIZE")
  failIf (fails .fetchUser) (.coded "INTERNAL_ERROR")
  failIf (fails .fetchSymbol) (.coded "INTERNAL_ERROR")
  failIf (ctx.tradingAccess ≠ "full") (.coded "TRADING_DISABLED")
  failIf (fails .marginQueries) (.coded "ORDER_MARGIN")
  let side := if r.sideUpper = "BUY" then Side.BUY else .SELL
  let orderType := if r.orderTypeUpper = "LIMIT" then OrderType.LIMIT else .MARKET
  let details ← (ctx.computeOrderMarginDetails ⟨side, orderType, size, r.price⟩).mapError .refused
  failIf (details.requiredMargin < minRequiredMarginUsd) (.coded "MIN_REQUIRED_MARGIN_NOT_MET")
  failIf (ctx.freeMargin < details.requiredMargin) (.coded "INSUFFICIENT_FREE_MARGIN")
  failIf (fails .resolveSlippage) (.coded "INTERNAL_ERROR")
  failIf (fails .begin) (.coded "INTERNAL_ERROR")
  failIf (fails .lockMargin) (.coded "BONUS_LOCK")
  let (locked, allocation) ← require ((s.wallets userId).lockMargin details.requiredMargin)
    (.coded "INSUFFICIENT_FREE_MARGIN")
  failIf (fails .insertOrder ∨ ¬insertCasts r.sideLower r.orderTypeLower) (.coded "INTERNAL_ERROR")
  failIf (fails .commit) (.coded "INTERNAL_ERROR")
  return ⟨details, locked, allocation⟩

namespace TradingStores

/-- The commit: the lock, the pending row and the fee. -/
def commit (s : TradingStores) (o : OrderId) (userId : UserId) (key : Option String) (feeUsd : ℚ)
    (placement : Placement) : TradingStores :=
  { s with
    wallets := Function.update s.wallets userId placement.wallet
    orders := s.orders.insert o ⟨userId, placement.allocation, key⟩
    fees := if 0 < feeUsd then s.fees ++ [(o, feeUsd)] else s.fees }

def hand (s : TradingStores) (o : OrderId) : TradingStores := { s with commands := s.commands ++ [o] }

/-- `place_order` from its commit on. JetStream first, else the plain publish. -/
def placeOrderPublishes (s : TradingStores) (o : OrderId) (r : PlaceOrderRequest)
    (fails : OrderCallStep → Bool) : Answer OrderId × TradingStores :=
  if fails .redisConnectionPostCommit then (.error (.status 503), s)
  else if fails .idempotencyStore then (.error (.status 500), s)
  else
    let stored := { s with keys := Function.update s.keys r.idempotencyKey (some o) }
    if Side.parseUpper r.sideUpper = none then (.error badRequest, stored)
    else if OrderType.parseUpper r.orderTypeUpper = none then (.error badRequest, stored)
    else if fails .versionedMessage ∨ fails .serializeCommand then (.error (.status 500), stored)
    else if fails .publishJetStream ∧ fails .publishNats then (.error (.status 500), stored)
    else (.ok o, stored.hand o)

/-- `create_admin_order` from its commit on. JetStream and the plain publish. -/
def createAdminOrderPublishes (s : TradingStores) (o : OrderId) (r : CreateOrderRequest)
    (fails : OrderCallStep → Bool) : Answer OrderId × TradingStores :=
  if Side.parseLower r.sideLower = none then (.error (.coded "INVALID_SIDE"), s)
  else if OrderType.parseLower r.orderTypeLower = none then (.error (.coded "INVALID_ORDER_TYPE"), s)
  else if fails .versionedMessage ∨ fails .serializeCommand then (.error (.coded "INTERNAL_ERROR"), s)
  else if fails .publishJetStream then (.error (.coded "ORDER_QUEUE_UNAVAILABLE"), s)
  else if fails .publishNats then (.error (.coded "INTERNAL_ERROR"), s.hand o)
  else if fails .adminEvent then (.error (.coded "INTERNAL_ERROR"), (s.hand o).hand o)
  else (.ok o, (s.hand o).hand o)

def placeOrder (s : TradingStores) (o : OrderId) (userId : UserId) (r : PlaceOrderRequest)
    (ctx : PlacementContext) (fails : OrderCallStep → Bool) : Answer OrderId × TradingStores :=
  match r.beforeCommit s userId ctx fails with
  | .error e => (.error e, s)
  | .ok (.inl existing) => (.ok existing, s)
  | .ok (.inr placement) =>
    (s.commit o userId (some r.idempotencyKey) placement.details.estimatedFeeUsd
      placement).placeOrderPublishes o r fails

def createAdminOrder (s : TradingStores) (o : OrderId) (userId : UserId) (r : CreateOrderRequest)
    (ctx : PlacementContext) (fails : OrderCallStep → Bool) : Answer OrderId × TradingStores :=
  match r.beforeCommit s userId ctx fails with
  | .error e => (.error e, s)
  | .ok placement => (s.commit o userId none 0 placement).createAdminOrderPublishes o r fails

end TradingStores

/-- A call with the id that it generates, what it reads and the steps that fail. -/
inductive OrderCall
  | placeOrder (o : OrderId) (userId : UserId) (r : PlaceOrderRequest) (ctx : PlacementContext)
      (fails : OrderCallStep → Bool)
  | createAdminOrder (o : OrderId) (userId : UserId) (r : CreateOrderRequest)
      (ctx : PlacementContext) (fails : OrderCallStep → Bool)

/-- A call, or the end of a key's 24 hours. -/
inductive OrderCallAction
  | call (c : OrderCall)
  | expire (key : String)

def OrderCall.id : OrderCall → OrderId
  | .placeOrder o _ _ _ _ => o
  | .createAdminOrder o _ _ _ _ => o

namespace TradingStores

def opened (wallets : UserId → Wallet) : TradingStores := ⟨wallets, ∅, [], fun _ => none, [], []⟩

def outcome (s : TradingStores) : OrderCall → Answer OrderId × TradingStores
  | .placeOrder o userId r ctx fails => s.placeOrder o userId r ctx fails
  | .createAdminOrder o userId r ctx fails => s.createAdminOrder o userId r ctx fails

def step (s : TradingStores) : OrderCallAction → Option TradingStores
  | .call c =>
    if c.id ∈ s.issued then none
    else some { (s.outcome c).2 with issued := c.id :: s.issued }
  | .expire key => some { s with keys := Function.update s.keys key none }

end TradingStores

end TradingPlatform
