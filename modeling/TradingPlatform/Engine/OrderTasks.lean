import TradingPlatform.Engine.OrderCache
import TradingPlatform.Engine.ReopenScripts

namespace TradingPlatform

/-- The fields of a place command that the engine stores or decides on. -/
structure PlaceOrderCommand where
  orderId : OrderId
  userId : UserId
  symbol : Symbol
  groupId : Option GroupId := none
  side : Side
  orderType : OrderType
  size : ℚ
  limitPrice : Option ℚ := none
  sl : Option ℚ := none
  tp : Option ℚ := none
  idempotencyKey : String
  accountType : Option String := none
  marginFromCash : Option ℚ := none
  marginFromBonus : Option ℚ := none
  requestedBid : Option ℚ := none
  requestedAsk : Option ℚ := none
  maxSlippageBps : Option ℤ := none
  deriving DecidableEq, Repr

/-- An optional decimal that is always serialised. -/
def JsonNum.ofOption : Option ℚ → JsonNum
  | none => .null
  | some q => .num q

/-- An optional decimal left out of the JSON when it is `None`. -/
def JsonNum.ofSkipped : Option ℚ → JsonNum
  | none => .absent
  | some q => .num q

/-- The pending order `handle_place_order` builds. -/
def PlaceOrderCommand.toOrder (cmd : PlaceOrderCommand) : Order where
  id := cmd.orderId
  userId := cmd.userId
  symbol := normalizeSymbol cmd.symbol
  groupId := cmd.groupId
  side := cmd.side
  orderType := cmd.orderType
  size := cmd.size
  limitPrice := .ofOption cmd.limitPrice
  stopLoss := .ofOption cmd.sl
  takeProfit := .ofOption cmd.tp
  status := .PENDING
  accountType := some (cmd.accountType.getD "hedging")
  marginFromCash := .ofSkipped cmd.marginFromCash
  marginFromBonus := .ofSkipped cmd.marginFromBonus
  requestedBid := cmd.requestedBid
  requestedAsk := cmd.requestedAsk
  maxSlippageBps := cmd.maxSlippageBps

/-- `decimal_bps_ceiling_to_i32` -/
def bpsCeiling (d : ℚ) : ℤ :=
  if 2147483647 < ⌈d⌉ then 2147483647 else max ⌈d⌉ 0

/-- `check_slippage` answers `Exceeded`. -/
def slippageExceeded (order : Order) (fillPrice : ℚ) : Bool :=
  match order.requestedBid, order.requestedAsk, order.maxSlippageBps with
  | some bid, some ask, some maxBps =>
    let reference := match order.side with
      | .BUY => ask
      | .SELL => bid
    if reference ≤ 0 then false
    else decide (max maxBps 0 < bpsCeiling (|fillPrice - reference| / reference * 10000))
  | _, _, _ => false

/-- What is left of a tick task after its current order. -/
structure TickRest where
  tick : Tick
  groupId : Option GroupId
  ids : List OrderId
  deriving DecidableEq, Repr

/-- The next command of a running task. A `rest` is the loop of the tick task
that the current order belongs to, `none` for the placement's own fill. -/
inductive Task
  | done
  | placeGetKey (cmd : PlaceOrderCommand)
  | placeSetKey (cmd : PlaceOrderCommand)
  | placeSetOrder (cmd : PlaceOrderCommand)
  | placeAddPending (cmd : PlaceOrderCommand)
  | placeAddCache (cmd : PlaceOrderCommand)
  | placeResolvePrice (cmd : PlaceOrderCommand)
  | fillScript (order : Order) (fillPrice eff : ℚ) (rest : Option TickRest)
  | filledUpdateCache (order : Order) (fillPrice : ℚ) (rest : Option TickRest)
  | filledRemovePending (order : Order) (rest : Option TickRest)
  | rejectSetOrder (order : Order) (rest : Option TickRest)
  | rejectUpdateCache (order : Order) (rest : Option TickRest)
  | rejectRemovePending (order : Order) (rest : Option TickRest)
  | rejectZrem (order : Order) (rest : Option TickRest)
  | tickPending (tick : Tick) (groupId : Option GroupId)
  | tickOrders (rest : TickRest)
  | cancelRead (o : OrderId) (userId : UserId)
  | cancelScript (o : OrderId) (order : Order)
  | cancelRemovePending (o : OrderId) (order : Order)
  deriving DecidableEq, Repr

/-- The order engine: Redis, its cache, the idempotency keys and the tasks
running in it. `fills` counts the successful fill calls of each order. -/
structure Engine where
  store : Store
  cache : OrderCache
  keys : String → Option OrderId
  tasks : ℕ → Task
  fills : OrderId → ℕ

/-- What a task learns from outside when it takes its next step: whether the
validator accepts, a quote, the effective leverage, the clock, a new uuid, and
the orders in which sets are listed. -/
structure Input where
  valid : Bool := true
  price : Option ℚ := none
  effectiveLeverage : Option ℚ := none
  timestampMs : Millis := 0
  positionUuid : PositionId := .uuid 0
  ids : List OrderId := []
  existing : List PositionId := []
  old : List PositionId := []
  deriving DecidableEq, Repr

namespace Task

def resume : Option TickRest → Task
  | none => .done
  | some rest => .tickOrders rest

/-- Goes on to the slippage rejection or to the fill script. -/
def execute (order : Order) (fillPrice : ℚ) (effectiveLeverage : Option ℚ)
    (rest : Option TickRest) : Task :=
  match effectiveLeverage.filter (0 < ·) with
  | none => resume rest
  | some eff =>
    if order.orderType = .MARKET ∧ slippageExceeded order fillPrice then
      .rejectSetOrder order rest
    else .fillScript order fillPrice eff rest

end Task

def Tick.fillPrice (tick : Tick) : Side → ℚ
  | .BUY => tick.ask
  | .SELL => tick.bid

/-- The tick loop fills this cached order: pending, of a matching group, and
at its limit price if it has one. -/
def shouldFill (tick : Tick) (groupId : Option GroupId) (order : Order) : Bool :=
  decide (order.status = .PENDING) &&
  (match groupId, order.groupId with
    | some tickGroup, some orderGroup => decide (orderGroup = tickGroup)
    | _, _ => true) &&
  match order.orderType, order.limitPrice.tonumber, order.side with
  | .MARKET, _, _ => true
  | .LIMIT, some limit, .BUY => decide (tick.ask ≤ limit)
  | .LIMIT, some limit, .SELL => decide (limit ≤ tick.bid)
  | .LIMIT, none, _ => false

namespace Engine

def fillArgs (order : Order) (fillPrice eff : ℚ) (input : Input) : FillArgs where
  orderId := order.id
  fillPrice := fillPrice
  fillSize := order.size
  timestampMs := input.timestampMs
  positionUuid := input.positionUuid
  effectiveLeverage := some eff

/-- The call of `atomic_fill_order.lua`. A reply that the order is already
FILLED is handled like a fill of its own. -/
def runFillScript (e : Engine) (input : Input) (order : Order) (fillPrice eff : ℚ)
    (rest : Option TickRest) : Engine × Task :=
  match atomicFillOrder e.store (fillArgs order fillPrice eff input) input.existing input.old with
  | .success store _ =>
    ({ e with store := store, fills := Function.update e.fills order.id (e.fills order.id + 1) },
      .filledUpdateCache order fillPrice rest)
  | .error store (.orderNotPending .FILLED) =>
    ({ e with store := store }, .filledUpdateCache order fillPrice rest)
  | .error store _ => ({ e with store := store }, .resume rest)
  | .raised store => ({ e with store := store }, .resume rest)

/-- One command of a task, and what the task does next. -/
def advance (e : Engine) (input : Input) : Task → Option (Engine × Task)
  | .done => none
  | .placeGetKey cmd =>
    match e.keys cmd.idempotencyKey with
    | some _ => some (e, .done)
    | none => some (e, if input.valid then .placeSetKey cmd else .done)
  | .placeSetKey cmd =>
    some ({ e with keys := Function.update e.keys cmd.idempotencyKey (some cmd.orderId) },
      .placeSetOrder cmd)
  | .placeSetOrder cmd =>
    some ({ e with store := e.store.setOrder cmd.orderId cmd.toOrder }, .placeAddPending cmd)
  | .placeAddPending cmd =>
    some ({ e with store := e.store.zaddPending (normalizeSymbol cmd.symbol) cmd.orderId },
      .placeAddCache cmd)
  | .placeAddCache cmd =>
    let order := cmd.toOrder
    some ({ e with cache := e.cache.addPendingOrder order.symbol cmd.orderId order },
      if cmd.orderType = .MARKET then .placeResolvePrice cmd else .done)
  | .placeResolvePrice cmd =>
    match input.price with
    | none => some (e, .done)
    | some fillPrice => some (e, .execute cmd.toOrder fillPrice input.effectiveLeverage none)
  | .fillScript order fillPrice eff rest =>
    if ∀ stored ∈ e.store.orders order.id,
        Smembers input.existing (e.store.userPositions stored.userId) ∧
        Smembers input.old (e.store.oldUserPositions stored.userId) then
      some (e.runFillScript input order fillPrice eff rest)
    else none
  | .filledUpdateCache order fillPrice rest =>
    let updated := { order with
      status := .FILLED, filledSize := order.size, averageFillPrice := .num fillPrice
      filledAt := some input.timestampMs }
    some ({ e with cache := e.cache.updateOrder updated }, .filledRemovePending order rest)
  | .filledRemovePending order rest =>
    some ({ e with cache := e.cache.removePendingOrder order.symbol order.id }, .resume rest)
  | .rejectSetOrder order rest =>
    some ({ e with
      store := e.store.setOrder order.id (order.rejected "SLIPPAGE_EXCEEDED" input.timestampMs) },
      .rejectUpdateCache order rest)
  | .rejectUpdateCache order rest =>
    some ({ e with
      cache := e.cache.updateOrder (order.rejected "SLIPPAGE_EXCEEDED" input.timestampMs) },
      .rejectRemovePending order rest)
  | .rejectRemovePending order rest =>
    some ({ e with cache := e.cache.removePendingOrder order.symbol order.id },
      .rejectZrem order rest)
  | .rejectZrem order rest =>
    some ({ e with store := e.store.zremPending order.symbol order.id }, .resume rest)
  | .tickPending tick groupId =>
    let unchanged := (e.cache.getLastTick tick.symbol groupId).any
      fun prev => prev.bid = tick.bid ∧ prev.ask = tick.ask
    if e.cache.getPendingOrders tick.symbol = ∅ ∧ unchanged then some (e, .done)
    else if input.ids.Nodup ∧ input.ids.toFinset = e.cache.getPendingOrders tick.symbol then
      some ({ e with cache := e.cache.updateTick tick groupId }, .tickOrders ⟨tick, groupId, input.ids⟩)
    else none
  | .tickOrders ⟨_, _, []⟩ => some (e, .done)
  | .tickOrders ⟨tick, groupId, o :: ids⟩ =>
    let rest : TickRest := ⟨tick, groupId, ids⟩
    match e.cache.orders o with
    | none => some (e, .tickOrders rest)
    | some order =>
      if shouldFill tick groupId order then
        some (e, .execute order (tick.fillPrice order.side) input.effectiveLeverage (some rest))
      else some (e, .tickOrders rest)
  | .cancelRead o userId =>
    match (e.cache.orders o).orElse fun _ => e.store.orders o with
    | none => some (e, .done)
    | some order =>
      if order.userId = userId ∧ order.status = .PENDING then
        some (e, .cancelScript o order)
      else some (e, .done)
  | .cancelScript o order =>
    match atomicCancelOrder e.store o input.timestampMs with
    | (true, store) => some ({ e with store := store }, .cancelRemovePending o order)
    | (false, store) => some ({ e with store := store }, .done)
  | .cancelRemovePending o order =>
    some ({ e with cache := e.cache.removePendingOrder order.symbol o }, .done)

def setTask (e : Engine) (t : ℕ) (task : Task) : Engine :=
  { e with tasks := Function.update e.tasks t task }

end Engine

/-- A message starts a task, a running task takes its next command or stops
early on an error, or an idempotency key expires. -/
inductive EngineAction
  | place (t : ℕ) (cmd : PlaceOrderCommand)
  | tick (t : ℕ) (tick : Tick) (groupId : Option GroupId)
  | cancel (t : ℕ) (o : OrderId) (userId : UserId)
  | advance (t : ℕ) (input : Input)
  | abort (t : ℕ)
  | expireKey (key : String)

namespace Engine

def step (e : Engine) : EngineAction → Option Engine
  | .place t cmd => if e.tasks t = .done then some (e.setTask t (.placeGetKey cmd)) else none
  | .tick t tick groupId =>
    if e.tasks t = .done then some (e.setTask t (.tickPending tick groupId)) else none
  | .cancel t o userId =>
    if e.tasks t = .done then some (e.setTask t (.cancelRead o userId)) else none
  | .advance t input => (e.advance input (e.tasks t)).map fun (e, task) => e.setTask t task
  | .abort t => some (e.setTask t .done)
  | .expireKey key => some { e with keys := Function.update e.keys key none }

/-- A freshly started engine. -/
def start : Engine where
  store := .empty
  cache := .new
  keys := fun _ => none
  tasks := fun _ => .done
  fills := fun _ => 0

end Engine

end TradingPlatform
