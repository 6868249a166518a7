import TradingPlatform.Library.StepRuns
import TradingPlatform.Orders.OrderMargin
import TradingPlatform.Orders.OrderMessages

namespace TradingPlatform

open StepRuns

/-- A place command with the leverage limits that it carries. -/
structure LeveragedCommand extends PlaceOrderCommand where
  limits : LeverageLimits
  deriving DecidableEq, Repr

/-- An order that `place_order` or `create_admin_order` has accepted. -/
structure LockedOrder where
  req : MarginRequest
  placement : Placement

/-- Where an order id comes from: the auth-service, with a margin lock, or the
core-api, without one. -/
inductive OrderOrigin
  | locked (order : LockedOrder)
  | unlocked

/-- The columns of an `orders` row that `sync_pending_orders` reads. -/
structure LockedRow where
  userId : UserId
  symbol : Symbol
  side : Side
  orderType : OrderType
  size : ℚ
  price : Option ℚ
  stopPrice : Option ℚ
  marginFromCash : ℚ
  marginFromBonus : ℚ
  requestedBid : Option ℚ
  requestedAsk : Option ℚ
  maxSlippageBps : Option ℤ
  status : RowStatus
  deriving DecidableEq, Repr

namespace LockedOrder

/-- The command of the auth-service, both for users and for admins. The template
has what does not come from the margin. -/
def command (lock : LockedOrder) (template : PlaceOrderCommand) : LeveragedCommand where
  toPlaceOrderCommand :=
    { template with
      side := lock.req.side
      orderType := lock.req.orderType
      size := lock.req.size
      limitPrice := lock.req.limitPrice
      accountType := some lock.placement.details.accountType
      marginFromCash := some lock.placement.allocation.1
      marginFromBonus := some lock.placement.allocation.2 }
  limits := lock.placement.details.limits

/-- The row that is inserted with the lock. -/
def row (lock : LockedOrder) (template : PlaceOrderCommand) : LockedRow where
  userId := template.userId
  symbol := template.symbol
  side := lock.req.side
  orderType := lock.req.orderType
  size := lock.req.size
  price := lock.req.limitPrice
  stopPrice := template.sl
  marginFromCash := lock.placement.allocation.1
  marginFromBonus := lock.placement.allocation.2
  requestedBid := template.requestedBid
  requestedAsk := template.requestedAsk
  maxSlippageBps := template.maxSlippageBps
  status := .pending

end LockedOrder

/-- What `sync_pending_orders` reads again of an order's user, and the tiers that
it reads for the user and the symbol. -/
structure ReadAgain where
  groupId : Option GroupId
  accountType : Option String
  limits : LeverageLimits
  deriving DecidableEq, Repr

/-- The command that `sync_pending_orders` builds from a row. -/
def LockedRow.command (row : LockedRow) (o : OrderId) (read : ReadAgain) : LeveragedCommand where
  orderId := o
  userId := row.userId
  symbol := row.symbol
  groupId := read.groupId
  side := row.side
  orderType := row.orderType
  size := row.size
  limitPrice := row.price
  sl := row.stopPrice
  tp := none
  idempotencyKey := "sync-" ++ toString o
  accountType := some ((read.accountType.filter fun s => s = "hedging" ∨ s = "netting").getD "hedging")
  marginFromCash := some row.marginFromCash
  marginFromBonus := some row.marginFromBonus
  requestedBid := row.requestedBid
  requestedAsk := row.requestedAsk
  maxSlippageBps := row.maxSlippageBps
  limits := read.limits

/-- `validate_order_type_price` -/
def validOrderTypePrice : OrderType → Option ℚ → Bool
  | .MARKET, price => price.isNone
  | .LIMIT, price => price.isSome

/-- The command of the core-api, with neither a split nor limits. -/
def coreApiCommand (req : PlaceOrderCommand) : LeveragedCommand where
  toPlaceOrderCommand :=
    { req with
      groupId := none
      marginFromCash := none
      marginFromBonus := none
      requestedBid := none
      requestedAsk := none
      maxSlippageBps := none }
  limits := ⟨none, none, none⟩

/-- How a fill is called: its price, and what Redis and the clock add. -/
structure FillCall where
  price : ℚ
  timestampMs : Millis
  positionUuid : PositionId
  existing : List PositionId
  old : List PositionId
  deriving DecidableEq, Repr

/-- The services that publish place commands, and the engine: the orders with
their origins and rows, the rows that running syncs have fetched, the commands
in flight, those that the engine has validated or stored the key of, the copies
of orders that it has accepted, and Redis. -/
structure FillDesk where
  origins : OrderId → Option OrderOrigin
  rows : OrderId → Option LockedRow
  fetched : List (OrderId × LockedRow)
  commands : List LeveragedCommand
  validated : List LeveragedCommand
  keyed : List LeveragedCommand
  accepted : List LeveragedCommand
  keys : String → Option OrderId
  store : Store

/-- A command may be published any number of times, as a delivery is repeated or
lost. Statuses of rows and the state of positions change from outside. -/
inductive FillDeskAction
  | placeOrder (ctx : PlacementContext) (req : MarginRequest) (template : PlaceOrderCommand)
      (copies : ℕ)
  | createAdminOrder (ctx : PlacementContext) (req : MarginRequest) (template : PlaceOrderCommand)
      (copies : ℕ)
  | coreApi (req : PlaceOrderCommand) (copies : ℕ)
  | settle (o : OrderId) (status : RowStatus)
  | fetch (ids : List OrderId)
  | republish (o : OrderId) (row : LockedRow) (read : ReadAgain) (copies : ℕ)
  | validate (cmd : LeveragedCommand) (valid : Bool)
  | storeKey (cmd : LeveragedCommand)
  | storeOrder (cmd : LeveragedCommand)
  | expireKey (key : String)
  | fill (cmd : LeveragedCommand) (call : FillCall)
  | reject (cmd : LeveragedCommand) (timestampMs : Millis)
  | cancel (o : OrderId) (timestampMs : Millis)
  | positions (store : Store)

namespace FillDesk

def start : FillDesk where
  origins := fun _ => none
  rows := fun _ => none
  fetched := []
  commands := []
  validated := []
  keyed := []
  accepted := []
  keys := fun _ => none
  store := .empty

/-- The commit of a placement, and what is published of it. -/
def commit (desk : FillDesk) (lock : LockedOrder) (template : PlaceOrderCommand) (copies : ℕ) :
    FillDesk :=
  { desk with
    origins := Function.update desk.origins template.orderId (some (.locked lock))
    rows := Function.update desk.rows template.orderId (some (lock.row template))
    commands := List.replicate copies (lock.command template) ++ desk.commands }

def place (desk : FillDesk) (outcome : Except PlaceOrderError Placement) (req : MarginRequest)
    (template : PlaceOrderCommand) (copies : ℕ) : Option FillDesk :=
  if desk.origins template.orderId = none then
    match outcome with
    | .ok placement => some (desk.commit ⟨req, placement⟩ template copies)
    | .error _ => none
  else none

def fillArgs (cmd : LeveragedCommand) (call : FillCall) : FillArgs where
  orderId := cmd.orderId
  fillPrice := call.price
  fillSize := cmd.size
  timestampMs := call.timestampMs
  positionUuid := call.positionUuid
  effectiveLeverage := (cmd.limits.effective (call.price * cmd.size)).filter (0 < ·)

/-- The call of `atomic_fill_order.lua` for a copy of an order, unless its limits
give no leverage. -/
def runFill (desk : FillDesk) (cmd : LeveragedCommand) (call : FillCall) :
    Option (ScriptOutcome FillError FillResult) :=
  if (fillArgs cmd call).effectiveLeverage = none then none
  else some (atomicFillOrder desk.store (fillArgs cmd call) call.existing call.old)

def pendingRow (desk : FillDesk) (o : OrderId) : Option (OrderId × LockedRow) :=
  (desk.rows o).bind fun row => if row.status = .pending then some (o, row) else none

def step (desk : FillDesk) : FillDeskAction → Option FillDesk
  | .placeOrder ctx req template copies =>
    desk.place (TradingPlatform.placeOrder ctx req) req template copies
  | .createAdminOrder ctx req template copies =>
    desk.place (TradingPlatform.createAdminOrder ctx req) req template copies
  | .coreApi req copies =>
    if desk.origins req.orderId = none ∧ 0 < req.size ∧ validOrderTypePrice req.orderType req.limitPrice
    then some { desk with
      origins := Function.update desk.origins req.orderId (some .unlocked)
      commands := List.replicate copies (coreApiCommand req) ++ desk.commands }
    else none
  | .settle o status =>
    some { desk with
      rows := Function.update desk.rows o ((desk.rows o).map fun row => { row with status := status }) }
  | .fetch ids =>
    if ids.length ≤ 500 then
      some { desk with fetched := ids.filterMap desk.pendingRow ++ desk.fetched }
    else none
  | .republish o row read copies =>
    if (o, row) ∈ desk.fetched ∧ desk.store.orders o = none then
      some { desk with
        fetched := desk.fetched.erase (o, row)
        commands := List.replicate copies (row.command o read) ++ desk.commands }
    else none
  | .validate cmd valid =>
    if cmd ∈ desk.commands then
      let desk := { desk with commands := desk.commands.erase cmd }
      if desk.keys cmd.idempotencyKey = none ∧ valid then
        some { desk with validated := cmd :: desk.validated }
      else some desk
    else none
  | .storeKey cmd =>
    if cmd ∈ desk.validated then
      some { desk with
        validated := desk.validated.erase cmd
        keys := Function.update desk.keys cmd.idempotencyKey (some cmd.orderId)
        keyed := cmd :: desk.keyed }
    else none
  | .storeOrder cmd =>
    if cmd ∈ desk.keyed then
      some { desk with
        keyed := desk.keyed.erase cmd
        store := desk.store.setOrder cmd.orderId cmd.toOrder
        accepted := cmd :: desk.accepted }
    else none
  | .expireKey key => some { desk with keys := Function.update desk.keys key none }
  | .fill cmd call =>
    if cmd ∈ desk.accepted then
      (desk.runFill cmd call).map fun outcome => { desk with store := outcome.store }
    else none
  | .reject cmd timestampMs =>
    if cmd ∈ desk.accepted then
      some { desk with
        store := desk.store.setOrder cmd.orderId (cmd.toOrder.rejected "SLIPPAGE_EXCEEDED" timestampMs) }
    else none
  | .cancel o timestampMs => some { desk with store := (atomicCancelOrder desk.store o timestampMs).2 }
  | .positions store => some { desk with store := { store with orderRecords := desk.store.orderRecords } }

end FillDesk

end TradingPlatform
