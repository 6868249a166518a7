import TradingPlatform.Engine.OrderTasks
import TradingPlatform.Orders.OrderRows

namespace TradingPlatform

/-- A row of `orders`, with its owner and its status. -/
structure OrderRow where
  userId : UserId
  status : RowStatus
  deriving DecidableEq, Repr

/-- `evt.order.updated` -/
structure OrderUpdatedEvent where
  orderId : OrderId
  userId : UserId
  status : EventStatus
  deriving DecidableEq, Repr

structure CancelOrderCommand where
  orderId : OrderId
  userId : UserId
  deriving DecidableEq, Repr

/-- The order's row after `handle_order_update`. A row inserted by
`create_order_from_redis` belongs to the order's user. -/
def OrderUpdatedEvent.handle (event : OrderUpdatedEvent) (recreates : Bool)
    (row : Option OrderRow) : Option OrderRow :=
  (handleOrderUpdate recreates (row.map (·.status)) event.status).1.map fun status =>
    ⟨(row.map (·.userId)).getD event.userId, status⟩

namespace Task

/-- `reject_market_order_slippage_exceeded` publishes before it writes. -/
def rejection : Task → List OrderUpdatedEvent
  | .rejectSetOrder order _ => [⟨order.id, order.userId, .rejected⟩]
  | _ => []

/-- `execute_fill` and `handle_place_order` report a successful fill only. -/
def fillUpdates (order : Order) : ScriptOutcome FillError FillResult → List OrderUpdatedEvent
  | .success _ _ => [⟨order.id, order.userId, .filled⟩]
  | .error _ _ => []
  | .raised _ => []

/-- The `evt.order.updated` that a task publishes between this command and
the next one. -/
def updates (e : Engine) (input : Input) (task next : Task) : List OrderUpdatedEvent :=
  match task with
  | .placeGetKey cmd =>
    if e.keys cmd.idempotencyKey = none ∧ input.valid = false then
      [⟨cmd.orderId, cmd.userId, .rejected⟩]
    else []
  | .fillScript order fillPrice eff _ =>
    fillUpdates order (atomicFillOrder e.store (Engine.fillArgs order fillPrice eff input)
      input.existing input.old)
  | .cancelScript o order =>
    if (atomicCancelOrder e.store o input.timestampMs).1 then [⟨o, order.userId, .cancelled⟩]
    else []
  | _ => next.rejection

end Task

/-- The loops of the engine that handle one message after the other. -/
inductive Subscription
  | place | cancel | tick
  deriving DecidableEq, Repr

/-- Where the engine keeps the task of the message a loop is handling. -/
def Subscription.task : Subscription → ℕ
  | .place => 0
  | .cancel => 1
  | .tick => 2

/-- The auth-service's `orders` table, its handlers that have yet to publish
their command, the messages in flight, and the engine with the updates that
each of its loops is about to publish. -/
structure OrderDesk where
  rows : OrderId → Option OrderRow
  placing : OrderId → Option PlaceOrderCommand
  cancelling : OrderId → Option CancelOrderCommand
  placeCommands : List PlaceOrderCommand
  cancelCommands : List CancelOrderCommand
  engine : Engine
  outbox : Subscription → List OrderUpdatedEvent
  updates : List OrderUpdatedEvent

/-- `place_order` up to its commit and its publish, `cancel_order` likewise,
a loop taking its next message, a command of its task or an update it
publishes, the listener, and the expiry of an idempotency key. -/
inductive DeskAction
  | placeOrder (cmd : PlaceOrderCommand)
  | publishPlace (o : OrderId)
  | cancelOrder (o : OrderId) (userId : UserId)
  | publishCancel (o : OrderId)
  | takePlace
  | takeCancel
  | takeTick (tick : Tick) (groupId : Option GroupId)
  | advance (loop : Subscription) (input : Input)
  | publish (loop : Subscription)
  | listen (recreates : Bool)
  | expireKey (key : String)
  deriving DecidableEq, Repr

namespace OrderDesk

def start : OrderDesk where
  rows := fun _ => none
  placing := fun _ => none
  cancelling := fun _ => none
  placeCommands := []
  cancelCommands := []
  engine := .start
  outbox := fun _ => []
  updates := []

def running (s : OrderDesk) (loop : Subscription) : Task := s.engine.tasks loop.task

/-- A loop goes on to the next message when it is done with the one before. -/
def idle (s : OrderDesk) (loop : Subscription) : Prop :=
  s.running loop = .done ∧ s.outbox loop = []

instance (s : OrderDesk) (loop : Subscription) : Decidable (s.idle loop) :=
  inferInstanceAs (Decidable (_ ∧ _))

def run (s : OrderDesk) (loop : Subscription) (task : Task) : OrderDesk :=
  { s with engine := s.engine.setTask loop.task task }

/-- A command needs the updates before it published, and a new position's uuid
is not yet in use. -/
def advance (s : OrderDesk) (loop : Subscription) (input : Input) : Option OrderDesk :=
  if s.outbox loop = [] ∧ s.engine.store.hash input.positionUuid = none then
    (s.engine.advance input (s.running loop)).map fun (engine, next) =>
      { s with
        engine := engine.setTask loop.task next
        outbox := Function.update s.outbox loop
          ((s.running loop).updates s.engine input next) }
  else none

def step (s : OrderDesk) : DeskAction → Option OrderDesk
  | .placeOrder cmd =>
    if s.rows cmd.orderId = none then
      some { s with
        rows := Function.update s.rows cmd.orderId (some ⟨cmd.userId, .pending⟩)
        placing := Function.update s.placing cmd.orderId (some cmd) }
    else none
  | .publishPlace o =>
    (s.placing o).map fun cmd =>
      { s with
        placing := Function.update s.placing o none
        placeCommands := s.placeCommands ++ [cmd] }
  | .cancelOrder o userId =>
    if s.rows o = some ⟨userId, .pending⟩ then
      some { s with
        rows := Function.update s.rows o (some ⟨userId, .cancelling⟩)
        cancelling := Function.update s.cancelling o (some ⟨o, userId⟩) }
    else some s
  | .publishCancel o =>
    (s.cancelling o).map fun cmd =>
      { s with
        cancelling := Function.update s.cancelling o none
        cancelCommands := s.cancelCommands ++ [cmd] }
  | .takePlace =>
    match s.placeCommands with
    | [] => none
    | cmd :: rest =>
      if s.idle .place then some ({ s with placeCommands := rest }.run .place (.placeGetKey cmd))
      else none
  | .takeCancel =>
    match s.cancelCommands with
    | [] => none
    | cmd :: rest =>
      if s.idle .cancel then
        some ({ s with cancelCommands := rest }.run .cancel (.cancelRead cmd.orderId cmd.userId))
      else none
  | .takeTick tick groupId =>
    if s.idle .tick then some (s.run .tick (.tickPending tick groupId)) else none
  | .advance loop input => s.advance loop input
  | .publish loop =>
    match s.outbox loop with
    | [] => none
    | event :: rest =>
      some { s with
        outbox := Function.update s.outbox loop rest
        updates := s.updates ++ [event] }
  | .listen recreates =>
    match s.updates with
    | [] => none
    | event :: rest =>
      some { s with
        updates := rest
        rows := Function.update s.rows event.orderId
          (event.handle recreates (s.rows event.orderId)) }
  | .expireKey key =>
    some { s with
      engine := { s.engine with keys := Function.update s.engine.keys key none } }

end OrderDesk

/-- The row's status that corresponds to the order's status in Redis. An order
that the validator rejects is never stored there. -/
def correspondingStatus : Option OrderStatus → RowStatus
  | none => .rejected
  | some .PENDING => .pending
  | some .PARTIALLYFILLED => .partiallyFilled
  | some .FILLED => .filled
  | some .CANCELED => .cancelled
  | some .CANCELLED => .cancelled
  | some .REJECTED => .rejected

namespace OrderDesk

/-- No message is in flight and no handler is running. -/
structure Quiescent (s : OrderDesk) : Prop where
  placing : ∀ o, s.placing o = none
  cancelling : ∀ o, s.cancelling o = none
  placeCommands : s.placeCommands = []
  cancelCommands : s.cancelCommands = []
  loops : ∀ loop, s.running loop = .done
  outbox : ∀ loop, s.outbox loop = []
  updates : s.updates = []

/-- The rows say what Redis says, once nothing is going on. -/
def StatusesAgree (s : OrderDesk) : Prop :=
  s.Quiescent → ∀ o row, s.rows o = some row →
    row.status = correspondingStatus ((s.engine.store.orders o).map (·.status))

end OrderDesk

end TradingPlatform
