import TradingPlatform.Engine.CloseShrinks
import TradingPlatform.Engine.Exposure
import TradingPlatform.Orders.MarginCounted

namespace TradingPlatform

open StepRuns

/-- The two endpoints through which orders are placed. -/
inductive OrderService
  | user
  | admin
  deriving DecidableEq, Repr

def OrderService.accept (service : OrderService) (ctx : PlacementContext) (req : MarginRequest) :
    Except PlaceOrderError Placement :=
  match service with
  | .user => placeOrder ctx req
  | .admin => createAdminOrder ctx req

/-- The symbol takes no order that opens a position. -/
def PlacementContext.Restricted (ctx : PlacementContext) : Prop :=
  ctx.closeOnly = true ∨ ctx.allowNewOrders = false

instance (ctx : PlacementContext) : Decidable ctx.Restricted :=
  inferInstanceAs (Decidable (_ ∨ _))

/-- The engine's record of an accepted request. -/
def Order.IsFor (order : Order) (req : MarginRequest) : Prop :=
  order.side = req.side ∧ order.orderType = req.orderType ∧ order.size = req.size ∧
    order.status = .PENDING

instance (order : Order) (req : MarginRequest) : Decidable (order.IsFor req) :=
  inferInstanceAs (Decidable (_ ∧ _ ∧ _ ∧ _))

/-- A request that was accepted while its symbol was restricted. -/
structure Submission where
  service : OrderService
  ctx : PlacementContext
  req : MarginRequest

/-- The engine's store, and the accepted requests by their orders. -/
structure CloseOnlyDesk where
  store : Store
  accepted : OrderId → Option Submission

/-- A request for a restricted symbol, or a call of the engine: a fill of one of
these orders or of an earlier one, a close, a cancellation or an edit. -/
inductive CloseOnlyAction
  | submit (submission : Submission) (order : Order)
  | script (call : ScriptCall)

namespace CloseOnlyDesk

def start : CloseOnlyDesk where
  store := .empty
  accepted := fun _ => none

def step (desk : CloseOnlyDesk) : CloseOnlyAction → Option CloseOnlyDesk
  | .submit submission order =>
    if desk.store.orders order.id = none ∧ submission.ctx.Restricted ∧ order.IsFor submission.req then
      match submission.service.accept submission.ctx submission.req with
      | .ok _ => some
        { store := desk.store.setOrder order.id order
          accepted := Function.update desk.accepted order.id (some submission) }
      | .error _ => none
    else none
  | .script call => (desk.store.call call).map fun store => { desk with store := store }

/-- Fills keep to what the services promise about the orders they place. -/
def Promised (desk : CloseOnlyDesk) : CloseOnlyAction → Prop
  | .submit _ _ => True
  | .script call => Collateralised desk.store call

instance (desk : CloseOnlyDesk) : DecidablePred desk.Promised
  | .submit _ _ => inferInstanceAs (Decidable True)
  | .script call => inferInstanceAs (Decidable (Collateralised desk.store call))

/-- Users' orders are for the side opposite to the open position that the check
of their intent has read. -/
structure Checked (desk : CloseOnlyDesk) : Prop where
  solid : desk.store.Solid
  closing : ∀ o, ∀ submission ∈ desk.accepted o, submission.service = .user →
    isClosingIntent submission.ctx.openPositionSide submission.req.side = true

variable {desk next : CloseOnlyDesk}

theorem step_checked {action : CloseOnlyAction} (checked : desk.Checked)
    (promised : desk.Promised action) (taken : desk.step action = some next) : next.Checked := by
  cases action with
  | submit submission order =>
    simp only [step] at taken
    split_ifs at taken with free
    cases accepted : submission.service.accept submission.ctx submission.req with
    | error e => rw [accepted] at taken; cases taken
    | ok placement =>
      rw [accepted] at taken
      cases taken
      refine ⟨⟨checked.solid.hashesOnly, checked.solid.hashes⟩, fun o other isOther byUser => ?_⟩
      by_cases same : o = order.id
      · subst same
        have recorded : Function.update desk.accepted order.id (some submission) order.id = some other :=
          isOther
        rw [Function.update_self] at recorded
        cases Option.some.inj recorded
        rw [byUser] at accepted
        exact (placeOrder_ok accepted).2.2 free.2.1
      · exact checked.closing o other ((Function.update_of_ne same ..).symm.trans isOther) byUser
  | script call =>
    obtain ⟨store, called, rfl⟩ := Option.map_eq_some_iff.mp taken
    exact ⟨checked.solid.call promised called, checked.closing⟩

/-- The gate is enough for a netting account that still has the position which
the gate has read as its only open one, no smaller than the order. -/
theorem placeOrder_reduces {ctx : PlacementContext} {req : MarginRequest} {placement : Placement}
    (accepted : placeOrder ctx req = .ok placement) (restricted : ctx.Restricted) {order : Order}
    (isFor : order.IsFor req) (netting : isNetting order.accountType) {st : Store}
    {existing : List PositionId} {p : PositionId} {h : PositionHash} (listed : p ∈ existing)
    (stored : st.hash p = some h) (isOpen : h.IsOpenOn order.symbol)
    (read : h.side = ctx.openPositionSide) (sided : ∃ side, h.side = some side)
    (only : ∀ q ∈ existing, q ≠ p → ∀ g ∈ st.hash q, ¬ g.IsOpenOn order.symbol)
    (enough : order.size ≤ h.size.getD 0) : (order.target st existing).Reduces order.size := by
  have closing := (placeOrder_ok accepted).2.2 restricted
  rw [← read, ← isFor.1] at closing
  have opposite : h.side ≠ some order.side.opens := by
    obtain ⟨side, hasSide⟩ := sided
    rw [hasSide] at closing ⊢
    cases side <;> cases orderSide : order.side <;> rw [orderSide] at closing <;>
      simp [isClosingIntent, Side.opens] at closing ⊢
  cases found : order.target st existing with
  | fresh => exact absurd found (Order.not_fresh_of_open netting listed stored isOpen sided)
  | merge q g =>
    obtain ⟨isListed, isStored, alsoOpen, sameSide⟩ := Order.target_merge found
    have same : q = p := by
      by_contra differ
      exact only q isListed differ g isStored alsoOpen
    subst same
    cases Option.some.inj (stored.symm.trans isStored)
    exact absurd sameSide opposite
  | net q g =>
    obtain ⟨isListed, isStored, alsoOpen, _⟩ := Order.target_net found
    have same : q = p := by
      by_contra differ
      exact only q isListed differ g isStored alsoOpen
    subst same
    cases Option.some.inj (stored.symm.trans isStored)
    exact enough

section Restricted

/-- An order on the sample's pair with both levels set. -/
def levelledOrder (o : OrderId) (side : Side) (accountType : String) : Order :=
  { id := o, userId := 7, symbol := "PAIR", side := side, orderType := .MARKET, size := 1000
    stopLoss := .num 100, takeProfit := .num 200, accountType := some accountType
    marginFromCash := .num 1500, marginFromBonus := .num 0 }

def closingSell : Submission :=
  ⟨.user, { sampleContext with closeOnly := true, openPositionSide := some .LONG },
    { sampleRequest with side := .SELL }⟩

def fillOf (o : OrderId) (n : ℕ) : FillArgs := ⟨o, 150, 1000, 1000, .uuid n, some 100⟩

/-- A long position is opened, and while the symbol is close-only its user places
a sell of the same size. -/
def sellIntoLong (accountType : String) : List CloseOnlyAction :=
  [.script (.placeOrder 1 (levelledOrder 1 .BUY accountType)),
    .script (.atomicFillOrder (fillOf 1 1) [] []),
    .submit closingSell (levelledOrder 2 .SELL accountType)]

def sellFill : ScriptCall := .atomicFillOrder (fillOf 2 2) [.uuid 1] []

theorem sellIntoLong_reached (accountType : String) (action : FillAction) (reduces : Bool)
    (evaluates : (runGuarded step Promised start (sellIntoLong accountType)).map
      (fun desk => ((desk.accepted 2).isSome && (desk.step (.script sellFill)).isSome,
        decide (desk.Promised (.script sellFill)),
        decide (desk.store.orders 2 = some (levelledOrder 2 .SELL accountType)),
        decide (((levelledOrder 2 .SELL accountType).target desk.store [.uuid 1]).Reduces 1000),
        (atomicFillOrder desk.store (fillOf 2 2) [.uuid 1] []).fillAction)) =
      some (true, true, true, reduces, some action)) :
    ∃ desk next submission result,
      GuardedRun step Promised start (sellIntoLong accountType) desk ∧
      desk.accepted 2 = some submission ∧ desk.Promised (.script sellFill) ∧
      desk.step (.script sellFill) = some next ∧
      desk.store.orders 2 = some (levelledOrder 2 .SELL accountType) ∧
      decide (((levelledOrder 2 .SELL accountType).target desk.store [.uuid 1]).Reduces 1000) = reduces ∧
      atomicFillOrder desk.store (fillOf 2 2) [.uuid 1] [] = .success next.store result ∧
      result.fillAction = action := by
  obtain ⟨desk, reached, reads⟩ := Option.map_eq_some_iff.mp evaluates
  simp only [Prod.mk.injEq, decide_eq_true_eq, Bool.and_eq_true] at reads
  obtain ⟨⟨isAccepted, isTaken⟩, promised, stored, decided, acted⟩ := reads
  obtain ⟨submission, accepted⟩ := Option.isSome_iff_exists.mp isAccepted
  obtain ⟨next, taken⟩ := Option.isSome_iff_exists.mp isTaken
  obtain ⟨result, filled, same⟩ := ScriptOutcome.success_of_fillAction acted
  have left : next.store = (atomicFillOrder desk.store (fillOf 2 2) [.uuid 1] []).store := by
    obtain ⟨store, called, rfl⟩ := Option.map_eq_some_iff.mp taken
    simp only [sellFill, Store.call] at called
    split_ifs at called
    exact (Option.some.inj called).symm
  exact ⟨desk, next, submission, result, .of_eval reached, accepted, promised, taken, stored,
    decided, left ▸ filled, same⟩

end Restricted

end CloseOnlyDesk

end TradingPlatform
