import TradingPlatform.Engine.FillBranches
import TradingPlatform.Engine.OrderTasks
import TradingPlatform.Library.StepRuns

namespace TradingPlatform

open StepRuns

def OrderStatus.Terminal : OrderStatus → Prop
  | .FILLED => True
  | .CANCELED => True
  | .REJECTED => True
  | .PENDING => False
  | .PARTIALLYFILLED => False
  | .CANCELLED => False

instance : DecidablePred OrderStatus.Terminal
  | .FILLED => inferInstanceAs (Decidable True)
  | .CANCELED => inferInstanceAs (Decidable True)
  | .REJECTED => inferInstanceAs (Decidable True)
  | .PENDING => inferInstanceAs (Decidable False)
  | .PARTIALLYFILLED => inferInstanceAs (Decidable False)
  | .CANCELLED => inferInstanceAs (Decidable False)

/-- A record in a terminal status is still there with that status. -/
def StatusKept (before after : Option Order) : Prop :=
  ∀ order ∈ before, order.status.Terminal → ∃ later ∈ after, later.status = order.status

theorem StatusKept.refl (order : Option Order) : StatusKept order order :=
  fun order stored _ => ⟨order, stored, rfl⟩

theorem StatusKept.trans {before between after : Option Order} (first : StatusKept before between)
    (second : StatusKept between after) : StatusKept before after := by
  intro order stored terminal
  obtain ⟨later, isLater, same⟩ := first order stored terminal
  obtain ⟨last, isLast, sameLater⟩ := second later isLater (same ▸ terminal)
  exact ⟨last, isLast, sameLater.trans same⟩

theorem StatusKept.setOrder {st : Store} {o : OrderId} {order : Order}
    (keeps : ∀ stored ∈ st.orders o, stored.status.Terminal → order.status = stored.status)
    (r : OrderId) : StatusKept (st.orders r) ((st.setOrder o order).orders r) := by
  rw [Store.orders_setOrder]
  split_ifs with same
  · subst same
    exact fun stored isStored terminal => ⟨order, rfl, keeps stored isStored terminal⟩
  · exact .refl _

/-- The order id and the status that a plain SET, outside the scripts, writes next. -/
def Task.plainSet : Task → Option (OrderId × OrderStatus)
  | .placeSetOrder cmd => some (cmd.orderId, .PENDING)
  | .rejectSetOrder order _ => some (order.id, .REJECTED)
  | _ => none

/-- The plain SET that the task takes next, if it is one, finds no terminal
record of another status. -/
def Task.KeepsTerminal (task : Task) (st : Store) : Prop :=
  ∀ written ∈ task.plainSet, ∀ stored ∈ st.orders written.1,
    stored.status.Terminal → stored.status = written.2

instance (task : Task) (st : Store) : Decidable (task.KeepsTerminal st) :=
  inferInstanceAs (Decidable (∀ written ∈ task.plainSet, _))

namespace Engine

def SetsNoTerminal (e : Engine) : EngineAction → Prop
  | .advance t _ => (e.tasks t).KeepsTerminal e.store
  | .place _ _ => True
  | .tick _ _ _ => True
  | .cancel _ _ _ => True
  | .abort _ => True
  | .expireKey _ => True

instance (e : Engine) : DecidablePred e.SetsNoTerminal
  | .advance t _ => inferInstanceAs (Decidable ((e.tasks t).KeepsTerminal e.store))
  | .place _ _ => inferInstanceAs (Decidable True)
  | .tick _ _ _ => inferInstanceAs (Decidable True)
  | .cancel _ _ _ => inferInstanceAs (Decidable True)
  | .abort _ => inferInstanceAs (Decidable True)
  | .expireKey _ => inferInstanceAs (Decidable True)

/-- What one step may do to each order: keep its terminal status, and count a
fill only when it takes the order from PENDING to FILLED. -/
structure Steps (before after : Engine) : Prop where
  kept : ∀ o, StatusKept (before.store.orders o) (after.store.orders o)
  fills : ∀ o, after.fills o = before.fills o ∨
    (∃ order ∈ before.store.orders o, order.status = .PENDING) ∧
    (∃ order ∈ after.store.orders o, order.status = .FILLED) ∧ after.fills o = before.fills o + 1

theorem Steps.sameStore {before after : Engine}
    (orders : after.store.orderRecords = before.store.orderRecords)
    (fills : after.fills = before.fills) : Steps before after where
  kept o := by
    unfold Store.orders
    rw [orders]
    exact .refl _
  fills o := .inl (congrFun fills o)

theorem Steps.setOrder {before after : Engine} {o : OrderId} {order : Order}
    (store : after.store = before.store.setOrder o order) (fills : after.fills = before.fills)
    (keeps : ∀ stored ∈ before.store.orders o, stored.status.Terminal →
      order.status = stored.status) : Steps before after where
  kept r := by
    rw [store]
    exact .setOrder keeps r
  fills r := .inl (congrFun fills r)

theorem runFillScript_steps (e : Engine) (input : Input) (order : Order) (fillPrice eff : ℚ)
    (rest : Option TickRest) : Steps e (e.runFillScript input order fillPrice eff rest).1 := by
  have cases := atomicFillOrder_orders e.store (fillArgs order fillPrice eff input) input.existing
    input.old
  unfold runFillScript
  generalize outcome : atomicFillOrder e.store (fillArgs order fillPrice eff input) input.existing
    input.old = reply at cases
  rcases cases with ⟨same, failed⟩ | ⟨stored, isStored, pending, written⟩
  · split
    next store result => exact absurd rfl (failed store result)
    next => exact .sameStore same rfl
    next => exact .sameStore same rfl
    next => exact .sameStore same rfl
  · have kept : ∀ r, StatusKept (e.store.orders r) (reply.store.orders r) := by
      intro r
      unfold Store.orders
      rw [written]
      apply StatusKept.setOrder
      intro other isOther terminal
      cases Option.some.inj (isStored.symm.trans isOther)
      rw [pending] at terminal
      exact terminal.elim
    have filled : reply.store.orders order.id = some (stored.filled (fillArgs order fillPrice eff
        input)) := by
      unfold Store.orders
      rw [written]
      exact (Store.orders_setOrder _ _ _ _).trans (if_pos rfl)
    split
    next store result =>
      refine ⟨kept, fun r => ?_⟩
      by_cases same : r = order.id
      · subst same
        exact .inr ⟨⟨stored, isStored, pending⟩, ⟨_, filled, rfl⟩, Function.update_self ..⟩
      · exact .inl (Function.update_of_ne same ..)
    next => exact ⟨kept, fun _ => .inl rfl⟩
    next => exact ⟨kept, fun _ => .inl rfl⟩
    next => exact ⟨kept, fun _ => .inl rfl⟩

theorem cancelScript_steps (e : Engine) (o : OrderId) (timestampMs : Millis) :
    Steps e { e with store := (atomicCancelOrder e.store o timestampMs).2 } := by
  unfold atomicCancelOrder
  split
  next => exact .sameStore rfl rfl
  next order stored =>
    split_ifs with pending
    · exact .sameStore rfl rfl
    · refine ⟨fun r => StatusKept.setOrder ?_ r, fun _ => .inl rfl⟩
      intro other isOther terminal
      cases Option.some.inj (stored.symm.trans isOther)
      rw [not_not.mp pending] at terminal
      exact terminal.elim

theorem advance_steps {e after : Engine} {input : Input} {task next : Task}
    (safe : task.KeepsTerminal e.store)
    (taken : e.advance input task = some (after, next)) : Steps e after := by
  cases task with
  | placeSetOrder cmd =>
    cases taken
    exact .setOrder rfl rfl fun stored isStored terminal =>
      (safe (cmd.orderId, .PENDING) rfl stored isStored terminal).symm
  | rejectSetOrder order rest =>
    cases taken
    exact .setOrder rfl rfl fun stored isStored terminal =>
      (safe (order.id, .REJECTED) rfl stored isStored terminal).symm
  | fillScript order fillPrice eff rest =>
    simp only [advance] at taken
    split_ifs at taken
    have same : (e.runFillScript input order fillPrice eff rest).1 = after :=
      congrArg Prod.fst (Option.some.inj taken)
    exact same ▸ runFillScript_steps e input order fillPrice eff rest
  | cancelScript o order =>
    have steps := cancelScript_steps e o input.timestampMs
    simp only [advance] at taken
    split at taken <;> rename_i outcome <;> rw [outcome] at steps <;> cases taken <;> exact steps
  | done => cases taken
  | placeGetKey cmd =>
    simp only [advance] at taken
    split at taken <;> cases taken <;> exact .sameStore rfl rfl
  | placeSetKey cmd => cases taken; exact .sameStore rfl rfl
  | placeAddPending cmd => cases taken; exact .sameStore rfl rfl
  | placeAddCache cmd => cases taken; exact .sameStore rfl rfl
  | placeResolvePrice cmd =>
    simp only [advance] at taken
    split at taken <;> cases taken <;> exact .sameStore rfl rfl
  | filledUpdateCache order fillPrice rest => cases taken; exact .sameStore rfl rfl
  | filledRemovePending order rest => cases taken; exact .sameStore rfl rfl
  | rejectUpdateCache order rest => cases taken; exact .sameStore rfl rfl
  | rejectRemovePending order rest => cases taken; exact .sameStore rfl rfl
  | rejectZrem order rest => cases taken; exact .sameStore rfl rfl
  | tickPending tick groupId =>
    simp only [advance] at taken
    split_ifs at taken <;> cases taken <;> exact .sameStore rfl rfl
  | tickOrders rest =>
    obtain ⟨tick, groupId, ids⟩ := rest
    cases ids with
    | nil => cases taken; exact .sameStore rfl rfl
    | cons o ids =>
      simp only [advance] at taken
      split at taken
      next => cases taken; exact .sameStore rfl rfl
      next => split_ifs at taken <;> cases taken <;> exact .sameStore rfl rfl
  | cancelRead o userId =>
    simp only [advance] at taken
    split at taken
    next => cases taken; exact .sameStore rfl rfl
    next => split_ifs at taken <;> cases taken <;> exact .sameStore rfl rfl
  | cancelRemovePending o order => cases taken; exact .sameStore rfl rfl

theorem Steps.setTask {before after : Engine} (steps : Steps before after) (t : ℕ) (task : Task) :
    Steps before (after.setTask t task) where
  kept := steps.kept
  fills := steps.fills

theorem step_steps {e after : Engine} {action : EngineAction} (safe : e.SetsNoTerminal action)
    (taken : e.step action = some after) : Steps e after := by
  cases action with
  | place t cmd | tick t _ _ | cancel t _ _ =>
    simp only [step] at taken
    split_ifs at taken
    cases taken
    exact .sameStore rfl rfl
  | advance t input =>
    obtain ⟨⟨e', task⟩, advanced, rfl⟩ := Option.map_eq_some_iff.mp taken
    exact (advance_steps safe advanced).setTask t task
  | abort t => cases taken; exact .sameStore rfl rfl
  | expireKey key => cases taken; exact .sameStore rfl rfl

theorem statusKept_of_run {start final : Engine} {actions : List EngineAction}
    (run : GuardedRun step SetsNoTerminal start actions final) (o : OrderId) :
    StatusKept (start.store.orders o) (final.store.orders o) := by
  let Kept (e : Engine) : Prop := StatusKept (start.store.orders o) (e.store.orders o)
  have initially : Kept start := .refl _
  exact run.invariant initially fun _ _ _ safe taken soFar =>
    StatusKept.trans soFar ((step_steps safe taken).kept o)

/-- At most one fill, and none while the record is not FILLED. -/
def FilledOnce (e : Engine) : Prop :=
  ∀ o, e.fills o = 0 ∨ e.fills o = 1 ∧ ∃ order ∈ e.store.orders o, order.status = .FILLED

theorem filledOnce_step {e after : Engine} {action : EngineAction}
    (safe : e.SetsNoTerminal action) (taken : e.step action = some after)
    (once : e.FilledOnce) : after.FilledOnce := by
  intro o
  have steps := step_steps safe taken
  rcases once o with unfilled | ⟨one, order, stored, filled⟩
  · rcases steps.fills o with same | ⟨-, nowFilled, counted⟩
    · exact .inl (same.trans unfilled)
    · exact .inr ⟨by rw [counted, unfilled], nowFilled⟩
  · have isTerminal : order.status.Terminal := by rw [filled]; trivial
    obtain ⟨later, isLater, sameStatus⟩ := steps.kept o order stored isTerminal
    rcases steps.fills o with same | ⟨⟨pending, isPending, statusPending⟩, -⟩
    · exact .inr ⟨same.trans one, later, isLater, sameStatus.trans filled⟩
    · cases Option.some.inj (stored.symm.trans isPending)
      exact absurd (filled.symm.trans statusPending) (by decide)

theorem terminal_orders_final {middle final : Engine} {first second : List EngineAction}
    (run : GuardedRun step SetsNoTerminal Engine.start first middle)
    (rest : GuardedRun step SetsNoTerminal middle second final) :
    ∀ o, StatusKept (middle.store.orders o) (final.store.orders o) ∧ final.fills o ≤ 1 := by
  intro o
  have initially : Engine.start.FilledOnce := fun _ => .inl rfl
  have once := (run.append rest).invariant initially fun _ _ _ safe taken =>
    filledOnce_step safe taken
  refine ⟨statusKept_of_run rest o, ?_⟩
  rcases once o with unfilled | ⟨one, -⟩ <;> omega

def marketBuy (key : String) : PlaceOrderCommand :=
  { orderId := 1, userId := 7, symbol := "EURUSD", side := .BUY, orderType := .MARKET, size := 2
    sl := some 8, tp := some 20, idempotencyKey := key }

def advances (t : ℕ) (inputs : List Input) : List EngineAction := inputs.map (.advance t)

/-- Placement with immediate fill at 10: from the idempotency check to the
removal from the cache's pending set. -/
def placeAndFill (t : ℕ) (key : String) (position : PositionId) (existing : List PositionId) :
    List EngineAction :=
  .place t (marketBuy key) ::
  advances t [{}, {}, {}, {}, {}, { price := some 10, effectiveLeverage := some 100 },
    { timestampMs := 1000, positionUuid := position, existing := existing }, {}, {}]

/-- The same order again under the key of the pending-order synchronisation. -/
def republished : List EngineAction := placeAndFill 2 "sync-1" (.uuid 2) [.uuid 1]

/-- The second placement writes PENDING over FILLED, and the order fills again. -/
theorem not_terminal_orders_final : ∃ middle final,
    Run step Engine.start (placeAndFill 1 "k1" (.uuid 1) []) middle ∧
    Run step middle republished final ∧ final.fills 1 = 2 ∧
    ∃ between, Run step middle (republished.take 4) between ∧
      ¬ StatusKept (middle.store.orders 1) (between.store.orders 1) := by
  have evaluates : (runGuarded step (fun _ _ => True) Engine.start
      (placeAndFill 1 "k1" (.uuid 1) [])).map (fun middle =>
        ((middle.store.orders 1).map (·.status),
          (runGuarded step (fun _ _ => True) middle (republished.take 4)).map
            (fun between => (between.store.orders 1).map (·.status)),
          (runGuarded step (fun _ _ => True) middle republished).map (·.fills 1))) =
      some (some .FILLED, some (some .PENDING), some 2) := by decide +kernel
  obtain ⟨middle, reached, reads⟩ := Option.map_eq_some_iff.mp evaluates
  obtain ⟨filled, later⟩ := Prod.mk.inj reads
  obtain ⟨reset, again⟩ := Prod.mk.inj later
  obtain ⟨order, stored, isFilled⟩ := Option.map_eq_some_iff.mp filled
  obtain ⟨between, reset, readBetween⟩ := Option.map_eq_some_iff.mp reset
  obtain ⟨final, refilled, twice⟩ := Option.map_eq_some_iff.mp again
  refine ⟨middle, final, .of_eval reached, .of_eval refilled, twice, between, .of_eval reset, ?_⟩
  intro kept
  have isTerminal : order.status.Terminal := by rw [isFilled]; trivial
  obtain ⟨rewritten, isRewritten, same⟩ := kept order stored isTerminal
  rw [isRewritten, Option.map_some, same, isFilled] at readBetween
  exact absurd readBetween (by decide)

/-- The same message again under its first key, and a late cancel request. -/
def redelivered : List EngineAction :=
  .place 2 (marketBuy "k1") :: .cancel 3 1 7 :: (advances 2 [{}] ++ advances 3 [{}])

theorem terminal_orders_final_redelivered : ∃ middle final,
    GuardedRun step SetsNoTerminal Engine.start (placeAndFill 1 "k1" (.uuid 1) []) middle ∧
    GuardedRun step SetsNoTerminal middle redelivered final ∧
    (middle.store.orders 1).map (·.status) = some .FILLED ∧
    StatusKept (middle.store.orders 1) (final.store.orders 1) ∧ final.fills 1 ≤ 1 := by
  have evaluates : (runGuarded step SetsNoTerminal Engine.start
      (placeAndFill 1 "k1" (.uuid 1) [])).map (fun middle =>
        ((middle.store.orders 1).map (·.status),
          (runGuarded step SetsNoTerminal middle redelivered).isSome)) =
      some (some .FILLED, true) := by decide +kernel
  obtain ⟨middle, reached, reads⟩ := Option.map_eq_some_iff.mp evaluates
  obtain ⟨filled, ends⟩ := Prod.mk.inj reads
  obtain ⟨final, continued⟩ := Option.isSome_iff_exists.mp ends
  have run : GuardedRun step SetsNoTerminal Engine.start (placeAndFill 1 "k1" (.uuid 1) []) middle :=
    .of_eval reached
  have rest : GuardedRun step SetsNoTerminal middle redelivered final := .of_eval continued
  exact ⟨middle, final, run, rest, filled, terminal_orders_final run rest 1⟩

end Engine

end TradingPlatform
