import TradingPlatform.Engine.FillEffect
import TradingPlatform.Engine.HashWrites
import TradingPlatform.Engine.OrderFinality
import TradingPlatform.Orders.OrderProgress

namespace TradingPlatform

namespace Fill
variable (st : Store) (fill : Fill) (p : PositionId) (h : PositionHash)

theorem exists_addTo (sl : fill.order.stopLoss ≠ .null) (tp : fill.order.takeProfit ≠ .null) :
    ∃ done, addTo st fill p h = .ok done := by
  unfold addTo Store.zaddLevels
  dsimp only
  cases first : fill.order.stopLoss with
  | null => exact absurd first sl
  | absent =>
    cases second : fill.order.takeProfit with
    | null => exact absurd second tp
    | absent => exact ⟨_, rfl⟩
    | num y => exact ⟨_, rfl⟩
  | num x =>
    cases second : fill.order.takeProfit with
    | null => exact absurd second tp
    | absent => exact ⟨_, rfl⟩
    | num y => exact ⟨_, rfl⟩

theorem exists_netAgainst (finishes : fill.fillSize ≤ h.size.getD 0 ∨
    fill.order.stopLoss ≠ .null ∧ fill.order.takeProfit ≠ .null) :
    ∃ done, netAgainst st fill p h = .ok done := by
  unfold netAgainst
  dsimp only
  split_ifs with remains exact
  · exact ⟨_, rfl⟩
  · exact ⟨_, rfl⟩
  · rcases finishes with reduces | ⟨sl, tp⟩
    · exact absurd (sub_nonneg.mpr reduces) (not_le.mpr (lt_of_le_of_ne (not_lt.mp remains) exact))
    · generalize closeNetted st fill p _ = closed
      obtain ⟨after, opened⟩ := exists_openPosition closed fill
        (-(h.size.getD 0 - fill.fillSize)) (fill.posLevOrFill h.leverage .absent) sl tp
      rw [opened]
      exact ⟨_, rfl⟩

theorem exists_create (sl : fill.order.stopLoss ≠ .null) (tp : fill.order.takeProfit ≠ .null) :
    ∃ done, create st fill = .ok done := by
  obtain ⟨after, opened⟩ := exists_openPosition st fill fill.fillSize fill.effectiveLeverage sl tp
  unfold create
  rw [opened]
  exact ⟨_, rfl⟩

end Fill

/-- The fill only takes from an opposite position. -/
def Target.Reduces (size : ℚ) : Target → Prop
  | .net _ h => size ≤ h.size.getD 0
  | .merge _ _ => False
  | .fresh => False

instance (size : ℚ) : DecidablePred (Target.Reduces size)
  | .net _ h => inferInstanceAs (Decidable (size ≤ h.size.getD 0))
  | .merge _ _ => inferInstanceAs (Decidable False)
  | .fresh => inferInstanceAs (Decidable False)

/-- Once past its checks the fill writes no level that is JSON null. -/
def FillArgs.WritesLevels (args : FillArgs) (st : Store) (existing : List PositionId) : Prop :=
  ∀ order ∈ st.orders args.orderId, args.Pass order →
    (order.target st existing).Reduces args.fillSize ∨
      order.stopLoss ≠ .null ∧ order.takeProfit ≠ .null

instance (args : FillArgs) (st : Store) (existing : List PositionId) :
    Decidable (args.WritesLevels st existing) :=
  inferInstanceAs (Decidable (∀ order ∈ st.orders args.orderId, _ → _ ∨ _))

/-- Such a fill either fails its checks or succeeds. -/
theorem atomicFillOrder_finishes {st : Store} {args : FillArgs} (existing old : List PositionId)
    (hashes : st.HashesOnly) (levels : args.WritesLevels st existing) :
    (atomicFillOrder st args existing old).store = st ∧
      (∀ after result, atomicFillOrder st args existing old ≠ .success after result) ∨
    ∃ order after result, st.orders args.orderId = some order ∧ order.status = .PENDING ∧
      atomicFillOrder st args existing old = .success after result ∧
      after.orderRecords = (st.setOrder args.orderId (order.filled args)).orderRecords := by
  rcases atomicFillOrder_cases st args existing old with ⟨e, failed⟩ | failed |
    ⟨order, el, accepted, outcome⟩
  · refine .inl ⟨by rw [failed]; rfl, fun after result filled => ?_⟩
    rw [failed] at filled
    cases filled
  · refine .inl ⟨by rw [failed]; rfl, fun after result filled => ?_⟩
    rw [failed] at filled
    cases filled
  · have finishes := levels order accepted.stored accepted.pass
    have marked : (st.markFilled args order).HashesOnly := hashes
    have target : (Fill.ofArgs args order el accepted.leverage_pos).order.target
      (st.markFilled args order) existing = order.target st existing := rfl
    have applied : ∃ done, Fill.applyToPositions (st.markFilled args order)
        (Fill.ofArgs args order el accepted.leverage_pos) existing old = .ok done := by
      rw [Fill.applyToPositions_eq marked, target]
      cases goes : order.target st existing with
      | merge p h =>
        rw [goes] at finishes
        obtain ⟨sl, tp⟩ := finishes.resolve_left id
        exact Fill.exists_addTo _ _ p h sl tp
      | net p h =>
        rw [goes] at finishes
        exact Fill.exists_netAgainst _ _ p h finishes
      | fresh =>
        rw [goes] at finishes
        obtain ⟨sl, tp⟩ := finishes.resolve_left id
        exact Fill.exists_create _ _ sl tp
    obtain ⟨⟨after, result⟩, applied⟩ := applied
    have filled : atomicFillOrder st args existing old = .success after result := by
      rw [outcome, applied]
    refine .inr ⟨order, after, result, accepted.stored, accepted.pending, filled, ?_⟩
    have orders := atomicFillOrder_orders st args existing old
    rw [filled] at orders
    rcases orders with ⟨_, failed⟩ | ⟨stored, isStored, _, written⟩
    · exact absurd rfl (failed after result)
    · cases Option.some.inj (accepted.stored.symm.trans isStored)
      exact written

namespace Task

/-- The place command of a task that has not stored the order yet. -/
def placing : Task → Option PlaceOrderCommand
  | .placeGetKey cmd => some cmd
  | .placeSetKey cmd => some cmd
  | .placeSetOrder cmd => some cmd
  | _ => none

/-- The order whose slippage rejection the task writes next. -/
def rejecting : Task → Option OrderId
  | .rejectSetOrder order _ => some order.id
  | _ => none

/-- The order that the task is to cancel. -/
def cancelling : Task → Option OrderId
  | .cancelRead o _ => some o
  | .cancelScript o _ => some o
  | _ => none

/-- The stored order that the task has a copy of. -/
def order : Task → Option Order
  | .placeAddPending cmd => some cmd.toOrder
  | .placeAddCache cmd => some cmd.toOrder
  | .placeResolvePrice cmd => some cmd.toOrder
  | .fillScript order _ _ _ => some order
  | .filledUpdateCache order _ _ => some order
  | .filledRemovePending order _ => some order
  | .rejectSetOrder order _ => some order
  | .rejectUpdateCache order _ => some order
  | .rejectRemovePending order _ => some order
  | .rejectZrem order _ => some order
  | _ => none

/-- The order that the task has found or made terminal. -/
def ended : Task → Option OrderId
  | .filledUpdateCache order _ _ => some order.id
  | .rejectUpdateCache order _ => some order.id
  | _ => none

/-- The order and the user of a cancel command. -/
def cancelCommand : Task → Option (OrderId × UserId)
  | .cancelRead o userId => some (o, userId)
  | _ => none

/-- The order that a cancel has found. -/
def found : Task → Option OrderId
  | .cancelScript o _ => some o
  | _ => none

/-- What the next command of the task must find for the row to follow: a new
key, an order that has not ended otherwise, a fill without null levels, and a
cancelled order that Redis has or will not get. -/
def Orderly (e : Engine) (input : Input) (underway : OrderId → Prop) : Task → Prop
  | .placeGetKey cmd => e.keys cmd.idempotencyKey = none
  | .rejectSetOrder order _ =>
    ∀ stored ∈ e.store.orders order.id, stored.status.Terminal → stored.status = .REJECTED
  | .fillScript order fillPrice eff _ =>
    (Engine.fillArgs order fillPrice eff input).WritesLevels e.store input.existing
  | .cancelRead o _ => (e.store.orders o).isSome ∨ ¬ underway o
  | _ => True

end Task

/-- The statuses of the updates about an order. -/
def statusesOf (updates : List OrderUpdatedEvent) (o : OrderId) : Set EventStatus :=
  {status | ∃ event ∈ updates, event.orderId = o ∧ event.status = status}

/-- The place command of this order. -/
def Task.Places (task : Task) (o : OrderId) : Prop := ∃ cmd ∈ task.placing, cmd.orderId = o

/-- What a command of a task does about one order: to its record, to the task,
and by the updates it publishes. -/
inductive OrderEffect (before after : Option Order) (task next : Task)
    (updates : List OrderUpdatedEvent) (o : OrderId) : Prop
  | quiet (record : after = before) (placing : next.Places o ↔ task.Places o)
      (rejecting : next.rejecting = some o ↔ task.rejecting = some o)
      (cancelling : task.cancelling = some o → next.cancelling = some o)
      (silent : statusesOf updates o = ∅)
  | stored (order : Order) (placing : task.Places o) (fresh : before = none) (record : after = some order)
      (pending : order.status = .PENDING) (done : ¬ next.Places o)
      (notRejecting : next.rejecting ≠ some o) (notCancelling : task.cancelling ≠ some o)
      (silent : statusesOf updates o = ∅)
  | invalid (placing : task.Places o) (record : after = before) (done : ¬ next.Places o)
      (told : statusesOf updates o = {.rejected})
  | rejects (stored : before.isSome) (record : after = before) (placing : ¬ task.Places o)
      (nextPlacing : ¬ next.Places o) (rejecting : next.rejecting = some o)
      (told : statusesOf updates o = {.rejected})
  | rejected (order : Order) (rejecting : task.rejecting = some o)
      (orderly : ∀ stored ∈ before, stored.status.Terminal → stored.status = .REJECTED)
      (record : after = some order) (status : order.status = .REJECTED)
      (placing : ¬ task.Places o) (nextPlacing : ¬ next.Places o)
      (silent : statusesOf updates o = ∅)
  | finished (status : EventStatus) (earlier later : Order) (was : before = some earlier)
      (pending : earlier.status = .PENDING) (record : after = some later)
      (is : later.status = status.recorded) (ends : status = .filled ∨ status = .cancelled)
      (placing : ¬ task.Places o) (nextPlacing : ¬ next.Places o)
      (rejecting : task.rejecting ≠ some o) (nextRejecting : next.rejecting ≠ some o)
      (told : statusesOf updates o = {status})
  | dropped (record : after = before) (placing : next.Places o ↔ task.Places o)
      (rejecting : next.rejecting = some o ↔ task.rejecting = some o)
      (notPending : ∀ stored ∈ before, stored.status ≠ .PENDING)
      (cancels : task.cancelling = some o) (silent : statusesOf updates o = ∅)

/-- The order has a terminal record. -/
def Store.Ended (st : Store) (o : OrderId) : Prop :=
  ∃ stored ∈ st.orders o, stored.status.Terminal

/-- No record is lost, and none that is terminal becomes another. -/
structure Store.Grows (st later : Store) : Prop where
  stored : ∀ o, (st.orders o).isSome → (later.orders o).isSome
  ended : ∀ o, st.Ended o → later.Ended o

/-- A copy of a stored order, with its owner. -/
structure Known (owns : OrderId → UserId → Prop) (st : Store) (order : Order) : Prop where
  stored : (st.orders order.id).isSome
  owner : owns order.id order.userId

structure Task.Knows (owns : OrderId → UserId → Prop) (st : Store) (task : Task) : Prop where
  placing : ∀ cmd ∈ task.placing, owns cmd.orderId cmd.userId
  order : ∀ order ∈ task.order, Known owns st order
  ended : ∀ o ∈ task.ended, st.Ended o
  cancelCommand : ∀ cancel ∈ task.cancelCommand, owns cancel.1 cancel.2
  found : ∀ o ∈ task.found, (st.orders o).isSome

/-- What the engine's records and copies of orders have to do with the orders'
owners. -/
structure Engine.Knows (owns : OrderId → UserId → Prop) (e : Engine) : Prop where
  hashesOnly : e.store.HashesOnly
  stored : ∀ o, ∀ order ∈ e.store.orders o, owns o order.userId
  cached : ∀ o, ∀ order ∈ e.cache.orders o,
    order.id = o ∧ Known owns e.store order ∧ (order.status = .PENDING ∨ e.store.Ended o)

theorem atomicFillOrder_notPending {st final : Store} {args : FillArgs}
    {existing old : List PositionId} {status : OrderStatus}
    (refused : atomicFillOrder st args existing old = .error final (.orderNotPending status)) :
    ∃ order, st.orders args.orderId = some order ∧ order.status = status := by
  unfold atomicFillOrder at refused
  split at refused
  next => cases refused
  next =>
    split at refused
    next =>
      split at refused
      next => cases refused
      next order stored =>
        split_ifs at refused
        · cases refused
          exact ⟨order, stored, rfl⟩
        · split at refused
          next => cases refused
          next => cases refused
          next => split at refused <;> cases refused
    next => cases refused

section Effects
variable {owns : OrderId → UserId → Prop} {e after : Engine} {input : Input} {task next : Task}
  {updates : List OrderUpdatedEvent} {o : OrderId}

theorem statusesOf_nil : statusesOf [] o = ∅ :=
  Set.eq_empty_of_forall_notMem fun _ ⟨_, member, _⟩ => List.not_mem_nil member

theorem statusesOf_self (event : OrderUpdatedEvent) :
    statusesOf [event] event.orderId = {event.status} := by
  ext status
  constructor
  · rintro ⟨_, member, _, same⟩
    cases List.mem_singleton.mp member
    exact same.symm
  · rintro same
    exact ⟨event, List.mem_singleton_self _, rfl, same.symm⟩

theorem statusesOf_ne {event : OrderUpdatedEvent} (other : event.orderId ≠ o) :
    statusesOf [event] o = ∅ := by
  refine Set.eq_empty_of_forall_notMem ?_
  rintro _ ⟨_, member, same, _⟩
  cases List.mem_singleton.mp member
  exact other same

theorem places_of_eq (same : next.placing = task.placing) : next.Places o ↔ task.Places o := by
  unfold Task.Places
  rw [same]

theorem not_places (none : task.placing = none) : ¬ task.Places o := by
  rintro ⟨cmd, isCmd, _⟩
  rw [none] at isCmd
  cases isCmd

theorem places_iff {cmd : PlaceOrderCommand} (placing : task.placing = some cmd) :
    task.Places o ↔ cmd.orderId = o := by
  unfold Task.Places
  rw [placing]
  simp

/-- Neither the command nor the task has to do with any order. -/
theorem OrderEffect.idle {before : Option Order} (placing : next.placing = task.placing)
    (rejecting : next.rejecting = task.rejecting)
    (cancelling : task.cancelling = some o → next.cancelling = some o) :
    OrderEffect before before task next [] o :=
  .quiet rfl (places_of_eq placing) (by rw [rejecting]) cancelling statusesOf_nil

theorem Known.mono {st later : Store} {order : Order} (grows : st.Grows later)
    (known : Known owns st order) : Known owns later order :=
  ⟨grows.stored _ known.stored, known.owner⟩

theorem Task.Knows.mono {st later : Store} (grows : st.Grows later) (knows : task.Knows owns st) :
    task.Knows owns later where
  placing := knows.placing
  order := fun order isOrder => (knows.order order isOrder).mono grows
  ended := fun o isEnded => grows.ended o (knows.ended o isEnded)
  cancelCommand := knows.cancelCommand
  found := fun o isFound => grows.stored o (knows.found o isFound)

/-- A task without a place command, a copy of an order or a cancel command. -/
theorem Task.knows_of_none {st : Store} (placing : task.placing = none) (order : task.order = none)
    (ended : task.ended = none) (cancelCommand : task.cancelCommand = none)
    (found : task.found = none) :
    task.Knows owns st where
  placing := fun _ isCmd => by rw [placing] at isCmd; cases isCmd
  order := fun _ isOrder => by rw [order] at isOrder; cases isOrder
  ended := fun _ isEnded => by rw [ended] at isEnded; cases isEnded
  cancelCommand := fun _ isCancel => by rw [cancelCommand] at isCancel; cases isCancel
  found := fun _ isFound => by rw [found] at isFound; cases isFound

theorem Task.knows_done {st : Store} : Task.done.Knows owns st :=
  Task.knows_of_none rfl rfl rfl rfl rfl

/-- A task whose only knowledge is its copy of an order. -/
theorem Task.knows_of_order {st : Store} {order : Order} (known : Known owns st order)
    (isOrder : task.order = some order) (placing : task.placing = none)
    (ended : ∀ o ∈ task.ended, st.Ended o) (cancelCommand : task.cancelCommand = none)
    (found : task.found = none) :
    task.Knows owns st where
  placing := fun _ isCmd => by rw [placing] at isCmd; cases isCmd
  order := fun _ same => by
    rw [isOrder] at same
    cases same
    exact known
  ended := ended
  cancelCommand := fun _ isCancel => by rw [cancelCommand] at isCancel; cases isCancel
  found := fun _ isFound => by rw [found] at isFound; cases isFound

theorem Task.knows_resume {st : Store} (rest : Option TickRest) :
    (Task.resume rest).Knows owns st := by
  cases rest <;> exact Task.knows_of_none rfl rfl rfl rfl rfl

theorem Task.resume_unconcerned (rest : Option TickRest) : (Task.resume rest).placing = none ∧
    (Task.resume rest).rejecting = none ∧ (Task.resume rest).rejection = [] := by
  cases rest <;> exact ⟨rfl, rfl, rfl⟩

/-- What a fill goes on with once it has a price. -/
theorem Task.execute_cases (order : Order) (fillPrice : ℚ) (effectiveLeverage : Option ℚ)
    (rest : Option TickRest) :
    Task.execute order fillPrice effectiveLeverage rest = .resume rest ∨
    (∃ eff, Task.execute order fillPrice effectiveLeverage rest =
      .fillScript order fillPrice eff rest) ∨
    Task.execute order fillPrice effectiveLeverage rest = .rejectSetOrder order rest := by
  unfold Task.execute
  cases effectiveLeverage.filter (0 < ·) with
  | none => exact .inl rfl
  | some eff =>
    dsimp only
    split_ifs
    · exact .inr (.inr rfl)
    · exact .inr (.inl ⟨eff, rfl⟩)

theorem Store.Grows.refl {st later : Store} (same : later.orderRecords = st.orderRecords) :
    st.Grows later where
  stored o isSome := by
    unfold Store.orders
    rw [same]
    exact isSome
  ended o isEnded := by
    unfold Store.Ended Store.orders
    rw [same]
    exact isEnded

/-- The effects say that no order is lost or revived. -/
theorem Store.Grows.of_effects {st later : Store}
    (effects : ∀ o, OrderEffect (st.orders o) (later.orders o) task next updates o) :
    st.Grows later where
  stored o isSome := by
    cases effects o with
    | quiet record => rw [record]; exact isSome
    | stored _ _ _ record => rw [record]; rfl
    | invalid _ record => rw [record]; exact isSome
    | rejects _ record => rw [record]; exact isSome
    | rejected _ _ _ record => rw [record]; rfl
    | finished _ _ _ _ _ record => rw [record]; rfl
    | dropped record => rw [record]; exact isSome
  ended o isEnded := by
    unfold Store.Ended at *
    cases effects o with
    | quiet record => rw [record]; exact isEnded
    | stored _ _ fresh =>
      obtain ⟨stored, isStored, _⟩ := isEnded
      rw [fresh] at isStored
      cases isStored
    | invalid _ record => rw [record]; exact isEnded
    | rejects _ record => rw [record]; exact isEnded
    | rejected order _ _ record status =>
      exact ⟨order, record, by rw [status]; trivial⟩
    | finished status _ later _ _ record is ends =>
      refine ⟨later, record, ?_⟩
      rw [is]
      rcases ends with rfl | rfl <;> trivial
    | dropped record => rw [record]; exact isEnded

namespace Engine

/-- A command that writes records at most. -/
theorem Knows.write (knows : e.Knows owns) (grows : e.store.Grows after.store)
    (hashes : after.store.HashesOnly)
    (stored : ∀ o, ∀ order ∈ after.store.orders o, owns o order.userId)
    (cache : after.cache.orders = e.cache.orders) : after.Knows owns where
  hashesOnly := hashes
  stored := stored
  cached o order isCached := by
    rw [cache] at isCached
    obtain ⟨id, known, status⟩ := knows.cached o order isCached
    exact ⟨id, known.mono grows, status.imp_right (grows.ended o)⟩

/-- A command that leaves the records and the cached orders as they are. -/
theorem Knows.keep (knows : e.Knows owns) (hashes : after.store.HashesOnly)
    (records : after.store.orderRecords = e.store.orderRecords)
    (cache : after.cache.orders = e.cache.orders) : after.Knows owns := by
  refine knows.write (.refl records) hashes (fun o order isStored => ?_) cache
  unfold Store.orders at isStored
  rw [records] at isStored
  exact knows.stored o order isStored

/-- A command that writes one cached order. -/
theorem Knows.cacheOrder {value : Option Order} (knows : e.Knows owns)
    (store : after.store = e.store)
    (cache : after.cache.orders = Function.update e.cache.orders o value)
    (allowed : ∀ order ∈ value, order.id = o ∧ Known owns e.store order ∧
      (order.status = .PENDING ∨ e.store.Ended o)) : after.Knows owns where
  hashesOnly := store ▸ knows.hashesOnly
  stored := store ▸ knows.stored
  cached r order isCached := by
    rw [cache] at isCached
    rw [store]
    by_cases same : r = o
    · subst same
      rw [Function.update_self] at isCached
      exact allowed order isCached
    · rw [Function.update_of_ne same] at isCached
      exact knows.cached r order isCached

/-- What a command of a task does, to the orders and to what is known of them. -/
structure Advanced (owns : OrderId → UserId → Prop) (e after : Engine) (task next : Task)
    (updates : List OrderUpdatedEvent) : Prop where
  effects : ∀ o, OrderEffect (e.store.orders o) (after.store.orders o) task next updates o
  knows : after.Knows owns
  nextKnows : next.Knows owns after.store
  placing : ∀ cmd ∈ next.placing, task.placing = some cmd
  tasks : after.tasks = e.tasks

/-- A command that concerns no order's status. -/
theorem Advanced.quiet (knows : after.Knows owns)
    (records : after.store.orderRecords = e.store.orderRecords)
    (nextKnows : next.Knows owns after.store) (placing : next.placing = task.placing)
    (rejecting : next.rejecting = task.rejecting)
    (cancelling : ∀ o ∈ task.cancelling, next.cancelling = some o) (tasks : after.tasks = e.tasks)
    (silent : updates = []) : Advanced owns e after task next updates where
  effects o := by
    subst silent
    unfold Store.orders
    rw [records]
    exact .idle placing rejecting (cancelling o)
  knows := knows
  nextKnows := nextKnows
  placing _ isCmd := placing ▸ isCmd
  tasks := tasks

/-- A task goes on with an order and a price. -/
theorem Advanced.execute {order : Order} {fillPrice : ℚ} {effectiveLeverage : Option ℚ}
    {rest : Option TickRest} (knows : e.Knows owns) (known : Known owns e.store order)
    (placing : task.placing = none) (rejecting : task.rejecting = none)
    (cancelling : task.cancelling = none) :
    Advanced owns e e task (.execute order fillPrice effectiveLeverage rest)
      (Task.execute order fillPrice effectiveLeverage rest).rejection := by
  have noCancel : ∀ (next : Task), ∀ o ∈ task.cancelling, next.cancelling = some o := by
    intro next o isCancel
    rw [cancelling] at isCancel
    cases isCancel
  rcases Task.execute_cases order fillPrice effectiveLeverage rest with
    resumes | ⟨eff, fills⟩ | rejects
  · rw [resumes]
    obtain ⟨noPlacing, noRejecting, silent⟩ := Task.resume_unconcerned rest
    exact .quiet knows rfl (Task.knows_resume rest) (noPlacing.trans placing.symm)
      (noRejecting.trans rejecting.symm) (noCancel _) rfl silent
  · rw [fills]
    exact .quiet knows rfl (Task.knows_of_order known rfl rfl (fun _ isEnded => by cases isEnded) rfl rfl)
      placing.symm rejecting.symm (noCancel _) rfl rfl
  · rw [rejects]
    refine ⟨fun o => ?_, knows,
      Task.knows_of_order known rfl rfl (fun _ isEnded => by cases isEnded) rfl rfl,
      (fun _ isCmd => by cases isCmd), rfl⟩
    by_cases same : order.id = o
    · subst same
      exact .rejects known.stored rfl (not_places placing) (not_places rfl) rfl
        (statusesOf_self ⟨order.id, order.userId, .rejected⟩)
    · refine .quiet rfl (places_of_eq placing.symm) ?_ (fun isCancel => noCancel _ o isCancel)
        (statusesOf_ne same)
      rw [rejecting]
      exact ⟨fun isOther => absurd (Option.some.inj isOther) same, fun impossible => by
        cases impossible⟩

/-- A single SET of a record. -/
theorem orders_set {st later : Store} {r : OrderId} {order : Order}
    (records : later.orderRecords = (st.setOrder r order).orderRecords) (o : OrderId) :
    later.orders o = if o = r then some order else st.orders o := by
  rw [← Store.orders_setOrder]
  unfold Store.orders
  rw [records]

/-- A command that SETs one record and has that effect on its order. -/
theorem Advanced.set (r : OrderId) (order : Order) (knows : e.Knows owns)
    (records : after.store.orderRecords = (e.store.setOrder r order).orderRecords)
    (owner : owns r order.userId) (hashes : after.store.HashesOnly)
    (cache : after.cache.orders = e.cache.orders) (tasks : after.tasks = e.tasks)
    (effect : OrderEffect (e.store.orders r) (some order) task next updates r)
    (others : ∀ o ≠ r, ∀ before, OrderEffect before before task next updates o)
    (nextKnows : e.store.Grows after.store → next.Knows owns after.store)
    (placing : next.placing = none) : Advanced owns e after task next updates := by
  have effects : ∀ o, OrderEffect (e.store.orders o) (after.store.orders o) task next updates o := by
    intro o
    rw [orders_set records]
    split_ifs with same
    · subst same
      exact effect
    · exact others o same _
  have grows : e.store.Grows after.store := .of_effects effects
  refine ⟨effects, knows.write grows hashes (fun o stored isStored => ?_) cache, nextKnows grows,
    fun _ isCmd => ?_, tasks⟩
  · rw [orders_set records] at isStored
    split_ifs at isStored with same
    · subst same
      cases isStored
      exact owner
    · exact knows.stored o stored isStored
  · rw [placing] at isCmd
    cases isCmd

theorem advanced_placeGetKey {cmd : PlaceOrderCommand} (knows : e.Knows owns)
    (isTask : (Task.placeGetKey cmd).Knows owns e.store)
    (newKey : e.keys cmd.idempotencyKey = none)
    (taken : e.advance input (.placeGetKey cmd) = some (after, next)) :
    Advanced owns e after (.placeGetKey cmd) next
      ((Task.placeGetKey cmd).updates e input next) := by
  simp only [advance, newKey] at taken
  cases taken
  by_cases valid : input.valid
  · have silent : (Task.placeGetKey cmd).updates e input
        (if input.valid then .placeSetKey cmd else .done) = [] := if_neg (by simp [valid])
    rw [silent, if_pos valid]
    exact .quiet knows rfl
      ⟨isTask.placing, (fun _ isOrder => by cases isOrder), (fun _ isEnded => by cases isEnded),
        (fun _ isCancel => by cases isCancel), (fun _ isFound => by cases isFound)⟩ rfl rfl (fun _ isCancel => by cases isCancel) rfl rfl
  · have told : (Task.placeGetKey cmd).updates e input
        (if input.valid then .placeSetKey cmd else .done) =
        [⟨cmd.orderId, cmd.userId, .rejected⟩] := if_pos (by simp [valid, newKey])
    rw [told, if_neg valid]
    refine ⟨fun o => ?_, knows, Task.knows_of_none rfl rfl rfl rfl rfl,
      (fun _ isCmd => by cases isCmd), rfl⟩
    by_cases same : cmd.orderId = o
    · subst same
      exact .invalid ((places_iff rfl).mpr rfl) rfl (not_places rfl)
        (statusesOf_self ⟨cmd.orderId, cmd.userId, .rejected⟩)
    · exact .quiet rfl (iff_of_false (not_places rfl) (mt (places_iff rfl).mp same)) Iff.rfl
        (fun isCancel => by cases isCancel) (statusesOf_ne same)

theorem advanced_placeSetOrder {cmd : PlaceOrderCommand} (knows : e.Knows owns)
    (isTask : (Task.placeSetOrder cmd).Knows owns e.store)
    (unstored : e.store.orders cmd.orderId = none)
    (taken : e.advance input (.placeSetOrder cmd) = some (after, next)) :
    Advanced owns e after (.placeSetOrder cmd) next
      ((Task.placeSetOrder cmd).updates e input next) := by
  cases taken
  have owner : owns cmd.orderId cmd.userId := isTask.placing cmd rfl
  refine .set cmd.orderId cmd.toOrder knows rfl owner knows.hashesOnly rfl rfl ?_ ?_ ?_ rfl
  · exact .stored cmd.toOrder ((places_iff rfl).mpr rfl) unstored rfl rfl (not_places rfl)
      (fun impossible => by cases impossible) (fun impossible => by cases impossible) statusesOf_nil
  · intro o other before
    exact .quiet rfl (iff_of_false (not_places rfl) fun places =>
        other ((places_iff rfl).mp places).symm) Iff.rfl (fun isCancel => by cases isCancel)
      statusesOf_nil
  · intro _
    refine Task.knows_of_order ⟨?_, owner⟩ rfl rfl (fun _ isEnded => by cases isEnded) rfl rfl
    change ((e.store.setOrder cmd.orderId cmd.toOrder).orders cmd.orderId).isSome
    rw [Store.orders_setOrder, if_pos rfl]
    rfl

theorem advanced_rejectSetOrder {order : Order} {rest : Option TickRest} (knows : e.Knows owns)
    (isTask : (Task.rejectSetOrder order rest).Knows owns e.store)
    (orderly : ∀ stored ∈ e.store.orders order.id,
      stored.status.Terminal → stored.status = .REJECTED)
    (taken : e.advance input (.rejectSetOrder order rest) = some (after, next)) :
    Advanced owns e after (.rejectSetOrder order rest) next
      ((Task.rejectSetOrder order rest).updates e input next) := by
  cases taken
  have known := isTask.order order rfl
  refine .set order.id _ knows rfl known.owner knows.hashesOnly rfl rfl ?_ ?_ ?_ rfl
  · exact .rejected _ rfl orderly rfl rfl (not_places rfl) (not_places rfl) statusesOf_nil
  · intro o other before
    refine .quiet rfl Iff.rfl ?_ (fun isCancel => by cases isCancel) statusesOf_nil
    exact ⟨(fun impossible => by cases impossible), fun same =>
      absurd (Option.some.inj same).symm other⟩
  · intro grows
    refine Task.knows_of_order (known.mono grows) rfl rfl (fun o isEnded => ?_) rfl rfl
    cases isEnded
    refine ⟨order.rejected "SLIPPAGE_EXCEEDED" input.timestampMs, ?_, trivial⟩
    change (e.store.setOrder order.id _).orders order.id = some _
    rw [Store.orders_setOrder, if_pos rfl]

theorem advanced_fillScript {order : Order} {fillPrice eff : ℚ} {rest : Option TickRest}
    (knows : e.Knows owns) (isTask : (Task.fillScript order fillPrice eff rest).Knows owns e.store)
    (levels : (fillArgs order fillPrice eff input).WritesLevels e.store input.existing)
    (fresh : e.store.hash input.positionUuid = none)
    (taken : e.advance input (.fillScript order fillPrice eff rest) = some (after, next)) :
    Advanced owns e after (.fillScript order fillPrice eff rest) next
      ((Task.fillScript order fillPrice eff rest).updates e input next) := by
  have known := isTask.order order rfl
  simp only [advance] at taken
  split_ifs at taken
  have fills := Option.some.inj taken
  unfold runFillScript at fills
  have hashes : (atomicFillOrder e.store (fillArgs order fillPrice eff input) input.existing
      input.old).store.HashesOnly := atomicFillOrder_hashesOnly _ _ knows.hashesOnly fresh
  obtain ⟨noPlacing, noRejecting, _⟩ := Task.resume_unconcerned rest
  have told : (Task.fillScript order fillPrice eff rest).updates e input next =
    Task.fillUpdates order (atomicFillOrder e.store (fillArgs order fillPrice eff input)
      input.existing input.old) := rfl
  rw [told]
  have noCancel (later : Task) : ∀ o ∈ (Task.fillScript order fillPrice eff rest).cancelling,
    later.cancelling = some o := fun _ isCancel => by cases isCancel
  rcases atomicFillOrder_finishes input.existing input.old knows.hashesOnly levels with
    ⟨same, failed⟩ | ⟨stored, final, result, isStored, pending, filled, records⟩
  · cases reply : atomicFillOrder e.store (fillArgs order fillPrice eff input) input.existing
        input.old with
    | success final result => exact absurd reply (failed final result)
    | raised final =>
      rw [reply] at fills same
      cases fills
      cases same
      exact .quiet knows rfl (Task.knows_resume rest) noPlacing noRejecting (noCancel _) rfl rfl
    | error final error =>
      rw [reply] at fills same
      cases same
      have alreadyEnded : error = .orderNotPending .FILLED → e.store.Ended order.id := by
        intro isFilled
        obtain ⟨stored, isStored, status⟩ := atomicFillOrder_notPending (isFilled ▸ reply)
        exact ⟨stored, isStored, by rw [status]; trivial⟩
      split at fills
      next found => cases found
      next found =>
        cases found
        cases fills
        refine .quiet knows rfl (Task.knows_of_order known rfl rfl (fun o isEnded => ?_) rfl rfl) rfl
          rfl (noCancel _) rfl rfl
        cases isEnded
        exact alreadyEnded rfl
      next found =>
        cases found
        cases fills
        exact .quiet knows rfl (Task.knows_resume rest) noPlacing noRejecting (noCancel _) rfl rfl
      next found => cases found
  · rw [filled] at fills hashes ⊢
    cases fills
    refine .set order.id _ knows records (knows.stored order.id stored isStored) hashes rfl rfl ?_ ?_ ?_ rfl
    · exact .finished .filled stored _ isStored pending rfl rfl (.inl rfl) (not_places rfl)
        (not_places rfl) (fun impossible => by cases impossible)
        (fun impossible => by cases impossible) (statusesOf_self ⟨order.id, order.userId, .filled⟩)
    · intro o other before
      exact .quiet rfl Iff.rfl Iff.rfl (noCancel _ o) (statusesOf_ne other.symm)
    · intro grows
      refine Task.knows_of_order (known.mono grows) rfl rfl (fun o isEnded => ?_) rfl rfl
      cases isEnded
      exact ⟨_, (orders_set records order.id).trans (if_pos rfl), trivial⟩

/-- A cancel command meets its own user's order: a copy that is not pending
tells that the record is not. -/
theorem advanced_cancelRead {userId : UserId} (knows : e.Knows owns)
    (single : ∀ o user other, owns o user → owns o other → user = other)
    (isTask : (Task.cancelRead o userId).Knows owns e.store)
    (taken : e.advance input (.cancelRead o userId) = some (after, next)) :
    Advanced owns e after (.cancelRead o userId) next
      ((Task.cancelRead o userId).updates e input next) := by
  have owner : owns o userId := isTask.cancelCommand (o, userId) rfl
  have drops (notPending : ∀ stored ∈ e.store.orders o, stored.status ≠ .PENDING) :
      Advanced owns e e (.cancelRead o userId) .done [] := by
    refine ⟨fun r => ?_, knows, Task.knows_done, (fun _ isCmd => by cases isCmd), rfl⟩
    by_cases same : r = o
    · subst same
      exact .dropped rfl Iff.rfl Iff.rfl notPending rfl statusesOf_nil
    · exact .quiet rfl Iff.rfl Iff.rfl (fun isCancel => absurd (Option.some.inj isCancel).symm same)
        statusesOf_nil
  have continues (order : Order) (stored : (e.store.orders o).isSome) :
      Advanced owns e e (.cancelRead o userId) (.cancelScript o order) [] := by
    refine .quiet knows rfl ⟨(fun _ isCmd => by cases isCmd), (fun _ isOrder => by cases isOrder),
      (fun _ isEnded => by cases isEnded), (fun _ isCancel => by cases isCancel),
      fun r isFound => ?_⟩ rfl rfl (fun _ isCancel => isCancel) rfl rfl
    cases isFound
    exact stored
  simp only [advance] at taken
  cases copy : e.cache.orders o with
  | some order =>
    rw [copy] at taken
    obtain ⟨id, known, status⟩ := knows.cached o order copy
    have isUser : order.userId = userId := single o _ _ (id ▸ known.owner) owner
    dsimp only [Option.orElse_some] at taken
    split_ifs at taken with pending
    · cases taken
      exact continues order (id ▸ known.stored)
    · cases taken
      refine drops fun stored isStored isPending => ?_
      rcases status with stillPending | ⟨other, isOther, terminal⟩
      · exact pending ⟨isUser, stillPending⟩
      · cases Option.some.inj (isStored.symm.trans isOther)
        rw [isPending] at terminal
        exact terminal
  | none =>
    rw [copy] at taken
    dsimp only [Option.orElse_none] at taken
    cases record : e.store.orders o with
    | none =>
      rw [record] at taken
      cases taken
      refine drops fun stored isStored => ?_
      rw [record] at isStored
      cases isStored
    | some order =>
      rw [record] at taken
      have isUser : order.userId = userId := single o _ _ (knows.stored o order record) owner
      dsimp only at taken
      split_ifs at taken with pending
      · cases taken
        exact continues order (by rw [record]; rfl)
      · cases taken
        refine drops fun stored isStored isPending => ?_
        cases Option.some.inj (record.symm.trans isStored)
        exact pending ⟨isUser, isPending⟩

theorem advanced_cancelScript {order : Order} (knows : e.Knows owns)
    (taken : e.advance input (.cancelScript o order) = some (after, next)) :
    Advanced owns e after (.cancelScript o order) next
      ((Task.cancelScript o order).updates e input next) := by
  have drops (notPending : ∀ stored ∈ e.store.orders o, stored.status ≠ .PENDING)
      (refused : atomicCancelOrder e.store o input.timestampMs = (false, e.store)) :
      Advanced owns e after (.cancelScript o order) next
        ((Task.cancelScript o order).updates e input next) := by
    have silent : (Task.cancelScript o order).updates e input next = [] :=
      if_neg (by rw [refused]; exact Bool.false_ne_true)
    simp only [advance, refused] at taken
    cases taken
    rw [silent]
    refine ⟨fun r => ?_, knows, Task.knows_done, (fun _ isCmd => by cases isCmd), rfl⟩
    by_cases same : r = o
    · subst same
      exact .dropped rfl Iff.rfl Iff.rfl notPending rfl statusesOf_nil
    · exact .quiet rfl Iff.rfl Iff.rfl (fun isCancel => absurd (Option.some.inj isCancel).symm same)
        statusesOf_nil
  cases record : e.store.orders o with
  | none =>
    refine drops (fun stored isStored => by rw [record] at isStored; cases isStored) ?_
    unfold atomicCancelOrder
    rw [record]
  | some stored =>
    by_cases pending : stored.status = .PENDING
    · have cancels : atomicCancelOrder e.store o input.timestampMs =
          (true, (e.store.setOrder o (stored.canceled input.timestampMs)).zremPending
            stored.symbol o) := by
        unfold atomicCancelOrder
        rw [record]
        exact if_neg (not_not.mpr pending)
      have told : (Task.cancelScript o order).updates e input next =
          [⟨o, order.userId, .cancelled⟩] := if_pos (by rw [cancels])
      simp only [advance, cancels] at taken
      cases taken
      rw [told]
      refine .set o (stored.canceled input.timestampMs) knows rfl
        (knows.stored o stored record) knows.hashesOnly rfl rfl ?_ ?_
        (fun _ => Task.knows_of_none rfl rfl rfl rfl rfl) rfl
      · exact .finished .cancelled stored _ record pending rfl rfl (.inr rfl) (not_places rfl)
          (not_places rfl) (fun impossible => by cases impossible)
          (fun impossible => by cases impossible) (statusesOf_self ⟨o, order.userId, .cancelled⟩)
      · intro r other before
        exact .quiet rfl Iff.rfl Iff.rfl
          (fun isCancel => absurd (Option.some.inj isCancel).symm other)
          (statusesOf_ne (Ne.symm other))
    · refine drops (fun other isOther => ?_) ?_
      · cases Option.some.inj (record.symm.trans isOther)
        exact pending
      · unfold atomicCancelOrder
        rw [record]
        exact if_pos pending

/-- The commands that write the cached copy of an order. -/
theorem Advanced.cache (r : OrderId) (value : Option Order) (knows : e.Knows owns)
    (store : after.store = e.store)
    (cache : after.cache.orders = Function.update e.cache.orders r value)
    (allowed : ∀ order ∈ value, order.id = r ∧ Known owns e.store order ∧
      (order.status = .PENDING ∨ e.store.Ended r))
    (nextKnows : next.Knows owns e.store) (placing : next.placing = task.placing)
    (rejecting : next.rejecting = task.rejecting) (cancelling : task.cancelling = none)
    (tasks : after.tasks = e.tasks) (silent : updates = []) :
    Advanced owns e after task next updates := by
  refine .quiet (knows.cacheOrder store cache allowed) (by rw [store]) (store ▸ nextKnows) placing
    rejecting (fun o isCancel => ?_) tasks silent
  rw [cancelling] at isCancel
  cases isCancel

/-- Every command of a task that is orderly. -/
theorem advance_advanced {underway : OrderId → Prop} (knows : e.Knows owns)
    (single : ∀ o user other, owns o user → owns o other → user = other)
    (isTask : task.Knows owns e.store)
    (unstored : ∀ cmd ∈ task.placing, e.store.orders cmd.orderId = none)
    (orderly : task.Orderly e input underway) (fresh : e.store.hash input.positionUuid = none)
    (taken : e.advance input task = some (after, next)) :
    Advanced owns e after task next (task.updates e input next) := by
  have noCancel (later : Task) (cancelling : task.cancelling = none) :
      ∀ o ∈ task.cancelling, later.cancelling = some o := fun o isCancel => by
    rw [cancelling] at isCancel
    cases isCancel
  have noEnded : ∀ o ∈ (none : Option OrderId), e.store.Ended o := fun _ isEnded => by
    cases isEnded
  cases task with
  | done => cases taken
  | placeGetKey cmd => exact advanced_placeGetKey knows isTask orderly taken
  | placeSetKey cmd =>
    cases taken
    exact .quiet (knows.keep knows.hashesOnly rfl rfl) rfl
      ⟨isTask.placing, (fun _ isOrder => by cases isOrder), (fun _ isEnded => by cases isEnded),
        (fun _ isCancel => by cases isCancel), (fun _ isFound => by cases isFound)⟩ rfl rfl (noCancel _ rfl) rfl rfl
  | placeSetOrder cmd => exact advanced_placeSetOrder knows isTask (unstored cmd rfl) taken
  | placeAddPending cmd =>
    cases taken
    have grows : e.store.Grows (e.store.zaddPending (normalizeSymbol cmd.symbol) cmd.orderId) :=
      .refl rfl
    have known := (isTask.order cmd.toOrder rfl).mono grows
    exact .quiet (knows.keep knows.hashesOnly rfl rfl) rfl
      (Task.knows_of_order known rfl rfl (fun _ isEnded => by cases isEnded) rfl rfl)
      rfl rfl (noCancel _ rfl) rfl rfl
  | placeAddCache cmd =>
    have known := isTask.order cmd.toOrder rfl
    have isCached : ∀ order ∈ some cmd.toOrder, order.id = cmd.orderId ∧ Known owns e.store order ∧
        (order.status = .PENDING ∨ e.store.Ended cmd.orderId) := by
      intro order same
      cases same
      exact ⟨rfl, known, .inl rfl⟩
    simp only [advance] at taken
    split_ifs at taken
    · cases taken
      exact .cache cmd.orderId (some cmd.toOrder) knows rfl rfl isCached (Task.knows_of_order known rfl rfl noEnded rfl rfl) rfl rfl
        rfl rfl rfl
    · cases taken
      exact .cache cmd.orderId (some cmd.toOrder) knows rfl rfl isCached Task.knows_done rfl rfl rfl rfl rfl
  | placeResolvePrice cmd =>
    have known := isTask.order cmd.toOrder rfl
    simp only [advance] at taken
    cases price : input.price with
    | none =>
      rw [price] at taken
      cases taken
      exact .quiet knows rfl Task.knows_done rfl rfl (noCancel _ rfl) rfl rfl
    | some fillPrice =>
      rw [price] at taken
      cases taken
      exact .execute knows known rfl rfl rfl
  | fillScript order fillPrice eff rest => exact advanced_fillScript knows isTask orderly fresh taken
  | filledUpdateCache order fillPrice rest =>
    have known := isTask.order order rfl
    cases taken
    refine .cache order.id (some _) knows rfl rfl (fun updated same => ?_)
      (Task.knows_of_order known rfl rfl noEnded rfl rfl) rfl rfl rfl rfl rfl
    cases same
    exact ⟨rfl, ⟨known.stored, known.owner⟩, .inr (isTask.ended order.id rfl)⟩
  | filledRemovePending order rest =>
    cases taken
    obtain ⟨noPlacing, noRejecting, silent⟩ := Task.resume_unconcerned rest
    exact .cache order.id none knows rfl rfl (fun _ impossible => by cases impossible)
      (Task.knows_resume rest) noPlacing noRejecting rfl rfl silent
  | rejectSetOrder order rest => exact advanced_rejectSetOrder knows isTask orderly taken
  | rejectUpdateCache order rest =>
    have known := isTask.order order rfl
    cases taken
    refine .cache order.id (some _) knows rfl rfl (fun updated same => ?_)
      (Task.knows_of_order known rfl rfl noEnded rfl rfl) rfl rfl rfl rfl rfl
    cases same
    exact ⟨rfl, ⟨known.stored, known.owner⟩, .inr (isTask.ended order.id rfl)⟩
  | rejectRemovePending order rest =>
    have known := isTask.order order rfl
    cases taken
    exact .cache order.id none knows rfl rfl (fun _ impossible => by cases impossible)
      (Task.knows_of_order known rfl rfl noEnded rfl rfl) rfl rfl rfl rfl rfl
  | rejectZrem order rest =>
    cases taken
    obtain ⟨noPlacing, noRejecting, silent⟩ := Task.resume_unconcerned rest
    exact .quiet (knows.keep knows.hashesOnly rfl rfl) rfl (Task.knows_resume rest) noPlacing
      noRejecting (noCancel _ rfl) rfl silent
  | tickPending tick groupId =>
    simp only [advance] at taken
    split_ifs at taken
    · cases taken
      exact .quiet knows rfl Task.knows_done rfl rfl (noCancel _ rfl) rfl rfl
    · cases taken
      exact .quiet (knows.keep knows.hashesOnly rfl rfl) rfl
        (Task.knows_of_none rfl rfl rfl rfl rfl) rfl rfl (noCancel _ rfl) rfl rfl
  | tickOrders rest =>
    obtain ⟨tick, groupId, ids⟩ := rest
    cases ids with
    | nil =>
      cases taken
      exact .quiet knows rfl Task.knows_done rfl rfl (noCancel _ rfl) rfl rfl
    | cons o ids =>
      simp only [advance] at taken
      cases copy : e.cache.orders o with
      | none =>
        rw [copy] at taken
        cases taken
        exact .quiet knows rfl (Task.knows_of_none rfl rfl rfl rfl rfl) rfl rfl (noCancel _ rfl) rfl rfl
      | some order =>
        rw [copy] at taken
        dsimp only at taken
        split_ifs at taken
        · cases taken
          exact .execute knows (knows.cached o order copy).2.1 rfl rfl rfl
        · cases taken
          exact .quiet knows rfl (Task.knows_of_none rfl rfl rfl rfl rfl) rfl rfl (noCancel _ rfl) rfl
            rfl
  | cancelRead o userId => exact advanced_cancelRead knows single isTask taken
  | cancelScript o order => exact advanced_cancelScript knows taken
  | cancelRemovePending o order =>
    cases taken
    exact .cache o none knows rfl rfl (fun _ impossible => by cases impossible)
      Task.knows_done rfl rfl rfl rfl rfl

end Engine

end Effects

end TradingPlatform
