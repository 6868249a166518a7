import TradingPlatform.Engine.OrderFinality

namespace TradingPlatform

namespace Engine

/-- The commands that a handler carries out from a task on, one after another. -/
def work : List Input → Engine → Task → Option (Engine × Task)
  | [], e, task => some (e, task)
  | input :: inputs, e, task =>
    (e.advance input task).bind fun next => work inputs next.1 next.2

/-- The order is in the cache, listed as pending under its symbol. -/
structure Cached (e : Engine) (symbol : Symbol) (o : OrderId) : Prop where
  listed : o ∈ e.cache.getPendingOrders symbol
  order : e.cache.orders o ≠ none

/-- The order is stored in a terminal status, or PENDING and then both in its
pending set and in the cache. -/
def InPlace (e : Engine) (o : OrderId) : Prop :=
  ∃ order ∈ e.store.orders o, order.status.Terminal ∨
    order.status = .PENDING ∧ o ∈ e.store.pending order.symbol ∧ e.Cached order.symbol o

/-- The commands at which a placement from this state can fail and still be
delivered again with success. A failure at a command means that the command has
had no effect; one that took effect without a reply is a failure at the next. -/
def Retriable (before : Engine) (cmd : PlaceOrderCommand) (accepts : Bool) : Task → Prop
  | .placeGetKey _ =>
    before.keys cmd.idempotencyKey = none ∧ accepts ∨ before.InPlace cmd.orderId
  | .placeSetKey _ =>
    before.keys cmd.idempotencyKey = none ∧ accepts ∨ before.InPlace cmd.orderId
  | .placeSetOrder _ => before.InPlace cmd.orderId
  | .placeAddPending _ =>
    cmd.orderId ∈ before.store.pending cmd.toOrder.symbol ∧
      before.Cached cmd.toOrder.symbol cmd.orderId
  | .placeAddCache _ => before.Cached cmd.toOrder.symbol cmd.orderId
  | _ => True

/-- SETEX of the idempotency key. -/
def keyed (e : Engine) (cmd : PlaceOrderCommand) : Engine :=
  { e with keys := Function.update e.keys cmd.idempotencyKey (some cmd.orderId) }

/-- SET of the order after that. -/
def recorded (e : Engine) (cmd : PlaceOrderCommand) : Engine :=
  { e.keyed cmd with store := e.store.setOrder cmd.orderId cmd.toOrder }

/-- ZADD of the order after that. -/
def enlisted (e : Engine) (cmd : PlaceOrderCommand) : Engine :=
  { e.keyed cmd with
    store := (e.store.setOrder cmd.orderId cmd.toOrder).zaddPending cmd.toOrder.symbol cmd.orderId }

/-- The placed order waits for its fill. -/
structure Waiting (e : Engine) (cmd : PlaceOrderCommand) : Prop where
  key : e.keys cmd.idempotencyKey ≠ none
  record : e.store.orders cmd.orderId = some cmd.toOrder
  pending : cmd.orderId ∈ e.store.pending cmd.toOrder.symbol
  cached : e.Cached cmd.toOrder.symbol cmd.orderId

/-- The placed order has been filled or rejected. -/
structure Finished (e : Engine) (cmd : PlaceOrderCommand) : Prop where
  key : e.keys cmd.idempotencyKey ≠ none
  record : ∃ order ∈ e.store.orders cmd.orderId, order.status.Terminal

/-- What a placement that the validator accepted has done when it comes to a task. -/
def Reached (before : Engine) (cmd : PlaceOrderCommand) (e : Engine) : Task → Prop
  | .placeSetKey c => c = cmd ∧ e = before
  | .placeSetOrder c => c = cmd ∧ e = before.keyed cmd
  | .placeAddPending c => c = cmd ∧ e = before.recorded cmd
  | .placeAddCache c => c = cmd ∧ e = before.enlisted cmd
  | .placeResolvePrice c => c = cmd ∧ e.Waiting cmd
  | .fillScript order _ _ rest => order = cmd.toOrder ∧ rest = none ∧ e.Waiting cmd
  | .rejectSetOrder order rest => order = cmd.toOrder ∧ rest = none ∧ e.Waiting cmd
  | .filledUpdateCache _ _ rest => rest = none ∧ e.Finished cmd
  | .filledRemovePending _ rest => rest = none ∧ e.Finished cmd
  | .rejectUpdateCache _ rest => rest = none ∧ e.Finished cmd
  | .rejectRemovePending _ rest => rest = none ∧ e.Finished cmd
  | .rejectZrem _ rest => rest = none ∧ e.Finished cmd
  | .done => e.Waiting cmd ∨ e.Finished cmd
  | _ => False

section Steps
variable {before e e' : Engine} {cmd : PlaceOrderCommand} {input : Input} {task task' : Task}

theorem Waiting.inPlace (waiting : e.Waiting cmd) : e.InPlace cmd.orderId :=
  ⟨_, waiting.record, .inr ⟨rfl, waiting.pending, waiting.cached⟩⟩

theorem Finished.inPlace (finished : e.Finished cmd) : e.InPlace cmd.orderId := by
  obtain ⟨order, stored, terminal⟩ := finished.record
  exact ⟨order, stored, .inl terminal⟩

theorem keyed_holds (before : Engine) (cmd : PlaceOrderCommand) :
    (before.keyed cmd).keys cmd.idempotencyKey ≠ none := by
  simp [keyed]

/-- What the last of the handler's own writes leaves. -/
theorem waiting_enlisted (before : Engine) (cmd : PlaceOrderCommand) :
    Waiting { before.enlisted cmd with
      cache := before.cache.addPendingOrder cmd.toOrder.symbol cmd.orderId cmd.toOrder } cmd where
  key := before.keyed_holds cmd
  record := by
    change (before.store.setOrder cmd.orderId cmd.toOrder).orders cmd.orderId = _
    rw [Store.orders_setOrder, if_pos rfl]
  pending := by simp [enlisted, Store.zaddPending]
  cached := by
    constructor
    · simp [OrderCache.getPendingOrders, OrderCache.addPendingOrder]
    · simp [OrderCache.addPendingOrder]

theorem Waiting.execute (waiting : e.Waiting cmd) (fillPrice : ℚ) (effectiveLeverage : Option ℚ) :
    Reached before cmd e (.execute cmd.toOrder fillPrice effectiveLeverage none) := by
  unfold Task.execute
  split
  next => exact .inl waiting
  next =>
    split_ifs
    · exact ⟨rfl, rfl, waiting⟩
    · exact ⟨rfl, rfl, waiting⟩

/-- The script does not report a pending order as filled. -/
theorem not_orderNotPending {st after : Store} {args : FillArgs} {order : Order}
    {existing old : List PositionId} {status : OrderStatus}
    (stored : st.orders args.orderId = some order) (pending : order.status = .PENDING) :
    atomicFillOrder st args existing old ≠ .error after (.orderNotPending status) := by
  intro failed
  unfold atomicFillOrder at failed
  simp only [stored, pending] at failed
  split at failed
  next => cases failed
  next =>
    split_ifs at failed with _ notPending
    · exact absurd rfl notPending
    · split at failed
      next => cases failed
      next => cases failed
      next => split at failed <;> cases failed
    · cases failed

/-- A call that gets past its checks leaves its order FILLED. -/
theorem atomicFillOrder_left_orders {st : Store} {args : FillArgs} {order : Order}
    {existing old : List PositionId} (stored : st.orders args.orderId = some order) :
    (atomicFillOrder st args existing old).store = st ∨
      (atomicFillOrder st args existing old).store.orders args.orderId =
        some (order.filled args) := by
  rcases atomicFillOrder_left st args existing old with same | ⟨found, el, accepted, left⟩
  · exact .inl same
  · cases Option.some.inj (stored.symm.trans accepted.stored)
    refine .inr ?_
    have kept : SameOrders (st.markFilled args order) (Fill.applyToPositions
      (st.markFilled args order) (Fill.ofArgs args order el accepted.leverage_pos) existing old) :=
      Fill.sameOrders_applyToPositions
    rw [left]
    unfold Store.orders
    rw [kept]
    exact (Store.orders_setOrder ..).trans (if_pos rfl)

/-- The fill script leaves the order waiting or has it FILLED. -/
theorem Waiting.runFillScript (waiting : e.Waiting cmd) (input : Input) (fillPrice eff : ℚ) :
    Reached before cmd (e.runFillScript input cmd.toOrder fillPrice eff none).1
      (e.runFillScript input cmd.toOrder fillPrice eff none).2 := by
  have stored : e.store.orders (fillArgs cmd.toOrder fillPrice eff input).orderId =
      some cmd.toOrder := waiting.record
  have left : (atomicFillOrder e.store (fillArgs cmd.toOrder fillPrice eff input) input.existing
      input.old).store = e.store ∨ _ := atomicFillOrder_left_orders stored
  have orders := atomicFillOrder_orders e.store (fillArgs cmd.toOrder fillPrice eff input)
    input.existing input.old
  have notFilled (after : Store) (status : OrderStatus) : atomicFillOrder e.store
      (fillArgs cmd.toOrder fillPrice eff input) input.existing input.old ≠
        .error after (.orderNotPending status) := not_orderNotPending stored rfl
  unfold Engine.runFillScript
  generalize atomicFillOrder e.store (fillArgs cmd.toOrder fillPrice eff input) input.existing
    input.old = reply at left orders notFilled
  have settled {store : Store} (isStore : reply.store = store) :
      ({ e with store := store } : Engine).Waiting cmd ∨
        ({ e with store := store } : Engine).Finished cmd := by
    subst isStore
    rcases left with same | filled
    · rw [same]
      exact .inl waiting
    · exact .inr ⟨waiting.key, _, filled, trivial⟩
  cases reply with
  | raised store => exact settled rfl
  | error store error =>
    cases error with
    | orderNotPending status => exact absurd rfl (notFilled store status)
    | missingEffectiveLeverage => exact settled rfl
    | orderNotFound => exact settled rfl
    | limitPriceNotMet => exact settled rfl
  | success store result =>
    rcases left with same | filled
    · rcases orders with ⟨_, failed⟩ | ⟨order, isStored, _, written⟩
      · exact absurd rfl (failed store result)
      · refine ⟨rfl, waiting.key, order.filled (fillArgs cmd.toOrder fillPrice eff input), ?_,
          trivial⟩
        have read := (Store.orders_setOrder e.store cmd.orderId
          (order.filled (fillArgs cmd.toOrder fillPrice eff input)) cmd.orderId).trans (if_pos rfl)
        unfold Store.orders at read ⊢
        exact (congrArg (AList.lookup cmd.orderId) written).trans read
    · exact ⟨rfl, waiting.key, _, filled, trivial⟩

theorem Reached.advance (reached : Reached before cmd e task)
    (advanced : e.advance input task = some (e', task')) : Reached before cmd e' task' := by
  cases task with
  | done => cases advanced
  | placeGetKey c => cases reached
  | placeSetKey c =>
    obtain ⟨rfl, rfl⟩ := reached
    cases advanced
    exact ⟨rfl, rfl⟩
  | placeSetOrder c =>
    obtain ⟨rfl, rfl⟩ := reached
    cases advanced
    exact ⟨rfl, rfl⟩
  | placeAddPending c =>
    obtain ⟨rfl, rfl⟩ := reached
    cases advanced
    exact ⟨rfl, rfl⟩
  | placeAddCache c =>
    obtain ⟨rfl, rfl⟩ := reached
    have waiting := before.waiting_enlisted c
    simp only [Engine.advance] at advanced
    split_ifs at advanced
    · cases advanced
      exact ⟨rfl, waiting⟩
    · cases advanced
      exact .inl waiting
  | placeResolvePrice c =>
    obtain ⟨rfl, waiting⟩ := reached
    simp only [Engine.advance] at advanced
    split at advanced
    next =>
      cases advanced
      exact .inl waiting
    next fillPrice _ =>
      cases advanced
      exact waiting.execute fillPrice input.effectiveLeverage
  | fillScript order fillPrice eff rest =>
    obtain ⟨rfl, rfl, waiting⟩ := reached
    simp only [Engine.advance] at advanced
    split_ifs at advanced
    have filled : Reached before cmd _ _ := waiting.runFillScript input fillPrice eff
    rw [Option.some.inj advanced] at filled
    exact filled
  | filledUpdateCache order fillPrice rest =>
    obtain ⟨rfl, finished⟩ := reached
    cases advanced
    exact ⟨rfl, finished.key, finished.record⟩
  | filledRemovePending order rest =>
    obtain ⟨rfl, finished⟩ := reached
    cases advanced
    exact .inr ⟨finished.key, finished.record⟩
  | rejectSetOrder order rest =>
    obtain ⟨rfl, rfl, waiting⟩ := reached
    cases advanced
    refine ⟨rfl, waiting.key, _, (Store.orders_setOrder ..).trans (if_pos rfl), trivial⟩
  | rejectUpdateCache order rest =>
    obtain ⟨rfl, finished⟩ := reached
    cases advanced
    exact ⟨rfl, finished.key, finished.record⟩
  | rejectRemovePending order rest =>
    obtain ⟨rfl, finished⟩ := reached
    cases advanced
    exact ⟨rfl, finished.key, finished.record⟩
  | rejectZrem order rest =>
    obtain ⟨rfl, finished⟩ := reached
    cases advanced
    exact .inr ⟨finished.key, finished.record⟩
  | tickPending tick groupId => cases reached
  | tickOrders rest => cases reached
  | cancelRead o userId => cases reached
  | cancelScript o order => cases reached
  | cancelRemovePending o order => cases reached

theorem Reached.work {inputs : List Input} (reached : Reached before cmd e task)
    (worked : work inputs e task = some (e', task')) : Reached before cmd e' task' := by
  induction inputs generalizing e task with
  | nil =>
    cases worked
    exact reached
  | cons input inputs ih =>
    obtain ⟨⟨between, next⟩, advanced, rest⟩ := Option.bind_eq_some_iff.mp worked
    exact ih (reached.advance advanced) rest

theorem work_done {inputs : List Input} {final : Engine} {last : Task}
    (worked : work inputs e .done = some (final, last)) : final = e ∧ last = .done := by
  cases inputs with
  | nil =>
    cases worked
    exact ⟨rfl, rfl⟩
  | cons input inputs => cases worked

/-- A delivery either stops where it is or passes the checks of an accepted command. -/
theorem work_placeGetKey {inputs : List Input} {final : Engine} {last : Task}
    (worked : work (input :: inputs) e (.placeGetKey cmd) = some (final, last)) :
    (e.keys cmd.idempotencyKey = none ∧ input.valid = true ∧ Reached e cmd final last) ∨
      ¬(e.keys cmd.idempotencyKey = none ∧ input.valid = true) ∧ final = e ∧ last = .done := by
  obtain ⟨⟨next, task⟩, advanced, rest⟩ := Option.bind_eq_some_iff.mp worked
  simp only [Engine.advance] at advanced
  cases key : e.keys cmd.idempotencyKey with
  | some o =>
    rw [key] at advanced
    cases advanced
    exact .inr ⟨by simp, work_done rest⟩
  | none =>
    rw [key] at advanced
    cases valid : input.valid with
    | false =>
      simp only [valid, Bool.false_eq_true, if_false, Option.some.injEq, Prod.mk.injEq] at advanced
      obtain ⟨rfl, rfl⟩ := advanced
      exact .inr ⟨by simp, work_done rest⟩
    | true =>
      simp only [valid, if_true, Option.some.injEq, Prod.mk.injEq] at advanced
      obtain ⟨rfl, rfl⟩ := advanced
      have reached : Reached e cmd e (.placeSetKey cmd) := ⟨rfl, rfl⟩
      exact .inl ⟨rfl, rfl, reached.work rest⟩

/-- Where a delivery can have failed. -/
theorem failed_cases {failed : Engine} {first : List Input}
    (failing : work first before (.placeGetKey cmd) = some (failed, task))
    (unfinished : task ≠ .done) :
    task = .placeGetKey cmd ∧ failed = before ∨
      before.keys cmd.idempotencyKey = none ∧ Reached before cmd failed task := by
  cases first with
  | nil =>
    cases failing
    exact .inl ⟨rfl, rfl⟩
  | cons input inputs =>
    rcases work_placeGetKey failing with ⟨key, _, reached⟩ | ⟨_, _, finished⟩
    · exact .inr ⟨key, reached⟩
    · exact absurd finished unfinished

/-- A delivery that finds the key, or a command it turns down, changes nothing;
any other one puts the order in place. -/
theorem redelivered_iff {answer : Input} {again : List Input} {final : Engine}
    (redelivered : work (answer :: again) e (.placeGetKey cmd) = some (final, .done)) :
    final.InPlace cmd.orderId ↔
      e.keys cmd.idempotencyKey = none ∧ answer.valid = true ∨ e.InPlace cmd.orderId := by
  rcases work_placeGetKey redelivered with ⟨key, valid, reached⟩ | ⟨refused, same, _⟩
  · refine iff_of_true ?_ (.inl ⟨key, valid⟩)
    rcases reached with waiting | finished
    · exact waiting.inPlace
    · exact finished.inPlace
  · rw [same, or_iff_right refused]

theorem suppressed_iff {answer : Input} {again : List Input} {final : Engine}
    (redelivered : work (answer :: again) e (.placeGetKey cmd) = some (final, .done))
    (held : e.keys cmd.idempotencyKey ≠ none) :
    final.InPlace cmd.orderId ↔ e.InPlace cmd.orderId := by
  rw [redelivered_iff redelivered]
  simp [held]

theorem inPlace_iff_of_pending {o : OrderId} {order : Order} (stored : e.store.orders o = some order)
    (pending : order.status = .PENDING) :
    e.InPlace o ↔ o ∈ e.store.pending order.symbol ∧ e.Cached order.symbol o := by
  constructor
  · rintro ⟨other, isOther, terminal | ⟨_, inPlace⟩⟩
    · cases Option.some.inj (stored.symm.trans isOther)
      rw [pending] at terminal
      exact terminal.elim
    · cases Option.some.inj (stored.symm.trans isOther)
      exact inPlace
  · intro inPlace
    exact ⟨order, stored, .inr ⟨pending, inPlace⟩⟩

theorem cached_iff_of_cache {symbol : Symbol} {o : OrderId} (same : e'.cache = e.cache) :
    e'.Cached symbol o ↔ e.Cached symbol o := by
  constructor
  · intro cached
    exact ⟨same ▸ cached.listed, same ▸ cached.order⟩
  · intro cached
    exact ⟨same ▸ cached.listed, same ▸ cached.order⟩

theorem inPlace_keyed (before : Engine) (cmd : PlaceOrderCommand) (o : OrderId) :
    (before.keyed cmd).InPlace o ↔ before.InPlace o := by
  unfold InPlace
  have cached (symbol : Symbol) : (before.keyed cmd).Cached symbol o ↔ before.Cached symbol o :=
    cached_iff_of_cache rfl
  simp only [cached]
  rfl

theorem record_recorded (before : Engine) (cmd : PlaceOrderCommand) :
    (before.recorded cmd).store.orders cmd.orderId = some cmd.toOrder :=
  (Store.orders_setOrder ..).trans (if_pos rfl)

/-- What the command that failed leaves to be retried. -/
theorem Reached.inPlace_iff (reached : Reached before cmd e task) (unfinished : task ≠ .done)
    (started : task ≠ .placeSetKey cmd) (accepts : Bool) :
    e.keys cmd.idempotencyKey ≠ none ∧
      (e.InPlace cmd.orderId ↔ before.Retriable cmd accepts task) := by
  cases task with
  | done => exact absurd rfl unfinished
  | placeSetKey c =>
    obtain ⟨rfl, _⟩ := reached
    exact absurd rfl started
  | placeSetOrder c =>
    obtain ⟨rfl, rfl⟩ := reached
    exact ⟨before.keyed_holds c, before.inPlace_keyed c c.orderId⟩
  | placeAddPending c =>
    obtain ⟨rfl, rfl⟩ := reached
    have inPlace := inPlace_iff_of_pending (before.record_recorded c) rfl
    exact ⟨before.keyed_holds c, inPlace.trans (and_congr_right' (cached_iff_of_cache rfl))⟩
  | placeAddCache c =>
    obtain ⟨rfl, rfl⟩ := reached
    have stored : (before.enlisted c).store.orders c.orderId = some c.toOrder :=
      before.record_recorded c
    have listed : c.orderId ∈ (before.enlisted c).store.pending c.toOrder.symbol := by
      simp [enlisted, Store.zaddPending]
    refine ⟨before.keyed_holds c, (inPlace_iff_of_pending stored rfl).trans ?_⟩
    exact (and_iff_right listed).trans (cached_iff_of_cache rfl)
  | placeResolvePrice c => exact ⟨reached.2.key, iff_of_true reached.2.inPlace trivial⟩
  | fillScript order fillPrice eff rest =>
    exact ⟨reached.2.2.key, iff_of_true reached.2.2.inPlace trivial⟩
  | rejectSetOrder order rest =>
    exact ⟨reached.2.2.key, iff_of_true reached.2.2.inPlace trivial⟩
  | filledUpdateCache order fillPrice rest =>
    exact ⟨reached.2.key, iff_of_true reached.2.inPlace trivial⟩
  | filledRemovePending order rest =>
    exact ⟨reached.2.key, iff_of_true reached.2.inPlace trivial⟩
  | rejectUpdateCache order rest =>
    exact ⟨reached.2.key, iff_of_true reached.2.inPlace trivial⟩
  | rejectRemovePending order rest =>
    exact ⟨reached.2.key, iff_of_true reached.2.inPlace trivial⟩
  | rejectZrem order rest => exact ⟨reached.2.key, iff_of_true reached.2.inPlace trivial⟩
  | placeGetKey c => cases reached
  | tickPending tick groupId => cases reached
  | tickOrders rest => cases reached
  | cancelRead o userId => cases reached
  | cancelScript o order => cases reached
  | cancelRemovePending o order => cases reached

/-- A delivery comes to its end, whatever the validator answers. -/
theorem exists_finish (e : Engine) (cmd : PlaceOrderCommand) (answer : Input) :
    ∃ again final, work (answer :: again) e (.placeGetKey cmd) = some (final, .done) := by
  by_cases passes : e.keys cmd.idempotencyKey = none ∧ answer.valid = true
  · by_cases market : cmd.orderType = .MARKET
    · refine ⟨[{}, {}, {}, {}, {}], ?_⟩
      simp [work, Engine.advance, passes, market]
    · refine ⟨[{}, {}, {}, {}], ?_⟩
      simp [work, Engine.advance, passes, market]
  · refine ⟨[], e, ?_⟩
    cases key : e.keys cmd.idempotencyKey with
    | some o => simp [work, Engine.advance, key]
    | none => simp_all [work, Engine.advance]

end Steps

/-- A placement that failed at a command is delivered again: the delivery ends,
and the order is then in place just when that command is a retriable one. -/
theorem inPlace_redelivered_iff {before failed : Engine} {cmd : PlaceOrderCommand}
    {first : List Input} {task : Task}
    (failing : work first before (.placeGetKey cmd) = some (failed, task))
    (unfinished : task ≠ .done) (answer : Input) :
    (∃ again final, work (answer :: again) failed (.placeGetKey cmd) = some (final, .done)) ∧
      ∀ again final, work (answer :: again) failed (.placeGetKey cmd) = some (final, .done) →
        (final.InPlace cmd.orderId ↔ before.Retriable cmd answer.valid task) := by
  refine ⟨exists_finish failed cmd answer, ?_⟩
  intro again final redelivered
  rcases failed_cases failing unfinished with ⟨rfl, rfl⟩ | ⟨_, reached⟩
  · exact redelivered_iff redelivered
  · by_cases started : task = .placeSetKey cmd
    · subst started
      obtain ⟨_, rfl⟩ := reached
      exact redelivered_iff redelivered
    · obtain ⟨held, inPlace⟩ := reached.inPlace_iff unfinished started answer.valid
      exact (suppressed_iff redelivered held).trans inPlace

end Engine

namespace PlacementRetries

open Engine

def limitBuy : PlaceOrderCommand where
  orderId := 1
  userId := 7
  symbol := "EURUSD"
  side := .BUY
  orderType := .LIMIT
  size := 2
  limitPrice := some 100
  idempotencyKey := "k"

/-- The SET of the order fails, and the second delivery is taken for a duplicate. -/
theorem not_inPlace_unstored : ∃ failed final,
    work [{}, {}] .start (.placeGetKey limitBuy) = some (failed, .placeSetOrder limitBuy) ∧
    work [{}] failed (.placeGetKey limitBuy) = some (final, .done) ∧
      final.store.orders 1 = none ∧ ¬ final.InPlace 1 := by
  refine ⟨_, _, rfl, rfl, rfl, ?_⟩
  rintro ⟨order, stored, _⟩
  cases stored

/-- A failure at SETEX leaves the order to the next delivery. -/
theorem inPlace_redelivered_setex : ∃ again final,
    work ({} :: again) .start (.placeGetKey limitBuy) = some (final, .done) ∧
      final.InPlace 1 := by
  have failing : work [{}] .start (.placeGetKey limitBuy) =
    some (.start, .placeSetKey limitBuy) := rfl
  obtain ⟨⟨again, final, redelivered⟩, inPlace⟩ :=
    inPlace_redelivered_iff failing (by simp) {}
  exact ⟨again, final, redelivered, (inPlace again final redelivered).mpr (.inl ⟨rfl, rfl⟩)⟩

end PlacementRetries

end TradingPlatform
