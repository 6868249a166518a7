import TradingPlatform.Library.StepRuns
import TradingPlatform.Orders.OrderCalls

namespace TradingPlatform

open StepRuns

namespace TradingStores
variable {s after : TradingStores} {o : OrderId} {key : String}

/-- No new row, no lock and no fee. -/
structure SameDatabase (s after : TradingStores) : Prop where
  wallets : after.wallets = s.wallets
  orders : after.orders = s.orders
  fees : after.fees = s.fees

/-- An error leaves the database as it was, and a success has handed exactly
one command for the order over. -/
def AllOrNothing (s : TradingStores) : Answer OrderId × TradingStores → Prop
  | (.error _, after) => s.SameDatabase after
  | (.ok o, after) => after.commands.count o = 1

/-- The requests with one key have placed at most one order. -/
def OnePerKey (s : TradingStores) : Prop :=
  ∀ o o' row row' key, s.orders.lookup o = some row → s.orders.lookup o' = some row' →
    row.idempotencyKey = some key → row'.idempotencyKey = some key → o = o'

/-- The call reaches its commit. -/
def Commits (s : TradingStores) : OrderCall → Prop
  | .placeOrder _ userId r ctx fails => ∃ placement, r.beforeCommit s userId ctx fails = .ok (.inr placement)
  | .createAdminOrder _ userId r ctx fails => ∃ placement, r.beforeCommit s userId ctx fails = .ok placement

/-- A step of `place_order` fails after its commit. -/
def FailsLate (fails : OrderCallStep → Bool) : Prop :=
  fails .redisConnectionPostCommit ∨ fails .idempotencyStore ∨ fails .versionedMessage ∨
    fails .serializeCommand ∨ (fails .publishJetStream ∧ fails .publishNats)

/-- The call is refused before its commit or, from `place_order`, no step fails
after it. -/
def Complete (s : TradingStores) : OrderCall → Prop
  | .placeOrder o userId r ctx fails =>
    s.Commits (.placeOrder o userId r ctx fails) → ¬FailsLate fails
  | .createAdminOrder o userId r ctx fails => ¬s.Commits (.createAdminOrder o userId r ctx fails)

/-- Every call is complete, and no key expires that an order was placed under. -/
def Undivided (s : TradingStores) : OrderCallAction → Prop
  | .call c => s.Complete c
  | .expire key => ∀ entry ∈ s.orders.entries, entry.2.idempotencyKey ≠ some key

section Decidable

instance (s : TradingStores) : DecidablePred s.Commits
  | .placeOrder _ userId r ctx fails =>
    match committed : r.beforeCommit s userId ctx fails with
    | .ok (.inr placement) => .isTrue ⟨placement, committed⟩
    | .ok (.inl _) => .isFalse fun ⟨_, placed⟩ => nomatch committed.symm.trans placed
    | .error _ => .isFalse fun ⟨_, placed⟩ => nomatch committed.symm.trans placed
  | .createAdminOrder _ userId r ctx fails =>
    match committed : r.beforeCommit s userId ctx fails with
    | .ok placement => .isTrue ⟨placement, committed⟩
    | .error _ => .isFalse fun ⟨_, placed⟩ => nomatch committed.symm.trans placed

instance (fails : OrderCallStep → Bool) : Decidable (FailsLate fails) :=
  inferInstanceAs (Decidable (_ ∨ _ ∨ _ ∨ _ ∨ _ ∧ _))

instance (s : TradingStores) : DecidablePred s.Complete
  | .placeOrder o userId r ctx fails => inferInstanceAs (Decidable
      (s.Commits (.placeOrder o userId r ctx fails) → ¬FailsLate fails))
  | .createAdminOrder o userId r ctx fails =>
    inferInstanceAs (Decidable (¬s.Commits (.createAdminOrder o userId r ctx fails)))

instance (s : TradingStores) : DecidablePred s.Undivided
  | .call c => inferInstanceAs (Decidable (s.Complete c))
  | .expire key => inferInstanceAs
      (Decidable (∀ entry ∈ s.orders.entries, entry.2.idempotencyKey ≠ some key))

end Decidable

section BeforeCommit
variable {r : PlaceOrderRequest} {userId : UserId} {ctx : PlacementContext}
  {fails : OrderCallStep → Bool}

/-- What `place_order` parses again after its commit has been parsed before. -/
theorem parsed_of_beforeCommit {placement : Placement}
    (committed : r.beforeCommit s userId ctx fails = .ok (.inr placement)) :
    Side.parseUpper r.sideUpper ≠ none ∧ OrderType.parseUpper r.orderTypeUpper ≠ none := by
  unfold PlaceOrderRequest.beforeCommit at committed
  split at committed
  next => cases committed
  next details checked =>
    obtain ⟨orderType, typed, rest⟩ := require_bind_ok checked
    obtain ⟨side, sided, _⟩ := require_bind_ok rest
    exact ⟨sided ▸ Option.some_ne_none _, typed ▸ Option.some_ne_none _⟩

theorem key_of_beforeCommit {existing : OrderId}
    (found : r.beforeCommit s userId ctx fails = .ok (.inl existing)) :
    s.keys r.idempotencyKey = some existing := by
  unfold PlaceOrderRequest.beforeCommit at found
  split at found
  next => cases found
  next details _ =>
    split at found
    next known =>
      cases found
      exact known
    next =>
      cases locked : details.lock (s.wallets userId) ctx.freeMargin fails with
      | error e => rw [locked] at found; cases found
      | ok placement => rw [locked] at found; cases found

theorem unkeyed_of_beforeCommit {placement : Placement}
    (committed : r.beforeCommit s userId ctx fails = .ok (.inr placement)) :
    s.keys r.idempotencyKey = none := by
  unfold PlaceOrderRequest.beforeCommit at committed
  split at committed
  next => cases committed
  next details _ =>
    split at committed
    next => cases committed
    next unknown => exact unknown

end BeforeCommit

/-- The ids in use have been issued, a key leads to an order that has been
handed over once, and every order placed with a key is the one that it leads
to. -/
structure Accounted (s : TradingStores) : Prop where
  orders : ∀ o row, s.orders.lookup o = some row → o ∈ s.issued
  commands : ∀ o ∈ s.commands, o ∈ s.issued
  handed : ∀ key o, s.keys key = some o → s.commands.count o = 1
  keyed : ∀ o row key, s.orders.lookup o = some row → row.idempotencyKey = some key →
    s.keys key = some o

theorem accounted_opened (wallets : UserId → Wallet) : (opened wallets).Accounted where
  orders _ _ stored := nomatch stored
  commands _ member := nomatch member
  handed _ _ stored := nomatch stored
  keyed _ _ _ stored := nomatch stored

theorem Accounted.onePerKey (accounted : s.Accounted) : s.OnePerKey := by
  intro o o' row row' key stored stored' keyed keyed'
  have first := accounted.keyed o row key stored keyed
  have second := accounted.keyed o' row' key stored' keyed'
  exact Option.some.inj (first.symm.trans second)

/-- A row is new after the commit. -/
theorem not_sameDatabase_of_stored (fresh : s.orders.lookup o = none)
    (stored : ∃ row, after.orders.lookup o = some row) : ¬s.SameDatabase after := by
  intro same
  obtain ⟨row, stored⟩ := stored
  rw [same.orders, fresh] at stored
  cases stored

theorem Accounted.fresh (accounted : s.Accounted) (unused : o ∉ s.issued) :
    s.orders.lookup o = none ∧ s.commands.count o = 0 := by
  constructor
  · cases stored : s.orders.lookup o with
    | none => rfl
    | some row => exact absurd (accounted.orders o row stored) unused
  · exact List.count_eq_zero.mpr fun member => unused (accounted.commands o member)

section Outcomes
variable {userId : UserId} {ctx : PlacementContext} {fails : OrderCallStep → Bool}

/-- After its commit `place_order` succeeds exactly when no step fails, and it
has then handed one command over. -/
theorem placeOrderPublishes_cases {r : PlaceOrderRequest}
    (parsed : Side.parseUpper r.sideUpper ≠ none ∧ OrderType.parseUpper r.orderTypeUpper ≠ none) :
    (FailsLate fails ∧ ∃ e after, s.placeOrderPublishes o r fails = (.error e, after) ∧
        after.orders = s.orders) ∨
      (¬FailsLate fails ∧ s.placeOrderPublishes o r fails =
        (.ok o, { s with keys := Function.update s.keys r.idempotencyKey (some o) }.hand o)) := by
  unfold placeOrderPublishes FailsLate
  split_ifs with connection store side type message publish
  · exact .inl ⟨.inl connection, _, _, rfl, rfl⟩
  · exact .inl ⟨.inr (.inl store), _, _, rfl, rfl⟩
  · exact absurd side parsed.1
  · exact absurd type parsed.2
  · refine .inl ⟨?_, _, _, rfl, rfl⟩
    rcases message with message | message
    · exact .inr (.inr (.inl message))
    · exact .inr (.inr (.inr (.inl message)))
  · exact .inl ⟨.inr (.inr (.inr (.inr publish))), _, _, rfl, rfl⟩
  · refine .inr ⟨?_, rfl⟩
    rintro (failed | failed | failed | failed | failed)
    · exact connection failed
    · exact store failed
    · exact message (.inl failed)
    · exact message (.inr failed)
    · exact publish failed

/-- After its commit `create_admin_order` keeps the row, and a success hands two
commands over. -/
theorem createAdminOrderPublishes_cases {r : CreateOrderRequest} :
    (∃ e after, s.createAdminOrderPublishes o r fails = (.error e, after) ∧
        after.orders = s.orders) ∨
      s.createAdminOrderPublishes o r fails = (.ok o, (s.hand o).hand o) := by
  unfold createAdminOrderPublishes
  split_ifs
  · exact .inl ⟨_, _, rfl, rfl⟩
  · exact .inl ⟨_, _, rfl, rfl⟩
  · exact .inl ⟨_, _, rfl, rfl⟩
  · exact .inl ⟨_, _, rfl, rfl⟩
  · exact .inl ⟨_, _, rfl, rfl⟩
  · exact .inl ⟨_, _, rfl, rfl⟩
  · exact .inr rfl

theorem Accounted.placeOrder_iff (accounted : s.Accounted) (unused : o ∉ s.issued)
    (r : PlaceOrderRequest) : s.AllOrNothing (s.placeOrder o userId r ctx fails) ↔
      s.Complete (.placeOrder o userId r ctx fails) := by
  obtain ⟨fresh, none⟩ := accounted.fresh unused
  cases committed : r.beforeCommit s userId ctx fails with
  | error e =>
    simp only [placeOrder, committed, AllOrNothing]
    refine iff_of_true ⟨rfl, rfl, rfl⟩ fun ⟨_, placed⟩ => ?_
    cases committed.symm.trans placed
  | ok answer =>
    cases answer with
    | inl existing =>
      simp only [placeOrder, committed, AllOrNothing]
      refine iff_of_true ?_ fun ⟨_, placed⟩ => ?_
      · exact accounted.handed _ existing (key_of_beforeCommit committed)
      · cases committed.symm.trans placed
    | inr placement =>
      have complete : s.Complete (.placeOrder o userId r ctx fails) ↔ ¬FailsLate fails :=
        ⟨fun complete => complete ⟨placement, committed⟩, fun late _ => late⟩
      rw [complete]
      simp only [placeOrder, committed]
      rcases placeOrderPublishes_cases (parsed_of_beforeCommit committed) with
        ⟨late, e, after, publishes, orders⟩ | ⟨timely, publishes⟩
      · rw [publishes]
        refine iff_of_false (not_sameDatabase_of_stored fresh ?_) (not_not_intro late)
        rw [orders]
        exact ⟨_, AList.lookup_insert _⟩
      · rw [publishes]
        refine iff_of_true ?_ timely
        simp [AllOrNothing, hand, commit, List.count_append, none]

theorem Accounted.createAdminOrder_iff (accounted : s.Accounted) (unused : o ∉ s.issued)
    (r : CreateOrderRequest) : s.AllOrNothing (s.createAdminOrder o userId r ctx fails) ↔
      s.Complete (.createAdminOrder o userId r ctx fails) := by
  obtain ⟨fresh, none⟩ := accounted.fresh unused
  cases committed : r.beforeCommit s userId ctx fails with
  | error e =>
    simp only [createAdminOrder, committed, AllOrNothing]
    refine iff_of_true ⟨rfl, rfl, rfl⟩ fun ⟨_, placed⟩ => ?_
    cases committed.symm.trans placed
  | ok placement =>
    refine iff_of_false ?_ (not_not_intro ⟨placement, committed⟩)
    simp only [createAdminOrder, committed]
    rcases createAdminOrderPublishes_cases with ⟨e, after, publishes, orders⟩ | publishes
    · rw [publishes]
      refine not_sameDatabase_of_stored fresh ?_
      rw [orders]
      exact ⟨_, AList.lookup_insert _⟩
    · rw [publishes]
      simp [AllOrNothing, hand, commit, List.count_append, none]

end Outcomes

/-- A new order is committed, keyed and handed over. -/
theorem Accounted.placed (accounted : s.Accounted) (unused : o ∉ s.issued) (userId : UserId)
    (feeUsd : ℚ) (unkeyed : s.keys key = none) (placement : Placement) :
    let committed := s.commit o userId (some key) feeUsd placement
    Accounted { { committed with keys := Function.update committed.keys key (some o) }.hand o with
      issued := o :: s.issued } := by
  obtain ⟨fresh, none⟩ := accounted.fresh unused
  refine ⟨fun o' row stored => ?_, fun o' member => ?_, fun k o' stored => ?_,
    fun o' row k stored keyed => ?_⟩
  · by_cases same : o' = o
    · exact same ▸ List.mem_cons_self
    · have before : (s.orders.insert o _).lookup o' = some row := stored
      rw [AList.lookup_insert_ne same] at before
      exact List.mem_cons_of_mem _ (accounted.orders o' row before)
  · rcases List.mem_append.mp member with before | now
    · exact List.mem_cons_of_mem _ (accounted.commands o' before)
    · exact List.mem_singleton.mp now ▸ List.mem_cons_self
  · have count : (s.commands ++ [o]).count o' = 1 := by
      by_cases same : k = key
      · subst same
        have now : Function.update s.keys k (some o) k = some o' := stored
        rw [Function.update_self] at now
        cases now
        simp [List.count_append, none]
      · have before : Function.update s.keys key (some o) k = some o' := stored
        rw [Function.update_of_ne same] at before
        have once := accounted.handed k o' before
        have apart : o ≠ o' := by
          rintro rfl
          omega
        simp [List.count_append, once, apart]
    exact count
  · change Function.update s.keys key (some o) k = some o'
    by_cases same : o' = o
    · subst same
      have now : (s.orders.insert o' _).lookup o' = some row := stored
      rw [AList.lookup_insert] at now
      cases now
      cases keyed
      exact Function.update_self _ _ _
    · have before : (s.orders.insert o _).lookup o' = some row := stored
      rw [AList.lookup_insert_ne same] at before
      have known := accounted.keyed o' row k before keyed
      have apart : k ≠ key := by
        rintro rfl
        rw [unkeyed] at known
        cases known
      rw [Function.update_of_ne apart]
      exact known

/-- A complete call keeps the accounts. -/
theorem Accounted.call (accounted : s.Accounted) {c : OrderCall} (unused : c.id ∉ s.issued)
    (complete : s.Complete c) : Accounted { (s.outcome c).2 with issued := c.id :: s.issued } := by
  have unchanged : Accounted { s with issued := c.id :: s.issued } :=
    ⟨fun o row stored => List.mem_cons_of_mem _ (accounted.orders o row stored),
      fun o member => List.mem_cons_of_mem _ (accounted.commands o member), accounted.handed,
      accounted.keyed⟩
  cases c with
  | createAdminOrder o userId r ctx fails =>
    cases committed : r.beforeCommit s userId ctx fails with
    | ok placement => exact absurd ⟨placement, committed⟩ complete
    | error e =>
      simp only [outcome, createAdminOrder, committed]
      exact unchanged
  | placeOrder o userId r ctx fails =>
    cases committed : r.beforeCommit s userId ctx fails with
    | error e =>
      simp only [outcome, placeOrder, committed]
      exact unchanged
    | ok answer =>
      cases answer with
      | inl existing =>
        simp only [outcome, placeOrder, committed]
        exact unchanged
      | inr placement =>
        obtain ⟨fresh, none⟩ := accounted.fresh unused
        simp only [outcome, placeOrder, committed]
        rcases placeOrderPublishes_cases (parsed_of_beforeCommit committed) with
          ⟨late, _⟩ | ⟨_, publishes⟩
        · exact absurd late (complete ⟨placement, committed⟩)
        · rw [publishes]
          exact accounted.placed unused userId _ (unkeyed_of_beforeCommit committed) placement

theorem Accounted.step (accounted : s.Accounted) {action : OrderCallAction}
    (undivided : s.Undivided action) (taken : s.step action = some after) : after.Accounted := by
  cases action with
  | call c =>
    simp only [TradingStores.step] at taken
    split_ifs at taken with used
    cases taken
    exact accounted.call used undivided
  | expire key =>
    cases taken
    refine ⟨accounted.orders, accounted.commands, fun k o stored => ?_, fun o row k stored keyed => ?_⟩
    · by_cases same : k = key
      · subst same
        simp at stored
      · simp only [Function.update_of_ne same] at stored
        exact accounted.handed k o stored
    · have apart : k ≠ key := by
        rintro rfl
        exact undivided ⟨o, row⟩ (AList.mem_lookup_iff.mp stored) keyed
      simp only [Function.update_of_ne apart]
      exact accounted.keyed o row k stored keyed

/-- As long as every call is complete, requests with one key place at most one
order, and the next call is all or nothing exactly when it is complete too. -/
theorem allOrNothing_of_run {wallets : UserId → Wallet} {actions : List OrderCallAction}
    (run : GuardedRun step Undivided (opened wallets) actions s) :
    s.OnePerKey ∧ ∀ c : OrderCall, c.id ∉ s.issued →
      (s.AllOrNothing (s.outcome c) ↔ s.Complete c) := by
  have accounted : s.Accounted := run.invariant (accounted_opened wallets)
    fun _ _ _ undivided taken held => held.step undivided taken
  refine ⟨accounted.onePerKey, fun c unused => ?_⟩
  cases c with
  | placeOrder o userId r ctx fails => exact accounted.placeOrder_iff unused r
  | createAdminOrder o userId r ctx fails => exact accounted.createAdminOrder_iff unused r

section Runs

/-- A tier of leverage 100, prices of 1000 and no fee. -/
def plainContext : PlacementContext where
  userMinLeverage := none
  userMaxLeverage := none
  accountType := none
  profile := some [⟨0, none, 100⟩]
  price := some (1000, 1000)
  feeRule := none
  tradingAccess := "full"
  tradingEnabled := true
  closeOnly := false
  allowNewOrders := true
  openPositionSide := none
  sessionOpen := true
  freeMargin := 500
  wallet := .cash 500 0

def plentiful : TradingStores := opened fun _ => .cash 500 0

/-- A market order under one key. -/
def keyedCall (o : OrderId) (fails : OrderCallStep → Bool) : OrderCall :=
  .placeOrder o 7 ⟨"BUY", "MARKET", some 1, none, "k"⟩ plainContext fails

/-- A call that is refused, and its retry. -/
def refusedThenPlaced : List OrderCallAction :=
  [.call (keyedCall 1 (· = .resolveSlippage)), .call (keyedCall 2 fun _ => false)]

theorem allOrNothing_refusedThenPlaced :
    ∃ s, GuardedRun step Undivided plentiful refusedThenPlaced s ∧ s.OnePerKey ∧
      (s.AllOrNothing (s.outcome (keyedCall 3 fun _ => true)) ↔
        s.Complete (keyedCall 3 fun _ => true)) ∧
      s.commands = [2] := by
  have evaluates : (runGuarded step Undivided plentiful refusedThenPlaced).map (fun s =>
      (s.commands, s.issued)) = some ([2], [2, 1]) := by decide +kernel
  obtain ⟨s, reached, reads⟩ := Option.map_eq_some_iff.mp evaluates
  simp only [Prod.mk.injEq] at reads
  obtain ⟨commands, issued⟩ := reads
  obtain ⟨onePerKey, complete⟩ := allOrNothing_of_run (.of_eval reached)
  exact ⟨s, .of_eval reached, onePerKey, complete _ (by rw [issued]; decide), commands⟩

/-- The connection to Redis is lost after the commit, and the client retries. -/
def lateFailure : List OrderCallAction :=
  [.call (keyedCall 1 (· = .redisConnectionPostCommit)), .call (keyedCall 2 fun _ => false)]

/-- An administrator's stop order. -/
def stopOrder : OrderCall :=
  .createAdminOrder 1 7 ⟨true, true, "BUY", "buy", "STOP", "stop", some 1, none⟩ plainContext
    fun _ => false

/-- The failed call leaves a row and a lock behind and its retry places a
second order; the stop order is refused after its row is committed. -/
theorem lateFailure_leaves_order :
    (∃ s, Run step plentiful lateFailure s ∧ ¬s.OnePerKey) ∧
      ¬plentiful.AllOrNothing (plentiful.outcome (keyedCall 1 (· = .redisConnectionPostCommit))) ∧
      ¬plentiful.AllOrNothing (plentiful.outcome stopOrder) := by
  refine ⟨?_, fun whole => ?_, fun whole => ?_⟩
  · have evaluates : (runGuarded step (fun _ _ => True) plentiful lateFailure).map (fun s =>
        ((s.orders.lookup 1).map (·.idempotencyKey), (s.orders.lookup 2).map (·.idempotencyKey))) =
        some (some (some "k"), some (some "k")) := by decide +kernel
    obtain ⟨s, reached, reads⟩ := Option.map_eq_some_iff.mp evaluates
    simp only [Prod.mk.injEq, Option.map_eq_some_iff] at reads
    obtain ⟨⟨row, first, key⟩, row', second, key'⟩ := reads
    refine ⟨s, .of_eval reached, fun onePerKey => ?_⟩
    exact absurd (onePerKey 1 2 row row' "k" first second key key') (by decide)
  · exact ((accounted_opened _).placeOrder_iff (by decide) _).not.mpr (by decide +kernel) whole
  · exact ((accounted_opened _).createAdminOrder_iff (by decide) _).not.mpr (by decide +kernel) whole

end Runs

end TradingStores

end TradingPlatform
