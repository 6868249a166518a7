import TradingPlatform.Orders.FillDesk
import TradingPlatform.Orders.MarginCounted

namespace TradingPlatform

open StepRuns

/-- An effective leverage is at least one. -/
theorem LeverageLimits.effective_pos {limits : LeverageLimits} {notional leverage : ℚ}
    (gives : limits.effective notional = some leverage) : 0 < leverage := by
  unfold LeverageLimits.effective effectiveLeverage at gives
  split at gives
  next minL maxL tiers isMin isMax isTiers =>
    split_ifs at gives with invalid
    split at gives
    next s found =>
      split_ifs at gives with low
      cases Option.some.inj gives
      push Not at invalid
      have least : (1 : ℚ) ≤ s := by exact_mod_cast not_lt.mp low
      have most : (1 : ℚ) ≤ maxL := by exact_mod_cast invalid.2.1
      exact lt_of_lt_of_le one_pos (le_min (least.trans (le_max_left ..)) most)
    next => cases gives
  next => cases gives

/-- An amount is at least what the limits require for a notional. -/
def LeverageLimits.Covers (limits : LeverageLimits) (notional amount : ℚ) : Prop :=
  ∃ leverage ∈ limits.effective notional, notional / leverage ≤ amount

/-- The limits give the notional of the details no less leverage than was used
there. -/
def LeverageLimits.NoStricter (limits : LeverageLimits) (details : OrderMarginDetails) : Prop :=
  ∃ leverage ∈ limits.effective details.notional, details.effectiveLeverage ≤ leverage

/-- The margin split of an order is what was locked. -/
structure Order.Carries (order : Order) (lock : LockedOrder) : Prop where
  size : order.size = lock.req.size
  cash : order.marginFromCash = .num lock.placement.allocation.1
  bonus : order.marginFromBonus = .num lock.placement.allocation.2

structure LockedRow.Carries (row : LockedRow) (lock : LockedOrder) : Prop where
  size : row.size = lock.req.size
  cash : row.marginFromCash = lock.placement.allocation.1
  bonus : row.marginFromBonus = lock.placement.allocation.2

/-- The order has a lock and carries its split, or has none and no limits. -/
inductive Traced (origins : OrderId → Option OrderOrigin) (o : OrderId) (order : Order)
    (limits : Option LeverageLimits) : Prop
  | locked (lock : LockedOrder) (origin : origins o = some (.locked lock)) (carries : order.Carries lock)
  | unlocked (origin : origins o = some .unlocked)
      (none : ∀ carried ∈ limits, carried.minLeverage = none)

def TracedRow (origins : OrderId → Option OrderOrigin) (o : OrderId) (row : LockedRow) : Prop :=
  ∃ lock, origins o = some (.locked lock) ∧ row.Carries lock

section Traced
variable {origins later : OrderId → Option OrderOrigin} {o : OrderId} {order : Order}
  {limits : Option LeverageLimits}

theorem Traced.mono (traced : Traced origins o order limits)
    (grows : ∀ r origin, origins r = some origin → later r = some origin) :
    Traced later o order limits := by
  cases traced with
  | locked lock origin carries => exact .locked lock (grows _ _ origin) carries
  | unlocked origin none => exact .unlocked (grows _ _ origin) none

theorem Traced.congr (traced : Traced origins o order limits) {written : Order}
    (size : written.size = order.size) (cash : written.marginFromCash = order.marginFromCash)
    (bonus : written.marginFromBonus = order.marginFromBonus) : Traced origins o written none := by
  cases traced with
  | locked lock origin carries =>
    exact .locked lock origin ⟨size.trans carries.size, cash.trans carries.cash,
      bonus.trans carries.bonus⟩
  | unlocked origin _ => exact .unlocked origin (fun _ absent => nomatch absent)

theorem TracedRow.mono {row : LockedRow} (traced : TracedRow origins o row)
    (grows : ∀ r origin, origins r = some origin → later r = some origin) :
    TracedRow later o row := by
  obtain ⟨lock, origin, carries⟩ := traced
  exact ⟨lock, grows _ _ origin, carries⟩

theorem TracedRow.command {row : LockedRow} (traced : TracedRow origins o row) (read : ReadAgain) :
    Traced origins o (row.command o read).toOrder (some read.limits) := by
  obtain ⟨lock, origin, carries⟩ := traced
  refine .locked lock origin ⟨carries.size, ?_, ?_⟩
  · exact congrArg JsonNum.num carries.cash
  · exact congrArg JsonNum.num carries.bonus

end Traced

namespace FillDesk

variable {desk after : FillDesk} {cmd : LeveragedCommand} {o : OrderId}

/-- The commands that may still be filled. -/
def copies (desk : FillDesk) : List LeveragedCommand :=
  desk.commands ++ (desk.validated ++ (desk.keyed ++ desk.accepted))

/-- Everything that is in flight, in the database or in the engine carries the
split of its order's lock. -/
structure Backed (desk : FillDesk) : Prop where
  locks : ∀ o lock, desk.origins o = some (.locked lock) →
    ∃ ctx : MarginContext, lock.placement.Locks ctx lock.req
  rows : ∀ o row, desk.rows o = some row → TracedRow desk.origins o row
  fetched : ∀ o row, (o, row) ∈ desk.fetched → TracedRow desk.origins o row
  commands : ∀ cmd ∈ desk.copies, Traced desk.origins cmd.orderId cmd.toOrder (some cmd.limits)
  orders : ∀ o order, desk.store.orders o = some order → Traced desk.origins o order none

theorem start_backed : start.Backed where
  locks _ _ none := nomatch none
  rows _ _ none := nomatch none
  fetched _ _ none := nomatch none
  commands _ none := nomatch none
  orders _ _ none := nomatch none

/-- A step that knows the origin of all it adds. -/
theorem Backed.add (backed : desk.Backed)
    (grows : ∀ r origin, desk.origins r = some origin → after.origins r = some origin)
    (locks : ∀ r lock, after.origins r = some (.locked lock) →
      desk.origins r = some (.locked lock) ∨ ∃ ctx : MarginContext, lock.placement.Locks ctx lock.req)
    (rows : ∀ r row, after.rows r = some row → desk.rows r = some row ∨ TracedRow after.origins r row)
    (fetched : ∀ r row, (r, row) ∈ after.fetched →
      (r, row) ∈ desk.fetched ∨ TracedRow after.origins r row)
    (commands : ∀ cmd ∈ after.copies, cmd ∈ desk.copies ∨
      Traced after.origins cmd.orderId cmd.toOrder (some cmd.limits))
    (orders : ∀ r order, after.store.orders r = some order →
      desk.store.orders r = some order ∨ Traced after.origins r order none) : after.Backed where
  locks r lock origin := (locks r lock origin).elim (backed.locks r lock) id
  rows r row isRow := (rows r row isRow).elim (fun old => (backed.rows r row old).mono grows) id
  fetched r row isRow :=
    (fetched r row isRow).elim (fun old => (backed.fetched r row old).mono grows) id
  commands cmd isCopy :=
    (commands cmd isCopy).elim (fun old => (backed.commands cmd old).mono grows) id
  orders r order stored :=
    (orders r order stored).elim (fun old => (backed.orders r order old).mono grows) id

/-- A step that only changes the commands and the store. -/
theorem Backed.move (backed : desk.Backed) (origins : after.origins = desk.origins)
    (rows : after.rows = desk.rows) (fetched : after.fetched ⊆ desk.fetched)
    (commands : after.copies ⊆ desk.copies)
    (orders : ∀ r order, after.store.orders r = some order →
      desk.store.orders r = some order ∨ Traced after.origins r order none) : after.Backed := by
  refine backed.add ?_ ?_ ?_ ?_ ?_ orders
  · exact fun r origin old => (congrFun origins r).trans old
  · exact fun r lock new => .inl ((congrFun origins r).symm.trans new)
  · exact fun r row new => .inl ((congrFun rows r).symm.trans new)
  · exact fun r row isRow => .inl (fetched isRow)
  · exact fun cmd isCopy => .inl (commands isCopy)

/-- A write of an order record of known origin. -/
theorem Backed.setOrder (backed : desk.Backed) {st : Store} {order : Order}
    (written : st.orderRecords = (desk.store.setOrder o order).orderRecords)
    (traced : Traced desk.origins o order none) : ({ desk with store := st } : FillDesk).Backed := by
  refine backed.move rfl rfl (List.Subset.refl _) (List.Subset.refl _) fun r other stored => ?_
  have isWritten : (desk.store.setOrder o order).orders r = some other := by
    unfold Store.orders at stored ⊢
    exact written ▸ stored
  rw [Store.orders_setOrder] at isWritten
  split_ifs at isWritten with same
  · cases Option.some.inj isWritten
    exact .inr (same ▸ traced)
  · exact .inl isWritten

theorem Backed.sameOrders (backed : desk.Backed) {st : Store}
    (same : st.orderRecords = desk.store.orderRecords) : ({ desk with store := st } : FillDesk).Backed := by
  refine backed.move rfl rfl (List.Subset.refl _) (List.Subset.refl _) fun r order stored => ?_
  left
  unfold Store.orders at stored ⊢
  rw [← same]
  exact stored

theorem Backed.place {outcome : Except PlaceOrderError Placement} {req : MarginRequest}
    {template : PlaceOrderCommand} {n : ℕ} (backed : desk.Backed)
    (accepts : ∀ placement, outcome = .ok placement → ∃ ctx : MarginContext, placement.Locks ctx req)
    (placed : desk.place outcome req template n = some after) : after.Backed := by
  unfold FillDesk.place at placed
  split_ifs at placed with fresh
  cases outcome with
  | error e => cases placed
  | ok placement =>
    cases placed
    have isLock : (desk.commit ⟨req, placement⟩ template n).origins template.orderId =
        some (.locked ⟨req, placement⟩) := Function.update_self ..
    refine backed.add ?_ ?_ ?_ (fun r row isRow => .inl isRow) ?_ (fun r order stored => .inl stored)
    · intro r origin old
      have other : r ≠ template.orderId := by
        rintro rfl
        exact nomatch fresh.symm.trans old
      exact (Function.update_of_ne other ..).trans old
    · intro r lock origin
      by_cases same : r = template.orderId
      · subst same
        cases isLock.symm.trans origin
        exact .inr (accepts placement rfl)
      · exact .inl ((Function.update_of_ne same ..).symm.trans origin)
    · intro r row isRow
      by_cases same : r = template.orderId
      · subst same
        have inserted := (Function.update_self ..).symm.trans isRow
        cases Option.some.inj inserted
        exact .inr ⟨_, isLock, ⟨rfl, rfl, rfl⟩⟩
      · exact .inl ((Function.update_of_ne same ..).symm.trans isRow)
    · intro cmd isCopy
      rcases List.mem_append.mp isCopy with isCommand | isOther
      · rcases List.mem_append.mp isCommand with published | old
        · cases List.eq_of_mem_replicate published
          exact .inr (.locked _ isLock ⟨rfl, rfl, rfl⟩)
        · exact .inl (List.mem_append_left _ old)
      · exact .inl (List.mem_append_right _ isOther)

theorem step_backed {action : FillDeskAction} (backed : desk.Backed)
    (taken : desk.step action = some after) : after.Backed := by
  cases action with
  | placeOrder ctx req template n =>
    exact backed.place (fun placement accepted => ⟨_, (placeOrder_ok accepted).1⟩) taken
  | createAdminOrder ctx req template n =>
    exact backed.place (fun placement accepted => ⟨_, createAdminOrder_locks accepted⟩) taken
  | coreApi req n =>
    simp only [step] at taken
    split_ifs at taken with accepted
    cases taken
    refine backed.add ?_ ?_ ?_ (fun r row isRow => .inl isRow) ?_ (fun r order stored => .inl stored)
    · intro r origin old
      have other : r ≠ req.orderId := by
        rintro rfl
        exact nomatch accepted.1.symm.trans old
      exact (Function.update_of_ne other ..).trans old
    · intro r lock origin
      by_cases same : r = req.orderId
      · subst same
        exact nomatch (Function.update_self ..).symm.trans origin
      · exact .inl ((Function.update_of_ne same ..).symm.trans origin)
    · exact fun r row isRow => .inl isRow
    · intro cmd isCopy
      rcases List.mem_append.mp isCopy with isCommand | isOther
      · rcases List.mem_append.mp isCommand with published | old
        · cases List.eq_of_mem_replicate published
          exact .inr (.unlocked (Function.update_self ..) fun _ carried => by cases carried; rfl)
        · exact .inl (List.mem_append_left _ old)
      · exact .inl (List.mem_append_right _ isOther)
  | settle r status =>
    cases taken
    refine backed.add (fun _ _ => id) (fun _ _ => .inl) ?_ (fun _ _ => .inl) (fun _ => .inl)
      (fun _ _ => .inl)
    intro q row isRow
    by_cases same : q = r
    · subst same
      have settled := (Function.update_self ..).symm.trans isRow
      obtain ⟨old, isOld, rfl⟩ := Option.map_eq_some_iff.mp settled
      obtain ⟨lock, origin, carries⟩ := backed.rows q old isOld
      exact .inr ⟨lock, origin, ⟨carries.size, carries.cash, carries.bonus⟩⟩
    · exact .inl ((Function.update_of_ne same ..).symm.trans isRow)
  | fetch ids =>
    simp only [step] at taken
    split_ifs at taken
    cases taken
    refine backed.add (fun _ _ => id) (fun _ _ => .inl) (fun _ _ => .inl) ?_ (fun _ => .inl)
      (fun _ _ => .inl)
    intro q row isRow
    rcases List.mem_append.mp isRow with isNew | isOld
    · obtain ⟨r, _, found⟩ := List.mem_filterMap.mp isNew
      obtain ⟨other, isOther, kept⟩ := Option.bind_eq_some_iff.mp found
      split_ifs at kept
      cases Option.some.inj kept
      exact .inr (backed.rows q row isOther)
    · exact .inl isOld
  | republish r row read n =>
    simp only [step] at taken
    split_ifs at taken with isFetched
    cases taken
    refine backed.add (fun _ _ => id) (fun _ _ => .inl) (fun _ _ => .inl)
      (fun _ _ isRow => .inl (List.mem_of_mem_erase isRow)) ?_ (fun _ _ => .inl)
    intro cmd isCopy
    rcases List.mem_append.mp isCopy with isCommand | isOther
    · rcases List.mem_append.mp isCommand with published | old
      · cases List.eq_of_mem_replicate published
        exact .inr ((backed.fetched r row isFetched.1).command read)
      · exact .inl (List.mem_append_left _ old)
    · exact .inl (List.mem_append_right _ isOther)
  | validate cmd valid =>
    simp only [step] at taken
    split_ifs at taken with isCommand
    · cases taken
      refine backed.move rfl rfl (List.Subset.refl _) (fun other isCopy => ?_) (fun _ _ => .inl)
      simp only [copies, List.mem_append, List.mem_cons] at isCopy ⊢
      rcases isCopy with inFlight | (rfl | isValidated) | rest
      · exact .inl (List.mem_of_mem_erase inFlight)
      · exact .inl isCommand
      · exact .inr (.inl isValidated)
      · exact .inr (.inr rest)
    · cases taken
      refine backed.move rfl rfl (List.Subset.refl _) (fun other isCopy => ?_) (fun _ _ => .inl)
      simp only [copies, List.mem_append] at isCopy ⊢
      exact isCopy.imp_left List.mem_of_mem_erase
  | storeKey cmd =>
    simp only [step] at taken
    split_ifs at taken with isValidated
    cases taken
    refine backed.move rfl rfl (List.Subset.refl _) (fun other isCopy => ?_) (fun _ _ => .inl)
    simp only [copies, List.mem_append, List.mem_cons] at isCopy ⊢
    rcases isCopy with inFlight | validated | (rfl | keyed) | accepted
    · exact .inl inFlight
    · exact .inr (.inl (List.mem_of_mem_erase validated))
    · exact .inr (.inl isValidated)
    · exact .inr (.inr (.inl keyed))
    · exact .inr (.inr (.inr accepted))
  | storeOrder cmd =>
    simp only [step] at taken
    split_ifs at taken with isKeyed
    cases taken
    have known : cmd ∈ desk.copies := by
      simp only [copies, List.mem_append]
      exact .inr (.inr (.inl isKeyed))
    have written := backed.setOrder rfl
      ((backed.commands cmd known).congr rfl rfl rfl)
    refine written.move rfl rfl (List.Subset.refl _) (fun other isCopy => ?_) (fun _ _ => .inl)
    simp only [copies, List.mem_append, List.mem_cons] at isCopy ⊢
    rcases isCopy with inFlight | validated | keyed | rfl | accepted
    · exact .inl inFlight
    · exact .inr (.inl validated)
    · exact .inr (.inr (.inl (List.mem_of_mem_erase keyed)))
    · exact .inr (.inr (.inl isKeyed))
    · exact .inr (.inr (.inr accepted))
  | expireKey key =>
    cases taken
    exact backed.move rfl rfl (List.Subset.refl _) (List.Subset.refl _) (fun _ _ => .inl)
  | fill cmd call =>
    simp only [step] at taken
    split_ifs at taken
    obtain ⟨outcome, called, rfl⟩ := Option.map_eq_some_iff.mp taken
    unfold runFill at called
    split_ifs at called
    cases Option.some.inj called
    rcases atomicFillOrder_orders desk.store (fillArgs cmd call) call.existing call.old with
      ⟨same, _⟩ | ⟨order, stored, _, written⟩
    · exact backed.sameOrders same
    · exact backed.setOrder written ((backed.orders _ _ stored).congr rfl rfl rfl)
  | reject cmd timestampMs =>
    simp only [step] at taken
    split_ifs at taken with accepted
    cases taken
    have known : cmd ∈ desk.copies := by
      simp only [copies, List.mem_append]
      exact .inr (.inr (.inr accepted))
    exact backed.setOrder rfl ((backed.commands cmd known).congr rfl rfl rfl)
  | cancel r timestampMs =>
    cases taken
    unfold atomicCancelOrder
    split
    next => exact backed.sameOrders rfl
    next order stored =>
      split_ifs
      · exact backed.sameOrders rfl
      · exact backed.setOrder rfl ((backed.orders _ _ stored).congr rfl rfl rfl)
  | positions store =>
    cases taken
    exact backed.sameOrders rfl

/-- Whatever copy of an order the engine calls the fill script for, at whatever
price, the order carries the split that was locked for it, which is not zero. The
lock is what the limits of the copy require at the price of the lock exactly when
they give no less leverage there than the limits it was computed with. -/
theorem filled_backed_iff {actions : List FillDeskAction} (run : Run step start actions desk)
    (accepted : cmd ∈ desk.accepted) {call : FillCall}
    {outcome : ScriptOutcome FillError FillResult} (called : desk.runFill cmd call = some outcome)
    {order : Order} (stored : desk.store.orders cmd.orderId = some order) :
    ∃ lock, desk.origins cmd.orderId = some (.locked lock) ∧ order.Carries lock ∧
      0 < lock.placement.allocation.1 + lock.placement.allocation.2 ∧
      (cmd.limits.Covers (order.size * lock.placement.details.executionPrice)
          (lock.placement.allocation.1 + lock.placement.allocation.2) ↔
        cmd.limits.NoStricter lock.placement.details) := by
  have backed : desk.Backed := run.invariant start_backed fun _ _ _ _ taken held => step_backed held taken
  have known : cmd ∈ desk.copies := by
    simp only [copies, List.mem_append]
    exact .inr (.inr (.inr accepted))
  cases backed.commands cmd known with
  | unlocked _ noLimits =>
    have noLeverage : (fillArgs cmd call).effectiveLeverage = none := by
      have noMinimum := noLimits _ rfl
      unfold fillArgs LeverageLimits.effective effectiveLeverage
      rw [noMinimum]
      rfl
    unfold runFill at called
    rw [if_pos noLeverage] at called
    cases called
  | locked lock origin _ =>
    obtain ⟨ctx, locks⟩ := backed.locks _ lock origin
    obtain ⟨notional, _, positive, required, _⟩ := computeOrderMarginDetails_ok locks.computed
    have minimum := locks.minimum
    unfold minRequiredMarginUsd at minimum
    have carries : order.Carries lock := by
      cases backed.orders _ _ stored with
      | locked other isOther carries =>
        cases origin.symm.trans isOther
        exact carries
      | unlocked isOther _ => exact nomatch origin.symm.trans isOther
    have notional_pos : 0 < lock.placement.details.notional := by
      have quotient : 0 < lock.placement.details.notional / lock.placement.details.effectiveLeverage := by
        linarith
      exact (div_pos_iff_of_pos_right positive).mp quotient
    refine ⟨lock, origin, carries, by linarith [locks.locked], ?_⟩
    rw [carries.size, ← notional, locks.locked, required]
    refine exists_congr fun leverage => and_congr_right fun gives => ?_
    exact div_le_div_iff_of_pos_left notional_pos (LeverageLimits.effective_pos gives) positive

section Resync

def lostTemplate : PlaceOrderCommand where
  orderId := 1
  userId := 7
  symbol := "PAIR"
  side := .BUY
  orderType := .MARKET
  size := 1000
  idempotencyKey := "k"

/-- The row of an order placed at 150 with leverage 100. -/
def lostRow : LockedRow where
  userId := 7
  symbol := "PAIR"
  side := .BUY
  orderType := .MARKET
  size := 1000
  price := none
  stopPrice := none
  marginFromCash := 1500
  marginFromBonus := 0
  requestedBid := none
  requestedAsk := none
  maxSlippageBps := none
  status := .pending

def readTier (maxLeverage : ℤ) : ReadAgain :=
  ⟨none, none, some 1, some 500, some [⟨0, none, maxLeverage⟩]⟩

/-- The order as it is published again after its tier got this leverage. -/
def resent (maxLeverage : ℤ) : LeveragedCommand := lostRow.command 1 (readTier maxLeverage)

/-- The command of a placed order is lost, its row is synced, and the engine
accepts it. -/
def resync (maxLeverage : ℤ) : List FillDeskAction :=
  [.placeOrder sampleContext sampleRequest lostTemplate 0, .fetch [1],
    .republish 1 lostRow (readTier maxLeverage) 1, .validate (resent maxLeverage) true,
    .storeKey (resent maxLeverage), .storeOrder (resent maxLeverage)]

def resentCall : FillCall := ⟨150, 1000, .uuid 1, [], []⟩

def OrderOrigin.lock : OrderOrigin → Option LockedOrder
  | .locked lock => some lock
  | .unlocked => none

theorem resync_reached (maxLeverage : ℤ) (margin : ℚ)
    (evaluates : (runGuarded step (fun _ _ => True) start (resync maxLeverage)).map
      (fun desk => (decide (resent maxLeverage ∈ desk.accepted),
        ((desk.origins 1).bind OrderOrigin.lock).map fun lock =>
          (lock.placement.details.executionPrice, lock.placement.allocation),
        decide (desk.store.orders 1 = some (resent maxLeverage).toOrder),
        decide ((desk.runFill (resent maxLeverage) resentCall).map
          (fun outcome => ((outcome.store.orders 1).map (·.status),
            (outcome.store.hash (.uuid 1)).bind (·.margin))) = some (some .FILLED, some margin)))) =
      some (true, some (150, 1500, 0), true, true)) :
    ∃ desk lock outcome, Run step start (resync maxLeverage) desk ∧
      resent maxLeverage ∈ desk.accepted ∧ desk.origins 1 = some (.locked lock) ∧
      lock.placement.details.executionPrice = 150 ∧ lock.placement.allocation = (1500, 0) ∧
      desk.store.orders 1 = some (resent maxLeverage).toOrder ∧
      desk.runFill (resent maxLeverage) resentCall = some outcome ∧
      (outcome.store.orders 1).map (·.status) = some .FILLED ∧
      (outcome.store.hash (.uuid 1)).bind (·.margin) = some margin := by
  obtain ⟨desk, reached, reads⟩ := Option.map_eq_some_iff.mp evaluates
  simp only [Prod.mk.injEq, decide_eq_true_eq] at reads
  obtain ⟨accepted, locked, stored, filled⟩ := reads
  obtain ⟨lock, isLock, amounts⟩ := Option.map_eq_some_iff.mp locked
  obtain ⟨origin, isOrigin, isLocked⟩ := Option.bind_eq_some_iff.mp isLock
  obtain ⟨outcome, called, wrote⟩ := Option.map_eq_some_iff.mp filled
  simp only [Prod.mk.injEq] at amounts wrote
  refine ⟨desk, lock, outcome, .of_eval reached, accepted, ?_, amounts.1, amounts.2,
    stored, called, wrote.1, wrote.2⟩
  cases origin with
  | locked other => cases isLocked; exact isOrigin
  | unlocked => cases isLocked

/-- With the leverage halved between placement and sync a position with a margin
of 3000 is created on a lock of 1500. -/
theorem filled_halfBacked : ∃ desk lock outcome, Run step start (resync 50) desk ∧
    resent 50 ∈ desk.accepted ∧ desk.origins 1 = some (.locked lock) ∧
    desk.runFill (resent 50) resentCall = some outcome ∧
    (outcome.store.orders 1).map (·.status) = some .FILLED ∧
    (outcome.store.hash (.uuid 1)).bind (·.margin) = some 3000 ∧
    lock.placement.allocation = (1500, 0) ∧
    ¬ (resent 50).limits.Covers (1000 * lock.placement.details.executionPrice) 1500 := by
  obtain ⟨desk, lock, outcome, run, accepted, origin, price, allocation, _, called, filled, margin⟩ :=
    resync_reached 50 3000 (by decide +kernel)
  refine ⟨desk, lock, outcome, run, accepted, origin, called, filled, margin, allocation, ?_⟩
  rintro ⟨leverage, gives, covers⟩
  have fifty : (resent 50).limits.effective (1000 * 150) = some 50 := by decide +kernel
  rw [price, fifty] at gives
  cases gives
  rw [price] at covers
  norm_num at covers

theorem filled_backed_resent : ∃ desk lock, Run step start (resync 100) desk ∧
    desk.origins 1 = some (.locked lock) ∧
    0 < lock.placement.allocation.1 + lock.placement.allocation.2 := by
  obtain ⟨desk, lock, outcome, run, accepted, origin, _, _, stored, called, _⟩ :=
    resync_reached 100 1500 (by decide +kernel)
  obtain ⟨other, isOther, _, positive, _⟩ := filled_backed_iff run accepted called stored
  cases origin.symm.trans isOther
  exact ⟨desk, lock, run, origin, positive⟩

end Resync

end FillDesk

end TradingPlatform
