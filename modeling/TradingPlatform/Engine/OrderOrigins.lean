import TradingPlatform.Engine.PricedEngine

namespace TradingPlatform

/-- The fields of an order that protect the price of its fill. -/
structure FillTerms where
  id : OrderId
  symbol : Symbol
  groupId : Option GroupId
  side : Side
  orderType : OrderType
  limitPrice : JsonNum
  requestedBid : Option ℚ
  requestedAsk : Option ℚ
  maxSlippageBps : Option ℤ
  deriving DecidableEq, Repr

def Order.fillTerms (order : Order) : FillTerms where
  id := order.id
  symbol := order.symbol
  groupId := order.groupId
  side := order.side
  orderType := order.orderType
  limitPrice := order.limitPrice
  requestedBid := order.requestedBid
  requestedAsk := order.requestedAsk
  maxSlippageBps := order.maxSlippageBps

/-- What can be known of the commands, order terms, ticks, ids under a symbol and
fill prices that an engine works with. -/
structure Facts where
  command : PlaceOrderCommand → Prop
  terms : FillTerms → Prop
  tick : GroupTick → Prop
  symbol : OrderId → Symbol → Prop
  price : FillTerms → ℚ → Prop

/-- The facts account for what the engine makes of them. -/
structure Facts.Closed (k : Facts) : Prop where
  terms : ∀ cmd, k.command cmd → k.terms cmd.toOrder.fillTerms
  symbol : ∀ cmd, k.command cmd → k.symbol cmd.orderId (normalizeSymbol cmd.symbol)
  price : ∀ order tick, k.terms order.fillTerms → k.tick tick → k.symbol order.id tick.1.symbol →
    shouldFill tick.1 tick.2 order = true →
    ¬ (order.orderType = .MARKET ∧
      slippageExceeded order (tick.1.fillPrice order.side) = true) →
    k.price order.fillTerms (tick.1.fillPrice order.side)

section Copies
variable {k : Facts} {e after : Engine} {t : ℕ} {next : Task} {input : Input}

/-- A tick loop with a known tick and ids of its symbol. -/
def TickRest.Within (k : Facts) (rest : TickRest) : Prop :=
  k.tick (rest.tick, rest.groupId) ∧ ∀ o ∈ rest.ids, k.symbol o rest.tick.symbol

/-- A task that belongs to no tick loop or to a known one. -/
def Resumes (k : Facts) (rest : Option TickRest) : Prop := ∀ r ∈ rest, r.Within k

/-- What a task carries is known. -/
def Task.Carries (k : Facts) : Task → Prop
  | .placeGetKey cmd => k.command cmd
  | .placeSetKey cmd => k.command cmd
  | .placeSetOrder cmd => k.command cmd
  | .placeAddPending cmd => k.command cmd
  | .placeAddCache cmd => k.command cmd
  | .placeResolvePrice cmd => k.command cmd ∧ cmd.orderType = .MARKET
  | .fillScript order price _ rest =>
    k.terms order.fillTerms ∧ k.price order.fillTerms price ∧ Resumes k rest
  | .filledUpdateCache order _ rest => k.terms order.fillTerms ∧ Resumes k rest
  | .filledRemovePending order rest => k.terms order.fillTerms ∧ Resumes k rest
  | .rejectSetOrder order rest => k.terms order.fillTerms ∧ Resumes k rest
  | .rejectUpdateCache order rest => k.terms order.fillTerms ∧ Resumes k rest
  | .rejectRemovePending order rest => k.terms order.fillTerms ∧ Resumes k rest
  | .rejectZrem order rest => k.terms order.fillTerms ∧ Resumes k rest
  | .tickPending tick groupId => k.tick (tick, groupId)
  | .tickOrders rest => rest.Within k
  | .done => True
  | .cancelRead _ _ => True
  | .cancelScript _ _ => True
  | .cancelRemovePending _ _ => True

/-- Every copy of an order has known terms under its own id, and every pending
set holds ids of its symbol. -/
structure Engine.Copied (k : Facts) (e : Engine) : Prop where
  stored : ∀ o, ∀ order ∈ e.store.orders o, order.id = o ∧ k.terms order.fillTerms
  cached : ∀ o, ∀ order ∈ e.cache.orders o, order.id = o ∧ k.terms order.fillTerms
  listed : ∀ symbol, ∀ o ∈ e.store.pending symbol, k.symbol o symbol
  pending : ∀ symbol, ∀ o ∈ e.cache.pendingOrders symbol, k.symbol o symbol

theorem carries_resume {rest : Option TickRest} (resumes : Resumes k rest) :
    (Task.resume rest).Carries k := by
  cases rest with
  | none => trivial
  | some rest => exact resumes rest rfl

theorem carries_execute {order : Order} {price : ℚ} {eff : Option ℚ} {rest : Option TickRest}
    (known : k.terms order.fillTerms) (resumes : Resumes k rest)
    (fits : ¬ (order.orderType = .MARKET ∧ slippageExceeded order price = true) →
      k.price order.fillTerms price) : (Task.execute order price eff rest).Carries k := by
  unfold Task.execute
  cases eff.filter (0 < ·) with
  | none => exact carries_resume resumes
  | some eff =>
    dsimp only
    split_ifs with exceeded
    · exact ⟨known, resumes⟩
    · exact ⟨known, fits exceeded, resumes⟩

section LastTicks
variable (c : OrderCache) (symbol : Symbol) (o : OrderId) (order : Order)

theorem lastTicks_addPendingOrder :
    (c.addPendingOrder symbol o order).lastTicks = c.lastTicks := by
  simp only [OrderCache.addPendingOrder]

theorem lastTicks_removePendingOrder :
    (c.removePendingOrder symbol o).lastTicks = c.lastTicks := by
  simp only [OrderCache.removePendingOrder]

end LastTicks

namespace Engine

/-- A command that leaves the caches alone and lists no new id. -/
theorem Copied.setStore (copied : e.Copied k)
    (stored : ∀ o, ∀ order ∈ after.store.orders o, order.id = o ∧ k.terms order.fillTerms)
    (listed : ∀ symbol, ∀ o ∈ after.store.pending symbol, o ∈ e.store.pending symbol)
    (cache : after.cache = e.cache) : after.Copied k where
  stored := stored
  cached := by
    rw [cache]
    exact copied.cached
  listed symbol o isListed := copied.listed symbol o (listed symbol o isListed)
  pending := by
    rw [cache]
    exact copied.pending

theorem Copied.zaddPending (copied : e.Copied k) {symbol : Symbol} {o : OrderId}
    (sent : k.symbol o symbol) : Copied k { e with store := e.store.zaddPending symbol o } where
  stored := copied.stored
  cached := copied.cached
  listed s r isListed := by
    rcases (mem_zaddPending e.store).mp isListed with ⟨rfl, rfl⟩ | before
    · exact sent
    · exact copied.listed s r before
  pending := copied.pending

/-- An order is written to the store with known terms. -/
theorem Copied.stored_setOrder (copied : e.Copied k) (o : OrderId) (order : Order) {st : Store}
    (orders : ∀ r, st.orders r = if r = o then some order else e.store.orders r)
    (known : order.id = o ∧ k.terms order.fillTerms) :
    ∀ r, ∀ other ∈ st.orders r, other.id = r ∧ k.terms other.fillTerms := by
  intro r other isStored
  rw [orders] at isStored
  split_ifs at isStored with same
  · cases isStored
    exact same ▸ known
  · exact copied.stored r other isStored

theorem Copied.setCache (copied : e.Copied k) (o : OrderId) (copy : Option Order)
    (store : after.store = e.store)
    (cache : after.cache.orders = Function.update e.cache.orders o copy)
    (known : ∀ order ∈ copy, order.id = o ∧ k.terms order.fillTerms)
    (pending : ∀ symbol, ∀ r ∈ after.cache.pendingOrders symbol, k.symbol r symbol) :
    after.Copied k where
  stored := by
    rw [store]
    exact copied.stored
  cached r other isCached := by
    rw [cache] at isCached
    by_cases same : r = o
    · subst same
      rw [Function.update_self] at isCached
      exact known other isCached
    · rw [Function.update_of_ne same] at isCached
      exact copied.cached r other isCached
  listed := by
    rw [store]
    exact copied.listed
  pending := pending

theorem Copied.removePendingOrder (copied : e.Copied k) (symbol : Symbol) (o : OrderId) :
    Copied k { e with cache := e.cache.removePendingOrder symbol o } := by
  refine copied.setCache o none rfl rfl (by simp) ?_
  intro s r isPending
  exact copied.pending s r (mem_removePendingOrder e.cache |>.mp isPending).1

theorem Copied.addPendingOrder (copied : e.Copied k) {symbol : Symbol} {o : OrderId}
    {order : Order} (known : order.id = o ∧ k.terms order.fillTerms)
    (sent : k.symbol o (normalizeSymbol symbol)) :
    Copied k { e with cache := e.cache.addPendingOrder symbol o order } := by
  have cached : (e.cache.addPendingOrder symbol o order).orders =
      Function.update e.cache.orders o (some order) := by
    simp only [OrderCache.addPendingOrder]
  refine copied.setCache o (some order) rfl cached (by simpa using known) ?_
  intro s r isPending
  simp only [mem_addPendingOrder] at isPending
  rcases isPending with ⟨rfl, rfl⟩ | before
  · exact sent
  · exact copied.pending s r before

theorem Copied.updateOrder (copied : e.Copied k) {order : Order}
    (known : k.terms order.fillTerms) :
    Copied k { e with cache := e.cache.updateOrder order } := by
  refine copied.setCache order.id (some order) rfl rfl ?_ copied.pending
  intro copy isCopy
  cases isCopy
  exact ⟨rfl, known⟩

theorem runFillScript_ways (input : Input) (order : Order) (fillPrice eff : ℚ)
    (rest : Option TickRest) :
    (e.runFillScript input order fillPrice eff rest).1.store =
        (atomicFillOrder e.store (fillArgs order fillPrice eff input) input.existing
          input.old).store ∧
      (e.runFillScript input order fillPrice eff rest).1.cache = e.cache ∧
      ((e.runFillScript input order fillPrice eff rest).2 =
          .filledUpdateCache order fillPrice rest ∨
        (e.runFillScript input order fillPrice eff rest).2 = .resume rest) := by
  unfold runFillScript
  generalize atomicFillOrder e.store _ _ _ = reply
  cases reply with
  | success store result => exact ⟨rfl, rfl, .inl rfl⟩
  | raised store => exact ⟨rfl, rfl, .inr rfl⟩
  | error store error =>
    by_cases before : error = .orderNotPending .FILLED
    · subst before
      exact ⟨rfl, rfl, .inl rfl⟩
    · cases error with
      | missingEffectiveLeverage => exact ⟨rfl, rfl, .inr rfl⟩
      | orderNotFound => exact ⟨rfl, rfl, .inr rfl⟩
      | limitPriceNotMet => exact ⟨rfl, rfl, .inr rfl⟩
      | orderNotPending status =>
        cases status with
        | FILLED => exact absurd rfl before
        | _ => exact ⟨rfl, rfl, .inr rfl⟩

theorem Copied.runFillScript (copied : e.Copied k) (input : Input) (order : Order)
    (fillPrice eff : ℚ) (rest : Option TickRest) :
    (e.runFillScript input order fillPrice eff rest).1.Copied k := by
  obtain ⟨store, cache, -⟩ := runFillScript_ways (e := e) input order fillPrice eff rest
  rcases atomicFillOrder_left e.store (fillArgs order fillPrice eff input) input.existing
    input.old with same | ⟨stored, el, accepted, left⟩
  · rw [same] at store
    refine copied.setStore ?_ ?_ cache
    · rw [store]
      exact copied.stored
    · rw [store]
      exact fun _ _ => id
  · rw [left] at store
    have records : (e.runFillScript input order fillPrice eff rest).1.store.orderRecords =
        (e.store.markFilled (fillArgs order fillPrice eff input) stored).orderRecords := by
      rw [store]
      exact Fill.sameOrders_applyToPositions
    have ignores : IgnoresPositions Store.pending := fun _ _ _ _ _ _ => rfl
    have pending : (e.runFillScript input order fillPrice eff rest).1.store.pending =
        (e.store.markFilled (fillArgs order fillPrice eff input) stored).pending := by
      rw [store]
      exact Fill.read_applyToPositions ignores
    refine copied.setStore (copied.stored_setOrder order.id
      (stored.filled (fillArgs order fillPrice eff input)) ?_
      (copied.stored _ stored accepted.stored)) ?_ cache
    · intro r
      rw [← Store.orders_setOrder]
      unfold Store.orders
      rw [records]
      rfl
    · intro symbol o isListed
      rw [pending] at isListed
      exact (mem_zremPending _ |>.mp isListed).1

theorem Copied.cancelScript (copied : e.Copied k) (o : OrderId) (timestampMs : Millis) :
    Copied k { e with store := (atomicCancelOrder e.store o timestampMs).2 } := by
  unfold atomicCancelOrder
  cases stored : e.store.orders o with
  | none => exact copied
  | some order =>
    dsimp only
    split_ifs
    · exact copied
    · refine copied.setStore (copied.stored_setOrder o (order.canceled timestampMs) ?_
        (copied.stored o order stored)) ?_ rfl
      · intro r
        exact Store.orders_setOrder ..
      · intro symbol r isListed
        exact (mem_zremPending _ |>.mp isListed).1

/-- A command that reads no price and starts no tick loop passes on what its
task carries. -/
theorem advance_copied {task : Task} (copied : e.Copied k)
    (closed : k.Closed) (carries : task.Carries k)
    (unpriced : ∀ cmd, task ≠ .placeResolvePrice cmd)
    (noTick : ∀ tick groupId, task ≠ .tickPending tick groupId)
    (taken : e.advance input task = some (after, next)) :
    after.Copied k ∧ next.Carries k ∧ after.cache.lastTicks = e.cache.lastTicks := by
  cases task with
  | done => cases taken
  | placeGetKey cmd =>
    simp only [advance] at taken
    split at taken
    · cases taken
      exact ⟨copied, trivial, rfl⟩
    · cases taken
      split_ifs
      · exact ⟨copied, carries, rfl⟩
      · exact ⟨copied, trivial, rfl⟩
  | placeSetKey cmd =>
    cases taken
    exact ⟨⟨copied.stored, copied.cached, copied.listed, copied.pending⟩, carries, rfl⟩
  | placeSetOrder cmd =>
    cases taken
    refine ⟨copied.setStore (copied.stored_setOrder cmd.orderId cmd.toOrder ?_
      ⟨rfl, closed.terms cmd carries⟩) (fun _ _ => id) rfl, carries, rfl⟩
    intro r
    exact Store.orders_setOrder ..
  | placeAddPending cmd =>
    cases taken
    exact ⟨copied.zaddPending (closed.symbol cmd carries), carries, rfl⟩
  | placeAddCache cmd =>
    cases taken
    have sent : k.symbol cmd.orderId (normalizeSymbol cmd.toOrder.symbol) := by
      have twice : normalizeSymbol cmd.toOrder.symbol = normalizeSymbol cmd.symbol :=
        normalizeSymbol_normalizeSymbol cmd.symbol
      rw [twice]
      exact closed.symbol cmd carries
    have known : cmd.toOrder.id = cmd.orderId ∧ k.terms cmd.toOrder.fillTerms :=
      ⟨rfl, closed.terms cmd carries⟩
    refine ⟨copied.addPendingOrder known sent, ?_,
      lastTicks_addPendingOrder e.cache cmd.toOrder.symbol cmd.orderId cmd.toOrder⟩
    by_cases isMarket : cmd.orderType = .MARKET
    · rw [if_pos isMarket]
      exact ⟨carries, isMarket⟩
    · rw [if_neg isMarket]
      trivial
  | placeResolvePrice cmd => exact absurd rfl (unpriced cmd)
  | fillScript order fillPrice eff rest =>
    simp only [advance] at taken
    split_ifs at taken
    obtain ⟨isKnown, -, resumes⟩ := carries
    have writes := copied.runFillScript input order fillPrice eff rest
    obtain ⟨-, cache, goesOn⟩ := runFillScript_ways (e := e) input order fillPrice eff rest
    rw [Option.some.inj taken] at writes cache goesOn
    refine ⟨writes, ?_, congrArg OrderCache.lastTicks cache⟩
    rcases goesOn with updates | continues
    · have same : next = .filledUpdateCache order fillPrice rest := updates
      rw [same]
      exact ⟨isKnown, resumes⟩
    · have same : next = .resume rest := continues
      rw [same]
      exact carries_resume resumes
  | filledUpdateCache order fillPrice rest =>
    cases taken
    exact ⟨copied.updateOrder carries.1, carries, rfl⟩
  | filledRemovePending order rest =>
    cases taken
    exact ⟨copied.removePendingOrder order.symbol order.id, carries_resume carries.2,
      lastTicks_removePendingOrder ..⟩
  | rejectSetOrder order rest =>
    cases taken
    refine ⟨copied.setStore (copied.stored_setOrder order.id
      (order.rejected "SLIPPAGE_EXCEEDED" input.timestampMs) ?_ ⟨rfl, carries.1⟩)
      (fun _ _ => id) rfl, carries, rfl⟩
    intro r
    exact Store.orders_setOrder ..
  | rejectUpdateCache order rest =>
    cases taken
    exact ⟨copied.updateOrder carries.1, carries, rfl⟩
  | rejectRemovePending order rest =>
    cases taken
    exact ⟨copied.removePendingOrder order.symbol order.id, carries,
      lastTicks_removePendingOrder ..⟩
  | rejectZrem order rest =>
    cases taken
    refine ⟨copied.setStore copied.stored ?_ rfl, carries_resume carries.2, rfl⟩
    intro symbol o isListed
    exact ((mem_zremPending e.store).mp isListed).1
  | tickPending tick groupId => exact absurd rfl (noTick tick groupId)
  | tickOrders rest =>
    obtain ⟨tick, groupId, ids⟩ := rest
    cases ids with
    | nil =>
      cases taken
      exact ⟨copied, trivial, rfl⟩
    | cons o ids =>
      have later : TickRest.Within k ⟨tick, groupId, ids⟩ :=
        ⟨carries.1, fun r isLater => carries.2 r (List.mem_cons_of_mem _ isLater)⟩
      simp only [advance] at taken
      cases isCached : e.cache.orders o with
      | none =>
        simp only [isCached] at taken
        cases taken
        exact ⟨copied, later, rfl⟩
      | some order =>
        obtain ⟨id, isKnown⟩ := copied.cached o order isCached
        simp only [isCached] at taken
        split_ifs at taken with fills
        · cases taken
          refine ⟨copied, carries_execute isKnown ?_ ?_, rfl⟩
          · intro r isRest
            cases isRest
            exact later
          · have symbol : k.symbol order.id tick.symbol := id ▸ carries.2 o List.mem_cons_self
            exact closed.price order (tick, groupId) isKnown carries.1 symbol fills
        · cases taken
          exact ⟨copied, later, rfl⟩
  | cancelRead o userId =>
    simp only [advance] at taken
    cases read : (e.cache.orders o).orElse fun _ => e.store.orders o with
    | none =>
      simp only [read] at taken
      cases taken
      exact ⟨copied, trivial, rfl⟩
    | some order =>
      simp only [read] at taken
      split_ifs at taken
      · cases taken
        exact ⟨copied, trivial, rfl⟩
      · cases taken
        exact ⟨copied, trivial, rfl⟩
  | cancelScript o order =>
    have writes := copied.cancelScript o input.timestampMs
    simp only [advance] at taken
    generalize atomicCancelOrder e.store o input.timestampMs = reply at taken writes
    obtain ⟨canceled, store⟩ := reply
    cases canceled
    · cases taken
      exact ⟨writes, trivial, rfl⟩
    · cases taken
      exact ⟨writes, trivial, rfl⟩
  | cancelRemovePending o order =>
    cases taken
    exact ⟨copied.removePendingOrder order.symbol o, trivial, lastTicks_removePendingOrder ..⟩

end Engine

/-- The other facts say at least as much. -/
structure Facts.Within (k l : Facts) : Prop where
  command : ∀ cmd, k.command cmd → l.command cmd
  terms : ∀ terms, k.terms terms → l.terms terms
  tick : ∀ tick, k.tick tick → l.tick tick
  symbol : ∀ o symbol, k.symbol o symbol → l.symbol o symbol
  price : ∀ terms price, k.price terms price → l.price terms price

theorem TickRest.Within.mono {l : Facts} (more : k.Within l) {rest : TickRest}
    (within : rest.Within k) : rest.Within l :=
  ⟨more.tick _ within.1, fun o isLater => more.symbol _ _ (within.2 o isLater)⟩

theorem Resumes.mono {l : Facts} (more : k.Within l) {rest : Option TickRest}
    (resumes : Resumes k rest) : Resumes l rest :=
  fun r isRest => (resumes r isRest).mono more

theorem Task.Carries.mono {l : Facts} (more : k.Within l) {task : Task}
    (carries : task.Carries k) : task.Carries l := by
  cases task with
  | placeGetKey cmd | placeSetKey cmd | placeSetOrder cmd | placeAddPending cmd
  | placeAddCache cmd => exact more.command cmd carries
  | placeResolvePrice cmd => exact ⟨more.command cmd carries.1, carries.2⟩
  | fillScript order price eff rest =>
    exact ⟨more.terms _ carries.1, more.price _ _ carries.2.1, carries.2.2.mono more⟩
  | filledUpdateCache order price rest => exact ⟨more.terms _ carries.1, carries.2.mono more⟩
  | filledRemovePending order rest | rejectSetOrder order rest | rejectUpdateCache order rest
  | rejectRemovePending order rest | rejectZrem order rest =>
    exact ⟨more.terms _ carries.1, carries.2.mono more⟩
  | tickPending tick groupId => exact more.tick _ carries
  | tickOrders rest => exact TickRest.Within.mono more carries
  | done | cancelRead _ _ | cancelScript _ _ | cancelRemovePending _ _ => trivial

theorem Engine.Copied.mono {l : Facts} (more : k.Within l) (copied : e.Copied k) :
    e.Copied l where
  stored o order isStored := (copied.stored o order isStored).imp_right (more.terms _)
  cached o order isCached := (copied.cached o order isCached).imp_right (more.terms _)
  listed symbol o isListed := more.symbol _ _ (copied.listed symbol o isListed)
  pending symbol o isPending := more.symbol _ _ (copied.pending symbol o isPending)

end Copies

end TradingPlatform
