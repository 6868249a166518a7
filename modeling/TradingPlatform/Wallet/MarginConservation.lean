import TradingPlatform.Engine.FillBranches
import TradingPlatform.Engine.ReopenScripts
import TradingPlatform.Library.StepRuns
import TradingPlatform.Wallet.Charges

namespace TradingPlatform

open StepRuns

def Order.margins (order : Order) : Margins :=
  (order.marginFromCash.tonumber.getD 0, order.marginFromBonus.tonumber.getD 0)

def Order.pendingMargins (order : Order) : Margins :=
  if order.status = .PENDING then order.margins else 0

/-- The engine's record of an order placed with this split. -/
def Order.placed (order : Order) (m : Margins) : Order :=
  { order with status := .PENDING, marginFromCash := .num m.1, marginFromBonus := .num m.2 }

def PositionHash.margins (h : PositionHash) : Margins :=
  (h.marginFromCash.getD 0, h.marginFromBonus.getD 0)

def PositionHash.openMargins (h : PositionHash) : Margins :=
  if h.status = some .OPEN then h.margins else 0

theorem PositionHash.openMargins_of_open {h : PositionHash} (isOpen : h.status = some .OPEN) :
    h.openMargins = h.margins := if_pos isOpen

theorem closedEventOfFill_closed {st : Store} (userId : UserId) (args : FillArgs)
    {result : FillResult} {p : PositionId} {h : PositionHash}
    (closedId : result.closedPositionId = some p) (stored : st.hash p = some h) :
    ∃ e, closedEventOfFill st userId args result = some e ∧ e.positionId = p ∧
      e.margins = h.margins := by
  unfold closedEventOfFill
  rw [closedId, Option.map_some, stored]
  exact ⟨_, rfl, rfl, rfl⟩

/-- One user's money and book: the wallet, the margin columns of the orders
rows, the `bonus_wallet_released` flags of the positions rows, the engine's
store, and the close events on their way. -/
structure Account where
  wallet : Wallet
  orderRows : OrderId → Option Margins
  releasedRows : PositionId → Option Bool
  store : Store
  events : List PositionClosedEvent

inductive AccountAction
  | place (o : OrderId) (order : Order) (marginRequired : ℚ)
  | fill (args : FillArgs) (existing old : List PositionId)
  | close (args : CloseArgs)
  | trigger (p : PositionId) (exitPrice : ℚ) (timestampMs : Millis)
  | cancel (o : OrderId) (timestampMs : Millis)
  | reject (o : OrderId) (reason : String) (timestampMs : Millis)
  | insertRow (p : PositionId)
  | deliver (i : ℕ)

namespace Account

def opened (wallet : Wallet) : Account where
  wallet := wallet
  orderRows := fun _ => none
  releasedRows := fun _ => none
  store := .empty
  events := []

/-- `lock_margin` and the orders row in one transaction, then the order in
Redis with the same split. -/
def place (a : Account) (o : OrderId) (order : Order) (marginRequired : ℚ) : Account :=
  match a.wallet.lockMargin marginRequired with
  | none => a
  | some (wallet, m) =>
    { a with
      wallet := wallet
      orderRows := Function.update a.orderRows o (some m)
      store := (a.store.setOrder o (order.placed m)).zaddPending order.symbol o }

/-- The fill script and, when it closed a netted position, its close event. -/
def fill (a : Account) (args : FillArgs) (existing old : List PositionId) : Account :=
  match atomicFillOrder a.store args existing old with
  | .success store result =>
    let userId := ((a.store.orders args.orderId).map (·.userId)).getD 0
    { a with
      store := store
      events := a.events ++ (closedEventOfFill store userId args result).toList }
  | .error store _ => { a with store := store }
  | .raised store => { a with store := store }

/-- A close command, which reports what the script replies. -/
def close (a : Account) (args : CloseArgs) : Account :=
  match atomicClosePosition a.store args with
  | .success store result =>
    let userId := ((a.store.hash args.positionId).bind (·.userId)).getD 0
    { a with store := store, events := a.events ++ [closedEventOfReply userId result] }
  | .error store _ => { a with store := store }
  | .raised store => { a with store := store }

/-- `trigger_closure`: a full close, reported from the hash. -/
def trigger (a : Account) (p : PositionId) (exitPrice : ℚ) (timestampMs : Millis) : Account :=
  match atomicClosePosition a.store
    { positionId := p, exitPrice := exitPrice, closeSize := 0, timestampMs := timestampMs } with
  | .success store _ =>
    { a with
      store := store
      events := a.events ++
        ((store.hash p).bind (closedEventOfTrigger p exitPrice)).toList }
  | .error store _ => { a with store := store }
  | .raised store => { a with store := store }

/-- `rollback_order_margin_lock` for the order's row; a failure is only logged. -/
def rollback (a : Account) (o : OrderId) : Wallet :=
  match a.orderRows o with
  | none => a.wallet
  | some m => (a.wallet.rollbackOrderMarginLock m).getD a.wallet

def cancel (a : Account) (o : OrderId) (timestampMs : Millis) : Account :=
  match atomicCancelOrder a.store o timestampMs with
  | (true, store) => { a with store := store, wallet := a.rollback o }
  | (false, store) => { a with store := store }

/-- A pending order is rejected for slippage. -/
def reject (a : Account) (o : OrderId) (reason : String) (timestampMs : Millis) : Account :=
  match a.store.orders o with
  | none => a
  | some order =>
    if order.status = .PENDING then
      { a with
        store := (a.store.setOrder o (order.rejected reason timestampMs)).zremPending order.symbol o
        wallet := a.rollback o }
    else a

/-- The first `evt.position.updated` of a position inserts its row. -/
def insertRow (a : Account) (p : PositionId) : Account :=
  match a.store.hash p, a.releasedRows p with
  | some _, none => { a with releasedRows := Function.update a.releasedRows p (some false) }
  | _, _ => a

/-- The listener of `event.position.closed` takes one event; a failed
transaction is only logged. -/
def deliver (a : Account) (i : ℕ) (e : PositionClosedEvent) : Account :=
  let events := a.events.eraseIdx i
  match a.wallet.releaseAndApplyPnl (a.releasedRows e.positionId) e.margins e.realizedPnl with
  | none => { a with events := events }
  | some (wallet, none) => { a with events := events, wallet := wallet }
  | some (wallet, some _) =>
    { a with
      events := events
      wallet := wallet
      releasedRows := Function.update a.releasedRows e.positionId (some true) }

/-- One operation. New orders and positions get new ids, sizes are positive. -/
def step (a : Account) : AccountAction → Option Account
  | .place o order marginRequired =>
    if a.store.orders o = none then some (a.place o order marginRequired) else none
  | .fill args existing old =>
    if a.store.hash args.positionUuid = none ∧ 0 < args.fillSize ∧
        ∀ order ∈ a.store.orders args.orderId,
          Smembers existing (a.store.userPositions order.userId) ∧
          Smembers old (a.store.oldUserPositions order.userId) then
      some (a.fill args existing old)
    else none
  | .close args => if 0 ≤ args.closeSize then some (a.close args) else none
  | .trigger p exitPrice timestampMs => some (a.trigger p exitPrice timestampMs)
  | .cancel o timestampMs => some (a.cancel o timestampMs)
  | .reject o reason timestampMs => some (a.reject o reason timestampMs)
  | .insertRow p => some (a.insertRow p)
  | .deliver i => a.events[i]?.map (a.deliver i)

/-- No close of this position has been published before. -/
def NeverClosed (a : Account) (p : PositionId) : Prop :=
  a.releasedRows p ≠ some true ∧ ∀ e ∈ a.events, e.positionId ≠ p

instance (a : Account) (p : PositionId) : Decidable (a.NeverClosed p) :=
  inferInstanceAs (Decidable (_ ∧ _))

/-- A fill moves the order's margins to the position it opens. One that only
merges into, reduces or exactly closes a position leaves them behind, and a
raised flip never reports the position it closed. -/
def CarriesMargins (a : Account) (order : Order) (fillSize : ℚ) (existing : List PositionId) :
    Prop :=
  match order.target a.store existing with
  | .merge _ _ => False
  | .net p h => h.size.getD 0 < fillSize ∧ order.stopLoss ≠ .null ∧ order.takeProfit ≠ .null ∧
      a.NeverClosed p
  | .fresh => True

instance (a : Account) (order : Order) (fillSize : ℚ) (existing : List PositionId) :
    Decidable (a.CarriesMargins order fillSize existing) := by
  unfold CarriesMargins
  split <;> infer_instance

/-- The steps that keep every locked amount accounted for. -/
def KeepsMargins (a : Account) : AccountAction → Prop
  | .fill args existing _ => ∀ order ∈ a.store.orders args.orderId, args.Pass order →
      a.CarriesMargins order args.fillSize existing
  | .close args => ∀ h ∈ a.store.hash args.positionId, h.status = some .OPEN →
      a.NeverClosed args.positionId
  | .trigger p _ _ => ∀ h ∈ a.store.hash p, h.status = some .OPEN → a.NeverClosed p
  | .deliver i => ∀ e ∈ a.events[i]?, a.releasedRows e.positionId ≠ none
  | _ => True

instance (a : Account) : (action : AccountAction) → Decidable (a.KeepsMargins action)
  | .place .. => inferInstanceAs (Decidable True)
  | .fill args existing _ => inferInstanceAs (Decidable (∀ order ∈ a.store.orders args.orderId,
      args.Pass order → a.CarriesMargins order args.fillSize existing))
  | .close args => inferInstanceAs (Decidable (∀ h ∈ a.store.hash args.positionId,
      h.status = some .OPEN → a.NeverClosed args.positionId))
  | .trigger p _ _ => inferInstanceAs (Decidable (∀ h ∈ a.store.hash p,
      h.status = some .OPEN → a.NeverClosed p))
  | .cancel .. => inferInstanceAs (Decidable True)
  | .reject .. => inferInstanceAs (Decidable True)
  | .insertRow _ => inferInstanceAs (Decidable True)
  | .deliver i =>
    inferInstanceAs (Decidable (∀ e ∈ a.events[i]?, a.releasedRows e.positionId ≠ none))

/-- Margins of the close events that have not been delivered yet. -/
def inFlight (a : Account) : Margins := (a.events.map (·.margins)).sum

/-- The accounting of locked margins over all steps. -/
structure Conserved (a : Account) : Prop where
  hashesOnly : a.store.HashesOnly
  locks : a.wallet.locks =
    a.store.sumOrders Order.pendingMargins + a.store.sumPositions PositionHash.openMargins +
      a.inFlight
  orders : ∀ o order, a.store.orders o = some order → order.status = .PENDING →
    ∃ m, a.orderRows o = some m ∧ order.marginFromCash = .num m.1 ∧
      order.marginFromBonus = .num m.2 ∧ 0 ≤ m
  positions : ∀ p h, a.store.hash p = some h → h.status = some .OPEN →
    0 < h.size.getD 0 ∧ 0 ≤ h.margins ∧ (∃ u, h.userId = some u) ∧ ∃ s, h.symbol = some s
  events : ∀ e ∈ a.events, 0 ≤ e.margins ∧ a.releasedRows e.positionId ≠ some true
  distinct : (a.events.map (·.positionId)).Nodup

variable {a : Account}

theorem Conserved.order_nonneg (conserved : a.Conserved) {o : OrderId} {order : Order}
    (stored : a.store.orders o = some order) : 0 ≤ order.pendingMargins := by
  unfold Order.pendingMargins
  split_ifs with pending
  · obtain ⟨m, _, cash, bonus, nonneg⟩ := conserved.orders o order stored pending
    have margins : order.margins = m := by
      rw [Order.margins, cash, bonus]
      rfl
    rw [margins]
    exact nonneg
  · exact le_rfl

theorem Conserved.position_nonneg (conserved : a.Conserved) {p : PositionId} {h : PositionHash}
    (stored : a.store.hash p = some h) : 0 ≤ h.openMargins := by
  unfold PositionHash.openMargins
  split_ifs with isOpen
  · exact (conserved.positions p h stored isOpen).2.1
  · exact le_rfl

theorem Conserved.inFlight_nonneg (conserved : a.Conserved) : 0 ≤ a.inFlight := by
  apply List.sum_nonneg
  intro m member
  obtain ⟨e, inEvents, rfl⟩ := List.mem_map.mp member
  exact (conserved.events e inEvents).1

theorem Conserved.sums_nonneg (conserved : a.Conserved) :
    0 ≤ a.store.sumOrders Order.pendingMargins ∧
      0 ≤ a.store.sumPositions PositionHash.openMargins :=
  ⟨FiniteTable.total_nonneg fun _ _ stored => conserved.order_nonneg stored,
    FiniteTable.total_nonneg fun _ _ stored => conserved.position_nonneg stored⟩

/-- A pending order's margins are covered by what the wallet has locked. -/
theorem Conserved.order_le_locks (conserved : a.Conserved) {o : OrderId} {order : Order}
    (stored : a.store.orders o = some order) : order.pendingMargins ≤ a.wallet.locks := by
  have read : a.store.orderRecords.lookup o = some order := stored
  have share := FiniteTable.share_le_total (f := fun _ order => Order.pendingMargins order)
    (t := a.store.orderRecords) (k := o) fun _ _ stored => conserved.order_nonneg stored
  rw [FiniteTable.share_some read] at share
  rw [conserved.locks, add_assoc]
  exact share.trans (le_add_of_nonneg_right
    (add_nonneg conserved.sums_nonneg.2 conserved.inFlight_nonneg))

theorem Conserved.event_le_locks (conserved : a.Conserved) {e : PositionClosedEvent}
    (inEvents : e ∈ a.events) : e.margins ≤ a.wallet.locks := by
  have share : e.margins ≤ a.inFlight := by
    apply List.single_le_sum _ _ (List.mem_map_of_mem inEvents)
    intro m member
    obtain ⟨g, inEvents, rfl⟩ := List.mem_map.mp member
    exact (conserved.events g inEvents).1
  rw [conserved.locks]
  exact share.trans (le_add_of_nonneg_left
    (add_nonneg conserved.sums_nonneg.1 conserved.sums_nonneg.2))

theorem Conserved.place (conserved : a.Conserved) (o : OrderId) (order : Order)
    (marginRequired : ℚ) (fresh : a.store.orders o = none) :
    (a.place o order marginRequired).Conserved := by
  unfold Account.place
  split
  next => exact conserved
  next wallet m locked =>
    obtain ⟨locks, nonneg⟩ := Wallet.lockMargin_locks locked
    have margins : (order.placed m).pendingMargins = m := rfl
    constructor
    · exact conserved.hashesOnly
    · change wallet.locks = (a.store.setOrder o (order.placed m)).sumOrders Order.pendingMargins +
        a.store.sumPositions PositionHash.openMargins + a.inFlight
      rw [locks, conserved.locks, Store.sumOrders_setOrder_of_none _ _ fresh, margins]
      abel
    · intro r stored isStored isPending
      change (a.store.setOrder o (order.placed m)).orders r = some stored at isStored
      rw [Store.orders_setOrder] at isStored
      split_ifs at isStored with same
      · cases isStored
        subst same
        exact ⟨m, Function.update_self .., rfl, rfl, nonneg⟩
      · obtain ⟨split, row, rest⟩ := conserved.orders r stored isStored isPending
        exact ⟨split, (Function.update_of_ne same ..).trans row, rest⟩
    · exact conserved.positions
    · exact conserved.events
    · exact conserved.distinct

theorem Conserved.insertRow (conserved : a.Conserved) (p : PositionId) :
    (a.insertRow p).Conserved := by
  unfold Account.insertRow
  split
  next =>
    refine ⟨conserved.hashesOnly, conserved.locks, conserved.orders, conserved.positions,
      fun e inEvents => ⟨(conserved.events e inEvents).1, ?_⟩, conserved.distinct⟩
    by_cases same : e.positionId = p
    · simp [same]
    · simpa [Function.update_of_ne same] using (conserved.events e inEvents).2
  next => exact conserved

theorem Conserved.deliver (conserved : a.Conserved) {i : ℕ} {e : PositionClosedEvent}
    (next : a.events[i]? = some e) (inserted : a.releasedRows e.positionId ≠ none) :
    (a.deliver i e).Conserved := by
  obtain ⟨bound, atIndex⟩ := List.getElem?_eq_some_iff.mp next
  have inEvents : e ∈ a.events := List.mem_of_getElem? next
  obtain ⟨nonneg, notReleased⟩ := conserved.events e inEvents
  have row : a.releasedRows e.positionId = some false := by
    cases flag : a.releasedRows e.positionId with
    | none => exact absurd flag inserted
    | some released =>
      cases released with
      | false => rfl
      | true => exact absurd flag notReleased
  obtain ⟨wallet, bonusAbsorb, applied, locks, _⟩ := Wallet.releaseAndApplyPnl_first
    e.realizedPnl nonneg (conserved.event_le_locks inEvents)
  have rest : (e :: a.events.eraseIdx i).Perm a.events := by
    have picked := List.getElem_cons_eraseIdx_perm bound
    rwa [atIndex] at picked
  have ids : ((e :: a.events.eraseIdx i).map (·.positionId)).Nodup :=
    (rest.map _).nodup_iff.mpr conserved.distinct
  rw [List.map_cons, List.nodup_cons] at ids
  have margins : a.inFlight = e.margins + ((a.events.eraseIdx i).map (·.margins)).sum := by
    rw [← List.sum_cons, ← List.map_cons (f := fun g : PositionClosedEvent => g.margins)]
    exact ((rest.map _).sum_eq).symm
  unfold Account.deliver
  rw [row, applied]
  constructor
  · exact conserved.hashesOnly
  · change wallet.locks = _ + _ + ((a.events.eraseIdx i).map (·.margins)).sum
    rw [locks, conserved.locks, margins]
    abel
  · exact conserved.orders
  · exact conserved.positions
  · intro g member
    refine ⟨(conserved.events g (List.mem_of_mem_eraseIdx member)).1, ?_⟩
    have differ : g.positionId ≠ e.positionId := by
      intro same
      exact ids.1 (same ▸ List.mem_map_of_mem member)
    change Function.update a.releasedRows e.positionId (some true) g.positionId ≠ some true
    rw [Function.update_of_ne differ]
    exact (conserved.events g (List.mem_of_mem_eraseIdx member)).2
  · exact ids.2

/-- Ending a pending order and unlocking its margins. -/
theorem Conserved.endOrder (conserved : a.Conserved) {o : OrderId} {order ended : Order}
    {s : Symbol} (stored : a.store.orders o = some order) (pending : order.status = .PENDING)
    (notPending : ended.status ≠ .PENDING) :
    Conserved { a with
      store := (a.store.setOrder o ended).zremPending s o, wallet := a.rollback o } := by
  obtain ⟨m, row, cash, bonus, nonneg⟩ := conserved.orders o order stored pending
  have margins : order.pendingMargins = m := by
    rw [Order.pendingMargins, if_pos pending, Order.margins, cash, bonus]
    rfl
  have covered : m ≤ a.wallet.locks := margins ▸ conserved.order_le_locks stored
  obtain ⟨wallet, unlocked, locks⟩ := Wallet.rollbackOrderMarginLock_locks nonneg covered
  have rolledBack : a.rollback o = wallet := by
    simp only [rollback, row, unlocked, Option.getD_some]
  constructor
  · exact conserved.hashesOnly
  · change (a.rollback o).locks = (a.store.setOrder o ended).sumOrders Order.pendingMargins +
      a.store.sumPositions PositionHash.openMargins + a.inFlight
    rw [rolledBack, locks, conserved.locks, Store.sumOrders_setOrder_of_some _ _ stored, margins,
      Order.pendingMargins, if_neg notPending]
    abel
  · intro r read isRead isPending
    change (a.store.setOrder o ended).orders r = some read at isRead
    rw [Store.orders_setOrder] at isRead
    split_ifs at isRead
    · cases isRead
      exact absurd isPending notPending
    · exact conserved.orders r read isRead isPending
  · exact conserved.positions
  · exact conserved.events
  · exact conserved.distinct

theorem Conserved.cancel (conserved : a.Conserved) (o : OrderId) (timestampMs : Millis) :
    (a.cancel o timestampMs).Conserved := by
  unfold Account.cancel atomicCancelOrder
  cases stored : a.store.orders o with
  | none => exact conserved
  | some order =>
    by_cases pending : order.status = .PENDING
    · simp only [pending, ne_eq, not_true, if_false]
      exact conserved.endOrder stored pending (fun again => by cases again)
    · simp only [pending, ne_eq, not_false_iff, if_true]
      exact conserved

theorem Conserved.reject (conserved : a.Conserved) (o : OrderId) (reason : String)
    (timestampMs : Millis) : (a.reject o reason timestampMs).Conserved := by
  unfold Account.reject
  split
  next => exact conserved
  next order stored =>
    split_ifs with pending
    · exact conserved.endOrder stored pending (fun again => by cases again)
    · exact conserved

/-- A step that only rewrites one open position, and may report margins of it
that were not reported before. -/
theorem Conserved.rewrite (conserved : a.Conserved) {p : PositionId} {written : PositionHash}
    {store : Store} {reported : List PositionClosedEvent} (neverClosed : a.NeverClosed p)
    (sameOrders : store.orderRecords = a.store.orderRecords)
    (sameOld : store.oldPositions = a.store.oldPositions)
    (hash : ∀ q, store.hash q = if q = p then some written else a.store.hash q)
    (sum : store.sumPositions PositionHash.openMargins + (reported.map (·.margins)).sum =
      a.store.sumPositions PositionHash.openMargins)
    (wellFormed : written.status = some .OPEN → 0 < written.size.getD 0 ∧ 0 ≤ written.margins ∧
      (∃ u, written.userId = some u) ∧ ∃ s, written.symbol = some s)
    (ofPosition : ∀ e ∈ reported, e.positionId = p ∧ 0 ≤ e.margins)
    (atMostOne : reported.length ≤ 1) :
    Conserved { a with store := store, events := a.events ++ reported } := by
  constructor
  · intro q
    change store.oldPositions q = none
    rw [sameOld]
    exact conserved.hashesOnly q
  · change a.wallet.locks = store.sumOrders Order.pendingMargins +
      store.sumPositions PositionHash.openMargins +
      ((a.events ++ reported).map (·.margins)).sum
    rw [conserved.locks, ← sum, List.map_append, List.sum_append]
    unfold inFlight Store.sumOrders
    rw [sameOrders]
    abel
  · intro o order isStored
    change store.orders o = some order at isStored
    rw [Store.orders, sameOrders] at isStored
    exact conserved.orders o order isStored
  · intro q g read stillOpen
    change store.hash q = some g at read
    rw [hash] at read
    split_ifs at read with same
    · cases read
      exact wellFormed stillOpen
    · exact conserved.positions q g read stillOpen
  · intro e inEvents
    rcases List.mem_append.mp inEvents with before | new
    · exact conserved.events e before
    · obtain ⟨same, nonneg⟩ := ofPosition e new
      exact ⟨nonneg, same ▸ neverClosed.1⟩
  · change ((a.events ++ reported).map (·.positionId)).Nodup
    rw [List.map_append, List.nodup_append]
    refine ⟨conserved.distinct, ?_, ?_⟩
    · exact List.nodup_iff_count_le_one.mpr fun q =>
        List.count_le_length.trans (by rw [List.length_map]; exact atMostOne)
    · intro q inOld r inNew same
      obtain ⟨e, inEvents, rfl⟩ := List.mem_map.mp inOld
      obtain ⟨g, new, rfl⟩ := List.mem_map.mp inNew
      exact neverClosed.2 e inEvents (same.trans (ofPosition g new).1)

theorem ratio_of_full {args : CloseArgs} {currentSize : ℚ} (sized : 0 < currentSize)
    (full : args.actualCloseSize currentSize = currentSize) : args.ratio currentSize = 1 := by
  rw [CloseArgs.ratio, if_pos sized, full, div_self sized.ne']

theorem ratio_mem {args : CloseArgs} {currentSize : ℚ} (sized : 0 < currentSize)
    (nonneg : 0 ≤ args.closeSize) : 0 ≤ args.ratio currentSize ∧ args.ratio currentSize ≤ 1 := by
  rw [CloseArgs.ratio, if_pos sized]
  refine ⟨div_nonneg ?_ sized.le, (div_le_one sized).mpr (args.actualCloseSize_le _)⟩
  unfold CloseArgs.actualCloseSize
  split_ifs
  · exact sized.le
  · exact nonneg

/-- A full close that reports the margins of the hash. -/
theorem Conserved.fullClose (conserved : a.Conserved) {args : CloseArgs} {h : PositionHash}
    {s : Symbol} {e : PositionClosedEvent} (stored : a.store.hash args.positionId = some h)
    (isOpen : h.status = some .OPEN) (neverClosed : a.NeverClosed args.positionId)
    (ofPosition : e.positionId = args.positionId) (reported : e.margins = h.margins) :
    Conserved { a with
      store := (a.store.hset args.positionId args.fullHash).unindex s args.positionId
      events := a.events ++ [e] } := by
  have closedStatus : (args.fullHash h).status ≠ some .OPEN := by
    unfold CloseArgs.fullHash CloseArgs.fullCloseStatus
    dsimp only
    split <;> decide
  apply conserved.rewrite neverClosed
  · rfl
  · rfl
  · intro q
    rw [Store.hash_unindex, Store.hash_hset, stored, Option.getD_some]
  · change (a.store.hset args.positionId args.fullHash).sumPositions _ + _ = _
    rw [Store.sumPositions_hset_of_some _ _ stored, PositionHash.openMargins_of_open isOpen,
      PositionHash.openMargins,
      if_neg closedStatus]
    simp only [List.map_cons, List.map_nil, List.sum_cons, List.sum_nil, reported]
    abel
  · exact fun again => absurd again closedStatus
  · intro g member
    rw [List.mem_singleton] at member
    rw [member, reported]
    exact ⟨ofPosition, (conserved.positions _ h stored isOpen).2.1⟩
  · exact le_rfl

theorem Conserved.close (conserved : a.Conserved) (args : CloseArgs) (nonneg : 0 ≤ args.closeSize)
    (first : ∀ h ∈ a.store.hash args.positionId, h.status = some .OPEN →
      a.NeverClosed args.positionId) : (a.close args).Conserved := by
  unfold Account.close
  split
  next store result closed =>
    obtain ⟨h, stored, isOpen, rfl, effect⟩ := atomicClosePosition_success closed
    obtain ⟨sized, covered, owner, symbol⟩ := conserved.positions _ h stored isOpen
    have neverClosed := first h stored isOpen
    obtain ⟨ratioNonneg, ratioLe⟩ := ratio_mem sized nonneg
    have reported : ∀ userId, (closedEventOfReply userId (args.result h)).margins =
        args.ratio (h.size.getD 0) • h.margins := by
      intro userId
      exact Prod.ext (mul_comm _ _) (mul_comm _ _)
    rcases effect with ⟨full, s, _, rfl⟩ | ⟨part, rfl⟩
    · apply conserved.fullClose stored isOpen neverClosed rfl
      rw [reported, ratio_of_full sized full, one_smul]
    · have stillOpen : (args.partialHash h).status = some .OPEN := isOpen
      have kept : (args.partialHash h).margins =
          h.margins - args.ratio (h.size.getD 0) • h.margins :=
        Prod.ext (congrArg (h.margins.1 - ·) (mul_comm _ _))
          (congrArg (h.margins.2 - ·) (mul_comm _ _))
      apply conserved.rewrite neverClosed
      · rfl
      · rfl
      · intro q
        rw [Store.hash_hset, stored, Option.getD_some]
      · rw [Store.sumPositions_hset_of_some _ _ stored, PositionHash.openMargins_of_open isOpen,
      PositionHash.openMargins,
          if_pos stillOpen, kept]
        simp only [List.map_cons, List.map_nil, List.sum_cons, List.sum_nil, reported]
        abel
      · intro _
        refine ⟨sub_pos.mpr part, ?_, owner, symbol⟩
        rw [kept]
        have bounded : args.ratio (h.size.getD 0) • h.margins ≤ (1 : ℚ) • h.margins :=
          smul_le_smul_of_nonneg_right ratioLe covered
        rw [one_smul] at bounded
        exact sub_nonneg.mpr bounded
      · intro e member
        rw [List.mem_singleton] at member
        rw [member, reported]
        exact ⟨rfl, smul_nonneg ratioNonneg covered⟩
      · exact le_rfl
  next store e failed =>
    rw [atomicClosePosition_error failed]
    exact conserved
  next store failed =>
    obtain ⟨h, stored, isOpen, noSymbol⟩ := atomicClosePosition_raised failed
    obtain ⟨_, _, _, s, symbol⟩ := conserved.positions _ h stored isOpen
    rw [noSymbol] at symbol
    cases symbol

theorem Conserved.trigger (conserved : a.Conserved) (p : PositionId) (exitPrice : ℚ)
    (timestampMs : Millis)
    (first : ∀ h ∈ a.store.hash p, h.status = some .OPEN → a.NeverClosed p) :
    (a.trigger p exitPrice timestampMs).Conserved := by
  unfold Account.trigger
  split
  next store result closed =>
    obtain ⟨h, stored, isOpen, rfl, effect⟩ := atomicClosePosition_success closed
    obtain ⟨_, _, ⟨u, owner⟩, _⟩ := conserved.positions _ h stored isOpen
    rcases effect with ⟨_, s, _, rfl⟩ | ⟨part, rfl⟩
    · rw [Store.hash_unindex, Store.hash_hset_self, stored, Option.getD_some, Option.bind_some,
        closedEventOfTrigger]
      change Conserved { a with
        store := _
        events := a.events ++ (Option.map _ h.userId).toList }
      rw [owner]
      exact conserved.fullClose stored isOpen (first h stored isOpen) rfl rfl
    · rw [CloseArgs.actualCloseSize, if_pos (.inl rfl)] at part
      exact absurd part (lt_irrefl _)
  next store e failed =>
    rw [atomicClosePosition_error failed]
    exact conserved
  next store failed =>
    obtain ⟨h, stored, isOpen, noSymbol⟩ := atomicClosePosition_raised failed
    obtain ⟨_, _, _, s, symbol⟩ := conserved.positions _ h stored isOpen
    rw [noSymbol] at symbol
    cases symbol

/-- A fill that opens a position with the order's margins. -/
theorem Conserved.opens (conserved : a.Conserved) {args : FillArgs} {order : Order} {el : ℚ}
    {leverage_pos : 0 < el} {size leverage : ℚ} {store : Store}
    (stored : a.store.orders args.orderId = some order) (pending : order.status = .PENDING)
    (fresh : a.store.hash args.positionUuid = none) (sized : 0 < size)
    (frame : (Fill.opened (a.store.markFilled args order) (Fill.ofArgs args order el leverage_pos)
      size leverage).SameButIndex store) : Conserved { a with store := store } := by
  obtain ⟨m, row, cash, bonus, nonneg⟩ := conserved.orders _ order stored pending
  have pendingMargins : order.pendingMargins = m := by
    rw [Order.pendingMargins, if_pos pending, Order.margins, cash, bonus]
    rfl
  generalize written : (Fill.ofArgs args order el leverage_pos).openHash size leverage {} = g
  have openMargins : g.openMargins = m := by
    rw [← written]
    change (order.marginFromCash.tonumber.getD _, order.marginFromBonus.tonumber.getD 0) = m
    rw [cash, bonus]
    rfl
  have isOpen : g.status = some .OPEN := by rw [← written]; rfl
  have hash : ∀ q, store.hash q = if q = args.positionUuid then some g else a.store.hash q := by
    intro q
    have read := Fill.openPosition_hash _ _ _ _ frame q
    have unused : (a.store.markFilled args order).hash
      (Fill.ofArgs args order el leverage_pos).positionUuid = none := fresh
    rw [unused, Option.getD_none, written] at read
    exact read
  have orders : store.orderRecords =
      (a.store.setOrder args.orderId (order.filled args)).orderRecords := by
    rw [frame]
    rfl
  have sum : store.sumPositions PositionHash.openMargins =
      a.store.sumPositions PositionHash.openMargins + m := by
    rw [frame]
    change (a.store.hset args.positionUuid _).sumPositions _ = _
    rw [Store.sumPositions_hset_of_none _ _ fresh, written, openMargins]
  constructor
  · intro q
    change store.oldPositions q = none
    rw [frame]
    exact conserved.hashesOnly q
  · change a.wallet.locks = FiniteTable.total _ store.orderRecords + store.sumPositions _ + a.inFlight
    rw [orders, sum]
    change _ = (a.store.setOrder args.orderId (order.filled args)).sumOrders Order.pendingMargins +
      _ + _
    have notPending : (order.filled args).pendingMargins = 0 := rfl
    rw [Store.sumOrders_setOrder_of_some _ _ stored, pendingMargins, notPending, conserved.locks]
    abel
  · intro o read isRead isPending
    change store.orders o = some read at isRead
    rw [Store.orders, orders] at isRead
    change (a.store.setOrder args.orderId (order.filled args)).orders o = some read at isRead
    rw [Store.orders_setOrder] at isRead
    split_ifs at isRead
    · cases isRead
      cases isPending
    · exact conserved.orders o read isRead isPending
  · intro q read isRead stillOpen
    change store.hash q = some read at isRead
    rw [hash] at isRead
    split_ifs at isRead
    · cases isRead
      refine ⟨?_, ?_, ?_, ?_⟩
      · rw [← written]
        exact sized
      · rw [← PositionHash.openMargins_of_open isOpen, openMargins]
        exact nonneg
      · rw [← written]
        exact ⟨_, rfl⟩
      · rw [← written]
        exact ⟨_, rfl⟩
    · exact conserved.positions q read isRead stillOpen
  · exact conserved.events
  · exact conserved.distinct

/-- A netting close whose margins are reported from the hash. -/
theorem Conserved.closeNetted (conserved : a.Conserved) {fill : Fill} {p : PositionId}
    {h : PositionHash} {newRealized : ℚ} {e : PositionClosedEvent} (stored : a.store.hash p = some h)
    (isOpen : h.status = some .OPEN) (neverClosed : a.NeverClosed p)
    (ofPosition : e.positionId = p) (reported : e.margins = h.margins) :
    Conserved { a with
      store := Fill.closeNetted a.store fill p newRealized, events := a.events ++ [e] } := by
  have closedStatus : (fill.closedHash newRealized h).status ≠ some .OPEN := by
    change some PositionStatus.CLOSED ≠ some .OPEN
    decide
  apply conserved.rewrite neverClosed
  · rfl
  · rfl
  · intro q
    rw [Fill.closeNetted, Store.hash_unindex, Store.hash_srem, Store.hash_hset, stored,
      Option.getD_some]
  · change (a.store.hset p (fill.closedHash newRealized)).sumPositions _ + _ = _
    rw [Store.sumPositions_hset_of_some _ _ stored, PositionHash.openMargins_of_open isOpen,
      PositionHash.openMargins, if_neg closedStatus]
    simp only [List.map_cons, List.map_nil, List.sum_cons, List.sum_nil, reported]
    abel
  · exact fun again => absurd again closedStatus
  · intro g member
    rw [List.mem_singleton] at member
    rw [member, reported]
    exact ⟨ofPosition, (conserved.positions _ h stored isOpen).2.1⟩
  · exact le_rfl

theorem Conserved.fill (conserved : a.Conserved) (args : FillArgs) (existing old : List PositionId)
    (fresh : a.store.hash args.positionUuid = none) (sized : 0 < args.fillSize)
    (carries : ∀ order ∈ a.store.orders args.orderId, args.Pass order →
      a.CarriesMargins order args.fillSize existing) : (a.fill args existing old).Conserved := by
  unfold Account.fill
  rcases atomicFillOrder_cases a.store args existing old with ⟨e, failed⟩ | failed |
    ⟨order, el, accepted, outcome⟩
  · rw [failed]
    exact conserved
  · rw [failed]
    exact conserved
  · have hashes : (a.store.markFilled args order).HashesOnly := conserved.hashesOnly
    have carried := carries order accepted.stored accepted.pass
    have target : (Fill.ofArgs args order el accepted.leverage_pos).order.target
      (a.store.markFilled args order) existing = order.target a.store existing := rfl
    rw [outcome, Fill.applyToPositions_eq hashes, target]
    unfold CarriesMargins at carried
    cases found : order.target a.store existing with
    | merge p h =>
      rw [found] at carried
      exact carried.elim
    | net p h =>
      rw [found] at carried
      obtain ⟨exceeds, sl, tp, neverClosed⟩ := carried
      obtain ⟨_, stored, isOpen, _⟩ := Order.target_net found
      obtain ⟨after, result, newRealized, posLeverage, flipped, closedId, frame⟩ :=
        Fill.netAgainst_flips (a.store.markFilled args order)
          (Fill.ofArgs args order el accepted.leverage_pos) p h exceeds sl tp
      have differ : args.positionUuid ≠ p := by
        rintro same
        rw [same, stored] at fresh
        cases fresh
      have left : after.hash p = some
          ((Fill.ofArgs args order el accepted.leverage_pos).closedHash newRealized h) := by
        refine (Fill.openPosition_hash _ _ _ _ frame p).trans ((if_neg differ.symm).trans ?_)
        rw [Fill.closeNetted, Store.hash_unindex, Store.hash_srem, Store.hash_hset_self]
        change some (Fill.closedHash _ newRealized ((a.store.hash p).getD {})) = _
        rw [stored, Option.getD_some]
      obtain ⟨e, event, ofPosition, reported⟩ := closedEventOfFill_closed
        (((a.store.orders args.orderId).map (·.userId)).getD 0) args closedId left
      simp only [flipped, event, Option.toList_some]
      have closed : Conserved { a with
          store := Fill.closeNetted a.store (Fill.ofArgs args order el accepted.leverage_pos) p
            newRealized
          events := a.events ++ [e] } :=
        conserved.closeNetted stored isOpen.2 neverClosed ofPosition reported
      have stillFresh : (Fill.closeNetted a.store (Fill.ofArgs args order el accepted.leverage_pos)
          p newRealized).hash args.positionUuid = none := by
        rw [Fill.closeNetted, Store.hash_unindex, Store.hash_srem,
          Store.hash_hset_ne _ _ _ _ differ, fresh]
      exact closed.opens accepted.stored accepted.pending stillFresh (sub_pos.mpr exceeds) frame
    | fresh =>
      obtain ⟨after, frame, created⟩ := Fill.create_cases (a.store.markFilled args order)
        (Fill.ofArgs args order el accepted.leverage_pos)
      have opened := conserved.opens accepted.stored accepted.pending fresh sized frame
      rcases created with raised | created
      · simp only [raised]
        exact opened
      · simp only [created, closedEventOfFill, Option.map_none, Option.toList_none,
          List.append_nil]
        exact opened

theorem Conserved.step (conserved : a.Conserved) {action : AccountAction} {after : Account}
    (keeps : a.KeepsMargins action) (taken : a.step action = some after) : after.Conserved := by
  cases action with
  | place o order marginRequired =>
    simp only [Account.step] at taken
    split_ifs at taken with fresh
    cases taken
    exact conserved.place o order marginRequired fresh
  | fill args existing old =>
    simp only [Account.step] at taken
    split_ifs at taken with reads
    cases taken
    exact conserved.fill args existing old reads.1 reads.2.1 keeps
  | close args =>
    simp only [Account.step] at taken
    split_ifs at taken with nonneg
    cases taken
    exact conserved.close args nonneg keeps
  | trigger p exitPrice timestampMs =>
    cases taken
    exact conserved.trigger p exitPrice timestampMs keeps
  | cancel o timestampMs =>
    cases taken
    exact conserved.cancel o timestampMs
  | reject o reason timestampMs =>
    cases taken
    exact conserved.reject o reason timestampMs
  | insertRow p =>
    cases taken
    exact conserved.insertRow p
  | deliver i =>
    obtain ⟨e, next, rfl⟩ := Option.map_eq_some_iff.mp taken
    exact conserved.deliver next (keeps e next)

theorem conserved_opened {wallet : Wallet} (noLocks : wallet.locks = 0) :
    (opened wallet).Conserved where
  hashesOnly _ := rfl
  locks := by
    change wallet.locks = 0 + 0 + 0
    rw [noLocks, add_zero, add_zero]
  orders o order stored := by cases stored
  positions p h stored := by cases stored
  events e member := by cases member
  distinct := List.nodup_nil

def deposited : Wallet := ⟨25, 0, 50, 0, by decide +kernel, by decide +kernel, by decide +kernel⟩

def nettingOrder (o : OrderId) (side : Side) (size : ℚ) : Order :=
  { id := o, userId := 7, symbol := "EURUSD", side := side, orderType := .MARKET, size := size
    stopLoss := .num 8, takeProfit := .num 20, accountType := some "netting" }

/-- Two buys of a netting account, the second merged into the first's position. -/
def mergedMarginActions : List AccountAction :=
  [.place 1 (nettingOrder 1 .BUY 2) 20,
   .fill ⟨1, 10, 2, 1000, .uuid 1, some 1⟩ [] [],
   .insertRow (.uuid 1),
   .place 2 (nettingOrder 2 .BUY 1) 10,
   .fill ⟨2, 10, 1, 2000, .uuid 2, some 1⟩ [.uuid 1] []]

/-- A buy from cash and bonus, flipped by a larger sell, whose position is
then closed in full by its take profit. -/
def flippedMarginActions : List AccountAction :=
  [.place 1 (nettingOrder 1 .BUY 2) 30,
   .fill ⟨1, 10, 2, 1000, .uuid 1, some 1⟩ [] [],
   .insertRow (.uuid 1),
   .place 2 (nettingOrder 2 .SELL 3) 40,
   .fill ⟨2, 12, 3, 2000, .uuid 2, some 1⟩ [.uuid 1] [],
   .deliver 0,
   .insertRow (.uuid 2),
   .trigger (.uuid 2) 11 3000,
   .place 3 (nettingOrder 3 .BUY 1) 3,
   .deliver 0]

end Account

end TradingPlatform
