import TradingPlatform.Engine.FillAtomicity
import TradingPlatform.Engine.OrderFinality
import TradingPlatform.Engine.PendingBooks
import TradingPlatform.Summary.FxRates

namespace TradingPlatform

open StepRuns

/-- One order id of a pending set, as `warm_order_cache` treats it. -/
def OrderCache.warm (st : Store) (symbol : Symbol) (c : OrderCache) (o : OrderId) : OrderCache :=
  match st.orders o with
  | none => c
  | some order => if order.status = .PENDING then c.addPendingOrder symbol o order else c

/-- `warm_order_cache`, given the replies of KEYS and ZRANGE: the symbols with
the ids in their pending sets. -/
def warmOrderCache (st : Store) (listing : List (Symbol × List OrderId)) : OrderCache :=
  listing.foldl (fun c reply => reply.2.foldl (.warm st reply.1) c) .new

/-- The replies tell all pending sets. -/
structure Lists (st : Store) (listing : List (Symbol × List OrderId)) : Prop where
  ids : ∀ reply ∈ listing, reply.2.toFinset = st.pending reply.1
  keys : ∀ symbol, st.pending symbol ≠ ∅ → symbol ∈ listing.map Prod.fst

/-- Redis as the engine keeps it: every record under its own id and a
normalised symbol, and in the pending set of the symbol while it is PENDING. -/
structure Store.PendingKept (st : Store) : Prop where
  records : ∀ o, ∀ order ∈ st.orders o, order.id = o ∧ normalizeSymbol order.symbol = order.symbol
  pending : ∀ symbol o, o ∈ st.pending symbol ↔
    ∃ order ∈ st.orders o, order.symbol = symbol ∧ order.status = .PENDING

namespace Task

/-- What a task owes to the books of an order. -/
def duty : Task → Option (OrderId × Duty)
  | .placeAddPending cmd => some (cmd.orderId, .list)
  | .placeAddCache cmd => some (cmd.orderId, .cache)
  | .filledUpdateCache order _ _ => some (order.id, .uncache)
  | .filledRemovePending order _ => some (order.id, .uncache)
  | .rejectUpdateCache order _ => some (order.id, .uncacheAndUnlist)
  | .rejectRemovePending order _ => some (order.id, .uncacheAndUnlist)
  | .rejectZrem order _ => some (order.id, .unlist)
  | .cancelRemovePending o _ => some (o, .uncache)
  | _ => none

def dutyOn (o : OrderId) (task : Task) : Option Duty :=
  (task.duty.filter fun owed => owed.1 = o).map Prod.snd

/-- The symbol that a task has read or written for an order. -/
def holds : Task → Option (OrderId × Symbol)
  | .placeAddPending cmd => some (cmd.orderId, normalizeSymbol cmd.symbol)
  | .placeAddCache cmd => some (cmd.orderId, normalizeSymbol cmd.symbol)
  | .placeResolvePrice cmd => some (cmd.orderId, normalizeSymbol cmd.symbol)
  | .fillScript order _ _ _ => some (order.id, order.symbol)
  | .filledUpdateCache order _ _ => some (order.id, order.symbol)
  | .filledRemovePending order _ => some (order.id, order.symbol)
  | .rejectSetOrder order _ => some (order.id, order.symbol)
  | .rejectUpdateCache order _ => some (order.id, order.symbol)
  | .rejectRemovePending order _ => some (order.id, order.symbol)
  | .rejectZrem order _ => some (order.id, order.symbol)
  | .cancelScript o order => some (o, order.symbol)
  | .cancelRemovePending o order => some (o, order.symbol)
  | _ => none

end Task

namespace Engine

/-- The cache after `warm_order_cache`, before any message. -/
def warmed (st : Store) (keys : String → Option OrderId)
    (listing : List (Symbol × List OrderId)) : Engine where
  store := st
  cache := warmOrderCache st listing
  keys := keys
  tasks := fun _ => .done
  fills := fun _ => 0

def book (e : Engine) (o : OrderId) : OrderBook where
  filed := (e.store.orders o).map fun order => (order.symbol, decide (order.status = .PENDING))
  listed := {symbol | o ∈ e.store.pending symbol}
  cached := {symbol | o ∈ e.cache.pendingOrders symbol}
  duties := fun t => (e.tasks t).dutyOn o

/-- The three places name the same orders of the symbol. -/
def PendingAgrees (e : Engine) (symbol : Symbol) : Prop :=
  ∀ o, (o ∈ e.cache.pendingOrders symbol ↔ o ∈ e.store.pending symbol) ∧
    (o ∈ e.store.pending symbol ↔
      ∃ order ∈ e.store.orders o, order.symbol = symbol ∧ order.status = .PENDING)

/-- No handler is mid-flight. -/
def Quiet (e : Engine) : Prop := ∀ t, e.tasks t = .done

/-- No placement is between the SET of the order and its entry in the cache. -/
def NotBeingPlaced (e : Engine) (o : OrderId) : Prop :=
  ∀ t, ∀ d ∈ (e.tasks t).dutyOn o, ¬ d.Adds

/-- An order is placed under its symbol while nothing is owed for it; its status
is not taken from PENDING while it is being placed; and a fill that passes the
checks of the script indexes no null level. -/
def TaskInTurn (e : Engine) (input : Input) : Task → Prop
  | .placeSetOrder cmd =>
    (∀ order ∈ e.store.orders cmd.orderId, order.symbol = normalizeSymbol cmd.symbol) ∧
      ∀ t, (e.tasks t).dutyOn cmd.orderId = none
  | .fillScript order fillPrice eff _ => e.NotBeingPlaced order.id ∧
    ∀ stored ∈ e.store.orders order.id, (fillArgs order fillPrice eff input).Pass stored →
      ∀ levels ∈ stored.indexedLevels e.store order.size input.existing input.old, levels.Present
  | .rejectSetOrder order _ => e.NotBeingPlaced order.id
  | .cancelScript o _ => e.NotBeingPlaced o
  | _ => True

/-- Steps are taken in turn, and no task is given up that owes something. -/
def InTurn (e : Engine) : EngineAction → Prop
  | .advance t input => e.TaskInTurn input (e.tasks t)
  | .abort t => (e.tasks t).duty = none
  | _ => True

/-- The record of the order has this symbol. -/
def Files (e : Engine) (o : OrderId) (symbol : Symbol) : Prop :=
  ∃ order ∈ e.store.orders o, order.symbol = symbol

/-- All copies of an order name it and its symbol as the record does. -/
structure Consistent (e : Engine) : Prop where
  records : ∀ o, ∀ order ∈ e.store.orders o,
    order.id = o ∧ normalizeSymbol order.symbol = order.symbol
  cached : ∀ o, ∀ order ∈ e.cache.orders o, order.id = o ∧ e.Files o order.symbol
  held : ∀ t, ∀ copy ∈ (e.tasks t).holds, e.Files copy.1 copy.2

section Books
variable {e after : Engine} {t : ℕ} {next : Task} {o r : OrderId} {symbol s : Symbol}

theorem mem_zaddPending (st : Store) : r ∈ (st.zaddPending symbol o).pending s ↔
    (s = symbol ∧ r = o) ∨ r ∈ st.pending s := by
  by_cases same : s = symbol
  · subst same
    simp [Store.zaddPending]
  · simp [Store.zaddPending, same]

theorem mem_zremPending (st : Store) : r ∈ (st.zremPending symbol o).pending s ↔
    r ∈ st.pending s ∧ ¬ (s = symbol ∧ r = o) := by
  by_cases same : s = symbol
  · subst same
    simp [Store.zremPending, and_comm]
  · simp [Store.zremPending, same]

theorem mem_addPendingOrder (c : OrderCache) (order : Order) :
    r ∈ (c.addPendingOrder symbol o order).pendingOrders s ↔
      (s = normalizeSymbol symbol ∧ r = o) ∨ r ∈ c.pendingOrders s := by
  by_cases same : s = normalizeSymbol symbol
  · subst same
    simp [OrderCache.addPendingOrder]
  · simp [OrderCache.addPendingOrder, same]

theorem mem_removePendingOrder (c : OrderCache) :
    r ∈ (c.removePendingOrder symbol o).pendingOrders s ↔
      r ∈ c.pendingOrders s ∧ ¬ (s = normalizeSymbol symbol ∧ r = o) := by
  by_cases same : s = normalizeSymbol symbol
  · subst same
    simp [OrderCache.removePendingOrder, and_comm]
  · simp [OrderCache.removePendingOrder, same]

theorem book_setTask (e : Engine) (t : ℕ) (task : Task) (o : OrderId) :
    (e.setTask t task).book o =
      { e.book o with duties := Function.update (e.book o).duties t (task.dutyOn o) } := by
  refine OrderBook.ext rfl rfl rfl ?_
  funext u
  by_cases same : u = t
  · subst same
    simp [book, setTask]
  · simp [book, setTask, same]

theorem filed_of_files (files : e.Files o symbol) :
    ∃ pending, (e.book o).filed = some (symbol, pending) := by
  obtain ⟨order, stored, rfl⟩ := files
  exact ⟨_, by rw [book, stored]; rfl⟩

/-- The book after a step, field by field. -/
theorem move_at {b : OrderBook} (moved : OrderBook.Move t (e.book o) b)
    (filed : (after.book o).filed = b.filed) (listed : (after.book o).listed = b.listed)
    (cached : (after.book o).cached = b.cached) (tasks : after.tasks = e.tasks)
    (duties : b.duties = Function.update (e.book o).duties t (next.dutyOn o)) :
    OrderBook.Move t (e.book o) ((after.setTask t next).book o) := by
  have same : (after.setTask t next).book o = b := by
    rw [book_setTask]
    refine OrderBook.ext filed listed cached ?_
    rw [duties]
    simp only [book, tasks]
  rw [same]
  exact moved

/-- What does not concern an order leaves its book as it is. -/
theorem move_of_same (orders : after.store.orders o = e.store.orders o)
    (listed : ∀ s, o ∈ after.store.pending s ↔ o ∈ e.store.pending s)
    (cached : ∀ s, o ∈ after.cache.pendingOrders s ↔ o ∈ e.cache.pendingOrders s)
    (tasks : after.tasks = e.tasks) (duty : next.dutyOn o = (e.tasks t).dutyOn o) :
    OrderBook.Move t (e.book o) ((after.setTask t next).book o) := by
  have same : (after.setTask t next).book o = e.book o := by
    rw [book_setTask, duty]
    refine OrderBook.ext ?_ (Set.ext listed) (Set.ext cached) ?_
    · simp [book, orders]
    · simp only [book, tasks]
      exact Function.update_eq_self _ _
  rw [same]
  exact .idle

theorem Consistent.normalized (consistent : e.Consistent) (files : e.Files o symbol) :
    normalizeSymbol symbol = symbol := by
  obtain ⟨order, stored, rfl⟩ := files
  exact (consistent.records o order stored).2

theorem Consistent.next_step (consistent : e.Consistent)
    (files : ∀ o s, e.Files o s → after.Files o s)
    (records : ∀ o, ∀ order ∈ after.store.orders o,
      order.id = o ∧ normalizeSymbol order.symbol = order.symbol)
    (cached : ∀ o, ∀ order ∈ after.cache.orders o, order.id = o ∧ after.Files o order.symbol)
    (tasks : after.tasks = e.tasks) (held : ∀ copy ∈ next.holds, after.Files copy.1 copy.2) :
    (after.setTask t next).Consistent where
  records := records
  cached := cached
  held u copy holds := by
    by_cases own : u = t
    · subst own
      have ofNext : copy ∈ next.holds := by simpa [setTask] using holds
      exact held copy ofNext
    · have kept : copy ∈ (e.tasks u).holds := by simpa [setTask, own, tasks] using holds
      exact files _ _ (consistent.held u copy kept)

/-- A step that writes no order. -/
theorem Consistent.next_same (consistent : e.Consistent) (orders : after.store.orders = e.store.orders)
    (cached : after.cache.orders = e.cache.orders) (tasks : after.tasks = e.tasks)
    (held : ∀ copy ∈ next.holds, e.Files copy.1 copy.2) : (after.setTask t next).Consistent := by
  have files (o : OrderId) (s : Symbol) : e.Files o s ↔ after.Files o s := by
    unfold Files
    rw [orders]
  refine consistent.next_step (fun o s => (files o s).mp) ?_ ?_ tasks ?_
  · rw [orders]
    exact consistent.records
  · rw [cached]
    intro o order isCached
    obtain ⟨id, filed⟩ := consistent.cached o order isCached
    exact ⟨id, (files _ _).mp filed⟩
  · exact fun copy holds => (files _ _).mp (held copy holds)

/-- A step that writes or removes the copy of one order in the cache. -/
theorem Consistent.next_cached (consistent : e.Consistent)
    (orders : after.store.orders = e.store.orders) {copy : Option Order}
    (cached : after.cache.orders = Function.update e.cache.orders o copy)
    (copied : ∀ order ∈ copy, order.id = o ∧ e.Files o order.symbol) (tasks : after.tasks = e.tasks)
    (held : ∀ copy ∈ next.holds, e.Files copy.1 copy.2) : (after.setTask t next).Consistent := by
  have same (r : OrderId) (s : Symbol) : e.Files r s ↔ after.Files r s := by
    unfold Files
    rw [orders]
  refine consistent.next_step (fun r s => (same r s).mp) ?_ ?_ tasks ?_
  · rw [orders]
    exact consistent.records
  · intro r order isCached
    have before : order.id = r ∧ e.Files r order.symbol := by
      rw [cached] at isCached
      by_cases own : r = o
      · subst own
        rw [Function.update_self] at isCached
        exact copied order isCached
      · rw [Function.update_of_ne own] at isCached
        exact consistent.cached r order isCached
    exact ⟨before.1, (same _ _).mp before.2⟩
  · exact fun copy holds => (same _ _).mp (held copy holds)

/-- A step that writes the record of one order, under the symbol it has. -/
theorem Consistent.next_record (consistent : e.Consistent) (order : Order)
    (orders : ∀ r, after.store.orders r = if r = order.id then some order else e.store.orders r)
    (sameSymbol : ∀ old ∈ e.store.orders order.id, old.symbol = order.symbol)
    (normalized : normalizeSymbol order.symbol = order.symbol)
    (cached : after.cache.orders = e.cache.orders) (tasks : after.tasks = e.tasks)
    (held : ∀ copy ∈ next.holds, copy = (order.id, order.symbol)) :
    (after.setTask t next).Consistent := by
  have files (o : OrderId) (s : Symbol) (before : e.Files o s) : after.Files o s := by
    obtain ⟨old, stored, rfl⟩ := before
    unfold Files
    rw [orders]
    split_ifs with own
    · subst own
      exact ⟨order, rfl, (sameSymbol old stored).symm⟩
    · exact ⟨old, stored, rfl⟩
  refine consistent.next_step files ?_ ?_ tasks ?_
  · intro o other stored
    rw [orders] at stored
    split_ifs at stored with own
    · cases stored
      exact ⟨own.symm, normalized⟩
    · exact consistent.records o other stored
  · rw [cached]
    intro o other isCached
    obtain ⟨id, filed⟩ := consistent.cached o other isCached
    exact ⟨id, files _ _ filed⟩
  · intro copy holds
    rw [held copy holds]
    exact ⟨order, by rw [orders, if_pos rfl]; rfl, rfl⟩

theorem dutyOn_resume (rest : Option TickRest) : (Task.resume rest).dutyOn o = none := by
  cases rest <;> rfl

theorem holds_resume (rest : Option TickRest) : (Task.resume rest).holds = none := by
  cases rest <;> rfl

theorem dutyOn_execute (order : Order) (fillPrice : ℚ) (eff : Option ℚ)
    (rest : Option TickRest) : (Task.execute order fillPrice eff rest).dutyOn o = none := by
  unfold Task.execute
  cases eff.filter (0 < ·) with
  | none => exact dutyOn_resume rest
  | some eff =>
    dsimp only
    split_ifs
    · rfl
    · rfl

theorem holds_execute {order : Order} {fillPrice : ℚ} {eff : Option ℚ} {rest : Option TickRest}
    {copy : OrderId × Symbol} (holds : copy ∈ (Task.execute order fillPrice eff rest).holds) :
    copy = (order.id, order.symbol) := by
  unfold Task.execute at holds
  cases usable : eff.filter (0 < ·) with
  | none => simp [usable, holds_resume] at holds
  | some eff =>
    simp only [usable] at holds
    split_ifs at holds
    · exact (Option.some.inj holds).symm
    · exact (Option.some.inj holds).symm

/-- What handler `t` does to the books when its next command leads to `after`. -/
structure Moves (e : Engine) (t : ℕ) (after : Engine) (next : Task) : Prop where
  book : ∀ o, OrderBook.Move t (e.book o) ((after.setTask t next).book o)
  consistent : (after.setTask t next).Consistent

/-- A command that neither books nor writes orders. -/
theorem Moves.of_idle (consistent : e.Consistent) (store : after.store = e.store)
    (cached : after.cache.orders = e.cache.orders)
    (pending : after.cache.pendingOrders = e.cache.pendingOrders) (tasks : after.tasks = e.tasks)
    (duty : ∀ o, next.dutyOn o = (e.tasks t).dutyOn o)
    (held : ∀ copy ∈ next.holds, e.Files copy.1 copy.2) : Moves e t after next where
  book o := move_of_same (by rw [store]) (by simp [store]) (by simp [pending]) tasks (duty o)
  consistent := consistent.next_same (by rw [store]) cached tasks held

theorem dutyOn_of_none {task : Task} (none : task.duty = none) (o : OrderId) :
    task.dutyOn o = Option.none := by
  simp [Task.dutyOn, none]

theorem dutyOn_eq (task : Task) {d : Duty} (owes : task.duty = some (r, d)) (o : OrderId) :
    task.dutyOn o = if r = o then some d else none := by
  by_cases same : r = o <;> simp [Task.dutyOn, owes, same]

theorem moves_placeSetOrder {cmd : PlaceOrderCommand} {input : Input}
    (consistent : e.Consistent) (own : e.tasks t = .placeSetOrder cmd)
    (inTurn : e.TaskInTurn input (.placeSetOrder cmd)) :
    Moves e t { e with store := e.store.setOrder cmd.orderId cmd.toOrder }
      (.placeAddPending cmd) := by
  obtain ⟨sameSymbol, free⟩ := inTurn
  constructor
  · intro o
    by_cases same : cmd.orderId = o
    · subst same
      have filed : ∀ r ∈ (e.book cmd.orderId).filed, r.1 = normalizeSymbol cmd.symbol := by
        intro r isFiled
        obtain ⟨order, stored, rfl⟩ := Option.map_eq_some_iff.mp isFiled
        exact sameSymbol order stored
      refine move_at (.file free filed) ?_ rfl rfl rfl ?_
      · simp [book, Store.orders_setOrder, PlaceOrderCommand.toOrder]
      · rw [dutyOn_eq (.placeAddPending cmd) rfl, if_pos rfl]
    · refine move_of_same ?_ (fun _ => .rfl) (fun _ => .rfl) rfl ?_
      · simp [Store.orders_setOrder, Ne.symm same]
      · rw [own, dutyOn_eq (.placeAddPending cmd) rfl, if_neg same]
        rfl
  · refine consistent.next_record cmd.toOrder ?_ sameSymbol ?_ rfl rfl ?_
    · intro r
      exact Store.orders_setOrder ..
    · exact normalizeSymbol_normalizeSymbol cmd.symbol
    · intro copy holds
      exact (Option.some.inj holds).symm

theorem moves_placeAddPending {cmd : PlaceOrderCommand} (consistent : e.Consistent)
    (own : e.tasks t = .placeAddPending cmd) :
    Moves e t { e with store := e.store.zaddPending (normalizeSymbol cmd.symbol) cmd.orderId }
      (.placeAddCache cmd) := by
  have files := consistent.held t (cmd.orderId, normalizeSymbol cmd.symbol) (by rw [own]; rfl)
  constructor
  · intro o
    by_cases same : cmd.orderId = o
    · subst same
      obtain ⟨pending, filed⟩ := filed_of_files files
      have due : (e.book cmd.orderId).duties t = some .list := by
        simp only [book, own]
        rw [dutyOn_eq (.placeAddPending cmd) rfl, if_pos rfl]
      refine move_at (.list filed due) rfl ?_ rfl rfl ?_
      · ext r
        simp [book, mem_zaddPending]
      · rw [dutyOn_eq (.placeAddCache cmd) rfl, if_pos rfl]
    · refine move_of_same rfl ?_ (fun _ => .rfl) rfl ?_
      · simp [mem_zaddPending, Ne.symm same]
      · rw [own, dutyOn_eq (.placeAddCache cmd) rfl, dutyOn_eq (.placeAddPending cmd) rfl,
          if_neg same, if_neg same]
  · refine consistent.next_same rfl rfl rfl ?_
    intro copy holds
    cases holds
    exact files

theorem moves_placeAddCache {cmd : PlaceOrderCommand} (consistent : e.Consistent)
    (own : e.tasks t = .placeAddCache cmd)
    (goesOn : next = .placeResolvePrice cmd ∨ next = .done) :
    Moves e t { e with cache := e.cache.addPendingOrder cmd.toOrder.symbol cmd.orderId cmd.toOrder }
      next := by
  have files := consistent.held t (cmd.orderId, normalizeSymbol cmd.symbol) (by rw [own]; rfl)
  have noDuty (o : OrderId) : next.dutyOn o = none := by
    rcases goesOn with rfl | rfl <;> rfl
  have sameSymbol : normalizeSymbol cmd.toOrder.symbol = normalizeSymbol cmd.symbol :=
    normalizeSymbol_normalizeSymbol cmd.symbol
  constructor
  · intro o
    by_cases same : cmd.orderId = o
    · subst same
      obtain ⟨pending, filed⟩ := filed_of_files files
      have due : (e.book cmd.orderId).duties t = some .cache := by
        simp only [book, own]
        rw [dutyOn_eq (.placeAddCache cmd) rfl, if_pos rfl]
      refine move_at (.cache filed due) rfl rfl ?_ rfl ?_
      · ext r
        simp [book, mem_addPendingOrder, sameSymbol]
      · rw [noDuty]
    · refine move_of_same rfl (fun _ => .rfl) ?_ rfl ?_
      · simp [mem_addPendingOrder, Ne.symm same]
      · rw [own, noDuty, dutyOn_eq (.placeAddCache cmd) rfl, if_neg same]
  · refine consistent.next_cached rfl rfl ?_ rfl ?_
    · intro order isCopy
      cases isCopy
      exact ⟨rfl, files⟩
    · intro copy holds
      rcases goesOn with rfl | rfl
      · cases holds
        exact files
      · cases holds

/-- The removal of an order from the cache, by a task that owes it. -/
theorem moves_removePending {d : Duty} (consistent : e.Consistent)
    (owes : (e.tasks t).duty = some (o, d)) (files : e.Files o symbol)
    (goesOn : d = .uncache ∧ (∀ r, next.dutyOn r = none) ∨
      d = .uncacheAndUnlist ∧ next.duty = some (o, .unlist))
    (held : ∀ copy ∈ next.holds, e.Files copy.1 copy.2) :
    Moves e t { e with cache := e.cache.removePendingOrder symbol o } next := by
  have normalized := consistent.normalized files
  have duty (r : OrderId) : (e.tasks t).dutyOn r = if o = r then some d else none :=
    dutyOn_eq _ owes r
  constructor
  · intro r
    by_cases same : o = r
    · subst same
      obtain ⟨pending, filed⟩ := filed_of_files files
      have due : (e.book o).duties t = some d := by
        simp only [book, duty, if_true]
      have uncached : ({ e with cache := e.cache.removePendingOrder symbol o }.book o).cached =
          (e.book o).cached \ {symbol} := by
        ext r
        simp [book, mem_removePendingOrder, normalized]
      rcases goesOn with ⟨rfl, noDuty⟩ | ⟨rfl, owesUnlist⟩
      · refine move_at (.uncache filed due) rfl rfl uncached rfl ?_
        rw [noDuty]
      · refine move_at (.uncacheRejected filed due) rfl rfl uncached rfl ?_
        rw [dutyOn_eq _ owesUnlist, if_pos rfl]
    · refine move_of_same rfl (fun _ => .rfl) ?_ rfl ?_
      · simp [mem_removePendingOrder, Ne.symm same]
      · rw [duty, if_neg same]
        rcases goesOn with ⟨-, noDuty⟩ | ⟨-, owesUnlist⟩
        · exact noDuty r
        · rw [dutyOn_eq _ owesUnlist, if_neg same]
  · refine consistent.next_cached rfl rfl ?_ rfl held
    simp

theorem moves_updateOrder {order : Order} (consistent : e.Consistent)
    (files : e.Files order.id order.symbol) (duty : next.duty = (e.tasks t).duty)
    (held : ∀ copy ∈ next.holds, e.Files copy.1 copy.2) :
    Moves e t { e with cache := e.cache.updateOrder order } next := by
  constructor
  · intro o
    refine move_of_same rfl (fun _ => .rfl) (fun _ => .rfl) rfl ?_
    simp only [Task.dutyOn, duty]
  · refine consistent.next_cached rfl rfl ?_ rfl held
    intro copy isCopy
    cases isCopy
    exact ⟨rfl, files⟩

theorem moves_rejectSetOrder {order : Order} {rest : Option TickRest} (reason : String)
    (timestampMs : Millis) (consistent : e.Consistent)
    (own : e.tasks t = .rejectSetOrder order rest) (inTurn : e.NotBeingPlaced order.id) :
    Moves e t { e with store := e.store.setOrder order.id (order.rejected reason timestampMs) }
      (.rejectUpdateCache order rest) := by
  have files := consistent.held t (order.id, order.symbol) (by rw [own]; rfl)
  constructor
  · intro o
    by_cases same : order.id = o
    · subst same
      obtain ⟨pending, filed⟩ := filed_of_files files
      have free : (e.book order.id).duties t = none := by
        simp only [book, own]
        rfl
      refine move_at (.reject filed free inTurn) ?_ rfl rfl rfl ?_
      · simp [book, Store.orders_setOrder, Order.rejected]
      · rw [dutyOn_eq (.rejectUpdateCache order rest) rfl, if_pos rfl]
    · refine move_of_same ?_ (fun _ => .rfl) (fun _ => .rfl) rfl ?_
      · simp [Store.orders_setOrder, Ne.symm same]
      · rw [own, dutyOn_eq (.rejectUpdateCache order rest) rfl, if_neg same]
        rfl
  · refine consistent.next_record (order.rejected reason timestampMs) ?_ ?_ ?_ rfl rfl ?_
    · intro r
      exact Store.orders_setOrder ..
    · intro old stored
      obtain ⟨order', stored', same⟩ := files
      cases Option.some.inj (stored'.symm.trans stored)
      exact same
    · exact consistent.normalized files
    · intro copy holds
      exact (Option.some.inj holds).symm

theorem moves_rejectZrem {order : Order} {rest : Option TickRest} (consistent : e.Consistent)
    (own : e.tasks t = .rejectZrem order rest) :
    Moves e t { e with store := e.store.zremPending order.symbol order.id } (.resume rest) := by
  have files := consistent.held t (order.id, order.symbol) (by rw [own]; rfl)
  constructor
  · intro o
    by_cases same : order.id = o
    · subst same
      obtain ⟨pending, filed⟩ := filed_of_files files
      have due : (e.book order.id).duties t = some .unlist := by
        simp only [book, own]
        rw [dutyOn_eq (.rejectZrem order rest) rfl, if_pos rfl]
      refine move_at (.unlist filed due) rfl ?_ rfl rfl ?_
      · ext r
        simp [book, mem_zremPending]
      · rw [dutyOn_resume]
    · refine move_of_same rfl ?_ (fun _ => .rfl) rfl ?_
      · simp [mem_zremPending, Ne.symm same]
      · rw [own, dutyOn_resume, dutyOn_eq (.rejectZrem order rest) rfl, if_neg same]
  · refine consistent.next_same rfl rfl rfl ?_
    simp [holds_resume]

theorem Files.symbol_eq {order : Order} (files : e.Files o symbol)
    (stored : e.store.orders o = some order) : symbol = order.symbol := by
  obtain ⟨other, isOther, rfl⟩ := files
  cases Option.some.inj (stored.symm.trans isOther)
  rfl

/-- A script takes a pending order to another status and out of the pending set. -/
theorem moves_settle {order settled : Order} (consistent : e.Consistent)
    (free : (e.tasks t).duty = none) (inTurn : e.NotBeingPlaced o)
    (stored : e.store.orders o = some order) (wasPending : order.status = .PENDING)
    (written : settled.id = o ∧ settled.symbol = order.symbol ∧ settled.status ≠ .PENDING)
    (orders : ∀ r, after.store.orders r = if r = o then some settled else e.store.orders r)
    (pending : after.store.pending = (e.store.zremPending order.symbol o).pending)
    (cache : after.cache = e.cache) (tasks : after.tasks = e.tasks)
    (owes : next.duty = some (o, .uncache))
    (held : ∀ copy ∈ next.holds, copy.1 = o ∧ e.Files o copy.2) : Moves e t after next := by
  obtain ⟨rfl, symbol, status⟩ := written
  constructor
  · intro r
    by_cases same : settled.id = r
    · subst same
      have filed : (e.book settled.id).filed = some (order.symbol, true) := by
        simp [book, stored, wasPending]
      have noDuty : (e.book settled.id).duties t = none := dutyOn_of_none free _
      refine move_at (.settle filed noDuty inTurn) ?_ ?_ ?_ tasks ?_
      · simp [book, orders, symbol, status]
      · ext r
        simp [book, pending, mem_zremPending]
      · simp [book, cache]
      · rw [dutyOn_eq _ owes, if_pos rfl]
    · refine move_of_same ?_ ?_ ?_ tasks ?_
      · rw [orders, if_neg (Ne.symm same)]
      · simp [pending, mem_zremPending, Ne.symm same]
      · simp [cache]
      · rw [dutyOn_eq _ owes, if_neg same, dutyOn_of_none free]
  · refine consistent.next_record settled orders ?_ ?_ (by rw [cache]) tasks ?_
    · intro old isOld
      cases Option.some.inj (stored.symm.trans isOld)
      exact symbol.symm
    · rw [symbol]
      exact (consistent.records _ order stored).2
    · intro copy holds
      obtain ⟨sameId, files⟩ := held copy holds
      exact Prod.ext sameId ((files.symbol_eq stored).trans symbol.symm)

theorem moves_cancelScript {order : Order} {input : Input} (consistent : e.Consistent)
    (own : e.tasks t = .cancelScript o order) (inTurn : e.NotBeingPlaced o)
    (taken : e.advance input (.cancelScript o order) = some (after, next)) : Moves e t after next := by
  have files := consistent.held t (o, order.symbol) (by rw [own]; rfl)
  have free : (e.tasks t).duty = none := by rw [own]; rfl
  have idle : Moves e t e .done := by
    refine .of_idle consistent rfl rfl rfl rfl ?_ ?_
    · intro r
      rw [dutyOn_of_none free]
      rfl
    · intro copy holds
      cases holds
  simp only [advance] at taken
  unfold atomicCancelOrder at taken
  cases stored : e.store.orders o with
  | none =>
    simp only [stored] at taken
    cases taken
    exact idle
  | some found =>
    by_cases pending : found.status = .PENDING
    · simp only [stored, pending, ne_eq, not_true_eq_false, if_false] at taken
      cases taken
      obtain ⟨id, -⟩ := consistent.records o found stored
      have written : (found.canceled input.timestampMs).id = o ∧
          (found.canceled input.timestampMs).symbol = found.symbol ∧
          (found.canceled input.timestampMs).status ≠ .PENDING :=
        ⟨id, rfl, by simp [Order.canceled]⟩
      refine moves_settle consistent free inTurn stored pending written ?_ rfl rfl rfl rfl ?_
      · intro r
        exact Store.orders_setOrder ..
      · intro copy holds
        cases holds
        exact ⟨rfl, files⟩
    · simp only [stored, ne_eq, pending, not_false_eq_true, if_true] at taken
      cases taken
      exact idle

/-- A fill that indexes no null level writes nothing, or it succeeds and takes
its order to FILLED and out of the pending set. -/
theorem fillScript_cases (st : Store) (args : FillArgs) (existing old : List PositionId)
    (present : ∀ stored ∈ st.orders args.orderId, args.Pass stored →
      ∀ levels ∈ stored.indexedLevels st args.fillSize existing old, levels.Present) :
    (∃ e, atomicFillOrder st args existing old = .error st e) ∨
    atomicFillOrder st args existing old = .raised st ∨
    ∃ order after result, st.orders args.orderId = some order ∧ order.status = .PENDING ∧
      atomicFillOrder st args existing old = .success after result ∧
      after.orderRecords = (st.markFilled args order).orderRecords ∧
      after.pending = (st.markFilled args order).pending := by
  rcases atomicFillOrder_cases st args existing old with failed | raised |
    ⟨order, el, accepted, outcome⟩
  · exact .inl failed
  · exact .inr (.inl raised)
  · obtain ⟨after, result, filled⟩ :=
      accepted.succeeds_iff.mpr (present order accepted.stored accepted.pass)
    have applied : storeLeft Prod.fst (Fill.applyToPositions (st.markFilled args order)
        (Fill.ofArgs args order el accepted.leverage_pos) existing old) = after := by
      rw [accepted.outcome] at filled
      generalize Fill.applyToPositions _ _ _ _ = done at filled
      cases done with
      | error left => cases filled
      | ok done =>
        cases filled
        rfl
    have records : (storeLeft Prod.fst (Fill.applyToPositions (st.markFilled args order)
        (Fill.ofArgs args order el accepted.leverage_pos) existing old)).orderRecords =
        (st.markFilled args order).orderRecords := Fill.sameOrders_applyToPositions
    have ignores : IgnoresPositions Store.pending := fun _ _ _ _ _ _ => rfl
    have pending : (storeLeft Prod.fst (Fill.applyToPositions (st.markFilled args order)
        (Fill.ofArgs args order el accepted.leverage_pos) existing old)).pending =
        (st.markFilled args order).pending := Fill.read_applyToPositions ignores
    rw [applied] at records pending
    exact .inr (.inr ⟨order, after, result, accepted.stored, accepted.pending, filled, records,
      pending⟩)

theorem stored_of_orderNotPending {st after : Store} {args : FillArgs} {status : OrderStatus}
    {existing old : List PositionId}
    (failed : atomicFillOrder st args existing old = .error after (.orderNotPending status)) :
    ∃ order, st.orders args.orderId = some order ∧ order.status = status := by
  unfold atomicFillOrder at failed
  cases leverage : args.effectiveLeverage with
  | none => simp [leverage] at failed
  | some el =>
    by_cases positive : 0 < el
    · cases stored : st.orders args.orderId with
      | none => simp [leverage, positive, stored] at failed
      | some order =>
        by_cases pending : order.status = .PENDING
        · simp only [leverage, positive, stored, pending, dif_pos, ne_eq, not_true_eq_false,
            if_false] at failed
          cases met : limitPriceMet order args.fillPrice with
          | none => simp [met] at failed
          | some met' =>
            cases met' with
            | false => simp [met] at failed
            | true =>
              simp only [met] at failed
              generalize Fill.applyToPositions _ _ _ _ = done at failed
              cases done <;> cases failed
        · simp only [leverage, positive, stored, pending, dif_pos, ne_eq, not_false_eq_true,
            if_true] at failed
          cases failed
          exact ⟨order, rfl, rfl⟩
    · simp [leverage, positive] at failed

/-- The reply that the order is FILLED already is handled like a fill. -/
theorem moves_filledBefore {order stored : Order} {fillPrice : ℚ} {rest : Option TickRest}
    (consistent : e.Consistent) (free : (e.tasks t).duty = none)
    (files : e.Files order.id order.symbol) (isStored : e.store.orders order.id = some stored)
    (filled : stored.status = .FILLED) :
    Moves e t e (.filledUpdateCache order fillPrice rest) := by
  constructor
  · intro o
    by_cases same : order.id = o
    · subst same
      have filed : (e.book order.id).filed = some (stored.symbol, false) := by
        simp [book, isStored, filled]
      have noDuty : (e.book order.id).duties t = none := dutyOn_of_none free _
      refine move_at (.settledBefore filed noDuty) rfl rfl rfl rfl ?_
      rw [dutyOn_eq (.filledUpdateCache order fillPrice rest) rfl, if_pos rfl]
    · refine move_of_same rfl (fun _ => .rfl) (fun _ => .rfl) rfl ?_
      rw [dutyOn_eq (.filledUpdateCache order fillPrice rest) rfl, if_neg same,
        dutyOn_of_none free]
  · refine consistent.next_same rfl rfl rfl ?_
    intro copy holds
    cases holds
    exact files

theorem moves_fillScript {order : Order} {fillPrice eff : ℚ} {rest : Option TickRest}
    {input : Input} (consistent : e.Consistent) (own : e.tasks t = .fillScript order fillPrice eff rest)
    (inTurn : e.TaskInTurn input (.fillScript order fillPrice eff rest)) :
    Moves e t (e.runFillScript input order fillPrice eff rest).1
      (e.runFillScript input order fillPrice eff rest).2 := by
  obtain ⟨notPlaced, present⟩ := inTurn
  have files := consistent.held t (order.id, order.symbol) (by rw [own]; rfl)
  have free : (e.tasks t).duty = none := by rw [own]; rfl
  have idle : Moves e t e (.resume rest) := by
    refine .of_idle consistent rfl rfl rfl rfl ?_ ?_
    · intro r
      rw [dutyOn_of_none free, dutyOn_resume]
    · simp [holds_resume]
  unfold runFillScript
  rcases fillScript_cases e.store (fillArgs order fillPrice eff input) input.existing input.old
    present with ⟨error, failed⟩ | raised | ⟨stored, after, result, isStored, wasPending, filled,
      records, pending⟩
  · simp only [failed]
    by_cases before : error = .orderNotPending .FILLED
    · subst before
      obtain ⟨stored, isStored, filled⟩ := stored_of_orderNotPending failed
      exact moves_filledBefore consistent free files isStored filled
    · cases error with
      | missingEffectiveLeverage => exact idle
      | orderNotFound => exact idle
      | limitPriceNotMet => exact idle
      | orderNotPending status =>
        cases status with
        | FILLED => exact absurd rfl before
        | _ => exact idle
  · simp only [raised]
    exact idle
  · simp only [filled]
    obtain ⟨id, -⟩ := consistent.records _ stored isStored
    have written : (stored.filled (fillArgs order fillPrice eff input)).id = order.id ∧
        (stored.filled (fillArgs order fillPrice eff input)).symbol = stored.symbol ∧
        (stored.filled (fillArgs order fillPrice eff input)).status ≠ .PENDING :=
      ⟨id, rfl, by simp [Order.filled]⟩
    refine moves_settle consistent free notPlaced isStored wasPending written ?_ pending rfl rfl
      rfl ?_
    · intro r
      rw [← Store.orders_setOrder]
      unfold Store.orders
      rw [records]
      rfl
    · intro copy holds
      cases holds
      exact ⟨rfl, files⟩

theorem moves_execute {order : Order} {fillPrice : ℚ} {eff : Option ℚ} {rest : Option TickRest}
    (consistent : e.Consistent) (free : (e.tasks t).duty = none)
    (files : e.Files order.id order.symbol) : Moves e t e (.execute order fillPrice eff rest) := by
  refine .of_idle consistent rfl rfl rfl rfl ?_ ?_
  · intro o
    rw [dutyOn_execute, dutyOn_of_none free]
  · intro copy holds
    rw [holds_execute holds]
    exact files

/-- What the next command of a handler does, taken in turn. -/
theorem advance_moves {input : Input} (consistent : e.Consistent)
    (inTurn : e.TaskInTurn input (e.tasks t))
    (taken : e.advance input (e.tasks t) = some (after, next)) : Moves e t after next := by
  have idle {next : Task} (free : (e.tasks t).duty = none) (noDuty : next.duty = none)
      (holds : next.holds = none) : Moves e t e next := by
    refine .of_idle consistent rfl rfl rfl rfl ?_ (by simp [holds])
    intro o
    rw [dutyOn_of_none free, dutyOn_of_none noDuty]
  have held := consistent.held t
  generalize own : e.tasks t = task at inTurn taken held idle
  cases task with
  | done => cases taken
  | placeGetKey cmd =>
    simp only [advance] at taken
    cases known : e.keys cmd.idempotencyKey with
    | some o =>
      simp only [known] at taken
      cases taken
      exact idle rfl rfl rfl
    | none =>
      simp only [known] at taken
      cases taken
      split_ifs
      · exact idle rfl rfl rfl
      · exact idle rfl rfl rfl
  | placeSetKey cmd =>
    cases taken
    exact .of_idle consistent rfl rfl rfl rfl (fun o => by rw [own]; rfl) (by simp [Task.holds])
  | placeSetOrder cmd =>
    cases taken
    exact moves_placeSetOrder consistent own inTurn
  | placeAddPending cmd =>
    cases taken
    exact moves_placeAddPending consistent own
  | placeAddCache cmd =>
    cases taken
    refine moves_placeAddCache consistent own ?_
    split_ifs <;> simp
  | placeResolvePrice cmd =>
    simp only [advance] at taken
    cases quoted : input.price with
    | none =>
      simp only [quoted] at taken
      cases taken
      exact idle rfl rfl rfl
    | some price =>
      simp only [quoted] at taken
      cases taken
      exact moves_execute consistent (by rw [own]; rfl) (held _ rfl)
  | fillScript order fillPrice eff rest =>
    simp only [advance] at taken
    split_ifs at taken
    have moves := moves_fillScript consistent own inTurn
    rw [Option.some.inj taken] at moves
    exact moves
  | filledUpdateCache order fillPrice rest =>
    cases taken
    refine moves_updateOrder consistent (held _ rfl) (by rw [own]; rfl) ?_
    intro copy holds
    cases holds
    exact held _ rfl
  | filledRemovePending order rest =>
    cases taken
    refine moves_removePending consistent (by rw [own]; rfl) (held _ rfl)
      (.inl ⟨rfl, fun o => dutyOn_resume rest⟩) ?_
    simp [holds_resume]
  | rejectSetOrder order rest =>
    cases taken
    exact moves_rejectSetOrder _ _ consistent own inTurn
  | rejectUpdateCache order rest =>
    cases taken
    refine moves_updateOrder consistent (held _ rfl) (by rw [own]; rfl) ?_
    intro copy holds
    cases holds
    exact held _ rfl
  | rejectRemovePending order rest =>
    cases taken
    refine moves_removePending consistent (by rw [own]; rfl) (held _ rfl) (.inr ⟨rfl, rfl⟩) ?_
    intro copy holds
    cases holds
    exact held _ rfl
  | rejectZrem order rest =>
    cases taken
    exact moves_rejectZrem consistent own
  | tickPending tick groupId =>
    simp only [advance] at taken
    split_ifs at taken
    · cases taken
      exact idle rfl rfl rfl
    · cases taken
      exact .of_idle consistent rfl rfl rfl rfl (fun o => by rw [own]; rfl) (by simp [Task.holds])
  | tickOrders rest =>
    obtain ⟨tick, groupId, ids⟩ := rest
    cases ids with
    | nil =>
      cases taken
      exact idle rfl rfl rfl
    | cons o ids =>
      simp only [advance] at taken
      cases isCached : e.cache.orders o with
      | none =>
        simp only [isCached] at taken
        cases taken
        exact idle rfl rfl rfl
      | some order =>
        obtain ⟨id, files⟩ := consistent.cached o order isCached
        simp only [isCached] at taken
        split_ifs at taken
        · cases taken
          exact moves_execute consistent (by rw [own]; rfl) (id ▸ files)
        · cases taken
          exact idle rfl rfl rfl
  | cancelRead o userId =>
    have copied : ∀ order ∈ (e.cache.orders o).orElse fun _ => e.store.orders o,
        e.Files o order.symbol := by
      intro order isRead
      cases isCached : e.cache.orders o with
      | some cached =>
        rw [isCached] at isRead
        cases isRead
        exact (consistent.cached o order isCached).2
      | none =>
        rw [isCached] at isRead
        exact ⟨order, isRead, rfl⟩
    simp only [advance] at taken
    cases read : (e.cache.orders o).orElse fun _ => e.store.orders o with
    | none =>
      simp only [read] at taken
      cases taken
      exact idle rfl rfl rfl
    | some order =>
      simp only [read] at taken
      split_ifs at taken
      · cases taken
        refine .of_idle consistent rfl rfl rfl rfl (fun r => by rw [own]; rfl) ?_
        intro copy holds
        cases holds
        exact copied order read
      · cases taken
        exact idle rfl rfl rfl
  | cancelScript o order => exact moves_cancelScript consistent own inTurn taken
  | cancelRemovePending o order =>
    cases taken
    refine moves_removePending consistent (by rw [own]; rfl) (held _ rfl)
      (.inl ⟨rfl, fun r => rfl⟩) ?_
    simp [Task.holds]

/-- What holds between any two steps. -/
structure KeepsBooks (e : Engine) : Prop where
  consistent : e.Consistent
  balanced : ∀ o, (e.book o).Balanced

theorem Moves.keepsBooks (moves : Moves e t after next) (keeps : e.KeepsBooks) :
    (after.setTask t next).KeepsBooks where
  consistent := moves.consistent
  balanced o := (moves.book o).balanced (keeps.balanced o)

theorem KeepsBooks.switch (keeps : e.KeepsBooks) (free : (e.tasks t).duty = none)
    (noDuty : next.duty = none) (holds : next.holds = none) : (e.setTask t next).KeepsBooks := by
  refine (Moves.of_idle keeps.consistent rfl rfl rfl rfl ?_ (by simp [holds])).keepsBooks keeps
  intro o
  rw [dutyOn_of_none free, dutyOn_of_none noDuty]

theorem KeepsBooks.step {action : EngineAction} (keeps : e.KeepsBooks) (inTurn : e.InTurn action)
    (taken : e.step action = some after) : after.KeepsBooks := by
  cases action with
  | place t cmd =>
    simp only [Engine.step] at taken
    split_ifs at taken with idle
    cases taken
    exact keeps.switch (by rw [idle]; rfl) rfl rfl
  | tick t tick groupId =>
    simp only [Engine.step] at taken
    split_ifs at taken with idle
    cases taken
    exact keeps.switch (by rw [idle]; rfl) rfl rfl
  | cancel t o userId =>
    simp only [Engine.step] at taken
    split_ifs at taken with idle
    cases taken
    exact keeps.switch (by rw [idle]; rfl) rfl rfl
  | advance t input =>
    obtain ⟨⟨e', next⟩, advanced, rfl⟩ := Option.map_eq_some_iff.mp taken
    exact (advance_moves keeps.consistent inTurn advanced).keepsBooks keeps
  | abort t =>
    cases taken
    exact keeps.switch inTurn rfl rfl
  | expireKey key =>
    cases taken
    exact ⟨⟨keeps.consistent.records, keeps.consistent.cached, keeps.consistent.held⟩,
      keeps.balanced⟩

end Books

section Warming
variable {st : Store} {listing : List (Symbol × List OrderId)} {s : Symbol} {o : OrderId}

theorem mem_warm (symbol : Symbol) (c : OrderCache) (r : OrderId) :
    o ∈ (c.warm st symbol r).pendingOrders s ↔ o ∈ c.pendingOrders s ∨
      o = r ∧ s = normalizeSymbol symbol ∧ ∃ order ∈ st.orders r, order.status = .PENDING := by
  unfold OrderCache.warm
  cases stored : st.orders r with
  | none => simp
  | some order =>
    by_cases pending : order.status = .PENDING
    · simp only [pending, if_true, mem_addPendingOrder]
      simp [pending, and_comm, or_comm]
    · simp [pending]

theorem mem_foldl_warm (symbol : Symbol) (ids : List OrderId) (c : OrderCache) :
    o ∈ (ids.foldl (.warm st symbol) c).pendingOrders s ↔ o ∈ c.pendingOrders s ∨
      o ∈ ids ∧ s = normalizeSymbol symbol ∧ ∃ order ∈ st.orders o, order.status = .PENDING := by
  induction ids generalizing c with
  | nil => simp
  | cons r rest ih =>
    rw [List.foldl_cons, ih, mem_warm, List.mem_cons, or_assoc]
    refine or_congr_right ?_
    constructor
    · rintro (⟨rfl, found⟩ | ⟨later, found⟩)
      · exact ⟨.inl rfl, found⟩
      · exact ⟨.inr later, found⟩
    · rintro ⟨rfl | later, found⟩
      · exact .inl ⟨rfl, found⟩
      · exact .inr ⟨later, found⟩

theorem mem_warmOrderCache : o ∈ (warmOrderCache st listing).pendingOrders s ↔
    ∃ reply ∈ listing, o ∈ reply.2 ∧ s = normalizeSymbol reply.1 ∧
      ∃ order ∈ st.orders o, order.status = .PENDING := by
  unfold warmOrderCache
  have folded (c : OrderCache) : o ∈ (listing.foldl (fun c reply => reply.2.foldl
      (.warm st reply.1) c) c).pendingOrders s ↔ o ∈ c.pendingOrders s ∨
      ∃ reply ∈ listing, o ∈ reply.2 ∧ s = normalizeSymbol reply.1 ∧
        ∃ order ∈ st.orders o, order.status = .PENDING := by
    induction listing generalizing c with
    | nil => simp
    | cons reply rest ih =>
      rw [List.foldl_cons, ih, mem_foldl_warm, or_assoc]
      simp
  rw [folded]
  simp [OrderCache.new]

/-- The cached copies are the records. -/
def Copies (st : Store) (c : OrderCache) : Prop :=
  ∀ o, ∀ order ∈ c.orders o, order ∈ st.orders o

theorem copies_warm (symbol : Symbol) {c : OrderCache} (copies : Copies st c) (r : OrderId) :
    Copies st (c.warm st symbol r) := by
  unfold OrderCache.warm
  cases stored : st.orders r with
  | none => exact copies
  | some record =>
    dsimp only
    split_ifs
    · intro o order isCached
      by_cases same : o = r
      · subst same
        simp only [OrderCache.addPendingOrder, Function.update_self] at isCached
        rw [stored]
        exact isCached
      · simp only [OrderCache.addPendingOrder, Function.update_of_ne same] at isCached
        exact copies o order isCached
    · exact copies

theorem copies_warmOrderCache : Copies st (warmOrderCache st listing) := by
  have inner (symbol : Symbol) (ids : List OrderId) (c : OrderCache) (copies : Copies st c) :
      Copies st (ids.foldl (.warm st symbol) c) := by
    induction ids generalizing c with
    | nil => exact copies
    | cons r rest ih => exact ih _ (copies_warm symbol copies r)
  have outer (c : OrderCache) (copies : Copies st c) : Copies st (listing.foldl
      (fun c reply => reply.2.foldl (.warm st reply.1) c) c) := by
    induction listing generalizing c with
    | nil => exact copies
    | cons reply rest ih => exact ih _ (inner reply.1 reply.2 c copies)
  refine outer .new ?_
  intro o order isCached
  cases isCached

theorem keepsBooks_warmed {keys : String → Option OrderId} (kept : st.PendingKept)
    (lists : Lists st listing) : (warmed st keys listing).KeepsBooks := by
  have cached (o : OrderId) (s : Symbol) : o ∈ (warmOrderCache st listing).pendingOrders s ↔
      o ∈ st.pending s := by
    rw [mem_warmOrderCache]
    constructor
    · rintro ⟨reply, isReply, listed, rfl, -⟩
      rw [← List.mem_toFinset, lists.ids reply isReply] at listed
      obtain ⟨order, stored, symbol, -⟩ := (kept.pending _ _).mp listed
      rwa [← symbol, (kept.records o order stored).2, symbol]
    · intro listed
      obtain ⟨order, stored, symbol, pending⟩ := (kept.pending _ _).mp listed
      have answered := lists.keys s (Finset.ne_empty_of_mem listed)
      obtain ⟨reply, isReply, rfl⟩ := List.mem_map.mp answered
      refine ⟨reply, isReply, ?_, ?_, order, stored, pending⟩
      · rw [← List.mem_toFinset, lists.ids reply isReply]
        exact listed
      · rw [← symbol, (kept.records o order stored).2]
  constructor
  · refine ⟨kept.records, ?_, ?_⟩
    · intro o order isCached
      have stored : order ∈ st.orders o := copies_warmOrderCache o order isCached
      exact ⟨(kept.records o order stored).1, order, stored, rfl⟩
    · intro t copy holds
      cases holds
  · intro o
    have listed (s : Symbol) : s ∈ ((warmed st keys listing).book o).listed ↔
        ((warmed st keys listing).book o).filed = some (s, true) := by
      simp [book, warmed, kept.pending, Option.map_eq_some_iff]
    have same : ((warmed st keys listing).book o).cached =
        ((warmed st keys listing).book o).listed := Set.ext (cached o)
    exact OrderBook.balanced_of_agrees (fun t => rfl) listed same

end Warming

/-- Whenever no handler is mid-flight, the cache's pending sets, those of Redis
and the statuses of the orders agree. -/
theorem pendingAgrees_of_run {st : Store} {keys : String → Option OrderId}
    {listing : List (Symbol × List OrderId)} {actions : List EngineAction} {e : Engine}
    (kept : st.PendingKept) (lists : Lists st listing)
    (run : GuardedRun step InTurn (warmed st keys listing) actions e) (quiet : e.Quiet)
    (symbol : Symbol) : e.PendingAgrees symbol := by
  have keeps : e.KeepsBooks := run.invariant (keepsBooks_warmed kept lists)
    fun _ _ _ inTurn taken keeps => keeps.step inTurn taken
  intro o
  have free (t : ℕ) : (e.book o).duties t = none := by
    simp only [book, quiet t]
    rfl
  obtain ⟨cached, listed⟩ := (keeps.balanced o).agrees free symbol
  have filed : (e.book o).filed = some (symbol, true) ↔
      ∃ order ∈ e.store.orders o, order.symbol = symbol ∧ order.status = .PENDING := by
    simp [book, Option.map_eq_some_iff]
  exact ⟨cached.trans listed.symm, listed.trans filed⟩

section OneTask
variable {e after : Engine} {t u : ℕ} {next : Task}

theorem runFillScript_tasks (input : Input) (order : Order) (fillPrice eff : ℚ)
    (rest : Option TickRest) : (e.runFillScript input order fillPrice eff rest).1.tasks = e.tasks := by
  unfold runFillScript
  generalize atomicFillOrder _ _ _ _ = reply
  cases reply with
  | success store result => rfl
  | raised store => rfl
  | error store error =>
    by_cases before : error = .orderNotPending .FILLED
    · subst before
      rfl
    · cases error with
      | missingEffectiveLeverage => rfl
      | orderNotFound => rfl
      | limitPriceNotMet => rfl
      | orderNotPending status => cases status <;> rfl

theorem advance_tasks {input : Input} {task : Task}
    (taken : e.advance input task = some (after, next)) : after.tasks = e.tasks := by
  cases task with
  | done => cases taken
  | placeGetKey cmd =>
    simp only [advance] at taken
    split at taken <;> cases taken <;> rfl
  | placeResolvePrice cmd =>
    simp only [advance] at taken
    split at taken <;> cases taken <;> rfl
  | fillScript order fillPrice eff rest =>
    simp only [advance] at taken
    split_ifs at taken
    have tasks := runFillScript_tasks (e := e) input order fillPrice eff rest
    rw [Option.some.inj taken] at tasks
    exact tasks
  | tickPending tick groupId =>
    simp only [advance] at taken
    split_ifs at taken <;> cases taken <;> rfl
  | tickOrders rest =>
    obtain ⟨tick, groupId, ids⟩ := rest
    cases ids with
    | nil => cases taken; rfl
    | cons o ids =>
      simp only [advance] at taken
      cases isCached : e.cache.orders o with
      | none =>
        simp only [isCached] at taken
        cases taken
        rfl
      | some order =>
        simp only [isCached] at taken
        split_ifs at taken <;> cases taken <;> rfl
  | cancelRead o userId =>
    simp only [advance] at taken
    cases read : (e.cache.orders o).orElse fun _ => e.store.orders o with
    | none =>
      simp only [read] at taken
      cases taken
      rfl
    | some order =>
      simp only [read] at taken
      split_ifs at taken <;> cases taken <;> rfl
  | cancelScript o order =>
    simp only [advance] at taken
    generalize atomicCancelOrder _ _ _ = reply at taken
    obtain ⟨canceled, store⟩ := reply
    cases canceled <;> cases taken <;> rfl
  | _ => cases taken; rfl

/-- The task that an action starts, advances or stops. -/
def actionTask : EngineAction → Option ℕ
  | .place t _ => some t
  | .tick t _ _ => some t
  | .cancel t _ _ => some t
  | .advance t _ => some t
  | .abort t => some t
  | .expireKey _ => none

theorem step_tasks {action : EngineAction} (other : actionTask action ≠ some u)
    (taken : e.step action = some after) : after.tasks u = e.tasks u := by
  have elsewhere (t : ℕ) (own : u ≠ t) (e : Engine) (task : Task) :
      (e.setTask t task).tasks u = e.tasks u := Function.update_of_ne own ..
  cases action with
  | place t cmd | tick t _ _ | cancel t _ _ =>
    simp only [Engine.step] at taken
    split_ifs at taken
    cases taken
    exact elsewhere t (fun same => other (same ▸ rfl)) ..
  | advance t input =>
    obtain ⟨⟨e', next⟩, advanced, rfl⟩ := Option.map_eq_some_iff.mp taken
    rw [← advance_tasks advanced]
    exact elsewhere t (fun same => other (same ▸ rfl)) ..
  | abort t =>
    cases taken
    exact elsewhere t (fun same => other (same ▸ rfl)) ..
  | expireKey key =>
    cases taken
    rfl

/-- Only the first task runs. -/
def Alone (e : Engine) : Prop := ∀ t, t ≠ 1 → e.tasks t = .done

def placed : Task → Option PlaceOrderCommand
  | .placeSetOrder cmd => some cmd
  | _ => none

def filling : Task → Option (Order × ℚ × ℚ)
  | .fillScript order fillPrice eff _ => some (order, fillPrice, eff)
  | _ => none

/-- The condition as far as the first task decides it. -/
def SoloTurn (e : Engine) : EngineAction → Prop
  | .advance t input => t = 1 ∧ (∀ cmd ∈ placed (e.tasks t), e.store.orders cmd.orderId = none) ∧
    ∀ fill ∈ filling (e.tasks t), ∀ stored ∈ e.store.orders fill.1.id,
      (fillArgs fill.1 fill.2.1 fill.2.2 input).Pass stored →
        ∀ levels ∈ stored.indexedLevels e.store fill.1.size input.existing input.old,
          levels.Present
  | .place t _ => t = 1
  | .tick t _ _ => t = 1
  | .cancel t _ _ => t = 1
  | .abort _ => False
  | .expireKey _ => True

instance (e : Engine) : DecidablePred e.SoloTurn
  | .advance _ _ => inferInstanceAs (Decidable (_ ∧ _ ∧ _))
  | .place t _ => inferInstanceAs (Decidable (t = 1))
  | .tick t _ _ => inferInstanceAs (Decidable (t = 1))
  | .cancel t _ _ => inferInstanceAs (Decidable (t = 1))
  | .abort _ => inferInstanceAs (Decidable False)
  | .expireKey _ => inferInstanceAs (Decidable True)

theorem alone_step {action : EngineAction} (solo : e.SoloTurn action)
    (taken : e.step action = some after) (alone : e.Alone) : after.Alone := by
  intro t other
  rw [step_tasks ?_ taken]
  · exact alone t other
  · intro own
    cases action with
    | place _ _ | tick _ _ _ | cancel _ _ _ =>
      cases own
      exact other solo
    | advance _ _ =>
      cases own
      exact other solo.1
    | abort _ => exact solo
    | expireKey _ => cases own

/-- A task that runs alone takes its steps in turn. -/
theorem inTurn_of_solo {action : EngineAction} (alone : e.Alone) (solo : e.SoloTurn action) :
    e.InTurn action := by
  have noDuty (free : (e.tasks 1).duty = none) (u : ℕ) (o : OrderId) :
      (e.tasks u).dutyOn o = none := by
    by_cases own : u = 1
    · subst own
      exact dutyOn_of_none free o
    · rw [alone u own]
      rfl
  have notPlaced (free : (e.tasks 1).duty = none) (o : OrderId) : e.NotBeingPlaced o := by
    intro u d owed
    rw [noDuty free u o] at owed
    cases owed
  cases action with
  | place _ _ | tick _ _ _ | cancel _ _ _ => trivial
  | expireKey _ => trivial
  | abort _ => exact solo.elim
  | advance t input =>
    obtain ⟨rfl, fresh, present⟩ := solo
    change e.TaskInTurn input (e.tasks 1)
    generalize own : e.tasks 1 = task at fresh present noDuty notPlaced ⊢
    cases task with
    | placeSetOrder cmd =>
      refine ⟨?_, fun u => noDuty rfl u _⟩
      intro order stored
      rw [fresh cmd rfl] at stored
      cases stored
    | fillScript order fillPrice eff rest =>
      exact ⟨notPlaced rfl _, present (order, fillPrice, eff) rfl⟩
    | rejectSetOrder order rest => exact notPlaced rfl _
    | cancelScript o order => exact notPlaced rfl _
    | _ => trivial

end OneTask

theorem pendingKept_empty : Store.empty.PendingKept where
  records := by
    intro o order stored
    cases stored
  pending := by
    intro symbol o
    constructor
    · intro listed
      simp [Store.empty] at listed
    · rintro ⟨order, stored, -⟩
      cases stored

theorem lists_empty : Lists Store.empty [] := by
  constructor <;> simp [Store.empty]

/-- A placement with a stop loss and a take profit that fills at once. -/
theorem pendingAgrees_placeAndFill : ∃ e,
    GuardedRun step InTurn (warmed .empty (fun _ => none) []) (placeAndFill 1 "k1" (.uuid 1) []) e ∧
    e.Quiet ∧ e.PendingAgrees "EURUSD" := by
  have evaluates : (runGuarded step SoloTurn (warmed .empty (fun _ => none) [])
      (placeAndFill 1 "k1" (.uuid 1) [])).map (fun e => e.tasks 1) = some .done := by
    decide +kernel
  obtain ⟨e, reached, done⟩ := Option.map_eq_some_iff.mp evaluates
  have initially : (warmed .empty (fun _ => none) []).Alone := fun _ _ => rfl
  have solo : GuardedRun step SoloTurn (warmed .empty (fun _ => none) [])
    (placeAndFill 1 "k1" (.uuid 1) []) e := .of_eval reached
  have alone : e.Alone := solo.invariant initially fun _ _ _ => alone_step
  have run := solo.weaken_of_invariant initially (fun _ _ _ => alone_step)
    fun _ _ alone solo => inTurn_of_solo alone solo
  have quiet : e.Quiet := by
    intro t
    by_cases own : t = 1
    · rw [own, done]
    · exact alone t own
  exact ⟨e, run, quiet, pendingAgrees_of_run pendingKept_empty lists_empty run quiet "EURUSD"⟩

/-- A market order without levels. -/
def plainBuy : PlaceOrderCommand := { marketBuy "k1" with sl := none, tp := none }

/-- The fill script raises after it has written FILLED, and the order stays in
the cache as pending. -/
theorem not_pendingAgrees_plain : ∃ e,
    Run step (warmed .empty (fun _ => none) [])
      (.place 1 plainBuy :: advances 1 [{}, {}, {}, {}, {},
        { price := some 10, effectiveLeverage := some 100 },
        { timestampMs := 1000, positionUuid := .uuid 1 }]) e ∧
    e.Quiet ∧ ¬ e.PendingAgrees "EURUSD" := by
  have evaluates : (runGuarded step (fun _ action => actionTask action = some 1)
      (warmed .empty (fun _ => none) []) (.place 1 plainBuy :: advances 1 [{}, {}, {}, {}, {},
        { price := some 10, effectiveLeverage := some 100 },
        { timestampMs := 1000, positionUuid := .uuid 1 }])).map (fun e =>
          (e.tasks 1, decide (1 ∈ e.cache.pendingOrders "EURUSD"),
            decide (1 ∈ e.store.pending "EURUSD"))) = some (.done, true, false) := by
    decide +kernel
  obtain ⟨e, reached, reads⟩ := Option.map_eq_some_iff.mp evaluates
  obtain ⟨done, sets⟩ := Prod.mk.inj reads
  obtain ⟨cached, unlisted⟩ := Prod.mk.inj sets
  have solo := GuardedRun.of_eval reached
  have initially : (warmed .empty (fun _ => none) []).Alone := fun _ _ => rfl
  have alone : e.Alone := by
    refine solo.invariant initially ?_
    intro before action after own taken alone u other
    rw [step_tasks ?_ taken]
    · exact alone u other
    · intro same
      exact other (Option.some.inj (same.symm.trans own))
  refine ⟨e, solo.weaken fun _ _ _ => trivial, ?_, ?_⟩
  · intro t
    by_cases own : t = 1
    · rw [own, done]
    · exact alone t own
  · intro agrees
    exact of_decide_eq_false unlisted ((agrees 1).1.mp (of_decide_eq_true cached))

end Engine

end TradingPlatform
