import TradingPlatform.Gateway.ConnectionRegistry
import TradingPlatform.Gateway.ConnectionView

namespace TradingPlatform

open StepRuns

namespace ConnectionRegistry
variable {r after : ConnectionRegistry}

/-- Each connection is listed exactly once under its user, and no list is
empty. -/
structure UsersMirrored (r : ConnectionRegistry) : Prop where
  byUser : ∀ c key, (ListIndex.listed r.userConnections key).count c =
    if r.registeredAs c key = true then 1 else 0
  noUserEmpty : ListIndex.NoneEmpty r.userConnections

/-- Each connection is listed exactly once under each symbol that it
subscribes to, and no list is empty. -/
structure SymbolsMirrored (r : ConnectionRegistry) : Prop where
  bySymbol : ∀ c symbol, (ListIndex.listed r.symbolSubscribers symbol).count c =
    if r.subscribed c symbol = true then 1 else 0
  noSymbolEmpty : ListIndex.NoneEmpty r.symbolSubscribers

structure Mirrored (r : ConnectionRegistry) : Prop extends UsersMirrored r, SymbolsMirrored r

theorem mirrored_empty : Mirrored empty where
  byUser _ _ := rfl
  noUserEmpty _ stored := by cases stored
  bySymbol _ _ := rfl
  noSymbolEmpty _ stored := by cases stored

section Lookups
variable {c d : ConnId} {conn : RegisteredConnection}

theorem subscribed_of_lookup (stored : r.connections.lookup c = some conn) (symbol : String) :
    r.subscribed c symbol = (conn.subscriptions.lookup symbol).isSome := by
  rw [subscribed, stored, Option.any_some]

theorem registeredAs_of_lookup (stored : r.connections.lookup c = some conn) (key : String) :
    r.registeredAs c key = decide (normalizeId conn.userId = key) := by
  rw [registeredAs, stored, Option.any_some]

theorem subscribed_of_absent (absent : r.connections.lookup c = none) (symbol : String) :
    r.subscribed c symbol = false := by
  rw [subscribed, absent, Option.any_none]

theorem registeredAs_of_absent (absent : r.connections.lookup c = none) (key : String) :
    r.registeredAs c key = false := by
  rw [registeredAs, absent, Option.any_none]

theorem subscribed_congr (same : r.connections.lookup c = after.connections.lookup c)
    (symbol : String) : r.subscribed c symbol = after.subscribed c symbol := by
  rw [subscribed, subscribed, same]

theorem registeredAs_congr (same : r.connections.lookup c = after.connections.lookup c)
    (key : String) : r.registeredAs c key = after.registeredAs c key := by
  rw [registeredAs, registeredAs, same]

end Lookups

section Users

theorem UsersMirrored.register (mirrored : UsersMirrored r) {c : ConnId}
    {conn : RegisteredConnection} (fresh : r.connections.lookup c = none) :
    UsersMirrored (r.register c conn) := by
  refine ⟨fun d key => ?_, mirrored.noUserEmpty.push _ _⟩
  have counts := ListIndex.count_push r.userConnections (normalizeId conn.userId) key c d
  rw [mirrored.byUser] at counts
  refine counts.trans ?_
  by_cases same : d = c
  · subst same
    rw [registeredAs_of_absent fresh, registeredAs_of_lookup (AList.lookup_insert _)]
    by_cases atKey : key = normalizeId conn.userId
    · simp [atKey]
    · simp [atKey, Ne.symm atKey]
  · have apart : ¬(key = normalizeId conn.userId ∧ d = c) := fun both => same both.2
    have other : (r.register c conn).connections.lookup d = r.connections.lookup d :=
      AList.lookup_insert_ne same
    rw [registeredAs_congr other, if_neg apart, Nat.add_zero]

theorem UsersMirrored.unregister (mirrored : UsersMirrored r) (c : ConnId) :
    UsersMirrored (r.unregister c) := by
  unfold ConnectionRegistry.unregister
  split
  next => exact mirrored
  next conn stored =>
    refine ⟨fun d key => ?_, mirrored.noUserEmpty.retract _ _⟩
    have counts := ListIndex.count_retract r.userConnections (normalizeId conn.userId) key c d
    rw [mirrored.byUser] at counts
    refine counts.trans ?_
    by_cases same : d = c
    · subst same
      rw [registeredAs_of_lookup stored, registeredAs_of_absent (AList.lookup_erase _ _)]
      by_cases atKey : key = normalizeId conn.userId
      · simp [atKey]
      · simp [atKey, Ne.symm atKey]
    · have apart : ¬(key = normalizeId conn.userId ∧ d = c) := fun both => same both.2
      rw [if_neg apart, registeredAs, registeredAs, AList.lookup_erase_ne same]

/-- A registered connection is written back with the same user. -/
theorem UsersMirrored.rewrite (mirrored : UsersMirrored r) {c : ConnId}
    {conn changed : RegisteredConnection} (stored : r.connections.lookup c = some conn)
    (connections : after.connections = r.connections.insert c changed)
    (userId : changed.userId = conn.userId)
    (userConnections : after.userConnections = r.userConnections) : UsersMirrored after := by
  refine ⟨fun d key => ?_, userConnections ▸ mirrored.noUserEmpty⟩
  rw [userConnections, mirrored.byUser, registeredAs, registeredAs, connections]
  by_cases same : d = c
  · subst same
    rw [AList.lookup_insert, stored, Option.any_some, Option.any_some, userId]
  · rw [AList.lookup_insert_ne same]

theorem UsersMirrored.subscribeSymbol (mirrored : UsersMirrored r) (c : ConnId) (symbol : String)
    (channels : List String) (now : ℕ) :
    UsersMirrored (r.subscribeSymbol c symbol channels now) := by
  unfold ConnectionRegistry.subscribeSymbol
  split
  next => exact mirrored
  next conn stored => exact mirrored.rewrite stored rfl rfl rfl

theorem UsersMirrored.unsubscribeSymbol (mirrored : UsersMirrored r) (c : ConnId)
    (symbol : String) : UsersMirrored (r.unsubscribeSymbol c symbol) := by
  unfold ConnectionRegistry.unsubscribeSymbol
  split
  next => exact mirrored
  next conn stored => exact mirrored.rewrite stored rfl rfl rfl

theorem UsersMirrored.updateHeartbeat (mirrored : UsersMirrored r) (c : ConnId) (now : ℕ) :
    UsersMirrored (r.updateHeartbeat c now) := by
  unfold ConnectionRegistry.updateHeartbeat
  split
  next => exact mirrored
  next conn stored => exact mirrored.rewrite stored rfl rfl rfl

theorem UsersMirrored.removeStale (mirrored : UsersMirrored r) (now timeout : ℕ) :
    UsersMirrored (r.removeStale now timeout) := by
  unfold ConnectionRegistry.removeStale
  generalize r.staleConnections now timeout = stale
  induction stale generalizing r with
  | nil => exact mirrored
  | cons c rest ih => exact ih (mirrored.unregister c)

end Users

section Symbols

theorem SymbolsMirrored.register (mirrored : SymbolsMirrored r) {c : ConnId}
    {conn : RegisteredConnection} (fresh : r.connections.lookup c = none)
    (unsubscribed : conn.subscriptions = ∅) : SymbolsMirrored (r.register c conn) := by
  refine ⟨fun d symbol => ?_, mirrored.noSymbolEmpty⟩
  have before := mirrored.bySymbol d symbol
  by_cases same : d = c
  · subst same
    rw [subscribed_of_absent fresh] at before
    rw [subscribed_of_lookup (AList.lookup_insert _), unsubscribed, AList.lookup_empty]
    exact before
  · have other : (r.register c conn).connections.lookup d = r.connections.lookup d :=
      AList.lookup_insert_ne same
    rw [subscribed_congr other]
    exact before

theorem SymbolsMirrored.unregister (mirrored : SymbolsMirrored r) (c : ConnId) :
    SymbolsMirrored (r.unregister c) := by
  unfold ConnectionRegistry.unregister
  split
  next => exact mirrored
  next conn stored =>
    refine ⟨fun d symbol => ?_, mirrored.noSymbolEmpty.retract_all _ _⟩
    have counts := ListIndex.count_retract_all r.symbolSubscribers conn.subscriptions.keys symbol c d
    rw [mirrored.bySymbol] at counts
    refine counts.trans ?_
    by_cases same : d = c
    · subst same
      rw [subscribed_of_lookup stored, subscribed_of_absent (AList.lookup_erase _ _)]
      by_cases member : symbol ∈ conn.subscriptions.keys
      · rw [if_pos ⟨member, rfl⟩]
        rfl
      · have absent : conn.subscriptions.lookup symbol = none :=
          AList.lookup_eq_none.mpr fun present => member (AList.mem_keys.mp present)
        rw [if_neg fun both => member both.1, absent]
        rfl
    · have apart : ¬(symbol ∈ conn.subscriptions.keys ∧ d = c) := fun both => same both.2
      rw [if_neg apart, subscribed, subscribed, AList.lookup_erase_ne same]

theorem SymbolsMirrored.subscribeSymbol (mirrored : SymbolsMirrored r) {c : ConnId}
    {symbol : String} (first : r.subscribed c symbol = false) (channels : List String) (now : ℕ) :
    SymbolsMirrored (r.subscribeSymbol c symbol channels now) := by
  unfold ConnectionRegistry.subscribeSymbol
  split
  next => exact mirrored
  next conn stored =>
    refine ⟨fun d read => ?_, mirrored.noSymbolEmpty.push _ _⟩
    have counts := ListIndex.count_push r.symbolSubscribers symbol read c d
    rw [mirrored.bySymbol] at counts
    refine counts.trans ?_
    unfold subscribed at first ⊢
    rw [stored, Option.any_some] at first
    dsimp only
    by_cases same : d = c
    · subst same
      rw [AList.lookup_insert, stored, Option.any_some, Option.any_some]
      dsimp only
      by_cases atSymbol : read = symbol
      · subst atSymbol
        rw [first, AList.lookup_insert]
        simp
      · have apart : ¬(read = symbol ∧ d = d) := fun both => atSymbol both.1
        rw [AList.lookup_insert_ne atSymbol, if_neg apart, Nat.add_zero]
    · have apart : ¬(read = symbol ∧ d = c) := fun both => same both.2
      rw [AList.lookup_insert_ne same, if_neg apart, Nat.add_zero]

theorem SymbolsMirrored.unsubscribeSymbol (mirrored : SymbolsMirrored r) (c : ConnId)
    (symbol : String) : SymbolsMirrored (r.unsubscribeSymbol c symbol) := by
  unfold ConnectionRegistry.unsubscribeSymbol
  split
  next => exact mirrored
  next conn stored =>
    refine ⟨fun d read => ?_, mirrored.noSymbolEmpty.retract _ _⟩
    have counts := ListIndex.count_retract r.symbolSubscribers symbol read c d
    rw [mirrored.bySymbol] at counts
    refine counts.trans ?_
    unfold subscribed
    dsimp only
    by_cases same : d = c
    · subst same
      rw [AList.lookup_insert, stored, Option.any_some, Option.any_some]
      dsimp only
      by_cases atSymbol : read = symbol
      · subst atSymbol
        rw [if_pos ⟨rfl, rfl⟩, AList.lookup_erase]
        rfl
      · have apart : ¬(read = symbol ∧ d = d) := fun both => atSymbol both.1
        rw [AList.lookup_erase_ne atSymbol, if_neg apart]
    · have apart : ¬(read = symbol ∧ d = c) := fun both => same both.2
      rw [AList.lookup_insert_ne same, if_neg apart]

theorem SymbolsMirrored.updateHeartbeat (mirrored : SymbolsMirrored r) (c : ConnId) (now : ℕ) :
    SymbolsMirrored (r.updateHeartbeat c now) := by
  unfold ConnectionRegistry.updateHeartbeat
  split
  next => exact mirrored
  next conn stored =>
    refine ⟨fun d symbol => ?_, mirrored.noSymbolEmpty⟩
    refine (mirrored.bySymbol d symbol).trans ?_
    unfold subscribed
    dsimp only
    by_cases same : d = c
    · subst same
      rw [AList.lookup_insert, stored, Option.any_some, Option.any_some]
    · rw [AList.lookup_insert_ne same]

theorem SymbolsMirrored.removeStale (mirrored : SymbolsMirrored r) (now timeout : ℕ) :
    SymbolsMirrored (r.removeStale now timeout) := by
  unfold ConnectionRegistry.removeStale
  generalize r.staleConnections now timeout = stale
  induction stale generalizing r with
  | nil => exact mirrored
  | cons c rest ih => exact ih (mirrored.unregister c)

end Symbols

/-- No connection subscribes to a symbol that it is subscribed to already. -/
def FirstSubscription (r : ConnectionRegistry) : RegistryAction → Prop
  | .subscribeSymbol c symbol _ _ => r.subscribed c symbol = false
  | _ => True

instance (r : ConnectionRegistry) : DecidablePred (FirstSubscription r)
  | .subscribeSymbol c symbol _ _ => inferInstanceAs (Decidable (r.subscribed c symbol = false))
  | .register _ _ _ _ _ => .isTrue trivial
  | .unsubscribeSymbol _ _ => .isTrue trivial
  | .unregister _ => .isTrue trivial
  | .updateHeartbeat _ _ => .isTrue trivial
  | .removeStale _ _ => .isTrue trivial

theorem UsersMirrored.step (mirrored : UsersMirrored r) {action : RegistryAction}
    (taken : r.step action = some after) : UsersMirrored after := by
  cases action with
  | register c userId groupId role now =>
    simp only [ConnectionRegistry.step] at taken
    split_ifs at taken with fresh
    cases taken
    exact mirrored.register fresh
  | subscribeSymbol c symbol channels now =>
    cases taken
    exact mirrored.subscribeSymbol c symbol channels now
  | unsubscribeSymbol c symbol =>
    cases taken
    exact mirrored.unsubscribeSymbol c symbol
  | unregister c =>
    cases taken
    exact mirrored.unregister c
  | updateHeartbeat c now =>
    cases taken
    exact mirrored.updateHeartbeat c now
  | removeStale now timeout =>
    cases taken
    exact mirrored.removeStale now timeout

theorem SymbolsMirrored.step (mirrored : SymbolsMirrored r) {action : RegistryAction}
    (first : FirstSubscription r action) (taken : r.step action = some after) :
    SymbolsMirrored after := by
  cases action with
  | register c userId groupId role now =>
    simp only [ConnectionRegistry.step] at taken
    split_ifs at taken with fresh
    cases taken
    exact mirrored.register fresh rfl
  | subscribeSymbol c symbol channels now =>
    cases taken
    exact mirrored.subscribeSymbol first channels now
  | unsubscribeSymbol c symbol =>
    cases taken
    exact mirrored.unsubscribeSymbol c symbol
  | unregister c =>
    cases taken
    exact mirrored.unregister c
  | updateHeartbeat c now =>
    cases taken
    exact mirrored.updateHeartbeat c now
  | removeStale now timeout =>
    cases taken
    exact mirrored.removeStale now timeout

theorem Mirrored.step (mirrored : Mirrored r) {action : RegistryAction}
    (first : FirstSubscription r action) (taken : r.step action = some after) : Mirrored after :=
  ⟨mirrored.toUsersMirrored.step taken, mirrored.toSymbolsMirrored.step first taken⟩

end ConnectionRegistry

namespace Gateway
variable {s : Gateway} {c : ConnId}

theorem count_tickSubscribers_le (once : ∀ symbol, (s.symbolSubscribers symbol).count c ≤ 1)
    (symbol : String) : (s.tickSubscribers symbol).count c ≤ 1 := by
  unfold tickSubscribers
  split_ifs
  · dsimp only
    rw [count_foldl_fresh]
    split_ifs
    · exact once symbol
    · exact le_refl 1
    · exact Nat.zero_le 1
  · exact once symbol

theorem tryDispatchConn_atMostOne (s : Gateway) (c : ConnId) (msg : ServerMessage) :
    ∃ frames, (s.tryDispatchConn c msg).enqueued c = s.enqueued c ++ frames ∧ frames.length ≤ 1 := by
  have none : s.enqueued c = s.enqueued c ++ [] := (List.append_nil _).symm
  unfold tryDispatchConn
  split
  next => exact ⟨[], none, Nat.zero_le 1⟩
  next queue _ =>
    split_ifs
    · unfold unregister
      split <;> exact ⟨[], none, Nat.zero_le 1⟩
    · exact ⟨[msg], Function.update_self c _ _, le_refl 1⟩
    · split <;> exact ⟨[], none, Nat.zero_le 1⟩

/-- A connection that is listed at most once under each symbol gets a tick at
most once, also when it is listed under both names of the symbol. -/
theorem broadcastTick_atMostOne (once : ∀ symbol, (s.symbolSubscribers symbol).count c ≤ 1)
    (now : ℤ) (payload : Json) :
    ∃ frames, (s.broadcastTick now payload).enqueued c = s.enqueued c ++ frames ∧
      frames.length ≤ 1 := by
  have none : s.enqueued c = s.enqueued c ++ [] := (List.append_nil _).symm
  unfold broadcastTick
  split
  next => exact ⟨[], none, Nat.zero_le 1⟩
  next symbol _ =>
    have own := foldl_sameView (c := c) (fun s _ => dispatchTick_other symbol now payload s)
      (fun _ _ same => SameView.dispatchTick same symbol now payload) (s.tickSubscribers symbol) s
    rw [own.enqueued]
    rcases Nat.le_one_iff_eq_zero_or_eq_one.mp (count_tickSubscribers_le once symbol) with
      absent | listed
    · rw [absent]
      exact ⟨[], none, Nat.zero_le 1⟩
    · rw [listed, List.replicate_one, List.foldl_cons, List.foldl_nil]
      unfold dispatchTick
      split
      next msg _ => exact tryDispatchConn_atMostOne s c msg
      next => exact ⟨[], none, Nat.zero_le 1⟩

end Gateway

namespace ConnectionRegistry
variable {r : ConnectionRegistry}

/-- When no connection subscribes twice to a symbol, the indexes mirror the
connections, and a broadcaster that reads them enqueues a tick at most once for
each connection. -/
theorem mirrored_of_run {actions : List RegistryAction}
    (run : GuardedRun step FirstSubscription empty actions r) :
    Mirrored r ∧ ∀ s : Gateway,
      (∀ symbol, s.symbolSubscribers symbol = ListIndex.listed r.symbolSubscribers symbol) →
      ∀ c now payload, ∃ frames, (s.broadcastTick now payload).enqueued c = s.enqueued c ++ frames ∧
        frames.length ≤ 1 := by
  have mirrored : Mirrored r :=
    run.invariant mirrored_empty fun _ _ _ first taken held => held.step first taken
  refine ⟨mirrored, fun s shown c now payload => Gateway.broadcastTick_atMostOne ?_ now payload⟩
  intro symbol
  rw [shown, mirrored.bySymbol]
  split_ifs
  · exact le_refl 1
  · exact Nat.zero_le 1

theorem mirrored_of_twoNames : ∃ r, GuardedRun step FirstSubscription empty
    [.register 1 "a11ce" none "user" 0, .subscribeSymbol 1 "BTCUSD" [] 1,
      .subscribeSymbol 1 "BTCUSDT" [] 2] r ∧
    Mirrored r ∧ ListIndex.listed r.symbolSubscribers "BTCUSDT" = [1] := by
  have evaluates : (runGuarded step FirstSubscription empty
      [.register 1 "a11ce" none "user" 0, .subscribeSymbol 1 "BTCUSD" [] 1,
        .subscribeSymbol 1 "BTCUSDT" [] 2]).map
      (fun r => ListIndex.listed r.symbolSubscribers "BTCUSDT") = some [1] := by decide +kernel
  obtain ⟨r, reached, reads⟩ := Option.map_eq_some_iff.mp evaluates
  exact ⟨r, .of_eval reached, (mirrored_of_run (.of_eval reached)).1, reads⟩

/-- A client that sends its list again after a new token is listed twice, and
gets every tick twice. -/
theorem resubscribed_listedTwice :
    (∃ r, Run step empty [.register 1 "a11ce" none "user" 0, .subscribeSymbol 1 "EURUSD" [] 1,
        .subscribeSymbol 1 "EURUSD" [] 2] r ∧
      r.subscribed 1 "EURUSD" = true ∧
      (ListIndex.listed r.symbolSubscribers "EURUSD").count 1 = 2) ∧
    ∃ s, Run Gateway.step Gateway.opened [.connect 1, .authenticate 1 ⟨"a11ce", "user", none⟩,
        .subscribe 1 ["EURUSD"], .subscribe 1 ["EUR/USD"], .deliver ⟨"price:ticks", .obj
          [("symbol", .str "EURUSD"), ("bid", .str "1.1"), ("ask", .str "1.2")]⟩ 0] s ∧
      (s.enqueued 1).length = 2 := by
  constructor
  · have evaluates : (runGuarded step (fun _ _ => True) empty
        [.register 1 "a11ce" none "user" 0, .subscribeSymbol 1 "EURUSD" [] 1,
          .subscribeSymbol 1 "EURUSD" [] 2]).map (fun r => (r.subscribed 1 "EURUSD",
        (ListIndex.listed r.symbolSubscribers "EURUSD").count 1)) = some (true, 2) := by
      decide +kernel
    obtain ⟨r, reached, reads⟩ := Option.map_eq_some_iff.mp evaluates
    exact ⟨r, .of_eval reached, (Prod.mk.inj reads).1, (Prod.mk.inj reads).2⟩
  · have evaluates : (runGuarded Gateway.step (fun _ _ => True) Gateway.opened
        [.connect 1, .authenticate 1 ⟨"a11ce", "user", none⟩, .subscribe 1 ["EURUSD"],
          .subscribe 1 ["EUR/USD"], .deliver ⟨"price:ticks", .obj [("symbol", .str "EURUSD"),
            ("bid", .str "1.1"), ("ask", .str "1.2")]⟩ 0]).map (fun s => (s.enqueued 1).length) =
        some 2 := by
      decide +kernel
    obtain ⟨s, reached, reads⟩ := Option.map_eq_some_iff.mp evaluates
    exact ⟨s, .of_eval reached, reads⟩

end ConnectionRegistry

end TradingPlatform
