import TradingPlatform.Gateway.DispatchLocks

namespace TradingPlatform

open StepRuns

/-- A loop whose every round comes to an end, as long as an invariant holds. -/
theorem foldlM_eq_foldl {σ α : Type*} {body : σ → α → Option σ} {next : σ → α → σ} {I : σ → Prop}
    (agrees : ∀ s a, I s → body s a = some (next s a)) (keeps : ∀ s a, I s → I (next s a))
    (as : List α) (s : σ) (held : I s) : as.foldlM body s = some (as.foldl next s) := by
  induction as generalizing s with
  | nil => rfl
  | cons a rest ih =>
    rw [List.foldlM_cons, agrees s a held, List.foldl_cons]
    exact ih _ (keeps s a held)

namespace ConnectionRegistry
variable {r after : ConnectionRegistry}

/-- Only connections that subscribe to a symbol are listed under it. -/
def SymbolsListed (r : ConnectionRegistry) : Prop :=
  ∀ c symbol, c ∈ ListIndex.listed r.symbolSubscribers symbol → r.subscribed c symbol = true

theorem SymbolsListed.unregister (listed : SymbolsListed r) (c : ConnId) :
    SymbolsListed (r.unregister c) := by
  unfold ConnectionRegistry.unregister
  split
  next => exact listed
  next conn stored =>
    intro d symbol member
    have counts := ListIndex.count_retract_all r.symbolSubscribers conn.subscriptions.keys symbol c d
    have present := List.count_pos_iff.mpr member
    rw [counts] at present
    split_ifs at present with both
    · exact absurd present (lt_irrefl 0)
    have before := listed d symbol (List.count_pos_iff.mp present)
    have apart : d ≠ c := by
      rintro rfl
      rw [subscribed_of_lookup stored] at before
      exact both ⟨AList.lookup_isSome.mp before, rfl⟩
    rw [subscribed, AList.lookup_erase_ne apart]
    exact before

theorem SymbolsListed.step (listed : SymbolsListed r) {action : RegistryAction}
    (taken : r.step action = some after) : SymbolsListed after := by
  cases action with
  | register c userId groupId role now =>
    simp only [ConnectionRegistry.step] at taken
    split_ifs at taken with fresh
    cases taken
    intro d symbol member
    have before := listed d symbol member
    have apart : d ≠ c := by
      rintro rfl
      rw [subscribed_of_absent fresh] at before
      cases before
    have same : (r.register c ⟨userId, groupId, role, ∅, now⟩).connections.lookup d =
        r.connections.lookup d := AList.lookup_insert_ne apart
    rw [subscribed_congr same]
    exact before
  | subscribeSymbol c symbol channels now =>
    cases taken
    unfold ConnectionRegistry.subscribeSymbol
    split
    next => exact listed
    next conn stored =>
      intro d other member
      have counts := ListIndex.count_push r.symbolSubscribers symbol other c d
      have present := List.count_pos_iff.mpr member
      rw [counts] at present
      by_cases both : other = symbol ∧ d = c
      · obtain ⟨rfl, rfl⟩ := both
        rw [subscribed, AList.lookup_insert]
        simp
      · rw [if_neg both, Nat.add_zero] at present
        have before := listed d other (List.count_pos_iff.mp present)
        by_cases same : d = c
        · subst same
          rw [subscribed_of_lookup stored] at before
          have apart : other ≠ symbol := fun own => both ⟨own, rfl⟩
          rw [subscribed, AList.lookup_insert]
          simpa [AList.lookup_insert_ne apart] using before
        · rw [subscribed, AList.lookup_insert_ne same]
          exact before
  | unsubscribeSymbol c symbol =>
    cases taken
    unfold ConnectionRegistry.unsubscribeSymbol
    split
    next => exact listed
    next conn stored =>
      intro d other member
      have counts := ListIndex.count_retract r.symbolSubscribers symbol other c d
      have present := List.count_pos_iff.mpr member
      rw [counts] at present
      split_ifs at present with both
      · exact absurd present (lt_irrefl 0)
      have before := listed d other (List.count_pos_iff.mp present)
      by_cases same : d = c
      · subst same
        rw [subscribed_of_lookup stored] at before
        have apart : other ≠ symbol := fun own => both ⟨own, rfl⟩
        rw [subscribed, AList.lookup_insert]
        simpa [AList.lookup_erase_ne apart] using before
      · rw [subscribed, AList.lookup_insert_ne same]
        exact before
  | unregister c =>
    cases taken
    exact listed.unregister c
  | updateHeartbeat c now =>
    cases taken
    unfold ConnectionRegistry.updateHeartbeat
    split
    next => exact listed
    next conn stored =>
      intro d symbol member
      have before := listed d symbol member
      by_cases same : d = c
      · subst same
        rw [subscribed_of_lookup stored] at before
        rw [subscribed, AList.lookup_insert]
        simpa using before
      · rw [subscribed, AList.lookup_insert_ne same]
        exact before
  | removeStale now timeout =>
    cases taken
    unfold ConnectionRegistry.removeStale
    generalize r.staleConnections now timeout = stale
    induction stale generalizing r with
    | nil => exact listed
    | cons c rest ih => exact ih (listed.unregister c)

/-- Both indexes list only what the connections say. -/
structure Listing (r : ConnectionRegistry) : Prop where
  users : UsersMirrored r
  symbols : SymbolsListed r

theorem listing_of_run {actions : List RegistryAction} (run : Run step empty actions r) :
    Listing r := by
  have initially : Listing empty := ⟨mirrored_empty.toUsersMirrored, fun _ _ member => by cases member⟩
  exact run.invariant initially fun _ _ _ _ taken held => ⟨held.users.step taken, held.symbols.step taken⟩

theorem Listing.unregister (listing : Listing r) (c : ConnId) : Listing (r.unregister c) :=
  ⟨listing.users.unregister c, listing.symbols.unregister c⟩

/-- A connection that is not registered is listed nowhere. -/
theorem Listing.goneFrom (listing : Listing r) {c : ConnId}
    (absent : r.connections.lookup c = none) : DispatchTask.GoneFrom r c := by
  refine ⟨absent, fun key member => ?_, fun symbol member => ?_⟩
  · have counts := listing.users.byUser c key
    rw [registeredAs_of_absent absent] at counts
    exact List.count_eq_zero.mp counts member
  · have subscribed := listing.symbols c symbol member
    rw [subscribed_of_absent absent] at subscribed
    cases subscribed

theorem lookup_unregister_self (r : ConnectionRegistry) (c : ConnId) :
    (r.unregister c).connections.lookup c = none := by
  unfold ConnectionRegistry.unregister
  split
  next absent => exact absent
  next => exact AList.lookup_erase ..

theorem lookup_unregister_ne {c d : ConnId} (apart : d ≠ c) (r : ConnectionRegistry) :
    (r.unregister c).connections.lookup d = r.connections.lookup d := by
  unfold ConnectionRegistry.unregister
  split
  next => rfl
  next => exact AList.lookup_erase_ne apart

end ConnectionRegistry

namespace DispatchTask
variable {s after : DispatchTask} {sh : Sharding} {c d : ConnId} {msg : ServerMessage}
  {g : ShardGuard} {index : Index} {key : String}

theorem acquire_free (free : ∀ held ∈ s.guards, held.shard ≠ g.shard) :
    s.acquire g = some { s with guards := g :: s.guards } := by
  unfold acquire
  rw [if_neg]
  intro blocked
  obtain ⟨held, member, conflict⟩ := List.any_eq_true.mp blocked
  exact free held member (of_decide_eq_true conflict).1

theorem acquire_idle (idle : s.guards = []) (g : ShardGuard) :
    s.acquire g = some { s with guards := [g] } := by
  have granted := acquire_free (g := g) (s := s) (by simp [idle])
  rwa [idle] at granted

theorem read_idle (idle : s.guards = []) (g : ShardGuard) : s.read g = some s := by
  unfold read
  rw [acquire_idle idle]
  simp [release, ← idle]

/-- With the shard free, a connection is taken from a list as the registry does it. -/
theorem unlist_eq (lawful : index.Lawful) (free : ∀ held ∈ s.guards, held.shard ≠ g.shard) :
    s.unlist index g key c =
      some (s.put index (ListIndex.retract (index.get s.registry) key c)) := by
  unfold unlist
  rw [acquire_free free]
  simp only [Option.bind_eq_bind, Option.bind_some]
  unfold ListIndex.retract
  cases found : (index.get s.registry).lookup key with
  | none => simp [release, put, lawful.set_get]
  | some ids =>
    dsimp only
    generalize ids.filter (· ≠ c) = kept
    have again := acquire_free (g := g)
      (s := s.put index ((index.get s.registry).insert key kept)) free
    have erased : ((index.get s.registry).insert key kept).erase key =
        (index.get s.registry).erase key := by
      apply AList.ext
      change List.kerase key ((index.get s.registry).insert key kept).entries = _
      rw [AList.entries_insert]
      exact List.kerase_cons_eq (s := (⟨key, kept⟩ : Sigma fun _ : String => List ConnId)) rfl
    cases kept with
    | nil =>
      simp only [put, release, List.erase_cons_head, List.isEmpty_nil, if_true] at again ⊢
      rw [again]
      simp [lawful.get_set, lawful.set_set, erased]
    | cons first rest => simp [put, release]

theorem unsubscribeRound_eq (idle : s.guards = []) (symbol : String) :
    unsubscribeRound sh c s symbol =
      some (s.put symbolsIndex (ListIndex.retract s.registry.symbolSubscribers symbol c)) := by
  unfold unsubscribeRound unlistSymbol
  dsimp only
  rw [acquire_idle idle]
  simp only [Option.bind_eq_bind, Option.bind_some]
  rw [unlist_eq symbolsIndex_lawful (by simp)]
  simp [put, release, symbolsIndex, ← idle]

theorem foldlM_unsubscribe (symbols : List String) (idle : s.guards = []) :
    symbols.foldlM (unsubscribeRound sh c) s = some (s.put symbolsIndex
      (symbols.foldl (fun t symbol => ListIndex.retract t symbol c)
        s.registry.symbolSubscribers)) := by
  induction symbols generalizing s with
  | nil => rfl
  | cons symbol rest ih =>
    rw [List.foldlM_cons, unsubscribeRound_eq idle]
    simp only [Option.bind_eq_bind, Option.bind_some]
    rw [ih (by exact idle)]
    rfl

/-- While it holds no guard, the task unregisters a connection as the registry does it. -/
theorem unregister_eq (idle : s.guards = []) (c : ConnId) :
    s.unregister sh c = some { s with registry := s.registry.unregister c } := by
  unfold unregister ConnectionRegistry.unregister
  dsimp only
  rw [acquire_idle idle]
  simp only [Option.bind_eq_bind, Option.bind_some]
  cases found : s.registry.connections.lookup c with
  | none => simp [release, ← idle]
  | some conn =>
    simp only [release, List.erase_cons_head, unlistUser]
    rw [unlist_eq usersIndex_lawful (by simp)]
    simp only [Option.bind_some]
    rw [foldlM_unsubscribe _ (by rfl)]
    simp [put, usersIndex, symbolsIndex, idle]

/-- What a dispatch comes to when the task holds no guard. -/
def dispatched (msg : ServerMessage) (s : DispatchTask) (c : ConnId) : DispatchTask :=
  match s.connectionTxs.lookup c with
  | none => s
  | some (.accepting free) => s.offer c free msg
  | some .closed =>
    { s with
      connectionTxs := s.connectionTxs.erase c
      registry := s.registry.unregister c }

theorem removeClosed_eq (idle : s.guards = []) (c : ConnId) :
    s.removeClosed sh c = some { s with
      connectionTxs := s.connectionTxs.erase c
      registry := s.registry.unregister c } := by
  unfold removeClosed
  dsimp only
  rw [acquire_idle idle]
  simp only [Option.bind_eq_bind, Option.bind_some]
  rw [unregister_eq (by simp [release])]
  simp [release, ← idle]

theorem tryDispatchConn_eq (idle : s.guards = []) (c : ConnId) :
    s.tryDispatchConn sh msg c = some (s.dispatched msg c) := by
  unfold tryDispatchConn dispatched
  dsimp only
  rw [acquire_idle idle]
  simp only [Option.bind_eq_bind, Option.bind_some]
  have released : release ⟨.connectionTxs (sh.connectionTxs c), false⟩
      { s with guards := [⟨.connectionTxs (sh.connectionTxs c), false⟩] } = s := by
    simp [release, ← idle]
  rw [released]
  generalize s.connectionTxs.lookup c = queue
  rcases queue with _ | (free | _)
  · rfl
  · rfl
  · exact removeClosed_eq idle c

theorem sendTick_eq (idle : s.guards = []) (c : ConnId) :
    s.sendTick sh msg c = some (s.dispatched msg c) := by
  unfold sendTick dispatched
  dsimp only
  rw [acquire_idle idle]
  simp only [Option.bind_eq_bind, Option.bind_some]
  have released : release ⟨.connectionTxs (sh.connectionTxs c), false⟩
      { s with guards := [⟨.connectionTxs (sh.connectionTxs c), false⟩] } = s := by
    simp [release, ← idle]
  rw [released]
  generalize s.connectionTxs.lookup c = queue
  rcases queue with _ | (free | _)
  · rfl
  · simp [release, offer, ← idle]
  · exact removeClosed_eq idle c

variable {r : ConnectionRegistry} {txs : FiniteTable ConnId QueueState} {m : Message} {now : ℤ}

/-- How far the task has come with the maps it began with: open connections
stay as they are, closed ones are there or gone altogether. -/
structure Progress (r : ConnectionRegistry) (txs : FiniteTable ConnId QueueState)
    (s : DispatchTask) : Prop where
  idle : s.guards = []
  listing : ConnectionRegistry.Listing s.registry
  accepting : ∀ c free, txs.lookup c = some (.accepting free) →
    (∃ left, s.connectionTxs.lookup c = some (.accepting left)) ∧
      s.registry.connections.lookup c = r.connections.lookup c
  closed : ∀ c, txs.lookup c = some .closed →
    (s.connectionTxs.lookup c = some .closed ∧
      s.registry.connections.lookup c = r.connections.lookup c) ∨
    (s.connectionTxs.lookup c = none ∧ s.registry.connections.lookup c = none)

/-- A connection has got the frame, or is gone. -/
structure Served (txs : FiniteTable ConnId QueueState) (c : ConnId) (msg : ServerMessage)
    (s : DispatchTask) : Prop where
  offered : ∀ free, txs.lookup c = some (.accepting free) → (c, msg) ∈ s.offered
  gone : txs.lookup c = some .closed →
    s.connectionTxs.lookup c = none ∧ s.registry.connections.lookup c = none

theorem progress_beginning (listing : ConnectionRegistry.Listing r) :
    Progress r txs (beginning r txs) :=
  ⟨rfl, listing, fun _ free stored => ⟨⟨free, stored⟩, rfl⟩, fun _ stored => .inl ⟨stored, rfl⟩⟩

theorem Progress.dispatched (progress : Progress r txs s) (msg : ServerMessage) (d : ConnId) :
    Progress r txs (s.dispatched msg d) := by
  unfold DispatchTask.dispatched
  split
  next => exact progress
  next free stored =>
    refine ⟨progress.idle, progress.listing, fun c n accepting => ?_, fun c closed => ?_⟩
    · obtain ⟨⟨left, held⟩, same⟩ := progress.accepting c n accepting
      refine ⟨?_, same⟩
      by_cases own : c = d
      · subst own
        exact ⟨_, AList.lookup_insert _⟩
      · exact ⟨left, (AList.lookup_insert_ne own).trans held⟩
    · have apart : c ≠ d := by
        rintro rfl
        rcases progress.closed c closed with ⟨held, _⟩ | ⟨held, _⟩
        · rw [held] at stored
          cases stored
        · rw [held] at stored
          cases stored
      have same : (s.connectionTxs.insert d (.accepting (free - 1))).lookup c =
          s.connectionTxs.lookup c := AList.lookup_insert_ne apart
      change (AList.lookup c (s.connectionTxs.insert d _) = _ ∧ _) ∨
        (AList.lookup c (s.connectionTxs.insert d _) = _ ∧ _)
      rw [same]
      exact progress.closed c closed
  next stored =>
    refine ⟨progress.idle, progress.listing.unregister d, fun c n accepting => ?_,
      fun c closed => ?_⟩
    · obtain ⟨⟨left, held⟩, same⟩ := progress.accepting c n accepting
      have apart : c ≠ d := by
        rintro rfl
        rw [held] at stored
        cases stored
      refine ⟨⟨left, (AList.lookup_erase_ne apart).trans held⟩, ?_⟩
      exact (ConnectionRegistry.lookup_unregister_ne apart _).trans same
    · by_cases own : c = d
      · subst own
        exact .inr ⟨AList.lookup_erase .., ConnectionRegistry.lookup_unregister_self ..⟩
      · have same : (s.connectionTxs.erase d).lookup c = s.connectionTxs.lookup c :=
          AList.lookup_erase_ne own
        change (AList.lookup c (s.connectionTxs.erase d) = _ ∧ _) ∨
          (AList.lookup c (s.connectionTxs.erase d) = _ ∧ _)
        rw [same, ConnectionRegistry.lookup_unregister_ne own]
        exact progress.closed c closed

/-- A dispatch serves its connection. -/
theorem Progress.served (progress : Progress r txs s) (msg : ServerMessage) (c : ConnId) :
    Served txs c msg (s.dispatched msg c) := by
  constructor
  · intro free accepting
    obtain ⟨⟨left, held⟩, -⟩ := progress.accepting c free accepting
    simp [DispatchTask.dispatched, held, offer]
  · intro closed
    rcases progress.closed c closed with ⟨held, _⟩ | gone
    · simp only [DispatchTask.dispatched, held]
      exact ⟨AList.lookup_erase .., ConnectionRegistry.lookup_unregister_self ..⟩
    · unfold DispatchTask.dispatched
      rw [gone.1]
      exact gone

/-- What has been served stays so. -/
theorem Served.dispatched (served : Served txs c msg s) (progress : Progress r txs s)
    (other : ServerMessage) (d : ConnId) : Served txs c msg (s.dispatched other d) := by
  constructor
  · intro free accepting
    have before := served.offered free accepting
    unfold DispatchTask.dispatched
    split
    · exact before
    · exact List.mem_append_left _ before
    · exact before
  · intro closed
    obtain ⟨absent, unregistered⟩ := served.gone closed
    rcases (progress.dispatched other d).closed c closed with ⟨held, _⟩ | gone
    · unfold DispatchTask.dispatched at held
      split at held
      next =>
        rw [absent] at held
        cases held
      next free stored =>
        have apart : c ≠ d := by
          rintro rfl
          rw [absent] at stored
          cases stored
        change AList.lookup c (s.connectionTxs.insert d _) = _ at held
        rw [AList.lookup_insert_ne apart, absent] at held
        cases held
      next stored =>
        have apart : c ≠ d := by
          rintro rfl
          rw [absent] at stored
          cases stored
        change AList.lookup c (s.connectionTxs.erase d) = _ at held
        rw [AList.lookup_erase_ne apart, absent] at held
        cases held
    · exact gone

/-- One round of a loop: the frame for a connection, as the registry has it then. -/
def delivered (frame : Option RegisteredConnection → Option ServerMessage) (s : DispatchTask)
    (c : ConnId) : DispatchTask :=
  match frame (s.registry.connections.lookup c) with
  | some msg => s.dispatched msg c
  | none => s

section Loops
variable {frame : Option RegisteredConnection → Option ServerMessage}

theorem Progress.delivered (progress : Progress r txs s) (d : ConnId) :
    Progress r txs (s.delivered frame d) := by
  unfold DispatchTask.delivered
  split
  · exact progress.dispatched _ d
  · exact progress

theorem Served.delivered (served : Served txs c msg s) (progress : Progress r txs s) (d : ConnId) :
    Served txs c msg (s.delivered frame d) := by
  unfold DispatchTask.delivered
  split
  · exact served.dispatched progress _ d
  · exact served

theorem Progress.foldl (progress : Progress r txs s) (ids : List ConnId) :
    Progress r txs (ids.foldl (DispatchTask.delivered frame) s) := by
  induction ids generalizing s with
  | nil => exact progress
  | cons d rest ih => exact ih (progress.delivered d)

theorem Served.foldl (served : Served txs c msg s) (progress : Progress r txs s)
    (ids : List ConnId) : Served txs c msg (ids.foldl (DispatchTask.delivered frame) s) := by
  induction ids generalizing s with
  | nil => exact served
  | cons d rest ih => exact ih (served.delivered progress d) (progress.delivered d)

/-- A loop serves every connection it goes over with the frame for it. -/
theorem served_foldl (progress : Progress r txs s) {ids : List ConnId} (member : c ∈ ids)
    (addressed : frame (r.connections.lookup c) = some msg) :
    Served txs c msg (ids.foldl (DispatchTask.delivered frame) s) := by
  induction ids generalizing s with
  | nil => cases member
  | cons d rest ih =>
    rcases List.mem_cons.mp member with rfl | later
    · refine Served.foldl ?_ (progress.delivered c) rest
      have untouched : s.registry.connections.lookup c = r.connections.lookup c →
          Served txs c msg (s.delivered frame c) := by
        intro same
        unfold DispatchTask.delivered
        rw [same, addressed]
        exact progress.served msg c
      cases stored : txs.lookup c with
      | none =>
        refine ⟨fun free accepting => ?_, fun closed => ?_⟩
        · rw [stored] at accepting
          cases accepting
        · rw [stored] at closed
          cases closed
      | some state =>
        cases state with
        | accepting free => exact untouched (progress.accepting c free stored).2
        | closed =>
          rcases progress.closed c stored with ⟨_, same⟩ | gone
          · exact untouched same
          · have before : Served txs c msg s := by
              refine ⟨fun free accepting => ?_, fun _ => gone⟩
              rw [stored] at accepting
              cases accepting
            exact before.delivered progress c
    · exact ih (progress.delivered d) later

end Loops

theorem guards_dispatched : (s.dispatched msg c).guards = s.guards := by
  unfold dispatched
  split <;> rfl

theorem guards_delivered {frame : Option RegisteredConnection → Option ServerMessage} :
    (s.delivered frame c).guards = s.guards := by
  unfold delivered
  split
  · exact guards_dispatched
  · rfl

theorem foldlM_tryDispatchConn (idle : s.guards = []) (ids : List ConnId) :
    ids.foldlM (tryDispatchConn sh msg) s =
      some (ids.foldl (delivered fun _ => some msg) s) :=
  foldlM_eq_foldl (I := fun s => s.guards = []) (fun _ c idle => tryDispatchConn_eq idle c)
    (fun _ _ idle => guards_dispatched.trans idle) ids s idle

theorem dispatchUser_eq (idle : s.guards = []) (userId : String) :
    dispatchUser sh userId msg s = some
      ((ListIndex.listed s.registry.userConnections (normalizeId userId)).foldl
        (delivered fun _ => some msg) s) := by
  unfold dispatchUser
  rw [read_idle idle]
  simp only [Option.bind_eq_bind, Option.bind_some]
  exact foldlM_tryDispatchConn idle _

theorem dispatchAdmins_eq (idle : s.guards = []) : dispatchAdmins sh msg s = some
    ((adminConnectionIds s.registry).foldl (delivered fun _ => some msg) s) := by
  have scanned : s.registry.connections.keys.foldlM
      (fun s c => s.read ⟨.connections (sh.connections c), false⟩) s = some s := by
    have round : ∀ (s : DispatchTask) (c : ConnId), s.guards = [] →
        s.read ⟨.connections (sh.connections c), false⟩ = some s := fun _ _ idle => read_idle idle _
    rw [foldlM_eq_foldl round (fun _ _ idle => idle) _ s idle, List.foldl_fixed]
  unfold dispatchAdmins
  rw [scanned]
  simp only [Option.bind_eq_bind, Option.bind_some]
  exact foldlM_tryDispatchConn idle _

/-- The frame of a tick for a connection that the registry may have. -/
def tickFrameOf (symbol : String) (now : ℤ) (payload : Json) (conn : Option RegisteredConnection) :
    Option ServerMessage :=
  Gateway.tickFrame symbol now payload (conn.map fun conn =>
    ⟨conn.userId, conn.role, conn.groupId, conn.subscriptions.keys⟩)

theorem dispatchTick_eq (idle : s.guards = []) (symbol : String) (payload : Json) (c : ConnId) :
    dispatchTick sh symbol now payload s c =
      some (s.delivered (tickFrameOf symbol now payload) c) := by
  unfold dispatchTick
  rw [read_idle idle, ite_self]
  simp only [Option.bind_eq_bind, Option.bind_some]
  unfold delivered tickFrameOf tickConnection
  generalize Gateway.tickFrame symbol now payload (Option.map (fun conn : RegisteredConnection =>
    ⟨conn.userId, conn.role, conn.groupId, conn.subscriptions.keys⟩) _) = frame
  cases frame with
  | none => rfl
  | some msg => exact sendTick_eq idle c

theorem broadcastTick_eq (idle : s.guards = []) {symbol : String} {payload : Json}
    (named : payload.getStr "symbol" = some symbol) : broadcastTick sh now payload s = some
      ((tickSubscribers s.registry symbol).foldl (delivered (tickFrameOf symbol now payload)) s) := by
  have round : ∀ (s : DispatchTask) (c : ConnId), s.guards = [] →
      dispatchTick sh symbol now payload s c =
        some (s.delivered (tickFrameOf symbol now payload) c) :=
    fun _ c idle => dispatchTick_eq idle symbol payload c
  have loop := foldlM_eq_foldl round (fun _ _ idle => guards_delivered.trans idle)
    (tickSubscribers s.registry symbol) s idle
  unfold broadcastTick
  rw [named]
  simp only [read_idle idle, Option.bind_eq_bind, Option.bind_some]
  split <;> exact loop

/-- With the iterator on its entry, an open connection is served and a closed
one is waited for in vain. -/
theorem dispatchEntry_eq (idle : s.guards = []) (c : ConnId) : dispatchEntry sh msg s c =
    if s.connectionTxs.lookup c = some .closed then none else some (s.dispatched msg c) := by
  unfold dispatchEntry tryDispatchConn dispatched
  dsimp only
  rw [acquire_idle idle]
  simp only [Option.bind_eq_bind, Option.bind_some]
  have shared : acquire ⟨.connectionTxs (sh.connectionTxs c), false⟩
      { s with guards := [⟨.connectionTxs (sh.connectionTxs c), false⟩] } = some { s with
        guards := [⟨.connectionTxs (sh.connectionTxs c), false⟩,
          ⟨.connectionTxs (sh.connectionTxs c), false⟩] } := by
    simp [acquire]
  rw [shared]
  simp only [Option.bind_some]
  cases stored : s.connectionTxs.lookup c with
  | none => simp [release, ← idle]
  | some state =>
    cases state with
    | accepting free => simp [release, offer, ← idle]
    | closed => simp [removeClosed, acquire, release]

/-- Somebody's closed receiver stops the loop over all connections. -/
theorem foldlM_dispatchEntry_eq_none {ids : List ConnId} (idle : s.guards = [])
    (closed : s.connectionTxs.lookup c = some .closed) (member : c ∈ ids) :
    ids.foldlM (dispatchEntry sh msg) s = none := by
  induction ids generalizing s with
  | nil => cases member
  | cons d rest ih =>
    rw [List.foldlM_cons, dispatchEntry_eq idle]
    split_ifs with blocked
    · rfl
    · have apart : c ≠ d := by
        rintro rfl
        exact blocked closed
      have later : c ∈ rest := (List.mem_cons.mp member).resolve_left apart
      have still : (s.dispatched msg d).connectionTxs.lookup c = some .closed := by
        unfold dispatched
        split
        next => exact closed
        next => exact (AList.lookup_insert_ne apart).trans closed
        next stored => exact absurd stored blocked
      exact ih (guards_dispatched.trans idle) still later

theorem foldlM_dispatchEntry {ids : List ConnId} (idle : s.guards = [])
    (noneClosed : ∀ c, s.connectionTxs.lookup c ≠ some .closed) :
    ids.foldlM (dispatchEntry sh msg) s = some (ids.foldl (delivered fun _ => some msg) s) := by
  refine foldlM_eq_foldl
    (I := fun s => s.guards = [] ∧ ∀ c, s.connectionTxs.lookup c ≠ some .closed)
    (fun s c inv => ?_) (fun s d inv => ?_) ids s ⟨idle, noneClosed⟩
  · rw [dispatchEntry_eq inv.1, if_neg (inv.2 c)]
    rfl
  · refine ⟨guards_delivered.trans inv.1, fun c => ?_⟩
    change (s.dispatched msg d).connectionTxs.lookup c ≠ some .closed
    unfold dispatched
    split
    next => exact inv.2 c
    next free stored =>
      by_cases same : c = d
      · subst same
        intro closed
        rw [offer, AList.lookup_insert] at closed
        cases closed
      · intro closed
        exact inv.2 c ((AList.lookup_insert_ne same).symm.trans closed)
    next stored => exact absurd stored (inv.2 d)

/-- Whatever is served after all dispatches settles the message. -/
theorem settles_of_served (ends : handleMessage sh m now (beginning r txs) = some after)
    (progress : Progress r txs after)
    (served : ∀ c msg, Addressed r txs m now c msg → Served txs c msg after) :
    Settles sh r txs m now := by
  refine ⟨after, ends, fun c msg addressed => ⟨(served c msg addressed).offered, fun closed => ?_⟩⟩
  obtain ⟨absent, unregistered⟩ := (served c msg addressed).gone closed
  exact ⟨absent, progress.listing.goneFrom unregistered⟩

/-- An administrator is listed as one while its connection is there. -/
theorem mem_adminConnectionIds {q : ConnectionRegistry}
    (same : q.connections.lookup c = r.connections.lookup c) (member : c ∈ adminConnectionIds r) :
    c ∈ adminConnectionIds q := by
  unfold adminConnectionIds at member ⊢
  obtain ⟨present, admin⟩ := List.mem_filter.mp member
  refine List.mem_filter.mpr ⟨?_, ?_⟩
  · rw [← AList.mem_keys, ← AList.lookup_isSome] at present ⊢
    rw [same]
    exact present
  · rw [same]
    exact admin

theorem served_admins (progress : Progress r txs s) (member : c ∈ adminConnectionIds r) :
    Served txs c msg ((adminConnectionIds s.registry).foldl (delivered fun _ => some msg) s) := by
  have untouched : s.registry.connections.lookup c = r.connections.lookup c →
      Served txs c msg ((adminConnectionIds s.registry).foldl (delivered fun _ => some msg) s) :=
    fun same => served_foldl progress (mem_adminConnectionIds same member) rfl
  cases stored : txs.lookup c with
  | none =>
    refine ⟨fun free accepting => ?_, fun closed => ?_⟩
    · rw [stored] at accepting
      cases accepting
    · rw [stored] at closed
      cases closed
  | some state =>
    cases state with
    | accepting free => exact untouched (progress.accepting c free stored).2
    | closed =>
      rcases progress.closed c stored with ⟨_, same⟩ | gone
      · exact untouched same
      · have before : Served txs c msg s := by
          refine ⟨fun free accepting => ?_, fun _ => gone⟩
          rw [stored] at accepting
          cases accepting
        exact before.foldl progress _

theorem dispatchUserAndAdmins_eq {userId : String} (progress : Progress r txs s) :
    (dispatchUser sh userId msg s).bind (dispatchAdmins sh msg) = some
      ((adminConnectionIds ((ListIndex.listed s.registry.userConnections (normalizeId userId)).foldl
        (delivered fun _ => some msg) s).registry).foldl (delivered fun _ => some msg)
          ((ListIndex.listed s.registry.userConnections (normalizeId userId)).foldl
            (delivered fun _ => some msg) s)) := by
  rw [dispatchUser_eq progress.idle userId, Option.bind_some]
  exact dispatchAdmins_eq (progress.foldl _).idle

/-- The dispatches to an audience serve everybody in it. -/
theorem dispatch_served (progress : Progress r txs (beginning r txs)) {audience : Audience}
    (noneClosed : audience = .everyone → ∀ c, txs.lookup c ≠ some .closed) :
    ∃ after, dispatch sh msg (beginning r txs) audience = some after ∧ Progress r txs after ∧
      ∀ c, InAudience r txs c audience → Served txs c msg after := by
  cases audience with
  | user userId =>
    exact ⟨_, dispatchUser_eq rfl userId, progress.foldl _,
      fun c member => served_foldl progress member rfl⟩
  | admins =>
    exact ⟨_, dispatchAdmins_eq rfl, progress.foldl _,
      fun c member => served_foldl progress member rfl⟩
  | userAndAdmins userId =>
    have first : Progress r txs
        ((ListIndex.listed r.userConnections (normalizeId userId)).foldl
          (delivered fun _ => some msg) (beginning r txs)) := progress.foldl _
    refine ⟨_, dispatchUserAndAdmins_eq progress, first.foldl _, fun c member => ?_⟩
    rcases member with own | admin
    · exact (served_foldl progress own rfl).foldl first _
    · exact served_admins first admin
  | everyone =>
    exact ⟨_, foldlM_dispatchEntry rfl (noneClosed rfl), progress.foldl _,
      fun c member => served_foldl progress member rfl⟩

theorem broadcastTick_settles (progress : Progress r txs (beginning r txs))
    (ticks : m.channel = "price:ticks") : Settles sh r txs m now := by
  have sent : handleMessage sh m now (beginning r txs) =
      broadcastTick sh now m.payload (beginning r txs) := if_pos ticks
  cases named : m.payload.getStr "symbol" with
  | none =>
    have nothing : broadcastTick sh now m.payload (beginning r txs) = some (beginning r txs) := by
      unfold broadcastTick
      rw [named]
    refine settles_of_served (sent.trans nothing) progress fun c msg addressed => ?_
    unfold Addressed at addressed
    rw [if_pos ticks] at addressed
    obtain ⟨symbol, found, -⟩ := addressed
    cases named.symm.trans found
  | some symbol =>
    refine settles_of_served (sent.trans (broadcastTick_eq rfl named)) (progress.foldl _)
      fun c msg addressed => ?_
    unfold Addressed at addressed
    rw [if_pos ticks] at addressed
    obtain ⟨other, found, member, frame⟩ := addressed
    cases named.symm.trans found
    exact served_foldl progress member frame

/-- The broadcaster settles a message unless it is for everyone while a receiver
is closed, whatever the shards are. -/
theorem settles_iff {actions : List RegistryAction}
    (run : Run ConnectionRegistry.step .empty actions r) (sh : Sharding)
    (txs : FiniteTable ConnId QueueState) (m : Message) (now : ℤ) :
    Settles sh r txs m now ↔ ¬MeetsClosed txs m now := by
  have progress : Progress r txs (beginning r txs) :=
    progress_beginning (ConnectionRegistry.listing_of_run run)
  by_cases ticks : m.channel = "price:ticks"
  · refine iff_of_true (broadcastTick_settles progress ticks) ?_
    rintro ⟨⟨msg, routed⟩, -⟩
    rw [ticks] at routed
    cases routed
  · cases routed : TradingPlatform.handleMessage now m.payload m.channel with
    | none =>
      have sent : handleMessage sh m now (beginning r txs) = some (beginning r txs) := by
        unfold handleMessage
        rw [if_neg ticks, routed]
      refine iff_of_true (settles_of_served sent progress fun c msg addressed => ?_) ?_
      · unfold Addressed at addressed
        rw [if_neg ticks] at addressed
        obtain ⟨audience, found, -⟩ := addressed
        cases routed.symm.trans found
      · rintro ⟨⟨msg, found⟩, -⟩
        cases routed.symm.trans found
    | some pair =>
      obtain ⟨audience, frame⟩ := pair
      have sent : handleMessage sh m now (beginning r txs) =
          dispatch sh frame (beginning r txs) audience := by
        unfold handleMessage
        rw [if_neg ticks, routed]
      constructor
      · rintro ⟨after, ends, -⟩ ⟨⟨msg, found⟩, c, closed⟩
        cases routed.symm.trans found
        have member : c ∈ txs.keys := by
          rw [← AList.mem_keys, ← AList.lookup_isSome, closed]
          rfl
        have stopped : dispatch sh frame (beginning r txs) .everyone = none :=
          foldlM_dispatchEntry_eq_none rfl closed member
        cases (sent.trans stopped).symm.trans ends
      · intro met
        have noneClosed : audience = .everyone → ∀ c, txs.lookup c ≠ some .closed :=
          fun same c closed => met ⟨⟨frame, same ▸ routed⟩, c, closed⟩
        have through : ∃ after, dispatch sh frame (beginning r txs) audience = some after ∧
            Progress r txs after ∧ ∀ c, InAudience r txs c audience → Served txs c frame after :=
          dispatch_served progress noneClosed
        obtain ⟨after, ends, reached, served⟩ := through
        refine settles_of_served (sent.trans ends) reached fun c msg addressed => ?_
        unfold Addressed at addressed
        rw [if_neg ticks] at addressed
        obtain ⟨other, found, member⟩ := addressed
        cases routed.symm.trans found
        exact served c member

/-- A balance for a user with one open tab and one that is closed. -/
theorem settles_with_closed_tab : ∃ r, Run ConnectionRegistry.step .empty
    [.register 1 "u1" none "user" 0, .register 2 "u1" none "user" 0] r ∧
    Settles ⟨id, id, String.length, String.length, String.length⟩ r
      (((∅ : FiniteTable ConnId QueueState).insert 1 (.accepting 0)).insert 2 .closed)
      (Publication.walletBalance "u1" []).message 0 := by
  have evaluates : (runGuarded ConnectionRegistry.step (fun _ _ => True) .empty
      [.register 1 "u1" none "user" 0, .register 2 "u1" none "user" 0]).isSome = true := by
    decide +kernel
  obtain ⟨r, reached⟩ := Option.isSome_iff_exists.mp evaluates
  refine ⟨r, .of_eval reached, (settles_iff (.of_eval reached) _ _ _ _).mpr ?_⟩
  rintro ⟨⟨msg, routed⟩, -⟩
  cases routed

/-- A notice for all administrators meets a receiver that is closed: the loop
holds the shard whose lock the removal asks for. -/
theorem not_settles_notice : ¬Settles ⟨id, id, String.length, String.length, String.length⟩ .empty
    (((∅ : FiniteTable ConnId QueueState).insert 1 (.accepting 0)).insert 2 .closed)
    (Publication.depositRequestNotice "u1" "n1" "t1" "Deposit" "2026-01-01" "5"
      (.str "5")).message 0 := by
  have waits : (handleMessage ⟨id, id, String.length, String.length, String.length⟩
      (Publication.depositRequestNotice "u1" "n1" "t1" "Deposit" "2026-01-01" "5"
        (.str "5")).message 0 (beginning .empty
      (((∅ : FiniteTable ConnId QueueState).insert 1 (.accepting 0)).insert 2 .closed))).isNone =
      true := by
    decide +kernel
  rintro ⟨after, ends, -⟩
  rw [ends] at waits
  cases waits

end DispatchTask

end TradingPlatform
