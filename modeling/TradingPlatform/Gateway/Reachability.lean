import TradingPlatform.Gateway.RegistryInvariant
import TradingPlatform.Gateway.SessionTasks

namespace TradingPlatform

open StepRuns

namespace ConnectionRegistry

theorem lookup_unregister (r : ConnectionRegistry) (c d : ConnId) :
    (r.unregister c).connections.lookup d = if d = c then none else r.connections.lookup d := by
  unfold unregister
  split
  next absent =>
    split_ifs with same
    · rw [same, absent]
    · rfl
  next =>
    dsimp only
    split_ifs with same
    · rw [same, AList.lookup_erase]
    · rw [AList.lookup_erase_ne same]

/-- Writing a registered connection back registers nobody else. -/
theorem isSome_rewrite {r : ConnectionRegistry} {c : ConnId} {conn : RegisteredConnection}
    (stored : r.connections.lookup c = some conn) (changed : RegisteredConnection) (d : ConnId) :
    ((r.connections.insert c changed).lookup d).isSome = (r.connections.lookup d).isSome := by
  by_cases same : d = c
  · rw [same, AList.lookup_insert, stored]
    rfl
  · rw [AList.lookup_insert_ne same]

theorem isSome_subscribeSymbol (r : ConnectionRegistry) (c : ConnId) (symbol : String)
    (channels : List String) (now : ℕ) (d : ConnId) :
    ((r.subscribeSymbol c symbol channels now).connections.lookup d).isSome =
      (r.connections.lookup d).isSome := by
  unfold subscribeSymbol
  split
  next => rfl
  next conn stored => exact isSome_rewrite stored _ d

theorem isSome_unsubscribeSymbol (r : ConnectionRegistry) (c : ConnId) (symbol : String)
    (d : ConnId) : ((r.unsubscribeSymbol c symbol).connections.lookup d).isSome =
      (r.connections.lookup d).isSome := by
  unfold unsubscribeSymbol
  split
  next => rfl
  next conn stored => exact isSome_rewrite stored _ d

theorem isSome_updateHeartbeat (r : ConnectionRegistry) (c : ConnId) (now : ℕ) (d : ConnId) :
    ((r.updateHeartbeat c now).connections.lookup d).isSome =
      (r.connections.lookup d).isSome := by
  unfold updateHeartbeat
  split
  next => rfl
  next conn stored => exact isSome_rewrite stored _ d

theorem UsersMirrored.listed {r : ConnectionRegistry} (mirrored : UsersMirrored r) {c : ConnId}
    {conn : RegisteredConnection} (stored : r.connections.lookup c = some conn) :
    c ∈ ListIndex.listed r.userConnections (normalizeId conn.userId) := by
  have once := mirrored.byUser c (normalizeId conn.userId)
  rw [registeredAs_of_lookup stored, decide_eq_true rfl, if_pos rfl] at once
  exact List.count_pos_iff.mp (once ▸ Nat.one_pos)

end ConnectionRegistry

namespace GatewayTasks
variable {timeout : ℕ} {s after : GatewayTasks} {c : ConnId}

/-- The connection is in the registry and its user's list, and its sender is
where the broadcaster looks for it. -/
def Registered (s : GatewayTasks) (c : ConnId) : Prop :=
  c ∈ s.connectionTxs ∧ ∃ conn, s.registry.connections.lookup c = some conn ∧
    c ∈ ListIndex.listed s.registry.userConnections (normalizeId conn.userId)

/-- The next valid `auth` registers the connection again, with the
subscriptions that the client was told it has. -/
def Recovers (timeout : ℕ) (s : GatewayTasks) (c : ConnId) (session : SocketSession) : Prop :=
  ∀ claims now after, s.step timeout (.receive c (.auth (some claims)) now) = some after →
    after.Registered c ∧ ∀ symbol ∈ session.confirmed, after.registry.subscribed c symbol = true

/-- Every open socket that is authenticated is registered or can be so again. -/
def Reachable (timeout : ℕ) (s : GatewayTasks) : Prop :=
  ∀ c session, s.sessions.lookup c = some session → session.phase = .running →
    session.isAuthenticated = true → s.Registered c ∨ s.Recovers timeout c session

/-- What holds between the sessions, the shared maps and the monitor. -/
structure Live (s : GatewayTasks) : Prop where
  users : s.registry.UsersMirrored
  known : ∀ c, (s.registry.connections.lookup c).isSome = true →
    ∃ session, s.sessions.lookup c = some session ∧ session.isAuthenticated = true
  reached : ∀ c session, s.sessions.lookup c = some session → session.phase = .running →
    c ∈ s.connectionTxs ∧
      (session.isAuthenticated = true → (s.registry.connections.lookup c).isSome = true)
  staleClosed : ∀ c ∈ s.stale, ∃ session, s.sessions.lookup c = some session ∧
    session.phase ≠ .running

theorem live_started : Live started where
  users := ConnectionRegistry.mirrored_empty.toUsersMirrored
  known _ registered := by cases registered
  reached _ _ known := by cases known
  staleClosed _ member := by cases member

theorem Live.reachable (live : Live s) : Reachable timeout s := by
  intro c session known running authenticated
  obtain ⟨sender, registered⟩ := live.reached c session known running
  obtain ⟨conn, stored⟩ := Option.isSome_iff_exists.mp (registered authenticated)
  exact .inl ⟨sender, conn, stored, live.users.listed stored⟩

/-- A session talks: nobody is registered or removed. -/
theorem Live.talks (live : Live s) {registry sessions} (users : registry.UsersMirrored)
    (registered : ∀ d, (registry.connections.lookup d).isSome =
      (s.registry.connections.lookup d).isSome) {session talked : SocketSession}
    (known : s.sessions.lookup c = some session) (own : AList.lookup c sessions = some talked)
    (phase : talked.phase = session.phase)
    (authenticated : talked.isAuthenticated = session.isAuthenticated)
    (others : ∀ d, d ≠ c → AList.lookup d sessions = s.sessions.lookup d) :
    Live { s with registry := registry, sessions := sessions } where
  users := users
  known d present := by
    rw [registered] at present
    obtain ⟨found, isFound, valid⟩ := live.known d present
    by_cases same : d = c
    · subst same
      rw [known] at isFound
      cases isFound
      exact ⟨talked, own, by rw [authenticated, valid]⟩
    · exact ⟨found, by rw [← isFound, ← others d same], valid⟩
  reached d found isFound running := by
    dsimp only at isFound ⊢
    rw [registered]
    by_cases same : d = c
    · subst same
      rw [own] at isFound
      cases isFound
      rw [authenticated]
      exact live.reached d session known (phase ▸ running)
    · rw [others d same] at isFound
      exact live.reached d found isFound running
  staleClosed d member := by
    obtain ⟨found, isFound, closed⟩ := live.staleClosed d member
    by_cases same : d = c
    · subst same
      rw [known] at isFound
      cases isFound
      exact ⟨talked, own, phase ▸ closed⟩
    · exact ⟨found, by rw [← isFound, ← others d same], closed⟩

/-- A connection whose session does not run any more may be removed from each
of the maps. -/
theorem Live.leaves (live : Live s) {registry connectionTxs sessions stale}
    {session left : SocketSession} (known : s.sessions.lookup c = some session)
    (own : AList.lookup c sessions = some left) (closed : left.phase ≠ .running)
    (authenticated : left.isAuthenticated = session.isAuthenticated)
    (others : ∀ d, d ≠ c → AList.lookup d sessions = s.sessions.lookup d)
    (registered : registry = s.registry ∨ registry = s.registry.unregister c)
    (senders : ∀ d, d ≠ c → d ∈ s.connectionTxs → d ∈ connectionTxs)
    (fewer : ∀ d ∈ stale, d ∈ s.stale) : Live ⟨registry, connectionTxs, sessions, stale⟩ := by
  have lookups : ∀ d, registry.connections.lookup d = s.registry.connections.lookup d ∨
      d = c ∧ registry.connections.lookup d = none := by
    intro d
    rcases registered with rfl | rfl
    · exact .inl rfl
    · rw [ConnectionRegistry.lookup_unregister]
      split_ifs with same
      · exact .inr ⟨same, rfl⟩
      · exact .inl rfl
  refine ⟨?_, fun d present => ?_, fun d found isFound running => ?_, fun d member => ?_⟩
  · rcases registered with rfl | rfl
    · exact live.users
    · exact live.users.unregister c
  · have before : (s.registry.connections.lookup d).isSome = true := by
      rcases lookups d with same | ⟨_, none⟩
      · rw [← same]
        exact present
      · dsimp only at present
        rw [none] at present
        cases present
    obtain ⟨found, isFound, valid⟩ := live.known d before
    by_cases same : d = c
    · subst same
      rw [known] at isFound
      cases isFound
      exact ⟨left, own, by rw [authenticated, valid]⟩
    · exact ⟨found, by rw [← isFound, ← others d same], valid⟩
  · have other : d ≠ c := by
      rintro rfl
      dsimp only at isFound
      rw [own] at isFound
      cases isFound
      exact closed running
    dsimp only at isFound ⊢
    rw [others d other] at isFound
    obtain ⟨sender, present⟩ := live.reached d found isFound running
    refine ⟨senders d other sender, fun valid => ?_⟩
    rcases lookups d with same | ⟨own, _⟩
    · rw [same]
      exact present valid
    · exact absurd own other
  · obtain ⟨found, isFound, notRunning⟩ := live.staleClosed d (fewer d member)
    by_cases same : d = c
    · subst same
      exact ⟨left, own, closed⟩
    · exact ⟨found, by rw [← isFound, ← others d same], notRunning⟩

theorem Live.authenticate (live : Live s) {session : SocketSession}
    (known : s.sessions.lookup c = some session) (first : session.isAuthenticated = false)
    (claims : Claims) (now : ℕ) : Live { s with
      registry := s.registry.register c ⟨claims.sub, claims.groupId, claims.role, ∅, now⟩
      sessions := s.sessions.insert c { session with isAuthenticated := true } } := by
  have fresh : s.registry.connections.lookup c = none := by
    rw [Option.eq_none_iff_forall_ne_some]
    intro conn stored
    obtain ⟨found, isFound, valid⟩ := live.known c (by rw [stored]; rfl)
    rw [known] at isFound
    cases isFound
    rw [first] at valid
    cases valid
  refine ⟨live.users.register fresh, fun d present => ?_, fun d found isFound running => ?_,
    fun d member => ?_⟩
  · by_cases same : d = c
    · subst same
      exact ⟨_, AList.lookup_insert _, rfl⟩
    · dsimp only [ConnectionRegistry.register] at present ⊢
      rw [AList.lookup_insert_ne same] at present ⊢
      exact live.known d present
  · dsimp only [ConnectionRegistry.register] at isFound ⊢
    by_cases same : d = c
    · subst same
      rw [AList.lookup_insert] at isFound
      cases isFound
      refine ⟨(live.reached d session known running).1, fun _ => ?_⟩
      rw [AList.lookup_insert]
      rfl
    · rw [AList.lookup_insert_ne same] at isFound ⊢
      exact live.reached d found isFound running
  · obtain ⟨found, isFound, closed⟩ := live.staleClosed d member
    dsimp only
    by_cases same : d = c
    · subst same
      rw [known] at isFound
      cases isFound
      exact ⟨_, AList.lookup_insert _, closed⟩
    · exact ⟨found, by rw [AList.lookup_insert_ne same, isFound], closed⟩

theorem foldl_registry {α : Type} {f : ConnectionRegistry → α → ConnectionRegistry}
    (users : ∀ r a, r.UsersMirrored → (f r a).UsersMirrored)
    (registered : ∀ r a d, ((f r a).connections.lookup d).isSome = (r.connections.lookup d).isSome)
    (items : List α) {r : ConnectionRegistry} (mirrored : r.UsersMirrored) :
    (items.foldl f r).UsersMirrored ∧
      ∀ d, ((items.foldl f r).connections.lookup d).isSome = (r.connections.lookup d).isSome := by
  induction items generalizing r with
  | nil => exact ⟨mirrored, fun _ => rfl⟩
  | cons a rest ih =>
    obtain ⟨still, same⟩ := ih (users r a mirrored)
    exact ⟨still, fun d => (same d).trans (registered r a d)⟩

theorem Live.receive (live : Live s) {session : SocketSession}
    (known : s.sessions.lookup c = some session) (now : ℕ) (m : ClientMessage) :
    Live (s.receive c session now m) := by
  have others : ∀ talked d, d ≠ c →
      (s.sessions.insert c talked).lookup d = s.sessions.lookup d :=
    fun talked d other => AList.lookup_insert_ne other
  have heard : Live { s with registry := s.registry.updateHeartbeat c now } :=
    live.talks (live.users.updateHeartbeat c now) (s.registry.isSome_updateHeartbeat c now) known
      known rfl rfl fun _ _ => rfl
  cases m with
  | auth token =>
    simp only [GatewayTasks.receive]
    split_ifs with first
    · exact live
    · split
      next => exact live
      next claims => exact live.authenticate known (Bool.eq_false_iff.mpr first) claims now
  | subscribe symbols channels =>
    simp only [GatewayTasks.receive]
    split_ifs
    · obtain ⟨users, registered⟩ := foldl_registry
        (fun r symbol held => held.subscribeSymbol c symbol channels now)
        (fun r symbol => r.isSome_subscribeSymbol c symbol channels now)
        (Gateway.requestedSymbols symbols) live.users
      exact live.talks users registered known (AList.lookup_insert _) rfl rfl (others _)
    · exact live
  | unsubscribe symbols =>
    obtain ⟨users, registered⟩ := foldl_registry
      (fun r symbol held => held.unsubscribeSymbol c symbol)
      (fun r symbol => r.isSome_unsubscribeSymbol c symbol)
      (Gateway.requestedSymbols symbols) live.users
    exact live.talks users registered known (AList.lookup_insert _) rfl rfl (others _)
  | ping => exact heard
  | pong => exact heard
  | other => exact live

theorem mem_filter_other {senders : List ConnId} {d : ConnId} (other : d ≠ c)
    (member : d ∈ senders) : d ∈ senders.filter (· ≠ c) :=
  List.mem_filter.mpr ⟨member, decide_eq_true other⟩

/-- At each round of the monitor, every open socket has been heard of within
the timeout. -/
def Heard (timeout : ℕ) (s : GatewayTasks) : TaskAction → Prop
  | .scan now => ∀ c ∈ s.registry.staleConnections now timeout, s.socketOpen c = false
  | _ => True

instance (timeout : ℕ) (s : GatewayTasks) : DecidablePred (Heard timeout s)
  | .scan now => inferInstanceAs (Decidable (∀ c ∈ s.registry.staleConnections now timeout,
      s.socketOpen c = false))
  | .connect _ => .isTrue trivial
  | .receive _ _ _ => .isTrue trivial
  | .dispatchClosed _ => .isTrue trivial
  | .taskEnds _ => .isTrue trivial
  | .dropSender _ => .isTrue trivial
  | .unregister _ => .isTrue trivial
  | .removeNext => .isTrue trivial

theorem Live.connect (live : Live s) (fresh : s.sessions.lookup c = none) :
    Live { s with
      connectionTxs := c :: s.connectionTxs
      sessions := s.sessions.insert c ⟨.running, false, []⟩ } := by
  have other : ∀ d session, s.sessions.lookup d = some session → d ≠ c := by
    rintro d session known rfl
    rw [fresh] at known
    cases known
  refine ⟨live.users, fun d present => ?_, fun d found isFound running => ?_, fun d member => ?_⟩
  · obtain ⟨found, isFound, valid⟩ := live.known d present
    exact ⟨found, by rw [AList.lookup_insert_ne (other d found isFound), isFound], valid⟩
  · dsimp only at isFound ⊢
    by_cases same : d = c
    · subst same
      rw [AList.lookup_insert] at isFound
      cases isFound
      exact ⟨List.mem_cons_self, nofun⟩
    · rw [AList.lookup_insert_ne same] at isFound
      obtain ⟨sender, present⟩ := live.reached d found isFound running
      exact ⟨List.mem_cons_of_mem c sender, present⟩
  · obtain ⟨found, isFound, closed⟩ := live.staleClosed d member
    exact ⟨found, by rw [AList.lookup_insert_ne (other d found isFound), isFound], closed⟩

theorem Live.scan (live : Live s) {now : ℕ}
    (heard : ∀ c ∈ s.registry.staleConnections now timeout, s.socketOpen c = false) :
    Live { s with stale := s.registry.staleConnections now timeout } := by
  refine ⟨live.users, live.known, live.reached, fun d member => ?_⟩
  have present : (s.registry.connections.lookup d).isSome = true :=
    AList.lookup_isSome.mpr (AList.mem_keys.mpr (List.mem_filter.mp member).1)
  obtain ⟨session, known, _⟩ := live.known d present
  refine ⟨session, known, fun running => ?_⟩
  have closed := heard d member
  rw [socketOpen, known, Option.any_some, running] at closed
  cases closed

theorem Live.step (live : Live s) {action : TaskAction} (heard : Heard timeout s action)
    (taken : s.step timeout action = some after) : Live after := by
  cases action with
  | connect c =>
    simp only [GatewayTasks.step] at taken
    split at taken
    next fresh =>
      cases taken
      exact live.connect fresh
    next => cases taken
  | receive c m now =>
    simp only [GatewayTasks.step] at taken
    split at taken
    next session known =>
      split_ifs at taken
      cases taken
      exact live.receive known now m
    next => cases taken
  | dispatchClosed c =>
    simp only [GatewayTasks.step] at taken
    split at taken
    next session known =>
      split_ifs at taken with running
      cases taken
      unfold GatewayTasks.dispatchClosed
      split_ifs
      · exact live.leaves known known running rfl (fun _ _ => rfl) (.inr rfl)
          (fun _ => mem_filter_other) fun _ => id
      · exact live
    next => cases taken
  | taskEnds c =>
    simp only [GatewayTasks.step] at taken
    split at taken
    next session known =>
      split_ifs at taken
      cases taken
      exact live.leaves known (AList.lookup_insert _) nofun rfl
        (fun _ => AList.lookup_insert_ne) (.inl rfl) (fun _ _ => id) fun _ => id
    next => cases taken
  | dropSender c =>
    simp only [GatewayTasks.step] at taken
    split at taken
    next session known =>
      split_ifs at taken
      cases taken
      exact live.leaves known (AList.lookup_insert _) nofun rfl
        (fun _ => AList.lookup_insert_ne) (.inl rfl) (fun _ => mem_filter_other) fun _ => id
    next => cases taken
  | unregister c =>
    simp only [GatewayTasks.step] at taken
    split at taken
    next session known =>
      split_ifs at taken
      cases taken
      exact live.leaves known (AList.lookup_insert _) nofun rfl
        (fun _ => AList.lookup_insert_ne) (.inr rfl) (fun _ _ => id) fun _ => id
    next => cases taken
  | scan now =>
    simp only [GatewayTasks.step] at taken
    split_ifs at taken
    cases taken
    exact live.scan heard
  | removeNext =>
    simp only [GatewayTasks.step] at taken
    split at taken
    next => cases taken
    next c rest collected =>
      cases taken
      obtain ⟨session, known, closed⟩ := live.staleClosed c (collected ▸ List.mem_cons_self)
      exact live.leaves known known closed rfl (fun _ _ => rfl) (.inr rfl) (fun _ _ => id)
        fun d member => collected ▸ List.mem_cons_of_mem c member

/-- As long as the monitor finds no open socket silent, every authenticated
socket stays reachable. -/
theorem reachable_of_run {actions : List TaskAction}
    (run : GuardedRun (step timeout) (Heard timeout) started actions s) : Reachable timeout s := by
  have live : Live s :=
    run.invariant live_started fun _ _ _ heard taken held => held.step heard taken
  exact live.reachable

theorem reachable_of_pings : ∃ s, GuardedRun (step 60) (Heard 60) started
    [.connect 1, .receive 1 (.auth (some ⟨"a11ce", "user", none⟩)) 0,
      .receive 1 (.subscribe ["EURUSD"] []) 1, .receive 1 .ping 50, .scan 100] s ∧
    Reachable 60 s ∧ s.socketOpen 1 = true := by
  have evaluates : (runGuarded (step 60) (Heard 60) started
      [.connect 1, .receive 1 (.auth (some ⟨"a11ce", "user", none⟩)) 0,
        .receive 1 (.subscribe ["EURUSD"] []) 1, .receive 1 .ping 50, .scan 100]).map
      (·.socketOpen 1) = some true := by decide +kernel
  obtain ⟨s, reached, isOpen⟩ := Option.map_eq_some_iff.mp evaluates
  exact ⟨s, .of_eval reached, reachable_of_run (.of_eval reached), isOpen⟩

/-- A client that only listens is removed from the registry while its socket
is open. Its session ignores the next `auth` and refuses to subscribe. -/
theorem silent_unreachable : ∃ s, Run (step 60) started
    [.connect 1, .receive 1 (.auth (some ⟨"a11ce", "user", none⟩)) 0,
      .receive 1 (.subscribe ["EURUSD"] []) 1, .scan 100, .removeNext] s ∧ ¬Reachable 60 s := by
  have evaluates : (runGuarded (step 60) (fun _ _ => True) started
      [.connect 1, .receive 1 (.auth (some ⟨"a11ce", "user", none⟩)) 0,
        .receive 1 (.subscribe ["EURUSD"] []) 1, .scan 100, .removeNext]).map
      (fun s => (s.sessions.lookup 1, (s.registry.connections.lookup 1).isNone)) =
      some (some ⟨.running, true, ["EURUSD"]⟩, true) := by decide +kernel
  obtain ⟨s, reached, reads⟩ := Option.map_eq_some_iff.mp evaluates
  obtain ⟨known, removed⟩ := Prod.mk.inj reads
  refine ⟨s, .of_eval reached, fun reachable => ?_⟩
  have absent : s.registry.connections.lookup 1 = none := Option.isNone_iff_eq_none.mp removed
  have lost : ¬s.Registered 1 := by
    rintro ⟨_, conn, stored, _⟩
    rw [absent] at stored
    cases stored
  rcases reachable 1 _ known rfl rfl with registered | recovers
  · exact lost registered
  · have ignored : s.step 60 (.receive 1 (.auth (some ⟨"a11ce", "user", none⟩)) 101) = some s := by
      simp only [step, known]
      rfl
    exact lost (recovers _ _ _ ignored).1

end GatewayTasks

end TradingPlatform
