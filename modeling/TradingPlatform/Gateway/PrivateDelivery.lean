import TradingPlatform.Gateway.ConnectionView
import TradingPlatform.Library.Noninterference

namespace TradingPlatform

open StepRuns

namespace Gateway
variable {s after : Gateway} {c d : ConnId}

section Sessions

/-- What an action does to the sessions does not depend on the rest. -/
def nextSessions (sessions : FiniteTable ConnId Session) : GatewayAction → FiniteTable ConnId Session
  | .connect c => sessions.insert c ⟨none, true⟩
  | .authenticate c claims =>
    match sessions.lookup c with
    | some ⟨none, true⟩ => sessions.insert c ⟨some claims, true⟩
    | _ => sessions
  | .endSession c => (sessions.lookup c).elim sessions fun session =>
    sessions.insert c { session with live := false }
  | _ => sessions

theorem unregister_sessions (s : Gateway) (c : ConnId) : (s.unregister c).sessions = s.sessions := by
  unfold unregister
  split <;> rfl

theorem tryDispatchConn_sessions (s : Gateway) (c : ConnId) (msg : ServerMessage) :
    (s.tryDispatchConn c msg).sessions = s.sessions := by
  unfold tryDispatchConn
  split
  next => rfl
  next =>
    split_ifs
    · exact unregister_sessions _ c
    · rfl
    · split <;> rfl

theorem foldl_sessions {α : Type} {f : Gateway → α → Gateway}
    (keeps : ∀ s a, (f s a).sessions = s.sessions) (items : List α) (s : Gateway) :
    (items.foldl f s).sessions = s.sessions := by
  induction items generalizing s with
  | nil => rfl
  | cons a rest ih => exact (ih (f s a)).trans (keeps s a)

theorem handle_sessions (s : Gateway) (m : Message) (now : ℤ) :
    (s.handle m now).sessions = s.sessions := by
  unfold handle
  split_ifs
  · unfold broadcastTick
    split
    next => rfl
    next symbol _ =>
      refine foldl_sessions (fun s c => ?_) _ s
      unfold dispatchTick
      split
      next msg _ => exact tryDispatchConn_sessions s c msg
      next => rfl
  · split
    next => rfl
    next audience msg _ => exact foldl_sessions (fun s c => tryDispatchConn_sessions s c msg) _ s

theorem step_sessions {action : GatewayAction} (taken : s.step action = some after) :
    after.sessions = nextSessions s.sessions action := by
  cases action with
  | connect c =>
    simp only [step] at taken
    split_ifs at taken
    cases taken
    rfl
  | authenticate c claims =>
    cases taken
    rcases found : s.sessions.lookup c with _ | ⟨_ | _, _ | _⟩ <;>
      simp [authenticate, nextSessions, found, register]
  | subscribe c symbols =>
    cases taken
    refine foldl_sessions (fun s symbol => ?_) _ s
    unfold subscribeSymbol
    split <;> rfl
  | unsubscribe c symbols =>
    cases taken
    refine foldl_sessions (fun s symbol => ?_) _ s
    unfold unsubscribeSymbol
    split <;> rfl
  | publish p now =>
    cases taken
    exact handle_sessions s p.message now
  | deliver m now =>
    cases taken
    exact handle_sessions s m now
  | drain c =>
    cases taken
    unfold drain
    split <;> rfl
  | retry c =>
    cases taken
    unfold retry
    split
    next => rfl
    next =>
      split
      next => rfl
      next => split_ifs <;> rfl
  | receiverEnds c =>
    cases taken
    rfl
  | endSession c =>
    cases taken
    simp only [endSession, nextSessions]
    split
    next session found =>
      rw [unregister_sessions]
      dsimp only
      rw [found]
      rfl
    next found =>
      rw [found]
      rfl

/-- Two gateways with the same sessions can take the same actions. -/
theorem step_defined {t : Gateway} {action : GatewayAction} (sessions : s.sessions = t.sessions)
    (taken : s.step action = some after) : ∃ other, t.step action = some other := by
  cases action with
  | connect c =>
    simp only [step] at taken ⊢
    rw [sessions] at taken
    split_ifs at taken with fresh
    rw [if_pos fresh]
    exact ⟨_, rfl⟩
  | authenticate c claims => exact ⟨_, rfl⟩
  | subscribe c symbols => exact ⟨_, rfl⟩
  | unsubscribe c symbols => exact ⟨_, rfl⟩
  | publish p now => exact ⟨_, rfl⟩
  | deliver m now => exact ⟨_, rfl⟩
  | drain c => exact ⟨_, rfl⟩
  | retry c => exact ⟨_, rfl⟩
  | receiverEnds c => exact ⟨_, rfl⟩
  | endSession c => exact ⟨_, rfl⟩

/-- Claims stay with their session. -/
theorem claims_kept {action : GatewayAction} {session : Session} {claims : Claims}
    (taken : s.step action = some after) (known : s.sessions.lookup c = some session)
    (authenticated : session.claims = some claims) :
    ∃ later, after.sessions.lookup c = some later ∧ later.claims = some claims := by
  rw [step_sessions taken]
  cases action with
  | connect d =>
    simp only [step] at taken
    split_ifs at taken with fresh
    have other : c ≠ d := by
      rintro rfl
      rw [known] at fresh
      cases fresh
    refine ⟨session, ?_, authenticated⟩
    simp only [nextSessions]
    rw [AList.lookup_insert_ne other, known]
  | authenticate d other =>
    simp only [nextSessions]
    split
    next found =>
      have differ : c ≠ d := by
        rintro rfl
        rw [known] at found
        cases found
        cases authenticated
      exact ⟨session, by rw [AList.lookup_insert_ne differ, known], authenticated⟩
    next => exact ⟨session, known, authenticated⟩
  | endSession d =>
    simp only [nextSessions]
    by_cases own : c = d
    · subst own
      rw [known, Option.elim_some]
      exact ⟨{ session with live := false }, AList.lookup_insert _, authenticated⟩
    · cases found : s.sessions.lookup d with
      | none => exact ⟨session, known, authenticated⟩
      | some ended =>
        rw [Option.elim_some]
        exact ⟨session, by rw [AList.lookup_insert_ne own, known], authenticated⟩
  | subscribe d symbols => exact ⟨session, known, authenticated⟩
  | unsubscribe d symbols => exact ⟨session, known, authenticated⟩
  | publish p now => exact ⟨session, known, authenticated⟩
  | deliver m now => exact ⟨session, known, authenticated⟩
  | drain d => exact ⟨session, known, authenticated⟩
  | retry d => exact ⟨session, known, authenticated⟩
  | receiverEnds d => exact ⟨session, known, authenticated⟩

/-- The connection is authenticated neither as the user nor as an admin. -/
def Outsider (s : Gateway) (userId : String) (c : ConnId) : Prop :=
  ∀ session ∈ s.sessions.lookup c, ∀ claims ∈ session.claims,
    normalizeId claims.sub ≠ normalizeId userId ∧ isAdminRole claims.role = false

theorem Outsider.before {action : GatewayAction} {userId : String}
    (taken : s.step action = some after) (outsider : after.Outsider userId c) :
    s.Outsider userId c := by
  intro session known claims authenticated
  obtain ⟨later, still, kept⟩ := claims_kept taken known authenticated
  exact outsider later still claims kept

end Sessions

section Registry

/-- The registry lists the live authenticated sessions under their users, and
a live session keeps its queue until its receiver is gone. -/
structure Indexed (s : Gateway) : Prop where
  registered : ∀ c conn, s.connections.lookup c = some conn →
    ∃ claims, s.sessions.lookup c = some ⟨some claims, true⟩ ∧ conn.userId = claims.sub ∧
      conn.role = claims.role
  listed : ∀ key c, c ∈ s.userConnections key →
    ∃ conn, s.connections.lookup c = some conn ∧ normalizeId conn.userId = key
  found : ∀ c conn, s.connections.lookup c = some conn →
    c ∈ s.userConnections (normalizeId conn.userId)
  queued : ∀ c session, s.sessions.lookup c = some session → session.live = true → c ∉ s.gone →
    (s.txs.lookup c).isSome

theorem indexed_opened : Indexed opened where
  registered c conn stored := by cases stored
  listed key c member := by cases member
  found c conn stored := by cases stored
  queued c session known := by cases known

/-- Only queues have changed, and a queue is lost only with its receiver. -/
theorem Indexed.withQueues (indexed : Indexed s) (sessions : after.sessions = s.sessions)
    (connections : after.connections = s.connections)
    (userConnections : after.userConnections = s.userConnections)
    (gone : ∀ c, c ∉ after.gone → c ∉ s.gone)
    (queues : ∀ c, c ∉ after.gone → (s.txs.lookup c).isSome → (after.txs.lookup c).isSome) :
    Indexed after where
  registered := by
    rw [connections, sessions]
    exact indexed.registered
  listed := by
    rw [connections, userConnections]
    exact indexed.listed
  found := by
    rw [connections, userConnections]
    exact indexed.found
  queued := by
    rw [sessions]
    intro c session known live present
    exact queues c present (indexed.queued c session known live (gone c present))

theorem Indexed.unregister (indexed : Indexed s) (c : ConnId) : Indexed (s.unregister c) := by
  unfold Gateway.unregister
  split
  next => exact indexed
  next conn stored =>
    refine ⟨fun d other present => ?_, fun key d member => ?_, fun d other present => ?_,
      indexed.queued⟩
    · dsimp only at present
      by_cases own : d = c
      · rw [own, AList.lookup_erase] at present
        cases present
      · rw [AList.lookup_erase_ne own] at present
        exact indexed.registered d other present
    · dsimp only at member ⊢
      have before : d ∈ s.userConnections key ∧ d ≠ c := by
        by_cases atKey : key = normalizeId conn.userId
        · rw [atKey, Function.update_self, List.mem_filter] at member
          rw [atKey]
          exact ⟨member.1, of_decide_eq_true member.2⟩
        · rw [Function.update_of_ne atKey] at member
          refine ⟨member, ?_⟩
          rintro rfl
          obtain ⟨found, isFound, key_eq⟩ := indexed.listed key d member
          rw [stored] at isFound
          cases isFound
          exact atKey key_eq.symm
      obtain ⟨found, isFound, key_eq⟩ := indexed.listed key d before.1
      exact ⟨found, by rw [AList.lookup_erase_ne before.2, isFound], key_eq⟩
    · dsimp only at present ⊢
      by_cases own : d = c
      · rw [own, AList.lookup_erase] at present
        cases present
      · rw [AList.lookup_erase_ne own] at present
        have member := indexed.found d other present
        by_cases atKey : normalizeId other.userId = normalizeId conn.userId
        · rw [atKey] at member ⊢
          rw [Function.update_self]
          exact List.mem_filter.mpr ⟨member, decide_eq_true own⟩
        · rw [Function.update_of_ne atKey]
          exact member

theorem unregister_lookup (s : Gateway) (c : ConnId) :
    (s.unregister c).connections.lookup c = none := by
  unfold unregister
  split
  next absent => exact absent
  next => exact AList.lookup_erase _ _

/-- A session changes that is not registered. -/
theorem Indexed.withSession (indexed : Indexed s) (session : Session) (queues gone)
    (unregistered : s.connections.lookup c = none)
    (others : ∀ d, d ≠ c → (d ∉ gone → d ∉ s.gone) ∧
      ((s.txs.lookup d).isSome → (AList.lookup d queues).isSome))
    (own : session.live = true → c ∉ gone → (AList.lookup c queues).isSome) :
    Indexed { s with
      sessions := s.sessions.insert c session
      txs := queues
      gone := gone } where
  registered d conn stored := by
    have other : d ≠ c := by
      rintro rfl
      dsimp only at stored
      rw [unregistered] at stored
      cases stored
    dsimp only
    rw [AList.lookup_insert_ne other]
    exact indexed.registered d conn stored
  listed := indexed.listed
  found := indexed.found
  queued d later known live present := by
    dsimp only at known present ⊢
    by_cases same : d = c
    · subst same
      rw [AList.lookup_insert] at known
      cases known
      exact own live present
    · rw [AList.lookup_insert_ne same] at known
      exact (others d same).2 (indexed.queued d later known live ((others d same).1 present))

theorem Indexed.register (indexed : Indexed s) {claims : Claims}
    (authenticated : s.sessions.lookup c = some ⟨some claims, true⟩)
    (unregistered : s.connections.lookup c = none) {conn : Connection}
    (userId : conn.userId = claims.sub) (role : conn.role = claims.role) :
    Indexed (s.register c conn) where
  registered d other stored := by
    unfold Gateway.register at stored ⊢
    dsimp only at stored ⊢
    by_cases own : d = c
    · subst own
      rw [AList.lookup_insert] at stored
      cases stored
      exact ⟨claims, authenticated, userId, role⟩
    · rw [AList.lookup_insert_ne own] at stored
      exact indexed.registered d other stored
  listed key d member := by
    unfold Gateway.register at member ⊢
    dsimp only at member ⊢
    have cases : (d = c ∧ key = normalizeId conn.userId) ∨ d ∈ s.userConnections key := by
      by_cases atKey : key = normalizeId conn.userId
      · rw [atKey, Function.update_self, List.mem_append, List.mem_singleton] at member
        rw [atKey]
        exact member.elim .inr fun own => .inl ⟨own, rfl⟩
      · rw [Function.update_of_ne atKey] at member
        exact .inr member
    rcases cases with ⟨rfl, rfl⟩ | member
    · exact ⟨conn, AList.lookup_insert _, rfl⟩
    · obtain ⟨found, isFound, key_eq⟩ := indexed.listed key d member
      have own : d ≠ c := by
        rintro rfl
        rw [unregistered] at isFound
        cases isFound
      exact ⟨found, by rw [AList.lookup_insert_ne own, isFound], key_eq⟩
  found d other stored := by
    unfold Gateway.register at stored ⊢
    dsimp only at stored ⊢
    by_cases own : d = c
    · subst own
      rw [AList.lookup_insert] at stored
      cases stored
      rw [Function.update_self]
      exact List.mem_append_right _ (List.mem_singleton_self d)
    · rw [AList.lookup_insert_ne own] at stored
      have member := indexed.found d other stored
      by_cases atKey : normalizeId other.userId = normalizeId conn.userId
      · rw [atKey] at member ⊢
        rw [Function.update_self]
        exact List.mem_append_left _ member
      · rw [Function.update_of_ne atKey]
        exact member
  queued := indexed.queued

/-- Only what a registered connection subscribes to changes. -/
theorem Indexed.withConnection (indexed : Indexed s) {conn changed : Connection}
    {symbolSubscribers} (stored : s.connections.lookup c = some conn)
    (userId : changed.userId = conn.userId) (role : changed.role = conn.role) :
    Indexed { s with
      connections := s.connections.insert c changed
      symbolSubscribers := symbolSubscribers } where
  registered d other present := by
    dsimp only at present ⊢
    by_cases own : d = c
    · subst own
      rw [AList.lookup_insert] at present
      cases present
      rw [userId, role]
      exact indexed.registered d conn stored
    · rw [AList.lookup_insert_ne own] at present
      exact indexed.registered d other present
  listed key d member := by
    dsimp only at member ⊢
    obtain ⟨found, isFound, key_eq⟩ := indexed.listed key d member
    by_cases own : d = c
    · subst own
      rw [stored] at isFound
      cases isFound
      exact ⟨changed, AList.lookup_insert _, by rw [userId, key_eq]⟩
    · exact ⟨found, by rw [AList.lookup_insert_ne own, isFound], key_eq⟩
  found d other present := by
    dsimp only at present ⊢
    by_cases own : d = c
    · subst own
      rw [AList.lookup_insert] at present
      cases present
      rw [userId]
      exact indexed.found d conn stored
    · rw [AList.lookup_insert_ne own] at present
      exact indexed.found d other present
  queued := indexed.queued

theorem lookup_insert_isSome {V : Type} {table : FiniteTable ConnId V} {v : V}
    (present : (table.lookup d).isSome) : ((table.insert c v).lookup d).isSome := by
  by_cases same : d = c
  · subst same
    rw [AList.lookup_insert]
    rfl
  · rw [AList.lookup_insert_ne same]
    exact present

theorem Indexed.tryDispatchConn (indexed : Indexed s) (c : ConnId) (msg : ServerMessage) :
    Indexed (s.tryDispatchConn c msg) := by
  unfold Gateway.tryDispatchConn
  split
  next => exact indexed
  next queue _ =>
    split_ifs with isGone
    · have left : Indexed { s with txs := s.txs.erase c } := by
        refine indexed.withQueues rfl rfl rfl (fun _ => id) fun d present held => ?_
        have other : d ≠ c := fun same => present (same ▸ isGone)
        dsimp only
        rw [AList.lookup_erase_ne other]
        exact held
      exact left.unregister c
    · exact indexed.withQueues rfl rfl rfl (fun _ => id) fun d _ held => lookup_insert_isSome held
    · split
      next => exact indexed
      next => exact indexed.withQueues rfl rfl rfl (fun _ => id) fun d _ held => held
      next => exact indexed

theorem Indexed.foldl {α : Type} {f : Gateway → α → Gateway}
    (keeps : ∀ s a, Indexed s → Indexed (f s a)) (items : List α) (indexed : Indexed s) :
    Indexed (items.foldl f s) := by
  induction items generalizing s with
  | nil => exact indexed
  | cons a rest ih => exact ih (keeps s a indexed)

theorem Indexed.handle (indexed : Indexed s) (m : Message) (now : ℤ) :
    Indexed (s.handle m now) := by
  unfold Gateway.handle
  split_ifs
  · unfold broadcastTick
    split
    next => exact indexed
    next symbol _ =>
      refine indexed.foldl (fun s c indexed => ?_) _
      unfold dispatchTick
      split
      next msg _ => exact indexed.tryDispatchConn c msg
      next => exact indexed
  · split
    next => exact indexed
    next audience msg _ => exact indexed.foldl (fun s c indexed => indexed.tryDispatchConn c msg) _

theorem Indexed.not_registered (indexed : Indexed s) {session : Session}
    (known : s.sessions.lookup c = some session) (unauthenticated : session.claims = none) :
    s.connections.lookup c = none := by
  rw [Option.eq_none_iff_forall_ne_some]
  intro conn stored
  obtain ⟨claims, authenticated, _⟩ := indexed.registered c conn stored
  rw [known] at authenticated
  cases authenticated
  cases unauthenticated

theorem Indexed.authenticate (indexed : Indexed s) (c : ConnId) (claims : Claims) :
    Indexed (s.authenticate c claims) := by
  unfold Gateway.authenticate
  split
  next known =>
    have unregistered := indexed.not_registered known rfl
    have authenticated := indexed.withSession ⟨some claims, true⟩ s.txs s.gone unregistered
      (fun d _ => ⟨id, id⟩) fun _ present => indexed.queued c _ known rfl present
    exact authenticated.register (AList.lookup_insert _) unregistered rfl rfl
  next => exact indexed

theorem unregister_after (s : Gateway) (c : ConnId) (sessions queues gone) :
    { s with sessions := sessions, txs := queues, gone := gone }.unregister c =
      { s.unregister c with sessions := sessions, txs := queues, gone := gone } := by
  cases stored : s.connections.lookup c with
  | none => simp only [unregister, stored]
  | some conn => simp only [unregister, stored]

theorem Indexed.endSession (indexed : Indexed s) (c : ConnId) : Indexed (s.endSession c) := by
  unfold Gateway.endSession
  split
  next session known =>
    rw [unregister_after]
    have others : ∀ d, d ≠ c → (d ∉ c :: s.gone → d ∉ (s.unregister c).gone) ∧
        (((s.unregister c).txs.lookup d).isSome → ((s.txs.erase c).lookup d).isSome) := by
      intro d other
      have gone : (s.unregister c).gone = s.gone := by unfold Gateway.unregister; split <;> rfl
      have txs : (s.unregister c).txs = s.txs := by unfold Gateway.unregister; split <;> rfl
      rw [gone, txs, AList.lookup_erase_ne other]
      exact ⟨fun present member => present (List.mem_cons_of_mem c member), id⟩
    have ended := (indexed.unregister c).withSession { session with live := false } (s.txs.erase c)
      (c :: s.gone) (unregister_lookup s c) others nofun
    rw [unregister_sessions] at ended
    exact ended
  next => exact indexed

theorem Indexed.step (indexed : Indexed s) {action : GatewayAction}
    (taken : s.step action = some after) : Indexed after := by
  cases action with
  | connect c =>
    simp only [Gateway.step] at taken
    split_ifs at taken with fresh
    cases taken
    have unregistered : s.connections.lookup c = none := by
      rw [Option.eq_none_iff_forall_ne_some]
      intro conn stored
      obtain ⟨claims, known, _⟩ := indexed.registered c conn stored
      rw [fresh] at known
      cases known
    refine indexed.withSession ⟨none, true⟩ (s.txs.insert c []) s.gone unregistered
      (fun d _ => ⟨id, lookup_insert_isSome⟩) fun _ _ => ?_
    rw [AList.lookup_insert]
    rfl
  | authenticate c claims =>
    cases taken
    exact indexed.authenticate c claims
  | subscribe c symbols =>
    cases taken
    refine indexed.foldl (fun s symbol indexed => ?_) _
    unfold subscribeSymbol
    split
    next => exact indexed
    next conn stored => exact indexed.withConnection stored rfl rfl
  | unsubscribe c symbols =>
    cases taken
    refine indexed.foldl (fun s symbol indexed => ?_) _
    unfold unsubscribeSymbol
    split
    next => exact indexed
    next conn stored => exact indexed.withConnection stored rfl rfl
  | publish p now =>
    cases taken
    exact indexed.handle p.message now
  | deliver m now =>
    cases taken
    exact indexed.handle m now
  | drain c =>
    cases taken
    unfold drain
    split
    next => exact indexed
    next => exact indexed.withQueues rfl rfl rfl (fun _ => id) fun d _ held => lookup_insert_isSome held
  | retry c =>
    cases taken
    unfold retry
    have left : Indexed { s with sends := s.sends.eraseP (·.1 = c) } :=
      indexed.withQueues rfl rfl rfl (fun _ => id) fun d _ held => held
    split
    next => exact indexed
    next =>
      split
      next => exact left
      next =>
        split_ifs
        · exact left
        · exact indexed.withQueues rfl rfl rfl (fun _ => id) fun d _ held =>
            lookup_insert_isSome held
        · exact indexed
  | receiverEnds c =>
    cases taken
    exact indexed.withQueues rfl rfl rfl (fun d present member =>
      present (List.mem_cons_of_mem c member)) fun d _ held => held
  | endSession c =>
    cases taken
    exact indexed.endSession c

end Registry

end Gateway

namespace Publication

/-- The publication names its user where the gateway looks for it. -/
def addressed : Publication → Bool
  | .depositRequested _ _ _ _ _ => false
  | .depositRequestNotice _ _ _ _ _ _ _ => false
  | .depositApprovedNotice _ _ _ _ _ _ _ _ => false
  | .depositRejected _ _ _ _ _ _ => false
  | .depositRejectedNotice _ _ _ _ _ _ _ _ => false
  | _ => true

/-- The frame that the gateway makes of the publication. -/
def frame (p : Publication) (now : ℤ) : Option ServerMessage :=
  (handleMessage now p.message.payload p.message.channel).map (·.2)

/-- The frame of the publication waits for room in a full queue. -/
def waits (p : Publication) (now : ℤ) : Bool := (p.frame now).any (·.priority = .retried)

theorem channel_ne (p : Publication) : p.message.channel ≠ "price:ticks" := by
  cases p <;> simp [message, orderUpdate, notice]

/-- A publication that names its user is sent to the connections of the user,
and to admins at most. -/
theorem routed {p : Publication} (now : ℤ) (addressed : p.addressed = true) :
    ∃ audience msg, handleMessage now p.message.payload p.message.channel = some (audience, msg) ∧
      (audience = .user p.user ∨ audience = .userAndAdmins p.user) := by
  cases p with
  | depositRequested => cases addressed
  | depositRequestNotice => cases addressed
  | depositApprovedNotice => cases addressed
  | depositRejected => cases addressed
  | depositRejectedNotice => cases addressed
  | depositApproved =>
    exact ⟨_, _, rfl, .inr rfl⟩
  | orderPlaced => exact ⟨_, _, rfl, .inl rfl⟩
  | orderCancelling => exact ⟨_, _, rfl, .inl rfl⟩
  | orderEvent => exact ⟨_, _, rfl, .inl rfl⟩
  | positionOpened => exact ⟨_, _, rfl, .inl rfl⟩
  | positionClosed => exact ⟨_, _, rfl, .inl rfl⟩
  | notification => exact ⟨_, _, rfl, .inl rfl⟩
  | walletBalance => exact ⟨_, _, rfl, .inl rfl⟩
  | accountSummary => exact ⟨_, _, rfl, .inl rfl⟩

end Publication

namespace Gateway
variable {s after : Gateway} {c : ConnId} {userId : String}

section Delivery

theorem tryDispatchConn_sends (s : Gateway) (d : ConnId) (msg : ServerMessage) :
    s.sends <+: (s.tryDispatchConn d msg).sends := by
  unfold tryDispatchConn
  split
  next => exact List.prefix_refl _
  next queue _ =>
    split_ifs
    · unfold unregister
      split <;> exact List.prefix_refl _
    · exact List.prefix_refl _
    · split
      next => exact List.prefix_refl _
      next => exact List.prefix_append _ _
      next => exact List.prefix_refl _

theorem tryDispatchConn_enqueued (s : Gateway) (c d : ConnId) (msg : ServerMessage) :
    s.enqueued c <+: (s.tryDispatchConn d msg).enqueued c := by
  by_cases own : c = d
  · subst own
    unfold tryDispatchConn
    split
    next => exact List.prefix_refl _
    next queue _ =>
      split_ifs
      · unfold unregister
        split <;> exact List.prefix_refl _
      · dsimp only
        rw [Function.update_self]
        exact List.prefix_append _ _
      · split <;> exact List.prefix_refl _
  · rw [(tryDispatchConn_other s msg own).enqueued]

/-- The frame has been put in the queue of the connection, or waits in a send
of its own. -/
def Handed (s after : Gateway) (c : ConnId) (msg : ServerMessage) : Prop :=
  s.enqueued c ++ [msg] <+: after.enqueued c ∨ (c, msg) ∈ after.sends

theorem Handed.tryDispatchConn {msg : ServerMessage} (handed : Handed s after c msg) (d : ConnId) :
    Handed s (after.tryDispatchConn d msg) c msg :=
  handed.imp (fun queued => queued.trans (tryDispatchConn_enqueued after c d msg))
    fun waits => (tryDispatchConn_sends after d msg).subset waits

theorem Handed.dispatchAll {msg : ServerMessage} (handed : Handed s after c msg)
    (ids : List ConnId) : Handed s (after.dispatchAll ids msg) c msg := by
  induction ids generalizing after with
  | nil => exact handed
  | cons d rest ih => exact ih (handed.tryDispatchConn d)

theorem tryDispatchConn_handed {queue : List ServerMessage} {msg : ServerMessage}
    (stored : s.txs.lookup c = some queue) (present : c ∉ s.gone)
    (fits : queue.length < connChannelCap ∨ msg.priority = .retried) :
    Handed s (s.tryDispatchConn c msg) c msg := by
  unfold Gateway.tryDispatchConn
  rw [stored]
  dsimp only
  rw [if_neg present]
  by_cases room : queue.length < connChannelCap
  · rw [if_pos room]
    refine .inl ?_
    dsimp only
    rw [Function.update_self]
  · rw [if_neg room, fits.resolve_left room]
    exact .inr (List.mem_append_right _ (List.mem_singleton_self _))

theorem dispatchAll_handed {ids : List ConnId} {queue : List ServerMessage} {msg : ServerMessage}
    (member : c ∈ ids) (stored : s.txs.lookup c = some queue) (present : c ∉ s.gone)
    (fits : queue.length < connChannelCap ∨ msg.priority = .retried) :
    Handed s (s.dispatchAll ids msg) c msg := by
  obtain ⟨front, back, rfl, absent⟩ := List.eq_append_cons_of_mem member
  have same := dispatchAll_other (s := s) absent msg
  have first : Handed s ((s.dispatchAll front msg).tryDispatchConn c msg) c msg := by
    rw [Handed, same.enqueued]
    exact tryDispatchConn_handed (same.queue ▸ stored) (fun gone => present (same.gone.mpr gone)) fits
  unfold dispatchAll at first ⊢
  rw [List.foldl_append, List.foldl_cons]
  exact first.dispatchAll back

end Delivery

/-- The action publishes something about the user. -/
def about (userId : String) : GatewayAction → Bool
  | .publish p _ => p.user = userId
  | _ => false

theorem about_iff {action : GatewayAction} :
    about userId action = true ↔ ∃ p now, action = .publish p now ∧ p.user = userId := by
  constructor
  · intro secret
    cases action with
    | publish p now => exact ⟨p, now, rfl, of_decide_eq_true secret⟩
    | _ => cases secret
  · rintro ⟨p, now, rfl, own⟩
    exact decide_eq_true own

/-- A publication about the user names the user, and the user's connections
have room for it unless its frame waits for room. -/
def Private (userId : String) (s : Gateway) : GatewayAction → Prop
  | .publish p now => p.user = userId → p.addressed = true ∧
    ∀ c ∈ s.userConnections (normalizeId userId), c ∉ s.gone →
      (s.txs.lookup c).all (·.length < connChannelCap) = true ∨ p.waits now = true
  | _ => True

instance (userId : String) (s : Gateway) : DecidablePred (Private userId s)
  | .publish p now => inferInstanceAs (Decidable (p.user = userId → p.addressed = true ∧
      ∀ c ∈ s.userConnections (normalizeId userId), c ∉ s.gone →
        (s.txs.lookup c).all (·.length < connChannelCap) = true ∨ p.waits now = true))
  | .connect _ => .isTrue trivial
  | .authenticate _ _ => .isTrue trivial
  | .subscribe _ _ => .isTrue trivial
  | .unsubscribe _ _ => .isTrue trivial
  | .deliver _ _ => .isTrue trivial
  | .drain _ => .isTrue trivial
  | .retry _ => .isTrue trivial
  | .receiverEnds _ => .isTrue trivial
  | .endSession _ => .isTrue trivial

theorem Indexed.not_recipient (indexed : Indexed s) {audience : Audience}
    (outsider : s.Outsider userId c)
    (restricted : audience = .user userId ∨ audience = .userAndAdmins userId) :
    c ∉ s.recipients audience := by
  have notUser : c ∉ s.userConnections (normalizeId userId) := by
    intro member
    obtain ⟨conn, stored, key⟩ := indexed.listed _ c member
    obtain ⟨claims, known, sub, _⟩ := indexed.registered c conn stored
    exact (outsider _ known claims rfl).1 (by rw [← sub, key])
  have notAdmin : c ∉ s.adminConnectionIds := by
    intro member
    have admin := (List.mem_filter.mp member).2
    cases stored : s.connections.lookup c with
    | none =>
      rw [stored] at admin
      cases admin
    | some conn =>
      rw [stored] at admin
      obtain ⟨claims, known, _, role⟩ := indexed.registered c conn stored
      have plain := (outsider _ known claims rfl).2
      rw [← role] at plain
      rw [Option.any_some, plain] at admin
      cases admin
  rcases restricted with rfl | rfl
  · exact notUser
  · intro member
    exact (List.mem_append.mp member).elim notUser notAdmin

/-- The two gateways have the same sessions and do not differ for outsiders. -/
def Alike (userId : String) (s t : Gateway) : Prop :=
  Indexed s ∧ s.sessions = t.sessions ∧ ∀ c, s.Outsider userId c → SameView s t c

theorem publish_unseen {p : Publication} {now : ℤ} (indexed : Indexed s) (addressed : p.addressed = true)
    (outsider : s.Outsider p.user c) : SameView s (s.handle p.message now) c := by
  obtain ⟨audience, msg, routed, restricted⟩ := p.routed now addressed
  unfold handle
  rw [if_neg p.channel_ne, routed]
  exact dispatchAll_other (indexed.not_recipient outsider restricted) msg

theorem publish_handed {p : Publication} {now : ℤ} (indexed : Indexed s)
    (allowed : Private p.user s (.publish p now)) {conn : Connection}
    (registered : s.connections.lookup c = some conn)
    (own : normalizeId conn.userId = normalizeId p.user) (present : c ∉ s.gone) :
    ∃ msg, p.frame now = some msg ∧ Handed s (s.handle p.message now) c msg := by
  obtain ⟨addressed, room⟩ := allowed rfl
  obtain ⟨audience, msg, routed, restricted⟩ := p.routed now addressed
  have framed : p.frame now = some msg := by rw [Publication.frame, routed, Option.map_some]
  have listed : c ∈ s.userConnections (normalizeId p.user) := own ▸ indexed.found c conn registered
  obtain ⟨claims, known, _⟩ := indexed.registered c conn registered
  obtain ⟨queue, stored⟩ := Option.isSome_iff_exists.mp (indexed.queued c _ known rfl present)
  have fits : queue.length < connChannelCap ∨ msg.priority = .retried := by
    have either := room c listed present
    rw [stored, Publication.waits, framed] at either
    exact either.imp of_decide_eq_true of_decide_eq_true
  have member : c ∈ s.recipients audience := by
    rcases restricted with rfl | rfl
    · exact listed
    · exact List.mem_append_left _ listed
  refine ⟨msg, framed, ?_⟩
  unfold handle
  rw [if_neg p.channel_ne, routed]
  exact dispatchAll_handed member stored present fits

/-- When everything published about a user names the user, nobody else can
tell whether it is published, and it reaches every connection of the user. -/
theorem private_of_run {actions : List GatewayAction}
    (run : GuardedRun step (Private userId) opened actions s) :
    (∃ other, Run step opened (actions.filter fun a => !about userId a) other ∧
      ∀ c, s.Outsider userId c → s.enqueued c = other.enqueued c) ∧
    ∀ p now after c conn, p.user = userId → Private userId s (.publish p now) →
      s.step (.publish p now) = some after → s.connections.lookup c = some conn →
      normalizeId conn.userId = normalizeId userId → c ∉ s.gone →
      ∃ msg, p.frame now = some msg ∧ Handed s after c msg := by
  refine ⟨?_, ?_⟩
  · have purged := @GuardedRun.purge _ _ _ _ _ (Alike userId) (about userId)
      ⟨indexed_opened, rfl, fun c _ => .refl opened c⟩ ?_ ?_ _ _ run
    · obtain ⟨other, purgedRun, _, _, same⟩ := purged
      exact ⟨other, purgedRun, fun c outsider => (same c outsider).enqueued⟩
    · rintro before t action next - - taken ⟨indexed, sessions, same⟩
      obtain ⟨other, follows⟩ := step_defined sessions taken
      refine ⟨other, follows, indexed.step taken, ?_, fun c outsider => ?_⟩
      · rw [step_sessions taken, step_sessions follows, sessions]
      · exact (same c (outsider.before taken)).step taken follows
    · rintro before t action next allowed secret taken ⟨indexed, sessions, same⟩
      obtain ⟨p, now, rfl, rfl⟩ := about_iff.mp secret
      refine ⟨indexed.step taken, ?_, fun c outsider => ?_⟩
      · exact (step_sessions taken).trans sessions
      · have known := outsider.before taken
        cases taken
        exact (publish_unseen indexed (allowed rfl).1 known).symm.trans (same c known)
  · rintro p now next c conn rfl allowed taken registered own present
    cases taken
    exact publish_handed (run.invariant indexed_opened fun _ _ _ _ taken held => held.step taken)
      allowed registered own present

section Runs

/-- Two browsers, one logged in as alice and one as bob. -/
def twoBrowsers : List GatewayAction :=
  [.connect 1, .authenticate 1 ⟨"a11ce", "user", none⟩, .connect 2,
    .authenticate 2 ⟨"b0b", "user", none⟩]

theorem private_of_walletBalance : ∃ s other : Gateway,
    GuardedRun step (Private "a11ce") opened
      (twoBrowsers ++ [.publish (.walletBalance "a11ce" [("balance", .int 100)]) 0]) s ∧
    s.Outsider "a11ce" 2 ∧ s.enqueued 2 = other.enqueued 2 ∧ (s.enqueued 1).length = 1 ∧
    Run step opened twoBrowsers other := by
  have evaluates : (runGuarded step (Private "a11ce") opened
      (twoBrowsers ++ [.publish (.walletBalance "a11ce" [("balance", .int 100)]) 0])).map (fun s =>
        ((s.sessions.lookup 2).map fun session => (session.claims.map (·.sub),
          session.claims.map (·.role)), (s.enqueued 1).length)) =
      some (some (some "b0b", some "user"), 1) := by decide +kernel
  obtain ⟨s, reached, reads⟩ := Option.map_eq_some_iff.mp evaluates
  simp only [Prod.mk.injEq, Option.map_eq_some_iff] at reads
  obtain ⟨⟨session, known, ⟨claims, authenticated, sub⟩, claims', authenticated', role⟩, one⟩ := reads
  rw [authenticated] at authenticated'
  cases authenticated'
  have run := GuardedRun.of_eval reached
  obtain ⟨⟨other, purged, same⟩, _⟩ := private_of_run run
  have outsider : s.Outsider "a11ce" 2 := by
    intro session' known' claims' authenticated'
    rw [known] at known'
    cases known'
    rw [authenticated] at authenticated'
    cases authenticated'
    rw [sub, role]
    decide +kernel
  exact ⟨s, other, run, outsider, same 2 outsider, one, purged⟩

/-- The notice of an approved deposit names no user, and reaches a connection
that has not even authenticated. -/
theorem approvalNotice_reachesStranger : ∃ s other : Gateway,
    Run step opened [.connect 1, .publish (.depositApprovedNotice "a11ce" "n1" "t1"
      "Your deposit of $100.00 has been approved. New balance: $100.00" "2024-01-01T00:00:00Z"
      "100.00" "100.00" (.int 100)) 0] s ∧
    Run step opened [.connect 1] other ∧
    s.Outsider "a11ce" 1 ∧ (s.enqueued 1).length = 1 ∧ (other.enqueued 1).length = 0 := by
  have published : (runGuarded step (fun _ _ => True) opened
      [.connect 1, .publish (.depositApprovedNotice "a11ce" "n1" "t1"
        "Your deposit of $100.00 has been approved. New balance: $100.00" "2024-01-01T00:00:00Z"
        "100.00" "100.00" (.int 100)) 0]).map (fun s =>
          ((s.sessions.lookup 1).map fun session => session.claims.map (·.sub),
            (s.enqueued 1).length)) = some (some none, 1) := by decide +kernel
  have quiet : (runGuarded step (fun _ _ => True) opened [.connect 1]).map (fun s =>
      (s.enqueued 1).length) = some 0 := by decide +kernel
  obtain ⟨s, reached, reads⟩ := Option.map_eq_some_iff.mp published
  obtain ⟨other, reached', none⟩ := Option.map_eq_some_iff.mp quiet
  simp only [Prod.mk.injEq, Option.map_eq_some_iff] at reads
  obtain ⟨⟨session, known, unauthenticated⟩, one⟩ := reads
  refine ⟨s, other, .of_eval reached, .of_eval reached', ?_, one, none⟩
  intro session' known' claims authenticated
  rw [known] at known'
  cases known'
  rw [authenticated] at unauthenticated
  cases unauthenticated

end Runs

end Gateway

end TradingPlatform
