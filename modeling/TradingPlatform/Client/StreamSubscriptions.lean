import TradingPlatform.Client.PriceStream

namespace TradingPlatform

open StepRuns

/-- A `subscribe` frame in the socket's protocol had the symbol. -/
def StreamSocket.Sent (socket : StreamSocket) (k : String) : Prop :=
  ∃ frame ∈ socket.frames, frame.1 = socket.gatewayMode ∧ k ∈ frame.2

/-- `connect` finds it usable. -/
def StreamSocket.Alive (socket : StreamSocket) : Prop :=
  socket.readyState = .CONNECTING ∨ socket.readyState = .OPEN

/-- A key that normalises to itself. -/
def RegularKey (k : String) : Prop := normalizeWsSubscribeSymbols [k] = [k]

instance (k : String) : Decidable (RegularKey k) := inferInstanceAs (Decidable (_ = _))

theorem mem_normalizeWs_iff {symbols : List String} {k : String} :
    k ∈ normalizeWsSubscribeSymbols symbols ↔
      ∃ raw ∈ symbols, trim raw ≠ "" ∧ normalizeSymbolKey raw = k ∧ k ≠ "" := by
  simp only [normalizeWsSubscribeSymbols, List.mem_eraseDups, List.mem_filter, List.mem_map,
    decide_eq_true_eq]
  refine ⟨?_, ?_⟩
  · rintro ⟨⟨raw, ⟨given, visible⟩, key⟩, nonempty⟩
    exact ⟨raw, given, visible, key, nonempty⟩
  · rintro ⟨raw, given, visible, key, nonempty⟩
    exact ⟨⟨raw, ⟨given, visible⟩, key⟩, nonempty⟩

/-- Normalising regular keys neither drops nor changes one. -/
theorem mem_normalizeWs {symbols : List String} (regular : ∀ k ∈ symbols, RegularKey k)
    {k : String} : k ∈ normalizeWsSubscribeSymbols symbols ↔ k ∈ symbols := by
  have fixed (raw : String) (member : raw ∈ symbols) :
      trim raw ≠ "" ∧ normalizeSymbolKey raw = raw ∧ raw ≠ "" := by
    have own : raw ∈ normalizeWsSubscribeSymbols [raw] := by
      rw [show normalizeWsSubscribeSymbols [raw] = [raw] from regular raw member]
      exact List.mem_singleton_self raw
    obtain ⟨given, one, visible, key, nonempty⟩ := mem_normalizeWs_iff.mp own
    obtain rfl := List.mem_singleton.mp one
    exact ⟨visible, key, nonempty⟩
  rw [mem_normalizeWs_iff]
  refine ⟨?_, fun member => ?_⟩
  · rintro ⟨raw, given, -, key, -⟩
    rw [← key, (fixed raw given).2.1]
    exact given
  · obtain ⟨visible, key, nonempty⟩ := fixed k member
    exact ⟨k, member, visible, key, nonempty⟩

namespace PriceStream

/-- What a client keeps of its sockets and symbols while sockets come and go. -/
structure Kept (s : PriceStream) : Prop where
  fresh : ∀ i, s.created ≤ i → s.sockets i = none
  one : ∀ i j, ∀ first ∈ s.sockets i, ∀ second ∈ s.sockets j, first.readyState ≠ .CLOSED →
    second.readyState ≠ .CLOSED → i = j
  current : ∀ i ∈ s.ws, ∃ socket ∈ s.sockets i, socket.readyState ≠ .CLOSED
  alive : ∀ i, ∀ socket ∈ s.sockets i, socket.Alive → s.ws = some i
  known : ∀ k ∈ s.wanted, k ∈ s.subscribedSymbols ∨ k ∈ s.pendingSymbols
  regular : ∀ k, k ∈ s.subscribedSymbols ∨ k ∈ s.pendingSymbols → RegularKey k
  down : (∀ i, ∀ socket ∈ s.sockets i, socket.readyState = .CLOSED) →
    ∀ k ∈ s.subscribedSymbols, k ∈ s.pendingSymbols
  carried : ∀ i ∈ s.ws, ∀ socket ∈ s.sockets i, socket.Alive → ∀ k ∈ s.subscribedSymbols,
    socket.Sent k ∨ k ∈ s.pendingSymbols

/-- Nothing waits while symbols can be sent. -/
def Flushed (s : PriceStream) : Prop :=
  ∀ i ∈ s.ws, ∀ socket ∈ s.sockets i, socket.readyState = .OPEN →
    (socket.gatewayMode = true → s.authenticated = true) → s.pendingSymbols = []

/-- An open socket speaks the protocol of the URL that the client would use. -/
def InProtocol (urls : PriceUrls) (s : PriceStream) : Prop :=
  ∀ i ∈ s.ws, ∀ socket ∈ s.sockets i, socket.readyState = .OPEN →
    socket.gatewayMode = s.gatewayMode urls

section Sends
variable {urls : PriceUrls} {s : PriceStream} {symbols : List String}

/-- Symbols are sent on an open socket, to a gateway once it has accepted the
token, and wait otherwise. -/
theorem sendSubscribe_cases (urls : PriceUrls) (s : PriceStream) (symbols : List String) :
    (∃ i socket, s.ws = some i ∧ s.sockets i = some socket ∧ socket.readyState = .OPEN ∧
      (s.gatewayMode urls = true → s.authenticated = true) ∧
      s.sendSubscribe urls symbols =
        { s.setSocket i { socket with frames := socket.frames ++ [(s.gatewayMode urls, symbols)] } with
          subscribedSymbols := (s.subscribedSymbols ++ symbols).eraseDups }) ∨
    ((∀ i ∈ s.ws, ∀ socket ∈ s.sockets i, socket.readyState = .OPEN →
        s.gatewayMode urls = true ∧ s.authenticated = false) ∧
      s.sendSubscribe urls symbols = s.keepPending symbols) := by
  unfold sendSubscribe
  cases current : s.ws with
  | none => exact .inr ⟨fun i member => (by cases member), rfl⟩
  | some i =>
    cases found : s.sockets i with
    | none =>
      refine .inr ⟨fun j member socket read => ?_, by simp [found]⟩
      cases Option.some.inj member
      cases found.symm.trans read
    | some socket =>
      simp only [Option.bind_some, found, Option.map_some]
      split
      next ready => exact .inl ⟨i, socket, rfl, found, ready.1, ready.2, rfl⟩
      next unready =>
        refine .inr ⟨fun j member other read isOpen => ?_, rfl⟩
        cases member
        cases Option.some.inj (found.symm.trans read)
        by_cases mode : s.gatewayMode urls = true
        · refine ⟨mode, ?_⟩
          by_contra authenticated
          exact unready ⟨isOpen, fun _ => by simpa using authenticated⟩
        · exact absurd ⟨isOpen, fun isMode => absurd isMode mode⟩ unready

theorem keepPending_mem {k : String} :
    k ∈ (s.keepPending symbols).pendingSymbols ↔ k ∈ s.pendingSymbols ∨ k ∈ symbols := by
  simp [keepPending, List.mem_eraseDups]

/-- Regular symbols may be kept waiting at any time. -/
theorem Kept.keepPending (kept : s.Kept) (regular : ∀ k ∈ symbols, RegularKey k) :
    (s.keepPending symbols).Kept where
  fresh := kept.fresh
  one := kept.one
  current := kept.current
  alive := kept.alive
  known k member := by
    rcases kept.known k member with subscribed | pending
    · exact .inl subscribed
    · exact .inr (keepPending_mem.mpr (.inl pending))
  regular k member := by
    rcases member with subscribed | waiting
    · exact kept.regular k (.inl subscribed)
    · rcases keepPending_mem.mp waiting with pending | given
      · exact kept.regular k (.inr pending)
      · exact regular k given
  down closed k member := keepPending_mem.mpr (.inl (kept.down closed k member))
  carried i member socket read alive k subscribed := by
    rcases kept.carried i member socket read alive k subscribed with sent | pending
    · exact .inl sent
    · exact .inr (keepPending_mem.mpr (.inl pending))

/-- The current socket is exchanged for one in the same state with more frames. -/
theorem Kept.sent (kept : s.Kept) {i : ℕ} {socket : StreamSocket} (current : s.ws = some i)
    (found : s.sockets i = some socket) (isOpen : socket.readyState = .OPEN) {batch waiting : List String}
    (regular : ∀ k ∈ batch, RegularKey k) (fewer : ∀ k ∈ waiting, k ∈ s.pendingSymbols)
    (all : ∀ k ∈ s.pendingSymbols, k ∈ batch ∨ k ∈ waiting) :
    ({ s.setSocket i { socket with frames := socket.frames ++ [(socket.gatewayMode, batch)] } with
      pendingSymbols := waiting
      subscribedSymbols := (s.subscribedSymbols ++ batch).eraseDups } : PriceStream).Kept := by
  have others (j : ℕ) (other : StreamSocket)
      (read : Function.update s.sockets i (some { socket with
        frames := socket.frames ++ [(socket.gatewayMode, batch)] }) j = some other) :
      ∃ before, s.sockets j = some before ∧ other.readyState = before.readyState := by
    by_cases here : j = i
    · subst here
      rw [Function.update_self] at read
      cases read
      exact ⟨socket, found, rfl⟩
    · rw [Function.update_of_ne here] at read
      exact ⟨other, read, rfl⟩
  have mem_subscribed (k : String) : k ∈ (s.subscribedSymbols ++ batch).eraseDups ↔
      k ∈ s.subscribedSymbols ∨ k ∈ batch := by
    rw [List.mem_eraseDups, List.mem_append]
  refine ⟨fun j beyond => ?_, fun j l first read second read' => ?_, fun j member => ?_,
    fun j other read alive => ?_, fun k member => ?_, fun k member => ?_, fun closed => ?_,
    fun j member other read alive k subscribed => ?_⟩
  · have differ : j ≠ i := by
      rintro rfl
      rw [kept.fresh j beyond] at found
      cases found
    simp only [setSocket, Function.update_of_ne differ]
    exact kept.fresh j beyond
  · obtain ⟨before, was, same⟩ := others j first read
    obtain ⟨before', was', same'⟩ := others l second read'
    rw [same, same']
    exact kept.one j l before was before' was'
  · obtain rfl : j = i := by
      have here : some j = some i := (Option.mem_def.mp member).symm.trans current
      exact Option.some.inj here
    refine ⟨_, Function.update_self .., ?_⟩
    rw [show _ = socket.readyState from rfl, isOpen]
    decide
  · obtain ⟨before, was, same⟩ := others j other read
    refine kept.alive j before was ?_
    unfold StreamSocket.Alive at alive ⊢
    rwa [← same]
  · rcases kept.known k member with subscribed | pending
    · exact .inl ((mem_subscribed k).mpr (.inl subscribed))
    · rcases all k pending with sent | waits
      · exact .inl ((mem_subscribed k).mpr (.inr sent))
      · exact .inr waits
  · rcases member with subscribed | waits
    · rcases (mem_subscribed k).mp subscribed with before | sent
      · exact kept.regular k (.inl before)
      · exact regular k sent
    · exact kept.regular k (.inr (fewer k waits))
  · have isClosed := closed i _ (Function.update_self ..)
    rw [show _ = socket.readyState from rfl, isOpen] at isClosed
    cases isClosed
  · have here : some j = some i := (Option.mem_def.mp member).symm.trans current
    cases here
    have isNew : other = { socket with frames := socket.frames ++ [(socket.gatewayMode, batch)] } := by
      have read : Function.update s.sockets i _ i = some other := read
      rw [Function.update_self] at read
      exact (Option.some.inj read).symm
    subst isNew
    have ofBatch (given : k ∈ batch) : StreamSocket.Sent
        { socket with frames := socket.frames ++ [(socket.gatewayMode, batch)] } k :=
      ⟨(socket.gatewayMode, batch), by simp, rfl, given⟩
    rcases (mem_subscribed k).mp subscribed with before | sent
    · rcases kept.carried i current socket found (.inr isOpen) k before with earlier | pending
      · obtain ⟨frame, member, protocol, given⟩ := earlier
        exact .inl ⟨frame, List.mem_append_left _ member, protocol, given⟩
      · exact (all k pending).imp_left ofBatch
    · exact .inl (ofBatch sent)

/-- The client keeps what it has and what it is given, and nothing waits that
could be sent. -/
theorem Kept.sendSubscribe (kept : s.Kept) (protocol : s.InProtocol urls) (flushed : s.Flushed)
    (regular : ∀ k ∈ symbols, RegularKey k) :
    (s.sendSubscribe urls symbols).Kept ∧ (s.sendSubscribe urls symbols).Flushed ∧
      ∀ k ∈ symbols, k ∈ (s.sendSubscribe urls symbols).subscribedSymbols ∨
        k ∈ (s.sendSubscribe urls symbols).pendingSymbols := by
  rcases sendSubscribe_cases urls s symbols with
    ⟨i, socket, current, found, isOpen, ready, result⟩ | ⟨unready, result⟩
  · have mode : socket.gatewayMode = s.gatewayMode urls := protocol i current socket found isOpen
    rw [result, ← mode]
    have empty : s.pendingSymbols = [] :=
      flushed i current socket found isOpen fun isGateway => ready (mode.symm.trans isGateway)
    refine ⟨?_, ?_, fun k given => .inl ?_⟩
    · exact kept.sent current found isOpen regular
        (fun k (waits : k ∈ s.pendingSymbols) => waits)
        fun k waits => .inr waits
    · intro j _ other _ _ _
      exact empty
    · simp [List.mem_eraseDups, given]
  · rw [result]
    refine ⟨kept.keepPending regular, fun i current socket found isOpen ready => ?_,
      fun k given => .inr (keepPending_mem.mpr (.inr given))⟩
    obtain ⟨isGateway, refused⟩ := unready i current socket found isOpen
    have accepted := ready ((protocol i current socket found isOpen).trans isGateway)
    rw [show (s.keepPending symbols).authenticated = s.authenticated from rfl, refused] at accepted
    cases accepted

/-- Sending everything that waits empties the list, or leaves it as it was. -/
theorem Kept.flush (kept : s.Kept) (protocol : s.InProtocol urls)
    (all : ∀ k ∈ s.pendingSymbols, k ∈ symbols)
    (known : ∀ k ∈ symbols, k ∈ s.subscribedSymbols ∨ k ∈ s.pendingSymbols) :
    (s.flush urls symbols).Kept ∧ (s.flush urls symbols).Flushed := by
  have regular : ∀ k ∈ symbols, RegularKey k := fun k member => kept.regular k (known k member)
  have batched (k : String) : k ∈ normalizeWsSubscribeSymbols symbols ↔ k ∈ symbols :=
    mem_normalizeWs regular
  unfold PriceStream.flush
  dsimp only
  split
  next empty =>
    have nothing : s.pendingSymbols = [] := by
      refine List.eq_nil_iff_forall_not_mem.mpr fun k waits => ?_
      have member := (batched k).mpr (all k waits)
      rw [empty] at member
      cases member
    have same : ({ s with pendingSymbols := [] } : PriceStream) = s := by rw [← nothing]
    rw [same]
    exact ⟨kept, fun _ _ _ _ _ _ => nothing⟩
  next =>
    rcases sendSubscribe_cases urls { s with pendingSymbols := [] }
      (normalizeWsSubscribeSymbols symbols) with
      ⟨i, socket, current, found, isOpen, ready, result⟩ | ⟨unready, result⟩
    · have mode : socket.gatewayMode = s.gatewayMode urls := protocol i current socket found isOpen
      have sameMode : ({ s with pendingSymbols := [] } : PriceStream).gatewayMode urls =
        socket.gatewayMode := mode.symm
      rw [result, sameMode]
      refine ⟨?_, fun _ _ _ _ _ _ => rfl⟩
      exact kept.sent current found isOpen (fun k member => regular k ((batched k).mp member))
        (fun k (waits : k ∈ ([] : List String)) => (List.not_mem_nil waits).elim)
        fun k waits => .inl ((batched k).mpr (all k waits))
    · rw [result]
      have mem_waiting (k : String) :
          k ∈ (({ s with pendingSymbols := [] } : PriceStream).keepPending
            (normalizeWsSubscribeSymbols symbols)).pendingSymbols ↔ k ∈ symbols := by
        rw [keepPending_mem, batched]
        simp
      refine ⟨⟨kept.fresh, kept.one, kept.current, kept.alive, fun k member => ?_,
        fun k member => ?_, fun closed k subscribed => ?_,
        fun i member socket found alive k subscribed => ?_⟩, fun i current socket found isOpen ok => ?_⟩
      · exact (kept.known k member).imp_right fun waits => (mem_waiting k).mpr (all k waits)
      · rcases member with subscribed | waits
        · exact kept.regular k (.inl subscribed)
        · exact regular k ((mem_waiting k).mp waits)
      · exact (mem_waiting k).mpr (all k (kept.down closed k subscribed))
      · exact (kept.carried i member socket found alive k subscribed).imp_right
          fun waits => (mem_waiting k).mpr (all k waits)
      · obtain ⟨isGateway, refused⟩ := unready i current socket found isOpen
        have accepted := ok ((protocol i current socket found isOpen).trans isGateway)
        cases (show s.authenticated = false from refused).symm.trans accepted

end Sends

section Connections
variable {urls : PriceUrls} {s : PriceStream}

/-- A connection is only made when no other is left, so that all symbols wait. -/
theorem Kept.connect (kept : s.Kept) (flushed : s.Flushed)
    (alone : (s.connect urls).created ≠ s.created →
      ∀ i, ∀ socket ∈ s.sockets i, socket.readyState = .CLOSED) :
    (s.connect urls).Kept ∧ (s.connect urls).Flushed := by
  unfold PriceStream.connect at alone ⊢
  dsimp only at alone ⊢
  split_ifs at alone ⊢ with paused usable constructs
  · exact ⟨kept, flushed⟩
  · exact ⟨kept, flushed⟩
  · have closed : ∀ i, ∀ socket ∈ s.sockets i, socket.readyState = .CLOSED :=
      alone (Nat.succ_ne_self s.created)
    have onlyNew (j : ℕ) (other : StreamSocket)
        (read : Function.update s.sockets s.created (some ⟨s.getEffectiveUrl urls,
          urls.isGatewayUrl (s.getEffectiveUrl urls), .CONNECTING, []⟩) j = some other) :
        j = s.created ∨ other.readyState = .CLOSED := by
      by_cases here : j = s.created
      · exact .inl here
      · rw [Function.update_of_ne here] at read
        exact .inr (closed j other read)
    refine ⟨⟨fun j beyond => ?_, fun j l first read second read' isLive isLive' => ?_,
      fun j member => ?_, fun j other read alive => ?_, kept.known, kept.regular,
      fun allClosed => ?_, fun j member other read alive k subscribed => ?_⟩,
      fun j member other read isOpen => ?_⟩
    · have beyond : s.created + 1 ≤ j := beyond
      have differ : j ≠ s.created := by omega
      simp only [setSocket, Function.update_of_ne differ]
      exact kept.fresh j (by omega)
    · have here := (onlyNew j first read).resolve_right isLive
      have there := (onlyNew l second read').resolve_right isLive'
      exact here.trans there.symm
    · cases Option.some.inj member
      exact ⟨_, Function.update_self .., nofun⟩
    · rcases onlyNew j other read with here | isClosed
      · rw [here]
      · rw [StreamSocket.Alive, isClosed] at alive
        simp at alive
    · have connecting := allClosed s.created _ (Function.update_self ..)
      cases connecting
    · exact .inr (kept.down closed k subscribed)
    · cases Option.some.inj member
      have read : Function.update s.sockets s.created _ s.created = some other := read
      rw [Function.update_self] at read
      cases read
      cases isOpen
  · refine ⟨⟨kept.fresh, kept.one, fun i member => (by cases member), fun i socket read alive => ?_,
      kept.known, kept.regular, kept.down, fun i member => (by cases member)⟩,
      fun i member => (by cases member)⟩
    have current := kept.alive i socket read alive
    have live : s.wsState = some socket.readyState := by
      rw [wsState, current, Option.bind_some, Option.mem_def.mp read, Option.map_some]
    refine absurd ?_ usable
    rw [live]
    rcases alive with connecting | isOpen
    · exact .inr (congrArg some connecting)
    · exact .inl (congrArg some isOpen)

/-- A socket that is being closed is used no more. -/
theorem Kept.closeSocket (kept : s.Kept) :
    s.closeSocket.Kept ∧ ∀ i, ∀ socket ∈ s.closeSocket.sockets i, ¬ socket.Alive := by
  unfold PriceStream.closeSocket
  split
  next none =>
    refine ⟨kept, fun i socket read alive => ?_⟩
    cases none.symm.trans (kept.alive i socket read alive)
  next i current =>
    split
    next missing =>
      obtain ⟨socket, found, -⟩ := kept.current i current
      cases missing.symm.trans found
    next socket found =>
      split_ifs with alive
      · have wasLive : socket.readyState ≠ .CLOSED := by
          rcases alive with connecting | isOpen
          · simp [connecting]
          · simp [isOpen]
        have closing (j : ℕ) (other : StreamSocket)
            (read : Function.update s.sockets i (some { socket with readyState := .CLOSING }) j =
              some other) : ¬ other.Alive ∧ ∃ before ∈ s.sockets j, before.readyState ≠ .CLOSED ∨
                before = other := by
          by_cases here : j = i
          · rw [here, Function.update_self] at read
            cases read
            refine ⟨by simp [StreamSocket.Alive], socket, here ▸ found, .inl wasLive⟩
          · rw [Function.update_of_ne here] at read
            refine ⟨fun isAlive => here ?_, other, read, .inr rfl⟩
            have here : some i = some j := current.symm.trans (kept.alive j other read isAlive)
            exact (Option.some.inj here).symm
        have live (j : ℕ) (other : StreamSocket)
            (read : Function.update s.sockets i (some { socket with readyState := .CLOSING }) j =
              some other) (isLive : other.readyState ≠ .CLOSED) :
            ∃ before ∈ s.sockets j, before.readyState ≠ .CLOSED := by
          obtain ⟨-, before, was, live | same⟩ := closing j other read
          · exact ⟨before, was, live⟩
          · exact ⟨before, was, same ▸ isLive⟩
        refine ⟨⟨fun j beyond => ?_, fun j l first read second read' isLive isLive' => ?_,
          fun j member => ?_, fun j other read isAlive => absurd isAlive (closing j other read).1,
          kept.known, kept.regular, fun allClosed => ?_,
          fun j member other read isAlive => absurd isAlive (closing j other read).1⟩,
          fun j other read => (closing j other read).1⟩
        · have differ : j ≠ i := by
            rintro rfl
            rw [kept.fresh j beyond] at found
            cases found
          simp only [setSocket, Function.update_of_ne differ]
          exact kept.fresh j beyond
        · obtain ⟨before, was, wasLive⟩ := live j first read isLive
          obtain ⟨before', was', wasLive'⟩ := live l second read' isLive'
          exact kept.one j l before was before' was' wasLive wasLive'
        · have here : some j = some i := (Option.mem_def.mp member).symm.trans current
          cases here
          exact ⟨_, Function.update_self .., nofun⟩
        · have isClosed := allClosed i _ (Function.update_self ..)
          cases isClosed
      · refine ⟨kept, fun j other read isAlive => alive ?_⟩
        have here : some i = some j := current.symm.trans (kept.alive j other read isAlive)
        cases here
        cases Option.some.inj (found.symm.trans read)
        exact isAlive

/-- When a socket has closed, all symbols wait for the next one. -/
theorem Kept.closed (kept : s.Kept) {i : ℕ} {socket : StreamSocket}
    (found : s.sockets i = some socket) (live : socket.readyState ≠ .CLOSED) :
    (s.setSocket i { socket with readyState := .CLOSED }).onclose.Kept ∧
      (s.setSocket i { socket with readyState := .CLOSED }).onclose.Flushed := by
  have allClosed (j : ℕ) (other : StreamSocket)
      (read : Function.update s.sockets i (some { socket with readyState := .CLOSED }) j =
        some other) : other.readyState = .CLOSED := by
    by_cases here : j = i
    · rw [here, Function.update_self] at read
      cases read
      rfl
    · rw [Function.update_of_ne here] at read
      by_contra isLive
      exact here (kept.one j i other read socket found isLive live)
  have waiting (k : String) (member : k ∈ s.subscribedSymbols ∨ k ∈ s.pendingSymbols) :
      k ∈ (s.pendingSymbols ++ s.subscribedSymbols).eraseDups := by
    rw [List.mem_eraseDups, List.mem_append]
    exact member.symm
  have merged : ({ s.setSocket i { socket with readyState := .CLOSED } with
      ws := none, authenticated := false
      pendingSymbols := (s.pendingSymbols ++ s.subscribedSymbols).eraseDups } : PriceStream).Kept := by
    refine ⟨fun j beyond => ?_, fun j l first read second read' isLive => ?_,
      fun j member => (by cases member), fun j other read isAlive => ?_, fun k member => ?_,
      fun k member => ?_, fun _ k subscribed => waiting k (.inl subscribed),
      fun j member => (by cases member)⟩
    · have differ : j ≠ i := by
        rintro rfl
        rw [kept.fresh j beyond] at found
        cases found
      simp only [setSocket, Function.update_of_ne differ]
      exact kept.fresh j beyond
    · exact absurd (allClosed j first read) isLive
    · rw [StreamSocket.Alive, allClosed j other read] at isAlive
      simp at isAlive
    · exact .inr (waiting k (kept.known k member))
    · refine kept.regular k ?_
      rcases member with subscribed | waits
      · exact .inl subscribed
      · have either := List.mem_append.mp (List.mem_eraseDups.mp waits)
        exact either.symm
  unfold onclose
  dsimp only
  split_ifs
  · exact ⟨merged, fun j member => (by cases member)⟩
  · exact ⟨⟨merged.fresh, merged.one, merged.current, merged.alive, merged.known, merged.regular,
      merged.down, merged.carried⟩, fun j member => (by cases member)⟩

/-- An opened socket has had nothing sent on it. -/
theorem Kept.opened (kept : s.Kept) {i : ℕ} {socket : StreamSocket}
    (found : s.sockets i = some socket) (connecting : socket.readyState = .CONNECTING)
    (authenticated : Bool) : ({ s.setSocket i { socket with readyState := .OPEN } with
      authenticated := authenticated } : PriceStream).Kept := by
  have current : s.ws = some i := kept.alive i socket found (.inl connecting)
  have before (j : ℕ) (other : StreamSocket)
      (read : Function.update s.sockets i (some { socket with readyState := .OPEN }) j = some other) :
      ∃ earlier ∈ s.sockets j, (other.Alive → earlier.Alive) ∧
        (other.readyState ≠ .CLOSED → earlier.readyState ≠ .CLOSED) ∧
        ∀ k, earlier.Sent k → other.Sent k := by
    by_cases here : j = i
    · rw [here, Function.update_self] at read
      cases read
      exact ⟨socket, here ▸ found, fun _ => .inl connecting, fun _ => (by simp [connecting]),
        fun _ sent => sent⟩
    · rw [Function.update_of_ne here] at read
      exact ⟨other, read, id, id, fun _ => id⟩
  refine ⟨fun j beyond => ?_, fun j l first read second read' isLive isLive' => ?_,
    fun j member => ?_, fun j other read isAlive => ?_, kept.known, kept.regular,
    fun allClosed => ?_, fun j member other read isAlive k subscribed => ?_⟩
  · have differ : j ≠ i := by
      rintro rfl
      rw [kept.fresh j beyond] at found
      cases found
    simp only [setSocket, Function.update_of_ne differ]
    exact kept.fresh j beyond
  · obtain ⟨earlier, was, -, live, -⟩ := before j first read
    obtain ⟨earlier', was', -, live', -⟩ := before l second read'
    exact kept.one j l earlier was earlier' was' (live isLive) (live' isLive')
  · have here : some j = some i := (Option.mem_def.mp member).symm.trans current
    cases here
    exact ⟨_, Function.update_self .., nofun⟩
  · obtain ⟨earlier, was, alive, -⟩ := before j other read
    exact kept.alive j earlier was (alive isAlive)
  · have isClosed := allClosed i _ (Function.update_self ..)
    cases isClosed
  · obtain ⟨earlier, was, alive, -, sent⟩ := before j other read
    exact (kept.carried j member earlier was (alive isAlive) k subscribed).imp_left (sent k)

/-- The other fields play no part in it. -/
theorem Kept.withOthers (kept : s.Kept) (authToken : Option String) (authenticated : Bool)
    (timers : List ℕ) (nextTimer : ℕ) (reconnectTimeout : Option ℕ) (paused : Bool)
    (calls : List AuthCall) :
    ({ s with
      authToken := authToken, authenticated := authenticated, timers := timers
      nextTimer := nextTimer, reconnectTimeout := reconnectTimeout
      priceStreamAuthPaused := paused, calls := calls } : PriceStream).Kept :=
  ⟨kept.fresh, kept.one, kept.current, kept.alive, kept.known, kept.regular, kept.down,
    kept.carried⟩

theorem Kept.clearReconnect (kept : s.Kept) : s.clearReconnect.Kept := by
  unfold PriceStream.clearReconnect
  split
  · exact kept
  · exact kept.withOthers ..

theorem flushed_of_none_alive (none : ∀ i, ∀ socket ∈ s.sockets i, ¬ socket.Alive) : s.Flushed :=
  fun i _ socket found isOpen => absurd (.inr isOpen) (none i socket found)

theorem Kept.disconnect (kept : s.Kept) : s.disconnect.Kept ∧ s.disconnect.Flushed := by
  obtain ⟨closed, noneAlive⟩ := kept.clearReconnect.closeSocket
  refine ⟨⟨closed.fresh, closed.one, fun i member => (by cases member),
    fun i socket read alive => absurd alive (noneAlive i socket read), fun k member => ?_,
    fun k member => ?_, fun _ k member => ?_, fun i member => (by cases member)⟩,
    fun i member => (by cases member)⟩
  · cases member
  · rcases member with subscribed | waits
    · cases subscribed
    · cases waits
  · cases member

theorem created_sendSubscribe (urls : PriceUrls) (s : PriceStream) (symbols : List String) :
    (s.sendSubscribe urls symbols).created = s.created := by
  rcases sendSubscribe_cases urls s symbols with ⟨_, _, _, _, _, _, result⟩ | ⟨_, result⟩ <;>
    rw [result] <;> rfl

theorem wanted_sendSubscribe (urls : PriceUrls) (s : PriceStream) (symbols : List String) :
    (s.sendSubscribe urls symbols).wanted = s.wanted := by
  rcases sendSubscribe_cases urls s symbols with ⟨_, _, _, _, _, _, result⟩ | ⟨_, result⟩ <;>
    rw [result] <;> rfl

theorem wanted_connect (urls : PriceUrls) (s : PriceStream) : (s.connect urls).wanted = s.wanted := by
  unfold connect
  dsimp only
  split_ifs <;> rfl

theorem inProtocol_of_sendSubscribe {symbols : List String}
    (protocol : (s.sendSubscribe urls symbols).InProtocol urls) : s.InProtocol urls := by
  rcases sendSubscribe_cases urls s symbols with
    ⟨i, socket, current, found, isOpen, -, result⟩ | ⟨-, result⟩
  · rw [result] at protocol
    intro j member other read isOpen'
    have here : some j = some i := (Option.mem_def.mp member).symm.trans current
    cases here
    cases Option.some.inj (found.symm.trans read)
    exact protocol i current
      { socket with frames := socket.frames ++ [(s.gatewayMode urls, symbols)] }
      (Function.update_self ..) isOpen
  · rw [result] at protocol
    exact protocol

theorem inProtocol_of_flush {symbols : List String}
    (protocol : (s.flush urls symbols).InProtocol urls) : s.InProtocol urls := by
  unfold PriceStream.flush at protocol
  dsimp only at protocol
  split_ifs at protocol
  · exact protocol
  · exact inProtocol_of_sendSubscribe (s := { s with pendingSymbols := [] }) protocol

end Connections

/-- Symbols that are subscribed to have regular keys. -/
def Regular : StreamAction → Prop
  | .subscribe symbols => ∀ k ∈ normalizeWsSubscribeSymbols symbols, RegularKey k
  | .resyncSymbolSubscriptions symbols => ∀ k ∈ normalizeWsSubscribeSymbols symbols, RegularKey k
  | _ => True

/-- A socket is created only when every earlier one has closed, and an open one
never finds the client using the other protocol. -/
def Undisturbed (urls : PriceUrls) (s after : PriceStream) : Prop :=
  (after.created = s.created ∨
    ∀ i < s.created, ∀ socket ∈ s.sockets i, socket.readyState = .CLOSED) ∧ after.InProtocol urls

def Orderly (urls : PriceUrls) (s : PriceStream) (a : StreamAction) : Prop :=
  Regular a ∧ ∀ after ∈ s.step urls a, s.Undisturbed urls after

section Steps
variable {urls : PriceUrls} {s after : PriceStream}

theorem Kept.all_closed (kept : s.Kept) (undisturbed : s.Undisturbed urls after)
    (creates : after.created ≠ s.created) :
    ∀ i, ∀ socket ∈ s.sockets i, socket.readyState = .CLOSED := by
  intro i socket found
  rcases Nat.lt_or_ge i s.created with earlier | beyond
  · exact undisturbed.1.resolve_left creates i earlier socket found
  · cases (kept.fresh i beyond).symm.trans found

theorem Kept.subscribe (kept : s.Kept) (flushed : s.Flushed) {symbols : List String}
    (regular : ∀ k ∈ normalizeWsSubscribeSymbols symbols, RegularKey k)
    (undisturbed : s.Undisturbed urls (s.subscribe urls symbols)) :
    (s.subscribe urls symbols).Kept ∧ (s.subscribe urls symbols).Flushed := by
  have alone := kept.all_closed undisturbed
  have protocol := undisturbed.2
  unfold PriceStream.subscribe at alone protocol ⊢
  dsimp only at alone protocol ⊢
  split_ifs at alone protocol ⊢ with empty
  · exact ⟨kept, flushed⟩
  · simp only [created_sendSubscribe] at alone
    obtain ⟨connected, still⟩ := kept.connect flushed alone
    have inProtocol : (s.connect urls).InProtocol urls :=
      inProtocol_of_sendSubscribe protocol
    obtain ⟨sent, rested, known⟩ := connected.sendSubscribe inProtocol still regular
    have wanted : ((s.connect urls).sendSubscribe urls
        (normalizeWsSubscribeSymbols symbols)).wanted = s.wanted :=
      (wanted_sendSubscribe ..).trans (wanted_connect ..)
    refine ⟨⟨sent.fresh, sent.one, sent.current, sent.alive, fun k member => ?_, sent.regular,
      sent.down, sent.carried⟩, rested⟩
    rcases List.mem_append.mp member with before | new
    · exact sent.known k (wanted ▸ before)
    · exact known k new

theorem Kept.setAuthToken (kept : s.Kept) (flushed : s.Flushed) (token : Option String)
    (undisturbed : s.Undisturbed urls (s.setAuthToken urls token)) :
    (s.setAuthToken urls token).Kept ∧ (s.setAuthToken urls token).Flushed := by
  cases token with
  | none =>
    refine ⟨kept.withOthers .., fun i current socket found isOpen ready => ?_⟩
    refine flushed i current socket found isOpen fun isGateway => ?_
    cases ready isGateway
  | some token =>
    have alone := kept.all_closed undisturbed
    have kept' : ({ s with authToken := some token, priceStreamAuthPaused := false } :
      PriceStream).Kept := kept.withOthers ..
    unfold PriceStream.setAuthToken at alone ⊢
    dsimp only at alone ⊢
    split at alone
    next none => exact kept'.connect flushed alone
    next socket current =>
      split at alone
      next isOpen =>
        split_ifs
        · exact ⟨kept'.withOthers .., flushed⟩
        · exact ⟨kept', flushed⟩
        · have waiting := kept'.keepPending
            fun k (member : k ∈ s.subscribedSymbols) => kept.regular k (.inl member)
          obtain ⟨closed, noneAlive⟩ := waiting.closeSocket
          exact ⟨closed, flushed_of_none_alive noneAlive⟩
      next => exact kept'.connect flushed alone
      next => exact ⟨kept', flushed⟩
      next => exact ⟨kept', flushed⟩

theorem Kept.resumed (kept : s.Kept) (flushed : s.Flushed) (token : Option String) (call : AuthCall) :
    (s.resumed urls token call).Kept ∧ (s.resumed urls token call).Flushed := by
  cases call with
  | sendGatewayAuth => exact ⟨kept.withOthers .., flushed⟩
  | afterAuthError =>
    cases token with
    | some token =>
      simp only [PriceStream.resumed]
      split_ifs
      · exact ⟨kept.withOthers .., flushed⟩
      · exact ⟨kept, flushed⟩
    | none =>
      simp only [PriceStream.resumed]
      split_ifs
      · have paused : ({ s with priceStreamAuthPaused := true } : PriceStream).Kept :=
          kept.withOthers ..
        obtain ⟨closed, noneAlive⟩ := paused.clearReconnect.closeSocket
        exact ⟨closed, flushed_of_none_alive noneAlive⟩
      · exact ⟨kept, flushed⟩

/-- What an orderly step preserves. -/
theorem Kept.step {a : StreamAction} (kept : s.Kept) (flushed : s.Flushed)
    (orderly : Orderly urls s a) (taken : s.step urls a = some after) :
    after.Kept ∧ after.Flushed := by
  obtain ⟨regular, undisturbed⟩ := orderly
  have undisturbed := undisturbed after taken
  cases a with
  | setAuthToken token =>
    cases taken
    exact kept.setAuthToken flushed token undisturbed
  | subscribe symbols | resyncSymbolSubscriptions symbols =>
    cases taken
    exact kept.subscribe flushed regular undisturbed
  | unsubscribe symbols =>
    cases taken
    refine ⟨⟨kept.fresh, kept.one, kept.current, kept.alive, fun k member => ?_, fun k member => ?_,
      fun closed k member => ?_, fun i current socket found alive k member => ?_⟩, flushed⟩
    · obtain ⟨wanted, stays⟩ := List.mem_filter.mp member
      exact (kept.known k wanted).imp_left fun subscribed => List.mem_filter.mpr ⟨subscribed, stays⟩
    · exact kept.regular k (member.imp_left List.mem_of_mem_filter)
    · exact kept.down closed k (List.mem_of_mem_filter member)
    · exact kept.carried i current socket found alive k (List.mem_of_mem_filter member)
  | disconnect =>
    cases taken
    exact kept.disconnect
  | opened i =>
    obtain ⟨socket, found, opens⟩ := Option.bind_eq_some_iff.mp taken
    split_ifs at opens with connecting
    cases opens
    have current : s.ws = some i := kept.alive i socket found (.inl connecting)
    have isOpen := kept.opened found connecting (!socket.gatewayMode)
    have protocol := undisturbed.2
    unfold onopen at protocol ⊢
    dsimp only at protocol ⊢
    split_ifs at protocol ⊢ with isGateway
    · refine ⟨isOpen.withOthers .., fun j member other read _ ready => ?_⟩
      have here : some j = some i := (Option.mem_def.mp member).symm.trans current
      cases here
      have read : Function.update s.sockets i (some { socket with readyState := .OPEN }) i =
        some other := read
      rw [Function.update_self] at read
      cases read
      have accepted := ready isGateway
      simp [isGateway] at accepted
    · refine isOpen.flush (inProtocol_of_flush protocol) (fun k waits => ?_) fun k member => ?_
      · exact List.mem_append_right _ waits
      · exact List.mem_append.mp member
  | authSuccess i =>
    obtain ⟨socket, found, accepts⟩ := Option.bind_eq_some_iff.mp taken
    split_ifs at accepts
    cases accepts
    have accepted : ({ s with authenticated := true } : PriceStream).Kept := kept.withOthers ..
    have protocol := undisturbed.2
    unfold onAuthSuccess at protocol ⊢
    dsimp only at protocol ⊢
    split_ifs at protocol ⊢ with empty
    · exact ⟨accepted, fun _ _ _ _ _ _ => empty⟩
    · exact accepted.flush (inProtocol_of_flush protocol) (fun k waits => waits)
        fun k member => .inr member
  | authError i =>
    obtain ⟨socket, found, refuses⟩ := Option.bind_eq_some_iff.mp taken
    split_ifs at refuses with replies
    cases refuses
    refine ⟨kept.withOthers .., fun j member other read _ ready => ?_⟩
    have here : some j = some i :=
      (Option.mem_def.mp member).symm.trans (kept.alive i socket found (.inr replies.1))
    cases here
    cases Option.some.inj (found.symm.trans read)
    cases ready replies.2
  | closed i =>
    obtain ⟨socket, found, closes⟩ := Option.bind_eq_some_iff.mp taken
    split_ifs at closes with already
    cases closes
    exact kept.closed found already
  | timer n =>
    simp only [PriceStream.step] at taken
    split_ifs at taken
    cases taken
    have alone := kept.all_closed undisturbed
    have fired : ({ s with timers := s.timers.erase n } : PriceStream).Kept := kept.withOthers ..
    exact fired.connect flushed alone
  | resume n token =>
    obtain ⟨call, _, rfl⟩ := Option.map_eq_some_iff.mp taken
    have dropped : ({ s with calls := s.calls.eraseIdx n } : PriceStream).Kept := kept.withOthers ..
    exact dropped.resumed flushed token call

theorem kept_new : new.Kept where
  fresh _ _ := rfl
  one i j first read := by cases read
  current i member := by cases member
  alive i socket read := by cases read
  known k member := by cases member
  regular k member := by rcases member with subscribed | waits <;> contradiction
  down _ k member := by cases member
  carried i member := by cases member

/-- A gateway and a data provider. -/
def twoUrls : PriceUrls where
  gateway := "wss://host/ws"
  fallback := "ws://feed:9003"
  isGatewayUrl url := url = "wss://host/ws"
  priceWsUrlsMatch url other := url = other
  constructs _ := true

instance : (a : StreamAction) → Decidable (Regular a)
  | .subscribe symbols =>
    inferInstanceAs (Decidable (∀ k ∈ normalizeWsSubscribeSymbols symbols, RegularKey k))
  | .resyncSymbolSubscriptions symbols =>
    inferInstanceAs (Decidable (∀ k ∈ normalizeWsSubscribeSymbols symbols, RegularKey k))
  | .setAuthToken _ | .unsubscribe _ | .disconnect | .opened _ | .authSuccess _ | .authError _
  | .closed _ | .timer _ | .resume _ _ => .isTrue trivial

instance (urls : PriceUrls) (s after : PriceStream) : Decidable (s.Undisturbed urls after) :=
  inferInstanceAs (Decidable ((_ ∨ ∀ i < s.created, ∀ socket ∈ s.sockets i, _ = _) ∧
    ∀ i ∈ after.ws, ∀ socket ∈ after.sockets i, _ → _))

instance (urls : PriceUrls) (s : PriceStream) (a : StreamAction) : Decidable (Orderly urls s a) :=
  inferInstanceAs (Decidable (_ ∧ ∀ after ∈ s.step urls a, s.Undisturbed urls after))

/-- A visitor of the data provider's prices logs in, which moves the stream to
the gateway. -/
def loggingIn : List StreamAction :=
  [.subscribe ["EUR/USD"], .opened 0, .subscribe ["BTCUSDT"], .setAuthToken (some "jwt"), .closed 0,
   .timer 0, .resyncSymbolSubscriptions ["EURUSD", "XAUUSD"], .opened 1, .resume 0 (some "jwt"),
   .authError 1, .resume 0 (some "newer"), .authSuccess 1, .unsubscribe ["EUR/USD"]]

end Steps

end PriceStream

end TradingPlatform
