import TradingPlatform.Gateway.ConnectionRegistry

namespace TradingPlatform

/-- What a client sends. An `auth` carries the claims of its token, or none
when the token is refused. -/
inductive ClientMessage
  | auth (token : Option Claims)
  | subscribe (symbols channels : List String)
  | unsubscribe (symbols : List String)
  | ping
  | pong
  | other

/-- The tasks of a session run until one of them ends; the cleanup then drops
the sender, and after that the registration. -/
inductive SessionPhase
  | running
  | ending
  | unregistering
  | ended
  deriving DecidableEq, Repr

/-- What a session knows by itself, and the symbols that it last confirmed to
the client. -/
structure SocketSession where
  phase : SessionPhase
  isAuthenticated : Bool
  confirmed : List String
  deriving DecidableEq, Repr

/-- The sessions with the maps that they share, and the connections that the
heartbeat monitor has still to remove in its round. -/
structure GatewayTasks where
  registry : ConnectionRegistry
  connectionTxs : List ConnId
  sessions : FiniteTable ConnId SocketSession
  stale : List ConnId

inductive TaskAction
  | connect (c : ConnId)
  | receive (c : ConnId) (m : ClientMessage) (now : ℕ)
  | dispatchClosed (c : ConnId)
  | taskEnds (c : ConnId)
  | dropSender (c : ConnId)
  | unregister (c : ConnId)
  | scan (now : ℕ)
  | removeNext

namespace GatewayTasks

def started : GatewayTasks := ⟨.empty, [], ∅, []⟩

/-- The message loop of a session. -/
def receive (s : GatewayTasks) (c : ConnId) (session : SocketSession) (now : ℕ) :
    ClientMessage → GatewayTasks
  | .auth token =>
    if session.isAuthenticated then s
    else
      match token with
      | none => s
      | some claims =>
        { s with
          registry := s.registry.register c ⟨claims.sub, claims.groupId, claims.role, ∅, now⟩
          sessions := s.sessions.insert c { session with isAuthenticated := true } }
  | .subscribe symbols channels =>
    if (s.registry.connections.lookup c).isSome then
      { s with
        registry := (Gateway.requestedSymbols symbols).foldl
          (fun r symbol => r.subscribeSymbol c symbol channels now) s.registry
        sessions := s.sessions.insert c
          { session with confirmed := session.confirmed ∪ Gateway.requestedSymbols symbols } }
    else s
  | .unsubscribe symbols =>
    { s with
      registry := (Gateway.requestedSymbols symbols).foldl
        (fun r symbol => r.unsubscribeSymbol c symbol) s.registry
      sessions := s.sessions.insert c
        { session with confirmed := session.confirmed.filter (· ∉ Gateway.requestedSymbols symbols) } }
  | .ping => { s with registry := s.registry.updateHeartbeat c now }
  | .pong => { s with registry := s.registry.updateHeartbeat c now }
  | .other => s

/-- `try_dispatch_conn` on a connection whose receiver is dropped. -/
def dispatchClosed (s : GatewayTasks) (c : ConnId) : GatewayTasks :=
  if c ∈ s.connectionTxs then
    { s with
      connectionTxs := s.connectionTxs.filter (· ≠ c)
      registry := s.registry.unregister c }
  else s

def setPhase (s : GatewayTasks) (c : ConnId) (session : SocketSession) (phase : SessionPhase) :
    GatewayTasks :=
  { s with sessions := s.sessions.insert c { session with phase := phase } }

/-- One step of a session, of the broadcaster or of the heartbeat monitor,
which removes connections silent for longer than the timeout. -/
def step (timeout : ℕ) (s : GatewayTasks) : TaskAction → Option GatewayTasks
  | .connect c =>
    match s.sessions.lookup c with
    | none =>
      some { s with
        connectionTxs := c :: s.connectionTxs
        sessions := s.sessions.insert c ⟨.running, false, []⟩ }
    | some _ => none
  | .receive c m now =>
    match s.sessions.lookup c with
    | some session => if session.phase = .running then some (s.receive c session now m) else none
    | none => none
  | .dispatchClosed c =>
    match s.sessions.lookup c with
    | some session => if session.phase = .running then none else some (s.dispatchClosed c)
    | none => none
  | .taskEnds c =>
    match s.sessions.lookup c with
    | some session =>
      if session.phase = .running then some (s.setPhase c session .ending) else none
    | none => none
  | .dropSender c =>
    match s.sessions.lookup c with
    | some session =>
      if session.phase = .ending then
        some { s.setPhase c session .unregistering with
          connectionTxs := s.connectionTxs.filter (· ≠ c) }
      else none
    | none => none
  | .unregister c =>
    match s.sessions.lookup c with
    | some session =>
      if session.phase = .unregistering then
        some { s.setPhase c session .ended with registry := s.registry.unregister c }
      else none
    | none => none
  | .scan now =>
    if s.stale = [] then some { s with stale := s.registry.staleConnections now timeout } else none
  | .removeNext =>
    match s.stale with
    | [] => none
    | c :: rest => some { s with registry := s.registry.unregister c, stale := rest }

/-- The socket of the session is open. -/
def socketOpen (s : GatewayTasks) (c : ConnId) : Bool :=
  (s.sessions.lookup c).any (·.phase = .running)

end GatewayTasks

end TradingPlatform
