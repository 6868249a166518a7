import TradingPlatform.Gateway.SessionTasks

namespace TradingPlatform

/-- A connection in the map `connections`, as far as the indexes go. -/
structure LiveConnection where
  userId : String
  subscriptions : FiniteTable String (List String)

/-- An index from names to connections, where a name may have an empty list. -/
abbrev ConnIndex := String → Option (List ConnId)

namespace ConnIndex

/-- `entry(key).or_insert_with(Vec::new).push(c)` -/
def push (t : ConnIndex) (key : String) (c : ConnId) : ConnIndex :=
  Function.update t key (some ((t key).getD [] ++ [c]))

/-- `retain` under `get_mut`, with whether the list is empty then. -/
def retain (t : ConnIndex) (key : String) (c : ConnId) : ConnIndex × Bool :=
  match t key with
  | none => (t, false)
  | some ids =>
    let kept := ids.filter (· ≠ c)
    (Function.update t key (some kept), kept.isEmpty)

def remove (t : ConnIndex) (key : String) : ConnIndex := Function.update t key none

def Lists (t : ConnIndex) (key : String) (c : ConnId) : Prop := c ∈ (t key).getD []

end ConnIndex

/-- The operations on the maps that the calls of the registry are made of, each
the next one of its call. `subscribe_symbol` and `unsubscribe_symbol` hold the
guard of their connection from the first operation to the last. -/
inductive MapStep
  -- register
  | insertConnection (conn : LiveConnection)
  | pushUser (key : String)
  -- subscribe_symbol
  | getToSubscribe (symbol : String) (channels : List String)
  | insertSubscription (symbol : String) (channels : List String)
  | pushSymbol (symbol : String)
  -- unsubscribe_symbol
  | getToUnsubscribe (symbol : String)
  | removeSubscription (symbol : String)
  | retainSubscribers (symbol : String)
  | removeSubscribers (symbol : String)
  | dropGuard
  -- unregister
  | removeConnection
  | retainUser (key : String) (symbols : List String)
  | removeUser (key : String) (symbols : List String)
  | retainSymbol (symbol : String) (rest : List String)
  | removeSymbol (symbol : String) (rest : List String)

/-- The operations under the guard of the connection, which only the receive
task of its own session takes. -/
def MapStep.guarded : MapStep → Bool
  | .insertSubscription _ _ => true
  | .pushSymbol _ => true
  | .removeSubscription _ => true
  | .retainSubscribers _ => true
  | .removeSubscribers _ => true
  | .dropGuard => true
  | _ => false

/-- What `unregister` does after the lists of users. -/
def MapStep.retainNext : List String → Option MapStep
  | [] => none
  | symbol :: rest => some (.retainSymbol symbol rest)

/-- The operations of the receive task before which its connection may be removed:
not before the second one of `register`, and by its own session before neither. -/
def MapStep.allowsRemoval (bySession : Bool) : MapStep → Bool
  | .insertConnection _ => !bySession
  | .pushUser _ => false
  | _ => true

/-- The receive task and the main task of a session, and any other one. -/
inductive TaskId
  | receive (c : ConnId)
  | session (c : ConnId)
  | other (n : ℕ)
  deriving DecidableEq, Repr

structure RegistryCall where
  conn : ConnId
  next : MapStep

/-- A call that a message to subscribe or to unsubscribe makes. -/
inductive SymbolCall
  | subscribe (symbol : String) (channels : List String)
  | unsubscribe (symbol : String)

def SymbolCall.first : SymbolCall → MapStep
  | .subscribe symbol channels => .getToSubscribe symbol channels
  | .unsubscribe symbol => .getToUnsubscribe symbol

/-- A session: its phase, what its receive task knows and has still to call for
the message at hand, and whether that task has been told to stop and has stopped. -/
structure SessionTask where
  phase : SessionPhase
  isAuthenticated : Bool
  pending : List SymbolCall
  aborted : Bool
  stopped : Bool

/-- The maps, the calls under way and the sessions. -/
structure RegistryCalls where
  connections : ConnId → Option LiveConnection
  userConnections : ConnIndex
  symbolSubscribers : ConnIndex
  connectionTxs : ConnId → Bool
  calls : FiniteTable TaskId RegistryCall
  sessions : ConnId → Option SessionTask

/-- A socket opens; its receive task takes a message, makes the next call for
it, ends by itself or stops after an abort; its send task ends; the main task
drops the sender and unregisters. The heartbeat monitor unregisters a
connection, and so does whoever finds its receiver closed. A task performs the
next operation of its call. -/
inductive CallAction
  | connect (c : ConnId)
  | receive (c : ConnId) (m : ClientMessage)
  | beginNext (c : ConnId)
  | sendEnds (c : ConnId)
  | receiveEnds (c : ConnId)
  | receiveStops (c : ConnId)
  | dropSender (c : ConnId)
  | cleanUp (c : ConnId)
  | removeStale (n : ℕ) (c : ConnId)
  | dispatchClosed (n : ℕ) (c : ConnId)
  | operate (t : TaskId)

namespace RegistryCalls

def started : RegistryCalls where
  connections := fun _ => none
  userConnections := fun _ => none
  symbolSubscribers := fun _ => none
  connectionTxs := fun _ => false
  calls := ∅
  sessions := fun _ => none

def setSession (s : RegistryCalls) (c : ConnId) (session : SessionTask) : RegistryCalls :=
  { s with sessions := Function.update s.sessions c (some session) }

/-- The call of a task goes on with an operation, or ends. -/
def setCall (s : RegistryCalls) (t : TaskId) (c : ConnId) : Option MapStep → RegistryCalls
  | some next => { s with calls := s.calls.insert t ⟨c, next⟩ }
  | none => { s with calls := s.calls.erase t }

/-- The receive task of the connection holds its guard. -/
def guarded (s : RegistryCalls) (c : ConnId) : Bool :=
  (s.calls.lookup (.receive c)).any (·.next.guarded)

def setConnection (s : RegistryCalls) (c : ConnId) (conn : Option LiveConnection) :
    RegistryCalls :=
  { s with connections := Function.update s.connections c conn }

/-- One operation of a call on a connection, and the call's next one. The
removal from `connections` waits for the guard. -/
def operate (s : RegistryCalls) (c : ConnId) :
    MapStep → Option (RegistryCalls × Option MapStep)
  | .insertConnection conn =>
    some (s.setConnection c (some conn), some (.pushUser (normalizeId conn.userId)))
  | .pushUser key =>
    some ({ s with userConnections := s.userConnections.push key c }, none)
  | .getToSubscribe symbol channels =>
    some (s, (s.connections c).map fun _ => .insertSubscription symbol channels)
  | .insertSubscription symbol channels =>
    some (s.setConnection c ((s.connections c).map fun conn =>
      { conn with subscriptions := conn.subscriptions.insert symbol channels }),
      some (.pushSymbol symbol))
  | .pushSymbol symbol =>
    some ({ s with symbolSubscribers := s.symbolSubscribers.push symbol c }, some .dropGuard)
  | .getToUnsubscribe symbol =>
    some (s, (s.connections c).map fun _ => .removeSubscription symbol)
  | .removeSubscription symbol =>
    some (s.setConnection c ((s.connections c).map fun conn =>
      { conn with subscriptions := conn.subscriptions.erase symbol }),
      some (.retainSubscribers symbol))
  | .retainSubscribers symbol =>
    some ({ s with symbolSubscribers := (s.symbolSubscribers.retain symbol c).1 },
      some (if (s.symbolSubscribers.retain symbol c).2 then .removeSubscribers symbol
        else .dropGuard))
  | .removeSubscribers symbol =>
    some ({ s with symbolSubscribers := s.symbolSubscribers.remove symbol }, some .dropGuard)
  | .dropGuard => some (s, none)
  | .removeConnection =>
    if s.guarded c then none
    else some (s.setConnection c none, (s.connections c).map fun conn =>
      .retainUser (normalizeId conn.userId) conn.subscriptions.keys)
  | .retainUser key symbols =>
    some ({ s with userConnections := (s.userConnections.retain key c).1 },
      if (s.userConnections.retain key c).2 then some (.removeUser key symbols)
      else MapStep.retainNext symbols)
  | .removeUser key symbols =>
    some ({ s with userConnections := s.userConnections.remove key }, MapStep.retainNext symbols)
  | .retainSymbol symbol rest =>
    some ({ s with symbolSubscribers := (s.symbolSubscribers.retain symbol c).1 },
      if (s.symbolSubscribers.retain symbol c).2 then some (.removeSymbol symbol rest)
      else MapStep.retainNext rest)
  | .removeSymbol symbol rest =>
    some ({ s with symbolSubscribers := s.symbolSubscribers.remove symbol },
      MapStep.retainNext rest)

/-- The receive task is at the await for its next message. -/
def awaits (s : RegistryCalls) (c : ConnId) (session : SessionTask) : Bool :=
  session.pending.isEmpty && (s.calls.lookup (.receive c)).isNone && !session.stopped

/-- The calls of a message. A first valid `auth` registers; a subscription needs
a registered connection. -/
def receive (s : RegistryCalls) (c : ConnId) (session : SessionTask) :
    ClientMessage → RegistryCalls
  | .auth token =>
    if session.isAuthenticated then s
    else
      match token with
      | none => s
      | some claims =>
        (s.setSession c { session with isAuthenticated := true }).setCall (.receive c) c
          (some (.insertConnection ⟨claims.sub, ∅⟩))
  | .subscribe symbols channels =>
    if (s.connections c).isSome then
      s.setSession c { session with
        pending := (Gateway.requestedSymbols symbols).map fun symbol =>
          .subscribe symbol channels }
    else s
  | .unsubscribe symbols =>
    s.setSession c { session with pending := (Gateway.requestedSymbols symbols).map .unsubscribe }
  | .ping => s
  | .pong => s
  | .other => s

def step (s : RegistryCalls) : CallAction → Option RegistryCalls
  | .connect c =>
    match s.sessions c with
    | none =>
      some { s.setSession c ⟨.running, false, [], false, false⟩ with
        connectionTxs := Function.update s.connectionTxs c true }
    | some _ => none
  | .receive c m =>
    match s.sessions c with
    | some session =>
      if s.awaits c session ∧ session.aborted = false then some (s.receive c session m) else none
    | none => none
  | .beginNext c =>
    match s.sessions c with
    | some session =>
      match session.pending with
      | call :: rest =>
        if s.calls.lookup (.receive c) = none then
          some ((s.setSession c { session with pending := rest }).setCall (.receive c) c
            (some call.first))
        else none
      | [] => none
    | none => none
  | .sendEnds c =>
    match s.sessions c with
    | some session =>
      if session.phase = .running then
        some (s.setSession c { session with phase := .ending, aborted := true })
      else none
    | none => none
  | .receiveEnds c =>
    match s.sessions c with
    | some session =>
      if session.phase = .running ∧ s.awaits c session then
        some (s.setSession c { session with phase := .ending, stopped := true })
      else none
    | none => none
  | .receiveStops c =>
    match s.sessions c with
    | some session =>
      if session.aborted ∧ s.awaits c session then
        some (s.setSession c { session with stopped := true })
      else none
    | none => none
  | .dropSender c =>
    match s.sessions c with
    | some session =>
      if session.phase = .ending then
        some { s.setSession c { session with phase := .unregistering } with
          connectionTxs := Function.update s.connectionTxs c false }
      else none
    | none => none
  | .cleanUp c =>
    match s.sessions c with
    | some session =>
      if session.phase = .unregistering then
        some ((s.setSession c { session with phase := .ended }).setCall (.session c) c
          (some .removeConnection))
      else none
    | none => none
  | .removeStale n c =>
    if s.calls.lookup (.other n) = none then
      some (s.setCall (.other n) c (some .removeConnection))
    else none
  | .dispatchClosed n c =>
    match s.sessions c with
    | some session =>
      if session.phase ≠ .running ∧ s.connectionTxs c = true ∧
          s.calls.lookup (.other n) = none then
        some ({ s with
          connectionTxs := Function.update s.connectionTxs c false }.setCall (.other n) c
            (some .removeConnection))
      else none
    | none => none
  | .operate t =>
    match s.calls.lookup t with
    | some call => (s.operate call.conn call.next).map fun done => done.1.setCall t call.conn done.2
    | none => none

/-- A list is empty when its name is removed, and a connection may be removed. -/
def MayOperate (s : RegistryCalls) (t : TaskId) (call : RegistryCall) : Prop :=
  match call.next with
  | .removeUser key _ => (s.userConnections key).getD [] = []
  | .removeSymbol symbol _ => (s.symbolSubscribers symbol).getD [] = []
  | .removeSubscribers symbol => (s.symbolSubscribers symbol).getD [] = []
  | .removeConnection => ∀ own ∈ s.calls.lookup (.receive call.conn),
    own.next.allowsRemoval (decide (t = .session call.conn)) = true
  | _ => True

instance (s : RegistryCalls) (t : TaskId) (call : RegistryCall) :
    Decidable (s.MayOperate t call) :=
  match call with
  | ⟨_, .insertConnection _⟩ => isTrue trivial
  | ⟨_, .pushUser _⟩ => isTrue trivial
  | ⟨_, .getToSubscribe _ _⟩ => isTrue trivial
  | ⟨_, .insertSubscription _ _⟩ => isTrue trivial
  | ⟨_, .pushSymbol _⟩ => isTrue trivial
  | ⟨_, .getToUnsubscribe _⟩ => isTrue trivial
  | ⟨_, .removeSubscription _⟩ => isTrue trivial
  | ⟨_, .retainSubscribers _⟩ => isTrue trivial
  | ⟨_, .removeSubscribers symbol⟩ =>
    inferInstanceAs (Decidable ((s.symbolSubscribers symbol).getD [] = []))
  | ⟨_, .dropGuard⟩ => isTrue trivial
  | ⟨c, .removeConnection⟩ =>
    inferInstanceAs (Decidable (∀ own ∈ s.calls.lookup (.receive c),
      own.next.allowsRemoval (decide (t = .session c)) = true))
  | ⟨_, .retainUser _ _⟩ => isTrue trivial
  | ⟨_, .removeUser key _⟩ => inferInstanceAs (Decidable ((s.userConnections key).getD [] = []))
  | ⟨_, .retainSymbol _ _⟩ => isTrue trivial
  | ⟨_, .removeSymbol symbol _⟩ =>
    inferInstanceAs (Decidable ((s.symbolSubscribers symbol).getD [] = []))

/-- No task removes what another has just put there or is about to. -/
def Undisturbed (s : RegistryCalls) : CallAction → Prop
  | .operate t => ∀ call ∈ s.calls.lookup t, s.MayOperate t call
  | _ => True

instance (s : RegistryCalls) (action : CallAction) : Decidable (s.Undisturbed action) :=
  match action with
  | .operate t => inferInstanceAs (Decidable (∀ call ∈ s.calls.lookup t, s.MayOperate t call))
  | .connect _ => isTrue trivial
  | .receive _ _ => isTrue trivial
  | .beginNext _ => isTrue trivial
  | .sendEnds _ => isTrue trivial
  | .receiveEnds _ => isTrue trivial
  | .receiveStops _ => isTrue trivial
  | .dropSender _ => isTrue trivial
  | .cleanUp _ => isTrue trivial
  | .removeStale _ _ => isTrue trivial
  | .dispatchClosed _ _ => isTrue trivial

/-- A connection in the registry is found by its user and by its symbols. -/
def LiveListed (s : RegistryCalls) : Prop :=
  ∀ c conn, s.connections c = some conn →
    s.userConnections.Lists (normalizeId conn.userId) c ∧
      ∀ symbol ∈ conn.subscriptions.keys, s.symbolSubscribers.Lists symbol c

/-- A session that is over has left nothing in the maps. -/
def DeadGone (s : RegistryCalls) : Prop :=
  ∀ c session, s.sessions c = some session → session.phase = .ended → session.stopped = true →
    s.connections c = none ∧ (∀ key, ¬ s.userConnections.Lists key c) ∧
      (∀ symbol, ¬ s.symbolSubscribers.Lists symbol c) ∧ s.connectionTxs c = false

end RegistryCalls

end TradingPlatform
