import TradingPlatform.Gateway.Broadcaster
import TradingPlatform.Library.ListIndex

namespace TradingPlatform

/-- A connection as the registry keeps it, with the channels of each symbol
that it subscribes to and the time of its last heartbeat. -/
structure RegisteredConnection where
  userId : String
  groupId : Option String
  role : String
  subscriptions : FiniteTable String (List String)
  lastHeartbeat : ℕ

/-- The three maps of the registry. -/
structure ConnectionRegistry where
  connections : FiniteTable ConnId RegisteredConnection
  userConnections : ListIndex String ConnId
  symbolSubscribers : ListIndex String ConnId

inductive RegistryAction
  | register (c : ConnId) (userId : String) (groupId : Option String) (role : String) (now : ℕ)
  | subscribeSymbol (c : ConnId) (symbol : String) (channels : List String) (now : ℕ)
  | unsubscribeSymbol (c : ConnId) (symbol : String)
  | unregister (c : ConnId)
  | updateHeartbeat (c : ConnId) (now : ℕ)
  | removeStale (now timeout : ℕ)

namespace ConnectionRegistry

/-- `new` -/
def empty : ConnectionRegistry := ⟨∅, ∅, ∅⟩

def register (r : ConnectionRegistry) (c : ConnId) (conn : RegisteredConnection) :
    ConnectionRegistry :=
  { r with
    connections := r.connections.insert c conn
    userConnections := ListIndex.push r.userConnections (normalizeId conn.userId) c }

def unregister (r : ConnectionRegistry) (c : ConnId) : ConnectionRegistry :=
  match r.connections.lookup c with
  | none => r
  | some conn =>
    { connections := r.connections.erase c
      userConnections := ListIndex.retract r.userConnections (normalizeId conn.userId) c
      symbolSubscribers := conn.subscriptions.keys.foldl
        (fun t symbol => ListIndex.retract t symbol c) r.symbolSubscribers }

def subscribeSymbol (r : ConnectionRegistry) (c : ConnId) (symbol : String)
    (channels : List String) (now : ℕ) : ConnectionRegistry :=
  match r.connections.lookup c with
  | none => r
  | some conn =>
    { r with
      connections := r.connections.insert c
        { conn with
          subscriptions := conn.subscriptions.insert symbol channels
          lastHeartbeat := now }
      symbolSubscribers := ListIndex.push r.symbolSubscribers symbol c }

def unsubscribeSymbol (r : ConnectionRegistry) (c : ConnId) (symbol : String) :
    ConnectionRegistry :=
  match r.connections.lookup c with
  | none => r
  | some conn =>
    { r with
      connections := r.connections.insert c
        { conn with subscriptions := conn.subscriptions.erase symbol }
      symbolSubscribers := ListIndex.retract r.symbolSubscribers symbol c }

def updateHeartbeat (r : ConnectionRegistry) (c : ConnId) (now : ℕ) : ConnectionRegistry :=
  match r.connections.lookup c with
  | none => r
  | some conn =>
    { r with connections := r.connections.insert c { conn with lastHeartbeat := now } }

/-- `get_stale_connections` -/
def staleConnections (r : ConnectionRegistry) (now timeout : ℕ) : List ConnId :=
  r.connections.keys.filter fun c =>
    (r.connections.lookup c).any fun conn => timeout < now - conn.lastHeartbeat

/-- One round of the heartbeat monitor. -/
def removeStale (r : ConnectionRegistry) (now timeout : ℕ) : ConnectionRegistry :=
  (r.staleConnections now timeout).foldl unregister r

/-- A session registers a fresh connection, with no subscriptions. -/
def step (r : ConnectionRegistry) : RegistryAction → Option ConnectionRegistry
  | .register c userId groupId role now =>
    if r.connections.lookup c = none then some (r.register c ⟨userId, groupId, role, ∅, now⟩)
    else none
  | .subscribeSymbol c symbol channels now => some (r.subscribeSymbol c symbol channels now)
  | .unsubscribeSymbol c symbol => some (r.unsubscribeSymbol c symbol)
  | .unregister c => some (r.unregister c)
  | .updateHeartbeat c now => some (r.updateHeartbeat c now)
  | .removeStale now timeout => some (r.removeStale now timeout)

/-- The connection has the symbol among its subscriptions. -/
def subscribed (r : ConnectionRegistry) (c : ConnId) (symbol : String) : Bool :=
  (r.connections.lookup c).any fun conn => (conn.subscriptions.lookup symbol).isSome

/-- The connection is registered for the user. -/
def registeredAs (r : ConnectionRegistry) (c : ConnId) (key : String) : Bool :=
  (r.connections.lookup c).any fun conn => normalizeId conn.userId = key

end ConnectionRegistry

end TradingPlatform
