import TradingPlatform.Gateway.FrameDelivery

namespace TradingPlatform

/-- The shard of an entry, for each of the maps. -/
structure Sharding where
  connectionTxs : ConnId → ℕ
  connections : ConnId → ℕ
  userConnections : String → ℕ
  symbolSubscribers : String → ℕ
  subscriptions : String → ℕ

/-- A shard of one of the maps, of which every connection brings one of its own. -/
inductive MapShard
  | connectionTxs (i : ℕ)
  | connections (i : ℕ)
  | userConnections (i : ℕ)
  | symbolSubscribers (i : ℕ)
  | subscriptions (c : ConnId) (i : ℕ)
  deriving DecidableEq, Repr

/-- A guard, or an iterator, on a shard. -/
structure ShardGuard where
  shard : MapShard
  exclusive : Bool
  deriving DecidableEq, Repr

/-- What is behind a sender: a queue with some slots free, or a closed receiver. -/
inductive QueueState
  | accepting (free : ℕ)
  | closed
  deriving DecidableEq, Repr

/-- The task of the broadcaster while it runs alone: the maps, the frames it has
offered to open receivers, and the guards that it holds. -/
structure DispatchTask where
  registry : ConnectionRegistry
  connectionTxs : FiniteTable ConnId QueueState
  offered : List (ConnId × ServerMessage)
  guards : List ShardGuard

namespace DispatchTask

/-- A lock is not granted to the task that already holds its shard, unless both
only read: the task waits for itself. -/
def acquire (g : ShardGuard) (s : DispatchTask) : Option DispatchTask :=
  if s.guards.any fun held => held.shard = g.shard ∧ (held.exclusive ∨ g.exclusive) then none
  else some { s with guards := g :: s.guards }

/-- A guard is dropped. -/
def release (g : ShardGuard) (s : DispatchTask) : DispatchTask :=
  { s with guards := s.guards.erase g }

section Unregister

/-- One of the indexes of the registry. -/
structure Index where
  get : ConnectionRegistry → ListIndex String ConnId
  set : ConnectionRegistry → ListIndex String ConnId → ConnectionRegistry

def usersIndex : Index where
  get := ConnectionRegistry.userConnections
  set r t := { r with userConnections := t }

def symbolsIndex : Index where
  get := ConnectionRegistry.symbolSubscribers
  set r t := { r with symbolSubscribers := t }

/-- What is set is what is got, and nothing else changes. -/
structure Index.Lawful (index : Index) : Prop where
  get_set : ∀ r t, index.get (index.set r t) = t
  set_set : ∀ r t t', index.set (index.set r t) t' = index.set r t'
  set_get : ∀ r, index.set r (index.get r) = r

theorem usersIndex_lawful : usersIndex.Lawful := ⟨fun _ _ => rfl, fun _ _ _ => rfl, fun _ => rfl⟩

theorem symbolsIndex_lawful : symbolsIndex.Lawful :=
  ⟨fun _ _ => rfl, fun _ _ _ => rfl, fun _ => rfl⟩

def put (index : Index) (t : ListIndex String ConnId) (s : DispatchTask) : DispatchTask :=
  { s with registry := index.set s.registry t }

/-- `retain` under the guard of `get_mut`, which is dropped before an emptied
list is removed. -/
def unlist (index : Index) (guard : ShardGuard) (key : String) (c : ConnId) (s : DispatchTask) :
    Option DispatchTask := do
  let s ← s.acquire guard
  match (index.get s.registry).lookup key with
  | none => some (s.release guard)
  | some ids =>
    let kept := ids.filter (· ≠ c)
    let s := s.put index ((index.get s.registry).insert key kept)
    if kept.isEmpty then
      let s ← (s.release guard).acquire guard
      some ((s.put index ((index.get s.registry).erase key)).release guard)
    else some (s.release guard)

variable (sh : Sharding)

def unlistUser (key : String) (c : ConnId) : DispatchTask → Option DispatchTask :=
  unlist usersIndex ⟨.userConnections (sh.userConnections key), true⟩ key c

def unlistSymbol (symbol : String) (c : ConnId) : DispatchTask → Option DispatchTask :=
  unlist symbolsIndex ⟨.symbolSubscribers (sh.symbolSubscribers symbol), true⟩ symbol c

/-- One round of the loop over the subscriptions, with the iterator on its entry. -/
def unsubscribeRound (c : ConnId) (s : DispatchTask) (symbol : String) : Option DispatchTask := do
  let entry : ShardGuard := ⟨.subscriptions c (sh.subscriptions symbol), false⟩
  let s ← s.acquire entry
  let s ← unlistSymbol sh symbol c s
  some (s.release entry)

/-- `unregister` -/
def unregister (c : ConnId) (s : DispatchTask) : Option DispatchTask := do
  let guard : ShardGuard := ⟨.connections (sh.connections c), true⟩
  let s ← s.acquire guard
  match s.registry.connections.lookup c with
  | none => some (s.release guard)
  | some conn =>
    let s := { s with registry.connections := s.registry.connections.erase c }.release guard
    let s ← unlistUser sh (normalizeId conn.userId) c s
    conn.subscriptions.keys.foldlM (unsubscribeRound sh c) s

end Unregister

section Dispatch
variable (sh : Sharding)

/-- `try_send` to an open receiver, which takes a free slot if there is one. -/
def offer (c : ConnId) (free : ℕ) (msg : ServerMessage) (s : DispatchTask) : DispatchTask :=
  { s with
    connectionTxs := s.connectionTxs.insert c (.accepting (free - 1))
    offered := s.offered ++ [(c, msg)] }

/-- A sender whose receiver is closed goes, and the registration with it. -/
def removeClosed (c : ConnId) (s : DispatchTask) : Option DispatchTask := do
  let guard : ShardGuard := ⟨.connectionTxs (sh.connectionTxs c), true⟩
  let s ← s.acquire guard
  unregister sh c ({ s with connectionTxs := s.connectionTxs.erase c }.release guard)

/-- `try_dispatch_conn`: the guard is dropped before the frame is sent. -/
def tryDispatchConn (msg : ServerMessage) (s : DispatchTask) (c : ConnId) :
    Option DispatchTask := do
  let guard : ShardGuard := ⟨.connectionTxs (sh.connectionTxs c), false⟩
  let s ← s.acquire guard
  match s.connectionTxs.lookup c with
  | none => some (s.release guard)
  | some (.accepting free) => some ((s.release guard).offer c free msg)
  | some .closed => removeClosed sh c (s.release guard)

/-- The dispatch of a tick: the guard is dropped before a removal, or else last. -/
def sendTick (msg : ServerMessage) (s : DispatchTask) (c : ConnId) : Option DispatchTask := do
  let guard : ShardGuard := ⟨.connectionTxs (sh.connectionTxs c), false⟩
  let s ← s.acquire guard
  match s.connectionTxs.lookup c with
  | none => some (s.release guard)
  | some (.accepting free) => some ((s.offer c free msg).release guard)
  | some .closed => removeClosed sh c (s.release guard)

/-- A connection as the frame of a tick needs it. -/
def tickConnection (r : ConnectionRegistry) (c : ConnId) : Option Connection :=
  (r.connections.lookup c).map fun conn =>
    ⟨conn.userId, conn.role, conn.groupId, conn.subscriptions.keys⟩

/-- A read of the registry that drops its guard at once. -/
def read (guard : ShardGuard) (s : DispatchTask) : Option DispatchTask := do
  let s ← s.acquire guard
  some (s.release guard)

/-- One round of the loop of `broadcast_tick`, which reads the registration for
the price of its group. -/
def dispatchTick (symbol : String) (now : ℤ) (payload : Json) (s : DispatchTask) (c : ConnId) :
    Option DispatchTask := do
  let s ← if ((payload.get "prices").bind Json.asArray).isSome then
      s.read ⟨.connections (sh.connections c), false⟩
    else some s
  match Gateway.tickFrame symbol now payload (tickConnection s.registry c) with
  | some msg => sendTick sh msg s c
  | none => some s

/-- `get_symbol_subscribers` -/
def symbolSubscribers (r : ConnectionRegistry) (symbol : String) : List ConnId :=
  ListIndex.listed r.symbolSubscribers symbol

/-- The name under which a symbol is also subscribed to. -/
def usdName (symbol : String) : Option String :=
  if "USDT".toList <:+ symbol.toList then
    some (String.ofList (Gateway.trimUsdt symbol.toList symbol.length) ++ "USD")
  else none

def tickSubscribers (r : ConnectionRegistry) (symbol : String) : List ConnId :=
  match usdName symbol with
  | some usd => (symbolSubscribers r usd).foldl (fun ids c => if c ∈ ids then ids else ids ++ [c])
      (symbolSubscribers r symbol)
  | none => symbolSubscribers r symbol

/-- `broadcast_tick` -/
def broadcastTick (now : ℤ) (payload : Json) (s : DispatchTask) : Option DispatchTask :=
  match payload.getStr "symbol" with
  | none => some s
  | some symbol => do
    let s ← s.read ⟨.symbolSubscribers (sh.symbolSubscribers symbol), false⟩
    let s ← match usdName symbol with
      | some usd => s.read ⟨.symbolSubscribers (sh.symbolSubscribers usd), false⟩
      | none => some s
    (tickSubscribers s.registry symbol).foldlM (dispatchTick sh symbol now payload) s

/-- `get_user_connections`, and a dispatch to each of them. -/
def dispatchUser (userId : String) (msg : ServerMessage) (s : DispatchTask) :
    Option DispatchTask := do
  let s ← s.read ⟨.userConnections (sh.userConnections (normalizeId userId)), false⟩
  (ListIndex.listed s.registry.userConnections (normalizeId userId)).foldlM
    (tryDispatchConn sh msg) s

/-- `get_admin_connection_ids` -/
def adminConnectionIds (r : ConnectionRegistry) : List ConnId :=
  r.connections.keys.filter fun c => (r.connections.lookup c).any (isAdminRole ·.role)

/-- The iterator over `connections` is through before the dispatches begin. -/
def dispatchAdmins (msg : ServerMessage) (s : DispatchTask) : Option DispatchTask := do
  let s ← s.registry.connections.keys.foldlM
    (fun s c => s.read ⟨.connections (sh.connections c), false⟩) s
  (adminConnectionIds s.registry).foldlM (tryDispatchConn sh msg) s

/-- One round of the loop over `connection_txs`, with the iterator on its entry. -/
def dispatchEntry (msg : ServerMessage) (s : DispatchTask) (c : ConnId) : Option DispatchTask := do
  let entry : ShardGuard := ⟨.connectionTxs (sh.connectionTxs c), false⟩
  let s ← s.acquire entry
  let s ← tryDispatchConn sh msg s c
  some (s.release entry)

def dispatchEveryone (msg : ServerMessage) (s : DispatchTask) : Option DispatchTask :=
  s.connectionTxs.keys.foldlM (dispatchEntry sh msg) s

def dispatch (msg : ServerMessage) (s : DispatchTask) : Audience → Option DispatchTask
  | .user userId => dispatchUser sh userId msg s
  | .admins => dispatchAdmins sh msg s
  | .userAndAdmins userId => (dispatchUser sh userId msg s).bind (dispatchAdmins sh msg)
  | .everyone => dispatchEveryone sh msg s

/-- `handle_message`. There is no result when the task waits for itself. -/
def handleMessage (m : Message) (now : ℤ) (s : DispatchTask) : Option DispatchTask :=
  if m.channel = "price:ticks" then broadcastTick sh now m.payload s
  else
    match TradingPlatform.handleMessage now m.payload m.channel with
    | none => some s
    | some (audience, msg) => dispatch sh msg s audience

end Dispatch

/-- The task begins with a message, and holds no guard. -/
def beginning (r : ConnectionRegistry) (txs : FiniteTable ConnId QueueState) : DispatchTask :=
  ⟨r, txs, [], []⟩

/-- The connections that an audience stands for. -/
def InAudience (r : ConnectionRegistry) (txs : FiniteTable ConnId QueueState) (c : ConnId) :
    Audience → Prop
  | .user userId => c ∈ ListIndex.listed r.userConnections (normalizeId userId)
  | .admins => c ∈ adminConnectionIds r
  | .userAndAdmins userId => c ∈ ListIndex.listed r.userConnections (normalizeId userId) ∨
      c ∈ adminConnectionIds r
  | .everyone => c ∈ txs.keys

/-- The frame that a message has for a connection. -/
def Addressed (r : ConnectionRegistry) (txs : FiniteTable ConnId QueueState) (m : Message)
    (now : ℤ) (c : ConnId) (msg : ServerMessage) : Prop :=
  if m.channel = "price:ticks" then
    ∃ symbol, m.payload.getStr "symbol" = some symbol ∧ c ∈ tickSubscribers r symbol ∧
      Gateway.tickFrame symbol now m.payload (tickConnection r c) = some msg
  else
    ∃ audience, TradingPlatform.handleMessage now m.payload m.channel = some (audience, msg) ∧
      InAudience r txs c audience

/-- Nothing in the registry names the connection. -/
def GoneFrom (r : ConnectionRegistry) (c : ConnId) : Prop :=
  r.connections.lookup c = none ∧ (∀ key, c ∉ ListIndex.listed r.userConnections key) ∧
    ∀ symbol, c ∉ ListIndex.listed r.symbolSubscribers symbol

/-- The task gets through the message; what it addresses has been offered the
frame when it is open, and is gone when it is closed. -/
def Settles (sh : Sharding) (r : ConnectionRegistry) (txs : FiniteTable ConnId QueueState)
    (m : Message) (now : ℤ) : Prop :=
  ∃ after, handleMessage sh m now (beginning r txs) = some after ∧
    ∀ c msg, Addressed r txs m now c msg →
      (∀ free, txs.lookup c = some (.accepting free) → (c, msg) ∈ after.offered) ∧
        (txs.lookup c = some .closed →
          after.connectionTxs.lookup c = none ∧ GoneFrom after.registry c)

/-- The message is for everyone, and somebody's receiver is closed. -/
def MeetsClosed (txs : FiniteTable ConnId QueueState) (m : Message) (now : ℤ) : Prop :=
  (∃ msg, TradingPlatform.handleMessage now m.payload m.channel = some (.everyone, msg)) ∧
    ∃ c, txs.lookup c = some .closed

end DispatchTask

end TradingPlatform
