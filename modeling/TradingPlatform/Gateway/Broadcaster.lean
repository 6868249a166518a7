import TradingPlatform.Gateway.Messages
import TradingPlatform.Library.FiniteTable
import TradingPlatform.Library.StepRuns
import TradingPlatform.Summary.FxRates

namespace TradingPlatform

open StepRuns

abbrev ConnId := ℕ

/-- What a valid token says. -/
structure Claims where
  sub : String
  role : String
  groupId : Option String
  deriving DecidableEq, Repr

/-- `normalize_user_id`, `normalize_group_id` -/
def normalizeId (s : String) : String :=
  String.ofList (((trim s).toList.map Char.toLower).filter (· ≠ '-'))

/-- `normalize_subscription_symbol` -/
def normalizeSubscriptionSymbol (raw : String) : Option String :=
  let normalized := String.ofList (((trim raw).toList.filter Char.isAlphanum).map Char.toUpper)
  if normalized = "" then none else some normalized

/-- A registered connection with the symbols that it subscribes to. -/
structure Connection where
  userId : String
  role : String
  groupId : Option String
  subscriptions : List String
  deriving DecidableEq, Repr

/-- The roles of `get_admin_connection_ids`. -/
def isAdminRole (role : String) : Bool :=
  let lower := String.ofList (role.toList.map Char.toLower)
  lower = "admin" ∨ lower = "super_admin" ∨ lower = "manager"

/-- A WebSocket session: the claims it has been authenticated with. -/
structure Session where
  claims : Option Claims
  live : Bool
  deriving DecidableEq, Repr

/-- `WS_CONN_CHANNEL_CAP` -/
def connChannelCap : ℕ := 4096

/-- The gateway: its sessions, the registry with its two indexes, the outbound
queues, the connections whose receiver is gone, the spawned sends that wait
for room, and all frames ever put in each queue. -/
structure Gateway where
  sessions : FiniteTable ConnId Session
  connections : FiniteTable ConnId Connection
  userConnections : String → List ConnId
  symbolSubscribers : String → List ConnId
  txs : FiniteTable ConnId (List ServerMessage)
  gone : List ConnId
  sends : List (ConnId × ServerMessage)
  enqueued : ConnId → List ServerMessage

inductive GatewayAction
  | connect (c : ConnId)
  | authenticate (c : ConnId) (claims : Claims)
  | subscribe (c : ConnId) (symbols : List String)
  | unsubscribe (c : ConnId) (symbols : List String)
  | publish (p : Publication) (now : ℤ)
  | deliver (m : Message) (now : ℤ)
  | drain (c : ConnId)
  | retry (c : ConnId)
  | receiverEnds (c : ConnId)
  | endSession (c : ConnId)

namespace Gateway

def opened : Gateway where
  sessions := ∅
  connections := ∅
  userConnections := fun _ => []
  symbolSubscribers := fun _ => []
  txs := ∅
  gone := []
  sends := []
  enqueued := fun _ => []

section Registry

/-- `register` -/
def register (s : Gateway) (c : ConnId) (conn : Connection) : Gateway :=
  { s with
    connections := s.connections.insert c conn
    userConnections := Function.update s.userConnections (normalizeId conn.userId)
      (s.userConnections (normalizeId conn.userId) ++ [c]) }

/-- `unregister` -/
def unregister (s : Gateway) (c : ConnId) : Gateway :=
  match s.connections.lookup c with
  | none => s
  | some conn =>
    { s with
      connections := s.connections.erase c
      userConnections := Function.update s.userConnections (normalizeId conn.userId)
        ((s.userConnections (normalizeId conn.userId)).filter (· ≠ c))
      symbolSubscribers := fun symbol =>
        if symbol ∈ conn.subscriptions then (s.symbolSubscribers symbol).filter (· ≠ c)
        else s.symbolSubscribers symbol }

/-- `subscribe_symbol` -/
def subscribeSymbol (c : ConnId) (s : Gateway) (symbol : String) : Gateway :=
  match s.connections.lookup c with
  | none => s
  | some conn =>
    { s with
      connections := s.connections.insert c
        { conn with subscriptions := symbol :: conn.subscriptions.erase symbol }
      symbolSubscribers := Function.update s.symbolSubscribers symbol
        (s.symbolSubscribers symbol ++ [c]) }

/-- `unsubscribe_symbol` -/
def unsubscribeSymbol (c : ConnId) (s : Gateway) (symbol : String) : Gateway :=
  match s.connections.lookup c with
  | none => s
  | some conn =>
    { s with
      connections := s.connections.insert c
        { conn with subscriptions := conn.subscriptions.erase symbol }
      symbolSubscribers := Function.update s.symbolSubscribers symbol
        ((s.symbolSubscribers symbol).filter (· ≠ c)) }

/-- `get_admin_connection_ids` -/
def adminConnectionIds (s : Gateway) : List ConnId :=
  s.connections.keys.filter fun c => (s.connections.lookup c).any (isAdminRole ·.role)

end Registry

/-- `try_dispatch_conn`. A frame that may wait is sent by a task of its own. -/
def tryDispatchConn (s : Gateway) (c : ConnId) (msg : ServerMessage) : Gateway :=
  match s.txs.lookup c with
  | none => s
  | some queue =>
    if c ∈ s.gone then { s with txs := s.txs.erase c }.unregister c
    else if queue.length < connChannelCap then
      { s with
        txs := s.txs.insert c (queue ++ [msg])
        enqueued := Function.update s.enqueued c (s.enqueued c ++ [msg]) }
    else
      match msg.priority with
      | .droppedSilently => s
      | .retried => { s with sends := s.sends ++ [(c, msg)] }
      | .dropped => s

def dispatchAll (s : Gateway) (ids : List ConnId) (msg : ServerMessage) : Gateway :=
  ids.foldl (fun s c => s.tryDispatchConn c msg) s

/-- The connections of an audience. -/
def recipients (s : Gateway) : Audience → List ConnId
  | .user userId => s.userConnections (normalizeId userId)
  | .admins => s.adminConnectionIds
  | .userAndAdmins userId => s.userConnections (normalizeId userId) ++ s.adminConnectionIds
  | .everyone => s.txs.keys

section Ticks

/-- `trim_end_matches("USDT")` -/
def trimUsdt (symbol : List Char) : ℕ → List Char
  | 0 => symbol
  | fuel + 1 =>
    if "USDT".toList <:+ symbol then trimUsdt (symbol.take (symbol.length - 4)) fuel else symbol

/-- The subscribers of a symbol, and those of its USD name that are not yet
among them. -/
def tickSubscribers (s : Gateway) (symbol : String) : List ConnId :=
  if "USDT".toList <:+ symbol.toList then
    let symbolUsd := String.ofList (trimUsdt symbol.toList symbol.length) ++ "USD"
    (s.symbolSubscribers symbolUsd).foldl (fun ids c => if c ∈ ids then ids else ids ++ [c])
      (s.symbolSubscribers symbol)
  else s.symbolSubscribers symbol

/-- The entry of `prices` for a connection: the one for its group, or else the
first. -/
def priceEntry (prices : List Json) (conn : Connection) : Option Json :=
  (conn.groupId.bind fun gid => prices.find? fun p =>
    (p.getStr "g").map normalizeId = some (normalizeId gid)).orElse fun _ => prices.head?

/-- The frame of a tick for a registered connection, or for one that is not. -/
def tickFrame (symbol : String) (now : ℤ) (payload : Json) (conn : Option Connection) :
    Option ServerMessage :=
  match (payload.get "prices").bind Json.asArray with
  | some prices =>
    match (conn.bind (priceEntry prices)).bind (·.getText "bid"),
      (conn.bind (priceEntry prices)).bind (·.getText "ask") with
    | some bid, some ask => some (.tick symbol bid ask (payload.timestamp now))
    | _, _ => none
  | none =>
    match payload.getText "bid", payload.getText "ask" with
    | some bid, some ask => some (.tick symbol bid ask (payload.timestamp now))
    | _, _ => none

/-- One round of the loop of `broadcast_tick`. -/
def dispatchTick (symbol : String) (now : ℤ) (payload : Json) (s : Gateway) (c : ConnId) :
    Gateway :=
  match tickFrame symbol now payload (s.connections.lookup c) with
  | some msg => s.tryDispatchConn c msg
  | none => s

/-- `broadcast_tick` -/
def broadcastTick (s : Gateway) (now : ℤ) (payload : Json) : Gateway :=
  match payload.getStr "symbol" with
  | none => s
  | some symbol => (s.tickSubscribers symbol).foldl (dispatchTick symbol now payload) s

end Ticks

/-- One message of the broadcaster's task. An error is only logged. -/
def handle (s : Gateway) (m : Message) (now : ℤ) : Gateway :=
  if m.channel = "price:ticks" then s.broadcastTick now m.payload
  else
    match handleMessage now m.payload m.channel with
    | none => s
    | some (audience, msg) => s.dispatchAll (s.recipients audience) msg

/-- The symbols of a request, each once. -/
def requestedSymbols (symbols : List String) : List String :=
  (symbols.filterMap normalizeSubscriptionSymbol).eraseDups

/-- The claims of a session that is authenticated now. -/
def authenticate (s : Gateway) (c : ConnId) (claims : Claims) : Gateway :=
  match s.sessions.lookup c with
  | some ⟨none, true⟩ =>
    { s with sessions := s.sessions.insert c ⟨some claims, true⟩ }.register c
      ⟨claims.sub, claims.role, claims.groupId, []⟩
  | _ => s

/-- The next frame is taken from the queue. -/
def drain (s : Gateway) (c : ConnId) : Gateway :=
  match s.txs.lookup c with
  | none => s
  | some queue => { s with txs := s.txs.insert c queue.tail }

/-- The first spawned send for a connection, when it finds room or the
receiver gone. -/
def retry (s : Gateway) (c : ConnId) : Gateway :=
  match s.sends.find? (·.1 = c) with
  | none => s
  | some (_, msg) =>
    let left := { s with sends := s.sends.eraseP (·.1 = c) }
    match s.txs.lookup c with
    | none => left
    | some queue =>
      if c ∈ s.gone then left
      else if queue.length < connChannelCap then
        { left with
          txs := s.txs.insert c (queue ++ [msg])
          enqueued := Function.update s.enqueued c (s.enqueued c ++ [msg]) }
      else s

/-- The cleanup at the end of a session. -/
def endSession (s : Gateway) (c : ConnId) : Gateway :=
  match s.sessions.lookup c with
  | some session =>
    { s with
      sessions := s.sessions.insert c { session with live := false }
      txs := s.txs.erase c
      gone := c :: s.gone }.unregister c
  | none => s

def step (s : Gateway) : GatewayAction → Option Gateway
  | .connect c =>
    if s.sessions.lookup c = none then
      some { s with
        sessions := s.sessions.insert c ⟨none, true⟩
        txs := s.txs.insert c [] }
    else none
  | .authenticate c claims => some (s.authenticate c claims)
  | .subscribe c symbols => some ((requestedSymbols symbols).foldl (subscribeSymbol c) s)
  | .unsubscribe c symbols => some ((requestedSymbols symbols).foldl (unsubscribeSymbol c) s)
  | .publish p now => some (s.handle p.message now)
  | .deliver m now => some (s.handle m now)
  | .drain c => some (s.drain c)
  | .retry c => some (s.retry c)
  | .receiverEnds c => some { s with gone := c :: s.gone }
  | .endSession c => some (s.endSession c)

end Gateway

end TradingPlatform
