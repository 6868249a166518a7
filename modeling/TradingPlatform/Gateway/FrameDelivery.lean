import TradingPlatform.Gateway.RegistryInvariant

namespace TradingPlatform

/-- The frames that must not be lost: what the user holds and owes. -/
def ServerMessage.financial : ServerMessage → Bool
  | .orderUpdate _ _ _ _ _ _ _ => true
  | .positionUpdate _ _ _ _ _ _ _ _ => true
  | .accountSummaryUpdated _ => true
  | .walletBalanceUpdated _ => true
  | _ => false

/-- A spawned send that nobody has polled, that waits for a permit with the
number it drew, or that has been given one. -/
inductive SendStage
  | spawned
  | waiting (ticket : ℕ)
  | granted
  deriving DecidableEq, Repr

structure SpawnedSend where
  frame : ServerMessage
  stage : SendStage

namespace SpawnedSend

def ticket (send : SpawnedSend) : Option ℕ :=
  match send.stage with
  | .waiting n => some n
  | _ => none

/-- The permit of the frame that was taken goes to the send that has waited longest. -/
def grant (sends : List SpawnedSend) : List SpawnedSend :=
  match (sends.filterMap ticket).min? with
  | none => sends
  | some first =>
    sends.map fun send => if send.ticket = some first then { send with stage := .granted } else send

end SpawnedSend

/-- The channel of a connection, the sends spawned for it in their order, and
what the client has received. -/
structure Outbound where
  isOpen : Bool
  queue : List ServerMessage
  sends : List SpawnedSend
  tickets : ℕ
  received : List ServerMessage

namespace Outbound

def opened : Outbound := ⟨true, [], [], 0, []⟩

/-- A permit is free: neither a frame nor a send that was granted one has it. -/
def room (cap : ℕ) (o : Outbound) : Bool :=
  decide (o.queue.length + o.sends.countP (·.stage = .granted) < cap)

/-- `try_send` to an open receiver, and what becomes of a frame that finds the
queue full. -/
def offer (cap : ℕ) (msg : ServerMessage) (o : Outbound) : Outbound :=
  if o.room cap then { o with queue := o.queue ++ [msg] }
  else
    match msg.priority with
    | .droppedSilently => o
    | .retried => { o with sends := o.sends ++ [⟨msg, .spawned⟩] }
    | .dropped => o

/-- A spawned send is polled for the first time. -/
def poll (cap : ℕ) (o : Outbound) (i : ℕ) : Option Outbound :=
  match o.sends[i]? with
  | some send =>
    if send.stage ≠ .spawned then none
    else if o.room cap then
      some { o with queue := o.queue ++ [send.frame], sends := o.sends.eraseIdx i }
    else
      some { o with
        sends := o.sends.set i ⟨send.frame, .waiting o.tickets⟩
        tickets := o.tickets + 1 }
  | none => none

/-- A send that was granted a permit puts its frame in the queue. -/
def resume (o : Outbound) (i : ℕ) : Option Outbound :=
  match o.sends[i]? with
  | some send =>
    if send.stage = .granted then
      some { o with queue := o.queue ++ [send.frame], sends := o.sends.eraseIdx i }
    else none
  | none => none

/-- The send task writes the next frame to the socket. -/
def forward (o : Outbound) : Option Outbound :=
  match o.queue with
  | msg :: rest =>
    some { o with
      queue := rest
      sends := SpawnedSend.grant o.sends
      received := o.received ++ [msg] }
  | [] => none

end Outbound

/-- The registry, `connection_txs` with what is behind each sender, and for each
connection the financial frames published for its user since it registered. -/
structure FrameDelivery where
  registry : ConnectionRegistry
  outbound : FiniteTable ConnId Outbound
  published : ConnId → List ServerMessage

inductive DeliveryAction
  | connect (c : ConnId)
  | register (c : ConnId) (claims : Claims) (now : ℕ)
  | subscribeSymbol (c : ConnId) (symbol : String) (channels : List String) (now : ℕ)
  | unsubscribeSymbol (c : ConnId) (symbol : String)
  | handle (m : Message) (now : ℤ)
  | poll (c : ConnId) (i : ℕ)
  | resume (c : ConnId) (i : ℕ)
  | forward (c : ConnId)
  | receiverEnds (c : ConnId)
  | endSession (c : ConnId)

/-- The frame of a message that is published for one user. -/
def Message.publishedFor (m : Message) (now : ℤ) (key : String) : List ServerMessage :=
  match handleMessage now m.payload m.channel with
  | some (.user userId, msg) =>
    if normalizeId userId = key ∧ msg.financial = true then [msg] else []
  | _ => []

namespace FrameDelivery

def started : FrameDelivery := ⟨.empty, ∅, fun _ => []⟩

/-- `try_dispatch_conn` -/
def tryDispatchConn (cap : ℕ) (s : FrameDelivery) (c : ConnId) (msg : ServerMessage) :
    FrameDelivery :=
  match s.outbound.lookup c with
  | none => s
  | some o =>
    if o.isOpen then { s with outbound := s.outbound.insert c (o.offer cap msg) }
    else { s with outbound := s.outbound.erase c, registry := s.registry.unregister c }

def dispatchAll (cap : ℕ) (s : FrameDelivery) (ids : List ConnId) (msg : ServerMessage) :
    FrameDelivery :=
  ids.foldl (fun s c => s.tryDispatchConn cap c msg) s

/-- `get_user_connections` -/
def userConnections (s : FrameDelivery) (userId : String) : List ConnId :=
  ListIndex.listed s.registry.userConnections (normalizeId userId)

/-- `get_admin_connection_ids` -/
def adminConnectionIds (s : FrameDelivery) : List ConnId :=
  s.registry.connections.keys.filter fun c =>
    (s.registry.connections.lookup c).any (isAdminRole ·.role)

def recipients (s : FrameDelivery) : Audience → List ConnId
  | .user userId => s.userConnections userId
  | .admins => s.adminConnectionIds
  | .userAndAdmins userId => s.userConnections userId ++ s.adminConnectionIds
  | .everyone => s.outbound.keys

/-- The subscribers of a symbol, and those of its USD name that are not yet
among them. -/
def tickSubscribers (s : FrameDelivery) (symbol : String) : List ConnId :=
  if "USDT".toList <:+ symbol.toList then
    let symbolUsd := String.ofList (Gateway.trimUsdt symbol.toList symbol.length) ++ "USD"
    (ListIndex.listed s.registry.symbolSubscribers symbolUsd).foldl
      (fun ids c => if c ∈ ids then ids else ids ++ [c])
      (ListIndex.listed s.registry.symbolSubscribers symbol)
  else ListIndex.listed s.registry.symbolSubscribers symbol

/-- One round of the loop of `broadcast_tick`. -/
def dispatchTick (cap : ℕ) (symbol : String) (now : ℤ) (payload : Json) (s : FrameDelivery)
    (c : ConnId) : FrameDelivery :=
  match Gateway.tickFrame symbol now payload ((s.registry.connections.lookup c).map fun conn =>
      ⟨conn.userId, conn.role, conn.groupId, conn.subscriptions.keys⟩) with
  | some msg => s.tryDispatchConn cap c msg
  | none => s

/-- `broadcast_tick` -/
def broadcastTick (cap : ℕ) (s : FrameDelivery) (now : ℤ) (payload : Json) : FrameDelivery :=
  match payload.getStr "symbol" with
  | none => s
  | some symbol => (s.tickSubscribers symbol).foldl (dispatchTick cap symbol now payload) s

/-- `handle_message` -/
def handleMessage (cap : ℕ) (s : FrameDelivery) (m : Message) (now : ℤ) : FrameDelivery :=
  if m.channel = "price:ticks" then s.broadcastTick cap now m.payload
  else
    match TradingPlatform.handleMessage now m.payload m.channel with
    | none => s
    | some (audience, msg) => s.dispatchAll cap (s.recipients audience) msg

/-- What a message adds to the frames published for the user of a connection. -/
def publish (s : FrameDelivery) (m : Message) (now : ℤ) (c : ConnId) : List ServerMessage :=
  match s.registry.connections.lookup c with
  | some conn => s.published c ++ m.publishedFor now (normalizeId conn.userId)
  | none => s.published c

/-- What a channel does by itself. -/
def setOutbound (s : FrameDelivery) (c : ConnId) (next : Outbound → Option Outbound) :
    Option FrameDelivery :=
  match s.outbound.lookup c with
  | some o =>
    if o.isOpen then (next o).map fun o' => { s with outbound := s.outbound.insert c o' } else none
  | none => none

def step (cap : ℕ) (s : FrameDelivery) : DeliveryAction → Option FrameDelivery
  | .connect c =>
    if s.outbound.lookup c = none ∧ s.registry.connections.lookup c = none then
      some { s with
        outbound := s.outbound.insert c .opened
        published := Function.update s.published c [] }
    else none
  | .register c claims now =>
    if s.registry.connections.lookup c = none ∧ (s.outbound.lookup c).isSome then
      some { s with
        registry := s.registry.register c ⟨claims.sub, claims.groupId, claims.role, ∅, now⟩ }
    else none
  | .subscribeSymbol c symbol channels now =>
    some { s with registry := s.registry.subscribeSymbol c symbol channels now }
  | .unsubscribeSymbol c symbol => some { s with registry := s.registry.unsubscribeSymbol c symbol }
  | .handle m now => some { s.handleMessage cap m now with published := s.publish m now }
  | .poll c i => s.setOutbound c (·.poll cap i)
  | .resume c i => s.setOutbound c (·.resume i)
  | .forward c => s.setOutbound c Outbound.forward
  | .receiverEnds c => s.setOutbound c fun o => some { o with isOpen := false, sends := [] }
  | .endSession c =>
    some { s with outbound := s.outbound.erase c, registry := s.registry.unregister c }

/-- A financial frame that finds room finds no earlier one waiting, and one that
finds none is of a kind that is sent again. -/
def Passes (cap : ℕ) (s : FrameDelivery) : Option (Audience × ServerMessage) → Prop
  | some (.user userId, msg) =>
    ∀ c ∈ s.userConnections userId, ∀ o ∈ s.outbound.lookup c, msg.financial = true →
      o.isOpen = true →
        (o.room cap = true → o.sends.isEmpty = true) ∧
          (o.room cap = false → msg.priority = .retried)
  | _ => True

instance (cap : ℕ) (s : FrameDelivery) (routed : Option (Audience × ServerMessage)) :
    Decidable (s.Passes cap routed) :=
  match routed with
  | some (.user userId, msg) =>
    inferInstanceAs (Decidable (∀ c ∈ s.userConnections userId, ∀ o ∈ s.outbound.lookup c,
      msg.financial = true → o.isOpen = true →
        (o.room cap = true → o.sends.isEmpty = true) ∧
          (o.room cap = false → msg.priority = .retried)))
  | some (.admins, _) => isTrue trivial
  | some (.userAndAdmins _, _) => isTrue trivial
  | some (.everyone, _) => isTrue trivial
  | none => isTrue trivial

/-- Messages pass, and of the sends that wait the oldest puts its frame in the queue. -/
def InOrder (cap : ℕ) (s : FrameDelivery) : DeliveryAction → Prop
  | .handle m now => s.Passes cap (TradingPlatform.handleMessage now m.payload m.channel)
  | .poll c i => ∀ o ∈ s.outbound.lookup c, o.room cap = true → i = 0
  | .resume _ i => i = 0
  | _ => True

instance (cap : ℕ) (s : FrameDelivery) (action : DeliveryAction) :
    Decidable (s.InOrder cap action) :=
  match action with
  | .handle m now =>
    inferInstanceAs (Decidable (s.Passes cap (TradingPlatform.handleMessage now m.payload
      m.channel)))
  | .poll c i => inferInstanceAs (Decidable (∀ o ∈ s.outbound.lookup c, o.room cap = true → i = 0))
  | .resume _ i => inferInstanceAs (Decidable (i = 0))
  | .connect _ => isTrue trivial
  | .register _ _ _ => isTrue trivial
  | .subscribeSymbol _ _ _ _ => isTrue trivial
  | .unsubscribeSymbol _ _ => isTrue trivial
  | .forward _ => isTrue trivial
  | .receiverEnds _ => isTrue trivial
  | .endSession _ => isTrue trivial

end FrameDelivery

end TradingPlatform
