import TradingPlatform.Library.StepRuns
import TradingPlatform.Pricing.SymbolKeys

namespace TradingPlatform

/-- The URLs of the price stream, with and without a token, and what the
client finds out about URLs. `constructs` says whether `new WebSocket` succeeds. -/
structure PriceUrls where
  gateway : String
  fallback : String
  isGatewayUrl : String → Bool
  priceWsUrlsMatch : String → String → Bool
  constructs : String → Bool

inductive ReadyState
  | CONNECTING | OPEN | CLOSING | CLOSED
  deriving DecidableEq, Repr

/-- A socket with the `subscribe` frames sent on it, each in the protocol of the
gateway or in the one of the data provider. -/
structure StreamSocket where
  url : String
  gatewayMode : Bool
  readyState : ReadyState
  frames : List (Bool × List String)
  deriving DecidableEq, Repr

/-- What awaits `ensureValidAccessToken`: `sendGatewayAuthWithFreshToken`, or the
handler of an `auth_error`. -/
inductive AuthCall
  | sendGatewayAuth
  | afterAuthError
  deriving DecidableEq, Repr

/-- `PriceStreamClient`, its sockets in the order they were created, its timers
and the calls that await a token. `wanted` records the symbols subscribed to
since the last `disconnect` and not unsubscribed from. -/
structure PriceStream where
  sockets : ℕ → Option StreamSocket
  created : ℕ
  ws : Option ℕ
  authToken : Option String
  authenticated : Bool
  timers : List ℕ
  nextTimer : ℕ
  reconnectTimeout : Option ℕ
  pendingSymbols : List String
  subscribedSymbols : List String
  priceStreamAuthPaused : Bool
  calls : List AuthCall
  wanted : List String

/-- A call of the client, an event of one of its sockets, a timer, or a token
that a call has waited for. -/
inductive StreamAction
  | setAuthToken (token : Option String)
  | subscribe (symbols : List String)
  | resyncSymbolSubscriptions (symbols : List String)
  | unsubscribe (symbols : List String)
  | disconnect
  | opened (i : ℕ)
  | authSuccess (i : ℕ)
  | authError (i : ℕ)
  | closed (i : ℕ)
  | timer (n : ℕ)
  | resume (n : ℕ) (token : Option String)
  deriving DecidableEq, Repr

namespace PriceStream

def new : PriceStream where
  sockets := fun _ => none
  created := 0
  ws := none
  authToken := none
  authenticated := false
  timers := []
  nextTimer := 0
  reconnectTimeout := none
  pendingSymbols := []
  subscribedSymbols := []
  priceStreamAuthPaused := false
  calls := []
  wanted := []

/-- `this.ws?.readyState` -/
def wsState (s : PriceStream) : Option ReadyState := (s.ws.bind s.sockets).map (·.readyState)

def setSocket (s : PriceStream) (i : ℕ) (socket : StreamSocket) : PriceStream :=
  { s with sockets := Function.update s.sockets i (some socket) }

/-- `this.ws?.close()` -/
def closeSocket (s : PriceStream) : PriceStream :=
  match s.ws with
  | none => s
  | some i =>
    match s.sockets i with
    | none => s
    | some socket =>
      if socket.readyState = .CONNECTING ∨ socket.readyState = .OPEN then
        s.setSocket i { socket with readyState := .CLOSING }
      else s

def clearReconnect (s : PriceStream) : PriceStream :=
  match s.reconnectTimeout with
  | none => s
  | some n => { s with timers := s.timers.erase n, reconnectTimeout := none }

/-- `[...new Set([...this.pendingSymbols, ...symbols])]` -/
def keepPending (s : PriceStream) (symbols : List String) : PriceStream :=
  { s with pendingSymbols := (s.pendingSymbols ++ symbols).eraseDups }

section Urls
variable (urls : PriceUrls) (s : PriceStream)

def getEffectiveUrl : String := if s.authToken.isSome then urls.gateway else urls.fallback

/-- `isGatewayUrl(this.getEffectiveUrl())` -/
def gatewayMode : Bool := urls.isGatewayUrl (s.getEffectiveUrl urls)

def connect : PriceStream :=
  if s.priceStreamAuthPaused then s
  else if s.wsState = some .OPEN ∨ s.wsState = some .CONNECTING then s
  else
    let url := s.getEffectiveUrl urls
    if urls.constructs url then
      { s.setSocket s.created ⟨url, urls.isGatewayUrl url, .CONNECTING, []⟩ with
        created := s.created + 1, ws := some s.created }
    else { s with ws := none }

def sendSubscribe (symbols : List String) : PriceStream :=
  match s.ws.bind fun i => (s.sockets i).map (i, ·) with
  | some (i, socket) =>
    if socket.readyState = .OPEN ∧ (s.gatewayMode urls = true → s.authenticated = true) then
      { s.setSocket i { socket with frames := socket.frames ++ [(s.gatewayMode urls, symbols)] } with
        subscribedSymbols := (s.subscribedSymbols ++ symbols).eraseDups }
    else s.keepPending symbols
  | none => s.keepPending symbols

/-- The waiting symbols are sent, or wait again. -/
def flush (symbols : List String) : PriceStream :=
  let batch := normalizeWsSubscribeSymbols symbols
  let s := { s with pendingSymbols := [] }
  if batch = [] then s else s.sendSubscribe urls batch

def isPriceStreamReady : Bool :=
  if s.gatewayMode urls then s.wsState = some .OPEN && s.authenticated
  else s.wsState = some .OPEN

def setAuthToken (token : Option String) : PriceStream :=
  match token with
  | none => { s with authToken := none, authenticated := false, priceStreamAuthPaused := false }
  | some token =>
    let s := { s with authToken := some token, priceStreamAuthPaused := false }
    match s.ws.bind s.sockets with
    | none => s.connect urls
    | some socket =>
      match socket.readyState with
      | .OPEN =>
        if urls.priceWsUrlsMatch socket.url (s.getEffectiveUrl urls) then
          if s.gatewayMode urls then { s with calls := s.calls ++ [.sendGatewayAuth] } else s
        else (s.keepPending s.subscribedSymbols).closeSocket
      | .CLOSED => s.connect urls
      | .CONNECTING => s
      | .CLOSING => s

def subscribe (symbols : List String) : PriceStream :=
  let normalized := normalizeWsSubscribeSymbols symbols
  if normalized = [] then s
  else
    { (s.connect urls).sendSubscribe urls normalized with wanted := s.wanted ++ normalized }

def unsubscribe (symbols : List String) : PriceStream :=
  let keys := symbols.map normalizeSymbolKey
  { s with
    subscribedSymbols := s.subscribedSymbols.filter (· ∉ keys)
    wanted := s.wanted.filter (· ∉ keys) }

def disconnect : PriceStream :=
  { s.clearReconnect.closeSocket with
    ws := none
    authenticated := false
    pendingSymbols := []
    subscribedSymbols := []
    priceStreamAuthPaused := false
    wanted := [] }

def onopen (socket : StreamSocket) : PriceStream :=
  let s := { s with authenticated := !socket.gatewayMode }
  if socket.gatewayMode then { s with calls := s.calls ++ [.sendGatewayAuth] }
  else s.flush urls (s.subscribedSymbols ++ s.pendingSymbols)

def onAuthSuccess : PriceStream :=
  let s := { s with authenticated := true }
  if s.pendingSymbols = [] then s else s.flush urls s.pendingSymbols

def onclose : PriceStream :=
  let s := { s with ws := none, authenticated := false }.keepPending s.subscribedSymbols
  if s.priceStreamAuthPaused then s
  else
    { s with
      timers := s.nextTimer :: s.timers
      nextTimer := s.nextTimer + 1
      reconnectTimeout := some s.nextTimer }

/-- The rest of a call that got this token. -/
def resumed (token : Option String) : AuthCall → PriceStream
  | .sendGatewayAuth => { s with authToken := token.or s.authToken }
  | .afterAuthError =>
    match token with
    | some token =>
      if s.wsState = some .OPEN ∧ s.gatewayMode urls = true then { s with authToken := some token }
      else s
    | none =>
      if s.gatewayMode urls then
        { s with priceStreamAuthPaused := true }.clearReconnect.closeSocket
      else s

/-- An event of a socket takes place in its ready state; only gateways reply. -/
def step : StreamAction → Option PriceStream
  | .setAuthToken token => some (s.setAuthToken urls token)
  | .subscribe symbols => some (s.subscribe urls symbols)
  | .resyncSymbolSubscriptions symbols => some (s.subscribe urls symbols)
  | .unsubscribe symbols => some (s.unsubscribe symbols)
  | .disconnect => some s.disconnect
  | .opened i => (s.sockets i).bind fun socket =>
    if socket.readyState = .CONNECTING then
      some ((s.setSocket i { socket with readyState := .OPEN }).onopen urls socket)
    else none
  | .authSuccess i => (s.sockets i).bind fun socket =>
    if socket.readyState = .OPEN ∧ socket.gatewayMode = true then some (s.onAuthSuccess urls)
    else none
  | .authError i => (s.sockets i).bind fun socket =>
    if socket.readyState = .OPEN ∧ socket.gatewayMode = true then
      some { s with authenticated := false, calls := s.calls ++ [.afterAuthError] }
    else none
  | .closed i => (s.sockets i).bind fun socket =>
    if socket.readyState = .CLOSED then none
    else some (s.setSocket i { socket with readyState := .CLOSED }).onclose
  | .timer n =>
    if n ∈ s.timers then some ({ s with timers := s.timers.erase n }.connect urls) else none
  | .resume n token =>
    (s.calls[n]?).map fun call => { s with calls := s.calls.eraseIdx n }.resumed urls token call

end Urls

end PriceStream

end TradingPlatform
