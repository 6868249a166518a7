import TradingPlatform.Gateway.SessionTasks

namespace TradingPlatform

/-- `wsClient` and `priceStreamClient`, each with one socket to the gateway. -/
inductive SocketClient
  | ws
  | price
  deriving DecidableEq, Repr

inductive SocketPhase
  | closed
  | opening
  | opened
  deriving DecidableEq, Repr

/-- A client's socket: whether the client has taken itself for authenticated,
the `auth` messages on their way, the claims that the server's session has
registered, its replies on their way, `auth_success` or `auth_error`, and
whether a reconnect timer runs. -/
structure PageSocket where
  phase : SocketPhase
  authenticated : Bool
  sent : List Claims
  session : Option Claims
  replies : List Bool
  reconnect : Bool
  deriving DecidableEq, Repr

/-- Why a client asks the store for a token: to authenticate a socket that has
opened, to do so again after a refresh, or after an `auth_error`. The timer of
the store only refreshes. -/
inductive CallKind
  | authenticate
  | resend
  | retry
  | refresh
  deriving DecidableEq, Repr

/-- A call of `ensureValidAccessToken`: before it, while the refresh token is
exchanged, and while the user is fetched. -/
inductive CallStage
  | waiting
  | refreshing (account : String)
  | refreshed
  deriving DecidableEq, Repr

structure TokenCall where
  client : SocketClient
  kind : CallKind
  stage : CallStage
  deriving DecidableEq, Repr

/-- The store's tokens, the sockets with the sessions they have on the server,
`priceStreamAuthPaused`, whether a component with the price stream is mounted,
its effects that wait, and the calls for a token. A refresh token stands for
the account that it refreshes. -/
structure BrowserPage where
  accessToken : Option Claims
  refreshToken : Option String
  sockets : SocketClient → PageSocket
  paused : Bool
  mounted : Bool
  effects : ℕ
  calls : List TokenCall

inductive PageAction
  | login (claims : Claims)
  | logout
  | setTokens (claims : Claims) (account : String)
  | setImpersonationTokens (claims : Claims) (account : String)
  | refreshTimer
  | begin (i : ℕ) (unexpired : Bool)
  | refreshReturns (i : ℕ) (result : Option Claims)
  | userReturns (i : ℕ) (ok : Bool)
  | connect (c : SocketClient)
  | opened (c : SocketClient)
  | closed (c : SocketClient) (again : Bool)
  | reconnect (c : SocketClient)
  | serverReads (c : SocketClient) (valid : Bool)
  | reply (c : SocketClient)
  | mount
  | unmount
  | effect

/-- A closed socket. -/
def PageSocket.down (reconnect : Bool) : PageSocket := ⟨.closed, false, [], none, [], reconnect⟩

namespace BrowserPage

def loaded : BrowserPage := ⟨none, none, fun _ => .down false, false, false, 0, []⟩

def setSocket (s : BrowserPage) (c : SocketClient) (socket : PageSocket) : BrowserPage :=
  { s with sockets := Function.update s.sockets c socket }

def call (s : BrowserPage) (c : SocketClient) (kind : CallKind) : BrowserPage :=
  { s with calls := s.calls ++ [⟨c, kind, .waiting⟩] }

/-- A write to the store; the effect of a mounted component depends on the
access token. -/
def setStore (s : BrowserPage) (accessToken : Option Claims) (refreshToken : Option String) :
    BrowserPage :=
  { s with
    accessToken := accessToken
    refreshToken := refreshToken
    effects := if s.mounted then s.effects + 1 else s.effects }

/-- `connect` of either client returns when there is a socket. -/
def connect (s : BrowserPage) (c : SocketClient) : BrowserPage :=
  if (s.sockets c).phase = .closed ∧ ¬(c = .price ∧ s.paused = true) then
    s.setSocket c { s.sockets c with phase := .opening }
  else s

def send (s : BrowserPage) (c : SocketClient) (token : Claims) : BrowserPage :=
  if (s.sockets c).phase = .opened then
    s.setSocket c { s.sockets c with sent := (s.sockets c).sent ++ [token] }
  else s

/-- `setAuthToken` of the price stream. -/
def setAuthToken (s : BrowserPage) (token : Option Claims) : BrowserPage :=
  match token with
  | none => { s with paused := false }
  | some _ =>
    match (s.sockets .price).phase with
    | .opened => { s with paused := false }.call .price .authenticate
    | .closed => { s with paused := false }.connect .price
    | .opening => { s with paused := false }

/-- What the caller of `ensureValidAccessToken` does with the result. -/
def finish (s : BrowserPage) (c : SocketClient) (token : Option Claims) : CallKind → BrowserPage
  | .authenticate =>
    match token with
    | some token =>
      if c = .ws ∧ (s.sockets c).authenticated = true then s else s.send c token
    | none => s
  | .resend =>
    match token with
    | some token => s.send c token
    | none => s
  | .retry =>
    match token with
    | some token => s.send c token
    | none =>
      if c = .price then { s with paused := true }.setSocket .price (.down false) else s
  | .refresh => s

def drop (s : BrowserPage) (i : ℕ) : BrowserPage := { s with calls := s.calls.eraseIdx i }

def setStage (s : BrowserPage) (i : ℕ) (call : TokenCall) (stage : CallStage) : BrowserPage :=
  { s with calls := s.calls.set i { call with stage := stage } }

/-- `refreshAccessToken` hands the new token to both clients. -/
def notify (s : BrowserPage) : BrowserPage :=
  match s.accessToken with
  | some token => (s.setAuthToken (some token)).call .ws .resend
  | none => s

/-- The server's session ignores `auth` once it is authenticated. -/
def receive (socket : PageSocket) (token : Claims) (valid : Bool) : PageSocket :=
  if socket.session.isSome then socket
  else if valid then
    { socket with session := some token, replies := socket.replies ++ [true] }
  else { socket with replies := socket.replies ++ [false] }

/-- One step of the store, of a client, of a component, of the network or of
the server. -/
def step (s : BrowserPage) : PageAction → Option BrowserPage
  | .login claims => some ((s.setStore (some claims) (some claims.sub)).connect .ws)
  | .logout => some (s.setStore none none)
  | .setTokens claims account =>
    let s := s.setStore (some claims) (some account)
    some (if (s.sockets .ws).phase = .opened then s.call .ws .resend else s)
  | .setImpersonationTokens claims account => some (s.setStore (some claims) (some account))
  | .refreshTimer =>
    match s.refreshToken with
    | some account => some { s with calls := s.calls ++ [⟨.ws, .refresh, .refreshing account⟩] }
    | none => none
  | .begin i unexpired =>
    match s.calls[i]? with
    | some call =>
      if call.stage = .waiting then
        match s.accessToken with
        | none => some ((s.drop i).finish call.client none call.kind)
        | some token =>
          if unexpired then some ((s.drop i).finish call.client (some token) call.kind)
          else
            match s.refreshToken with
            | some account => some (s.setStage i call (.refreshing account))
            | none => some ((s.drop i).finish call.client none call.kind)
      else none
    | none => none
  | .refreshReturns i result =>
    match s.calls[i]? with
    | some call =>
      match call.stage with
      | .refreshing account =>
        match result with
        | some claims =>
          if claims.sub = account then
            some ((s.setStage i call .refreshed).setStore (some claims) s.refreshToken)
          else none
        | none => some ((s.drop i).finish call.client none call.kind)
      | _ => none
    | none => none
  | .userReturns i ok =>
    match s.calls[i]? with
    | some call =>
      if call.stage = .refreshed then
        if ok then some ((s.drop i).notify.finish call.client s.accessToken call.kind)
        else some ((s.drop i).finish call.client none call.kind)
      else none
    | none => none
  | .connect c => some (s.connect c)
  | .opened c =>
    if (s.sockets c).phase = .opening then
      let socket := { PageSocket.down (s.sockets c).reconnect with phase := .opened }
      some ((s.setSocket c socket).call c .authenticate)
    else none
  | .closed c again =>
    if (s.sockets c).phase = .closed then none
    else
      let timer := again && !(c = .price && s.paused)
      some (s.setSocket c (.down ((s.sockets c).reconnect || timer)))
  | .reconnect c =>
    if (s.sockets c).reconnect = true then
      some ((s.setSocket c { s.sockets c with reconnect := false }).connect c)
    else none
  | .serverReads c valid =>
    match (s.sockets c).sent with
    | token :: rest => some (s.setSocket c (receive { s.sockets c with sent := rest } token valid))
    | [] => none
  | .reply c =>
    match (s.sockets c).replies with
    | accepted :: rest =>
      let s := s.setSocket c { s.sockets c with replies := rest, authenticated := accepted }
      some (if accepted then s else s.call c .retry)
    | [] => none
  | .mount => some { s with mounted := true, effects := s.effects + 1 }
  | .unmount => some { s with mounted := false }
  | .effect =>
    match s.effects with
    | n + 1 => some ({ s with effects := n }.setAuthToken s.accessToken)
    | 0 => none

end BrowserPage

end TradingPlatform
