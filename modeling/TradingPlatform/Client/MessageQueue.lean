import TradingPlatform.Client.PriceStream

namespace TradingPlatform.EventSocket

open StepRuns

inductive ConnectionState
  | disconnected | connecting | connected | authenticated
  deriving DecidableEq, Repr

/-- What passes over a socket: the client's frames and the gateway's
`auth_success`. -/
inductive Frame (M : Type)
  | auth (token : String)
  | message (m : M)
  | channels (admin : Bool)
  | authSuccess
  deriving DecidableEq, Repr

def Frame.isAuth {M : Type} : Frame M → Bool
  | .auth _ => true
  | .message _ => false
  | .channels _ => false
  | .authSuccess => false

def Frame.message? {M : Type} : Frame M → Option M
  | .auth _ => none
  | .message m => some m
  | .channels _ => none
  | .authSuccess => none

/-- A `WsOutboundEvent`; `send` treats all but `auth` alike. -/
inductive Outbound (M : Type)
  | auth (token : String)
  | message (m : M)
  deriving DecidableEq, Repr

/-- A `setTimeout` of an event handler. -/
inductive Delay
  | authenticate
  | channels (admin : Bool)
  deriving DecidableEq, Repr

/-- What awaits `ensureValidAccessToken`. -/
inductive TokenWait
  | authenticateAsync
  | afterAuthError
  | reauthenticate
  deriving DecidableEq, Repr

/-- `WebSocketClient`, its sockets in the order they were created, its timers and
the calls that await a token. `traffic` records what passed over which socket,
`asked` the messages passed to `send`. -/
structure WsClient (M : Type) where
  sockets : ℕ → Option ReadyState
  created : ℕ
  ws : Option ℕ
  state : ConnectionState
  isAuthenticated : Bool
  shouldReconnect : Bool
  reconnectAttempts : ℕ
  timers : List ℕ
  nextTimer : ℕ
  reconnectTimeout : Option ℕ
  messageQueue : List M
  delays : List Delay
  calls : List TokenWait
  traffic : List (ℕ × Frame M)
  asked : List M

/-- A call of the client, an event of one of its sockets, a timer, or a token that
a call has waited for. `user` is whether the user of the page is an admin. -/
inductive WsAction (M : Type)
  | connect
  | disconnect
  | send (event : Outbound M)
  | reauthenticate
  | opened (i : ℕ)
  | authSuccess (i : ℕ) (user : Option Bool)
  | authError (i : ℕ)
  | closing (i : ℕ)
  | closed (i : ℕ)
  | timer (n : ℕ)
  | delay (n : ℕ)
  | resume (n : ℕ) (token : Option String)
  deriving DecidableEq, Repr

namespace WsClient
variable {M : Type}

def new : WsClient M where
  sockets := fun _ => none
  created := 0
  ws := none
  state := .disconnected
  isAuthenticated := false
  shouldReconnect := true
  reconnectAttempts := 0
  timers := []
  nextTimer := 0
  reconnectTimeout := none
  messageQueue := []
  delays := []
  calls := []
  traffic := []
  asked := []

def maxReconnectAttempts : ℕ := 50

section Client
variable (constructs : Bool) (s : WsClient M)

/-- `this.ws?.readyState === WebSocket.OPEN` -/
def wsOpen : Bool := s.ws.bind s.sockets = some .OPEN

def isConnected : Bool := s.isAuthenticated && decide (s.state = .authenticated) && s.wsOpen

def setSocket (i : ℕ) (readyState : ReadyState) : WsClient M :=
  { s with sockets := Function.update s.sockets i (some readyState) }

/-- `this.ws.send` -/
def write (frame : Frame M) : WsClient M :=
  match s.ws with
  | some i => { s with traffic := s.traffic ++ [(i, frame)] }
  | none => s

def clearReconnect : WsClient M :=
  match s.reconnectTimeout with
  | some n => { s with timers := s.timers.erase n, reconnectTimeout := none }
  | none => s

def scheduleReconnect : WsClient M :=
  let s := s.clearReconnect
  { s with
    reconnectAttempts := s.reconnectAttempts + 1
    timers := s.nextTimer :: s.timers
    nextTimer := s.nextTimer + 1
    reconnectTimeout := some s.nextTimer }

/-- `constructs` says whether `new WebSocket` succeeds. -/
def connect : WsClient M :=
  if s.wsOpen then s
  else if s.state = .connecting then s
  else if constructs then
    { s.setSocket s.created .CONNECTING with
      created := s.created + 1
      ws := some s.created
      state := .connecting }
  else { s with state := .disconnected }.scheduleReconnect

/-- `this.ws.close()` -/
def closeSocket : WsClient M :=
  match s.ws with
  | some i =>
    if s.sockets i = some .CONNECTING ∨ s.sockets i = some .OPEN then s.setSocket i .CLOSING else s
  | none => s

def disconnect : WsClient M :=
  { ({ s with shouldReconnect := false }).clearReconnect.closeSocket with
    ws := none
    state := .disconnected }

def flushMessageQueue (s : WsClient M) : List M → WsClient M
  | [] => { s with messageQueue := [] }
  | m :: rest =>
    if s.isConnected then flushMessageQueue (s.write (.message m)) rest
    else { s with messageQueue := m :: rest }

def send : Outbound M → WsClient M
  | .auth token => if s.state = .connected ∧ s.wsOpen = true then s.write (.auth token) else s
  | .message m =>
    let s := { s with asked := s.asked ++ [m] }
    if s.isConnected then s.write (.message m)
    else
      let s := { s with messageQueue := s.messageQueue ++ [m] }
      if s.state = .disconnected then s.connect constructs else s

def onopen : WsClient M :=
  { s with
    state := .connected
    reconnectAttempts := 0
    delays := s.delays ++ [.authenticate] }

def onAuthSuccess (user : Option Bool) : WsClient M :=
  let s := { s with isAuthenticated := true, state := .authenticated }
  let s := s.flushMessageQueue s.messageQueue
  match user with
  | some admin => if s.wsOpen then { s with delays := s.delays ++ [.channels admin] } else s
  | none => s

def onclose : WsClient M :=
  let s := { s with isAuthenticated := false, state := .disconnected }
  if s.shouldReconnect ∧ s.reconnectAttempts < maxReconnectAttempts then s.scheduleReconnect else s

def delayed : Delay → WsClient M
  | .authenticate => { s with calls := s.calls ++ [.authenticateAsync] }
  | .channels admin => if s.wsOpen ∧ s.isAuthenticated then s.write (.channels admin) else s

/-- The rest of a call that got this token. -/
def resumed (token : String) : TokenWait → WsClient M
  | .authenticateAsync =>
    if s.state ≠ .connected ∨ s.wsOpen = false then s else s.write (.auth token)
  | .afterAuthError => if s.wsOpen then s.write (.auth token) else s
  | .reauthenticate => if s.wsOpen then s.write (.auth token) else s

/-- An event of a socket takes place in its ready state. The gateway confirms
sockets on which it was given a token. -/
def step : WsAction M → Option (WsClient M)
  | .connect => some (s.connect constructs)
  | .disconnect => some s.disconnect
  | .send event => some (s.send constructs event)
  | .reauthenticate => some { s with calls := s.calls ++ [.reauthenticate] }
  | .opened i =>
    if s.sockets i = some .CONNECTING then some (s.setSocket i .OPEN).onopen else none
  | .authSuccess i user =>
    if s.sockets i = some .OPEN ∧ s.traffic.any (fun (j, frame) => j = i && frame.isAuth) then
      some ({ s with traffic := s.traffic ++ [(i, Frame.authSuccess)] }.onAuthSuccess user)
    else none
  | .authError i =>
    if s.sockets i = some .OPEN then
      some { s with
        isAuthenticated := false
        calls := s.calls ++ [.afterAuthError] }
    else none
  | .closing i => if s.sockets i = some .OPEN then some (s.setSocket i .CLOSING) else none
  | .closed i =>
    if s.sockets i = none ∨ s.sockets i = some .CLOSED then none
    else some (s.setSocket i .CLOSED).onclose
  | .timer n =>
    if n ∈ s.timers then some ({ s with timers := s.timers.erase n }.connect constructs) else none
  | .delay n => (s.delays[n]?).map fun delay => { s with delays := s.delays.eraseIdx n }.delayed delay
  | .resume n token => (s.calls[n]?).map fun call =>
    match token with
    | some token => { s with calls := s.calls.eraseIdx n }.resumed token call
    | none => { s with calls := s.calls.eraseIdx n }

end Client

section Queue
variable {constructs : Bool} {s s' : WsClient M} {i : ℕ} {l : List (ℕ × Frame M)} {q : List M}
  {action : WsAction M} {actions : List (WsAction M)}

/-- The messages of a record of traffic, in order. -/
def messages (l : List (ℕ × Frame M)) : List M := l.filterMap fun e => e.2.message?

/-- Every message passed over a socket that the gateway had confirmed. -/
def Confirmed (l : List (ℕ × Frame M)) : Prop := ∀ i m before,
  before ++ [(i, .message m)] <+: l → (i, Frame.authSuccess) ∈ before

theorem Confirmed.snoc (confirmed : Confirmed l) {frame : Frame M}
    (known : frame.message? ≠ none → (i, Frame.authSuccess) ∈ l) : Confirmed (l ++ [(i, frame)]) := by
  intro j m before passed
  rcases List.prefix_concat_iff.mp passed with last | earlier
  · obtain ⟨rfl, same⟩ := List.append_inj' last rfl
    obtain ⟨rfl, rfl⟩ := Prod.mk.inj (List.cons.inj same).1
    exact known nofun
  · exact confirmed j m before earlier

theorem Confirmed.messages (confirmed : Confirmed l) (known : (i, Frame.authSuccess) ∈ l) :
    Confirmed (l ++ q.map fun m => (i, .message m)) := by
  induction q generalizing l with
  | nil => simpa using confirmed
  | cons m rest ih =>
    have one : Confirmed (l ++ [(i, .message m)]) := confirmed.snoc fun _ => known
    have further := ih one (List.mem_append_left _ known)
    simpa using further

theorem messages_map (i : ℕ) (q : List M) : messages (q.map fun m => (i, Frame.message m)) = q := by
  simp [messages, Frame.message?, List.filterMap_map]

theorem write_eq (current : s.ws = some i) (frame : Frame M) :
    s.write frame = { s with traffic := s.traffic ++ [(i, frame)] } := by
  rw [write, current]

theorem ws_of_wsOpen (usable : s.wsOpen = true) : ∃ i, s.ws = some i ∧ s.sockets i = some .OPEN :=
  Option.bind_eq_some_iff.mp (of_decide_eq_true usable)

/-- A connected client empties its queue onto its socket, another one keeps it. -/
theorem flushMessageQueue_eq (connected : s.isConnected = true) (current : s.ws = some i) :
    s.flushMessageQueue q = { s with
      traffic := s.traffic ++ q.map fun m => (i, .message m)
      messageQueue := [] } := by
  induction q generalizing s with
  | nil => simp [flushMessageQueue]
  | cons m rest ih =>
    rw [flushMessageQueue, if_pos connected, write_eq current]
    rw [ih (s := { s with traffic := s.traffic ++ [(i, .message m)] }) connected current]
    simp

theorem flushMessageQueue_of_not (off : s.isConnected = false) :
    s.flushMessageQueue s.messageQueue = s := by
  cases queue : s.messageQueue with
  | nil =>
    rw [flushMessageQueue, ← queue]
  | cons m rest =>
    rw [flushMessageQueue, if_neg (by simp [off]), ← queue]

/-- The client and its sockets. -/
structure Steady (s : WsClient M) : Prop where
  fresh : ∀ i, s.created ≤ i → s.sockets i = none
  passed : ∀ e ∈ s.traffic, s.sockets e.1 ≠ none ∧ s.sockets e.1 ≠ some .CONNECTING
  /-- No other open socket has been given a token. -/
  current : ∀ i, s.sockets i = some .OPEN → (s.traffic.any fun (j, frame) => j = i && frame.isAuth) →
    s.ws = some i
  known : s.state = .authenticated → ∃ i, s.ws = some i ∧ (i, Frame.authSuccess) ∈ s.traffic
  confirmed : Confirmed s.traffic
  emptied : s.isConnected = true → s.messageQueue = []
  order : messages s.traffic ++ s.messageQueue = s.asked

theorem Steady.new : Steady (.new : WsClient M) where
  fresh _ _ := rfl
  passed := nofun
  current := nofun
  known := nofun
  confirmed i m before passed := by
    have empty := List.prefix_nil.mp passed
    simp at empty
  emptied _ := rfl
  order := rfl

theorem isConnected_eq_false (off : s.state ≠ .authenticated) : s.isConnected = false := by
  simp [isConnected, off]

theorem isConnected_iff : s.isConnected = true ↔
    s.isAuthenticated = true ∧ s.state = .authenticated ∧ s.wsOpen = true := by
  simp [isConnected, and_assoc]

/-- A client that is not authenticated any more keeps its queue. -/
theorem Steady.off (steady : Steady s) (state : ConnectionState) (off : state ≠ .authenticated)
    (isAuthenticated : Bool) :
    Steady { s with state := state, isAuthenticated := isAuthenticated } where
  fresh := steady.fresh
  passed := steady.passed
  current := steady.current
  known now := absurd now off
  confirmed := steady.confirmed
  emptied now := nomatch (isConnected_eq_false off).symm.trans now
  order := steady.order

theorem Steady.clearReconnect (steady : Steady s) : Steady s.clearReconnect := by
  unfold WsClient.clearReconnect
  split
  · exact ⟨steady.fresh, steady.passed, steady.current, steady.known, steady.confirmed,
      steady.emptied, steady.order⟩
  · exact steady

theorem Steady.scheduleReconnect (steady : Steady s) : Steady s.scheduleReconnect := by
  have cleared := steady.clearReconnect
  exact ⟨cleared.fresh, cleared.passed, cleared.current, cleared.known, cleared.confirmed,
    cleared.emptied, cleared.order⟩

theorem Steady.connect (steady : Steady s) : Steady (s.connect constructs) := by
  unfold WsClient.connect
  split_ifs with usable connecting
  · exact steady
  · exact steady
  · -- A new socket: none that is open has been given a token.
    have unused : s.sockets s.created = none := steady.fresh _ le_rfl
    have other : ∀ e ∈ s.traffic, e.1 ≠ s.created := by
      intro e member same
      exact (steady.passed e member).1 (same ▸ unused)
    refine ⟨fun i later => ?_, fun e member => ?_, fun i isOpen given => ?_, nofun,
      steady.confirmed, fun now => ?_, steady.order⟩
    · have later' : s.created + 1 ≤ i := later
      have different : i ≠ s.created := by omega
      exact (Function.update_of_ne different ..).trans (steady.fresh i (by omega))
    · have same : Function.update s.sockets s.created (some .CONNECTING) e.1 = s.sockets e.1 :=
        Function.update_of_ne (other e member) ..
      simp only [setSocket, same]
      exact steady.passed e member
    · have different : i ≠ s.created := by
        rintro rfl
        have read : Function.update s.sockets s.created (some ReadyState.CONNECTING) s.created =
            some .OPEN := isOpen
        rw [Function.update_self] at read
        cases read
      have before : s.sockets i = some .OPEN :=
        (Function.update_of_ne different ..).symm.trans isOpen
      have uses := steady.current i before given
      exact absurd (decide_eq_true (by rw [uses]; exact before)) usable
    · exact nomatch (isConnected_eq_false (by nofun)).symm.trans now
  · exact (steady.off .disconnected nofun s.isAuthenticated).scheduleReconnect

/-- A socket closes. -/
theorem Steady.lowered (steady : Steady s) {r : ReadyState} (there : s.sockets i ≠ none)
    (shut : r ≠ .OPEN) (begun : r ≠ .CONNECTING) : Steady (s.setSocket i r) where
  fresh j later := by
    have different : j ≠ i := by
      rintro rfl
      exact there (steady.fresh j later)
    exact (Function.update_of_ne different ..).trans (steady.fresh j later)
  passed e member := by
    by_cases here : e.1 = i
    · simp [setSocket, here, begun]
    · simp only [setSocket, Function.update_of_ne here]
      exact steady.passed e member
  current j isOpen given := by
    by_cases here : j = i
    · have read : Function.update s.sockets i (some r) j = some .OPEN := isOpen
      rw [here, Function.update_self] at read
      exact absurd (Option.some.inj read) shut
    · exact steady.current j ((Function.update_of_ne here ..).symm.trans isOpen) given
  known := steady.known
  confirmed := steady.confirmed
  emptied now := by
    obtain ⟨authenticated, state, usable⟩ := isConnected_iff.mp now
    obtain ⟨j, uses, isOpen⟩ := ws_of_wsOpen usable
    have different : j ≠ i := by
      rintro rfl
      have read : Function.update s.sockets j (some r) j = some .OPEN := isOpen
      rw [Function.update_self] at read
      exact shut (Option.some.inj read)
    have before : s.sockets j = some .OPEN := (Function.update_of_ne different ..).symm.trans isOpen
    have uses' : s.ws = some j := uses
    refine steady.emptied (isConnected_iff.mpr ⟨authenticated, state, ?_⟩)
    exact decide_eq_true (by rw [uses']; exact before)
  order := steady.order

theorem Steady.closeSocket (steady : Steady s) : Steady s.closeSocket := by
  unfold WsClient.closeSocket
  split
  · split_ifs with alive
    · refine steady.lowered (fun absent => ?_) nofun nofun
      rw [absent] at alive
      rcases alive with connecting | usable
      · cases connecting
      · cases usable
    · exact steady
  · exact steady

theorem closeSocket_wsOpen : s.closeSocket.wsOpen = false := by
  unfold WsClient.closeSocket
  split
  · rename_i i uses
    split_ifs with alive
    · simp [wsOpen, setSocket, uses]
    · rw [not_or] at alive
      simp [wsOpen, uses, alive.2]
  · rename_i gone
    simp [wsOpen, gone]

theorem Steady.disconnect (steady : Steady s) : Steady s.disconnect := by
  have quiet : Steady { s with shouldReconnect := false } :=
    ⟨steady.fresh, steady.passed, steady.current, steady.known, steady.confirmed, steady.emptied,
      steady.order⟩
  have closed := quiet.clearReconnect.closeSocket
  refine ⟨closed.fresh, closed.passed, fun i isOpen given => ?_, nofun, closed.confirmed,
    fun now => ?_, closed.order⟩
  · have uses := closed.current i isOpen given
    have usable : WsClient.wsOpen (WsClient.closeSocket
        (WsClient.clearReconnect { s with shouldReconnect := false })) = true :=
      decide_eq_true (by rw [uses]; exact isOpen)
    exact nomatch closeSocket_wsOpen.symm.trans usable
  · exact nomatch (isConnected_eq_false (by nofun)).symm.trans now

/-- A frame that is no message goes over the open socket. -/
theorem Steady.wrote (steady : Steady s) {frame : Frame M} (usable : s.wsOpen = true)
    (kind : frame.message? = none) : Steady (s.write frame) := by
  obtain ⟨i, uses, isOpen⟩ := ws_of_wsOpen usable
  rw [write_eq uses]
  refine ⟨steady.fresh, fun e member => ?_, fun j now given => ?_, fun state => ?_,
    steady.confirmed.snoc fun some => absurd kind some, steady.emptied, ?_⟩
  · rcases List.mem_append.mp member with old | new
    · exact steady.passed e old
    · rw [List.mem_singleton.mp new, isOpen]
      exact ⟨nofun, nofun⟩
  · rw [List.any_append, Bool.or_eq_true] at given
    rcases given with old | new
    · exact steady.current j now old
    · have same : i = j := by
        simp only [List.any_cons, List.any_nil, Bool.or_false, Bool.and_eq_true,
          decide_eq_true_eq] at new
        exact new.1
      exact same ▸ uses
  · obtain ⟨k, current, success⟩ := steady.known state
    exact ⟨k, current, List.mem_append_left _ success⟩
  · have same : messages (s.traffic ++ [(i, frame)]) = messages s.traffic := by
      simp [messages, kind]
    rw [same]
    exact steady.order

theorem Steady.opened (steady : Steady s) (begun : s.sockets i = some .CONNECTING) :
    Steady (s.setSocket i .OPEN).onopen where
  fresh j later := by
    have different : j ≠ i := by
      rintro rfl
      exact nomatch (steady.fresh j later).symm.trans begun
    exact (Function.update_of_ne different ..).trans (steady.fresh j later)
  passed e member := by
    by_cases here : e.1 = i
    · exact absurd (here ▸ begun) (steady.passed e member).2
    · have same : (s.setSocket i .OPEN).onopen.sockets e.1 = s.sockets e.1 :=
        Function.update_of_ne here ..
      rw [same]
      exact steady.passed e member
  current j isOpen given := by
    obtain ⟨e, member, auth⟩ := List.any_eq_true.mp given
    simp only [Bool.and_eq_true, decide_eq_true_eq] at auth
    have different : j ≠ i := by
      rintro rfl
      exact (steady.passed e member).2 (auth.1 ▸ begun)
    exact steady.current j ((Function.update_of_ne different ..).symm.trans isOpen) given
  known := nofun
  confirmed := steady.confirmed
  emptied now := nomatch (isConnected_eq_false (by nofun)).symm.trans now
  order := steady.order

theorem Steady.closed (steady : Steady s) (there : s.sockets i ≠ none) :
    Steady (s.setSocket i .CLOSED).onclose := by
  have lowered := (steady.lowered there (r := .CLOSED) nofun nofun).off .disconnected nofun false
  unfold WsClient.onclose
  dsimp only
  split_ifs
  · exact lowered.scheduleReconnect
  · exact lowered

/-- The gateway confirms the current socket, over which all that waits is sent. -/
theorem Steady.authSuccess (steady : Steady s) (user : Option Bool) (isOpen : s.sockets i = some .OPEN)
    (given : (s.traffic.any fun (j, frame) => j = i && frame.isAuth) = true) :
    Steady ({ s with traffic := s.traffic ++ [(i, Frame.authSuccess)] }.onAuthSuccess user) := by
  have uses : s.ws = some i := steady.current i isOpen given
  have usable : s.wsOpen = true := decide_eq_true (by rw [uses]; exact isOpen)
  let confirmed : WsClient M := { s with
    traffic := s.traffic ++ [(i, Frame.authSuccess)]
    isAuthenticated := true
    state := .authenticated }
  have connected : confirmed.isConnected = true := isConnected_iff.mpr ⟨rfl, rfl, usable⟩
  have success : (i, Frame.authSuccess) ∈ s.traffic ++ [(i, Frame.authSuccess)] := by simp
  have emptied : Steady (confirmed.flushMessageQueue s.messageQueue) := by
    rw [flushMessageQueue_eq connected uses]
    refine ⟨steady.fresh, fun e member => ?_, fun j now old => ?_, fun _ => ?_, ?_, fun _ => rfl, ?_⟩
    · have known : e ∈ s.traffic ∨ e.1 = i := by
        simp only [confirmed, List.mem_append, List.mem_singleton, List.mem_map] at member
        rcases member with (old | rfl) | ⟨m, -, rfl⟩
        · exact .inl old
        · exact .inr rfl
        · exact .inr rfl
      rcases known with old | here
      · exact steady.passed e old
      · have stands : s.sockets e.1 = some .OPEN := here ▸ isOpen
        change s.sockets e.1 ≠ none ∧ s.sockets e.1 ≠ some .CONNECTING
        rw [stands]
        exact ⟨nofun, nofun⟩
    · have before : (s.traffic.any fun (k, frame) => k = j && frame.isAuth) = true := by
        simpa [confirmed, Frame.isAuth, Function.comp_def] using old
      exact steady.current j now before
    · exact ⟨i, uses, List.mem_append_left _ success⟩
    · refine Confirmed.messages (steady.confirmed.snoc fun kind => ?_) success
      exact absurd rfl kind
    · have sent : messages (s.traffic ++ [(i, Frame.authSuccess)] ++
          s.messageQueue.map fun m => (i, Frame.message m)) = s.asked := by
        rw [messages, List.filterMap_append, List.filterMap_append]
        have queue := messages_map i s.messageQueue
        unfold messages at queue
        rw [queue]
        simpa [Frame.message?, messages] using steady.order
      simpa [confirmed] using sent
  unfold onAuthSuccess
  dsimp only
  cases user with
  | none => exact emptied
  | some admin =>
    dsimp only
    split_ifs
    · exact ⟨emptied.fresh, emptied.passed, emptied.current, emptied.known, emptied.confirmed,
        emptied.emptied, emptied.order⟩
    · exact emptied

/-- A message waits. -/
theorem Steady.queued (steady : Steady s) (m : M) (off : ¬ s.isConnected = true) :
    Steady { s with
      asked := s.asked ++ [m]
      messageQueue := s.messageQueue ++ [m] } where
  fresh := steady.fresh
  passed := steady.passed
  current := steady.current
  known := steady.known
  confirmed := steady.confirmed
  emptied now := absurd now off
  order := by
    change messages s.traffic ++ (s.messageQueue ++ [m]) = s.asked ++ [m]
    rw [← List.append_assoc, steady.order]

theorem Steady.send (steady : Steady s) (event : Outbound M) : Steady (s.send constructs event) := by
  cases event with
  | auth token =>
    simp only [WsClient.send]
    split_ifs with ready
    · exact steady.wrote ready.2 rfl
    · exact steady
  | message m =>
    simp only [WsClient.send]
    split_ifs with connected lost
    · -- The queue of a connected client is empty, so the message is in its place.
      obtain ⟨-, state, usable⟩ := isConnected_iff.mp connected
      have empty : s.messageQueue = [] := steady.emptied connected
      obtain ⟨i, uses, success⟩ := steady.known state
      obtain ⟨j, uses', isOpen⟩ := ws_of_wsOpen usable
      obtain rfl := Option.some.inj (uses.symm.trans uses')
      have wrote : Steady { s with traffic := s.traffic ++ [(i, .message m)], asked := s.asked ++ [m] } := by
        refine ⟨steady.fresh, fun e member => ?_, fun k now given => ?_, fun _ => ?_,
          steady.confirmed.snoc fun _ => success, steady.emptied, ?_⟩
        · rcases List.mem_append.mp member with old | new
          · exact steady.passed e old
          · rw [List.mem_singleton.mp new, isOpen]
            exact ⟨nofun, nofun⟩
        · refine steady.current k now ?_
          simpa [Frame.isAuth] using given
        · exact ⟨i, uses, List.mem_append_left _ success⟩
        · have before := steady.order
          rw [empty, List.append_nil] at before
          have appended : messages (s.traffic ++ [(i, .message m)]) = messages s.traffic ++ [m] := by
            simp [messages, Frame.message?]
          change messages (s.traffic ++ [(i, .message m)]) ++ s.messageQueue = s.asked ++ [m]
          rw [empty, List.append_nil, appended, before]
      have same : WsClient.write { s with asked := s.asked ++ [m] } (.message m) =
          { s with traffic := s.traffic ++ [(i, .message m)], asked := s.asked ++ [m] } :=
        write_eq (s := { s with asked := s.asked ++ [m] }) uses _
      rw [same]
      exact wrote
    · exact (steady.queued m connected).connect
    · exact steady.queued m connected

theorem Steady.delayed (steady : Steady s) (delay : Delay) : Steady (s.delayed delay) := by
  cases delay with
  | authenticate =>
    exact ⟨steady.fresh, steady.passed, steady.current, steady.known, steady.confirmed,
      steady.emptied, steady.order⟩
  | channels admin =>
    simp only [WsClient.delayed]
    split_ifs with ready
    · exact steady.wrote ready.1 rfl
    · exact steady

theorem Steady.resumed (steady : Steady s) (token : String) (call : TokenWait) :
    Steady (s.resumed token call) := by
  cases call with
  | authenticateAsync =>
    simp only [WsClient.resumed]
    split_ifs with late
    · exact steady
    · rw [not_or, Bool.not_eq_false] at late
      exact steady.wrote late.2 rfl
  | afterAuthError =>
    simp only [WsClient.resumed]
    split_ifs with usable
    · exact steady.wrote usable rfl
    · exact steady
  | reauthenticate =>
    simp only [WsClient.resumed]
    split_ifs with usable
    · exact steady.wrote usable rfl
    · exact steady

theorem Steady.step (steady : Steady s) (taken : s.step constructs action = some s') : Steady s' := by
  cases action with
  | connect =>
    obtain rfl := Option.some.inj taken
    exact steady.connect
  | disconnect =>
    obtain rfl := Option.some.inj taken
    exact steady.disconnect
  | send event =>
    obtain rfl := Option.some.inj taken
    exact steady.send event
  | reauthenticate =>
    obtain rfl := Option.some.inj taken
    exact ⟨steady.fresh, steady.passed, steady.current, steady.known, steady.confirmed,
      steady.emptied, steady.order⟩
  | opened i =>
    simp only [WsClient.step] at taken
    split_ifs at taken with begun
    obtain rfl := Option.some.inj taken
    exact steady.opened begun
  | authSuccess i user =>
    simp only [WsClient.step] at taken
    split_ifs at taken with replies
    obtain rfl := Option.some.inj taken
    exact steady.authSuccess user replies.1 replies.2
  | authError i =>
    simp only [WsClient.step] at taken
    split_ifs at taken
    obtain rfl := Option.some.inj taken
    exact ⟨steady.fresh, steady.passed, steady.current, steady.known, steady.confirmed,
      fun now => absurd (isConnected_iff.mp now).1 Bool.false_ne_true, steady.order⟩
  | closing i =>
    simp only [WsClient.step] at taken
    split_ifs at taken with isOpen
    obtain rfl := Option.some.inj taken
    exact steady.lowered (fun absent => nomatch absent.symm.trans isOpen) nofun nofun
  | closed i =>
    simp only [WsClient.step] at taken
    split_ifs at taken with gone
    obtain rfl := Option.some.inj taken
    exact steady.closed fun absent => gone (.inl absent)
  | timer n =>
    simp only [WsClient.step] at taken
    split_ifs at taken
    obtain rfl := Option.some.inj taken
    have rest : Steady { s with timers := s.timers.erase n } :=
      ⟨steady.fresh, steady.passed, steady.current, steady.known, steady.confirmed,
        steady.emptied, steady.order⟩
    exact rest.connect
  | delay n =>
    obtain ⟨delay, at_n, rfl⟩ := Option.map_eq_some_iff.mp taken
    have rest : Steady { s with delays := s.delays.eraseIdx n } :=
      ⟨steady.fresh, steady.passed, steady.current, steady.known, steady.confirmed,
        steady.emptied, steady.order⟩
    exact rest.delayed delay
  | resume n token =>
    obtain ⟨call, at_n, rfl⟩ := Option.map_eq_some_iff.mp taken
    have rest : Steady { s with calls := s.calls.eraseIdx n } :=
      ⟨steady.fresh, steady.passed, steady.current, steady.known, steady.confirmed,
        steady.emptied, steady.order⟩
    cases token with
    | none => exact rest
    | some token => exact rest.resumed token call

/-- The messages that were sent and those that wait are the ones that were asked
for, each once and in order; a connected client keeps none waiting; and each went
over a socket after the gateway had confirmed it. -/
theorem messages_of_run (run : Run (step constructs) (new : WsClient M) actions s) :
    messages s.traffic ++ s.messageQueue = s.asked ∧ (s.isConnected = true → s.messageQueue = []) ∧
      ∀ i m before, before ++ [(i, .message m)] <+: s.traffic → (i, Frame.authSuccess) ∈ before := by
  have steady : Steady s := run.invariant .new fun _ _ _ _ taken steady => steady.step taken
  exact ⟨steady.order, steady.emptied, steady.confirmed⟩

/-- Three messages around a sign-in, a lost connection and the next one. -/
def reconnects : List (WsAction String) :=
  [.send (.message "a"), .opened 0, .delay 0, .resume 0 (some "t"), .send (.message "b"),
    .authSuccess 0 (some false), .closing 0, .send (.message "c"), .closed 0, .timer 0, .opened 1,
    .delay 1, .resume 0 (some "t"), .authSuccess 1 none, .send (.message "d")]

theorem messages_reconnects : ∃ s, Run (step true) (new : WsClient String) reconnects s ∧
    s.traffic = [(0, .auth "t"), (0, .authSuccess), (0, .message "a"), (0, .message "b"),
      (1, .auth "t"), (1, .authSuccess), (1, .message "c"), (1, .message "d")] ∧
    messages s.traffic ++ s.messageQueue = s.asked := by
  have evaluates : (runGuarded (step true) (fun _ _ => True) (new : WsClient String)
      reconnects).map (·.traffic) = some [(0, .auth "t"), (0, .authSuccess), (0, .message "a"),
        (0, .message "b"), (1, .auth "t"), (1, .authSuccess), (1, .message "c"), (1, .message "d")] := by
    decide +kernel
  obtain ⟨s, run, shown⟩ := GuardedRun.of_eval_map evaluates
  exact ⟨s, run, shown, (messages_of_run run).1⟩

end Queue

end WsClient

end TradingPlatform.EventSocket
