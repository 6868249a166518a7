import TradingPlatform.Gateway.Broadcaster

namespace TradingPlatform

abbrev CallId := ℕ

inductive CallStatus
  | ringing
  | accepted
  deriving DecidableEq, Repr

structure CallState where
  callId : CallId
  adminUserId : String
  targetUserId : String
  status : CallStatus
  deriving DecidableEq, Repr

namespace CallState

def canAnswer (state : CallState) (user : String) : Bool := user = state.targetUserId

def canReject (state : CallState) (user : String) : Bool := user = state.targetUserId

def canEnd (state : CallState) (user : String) : Bool :=
  user = state.adminUserId ∨ user = state.targetUserId

end CallState

/-- What the participants are told about a call, with who ended it. -/
inductive Announcement
  | accepted
  | rejected
  | ended (byAdmin : Bool)
  | timeout
  deriving DecidableEq, Repr

/-- A call is over with it. -/
def Announcement.final : Announcement → Bool
  | .accepted => false
  | .rejected => true
  | .ended _ => true
  | .timeout => true

inductive CallMessage
  | callAnswer (id : CallId)
  | callReject (id : CallId)
  | callEnd (id : CallId)
  deriving DecidableEq, Repr

def CallMessage.callId : CallMessage → CallId
  | .callAnswer id => id
  | .callReject id => id
  | .callEnd id => id

/-- What a handler, or the timeout of a call, does next. -/
inductive CallPhase
  -- CallInitiate, with the call inserted
  | ring (state : CallState)
  -- CallAnswer
  | get (user : String) (id : CallId)
  | accept (state : CallState)
  -- CallReject and CallEnd
  | remove (user : String) (id : CallId) (ends : Bool)
  | reinsert (user : String) (state : CallState)
  -- the 60 seconds are over
  | expire (id : CallId)
  | announce (id : CallId) (what : Announcement)
  deriving DecidableEq, Repr

/-- The call that it is about. -/
def CallPhase.about : CallPhase → CallId
  | .ring state => state.callId
  | .get _ id => id
  | .accept state => state.callId
  | .remove _ id _ => id
  | .reinsert _ state => state.callId
  | .expire id => id
  | .announce id _ => id

def CallMessage.first (user : String) : CallMessage → CallPhase
  | .callAnswer id => .get user id
  | .callReject id => .remove user id false
  | .callEnd id => .remove user id true

/-- The receive task of a connection, and the timeout of a call. -/
inductive CallTask
  | receive (c : ConnId)
  | timer (id : CallId)
  deriving DecidableEq, Repr

/-- A connection that has been registered, and whether it still is. -/
structure Caller where
  userId : String
  role : String
  live : Bool
  deriving DecidableEq, Repr

/-- The connections, the calls, the tasks that are under way, the parties of each
call that was created, and who was told what. -/
structure CallDesk where
  callers : FiniteTable ConnId Caller
  calls : FiniteTable CallId CallState
  tasks : FiniteTable CallTask CallPhase
  parties : FiniteTable CallId (String × String)
  incoming : List (ConnId × CallId)
  announced : List (CallId × Announcement)

inductive CallDeskAction
  | register (c : ConnId) (user role : String)
  | unregister (c : ConnId)
  | initiate (c : ConnId) (target : String) (id : CallId)
  | message (c : ConnId) (m : CallMessage)
  | perform (t : CallTask)
  deriving DecidableEq, Repr

namespace CallDesk

def opened : CallDesk := ⟨∅, ∅, ∅, ∅, [], []⟩

/-- The registration of a connection. -/
def get (s : CallDesk) (c : ConnId) : Option Caller := (s.callers.lookup c).filter Caller.live

def isCallAdmin (role : String) : Bool :=
  let lower := String.ofList (role.toList.map Char.toLower)
  lower = "admin" ∨ lower = "super_admin"

/-- `get_user_connections` -/
def userConnections (s : CallDesk) (userId : String) : List ConnId :=
  s.callers.keys.filter fun c =>
    (s.get c).any fun caller => normalizeId caller.userId = normalizeId userId

/-- The task goes on with a phase, or ends. -/
def setTask (s : CallDesk) (t : CallTask) : Option CallPhase → CallDesk
  | some phase => { s with tasks := s.tasks.insert t phase }
  | none => { s with tasks := s.tasks.erase t }

/-- `CallRegistry::insert` -/
def insert (s : CallDesk) (state : CallState) : CallDesk :=
  { s with calls := s.calls.insert state.callId state }

/-- `CallRegistry::remove` -/
def remove (s : CallDesk) (id : CallId) : CallDesk := { s with calls := s.calls.erase id }

/-- A call identifier is new: nothing speaks of it yet. -/
def fresh (s : CallDesk) (id : CallId) : Bool :=
  (s.parties.lookup id).isNone && s.tasks.entries.all fun task => task.2.about ≠ id

/-- The next operation of a task. An unauthorised reject or end has already
removed the call, and inserts it again. -/
def perform (s : CallDesk) (t : CallTask) : CallPhase → CallDesk
  | .ring state =>
    if s.userConnections state.targetUserId = [] then (s.remove state.callId).setTask t none
    else
      ({ s with
        incoming := s.incoming ++ (s.userConnections state.targetUserId).map (·, state.callId)
        }.setTask t none).setTask (.timer state.callId) (some (.expire state.callId))
  | .get user id =>
    match s.calls.lookup id with
    | some state =>
      if state.canAnswer user ∧ state.status = .ringing then s.setTask t (some (.accept state))
      else s.setTask t none
    | none => s.setTask t none
  | .accept state =>
    (match s.calls.lookup state.callId with
      | some entry => s.insert { entry with status := .accepted }
      | none => s).setTask t (some (.announce state.callId .accepted))
  | .remove user id ends =>
    match s.calls.lookup id with
    | some state =>
      if (if ends then state.canEnd user else state.canReject user) then
        (s.remove id).setTask t (some (.announce id
          (if ends then .ended (user = state.adminUserId) else .rejected)))
      else (s.remove id).setTask t (some (.reinsert user state))
    | none => s.setTask t none
  | .reinsert _ state => (s.insert state).setTask t none
  | .expire id =>
    match s.calls.lookup id with
    | some state =>
      if state.status = .ringing then (s.remove id).setTask t (some (.announce id .timeout))
      else s.setTask t none
    | none => s.setTask t none
  | .announce id what => { s with announced := s.announced ++ [(id, what)] }.setTask t none

def step (s : CallDesk) : CallDeskAction → Option CallDesk
  | .register c user role =>
    if s.callers.lookup c = none then
      some { s with callers := s.callers.insert c ⟨user, role, true⟩ }
    else none
  | .unregister c =>
    (s.callers.lookup c).map fun caller =>
      { s with callers := s.callers.insert c { caller with live := false } }
  | .initiate c target id =>
    if s.tasks.lookup (.receive c) = none ∧ s.fresh id then
      match s.get c with
      | some caller =>
        if isCallAdmin caller.role ∧ target ≠ caller.userId then
          some ({ s.insert ⟨id, caller.userId, target, .ringing⟩ with
            parties := s.parties.insert id (caller.userId, target) }.setTask (.receive c)
              (some (.ring ⟨id, caller.userId, target, .ringing⟩)))
        else some s
      | none => some s
    else none
  | .message c m =>
    if s.tasks.lookup (.receive c) = none then
      match s.get c with
      | some caller => some (s.setTask (.receive c) (some (m.first caller.userId)))
      | none => some s
    else none
  | .perform t => (s.tasks.lookup t).map (s.perform t)

/-- What has been announced for a call, in order. -/
def outcomes (s : CallDesk) (id : CallId) : List Announcement :=
  s.announced.filterMap fun told => if told.1 = id then some told.2 else none

/-- Somebody is told that the call comes in. -/
def Rang (s : CallDesk) (id : CallId) : Prop := ∃ c, (c, id) ∈ s.incoming

/-- No task that was refused has the call and is about to insert it again. -/
def unheld (s : CallDesk) (id : CallId) : Bool :=
  s.tasks.entries.all fun task =>
    match task.2 with
    | .reinsert _ state => state.callId ≠ id
    | _ => true

/-- No task is about to announce that the call is accepted. -/
def unaccepted (s : CallDesk) (id : CallId) : Bool :=
  s.tasks.entries.all fun task => task.2 ≠ .announce id .accepted

/-- An operation on a call finds it where it is, an answer finds it ringing, an
accepted call is announced before it is removed, and the connections that a
call comes in at have its target's identifier letter by letter. -/
def Timely (s : CallDesk) : CallPhase → Prop
  | .ring state => s.unheld state.callId = true ∧ ∀ c ∈ s.userConnections state.targetUserId,
      (s.callers.lookup c).map (·.userId) = some state.targetUserId
  | .get _ id => s.unheld id = true
  | .accept state => (s.calls.lookup state.callId).map (·.status) = some .ringing
  | .remove user id ends => s.unheld id = true ∧ ∀ state ∈ s.calls.lookup id,
      (if ends then state.canEnd user else state.canReject user) = true → s.unaccepted id = true
  | .expire id => s.unheld id = true
  | _ => True

instance (s : CallDesk) (phase : CallPhase) : Decidable (s.Timely phase) :=
  match phase with
  | .ring state =>
    inferInstanceAs (Decidable (s.unheld state.callId = true ∧
      ∀ c ∈ s.userConnections state.targetUserId,
        (s.callers.lookup c).map (·.userId) = some state.targetUserId))
  | .get _ id => inferInstanceAs (Decidable (s.unheld id = true))
  | .accept state =>
    inferInstanceAs (Decidable ((s.calls.lookup state.callId).map (·.status) = some .ringing))
  | .remove user id ends =>
    inferInstanceAs (Decidable (s.unheld id = true ∧ ∀ state ∈ s.calls.lookup id,
      (if ends then state.canEnd user else state.canReject user) = true → s.unaccepted id = true))
  | .expire id => inferInstanceAs (Decidable (s.unheld id = true))
  | .reinsert _ _ => isTrue trivial
  | .announce _ _ => isTrue trivial

def InTurn (s : CallDesk) : CallDeskAction → Prop
  | .perform t => ∀ phase ∈ s.tasks.lookup t, s.Timely phase
  | _ => True

instance (s : CallDesk) (action : CallDeskAction) : Decidable (s.InTurn action) :=
  match action with
  | .perform t => inferInstanceAs (Decidable (∀ phase ∈ s.tasks.lookup t, s.Timely phase))
  | .register _ _ _ => isTrue trivial
  | .unregister _ => isTrue trivial
  | .initiate _ _ _ => isTrue trivial
  | .message _ _ => isTrue trivial

/-- The user takes no part in the call. -/
def outsider (s : CallDesk) (user : String) (id : CallId) : Bool :=
  (s.parties.lookup id).any fun parties => user ≠ parties.1 ∧ user ≠ parties.2

/-- The phase belongs to the handler of a message that an outsider sent. -/
def foreign (s : CallDesk) : CallPhase → Bool
  | .get user id => s.outsider user id
  | .remove user id _ => s.outsider user id
  | .reinsert user state => s.outsider user state.callId
  | _ => false

def byOutsider (s : CallDesk) : CallDeskAction → Bool
  | .message c m => (s.get c).any fun caller => s.outsider caller.userId m.callId
  | .perform t => (s.tasks.lookup t).any s.foreign
  | _ => false

end CallDesk

/-- What may be announced after something else: an end after an acceptance. At
most one announcement is final, an acceptance comes once and before it, and no
timeout comes after it. -/
def Announcement.MayFollow (earlier later : Announcement) : Prop :=
  ¬(earlier.final = true ∧ later.final = true) ∧ ¬(earlier = .accepted ∧ later = .accepted) ∧
    ¬(earlier.final = true ∧ later = .accepted) ∧ ¬(earlier = .accepted ∧ later = .timeout)

end TradingPlatform
