import Mathlib.Data.Finset.Option
import Mathlib.Data.String.Basic
import TradingPlatform.Library.StepRuns

namespace TradingPlatform.AuthStore
open StepRuns

/-- Sessions are numbered as logins, registrations and impersonations begin
them. A token stands for the session it was issued in. -/
abbrev SessionId := ℕ

/-- What awaits a call of `http`. -/
inductive Purpose
  /-- `login` or `register` -/
  | login
  | logout (refreshToken : SessionId) (byUser : Bool)
  | hydrateFromStorage
  | refreshUser
  | refreshAccessToken (refreshToken : SessionId)
  | other
  deriving DecidableEq

/-- `SKIP_REFRESH_ON_401` -/
def Purpose.isAuthEndpoint : Purpose → Bool
  | .login | .logout .. => true
  | .hydrateFromStorage | .refreshUser | .refreshAccessToken _ | .other => false

/-- A call between two awaits. -/
inductive Task
  /-- The API module is being imported. -/
  | importing (purpose : Purpose)
  | fetching (purpose : Purpose) (accessToken : Option SessionId)
  /-- Refused with 401, it waits for a refresh. -/
  | joined (purpose : Purpose) (accessToken : SessionId) (promise : ℕ)
  | retrying (purpose : Purpose) (accessToken newAccessToken : SessionId)
  /-- The refresh of `http`. -/
  | refreshing (refreshToken : SessionId)
  deriving DecidableEq

/-- Success, a status of an error, or no answer at all. -/
inductive Reply
  | ok
  | status (code : ℕ)
  | failed
  deriving DecidableEq

def Reply.refuses : Reply → Bool
  | .status code => code = 401 || code = 403 || code = 404
  | .ok | .failed => false

structure AuthState where
  accessToken : Option SessionId
  refreshToken : Option SessionId
  user : Option String
  isAuthenticated : Bool
  isHydrated : Bool
  deriving DecidableEq

/-- The store and the calls that await something. Promises are numbered like
tasks; `settled` has their access tokens, or `none` where the refresh failed.
The last four fields record whether a logout has been completed and none of
login, registration and impersonation started since, the sessions that had a
request refused, the replies that were written into another session, and the
sessions that were ended without having been refused. -/
structure State where
  store : AuthState
  tasks : ℕ → Option Task
  nextTask : ℕ
  refreshPromise : Option ℕ
  settled : ℕ → Option (Option SessionId)
  nextSession : SessionId
  loggedOut : Bool
  refused : Finset SessionId
  strayWrites : List (SessionId × SessionId)
  wronglyEnded : Finset SessionId

def initial : State where
  store := ⟨none, none, none, false, false⟩
  tasks := fun _ => none
  nextTask := 0
  refreshPromise := none
  settled := fun _ => none
  nextSession := 0
  loggedOut := false
  refused := ∅
  strayWrites := []
  wronglyEnded := ∅

/-- `refreshAccessToken` is also what the timer and `ensureValidAccessToken`
call. `calls` ends an import, `replies` an await of `fetch` and `resumes` one of
a refresh. -/
inductive Action
  | login
  | setImpersonationTokens
  | logout
  | hydrateFromStorage
  | refreshUser
  | refreshAccessToken
  | request
  | calls (t : ℕ)
  | replies (t : ℕ) (reply : Reply)
  | resumes (t : ℕ)
  deriving DecidableEq

namespace State

def setTask (s : State) (t : ℕ) (task : Task) : State :=
  { s with tasks := Function.update s.tasks t (some task) }

def drop (s : State) (t : ℕ) : State := { s with tasks := Function.update s.tasks t none }

def spawn (s : State) (task : Task) : State :=
  { s.setTask s.nextTask task with nextTask := s.nextTask + 1 }

/-- The session ends, which `allowed` was asked for by the user. -/
def cleared (s : State) (allowed : Option SessionId) : State :=
  { s with
    store := ⟨none, none, none, false, s.store.isHydrated⟩
    wronglyEnded := s.wronglyEnded ∪
      s.store.refreshToken.toFinset.filter fun n => n ∉ s.refused ∧ allowed ≠ some n }

/-- `logout` up to its first await. -/
def logoutCalled (s : State) (byUser : Bool) : State :=
  match s.store.refreshToken with
  | some r => s.spawn (.importing (.logout r byUser))
  | none => { s.cleared none with loggedOut := true }

/-- The session that a reply is written into, if it is not its own. -/
def noteWrite (s : State) (issued : SessionId) : State :=
  { s with strayWrites := s.strayWrites ++
      (s.store.refreshToken.toList.filter (· ≠ issued)).map fun n => (issued, n) }

def noteReply (s : State) (accessToken : Option SessionId) (reply : Reply) : State :=
  { s with refused := if reply.refuses then s.refused ∪ accessToken.toFinset else s.refused }

/-- A call of `http` that was made with the access token returns or throws. -/
def finish (account : SessionId → String) (s : State) (t : ℕ) (accessToken : Option SessionId)
    (reply : Reply) (purpose : Purpose) : State :=
  let s := s.drop t
  match purpose, reply with
  | .login, .ok =>
    let n := s.nextSession
    { s with store := ⟨some n, some n, some (account n), true, true⟩, nextSession := n + 1 }
  | .login, _ => s
  | .logout r byUser, _ =>
    { s.cleared (if byUser then some r else none) with loggedOut := true }
  | .hydrateFromStorage, .ok =>
    let s := accessToken.elim s s.noteWrite
    { s with store := { s.store with
        user := accessToken.map account, isAuthenticated := true, isHydrated := true } }
  | .hydrateFromStorage, reply =>
    let s := if reply.refuses then s.cleared none else s
    { s with store := { s.store with isHydrated := true } }
  | .refreshUser, .ok =>
    let s := accessToken.elim s s.noteWrite
    { s with store := { s.store with user := accessToken.map account } }
  | .refreshUser, _ => s
  | .refreshAccessToken r, .ok =>
    let s := s.noteWrite r
    { s with store := { s.store with accessToken := some r } }.spawn (.importing .refreshUser)
  | .refreshAccessToken _, _ => s
  | .other, _ => s

/-- A call of `http` logs out and throws: its refresh or its retry has failed. -/
def refreshFailed (account : SessionId → String) (s : State) (t : ℕ) (purpose : Purpose)
    (accessToken : SessionId) : State :=
  (s.logoutCalled false).finish account t (some accessToken) .failed purpose

/-- `refreshAccessToken` of `http`, in a call that was refused. -/
def refreshCalled (account : SessionId → String) (s : State) (t : ℕ) (purpose : Purpose)
    (accessToken : SessionId) : State :=
  match s.refreshPromise, s.store.refreshToken with
  | some promise, _ => s.setTask t (.joined purpose accessToken promise)
  | none, some r =>
    { s.setTask t (.joined purpose accessToken s.nextTask) with
      refreshPromise := some s.nextTask }.spawn (.refreshing r)
  | none, none => s.refreshFailed account t purpose accessToken

/-- The refresh of `http` ends. -/
def refreshReturned (s : State) (t : ℕ) (r : SessionId) (reply : Reply) : State :=
  let s := { s.drop t with refreshPromise := none }
  match reply with
  | .ok =>
    let s := s.noteWrite r
    { s with
      store := { s.store with accessToken := some r, refreshToken := some r }
      settled := Function.update s.settled t (some (some r)) }.spawn (.importing .refreshUser)
  | _ => { s with settled := Function.update s.settled t (some none) }

/-- The server does not tell who calls without a token. -/
def Answers (purpose : Purpose) (accessToken : Option SessionId) (reply : Reply) : Prop :=
  purpose = .hydrateFromStorage ∨ purpose = .refreshUser → reply = .ok → accessToken ≠ none

instance (purpose : Purpose) (accessToken : Option SessionId) (reply : Reply) :
    Decidable (Answers purpose accessToken reply) :=
  inferInstanceAs (Decidable (_ → _ → _))

/-- An await of `fetch` ends, or that of an import that fails. -/
def replied (account : SessionId → String) (s : State) (t : ℕ) (reply : Reply) :
    Task → Option State
  | .fetching purpose accessToken =>
    if Answers purpose accessToken reply then
      let s := s.noteReply accessToken reply
      match accessToken with
      | some n =>
        some (if reply = .status 401 ∧ purpose.isAuthEndpoint = false then
          s.refreshCalled account t purpose n else s.finish account t (some n) reply purpose)
      | none => some (s.finish account t none reply purpose)
    else none
  | .retrying purpose n r =>
    let s := s.noteReply (some r) reply
    some (if reply = .failed then s.refreshFailed account t purpose n
      else s.finish account t (some r) reply purpose)
  | .refreshing r => some ((s.noteReply (some r) reply).refreshReturned t r reply)
  | .importing purpose =>
    if reply = .failed then some (s.finish account t none .failed purpose) else none
  | .joined .. => none

def step (account : SessionId → String) (s : State) : Action → Option State
  | .login => some { s.spawn (.importing .login) with loggedOut := false }
  | .setImpersonationTokens =>
    let n := s.nextSession
    some { s with
      store := { s.store with accessToken := some n, refreshToken := some n, user := none }
      nextSession := n + 1
      loggedOut := false }
  | .logout => some (s.logoutCalled true)
  | .hydrateFromStorage =>
    if s.store.accessToken ≠ none ∧ s.store.refreshToken ≠ none then
      some (s.spawn (.importing .hydrateFromStorage))
    else some { s with store := { s.store with isHydrated := true } }
  | .refreshUser =>
    if s.store.accessToken = none then none else some (s.spawn (.importing .refreshUser))
  | .refreshAccessToken =>
    s.store.refreshToken.map fun r => s.spawn (.importing (.refreshAccessToken r))
  | .request => some (s.spawn (.fetching .other s.store.accessToken))
  | .calls t =>
    match s.tasks t with
    | some (.importing purpose) =>
      some (s.setTask t (.fetching purpose
        (if purpose.isAuthEndpoint then none else s.store.accessToken)))
    | _ => none
  | .replies t reply => (s.tasks t).bind (s.replied account t reply)
  | .resumes t =>
    match s.tasks t with
    | some (.joined purpose n promise) =>
      (s.settled promise).map fun result =>
        match result with
        | some r => s.setTask t (.retrying purpose n r)
        | none => s.refreshFailed account t purpose n
    | _ => none

/-- No call awaits anything. -/
def Quiescent (s : State) : Prop := ∀ t, s.tasks t = none

end State

/-- A session that has been logged out stays out, replies are written into
their own session only, and a session ends when the user or a refusal ends it. -/
structure NeverResurrected (account : SessionId → String) (s : State) : Prop where
  staysOut : s.loggedOut = true → s.store.accessToken = none ∧ s.store.refreshToken = none ∧
    s.store.user = none ∧ s.store.isAuthenticated = false
  noStray : s.strayWrites = []
  oneAccount : s.Quiescent →
    s.store.accessToken.map account = s.store.refreshToken.map account ∧
      ∀ name ∈ s.store.user, s.store.accessToken.map account = some name
  endsRefused : s.wronglyEnded = ∅

/-- What an outcome writes, it writes into the session it was asked in; a login
is written unless a logout was completed meanwhile. -/
def Timely (s : State) (accessToken : Option SessionId) (reply : Reply) : Purpose → Prop
  | .login => reply = .ok → s.loggedOut = false
  | .logout r _ => s.store.refreshToken = none ∨ s.store.refreshToken = some r
  | .hydrateFromStorage => (reply = .ok → s.store.refreshToken = accessToken) ∧
      (reply.refuses = true → s.store.refreshToken = none ∨ s.store.refreshToken = accessToken)
  | .refreshUser => reply = .ok → s.store.refreshToken = accessToken
  | .refreshAccessToken r => reply = .ok → s.store.refreshToken = some r
  | .other => True

def TimelyReply (s : State) (reply : Reply) : Task → Prop
  | .fetching purpose accessToken =>
    reply = .status 401 ∧ purpose.isAuthEndpoint = false ∧ accessToken ≠ none ∨
      Timely s accessToken reply purpose
  | .retrying purpose n r =>
    (reply = .failed → s.store.refreshToken = none ∨ s.store.refreshToken = some n) ∧
      Timely s (some r) reply purpose
  | .refreshing r => reply = .ok → s.store.refreshToken = some r
  | .importing purpose => Timely s none reply purpose
  | .joined .. => True

/-- Where a refresh has failed, the session that is logged out is the one of the
refused request. -/
def TimelyResume (s : State) : Task → Prop
  | .joined _ n promise => s.settled promise = some none →
      s.store.refreshToken = none ∨ s.store.refreshToken = some n
  | .importing _ | .fetching .. | .retrying .. | .refreshing _ => True

def InSession (s : State) : Action → Prop
  | .replies t reply => ∀ task ∈ s.tasks t, TimelyReply s reply task
  | .resumes t => ∀ task ∈ s.tasks t, TimelyResume s task
  | .login | .setImpersonationTokens | .logout | .hydrateFromStorage | .refreshUser
  | .refreshAccessToken | .request | .calls _ => True

section Decidable
variable (s : State)

instance (accessToken : Option SessionId) (reply : Reply) :
    (purpose : Purpose) → Decidable (Timely s accessToken reply purpose)
  | .login => inferInstanceAs (Decidable (_ → _))
  | .logout .. => inferInstanceAs (Decidable (_ ∨ _))
  | .hydrateFromStorage => inferInstanceAs (Decidable ((_ → _) ∧ (_ → _ ∨ _)))
  | .refreshUser => inferInstanceAs (Decidable (_ → _))
  | .refreshAccessToken _ => inferInstanceAs (Decidable (_ → _))
  | .other => .isTrue trivial

instance (reply : Reply) : (task : Task) → Decidable (TimelyReply s reply task)
  | .fetching .. => inferInstanceAs (Decidable (_ ∧ _ ∧ _ ∨ Timely ..))
  | .retrying .. => inferInstanceAs (Decidable ((_ → _ ∨ _) ∧ Timely ..))
  | .refreshing _ => inferInstanceAs (Decidable (_ → _))
  | .importing _ => inferInstanceAs (Decidable (Timely ..))
  | .joined .. => .isTrue trivial

instance : (task : Task) → Decidable (TimelyResume s task)
  | .joined .. => inferInstanceAs (Decidable (_ → _ ∨ _))
  | .importing _ | .fetching .. | .retrying .. | .refreshing _ => .isTrue trivial

instance : (a : Action) → Decidable (InSession s a)
  | .replies t reply => inferInstanceAs (Decidable (∀ task ∈ s.tasks t, TimelyReply s reply task))
  | .resumes t => inferInstanceAs (Decidable (∀ task ∈ s.tasks t, TimelyResume s task))
  | .login | .setImpersonationTokens | .logout | .hydrateFromStorage | .refreshUser
  | .refreshAccessToken | .request | .calls _ => .isTrue trivial

end Decidable

end TradingPlatform.AuthStore
