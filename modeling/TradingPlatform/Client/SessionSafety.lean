import TradingPlatform.Client.AuthStore

namespace TradingPlatform.AuthStore
open StepRuns

section Invariant
variable {account : SessionId → String} {s after : State} {t : ℕ}

/-- A logout that the user did not ask for follows a refusal. -/
def Purpose.Justified (refused : Finset SessionId) : Purpose → Prop
  | .logout r byUser => byUser = false → r ∈ refused
  | .login | .hydrateFromStorage | .refreshUser | .refreshAccessToken _ | .other => True

def Task.Justified (refused : Finset SessionId) : Task → Prop
  | .importing purpose | .fetching purpose _ => purpose.Justified refused
  | .joined purpose n _ | .retrying purpose n _ => purpose.isAuthEndpoint = false ∧ n ∈ refused
  | .refreshing _ => True

theorem Purpose.justified_of_not_auth {purpose : Purpose}
    (plain : purpose.isAuthEndpoint = false) (refused : Finset SessionId) :
    purpose.Justified refused := by
  cases purpose with
  | logout r byUser => cases plain
  | _ => trivial

/-- A call that fails without an answer writes nothing. -/
theorem timely_failed {purpose : Purpose} (plain : purpose.isAuthEndpoint = false)
    (s : State) (accessToken : Option SessionId) : Timely s accessToken .failed purpose := by
  cases purpose with
  | login => cases plain
  | logout r byUser => cases plain
  | hydrateFromStorage => exact ⟨nofun, nofun⟩
  | refreshUser => exact nofun
  | refreshAccessToken r => exact nofun
  | other => trivial

theorem Purpose.Justified.mono {refused more : Finset SessionId} {purpose : Purpose}
    (justified : purpose.Justified refused) (fewer : refused ⊆ more) : purpose.Justified more := by
  cases purpose with
  | logout r byUser => exact fun unasked => fewer (justified unasked)
  | _ => trivial

theorem Task.Justified.mono {refused more : Finset SessionId} {task : Task}
    (justified : task.Justified refused) (fewer : refused ⊆ more) : task.Justified more := by
  cases task with
  | importing purpose => exact Purpose.Justified.mono justified fewer
  | fetching purpose accessToken => exact Purpose.Justified.mono justified fewer
  | joined purpose n promise => exact ⟨justified.1, fewer justified.2⟩
  | retrying purpose n r => exact ⟨justified.1, fewer justified.2⟩
  | refreshing r => trivial

/-- The tokens and the user are of one session, the records are clean, and the
running logouts are justified. -/
structure Inv (account : SessionId → String) (s : State) : Prop where
  tokens : s.store.accessToken = s.store.refreshToken
  user : ∀ name ∈ s.store.user, s.store.refreshToken.map account = some name
  out : s.store.refreshToken = none → s.store.isAuthenticated = false
  loggedOut : s.loggedOut = true → s.store.refreshToken = none
  noStray : s.strayWrites = []
  endsRefused : s.wronglyEnded = ∅
  tasks : ∀ t, ∀ task ∈ s.tasks t, task.Justified s.refused

theorem Inv.initial (account : SessionId → String) : Inv account initial :=
  ⟨rfl, nofun, fun _ => rfl, nofun, rfl, rfl, nofun⟩

/-- Tasks come and go while the store stays. -/
theorem Inv.withTasks (holds : Inv account s) {tasks : ℕ → Option Task} {nextTask : ℕ}
    {refreshPromise : Option ℕ} {settled : ℕ → Option (Option SessionId)}
    (justified : ∀ t, ∀ task ∈ tasks t, task.Justified s.refused) :
    Inv account { s with
      tasks := tasks
      nextTask := nextTask
      refreshPromise := refreshPromise
      settled := settled } :=
  ⟨holds.tokens, holds.user, holds.out, holds.loggedOut, holds.noStray, holds.endsRefused,
    justified⟩

theorem Inv.withPromises (holds : Inv account s) (refreshPromise : Option ℕ)
    (settled : ℕ → Option (Option SessionId)) :
    Inv account { s with refreshPromise := refreshPromise, settled := settled } :=
  holds.withTasks holds.tasks

theorem Inv.justified_update (holds : Inv account s) {task : Option Task}
    (justified : ∀ added ∈ task, added.Justified s.refused) (t u : ℕ) :
    ∀ found ∈ Function.update s.tasks t task u, found.Justified s.refused := by
  intro found member
  by_cases own : u = t
  · rw [own, Function.update_self] at member
    exact justified found member
  · rw [Function.update_of_ne own] at member
    exact holds.tasks u found member

theorem Inv.setTask (holds : Inv account s) {task : Task} (justified : task.Justified s.refused)
    (t : ℕ) : Inv account (s.setTask t task) :=
  holds.withTasks (holds.justified_update (by simpa using justified) t)

theorem Inv.drop (holds : Inv account s) (t : ℕ) : Inv account (s.drop t) :=
  holds.withTasks (holds.justified_update (by simp) t)

theorem Inv.spawn (holds : Inv account s) {task : Task} (justified : task.Justified s.refused) :
    Inv account (s.spawn task) :=
  holds.withTasks (holds.justified_update (by simpa using justified) _)

theorem refused_noteReply (s : State) (accessToken : Option SessionId) (reply : Reply) :
    s.refused ⊆ (s.noteReply accessToken reply).refused := by
  unfold State.noteReply
  dsimp only
  split
  · exact Finset.subset_union_left
  · exact subset_rfl

theorem Inv.noteReply (holds : Inv account s) (accessToken : Option SessionId) (reply : Reply) :
    Inv account (s.noteReply accessToken reply) := by
  refine ⟨holds.tokens, holds.user, holds.out, holds.loggedOut, holds.noStray, holds.endsRefused,
    fun t task member => (holds.tasks t task member).mono ?_⟩
  exact refused_noteReply s accessToken reply

theorem mem_refused_noteReply {n : SessionId} {reply : Reply} (refuses : reply.refuses = true) :
    n ∈ (s.noteReply (some n) reply).refused := by
  simp [State.noteReply, refuses]

/-- A session may end that has ended, that the user has ended, or that was refused. -/
theorem Inv.cleared (holds : Inv account s) {allowed : Option SessionId}
    (may : ∀ n ∈ s.store.refreshToken, n ∈ s.refused ∨ allowed = some n) :
    Inv account (s.cleared allowed) := by
  refine ⟨rfl, nofun, fun _ => rfl, fun _ => rfl, holds.noStray, ?_, holds.tasks⟩
  unfold State.cleared
  dsimp only
  rw [holds.endsRefused, Finset.empty_union, Finset.filter_eq_empty_iff]
  rintro n member ⟨unrefused, unasked⟩
  rcases may n (by simpa using member) with refused | asked
  · exact unrefused refused
  · exact unasked asked

theorem Inv.logoutCompleted (holds : Inv account s) {allowed : Option SessionId}
    (may : ∀ n ∈ s.store.refreshToken, n ∈ s.refused ∨ allowed = some n) :
    Inv account { s.cleared allowed with loggedOut := true } := by
  have clear := holds.cleared may
  exact ⟨clear.tokens, clear.user, clear.out, fun _ => rfl, clear.noStray, clear.endsRefused,
    clear.tasks⟩

theorem Inv.logoutCalled (holds : Inv account s) {byUser : Bool}
    (may : byUser = false → ∀ n ∈ s.store.refreshToken, n ∈ s.refused) :
    Inv account (s.logoutCalled byUser) := by
  unfold State.logoutCalled
  split
  next r stored => exact holds.spawn fun unasked => may unasked r stored
  next empty =>
    refine holds.logoutCompleted fun n stored => ?_
    cases empty.symm.trans stored

/-- A write into its own session is no stray. -/
theorem noteWrite_own {n : SessionId} (own : s.store.refreshToken = some n) :
    s.noteWrite n = s := by
  simp [State.noteWrite, own]

/-- The user of the stored session is written. -/
theorem Inv.identified (holds : Inv account s) {n : SessionId}
    (own : s.store.refreshToken = some n) (isAuthenticated isHydrated : Bool) :
    Inv account { s with
      store := ⟨s.store.accessToken, s.store.refreshToken, some (account n), isAuthenticated,
        isHydrated⟩ } := by
  refine ⟨holds.tokens, ?_, ?_, holds.loggedOut, holds.noStray, holds.endsRefused, holds.tasks⟩
  · rintro name stored
    rw [own]
    exact stored
  · intro ended
    cases own.symm.trans ended

theorem Inv.hydrated (holds : Inv account s) (isHydrated : Bool) :
    Inv account { s with store := { s.store with isHydrated := isHydrated } } :=
  ⟨holds.tokens, holds.user, holds.out, holds.loggedOut, holds.noStray, holds.endsRefused,
    holds.tasks⟩

/-- New tokens of the stored session are written. -/
theorem Inv.refreshed (holds : Inv account s) {r : SessionId}
    (own : s.store.refreshToken = some r) :
    Inv account { s with
      store := { s.store with accessToken := some r, refreshToken := some r } } := by
  refine ⟨rfl, ?_, nofun, ?_, holds.noStray, holds.endsRefused, holds.tasks⟩
  · rw [← own]
    exact holds.user
  · intro out
    cases (holds.loggedOut out).symm.trans own

theorem Inv.accessRefreshed (holds : Inv account s) {r : SessionId}
    (own : s.store.refreshToken = some r) :
    Inv account { s with store := { s.store with accessToken := some r } } :=
  ⟨own.symm, holds.user, holds.out, holds.loggedOut, holds.noStray, holds.endsRefused,
    holds.tasks⟩

/-- An outcome that comes in time leaves the store in one session. -/
theorem Inv.finish {accessToken : Option SessionId} {reply : Reply} {purpose : Purpose}
    (holds : Inv account s) (justified : purpose.Justified s.refused)
    (answers : State.Answers purpose accessToken reply)
    (refused : reply.refuses = true → ∀ n ∈ accessToken, n ∈ s.refused)
    (timely : Timely s accessToken reply purpose) :
    Inv account (s.finish account t accessToken reply purpose) := by
  have dropped : Inv account (s.drop t) := holds.drop t
  cases purpose with
  | login =>
    cases reply with
    | ok =>
      have inside : s.loggedOut = false := timely rfl
      refine ⟨rfl, ?_, nofun, ?_, dropped.noStray, dropped.endsRefused, dropped.tasks⟩
      · rintro name stored
        exact stored
      · intro out
        cases inside.symm.trans out
    | status code => exact dropped
    | failed => exact dropped
  | logout r byUser =>
    have completed : Inv account { (s.drop t).cleared (if byUser then some r else none) with
        loggedOut := true } := by
      refine dropped.logoutCompleted fun n stored => ?_
      rcases timely with ended | own
      · cases ended.symm.trans stored
      · obtain rfl := Option.some.inj (own.symm.trans stored)
        cases byUser with
        | true => exact .inr rfl
        | false => exact .inl (justified rfl)
    cases reply <;> exact completed
  | hydrateFromStorage =>
    obtain ⟨onOk, onRefusal⟩ := timely
    cases reply with
    | ok =>
      obtain ⟨n, isToken⟩ := Option.ne_none_iff_exists'.mp (answers (.inl rfl) rfl)
      subst isToken
      have own : (s.drop t).store.refreshToken = some n := onOk rfl
      have write : (s.drop t).noteWrite n = s.drop t := noteWrite_own own
      unfold State.finish
      simp only [Option.elim_some, write, Option.map_some]
      exact dropped.identified own true true
    | status code =>
      unfold State.finish
      dsimp only
      split
      next refuses =>
        refine Inv.hydrated (dropped.cleared fun n stored => .inl ?_) true
        rcases onRefusal refuses with ended | own
        · cases ended.symm.trans stored
        · exact refused refuses n (own.symm.trans stored)
      next => exact dropped.hydrated true
    | failed => exact dropped.hydrated true
  | refreshUser =>
    cases reply with
    | ok =>
      obtain ⟨n, isToken⟩ := Option.ne_none_iff_exists'.mp (answers (.inr rfl) rfl)
      subst isToken
      have own : (s.drop t).store.refreshToken = some n := timely rfl
      have write : (s.drop t).noteWrite n = s.drop t := noteWrite_own own
      unfold State.finish
      simp only [Option.elim_some, write, Option.map_some]
      exact dropped.identified own _ _
    | status code => exact dropped
    | failed => exact dropped
  | refreshAccessToken r =>
    cases reply with
    | ok =>
      have own : (s.drop t).store.refreshToken = some r := timely rfl
      have write : (s.drop t).noteWrite r = s.drop t := noteWrite_own own
      unfold State.finish
      simp only [write]
      exact Inv.spawn (dropped.accessRefreshed own) trivial
    | status code => exact dropped
    | failed => exact dropped
  | other => cases reply <;> exact dropped

theorem Inv.joined (holds : Inv account s) {purpose : Purpose} {n : SessionId}
    (plain : purpose.isAuthEndpoint = false) (refused : n ∈ s.refused) (t promise : ℕ) :
    Inv account (s.setTask t (.joined purpose n promise)) := by
  have justified : (Task.joined purpose n promise).Justified s.refused := ⟨plain, refused⟩
  exact holds.setTask justified t

theorem Inv.refreshFailed (holds : Inv account s) {purpose : Purpose}
    (plain : purpose.isAuthEndpoint = false) (n : SessionId)
    (may : ∀ r ∈ s.store.refreshToken, r ∈ s.refused) :
    Inv account (s.refreshFailed account t purpose n) := by
  have out : Inv account (s.logoutCalled false) := holds.logoutCalled fun _ => may
  exact out.finish (Purpose.justified_of_not_auth plain _) nofun nofun
    (timely_failed plain _ _)

/-- The session that is logged out is the one of the refused request. -/
theorem ended_refused {n : SessionId} (refused : n ∈ s.refused)
    (timely : s.store.refreshToken = none ∨ s.store.refreshToken = some n) :
    ∀ r ∈ s.store.refreshToken, r ∈ s.refused := by
  intro r stored
  rcases timely with ended | own
  · cases ended.symm.trans stored
  · obtain rfl := Option.some.inj (own.symm.trans stored)
    exact refused

theorem Inv.refreshCalled {purpose : Purpose} {n : SessionId} (holds : Inv account s)
    (plain : purpose.isAuthEndpoint = false) (refused : n ∈ s.refused) :
    Inv account (s.refreshCalled account t purpose n) := by
  unfold State.refreshCalled
  split
  next promise _ => exact holds.joined plain refused t promise
  next r _ _ =>
    have joined := holds.joined plain refused t s.nextTask
    exact Inv.spawn (joined.withPromises (some s.nextTask) s.settled) trivial
  next _ empty =>
    refine holds.refreshFailed plain n fun r stored => ?_
    cases empty.symm.trans stored

theorem Inv.refreshReturned {r : SessionId} {reply : Reply} (holds : Inv account s)
    (timely : reply = .ok → s.store.refreshToken = some r) :
    Inv account (s.refreshReturned t r reply) := by
  have dropped := holds.drop t
  cases reply with
  | ok =>
    have own : (s.drop t).store.refreshToken = some r := timely rfl
    have write : ({ s.drop t with refreshPromise := none } : State).noteWrite r =
        { s.drop t with refreshPromise := none } := noteWrite_own own
    unfold State.refreshReturned
    simp only [write]
    exact Inv.spawn ((dropped.refreshed own).withPromises none _) trivial
  | status code => exact dropped.withPromises none _
  | failed => exact dropped.withPromises none _

theorem Inv.replied {task : Task} {reply : Reply} (holds : Inv account s)
    (justified : task.Justified s.refused) (timely : TimelyReply s reply task)
    (taken : s.replied account t reply task = some after) : Inv account after := by
  have more (accessToken : Option SessionId) := refused_noteReply s accessToken reply
  cases task with
  | importing purpose =>
    obtain ⟨lost, taken⟩ := Option.ite_none_right_eq_some.mp taken
    obtain rfl := Option.some.inj taken
    subst lost
    exact holds.finish justified nofun nofun timely
  | joined purpose n promise => cases taken
  | fetching purpose accessToken =>
    obtain ⟨answers, taken⟩ := Option.ite_none_right_eq_some.mp taken
    have noted := holds.noteReply accessToken reply
    have still : purpose.Justified (s.noteReply accessToken reply).refused :=
      Purpose.Justified.mono justified (more accessToken)
    cases accessToken with
    | none =>
      obtain rfl := Option.some.inj taken
      have inTime : Timely s none reply purpose :=
        timely.resolve_left fun unauthorised => unauthorised.2.2 rfl
      exact noted.finish still answers nofun inTime
    | some n =>
      obtain rfl := Option.some.inj taken
      split
      next unauthorised =>
        have refuses : reply.refuses = true := by
          rw [unauthorised.1]
          rfl
        exact noted.refreshCalled unauthorised.2 (mem_refused_noteReply refuses)
      next known =>
        have inTime : Timely s (some n) reply purpose :=
          timely.resolve_left fun unauthorised => known ⟨unauthorised.1, unauthorised.2.1⟩
        refine noted.finish still answers (fun refuses m isToken => ?_) inTime
        obtain rfl := Option.some.inj isToken
        exact mem_refused_noteReply refuses
  | retrying purpose n r =>
    obtain ⟨plain, refused⟩ := justified
    obtain rfl := Option.some.inj taken
    have noted := holds.noteReply (some r) reply
    obtain ⟨onLoss, inTime⟩ := timely
    by_cases lost : reply = .failed
    · rw [if_pos lost]
      exact noted.refreshFailed plain n (ended_refused (more (some r) refused) (onLoss lost))
    · rw [if_neg lost]
      refine noted.finish (Purpose.justified_of_not_auth plain _) (fun _ _ => nofun)
        (fun refuses m isToken => ?_) inTime
      obtain rfl := Option.some.inj isToken
      exact mem_refused_noteReply refuses
  | refreshing r =>
    obtain rfl := Option.some.inj taken
    exact (holds.noteReply (some r) reply).refreshReturned timely

theorem Inv.step {a : Action} (holds : Inv account s) (inSession : InSession s a)
    (taken : s.step account a = some after) : Inv account after := by
  cases a with
  | login =>
    obtain rfl := Option.some.inj taken
    have spawned : Inv account (s.spawn (.importing .login)) := holds.spawn trivial
    exact ⟨spawned.tokens, spawned.user, spawned.out, nofun, spawned.noStray,
      spawned.endsRefused, spawned.tasks⟩
  | setImpersonationTokens =>
    obtain rfl := Option.some.inj taken
    exact ⟨rfl, nofun, nofun, nofun, holds.noStray, holds.endsRefused, holds.tasks⟩
  | logout =>
    obtain rfl := Option.some.inj taken
    exact holds.logoutCalled nofun
  | hydrateFromStorage =>
    simp only [State.step] at taken
    split at taken
    · obtain rfl := Option.some.inj taken
      exact holds.spawn trivial
    · obtain rfl := Option.some.inj taken
      exact holds.hydrated true
  | refreshUser =>
    obtain ⟨-, taken⟩ := Option.ite_none_left_eq_some.mp taken
    obtain rfl := Option.some.inj taken
    exact holds.spawn trivial
  | refreshAccessToken =>
    obtain ⟨r, -, rfl⟩ := Option.map_eq_some_iff.mp taken
    exact holds.spawn trivial
  | request =>
    obtain rfl := Option.some.inj taken
    exact holds.spawn trivial
  | calls t =>
    simp only [State.step] at taken
    split at taken
    next purpose importing =>
      obtain rfl := Option.some.inj taken
      have justified : (Task.importing purpose).Justified s.refused := holds.tasks t _ importing
      have called : (Task.fetching purpose
          (if purpose.isAuthEndpoint then none else s.store.accessToken)).Justified s.refused :=
        justified
      exact holds.setTask called t
    next => cases taken
  | replies t reply =>
    obtain ⟨task, running, taken⟩ := Option.bind_eq_some_iff.mp taken
    exact holds.replied (holds.tasks t task running) (inSession task running) taken
  | resumes t =>
    simp only [State.step] at taken
    split at taken
    next purpose n promise joined =>
      obtain ⟨plain, refused⟩ := holds.tasks t _ joined
      obtain ⟨result, settled, rfl⟩ := Option.map_eq_some_iff.mp taken
      cases result with
      | some r =>
        have justified : (Task.retrying purpose n r).Justified s.refused := ⟨plain, refused⟩
        exact holds.setTask justified t
      | none =>
        have timely := inSession _ joined settled
        exact holds.refreshFailed plain n (ended_refused refused timely)
    next => cases taken

theorem Inv.neverResurrected (holds : Inv account s) : NeverResurrected account s := by
  refine ⟨fun out => ?_, holds.noStray, fun _ => ?_, holds.endsRefused⟩
  · have ended := holds.loggedOut out
    refine ⟨holds.tokens.trans ended, ended, ?_, holds.out ended⟩
    by_contra stored
    obtain ⟨name, isUser⟩ := Option.ne_none_iff_exists'.mp stored
    have own := holds.user name isUser
    rw [ended] at own
    cases own
  · rw [holds.tokens]
    exact ⟨rfl, holds.user⟩

end Invariant

/-- As long as every reply still finds the session it was asked for, sessions do
not mix, a logged-out one stays out, and one ends only when it was refused. -/
theorem neverResurrected_of_inSession (account : SessionId → String) {labels : List Action}
    {s : State} (run : GuardedRun (State.step account) InSession initial labels s) :
    NeverResurrected account s := by
  have holds : Inv account s :=
    run.invariant (Inv.initial account) fun _ _ _ inSession taken held => held.step inSession taken
  exact holds.neverResurrected

/-- A session whose token is refreshed after a 401 and that is logged out, and
then another one. -/
def refreshedThenLoggedOut : List Action :=
  [.login, .calls 0, .replies 0 .ok, .request, .replies 1 (.status 401), .replies 2 .ok,
   .resumes 1, .replies 1 .ok, .calls 3, .replies 3 .ok, .logout, .calls 4, .replies 4 .ok,
   .login, .calls 5, .replies 5 .ok]

def accounts : SessionId → String
  | 0 => "ann"
  | _ => "bob"

theorem neverResurrected_refreshedThenLoggedOut :
    ∃ s, GuardedRun (State.step accounts) InSession initial refreshedThenLoggedOut s ∧
      (s.store, s.refused) = (⟨some 1, some 1, some "bob", true, true⟩, {0}) ∧
      NeverResurrected accounts s := by
  have evaluates : (runGuarded (State.step accounts) InSession initial refreshedThenLoggedOut).map
      (fun s => (s.store, s.refused)) = some (⟨some 1, some 1, some "bob", true, true⟩, {0}) := by
    decide +kernel
  obtain ⟨s, run, shown⟩ := GuardedRun.of_eval_map evaluates
  exact ⟨s, run, shown, neverResurrected_of_inSession accounts run⟩
end TradingPlatform.AuthStore
