import TradingPlatform.Auth.Accounts

namespace TradingPlatform.SignIn
open Access (Uuid Tables checkPermission)
open RowQueries StepRuns

section Invariants
variable (service : Service)

/-- What makes the code open a session for the row of a user. -/
def Grounds.Opens (row : User) : Grounds → Prop
  | .registered => row.role = "user" ∧ row.status = .active ∧ row.deleted = false
  | .password text => row.status = .active ∧ row.deleted = false ∧
      service.verifyPassword text row.passwordHash = some true
  | .impersonated actor tables => row.deleted = false ∧
      checkPermission tables actor "users:edit" = .ok ()
  | .refreshed .. => False

/-- The access token says what the row of the user said. -/
def Grant.Tells (g : Grant) : Prop := ∃ now, g.claims = .new service now g.user g.row

def Grant.Opens (g : Grant) : Prop := g.Tells service ∧ g.grounds.Opens service g.row

namespace Accounts
variable (s : Accounts)

/-- The session was the user's and had not expired when the token was checked. -/
def Checked (token : String) (session user : Uuid) (checkedAt : ℤ) : Prop :=
  ∃ row, s.sessions.lookup session = some row ∧ row.userId = user ∧
    row.refreshTokenHash = service.hashToken token ∧ checkedAt < row.expiresAt

/-- The access token was refreshed by a session of an active user. -/
def Renews (g : Grant) : Prop :=
  g.Tells service ∧ g.row.status = .active ∧ g.row.deleted = false ∧
    ∃ token session checkedAt, g.grounds = .refreshed token session checkedAt ∧
      s.Checked service token session g.user checkedAt

/-- Texts with which a user's password may be set, and until when: a code that
was mailed to the user, and a token that was given out for such a text in time. -/
inductive Entitled : Uuid → String → ℤ → Prop
  | mailed {mail : Mail} : mail ∈ s.mails → Entitled mail.user mail.code (mail.at_ + minutes 10)
  | verified {v : Verified} {text : String} {deadline : ℤ} : v ∈ s.verified →
      Entitled v.user text deadline → service.hashToken v.presented = service.hashToken text →
      v.at_ < deadline → Entitled v.user v.token (v.at_ + minutes 15)

/-- The text that was presented passes for one of the user's. -/
def Passes (user : Uuid) (presented : String) (at_ : ℤ) : Prop :=
  ∃ text deadline, s.Entitled service user text deadline ∧
    service.hashToken presented = service.hashToken text ∧ at_ < deadline

def OwnsReset (id user : Uuid) : Prop :=
  ∃ row, s.resetTokens.lookup id = some row ∧ row.userId = user

/-- What a call has found out holds. -/
def TaskSound : Task → Prop
  | .insertSession _ row grounds => grounds.Opens service row
  | .answer grant _ => grant.Opens service
  | .readUser token session user checkedAt => s.Checked service token session user checkedAt
  | .readTarget actor _ tables => checkPermission tables actor "users:edit" = .ok ()
  | .storeToken id user otp checkedAt => s.OwnsReset id user ∧ s.Passes service user otp checkedAt
  | .setPassword user token _ checkedAt => s.Passes service user token checkedAt
  | _ => True

/-- The invariant. -/
structure Sound : Prop where
  sessions : ∀ id session, s.sessions.lookup id = some session →
    session.refreshTokenHash = service.hashToken session.token ∧
      session.opening.user = session.userId ∧ session.opening.Opens service
  grants : ∀ g ∈ s.grants, g.Opens service ∨ s.Renews service g
  resets : ∀ id row, s.resetTokens.lookup id = some row → ∃ text,
    s.Entitled service row.userId text row.expiresAt ∧ row.tokenHash = service.hashToken text
  passwords : ∀ id row, s.users.lookup id = some row → row.passwordHash = row.firstHash ∨
    ∃ change ∈ s.changes, change.user = id ∧ change.passwordHash = row.passwordHash
  changes : ∀ change ∈ s.changes, s.Passes service change.user change.presented change.at_
  tasks : ∀ t, s.TaskSound service (s.tasks t)

end Accounts

/-- What no statement takes back. -/
structure Grows (s s' : Accounts) : Prop where
  sessions : ∀ id session, s.sessions.lookup id = some session →
    ∃ isRevoked, s'.sessions.lookup id = some { session with isRevoked } ∧
      (session.isRevoked = true → isRevoked = true)
  resets : ∀ id user, s.OwnsReset id user → s'.OwnsReset id user
  mails : ∀ mail ∈ s.mails, mail ∈ s'.mails
  verified : ∀ v ∈ s.verified, v ∈ s'.verified

namespace Grows
variable {service} {s s' : Accounts} {user : Uuid} {text : String} {time : ℤ}

theorem refl (s : Accounts) : Grows s s where
  sessions := fun _ session stored => ⟨session.isRevoked, stored, id⟩
  resets := fun _ _ owns => owns
  mails := fun _ => id
  verified := fun _ => id

theorem checked (grows : Grows s s') {session : Uuid}
    (checked : s.Checked service text session user time) :
    s'.Checked service text session user time := by
  obtain ⟨row, stored, rest⟩ := checked
  obtain ⟨isRevoked, stored', _⟩ := grows.sessions session row stored
  exact ⟨_, stored', rest⟩

theorem renews (grows : Grows s s') {g : Grant} (renews : s.Renews service g) :
    s'.Renews service g := by
  obtain ⟨tells, active, present, token, session, checkedAt, grounds, checked⟩ := renews
  exact ⟨tells, active, present, token, session, checkedAt, grounds, grows.checked checked⟩

theorem entitled (grows : Grows s s') (entitled : s.Entitled service user text time) :
    s'.Entitled service user text time := by
  induction entitled with
  | mailed sent => exact .mailed (grows.mails _ sent)
  | verified given _ same inTime ih => exact .verified (grows.verified _ given) ih same inTime

theorem passes (grows : Grows s s') (passes : s.Passes service user text time) :
    s'.Passes service user text time := by
  obtain ⟨known, deadline, entitled, rest⟩ := passes
  exact ⟨known, deadline, grows.entitled entitled, rest⟩

theorem taskSound (grows : Grows s s') {task : Task} (sound : s.TaskSound service task) :
    s'.TaskSound service task := by
  cases task with
  | readUser => exact grows.checked sound
  | storeToken => exact ⟨grows.resets _ _ sound.1, grows.passes sound.2⟩
  | setPassword => exact grows.passes sound
  | _ => exact sound

end Grows

/-- What makes an effect keep the invariant. -/
def Accounts.Allows (s : Accounts) : Effect → Prop
  | .nothing | .defaultGroup | .revoke .. | .markUsed .. => True
  | .insertUser _ row => row.passwordHash = row.firstHash
  | .insertSession id session => id ∉ s.sessions ∧
      session.refreshTokenHash = service.hashToken session.token ∧
      session.opening.user = session.userId ∧ session.opening.Opens service
  | .grants grant => grant.Opens service ∨ s.Renews service grant
  | .insertReset id row mail => id ∉ s.resetTokens ∧ row.userId = mail.user ∧
      row.tokenHash = service.hashToken mail.code ∧ row.expiresAt = mail.at_ + minutes 10
  | .storeToken id hash expiresAt v => s.OwnsReset id v.user ∧
      hash = service.hashToken v.token ∧ expiresAt = v.at_ + minutes 15 ∧
      s.Passes service v.user v.presented v.at_
  | .setPassword change => s.Passes service change.user change.presented change.at_

end Invariants

section Writes
variable {service : Service} {s : Accounts} {effect : Effect}

theorem tasks_write : (s.write effect).tasks = s.tasks := by
  cases effect with
  | defaultGroup =>
    simp only [Accounts.write]
    split <;> rfl
  | _ => rfl

theorem grows_write (allows : s.Allows service effect) : Grows s (s.write effect) := by
  cases effect with
  | nothing => exact .refl s
  | defaultGroup =>
    simp only [Accounts.write]
    split
    · exact .refl s
    · exact ⟨(Grows.refl s).sessions, fun _ _ owns => owns, fun _ sent => sent, fun _ given => given⟩
  | insertUser | grants | setPassword =>
    exact ⟨(Grows.refl s).sessions, fun _ _ owns => owns, fun _ sent => sent, fun _ given => given⟩
  | insertSession id session =>
    refine ⟨fun other row stored => ?_, fun _ _ owns => owns, fun _ sent => sent, fun _ given => given⟩
    have apart : other ≠ id := by
      rintro rfl
      exact allows.1 (AList.lookup_isSome.mp (by rw [stored]; rfl))
    exact ⟨row.isRevoked, by simpa only [Accounts.write, AList.lookup_insert_ne apart] using stored,
      fun revoked => revoked⟩
  | revoke user hash =>
    refine ⟨fun id row stored => ?_, fun _ _ owns => owns, fun _ sent => sent, fun _ given => given⟩
    simp only [Accounts.write, lookup_updateWhere, stored, Option.map_some]
    split
    · exact ⟨true, rfl, fun _ => rfl⟩
    · exact ⟨row.isRevoked, rfl, fun revoked => revoked⟩
  | insertReset id row mail =>
    refine ⟨(Grows.refl s).sessions, fun other user owns => ?_,
      fun _ sent => List.mem_cons_of_mem _ sent, fun _ given => given⟩
    obtain ⟨before, stored, same⟩ := owns
    have apart : other ≠ id := by
      rintro rfl
      exact allows.1 (AList.lookup_isSome.mp (by rw [stored]; rfl))
    exact ⟨before, by simpa only [Accounts.write, AList.lookup_insert_ne apart] using stored, same⟩
  | storeToken id hash expiresAt v =>
    refine ⟨(Grows.refl s).sessions, fun other user owns => ?_, fun _ sent => sent,
      fun _ given => List.mem_cons_of_mem _ given⟩
    obtain ⟨row, stored, _⟩ := allows.1
    obtain ⟨before, stored', same⟩ := owns
    by_cases this : other = id
    · subst this
      cases stored.symm.trans stored'
      exact ⟨{ row with tokenHash := hash, expiresAt }, by simp [Accounts.write, stored], same⟩
    · refine ⟨before, ?_, same⟩
      simpa only [Accounts.write, stored, AList.lookup_insert_ne this] using stored'
  | markUsed hash usedAt =>
    refine ⟨(Grows.refl s).sessions, fun id user owns => ?_, fun _ sent => sent, fun _ given => given⟩
    obtain ⟨row, stored, same⟩ := owns
    refine ⟨if row.tokenHash = hash then { row with usedAt := some usedAt } else row, ?_, ?_⟩
    · simp [Accounts.write, lookup_updateWhere, stored]
    · split <;> exact same

/-- An effect that its call may have keeps the invariant. -/
theorem Accounts.Sound.write (sound : s.Sound service) (allows : s.Allows service effect) :
    (s.write effect).Sound service := by
  have grows := grows_write allows
  have grants : ∀ g ∈ s.grants, g.Opens service ∨ (s.write effect).Renews service g :=
    fun g member => (sound.grants g member).imp_right grows.renews
  have resets : ∀ id row, s.resetTokens.lookup id = some row → ∃ text,
      (s.write effect).Entitled service row.userId text row.expiresAt ∧
        row.tokenHash = service.hashToken text := by
    intro id row stored
    obtain ⟨text, entitled, same⟩ := sound.resets id row stored
    exact ⟨text, grows.entitled entitled, same⟩
  have changes : ∀ change ∈ s.changes,
      (s.write effect).Passes service change.user change.presented change.at_ :=
    fun change member => grows.passes (sound.changes change member)
  have tasks : ∀ t, (s.write effect).TaskSound service ((s.write effect).tasks t) := by
    intro t
    rw [tasks_write]
    exact grows.taskSound (sound.tasks t)
  cases effect with
  | nothing => exact sound
  | defaultGroup =>
    by_cases there : defaultGroupId ∈ s.groups
    · simpa only [Accounts.write, if_pos there] using sound
    · simp only [Accounts.write, if_neg there] at grants resets changes tasks ⊢
      exact ⟨sound.sessions, grants, resets, sound.passwords, changes, tasks⟩
  | insertUser id row =>
    refine ⟨sound.sessions, grants, resets, fun other user stored => ?_, changes, tasks⟩
    by_cases same : other = id
    · subst same
      have new : row = user := by simpa [Accounts.write] using stored
      exact .inl (new ▸ allows)
    · exact sound.passwords other user
        (by simpa only [Accounts.write, AList.lookup_insert_ne same] using stored)
  | insertSession id session =>
    refine ⟨fun other row stored => ?_, grants, resets, sound.passwords, changes, tasks⟩
    by_cases same : other = id
    · subst same
      have new : session = row := by simpa [Accounts.write] using stored
      exact new ▸ allows.2
    · exact sound.sessions other row
        (by simpa only [Accounts.write, AList.lookup_insert_ne same] using stored)
  | grants grant =>
    refine ⟨sound.sessions, fun g member => ?_, resets, sound.passwords, changes, tasks⟩
    rcases List.mem_cons.mp member with rfl | before
    · exact allows.imp_right grows.renews
    · exact grants g before
  | revoke user hash =>
    refine ⟨fun id row stored => ?_, grants, resets, sound.passwords, changes, tasks⟩
    rw [Accounts.write, lookup_updateWhere] at stored
    obtain ⟨before, there, same⟩ := Option.map_eq_some_iff.mp stored
    have holds := sound.sessions id before there
    split at same <;> subst same <;> exact holds
  | insertReset id row mail =>
    refine ⟨sound.sessions, grants, fun other found stored => ?_, sound.passwords, changes, tasks⟩
    by_cases same : other = id
    · subst same
      obtain ⟨_, user, hash, expires⟩ := allows
      have new : row = found := by simpa [Accounts.write] using stored
      subst new
      refine ⟨mail.code, ?_, hash⟩
      rw [user, expires]
      exact .mailed List.mem_cons_self
    · exact resets other found
        (by simpa only [Accounts.write, AList.lookup_insert_ne same] using stored)
  | storeToken id hash expiresAt v =>
    obtain ⟨⟨row, there, owner⟩, stores, expires, known, deadline, entitled, shown, inTime⟩ := allows
    refine ⟨sound.sessions, grants, fun other found stored => ?_, sound.passwords, changes, tasks⟩
    simp only [Accounts.write, there] at stored
    by_cases same : other = id
    · subst same
      have new : { row with tokenHash := hash, expiresAt } = found := by simpa using stored
      subst new
      refine ⟨v.token, ?_, stores⟩
      rw [show (ResetToken.userId { row with tokenHash := hash, expiresAt }) = v.user from owner,
        show (ResetToken.expiresAt { row with tokenHash := hash, expiresAt }) = _ from expires]
      exact .verified List.mem_cons_self (grows.entitled entitled) shown inTime
    · exact resets other found (by simpa only [AList.lookup_insert_ne same] using stored)
  | setPassword change =>
    refine ⟨sound.sessions, grants, resets, fun id row stored => ?_, fun other member => ?_, tasks⟩
    · have kept (before : User) (there : s.users.lookup id = some before) :
          before.passwordHash = before.firstHash ∨ ∃ c ∈ change :: s.changes,
            c.user = id ∧ c.passwordHash = before.passwordHash :=
        (sound.passwords id before there).imp_right fun ⟨c, member, rest⟩ =>
          ⟨c, List.mem_cons_of_mem _ member, rest⟩
      simp only [Accounts.write] at stored
      split at stored
      next => exact kept row stored
      next before there =>
        by_cases same : id = change.user
        · subst same
          have new : { before with passwordHash := change.passwordHash } = row := by
            simpa using stored
          subst new
          exact .inr ⟨change, List.mem_cons_self, rfl, rfl⟩
        · exact kept row (by simpa only [AList.lookup_insert_ne same] using stored)
    · rcases List.mem_cons.mp member with rfl | before
      · exact grows.passes allows
      · exact changes other before
  | markUsed hash usedAt =>
    refine ⟨sound.sessions, grants, fun id row stored => ?_, sound.passwords, changes, tasks⟩
    rw [Accounts.write, lookup_updateWhere] at stored
    obtain ⟨before, there, same⟩ := Option.map_eq_some_iff.mp stored
    have holds := resets id before there
    split at same <;> subst same <;> exact holds

end Writes

section Calls
variable {service : Service} {s : Accounts}

theorem startRegister_sound {form : RegisterRequest} {group : Option Uuid} :
    s.TaskSound service (startRegister form group).task := by
  unfold startRegister
  repeat' split
  all_goals trivial

theorem afterSlug_sound {form : RegisterRequest} {group : Option Uuid} :
    s.TaskSound service (afterSlug form group).task := by
  unfold afterSlug
  split
  next => trivial
  next => exact startRegister_sound

theorem chooseGroup_sound {form : RegisterRequest} {group referrerGroup referredBy : Option Uuid} :
    s.TaskSound service (chooseGroup form group referrerGroup referredBy).task := by
  unfold chooseGroup
  split <;> trivial

theorem onFailure_sound {task : Task} : s.TaskSound service (Accounts.onFailure task).task := by
  cases task with
  | findSlug => exact afterSlug_sound
  | findReferrerGroup | checkReferrerGroup => exact startRegister_sound
  | _ => trivial

theorem begin_sound {action : Action} {t : ℕ} {next : Next}
    (begins : begin service action = some (t, next)) : s.TaskSound service next.task := by
  cases action with
  | register t form =>
    obtain ⟨_, rfl⟩ := Prod.mk.inj (Option.some.inj begins)
    split
    · exact afterSlug_sound
    · exact afterSlug_sound
    · trivial
  | login | refresh | logout | impersonate =>
    obtain ⟨_, rfl⟩ := Prod.mk.inj (Option.some.inj begins)
    trivial
  | resetRequest | resetVerify | resetConfirm =>
    obtain ⟨_, rfl⟩ := Prod.mk.inj (Option.some.inj begins)
    split <;> trivial
  | advance | edit => exact nomatch begins

/-- What a call's next statement writes is allowed, and what the call has then
found out holds. -/
theorem statement_sound (sound : s.Sound service) {now : ℤ} {draw : Draw}
    (newSession : draw.id ∉ s.sessions) (newReset : draw.id ∉ s.resetTokens) {task : Task}
    (holds : s.TaskSound service task) {effect : Effect} {next : Next}
    (executes : s.statement service now draw task = some (effect, next)) :
    s.Allows service effect ∧ (s.write effect).TaskSound service next.task := by
  have quiet {next' : Next} (same : some (Effect.nothing, next') = some (effect, next))
      (sound' : s.TaskSound service next'.task) :
      s.Allows service effect ∧ (s.write effect).TaskSound service next.task := by
    obtain ⟨rfl, rfl⟩ := Prod.mk.inj (Option.some.inj same)
    exact ⟨trivial, sound'⟩
  cases task with
  | idle => exact quiet executes trivial
  | findSlug form slug =>
    obtain ⟨found, _, executes⟩ := Option.bind_eq_some_iff.mp executes
    exact quiet executes afterSlug_sound
  | findReferrerGroup form code =>
    obtain ⟨found, _, executes⟩ := Option.bind_eq_some_iff.mp executes
    split at executes
    · exact quiet executes startRegister_sound
    · exact quiet executes trivial
  | checkReferrerGroup form group => exact quiet executes startRegister_sound
  | checkEmail form group =>
    obtain ⟨found, _, executes⟩ := Option.bind_eq_some_iff.mp executes
    split at executes
    · exact quiet executes trivial
    · exact quiet executes trivial
    · exact quiet executes chooseGroup_sound
  | findReferrer form group code =>
    obtain ⟨found, _, executes⟩ := Option.bind_eq_some_iff.mp executes
    exact quiet executes chooseGroup_sound
  | checkGroup form group referredBy => exact quiet executes trivial
  | ensureDefault form group referredBy =>
    obtain ⟨rfl, rfl⟩ := Prod.mk.inj (Option.some.inj executes)
    exact ⟨trivial, trivial⟩
  | insertUser form group referredBy =>
    simp only [Accounts.statement] at executes
    split at executes
    · exact quiet executes trivial
    · obtain ⟨rfl, rfl⟩ := Prod.mk.inj (Option.some.inj executes)
      exact ⟨rfl, rfl, rfl, rfl⟩
  | insertSession user row grounds =>
    simp only [Accounts.statement] at executes
    split at executes
    · exact nomatch executes
    · obtain ⟨rfl, rfl⟩ := Prod.mk.inj (Option.some.inj executes)
      exact ⟨⟨newSession, rfl, rfl, ⟨now, rfl⟩, holds⟩, ⟨now, rfl⟩, holds⟩
  | answer grant token =>
    obtain ⟨rfl, rfl⟩ := Prod.mk.inj (Option.some.inj executes)
    exact ⟨.inl holds, trivial⟩
  | findUser email password =>
    obtain ⟨found, selected, executes⟩ := Option.bind_eq_some_iff.mp executes
    split at executes
    next => exact quiet executes trivial
    next id user =>
      obtain ⟨_, matched⟩ := stored_of_selectOne selected
      split at executes
      next => exact quiet executes trivial
      next active =>
        split at executes
        · exact quiet executes trivial
        · exact quiet executes trivial
        next verified =>
          have present : user.deleted = false := by simpa using (Bool.and_eq_true_iff.mp matched).2
          exact quiet executes
            ⟨not_not.mp active, present, verified⟩
  | checkSession token =>
    obtain ⟨found, selected, executes⟩ := Option.bind_eq_some_iff.mp executes
    split at executes
    next => exact quiet executes trivial
    next id session =>
      obtain ⟨stored, matched⟩ := stored_of_selectOne selected
      simp only [Bool.and_eq_true, decide_eq_true_eq] at matched
      exact quiet executes
        ⟨session, stored, rfl, matched.1.1, matched.2⟩
  | readUser token session user checkedAt =>
    simp only [Accounts.statement] at executes
    split at executes
    next => exact quiet executes trivial
    next row found =>
      split at executes
      next => exact quiet executes trivial
      next active =>
        obtain ⟨rfl, rfl⟩ := Prod.mk.inj (Option.some.inj executes)
        have present : row.deleted = false := by simpa using (Option.filter_eq_some_iff.mp found).2
        exact ⟨.inr ⟨⟨now, rfl⟩, not_not.mp active, present, token, session, checkedAt, rfl, holds⟩,
          trivial⟩
  | revoke user token =>
    obtain ⟨rfl, rfl⟩ := Prod.mk.inj (Option.some.inj executes)
    exact ⟨trivial, trivial⟩
  | checkActor actor target =>
    simp only [Accounts.statement] at executes
    split at executes
    next => exact quiet executes trivial
    next permitted =>
      exact quiet executes permitted
  | readTarget actor target tables =>
    simp only [Accounts.statement] at executes
    split at executes
    next => exact quiet executes trivial
    next row found =>
      have present : row.deleted = false := by simpa using (Option.filter_eq_some_iff.mp found).2
      exact quiet executes
        ⟨present, holds⟩
  | findReset email =>
    obtain ⟨found, _, executes⟩ := Option.bind_eq_some_iff.mp executes
    split at executes <;> exact quiet executes trivial
  | insertReset user email =>
    simp only [Accounts.statement] at executes
    split at executes
    · obtain ⟨rfl, rfl⟩ := Prod.mk.inj (Option.some.inj executes)
      exact ⟨⟨newReset, rfl, rfl, rfl⟩, trivial⟩
    · exact nomatch executes
  | findVerify email otp =>
    obtain ⟨found, _, executes⟩ := Option.bind_eq_some_iff.mp executes
    split at executes <;> exact quiet executes trivial
  | matchCode user otp =>
    obtain ⟨found, selected, executes⟩ := Option.bind_eq_some_iff.mp executes
    split at executes
    next => exact quiet executes trivial
    next id row =>
      obtain ⟨stored, matched⟩ := stored_of_selectOne selected
      simp only [Bool.and_eq_true, decide_eq_true_eq] at matched
      obtain ⟨text, entitled, same⟩ := sound.resets id row stored
      obtain ⟨⟨⟨owner, shown⟩, _⟩, inTime⟩ := matched
      exact quiet executes
        ⟨⟨row, stored, owner⟩, text, row.expiresAt, owner ▸ entitled, shown.symm.trans same, inTime⟩
  | storeToken row user otp checkedAt =>
    obtain ⟨rfl, rfl⟩ := Prod.mk.inj (Option.some.inj executes)
    exact ⟨⟨holds.1, rfl, rfl, holds.2⟩, trivial⟩
  | matchToken token password =>
    obtain ⟨found, selected, executes⟩ := Option.bind_eq_some_iff.mp executes
    split at executes
    next => exact quiet executes trivial
    next id row =>
      obtain ⟨stored, matched⟩ := stored_of_selectOne selected
      simp only [Bool.and_eq_true, decide_eq_true_eq] at matched
      obtain ⟨text, entitled, same⟩ := sound.resets id row stored
      exact quiet executes
        ⟨text, row.expiresAt, entitled, matched.1.1.symm.trans same, matched.2⟩
  | setPassword user token password checkedAt =>
    obtain ⟨rfl, rfl⟩ := Prod.mk.inj (Option.some.inj executes)
    exact ⟨holds, trivial⟩
  | markUsed token checkedAt =>
    obtain ⟨rfl, rfl⟩ := Prod.mk.inj (Option.some.inj executes)
    exact ⟨trivial, trivial⟩

end Calls

section Runs
variable {service : Service} {s after : Accounts}

/-- Tasks, and tables with nothing of the invariant, change. -/
theorem Accounts.Sound.setTask (sound : s.Sound service) {t : ℕ} {task : Task}
    (holds : s.TaskSound service task) : (s.setTask t task).Sound service := by
  have grows : Grows s (s.setTask t task) :=
    ⟨(Grows.refl s).sessions, fun _ _ owns => owns, fun _ sent => sent, fun _ given => given⟩
  refine ⟨sound.sessions, fun g member => (sound.grants g member).imp_right grows.renews,
    fun id row stored => ?_, sound.passwords, fun c member => grows.passes (sound.changes c member),
    fun u => grows.taskSound ?_⟩
  · obtain ⟨text, entitled, same⟩ := sound.resets id row stored
    exact ⟨text, grows.entitled entitled, same⟩
  · by_cases same : u = t
    · subst same
      simpa [Accounts.setTask] using holds
    · simpa [Accounts.setTask, same] using sound.tasks u

theorem Accounts.Sound.edit (sound : s.Sound service) {users : FiniteTable Uuid User}
    {groups : FiniteTable Uuid Group} {tables : Tables}
    (keeps : keepsPasswords s.users users = true) : { s with users, groups, tables }.Sound service := by
  have grows : Grows s { s with users, groups, tables } :=
    ⟨(Grows.refl s).sessions, fun _ _ owns => owns, fun _ sent => sent, fun _ given => given⟩
  refine ⟨sound.sessions, fun g member => (sound.grants g member).imp_right grows.renews,
    fun id row stored => ?_, fun id row stored => ?_,
    fun c member => grows.passes (sound.changes c member), fun u => grows.taskSound (sound.tasks u)⟩
  · obtain ⟨text, entitled, same⟩ := sound.resets id row stored
    exact ⟨text, grows.entitled entitled, same⟩
  · obtain ⟨old, new⟩ := Bool.and_eq_true_iff.mp keeps
    have listed := List.all_eq_true.mp new ⟨id, row⟩ (AList.mem_lookup_iff.mp stored)
    rcases (Bool.or_eq_true _ _).mp listed with before | first
    · obtain ⟨user, there⟩ := Option.isSome_iff_exists.mp
        (AList.lookup_isSome.mpr (of_decide_eq_true before))
      have same := List.all_eq_true.mp old ⟨id, user⟩ (AList.mem_lookup_iff.mp there)
      obtain ⟨row', stored', kept⟩ := (Option.any_eq_true _ _).mp same
      cases stored.symm.trans stored'
      obtain ⟨hash, firstHash⟩ := Bool.and_eq_true_iff.mp kept
      have held := sound.passwords id user there
      rwa [← of_decide_eq_true hash, ← of_decide_eq_true firstHash] at held
    · exact .inl (of_decide_eq_true first)

/-- A call that begins does so where its task is idle. -/
theorem step_of_begin {start : Action} {t : ℕ} {next : Next}
    (begins : begin service start = some (t, next)) (taken : s.step service start = some after) :
    after = s.setTask t next.task := by
  cases start with
  | edit | advance => simp [begin] at begins
  | _ =>
    simp only [Accounts.step, begins] at taken
    split at taken
    next => exact (Option.some.inj taken).symm
    next => simp at taken

/-- What one step can do: another route edits, a statement fails, a call begins,
or its next statement is executed. -/
theorem step_cases {action : Action} (taken : s.step service action = some after) :
    (∃ users groups tables, keepsPasswords s.users users = true ∧
      after = { s with users, groups, tables }) ∨
    (∃ t, after = s.setTask t (Accounts.onFailure (s.tasks t)).task) ∨
    (∃ t next, begin service action = some (t, next) ∧ after = s.setTask t next.task) ∨
    ∃ t now draw effect next, action = .advance t now draw false ∧ draw.id ∉ s.sessions ∧
      draw.id ∉ s.resetTokens ∧ s.statement service now draw (s.tasks t) = some (effect, next) ∧
      after = (s.write effect).setTask t next.task := by
  cases action with
  | edit users groups tables =>
    simp only [Accounts.step] at taken
    split at taken
    next keeps => exact .inl ⟨users, groups, tables, keeps, (Option.some.inj taken).symm⟩
    next => simp at taken
  | advance t now draw fails =>
    simp only [Accounts.step] at taken
    split at taken
    next => simp at taken
    next =>
      split at taken
      next => exact .inr (.inl ⟨t, (Option.some.inj taken).symm⟩)
      next runs =>
        split at taken
        next => simp at taken
        next isNew =>
          rw [not_or, not_or] at isNew
          obtain ⟨⟨effect, next⟩, executes, same⟩ := Option.map_eq_some_iff.mp taken
          refine .inr (.inr (.inr ⟨t, now, draw, effect, next, ?_, isNew.2.1, isNew.2.2, executes,
            same.symm⟩))
          simp [Bool.eq_false_of_not_eq_true runs]
  | _ => exact .inr (.inr (.inl ⟨_, _, rfl, step_of_begin rfl taken⟩))

theorem Accounts.Sound.step (sound : s.Sound service) {action : Action}
    (taken : s.step service action = some after) : after.Sound service := by
  rcases step_cases taken with ⟨users, groups, tables, keeps, rfl⟩ | ⟨t, rfl⟩ |
    ⟨t, next, begins, rfl⟩ | ⟨t, now, draw, effect, next, rfl, newSession, newReset, executes, rfl⟩
  · exact sound.edit keeps
  · exact sound.setTask onFailure_sound
  · exact sound.setTask (begin_sound begins)
  · obtain ⟨allows, holds⟩ := statement_sound sound newSession newReset (sound.tasks t) executes
    exact (sound.write allows).setTask holds

theorem sound_fresh {users : FiniteTable Uuid User} {groups : FiniteTable Uuid Group}
    {tables : Tables} : (Accounts.fresh users groups tables).Sound service where
  sessions := fun _ _ stored => nomatch stored
  grants := fun _ member => nomatch member
  resets := fun _ _ stored => nomatch stored
  passwords := by
    intro id row stored
    rw [Accounts.fresh, lookup_updateWhere] at stored
    obtain ⟨before, _, rfl⟩ := Option.map_eq_some_iff.mp stored
    exact .inl rfl
  changes := fun _ member => nomatch member
  tasks := fun _ => trivial

variable {users : FiniteTable Uuid User} {groups : FiniteTable Uuid Group} {tables : Tables}
  {actions : List Action}

theorem sound_of_run
    (run : Run (Accounts.step service) (.fresh users groups tables) actions s) : s.Sound service :=
  run.invariant sound_fresh fun _ _ _ _ taken sound => sound.step taken

/-- Every access token goes back to a registration, to the password of an active
user or to an actor who may edit users, for the same user: at once, or through
the refresh token of a session that was opened so. -/
theorem tokens_of_run
    (run : Run (Accounts.step service) (.fresh users groups tables) actions s) {g : Grant}
    (granted : g ∈ s.grants) :
    g.Tells service ∧ (g.grounds.Opens service g.row ∨
      g.row.status = .active ∧ g.row.deleted = false ∧ ∃ token session checkedAt row,
        g.grounds = .refreshed token session checkedAt ∧ s.sessions.lookup session = some row ∧
        row.userId = g.user ∧ service.hashToken row.token = service.hashToken token ∧
        checkedAt < row.expiresAt ∧ row.opening.user = g.user ∧ row.opening.Opens service) := by
  have sound := sound_of_run run
  rcases sound.grants g granted with ⟨tells, opens⟩ | ⟨tells, active, present, renews⟩
  · exact ⟨tells, .inl opens⟩
  · obtain ⟨token, session, checkedAt, grounds, row, stored, owner, shown, inTime⟩ := renews
    obtain ⟨hash, opener, opens⟩ := sound.sessions session row stored
    exact ⟨tells, .inr ⟨active, present, token, session, checkedAt, row, grounds, stored, owner,
      hash.symm.trans shown, inTime, opener.trans owner, opens⟩⟩

/-- A user's password is the first one, or was set for a text that passes for a
code mailed to the user not ten minutes before, or for a token that was given
out for such a text not a quarter of an hour before. -/
theorem passwords_of_run
    (run : Run (Accounts.step service) (.fresh users groups tables) actions s) {id : Uuid}
    {row : User} (stored : s.users.lookup id = some row) :
    row.passwordHash = row.firstHash ∨ ∃ change ∈ s.changes,
      change.passwordHash = row.passwordHash ∧
        s.Passes service id change.presented change.at_ := by
  have sound := sound_of_run run
  refine (sound.passwords id row stored).imp_right ?_
  rintro ⟨change, member, rfl, same⟩
  exact ⟨change, member, same, sound.changes change member⟩

end Runs

section Examples

/-- A password hash is told by its salt, and tokens with their digests are listed. -/
def plainService : Service where
  hashPassword salt password :=
    "$argon2id$v=19$m=19456,t=2,p=1$" ++ toString salt ++ "$" ++ password
  verifyPassword password hash :=
    some (("$" ++ password).toList.reverse <+: hash.toList.reverse)
  hashToken token :=
    ([("eJs0yvVPLiIKzZQecbiNWDaGbQ2Fi2NUnpS+LKzGf1s=",
        "9776b4b5426c6181993d961b29a1926245e3ba6c321b520799c1873cfe93f88a"),
      ("042917", "39f441d2e565b4ec059c26fbebebebb494fb41fc99f1b21567ae2e5b54a21823"),
      ("7f1c9f0e-5b1d-4a53-9d0e-3a0b3f6f5a10",
        "c00d17ad86155feda589312db0d66ba64d8c7d63ad1db3e0880187eace953a1a")].lookup token).getD ""
  toLowercase := id
  lower := id
  accessTtl := 900
  refreshTtl := 2592000

/-- One user, whose password is `spring-2024`. -/
def oneUser : FiniteTable Uuid User := (∅ : FiniteTable Uuid User).insert 7
  { email := "ann@desk"
    passwordHash := "$argon2id$v=19$m=19456,t=2,p=1$3$spring-2024"
    role := "user"
    status := .active
    groupId := some 1
    referralCode := none
    referredByUserId := none
    deleted := false
    firstHash := "" }

def noTables : Tables where
  users := ∅
  managers := ∅
  tagAssignments := []
  permissionProfileGrants := []
  leads := []
  userGroups := ∅

def desk : Accounts := .fresh oneUser ∅ noTables

/-- The user logs in, and refreshes the access token. -/
def stayingIn : List Action :=
  [.login 0 "ann@desk" "spring-2024", .advance 0 1 { pick := some 7 } false,
    .advance 0 2 { id := 11, secret := "eJs0yvVPLiIKzZQecbiNWDaGbQ2Fi2NUnpS+LKzGf1s=" } false,
    .advance 0 3 {} false,
    .refresh 0 "eJs0yvVPLiIKzZQecbiNWDaGbQ2Fi2NUnpS+LKzGf1s=",
    .advance 0 4 { pick := some 11 } false, .advance 0 5 {} false]

/-- The refresh token that an access token was made for, its session and the
time of the check. -/
def Grant.renewal (g : Grant) : Option (String × Uuid × ℤ) :=
  match g.grounds with
  | .refreshed token session checkedAt => some (token, session, checkedAt)
  | _ => none

theorem renewal_eq {g : Grant} {token : String} {session : Uuid} {checkedAt : ℤ}
    (same : g.renewal = some (token, session, checkedAt)) :
    g.grounds = .refreshed token session checkedAt := by
  unfold Grant.renewal at same
  split at same
  next grounds =>
    cases same
    exact grounds
  next => exact nomatch same

theorem tokens_stayingIn : ∃ (s : Accounts) (g : Grant), g ∈ s.grants ∧ g.user = 7 ∧
    g.grounds = .refreshed "eJs0yvVPLiIKzZQecbiNWDaGbQ2Fi2NUnpS+LKzGf1s=" 11 4 ∧
    (g.Tells plainService ∧ (g.grounds.Opens plainService g.row ∨
      g.row.status = .active ∧ g.row.deleted = false ∧ ∃ token session checkedAt row,
        g.grounds = .refreshed token session checkedAt ∧ s.sessions.lookup session = some row ∧
        row.userId = g.user ∧ plainService.hashToken row.token = plainService.hashToken token ∧
        checkedAt < row.expiresAt ∧ row.opening.user = g.user ∧ row.opening.Opens plainService)) := by
  have eval : (runGuarded (Accounts.step plainService) (fun _ _ => True) desk stayingIn).map
      (fun s => s.grants.map fun g => (g.user, g.renewal)) =
        some [(7, some ("eJs0yvVPLiIKzZQecbiNWDaGbQ2Fi2NUnpS+LKzGf1s=", 11, 4)), (7, none)] := by
    decide +kernel
  obtain ⟨s, run, shown⟩ := GuardedRun.of_eval_map eval
  obtain ⟨g, granted, same⟩ := List.mem_map.mp (show (7, some
    ("eJs0yvVPLiIKzZQecbiNWDaGbQ2Fi2NUnpS+LKzGf1s=", (11 : Uuid), (4 : ℤ))) ∈ _ from
      shown ▸ List.mem_cons_self)
  obtain ⟨user, refreshed⟩ := Prod.mk.inj same
  exact ⟨s, g, granted, user, renewal_eq refreshed, tokens_of_run run granted⟩

/-- The user has forgotten the password, and sets a new one. -/
def forgotten : List Action :=
  [.resetRequest 0 "ann@desk ", .advance 0 1 { pick := some 7 } false,
    .advance 0 2 { id := 21, secret := "042917" } false,
    .resetVerify 0 "ann@desk" "042917", .advance 0 3 { pick := some 7 } false,
    .advance 0 4 { pick := some 21 } false,
    .advance 0 5 { secret := "7f1c9f0e-5b1d-4a53-9d0e-3a0b3f6f5a10" } false,
    .resetConfirm 0 "7f1c9f0e-5b1d-4a53-9d0e-3a0b3f6f5a10" "autumn-2024",
    .advance 0 6 { pick := some 21 } false, .advance 0 7 { salt := 8 } false]

theorem passwords_forgotten : ∃ (s : Accounts) (row : User), s.users.lookup 7 = some row ∧
    row.passwordHash = "$argon2id$v=19$m=19456,t=2,p=1$8$autumn-2024" ∧
    (row.passwordHash = row.firstHash ∨ ∃ change ∈ s.changes,
      change.passwordHash = row.passwordHash ∧
        s.Passes plainService 7 change.presented change.at_) := by
  have eval : (runGuarded (Accounts.step plainService) (fun _ _ => True) desk forgotten).map
      (fun s => (s.users.lookup 7).map (·.passwordHash)) =
        some (some "$argon2id$v=19$m=19456,t=2,p=1$8$autumn-2024") := by decide +kernel
  obtain ⟨s, run, shown⟩ := GuardedRun.of_eval_map eval
  obtain ⟨row, stored, hash⟩ := Option.map_eq_some_iff.mp shown
  exact ⟨s, row, stored, hash, passwords_of_run run stored⟩

end Examples
end TradingPlatform.SignIn
