import TradingPlatform.Auth.SignIn

namespace TradingPlatform.SignIn
open Access (Uuid Tables)
open RowQueries StepRuns

section Logout
variable {service : Service} {s after : Accounts} {user : Uuid} {token : String}

/-- A call that is going to answer a refresh of the token, as its user. -/
def Accounts.Reads (service : Service) (s : Accounts) (user : Uuid) (token : String) : Prop :=
  ∃ t presented session checkedAt, s.tasks t = .readUser presented session user checkedAt ∧
    service.hashToken presented = service.hashToken token

/-- The user's sessions with the token are revoked, one session has its hash,
and the answers to its refreshes are of calls that were past the check in `start`. -/
structure LoggedOut (service : Service) (start : Accounts) (user : Uuid) (token : String)
    (s : Accounts) : Prop where
  sound : s.Sound service
  known : ∃ id session, s.sessions.lookup id = some session ∧
    session.refreshTokenHash = service.hashToken token
  revoked : ∀ id session, s.sessions.lookup id = some session → session.userId = user →
    session.refreshTokenHash = service.hashToken token → session.isRevoked = true
  reads : s.Reads service user token → start.Reads service user token
  grants : ∀ g ∈ s.grants, g.user = user → ∀ presented session checkedAt,
    g.grounds = .refreshed presented session checkedAt →
    service.hashToken presented = service.hashToken token →
    g ∈ start.grants ∨ start.Reads service user token

/-- Not an answer to a refresh. -/
def Task.Plain : Task → Prop
  | .readUser .. => False
  | _ => True

/-- Neither a session nor an access token. -/
def Effect.Plain : Effect → Prop
  | .insertSession .. | .grants _ => False
  | _ => True

theorem startRegister_plain {form : RegisterRequest} {group : Option Uuid} :
    (startRegister form group).task.Plain := by
  unfold startRegister
  repeat' split
  all_goals trivial

theorem afterSlug_plain {form : RegisterRequest} {group : Option Uuid} :
    (afterSlug form group).task.Plain := by
  unfold afterSlug
  split
  next => trivial
  next => exact startRegister_plain

theorem chooseGroup_plain {form : RegisterRequest} {group referrerGroup referredBy : Option Uuid} :
    (chooseGroup form group referrerGroup referredBy).task.Plain := by
  unfold chooseGroup
  split <;> trivial

theorem onFailure_plain {task : Task} : (Accounts.onFailure task).task.Plain := by
  cases task with
  | findSlug => exact afterSlug_plain
  | findReferrerGroup | checkReferrerGroup => exact startRegister_plain
  | _ => trivial

theorem begin_plain {action : Action} {t : ℕ} {next : Next}
    (begins : begin service action = some (t, next)) : next.task.Plain := by
  cases action with
  | register t form =>
    obtain ⟨_, rfl⟩ := Prod.mk.inj (Option.some.inj begins)
    split
    · exact afterSlug_plain
    · exact afterSlug_plain
    · trivial
  | login | refresh | logout | impersonate =>
    obtain ⟨_, rfl⟩ := Prod.mk.inj (Option.some.inj begins)
    trivial
  | resetRequest | resetVerify | resetConfirm =>
    obtain ⟨_, rfl⟩ := Prod.mk.inj (Option.some.inj begins)
    split <;> trivial
  | advance | edit => exact nomatch begins

/-- The statements that have to do with sessions: one is opened, its tokens are
handed out, a refresh finds one, and is answered. -/
theorem statement_cases {now : ℤ} {draw : Draw} {task : Task} {effect : Effect} {next : Next}
    (executes : s.statement service now draw task = some (effect, next)) :
    (effect.Plain ∧ next.task.Plain) ∨
    (next.task.Plain ∧ ∃ id row, effect = .insertSession id row ∧
      ∀ other session, s.sessions.lookup other = some session →
        session.refreshTokenHash ≠ row.refreshTokenHash) ∨
    (next.task.Plain ∧ ∃ grant presented, task = .answer grant presented ∧ effect = .grants grant) ∨
    (effect.Plain ∧ ∃ presented id row, next.task = .readUser presented id row.userId now ∧
      s.sessions.lookup id = some row ∧ row.refreshTokenHash = service.hashToken presented ∧
      row.isRevoked = false) ∨
    (next.task.Plain ∧ ∃ presented session u checkedAt grant,
      task = .readUser presented session u checkedAt ∧ effect = .grants grant ∧ grant.user = u ∧
      grant.grounds = .refreshed presented session checkedAt) := by
  have quiet {next' : Next} (same : some (Effect.nothing, next') = some (effect, next))
      (plain : next'.task.Plain) : effect.Plain ∧ next.task.Plain := by
    obtain ⟨rfl, rfl⟩ := Prod.mk.inj (Option.some.inj same)
    exact ⟨trivial, plain⟩
  cases task with
  | idle => exact .inl (quiet executes trivial)
  | findSlug form slug =>
    obtain ⟨found, _, executes⟩ := Option.bind_eq_some_iff.mp executes
    exact .inl (quiet executes afterSlug_plain)
  | findReferrerGroup form code =>
    obtain ⟨found, _, executes⟩ := Option.bind_eq_some_iff.mp executes
    split at executes
    · exact .inl (quiet executes startRegister_plain)
    · exact .inl (quiet executes trivial)
  | checkReferrerGroup form group => exact .inl (quiet executes startRegister_plain)
  | checkEmail form group =>
    obtain ⟨found, _, executes⟩ := Option.bind_eq_some_iff.mp executes
    split at executes
    · exact .inl (quiet executes trivial)
    · exact .inl (quiet executes trivial)
    · exact .inl (quiet executes chooseGroup_plain)
  | findReferrer form group code =>
    obtain ⟨found, _, executes⟩ := Option.bind_eq_some_iff.mp executes
    exact .inl (quiet executes chooseGroup_plain)
  | checkGroup form group referredBy => exact .inl (quiet executes trivial)
  | findUser email password =>
    obtain ⟨found, selected, executes⟩ := Option.bind_eq_some_iff.mp executes
    repeat' split at executes
    all_goals exact .inl (quiet executes trivial)
  | findReset | findVerify | matchCode | matchToken =>
    obtain ⟨found, _, executes⟩ := Option.bind_eq_some_iff.mp executes
    split at executes <;> exact .inl (quiet executes trivial)
  | checkActor | readTarget =>
    simp only [Accounts.statement] at executes
    split at executes <;> exact .inl (quiet executes trivial)
  | ensureDefault | revoke | storeToken | setPassword | markUsed =>
    obtain ⟨rfl, rfl⟩ := Prod.mk.inj (Option.some.inj executes)
    exact .inl ⟨trivial, trivial⟩
  | insertUser form group referredBy =>
    simp only [Accounts.statement] at executes
    split at executes
    · exact .inl (quiet executes trivial)
    · obtain ⟨rfl, rfl⟩ := Prod.mk.inj (Option.some.inj executes)
      exact .inl ⟨trivial, trivial⟩
  | insertReset user email =>
    simp only [Accounts.statement] at executes
    split at executes
    · obtain ⟨rfl, rfl⟩ := Prod.mk.inj (Option.some.inj executes)
      exact .inl ⟨trivial, trivial⟩
    · simp at executes
  | insertSession user row grounds =>
    simp only [Accounts.statement] at executes
    split at executes
    next => simp at executes
    next unique =>
      obtain ⟨rfl, rfl⟩ := Prod.mk.inj (Option.some.inj executes)
      refine .inr (.inl ⟨trivial, _, _, rfl, fun other session stored same => unique ?_⟩)
      exact List.any_eq_true.mpr
        ⟨⟨other, session⟩, AList.mem_lookup_iff.mp stored, by simpa using same⟩
  | answer grant token =>
    obtain ⟨rfl, rfl⟩ := Prod.mk.inj (Option.some.inj executes)
    exact .inr (.inr (.inl ⟨trivial, grant, token, rfl, rfl⟩))
  | checkSession token =>
    obtain ⟨found, selected, executes⟩ := Option.bind_eq_some_iff.mp executes
    split at executes
    next => exact .inl (quiet executes trivial)
    next id session =>
      obtain ⟨stored, matched⟩ := stored_of_selectOne selected
      obtain ⟨rfl, rfl⟩ := Prod.mk.inj (Option.some.inj executes)
      simp only [Bool.and_eq_true, decide_eq_true_eq, Bool.not_eq_true'] at matched
      exact .inr (.inr (.inr (.inl ⟨trivial, token, id, session, rfl, stored, matched.1.1,
        matched.1.2⟩)))
  | readUser token session user checkedAt =>
    simp only [Accounts.statement] at executes
    split at executes
    next => exact .inl (quiet executes trivial)
    next row found =>
      split at executes
      next => exact .inl (quiet executes trivial)
      next active =>
        obtain ⟨rfl, rfl⟩ := Prod.mk.inj (Option.some.inj executes)
        exact .inr (.inr (.inr (.inr ⟨trivial, token, session, user, checkedAt, _, rfl, rfl, rfl,
          rfl⟩)))

theorem session_of_write {id : Uuid} {row : UserSession} {effect : Effect}
    (stored : (s.write effect).sessions.lookup id = some row) :
    effect = .insertSession id row ∨ ∃ before, s.sessions.lookup id = some before ∧
      before.userId = row.userId ∧ before.refreshTokenHash = row.refreshTokenHash ∧
      (before.isRevoked = true → row.isRevoked = true) := by
  cases effect with
  | insertSession new session =>
    by_cases same : id = new
    · subst same
      have inserted : session = row := by simpa [Accounts.write] using stored
      exact .inl (by rw [inserted])
    · exact .inr ⟨row, by simpa only [Accounts.write, AList.lookup_insert_ne same] using stored,
        rfl, rfl, fun revoked => revoked⟩
  | revoke user hash =>
    rw [Accounts.write, lookup_updateWhere] at stored
    obtain ⟨before, there, same⟩ := Option.map_eq_some_iff.mp stored
    refine .inr ⟨before, there, ?_⟩
    split at same <;> subst same
    · exact ⟨rfl, rfl, fun _ => rfl⟩
    · exact ⟨rfl, rfl, fun revoked => revoked⟩
  | defaultGroup =>
    refine .inr ⟨row, ?_, rfl, rfl, fun revoked => revoked⟩
    simp only [Accounts.write] at stored
    split at stored <;> exact stored
  | _ => exact .inr ⟨row, stored, rfl, rfl, fun revoked => revoked⟩

theorem grants_of_write {effect : Effect} {g : Grant} (member : g ∈ (s.write effect).grants) :
    g ∈ s.grants ∨ effect = .grants g := by
  cases effect with
  | grants grant => exact (List.mem_cons.mp member).symm.imp_right fun same => by rw [same]
  | defaultGroup =>
    simp only [Accounts.write] at member
    split at member <;> exact .inl member
  | _ => exact .inl member

theorem reads_setTask {t : ℕ} {task : Task} (plain : task.Plain)
    (reads : (s.setTask t task).Reads service user token) : s.Reads service user token := by
  obtain ⟨u, presented, session, checkedAt, at_, same⟩ := reads
  by_cases here : u = t
  · subst here
    simp only [Accounts.setTask, Function.update_self] at at_
    rw [at_] at plain
    exact plain.elim
  · simp only [Accounts.setTask, Function.update_of_ne here] at at_
    exact ⟨u, presented, session, checkedAt, at_, same⟩

theorem reads_write {effect : Effect} (reads : (s.write effect).Reads service user token) :
    s.Reads service user token := by
  obtain ⟨t, presented, session, checkedAt, at_, same⟩ := reads
  exact ⟨t, presented, session, checkedAt, by rw [← at_, tasks_write], same⟩

theorem LoggedOut.step {start : Accounts} (out : LoggedOut service start user token s)
    {action : Action} (taken : s.step service action = some after) :
    LoggedOut service start user token after := by
  have sound := out.sound.step taken
  rcases step_cases taken with ⟨users, groups, tables, keeps, rfl⟩ | ⟨t, rfl⟩ |
    ⟨t, next, begins, rfl⟩ | ⟨t, now, draw, effect, next, rfl, newSession, newReset, executes, rfl⟩
  · exact ⟨sound, out.known, out.revoked, out.reads, out.grants⟩
  · exact ⟨sound, out.known, out.revoked, fun reads => out.reads (reads_setTask onFailure_plain reads),
      out.grants⟩
  · exact ⟨sound, out.known, out.revoked,
      fun reads => out.reads (reads_setTask (begin_plain begins) reads), out.grants⟩
  · obtain ⟨allows, _⟩ := statement_sound out.sound newSession newReset (out.sound.tasks t) executes
    have cases := statement_cases executes
    obtain ⟨opened, before, stored, hash⟩ := out.known
    refine ⟨sound, ?_, fun id row stored' owner same => ?_, fun reads => ?_,
      fun g member owner presented session checkedAt grounds same => ?_⟩
    · obtain ⟨isRevoked, kept, _⟩ := (grows_write allows).sessions opened before stored
      exact ⟨opened, _, kept, hash⟩
    · rcases session_of_write stored' with inserted | ⟨old, there, sameUser, sameHash, still⟩
      · subst inserted
        rcases cases with ⟨plain, _⟩ | ⟨_, id', row', inserts, fresh⟩ | ⟨_, _, _, _, grants⟩ |
          ⟨plain, _⟩ | ⟨_, _, _, _, _, _, _, grants, _⟩
        · exact plain.elim
        · obtain ⟨rfl, rfl⟩ := Effect.insertSession.inj inserts
          exact absurd (hash.trans same.symm) (fresh opened before stored)
        · simp at grants
        · exact plain.elim
        · simp at grants
      · exact still (out.revoked id old there (sameUser.trans owner) (sameHash.trans same))
    · have plainly (plain : next.task.Plain) : start.Reads service user token :=
        out.reads (reads_write (reads_setTask plain reads))
      rcases cases with ⟨_, plain⟩ | ⟨plain, _⟩ | ⟨plain, _⟩ |
        ⟨_, presented, id, row, goes, there, shown, valid⟩ | ⟨plain, _⟩
      · exact plainly plain
      · exact plainly plain
      · exact plainly plain
      · obtain ⟨u, presented', session, checkedAt, at_, same⟩ := reads
        by_cases here : u = t
        · subst here
          simp only [Accounts.setTask, Function.update_self] at at_
          obtain ⟨rfl, rfl, owner, _⟩ := Task.readUser.inj (goes.symm.trans at_)
          have revoked := out.revoked id row there owner (shown.trans same)
          exact absurd (valid.symm.trans revoked) (by decide)
        · simp only [Accounts.setTask, Function.update_of_ne here] at at_
          exact out.reads (reads_write ⟨u, presented', session, checkedAt, at_, same⟩)
      · exact plainly plain
    · rcases grants_of_write member with before' | given
      · exact out.grants g before' owner presented session checkedAt grounds same
      · subst given
        rcases cases with ⟨plain, _⟩ | ⟨_, _, _, inserts, _⟩ | ⟨_, grant, _, calls, gives⟩ |
          ⟨plain, _⟩ | ⟨_, presented', session', u, checkedAt', grant, calls, gives, about, made⟩
        · exact plain.elim
        · simp at inserts
        · have opens : grant.Opens service := by
            have holds := out.sound.tasks t
            rwa [calls] at holds
          obtain rfl := Effect.grants.inj gives
          have never := opens.2
          rw [grounds] at never
          exact never.elim
        · exact plain.elim
        · obtain rfl := Effect.grants.inj gives
          obtain ⟨rfl, _⟩ := Grounds.refreshed.inj (grounds.symm.trans made)
          exact .inr (out.reads ⟨t, presented, session', checkedAt', by rw [calls, ← about, owner],
            same⟩)

theorem step_revoke {start : Accounts} {t : ℕ} {now : ℤ} {draw : Draw}
    (calls : s.tasks t = .revoke user token)
    (logsOut : s.step service (.advance t now draw false) = some start) :
    start = (s.write (.revoke user (service.hashToken token))).setTask t .idle := by
  simp only [Accounts.step, calls, Bool.false_eq_true, if_false] at logsOut
  split at logsOut
  · simp at logsOut
  · exact (Option.some.inj logsOut).symm

/-- The user logs out. -/
def leaving : List Action := [.logout 0 7 "eJs0yvVPLiIKzZQecbiNWDaGbQ2Fi2NUnpS+LKzGf1s="]

/-- The refresh token is tried once more. -/
def comingBack : List Action :=
  [.refresh 0 "eJs0yvVPLiIKzZQecbiNWDaGbQ2Fi2NUnpS+LKzGf1s=", .advance 0 7 {} false]

end Logout

end TradingPlatform.SignIn
