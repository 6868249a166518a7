import TradingPlatform.Gateway.CallDesk

namespace TradingPlatform

namespace CallPhase

def reinserts : CallPhase → Bool
  | .reinsert _ _ => true
  | _ => false

def announces : CallPhase → Bool
  | .announce _ _ => true
  | _ => false

def rings : CallPhase → Bool
  | .ring _ => true
  | _ => false

/-- A message about the call has only arrived. -/
def arrived : CallPhase → Bool
  | .get _ _ => true
  | .remove _ _ _ => true
  | _ => false

end CallPhase

/-- What the desk holds of one call, with the tasks that are about it. -/
structure CallView where
  entry : Option CallState
  runs : CallTask → Option CallPhase
  outcomes : List Announcement
  parties : Option (String × String)
  rang : Prop

def CallDesk.view (s : CallDesk) (id : CallId) : CallView where
  entry := s.calls.lookup id
  runs := fun t => (s.tasks.lookup t).filter fun phase => phase.about = id
  outcomes := s.outcomes id
  parties := s.parties.lookup id
  rang := s.Rang id

namespace CallView

def NoHolder (v : CallView) : Prop := ∀ t phase, v.runs t = some phase → phase.reinserts = false

def Quiet (v : CallView) : Prop := ∀ t phase, v.runs t = some phase → phase.announces = false

/-- The task has the call and is the only one. -/
def HeldBy (v : CallView) (t : CallTask) (state : CallState) : Prop :=
  (∃ user, v.runs t = some (.reinsert user state)) ∧
    ∀ t' phase, v.runs t' = some phase → phase.reinserts = true → t' = t

/-- The task has something to announce and is the only one. -/
def Only (v : CallView) (t : CallTask) (id : CallId) (what : Announcement) : Prop :=
  v.runs t = some (.announce id what) ∧
    ∀ t' phase, v.runs t' = some phase → phase.announces = true → t' = t

/-- The call is in the registry, or with the task that took it out by mistake. -/
def Located (v : CallView) (state : CallState) : Prop :=
  (v.entry = some state ∧ v.NoHolder) ∨ (v.entry = none ∧ ∃ t, v.HeldBy t state)

def Nowhere (v : CallView) : Prop := v.entry = none ∧ v.NoHolder

/-- It is still to ring. -/
def Calling (v : CallView) : Prop := ∃ t phase, v.runs t = some phase ∧ phase.rings = true

/-- The timeout is still to come. -/
def Due (v : CallView) (id : CallId) : Prop :=
  v.runs (.timer id) = some (.expire id) ∨ v.Calling

/-- What has become of a call. -/
inductive Track (id : CallId) (v : CallView) : Prop
  | ringing (state : CallState) (located : v.Located state) (status : state.status = .ringing)
      (quiet : v.Quiet) (silent : v.outcomes = []) (due : v.Due id)
  | accepting (state : CallState) (t : CallTask) (located : v.Located state)
      (status : state.status = .accepted) (only : v.Only t id .accepted) (silent : v.outcomes = [])
  | accepted (state : CallState) (located : v.Located state) (status : state.status = .accepted)
      (quiet : v.Quiet) (told : v.outcomes = [.accepted])
  | closing (t : CallTask) (what : Announcement) (nowhere : v.Nowhere) (only : v.Only t id what)
      (told : v.outcomes = [] ∨
        v.outcomes = [.accepted] ∧ what.final = true ∧ what ≠ .timeout)
  | closed (nowhere : v.Nowhere) (quiet : v.Quiet)
      (told : v.outcomes.Pairwise Announcement.MayFollow)
      (answered : v.rang ∨ v.Calling → v.outcomes ≠ [])

/-- The tasks and the entry belong to the call. -/
structure Known (v : CallView) (id : CallId) : Prop where
  timer : ∀ j phase, v.runs (.timer j) = some phase →
    j = id ∧ v.rang ∧ (phase = .expire id ∨ phase = .announce id .timeout)
  ring : ∀ t state, v.runs t = some (.ring state) → ¬v.rang ∧ v.runs (.timer id) = none ∧
    v.parties = some (state.adminUserId, state.targetUserId) ∧
    ∀ t' phase, v.runs t' = some phase → phase.rings = true → t' = t
  entry : ∀ state, v.entry = some state →
    state.callId = id ∧ v.parties = some (state.adminUserId, state.targetUserId)
  held : ∀ t user state, v.runs t = some (.reinsert user state) →
    v.parties = some (state.adminUserId, state.targetUserId)
  about : ∀ t phase, v.runs t = some phase → phase.about = id
  unborn : v.parties = none → v.outcomes = [] ∧ ¬v.rang ∧
    ∀ t phase, v.runs t = some phase → phase.arrived = true

/-- One of the tasks goes on with a phase, or ends. -/
def goes (v : CallView) (t : CallTask) (next : Option CallPhase) : CallView :=
  { v with runs := Function.update v.runs t next }

/-- A phase that only looks at the call. -/
def Looks (phase : CallPhase) : Prop :=
  phase.reinserts = false ∧ phase.announces = false ∧ phase.rings = false

variable {v v' : CallView} {id : CallId} {t : CallTask} {phase : CallPhase}
  {next : Option CallPhase} {state : CallState} {what : Announcement}

/-- What holds of the tasks before holds after one of them has gone on. -/
theorem forall_update {P : CallTask → CallPhase → Prop}
    (others : ∀ t' other, t' ≠ t → v.runs t' = some other → P t' other)
    (own : ∀ phase ∈ next, P t phase) :
    ∀ t' other, Function.update v.runs t next t' = some other → P t' other := by
  intro t' other runs
  by_cases same : t' = t
  · subst same
    rw [Function.update_self] at runs
    exact own other runs
  · rw [Function.update_of_ne same] at runs
    exact others t' other same runs

theorem NoHolder.update (free : v.NoHolder) (own : ∀ phase ∈ next, phase.reinserts = false) :
    ∀ t' other, Function.update v.runs t next t' = some other → other.reinserts = false :=
  forall_update (fun t' other _ runs => free t' other runs) own

theorem Quiet.update (quiet : v.Quiet) (own : ∀ phase ∈ next, phase.announces = false) :
    ∀ t' other, Function.update v.runs t next t' = some other → other.announces = false :=
  forall_update (fun t' other _ runs => quiet t' other runs) own

/-- The task that had something to announce has announced it. -/
theorem Only.quiet (only : v.Only t id what) (own : ∀ phase ∈ next, phase.announces = false) :
    ∀ t' other, Function.update v.runs t next t' = some other → other.announces = false := by
  refine forall_update (fun t' other apart runs => ?_) own
  by_contra announces
  exact apart (only.2 t' other runs (by simpa using announces))

/-- The task that held the call has inserted it. -/
theorem HeldBy.free (held : v.HeldBy t state) (own : ∀ phase ∈ next, phase.reinserts = false) :
    ∀ t' other, Function.update v.runs t next t' = some other → other.reinserts = false := by
  refine forall_update (fun t' other apart runs => ?_) own
  by_contra reinserts
  exact apart (held.2 t' other runs (by simpa using reinserts))

theorem Quiet.only (quiet : v.Quiet) :
    (v.goes t (some (.announce id what))).Only t id what := by
  refine ⟨Function.update_self .., forall_update (fun t' other _ runs announces => ?_)
    fun _ _ _ => rfl⟩
  rw [quiet t' other runs] at announces
  cases announces

theorem NoHolder.heldBy (free : v.NoHolder) (user : String) :
    (v.goes t (some (.reinsert user state))).HeldBy t state := by
  refine ⟨⟨user, Function.update_self ..⟩, forall_update (fun t' other _ runs reinserts => ?_)
    fun _ _ _ => rfl⟩
  rw [free t' other runs] at reinserts
  cases reinserts

/-- A call that is in the registry is not at the same time with a task. -/
theorem Located.of_entry (located : v.Located state) {entry : CallState}
    (found : v.entry = some entry) : entry = state ∧ v.NoHolder := by
  obtain ⟨there, free⟩ | ⟨absent, -⟩ := located
  · rw [there] at found
    exact ⟨(Option.some.inj found).symm, free⟩
  · rw [absent] at found
    cases found

theorem Located.of_holder (located : v.Located state) {user : String} {held : CallState}
    (runs : v.runs t = some (.reinsert user held)) : held = state ∧ v.HeldBy t state := by
  obtain ⟨-, free⟩ | ⟨-, t', ⟨user', has⟩, alone⟩ := located
  · exact absurd (free t _ runs) (by simp [CallPhase.reinserts])
  · have same : t = t' := alone t _ runs rfl
    subst same
    have phases := has.symm.trans runs
    simp only [Option.some.injEq, CallPhase.reinsert.injEq] at phases
    obtain ⟨rfl, rfl⟩ := phases
    exact ⟨rfl, ⟨user', has⟩, alone⟩

theorem Nowhere.not_entry (nowhere : v.Nowhere) : v.entry ≠ some state := by
  simp [nowhere.1]

theorem Calling.update (calling : v.Calling) (was : ∀ phase, v.runs t = some phase →
    phase.rings = false) : (v.goes t next).Calling := by
  obtain ⟨t', other, runs, rings⟩ := calling
  refine ⟨t', other, ?_, rings⟩
  have apart : t' ≠ t := by
    rintro rfl
    rw [was other runs] at rings
    cases rings
  exact (Function.update_of_ne apart _ _).trans runs

theorem Due.goes (due : v.Due id)
    (was : ∀ phase, v.runs t = some phase → phase.rings = false ∧ phase ≠ .expire id) :
    (v.goes t next).Due id := by
  obtain timer | calling := due
  · have apart : .timer id ≠ t := by
      rintro rfl
      exact (was _ timer).2 rfl
    exact .inl ((Function.update_of_ne apart _ _).trans timer)
  · exact .inr (calling.update fun phase runs => (was phase runs).1)

theorem Calling.of_update (own : ∀ phase ∈ next, phase.rings = false)
    (calling : (v.goes t next).Calling) : v.Calling := by
  obtain ⟨t', other, runs, rings⟩ := calling
  change Function.update v.runs t next t' = some other at runs
  by_cases same : t' = t
  · subst same
    rw [Function.update_self] at runs
    rw [own other runs] at rings
    cases rings
  · rw [Function.update_of_ne same] at runs
    exact ⟨t', other, runs, rings⟩

theorem Located.goes (located : v.Located state)
    (was : ∀ phase, v.runs t = some phase → phase.reinserts = false)
    (own : ∀ phase ∈ next, phase.reinserts = false) : (v.goes t next).Located state := by
  obtain ⟨found, free⟩ | ⟨absent, t', ⟨user, has⟩, alone⟩ := located
  · exact .inl ⟨found, free.update own⟩
  · have apart : t' ≠ t := by
      rintro rfl
      exact absurd (was _ has) (by simp [CallPhase.reinserts])
    refine .inr ⟨absent, t', ⟨user, (Function.update_of_ne apart _ _).trans has⟩,
      forall_update (fun other phase _ runs => alone other phase runs) fun phase given reinserts => ?_⟩
    rw [own phase given] at reinserts
    cases reinserts

theorem Only.goes {t' : CallTask} (only : v.Only t' id what)
    (was : ∀ phase, v.runs t = some phase → phase.announces = false)
    (own : ∀ phase ∈ next, phase.announces = false) : (v.goes t next).Only t' id what := by
  have apart : t' ≠ t := by
    rintro rfl
    exact absurd (was _ only.1) (by simp [CallPhase.announces])
  refine ⟨(Function.update_of_ne apart _ _).trans only.1,
    forall_update (fun other phase _ runs => only.2 other phase runs) fun phase given announces => ?_⟩
  rw [own phase given] at announces
  cases announces

namespace Track

/-- A task that only looks at the call goes on and looks again. -/
theorem goes (track : Track id v)
    (was : ∀ phase, v.runs t = some phase → phase.reinserts = false ∧ phase.announces = false)
    (own : ∀ phase ∈ next, Looks phase)
    (due : ∀ state, v.Located state → state.status = .ringing → v.Due id → (v.goes t next).Due id) :
    Track id (v.goes t next) := by
  have reinserts := fun phase runs => (was phase runs).1
  have announces := fun phase runs => (was phase runs).2
  have inserts := fun phase given => (own phase given).1
  have tells := fun phase given => (own phase given).2.1
  cases track with
  | ringing state located status quiet silent pending =>
    exact .ringing state (located.goes reinserts inserts) status (quiet.update tells) silent
      (due state located status pending)
  | accepting state t' located status only silent =>
    exact .accepting state t' (located.goes reinserts inserts) status (only.goes announces tells)
      silent
  | accepted state located status quiet told =>
    exact .accepted state (located.goes reinserts inserts) status (quiet.update tells) told
  | closing t' what nowhere only told =>
    exact .closing t' what ⟨nowhere.1, nowhere.2.update inserts⟩ (only.goes announces tells) told
  | closed nowhere quiet told answered =>
    refine .closed ⟨nowhere.1, nowhere.2.update inserts⟩ (quiet.update tells) told fun rang => ?_
    exact answered (rang.imp_right fun calling =>
      calling.of_update fun phase given => (own phase given).2.2)

/-- An answer finds the call ringing. -/
theorem accept (track : Track id v) {entry : CallState} (found : v.entry = some entry)
    (status : entry.status = .ringing) :
    Track id { v.goes t (some (.announce id .accepted)) with
      entry := some { entry with status := .accepted } } := by
  cases track with
  | ringing state' located status' quiet silent due =>
    obtain ⟨-, free⟩ := located.of_entry found
    exact .accepting _ t (.inl ⟨rfl, free.update fun _ given => by cases given; rfl⟩) rfl
      quiet.only silent
  | accepting state' t' located status' only silent =>
    rw [(located.of_entry found).1, status'] at status
    cases status
  | accepted state' located status' quiet told =>
    rw [(located.of_entry found).1, status'] at status
    cases status
  | closing t' what nowhere only told => exact absurd found nowhere.not_entry
  | closed nowhere quiet told answered => exact absurd found nowhere.not_entry

/-- Whoever removes the call tells its outcome. -/
theorem remove (track : Track id v) (found : v.entry = some state) (final : what.final = true)
    (unaccepted : state.status = .accepted → ∀ t', v.runs t' ≠ some (.announce id .accepted))
    (timely : what = .timeout → state.status = .ringing) :
    Track id { v.goes t (some (.announce id what)) with entry := none } := by
  cases track with
  | ringing state' located status' quiet silent due =>
    obtain ⟨-, free⟩ := located.of_entry found
    exact .closing t what ⟨rfl, free.update fun _ given => by cases given; rfl⟩ quiet.only
      (.inl silent)
  | accepting state' t' located status' only silent =>
    obtain ⟨rfl, -⟩ := located.of_entry found
    exact absurd only.1 (unaccepted status' t')
  | accepted state' located status' quiet told =>
    obtain ⟨rfl, free⟩ := located.of_entry found
    refine .closing t what ⟨rfl, free.update fun _ given => by cases given; rfl⟩ quiet.only
      (.inr ⟨told, final, fun isTimeout => ?_⟩)
    rw [timely isTimeout] at status'
    cases status'
  | closing t' what nowhere only told => exact absurd found nowhere.not_entry
  | closed nowhere quiet told answered => exact absurd found nowhere.not_entry

/-- Whoever is refused has the call for a moment. -/
theorem hold (track : Track id v) (found : v.entry = some state) (user : String)
    (was : ∀ phase, v.runs t = some phase → Looks phase ∧ phase ≠ .expire id) :
    Track id { v.goes t (some (.reinsert user state)) with entry := none } := by
  have announces := fun phase runs => (was phase runs).1.2.1
  have tells : ∀ phase ∈ some (CallPhase.reinsert user state), phase.announces = false := by
    simp [CallPhase.announces]
  have held : v.NoHolder → Located { v.goes t (some (.reinsert user state)) with entry := none }
      state := fun free => .inr ⟨rfl, t, free.heldBy user⟩
  cases track with
  | ringing state' located status' quiet silent due =>
    obtain ⟨rfl, free⟩ := located.of_entry found
    exact .ringing state (held free) status' (quiet.update tells) silent
      (due.goes fun phase runs => ⟨(was phase runs).1.2.2, (was phase runs).2⟩)
  | accepting state' t' located status' only silent =>
    obtain ⟨rfl, free⟩ := located.of_entry found
    exact .accepting state t' (held free) status' (only.goes announces tells) silent
  | accepted state' located status' quiet told =>
    obtain ⟨rfl, free⟩ := located.of_entry found
    exact .accepted state (held free) status' (quiet.update tells) told
  | closing t' what nowhere only told => exact absurd found nowhere.not_entry
  | closed nowhere quiet told answered => exact absurd found nowhere.not_entry

/-- And inserts it again. -/
theorem reinsert (track : Track id v) {user : String}
    (running : v.runs t = some (.reinsert user state)) :
    Track id { v.goes t none with entry := some state } := by
  have quietly : ∀ phase, v.runs t = some phase → phase.announces = false := by
    intro phase runs
    rw [running] at runs
    cases runs
    rfl
  have back : v.HeldBy t state → Located { v.goes t none with entry := some state } state :=
    fun held => .inl ⟨rfl, held.free (by simp)⟩
  cases track with
  | ringing state' located status' quiet silent due =>
    obtain ⟨rfl, held⟩ := located.of_holder running
    refine .ringing state (back held) status' (quiet.update (by simp)) silent
      (due.goes fun phase runs => ?_)
    rw [running] at runs
    cases runs
    exact ⟨rfl, by simp⟩
  | accepting state' t' located status' only silent =>
    obtain ⟨rfl, held⟩ := located.of_holder running
    exact .accepting state t' (back held) status' (only.goes quietly (by simp)) silent
  | accepted state' located status' quiet told =>
    obtain ⟨rfl, held⟩ := located.of_holder running
    exact .accepted state (back held) status' (quiet.update (by simp)) told
  | closing t' what nowhere only told =>
    exact absurd (nowhere.2 t _ running) (by simp [CallPhase.reinserts])
  | closed nowhere quiet told answered =>
    exact absurd (nowhere.2 t _ running) (by simp [CallPhase.reinserts])

theorem announce (track : Track id v) (running : v.runs t = some (.announce id what)) :
    Track id { v.goes t none with outcomes := v.outcomes ++ [what] } := by
  have notOwn : ∀ phase, v.runs t = some phase → phase.reinserts = false := by
    intro phase runs
    rw [running] at runs
    cases runs
    rfl
  have announces : CallPhase.announces (.announce id what) = true := rfl
  cases track with
  | ringing state' located status' quiet silent due =>
    rw [quiet t _ running] at announces
    cases announces
  | accepting state' t' located status' only silent =>
    have same : t = t' := only.2 t _ running rfl
    subst same
    have phases := only.1.symm.trans running
    simp only [Option.some.injEq, CallPhase.announce.injEq, true_and] at phases
    subst phases
    exact .accepted state' (located.goes notOwn (by simp)) status' (only.quiet (by simp))
      (by simp [silent])
  | accepted state' located status' quiet told =>
    rw [quiet t _ running] at announces
    cases announces
  | closing t' what' nowhere only told =>
    have same : t = t' := only.2 t _ running rfl
    subst same
    have phases := only.1.symm.trans running
    simp only [Option.some.injEq, CallPhase.announce.injEq, true_and] at phases
    subst phases
    refine .closed ⟨nowhere.1, nowhere.2.update (by simp)⟩ (only.quiet (by simp)) ?_ (by simp)
    obtain silent | ⟨told, final, notTimeout⟩ := told
    · simp [silent]
    · have notAccepted : what' ≠ .accepted := by
        rintro rfl
        cases final
      simp [told, Announcement.MayFollow, Announcement.final, notTimeout, notAccepted]
  | closed nowhere quiet told answered =>
    rw [quiet t _ running] at announces
    cases announces

/-- It rings, and the timeout starts. -/
theorem ring (track : Track id v) (running : v.runs t = some (.ring state))
    (untimed : v.runs (.timer id) = none) :
    Track id { (v.goes t none).goes (.timer id) (some (.expire id)) with rang := True } := by
  have apart : .timer id ≠ t := by
    rintro rfl
    rw [untimed] at running
    cases running
  have rings : Track id { v with rang := True } := by
    cases track with
    | ringing state' located status quiet silent due =>
      exact .ringing state' located status quiet silent due
    | accepting state' t' located status only silent =>
      exact .accepting state' t' located status only silent
    | accepted state' located status quiet told => exact .accepted state' located status quiet told
    | closing t' what nowhere only told => exact .closing t' what nowhere only told
    | closed nowhere quiet told answered =>
      exact .closed nowhere quiet told fun _ => answered (.inr ⟨t, _, running, rfl⟩)
  have timed : Track id (({ v with rang := True } : CallView).goes (.timer id)
      (some (.expire id))) := by
    refine rings.goes (fun phase runs => ?_) (fun phase given => ?_) fun _ _ _ _ => ?_
    · rw [show v.runs (.timer id) = some phase from runs] at untimed
      cases untimed
    · cases given
      exact ⟨rfl, rfl, rfl⟩
    · exact .inl (Function.update_self ..)
  have ended : Track id ((({ v with rang := True } : CallView).goes (.timer id)
      (some (.expire id))).goes t none) := by
    refine timed.goes (fun phase runs => ?_) (by simp) fun _ _ _ _ => ?_
    · change Function.update v.runs _ _ t = some phase at runs
      rw [Function.update_of_ne apart.symm, running] at runs
      cases runs
      exact ⟨rfl, rfl⟩
    · exact .inl ((Function.update_of_ne apart _ _).trans (Function.update_self ..))
  have order : (v.goes t none).goes (.timer id) (some (.expire id)) =
      (v.goes (.timer id) (some (.expire id))).goes t none := by
    simp only [CallView.goes, Function.update_comm apart]
  rw [order]
  exact ended

/-- Nobody is there to be called. -/
theorem offline (track : Track id v) (free : v.NoHolder) (running : v.runs t = some (.ring state))
    (silent : ¬v.rang)
    (alone : ∀ t' phase, v.runs t' = some phase → phase.rings = true → t' = t) :
    Track id { v.goes t none with entry := none } := by
  have looks : ∀ phase, v.runs t = some phase → phase.announces = false := by
    intro phase runs
    rw [running] at runs
    cases runs
    rfl
  have nowhere : Nowhere { v.goes t none with entry := none } := ⟨rfl, free.update (by simp)⟩
  cases track with
  | ringing state' located status quiet none due =>
    refine .closed nowhere (quiet.update (by simp)) (by simp [CallView.goes, none]) ?_
    rintro (rang | ⟨t', phase, runs, rings⟩)
    · exact absurd rang silent
    · change Function.update v.runs t _ t' = some phase at runs
      by_cases same : t' = t
      · subst same
        rw [Function.update_self] at runs
        cases runs
      · rw [Function.update_of_ne same] at runs
        exact absurd (alone t' phase runs rings) same
  | accepting state' t' located status only none =>
    exact .closing t' .accepted nowhere (only.goes looks (by simp)) (.inl none)
  | accepted state' located status quiet told =>
    have told' : (v.goes t Option.none).outcomes = [.accepted] := told
    exact .closed nowhere (quiet.update (by simp)) (by simp [told']) (by simp [told'])
  | closing t' what _ only told => exact .closing t' what nowhere (only.goes looks (by simp)) told
  | closed _ quiet told answered =>
    refine .closed nowhere (quiet.update (by simp)) told fun rang => ?_
    exact answered (rang.imp_right fun calling => calling.of_update (by simp))

end Track

namespace Known

theorem not_timer (known : v.Known id) (running : v.runs t = some phase)
    (other : phase ≠ .expire id ∧ phase ≠ .announce id .timeout) (j : CallId) : t ≠ .timer j := by
  rintro rfl
  obtain ⟨-, -, due | timeout⟩ := known.timer j phase running
  · exact other.1 due
  · exact other.2 timeout

theorem goes (known : v.Known id) {entry : Option CallState} {outcomes : List Announcement}
    (belongs : ∀ state, entry = some state →
      state.callId = id ∧ v.parties = some (state.adminUserId, state.targetUserId))
    (timed : ∀ phase ∈ next, ∀ j, t = .timer j →
      v.runs t ≠ none ∧ phase = .announce id .timeout)
    (about : ∀ phase ∈ next, phase.about = id ∧ phase.rings = false)
    (held : ∀ user state, next = some (.reinsert user state) →
      v.parties = some (state.adminUserId, state.targetUserId))
    (unborn : v.parties = none → outcomes = [] ∧ ∀ phase ∈ next, phase.arrived = true) :
    Known { v.goes t next with entry, outcomes } id := by
  refine ⟨?_, ?_, belongs, ?_, ?_, ?_⟩
  · intro j phase runs
    change Function.update v.runs t next (.timer j) = some phase at runs
    by_cases same : .timer j = t
    · subst same
      rw [Function.update_self] at runs
      obtain ⟨was, rfl⟩ := timed phase runs j rfl
      obtain ⟨before, ran⟩ := Option.ne_none_iff_exists'.mp was
      obtain ⟨rfl, rang, -⟩ := known.timer j before ran
      exact ⟨rfl, rang, .inr rfl⟩
    · rw [Function.update_of_ne same] at runs
      exact known.timer j phase runs
  · intro t' state runs
    change Function.update v.runs t next t' = some _ at runs
    by_cases same : t' = t
    · subst same
      rw [Function.update_self] at runs
      exact absurd (about _ runs).2 (by simp [CallPhase.rings])
    · rw [Function.update_of_ne same] at runs
      obtain ⟨silent, untimed, parties, alone⟩ := known.ring t' state runs
      refine ⟨silent, ?_, parties, forall_update (fun other phase _ ran => alone other phase ran) ?_⟩
      · change Function.update v.runs t next (.timer id) = none
        by_cases timer : .timer id = t
        · subst timer
          rw [Function.update_self]
          by_contra given
          obtain ⟨phase, given⟩ := Option.ne_none_iff_exists'.mp given
          exact (timed phase given id rfl).1 untimed
        · rw [Function.update_of_ne timer, untimed]
      · intro phase given rings
        rw [(about phase given).2] at rings
        cases rings
  · intro t' user state runs
    change Function.update v.runs t next t' = some _ at runs
    by_cases same : t' = t
    · subst same
      rw [Function.update_self] at runs
      exact held user state runs
    · rw [Function.update_of_ne same] at runs
      exact known.held t' user state runs
  · exact forall_update (fun t' phase _ runs => known.about t' phase runs)
      fun phase given => (about phase given).1
  · intro missing
    obtain ⟨-, silent, arrived⟩ := known.unborn missing
    obtain ⟨none, first⟩ := unborn missing
    exact ⟨none, silent, forall_update (fun t' phase _ runs => arrived t' phase runs) first⟩

theorem rings (known : v.Known id) (running : v.runs t = some (.ring state)) :
    Known { (v.goes t none).goes (.timer id) (some (.expire id)) with rang := True } id := by
  obtain ⟨silent, untimed, parties, alone⟩ := known.ring t state running
  have others : ∀ P : CallTask → CallPhase → Prop,
      (∀ t' phase, t' ≠ t → v.runs t' = some phase → P t' phase) →
      P (.timer id) (.expire id) → ∀ t' phase, Function.update (Function.update v.runs t none)
        (.timer id) (some (.expire id)) t' = some phase → P t' phase := by
    intro P others own
    refine forall_update (v := v.goes t none) (fun t' phase _ runs => ?_) fun _ given => ?_
    · have nothing : ∀ phase ∈ (none : Option CallPhase), P t phase := by simp
      exact forall_update others nothing t' phase runs
    · cases given
      exact own
  refine ⟨?_, ?_, known.entry, ?_, ?_, ?_⟩
  · intro j phase runs
    refine others (fun t' phase => ∀ j, t' = .timer j →
      j = id ∧ True ∧ (phase = .expire id ∨ phase = .announce id .timeout)) ?_ ?_ _ phase runs j rfl
    · rintro _ phase _ runs j rfl
      exact absurd (known.timer j phase runs).2.1 silent
    · rintro j same
      cases same
      exact ⟨rfl, trivial, .inl rfl⟩
  · intro t' other runs
    refine absurd rfl (others (fun t' phase => phase ≠ .ring other) ?_ (by simp) t' _ runs)
    rintro t' _ apart runs rfl
    exact apart (alone t' _ runs rfl)
  · intro t' user held runs
    refine others (fun t' phase => ∀ user held, phase = .reinsert user held →
      v.parties = some (held.adminUserId, held.targetUserId)) ?_ (by simp) t' _ runs user held rfl
    rintro t' _ - runs user held rfl
    exact known.held t' user held runs
  · exact others (fun _ phase => phase.about = id) (fun t' phase _ => known.about t' phase) rfl
  · intro missing
    rw [show v.parties = none from missing] at parties
    cases parties

end Known

end CallView

end TradingPlatform
