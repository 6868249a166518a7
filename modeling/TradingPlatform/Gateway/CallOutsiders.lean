import TradingPlatform.Gateway.CallFinality

namespace TradingPlatform

open StepRuns

namespace CallDesk
variable {s after u : CallDesk} {t : CallTask} {id : CallId} {phase : CallPhase} {state : CallState}
  {next : Option CallPhase} {c : ConnId} {action : CallDeskAction} {user : String}

/-- An outsider was refused and has the call. -/
def HeldOutside (s : CallDesk) (id : CallId) : Prop :=
  ∃ t user state, s.tasks.lookup t = some (.reinsert user state) ∧ state.callId = id ∧
    s.outsider user id = true

/-- The second desk is the first without the messages of outsiders: a call that
one of them has is still in its registry. -/
structure SeenAlike (s u : CallDesk) : Prop where
  callers : u.callers = s.callers
  parties : u.parties = s.parties
  incoming : u.incoming = s.incoming
  announced : u.announced = s.announced
  tasks : ∀ t, u.tasks.lookup t = (s.tasks.lookup t).filter fun phase => !s.foreign phase
  back : ∀ t user state, s.tasks.lookup t = some (.reinsert user state) →
    s.outsider user state.callId = true →
      u.calls.lookup state.callId = some state ∧ s.calls.lookup state.callId = none
  calls : ∀ id, ¬s.HeldOutside id → u.calls.lookup id = s.calls.lookup id

theorem foreign_congr (parties : after.parties = s.parties) (phase : CallPhase) :
    after.foreign phase = s.foreign phase := by
  unfold foreign outsider
  rw [parties]

theorem not_heldOutside (unheld : s.unheld id = true) : ¬s.HeldOutside id := by
  rintro ⟨t, user, state, running, same, -⟩
  have free := all_tasks unheld running
  simp [same] at free

namespace SeenAlike

theorem userConnections (alike : SeenAlike s u) (userId : String) :
    u.userConnections userId = s.userConnections userId := by
  simp [CallDesk.userConnections, CallDesk.get, alike.callers]

theorem running (alike : SeenAlike s u) (running : s.tasks.lookup t = some phase)
    (inside : s.foreign phase = false) : u.tasks.lookup t = some phase := by
  rw [alike.tasks, running]
  simp [inside]

theorem idle (alike : SeenAlike s u) (idle : s.tasks.lookup t = none) :
    u.tasks.lookup t = none := by
  rw [alike.tasks, idle]
  rfl

/-- A task that no outsider started goes on in both. -/
theorem setTask (alike : SeenAlike s u)
    (was : ∀ phase, s.tasks.lookup t = some phase → s.foreign phase = false)
    (own : ∀ phase ∈ next, s.foreign phase = false) :
    SeenAlike (s.setTask t next) (u.setTask t next) := by
  have same : ∀ phase, (s.setTask t next).foreign phase = s.foreign phase :=
    foreign_congr setTask_parties
  refine ⟨by simp [alike.callers], by simp [alike.parties], by simp [alike.incoming],
    by simp [alike.announced], fun t' => ?_, fun t' user state running outside => ?_,
    fun id free => ?_⟩
  · rw [lookup_setTask, lookup_setTask]
    by_cases self : t' = t
    · subst self
      have kept : next.filter (fun phase => !s.foreign phase) = next := by
        cases next with
        | none => rfl
        | some phase => simp [own phase rfl]
      simp only [Function.update_self, same, kept]
    · rw [Function.update_of_ne self, Function.update_of_ne self, alike.tasks]
      simp [same]
  · rw [lookup_setTask] at running
    have outside' : s.foreign (.reinsert user state) = true := by
      rw [← same]
      exact outside
    by_cases self : t' = t
    · subst self
      rw [Function.update_self] at running
      rw [own _ running] at outside'
      cases outside'
    · rw [Function.update_of_ne self] at running
      rw [setTask_calls, setTask_calls]
      exact alike.back t' user state running outside'
  · rw [setTask_calls, setTask_calls]
    refine alike.calls id fun held => free ?_
    obtain ⟨t', user, state, running, about, outside⟩ := held
    have self : t' ≠ t := by
      rintro rfl
      have inside : s.outsider user state.callId = false := was _ running
      rw [about, outside] at inside
      cases inside
    refine ⟨t', user, state, ?_, about, ?_⟩
    · rw [lookup_setTask, Function.update_of_ne self]
      exact running
    · unfold outsider at outside ⊢
      rw [setTask_parties]
      exact outside

/-- An outsider's task goes on in the first desk only. -/
theorem setTask_foreign (alike : SeenAlike s u)
    (was : ∀ phase, s.tasks.lookup t = some phase →
      s.foreign phase = true ∧ phase.reinserts = false)
    (own : ∀ phase ∈ next, s.foreign phase = true ∧ phase.reinserts = false) :
    SeenAlike (s.setTask t next) u := by
  have same : ∀ phase, (s.setTask t next).foreign phase = s.foreign phase :=
    foreign_congr setTask_parties
  refine ⟨by simp [alike.callers], by simp [alike.parties], by simp [alike.incoming],
    by simp [alike.announced], fun t' => ?_, fun t' user state running outside => ?_,
    fun id free => ?_⟩
  · rw [lookup_setTask]
    by_cases self : t' = t
    · subst self
      rw [Function.update_self, alike.tasks]
      have before : (s.tasks.lookup t').filter (fun phase => !s.foreign phase) = none := by
        cases found : s.tasks.lookup t' with
        | none => rfl
        | some phase => simp [(was phase found).1]
      have hidden : next.filter (fun phase => !s.foreign phase) = none := by
        cases next with
        | none => rfl
        | some phase => simp [(own phase rfl).1]
      simp only [same, before, hidden]
    · rw [Function.update_of_ne self, alike.tasks]
      simp [same]
  · rw [lookup_setTask] at running
    have outside' : s.foreign (.reinsert user state) = true := by
      rw [← same]
      exact outside
    by_cases self : t' = t
    · subst self
      rw [Function.update_self] at running
      exact absurd (own _ running).2 (by simp [CallPhase.reinserts])
    · rw [Function.update_of_ne self] at running
      rw [setTask_calls]
      exact alike.back t' user state running outside'
  · rw [setTask_calls]
    refine alike.calls id fun held => free ?_
    obtain ⟨t', user, state, running, about, outside⟩ := held
    have self : t' ≠ t := by
      rintro rfl
      exact absurd (was _ running).2 (by simp [CallPhase.reinserts])
    refine ⟨t', user, state, ?_, about, ?_⟩
    · rw [lookup_setTask, Function.update_of_ne self]
      exact running
    · unfold outsider at outside ⊢
      rw [setTask_parties]
      exact outside

theorem insert (alike : SeenAlike s u) (free : ¬s.HeldOutside state.callId) :
    SeenAlike (s.insert state) (u.insert state) := by
  refine ⟨alike.callers, alike.parties, alike.incoming, alike.announced, alike.tasks,
    fun t user other running outside => ?_, fun id unheld => ?_⟩
  · have apart : other.callId ≠ state.callId :=
      fun same => free ⟨t, user, other, running, same, same ▸ outside⟩
    simp only [CallDesk.insert, AList.lookup_insert_ne apart]
    exact alike.back t user other running outside
  · by_cases same : id = state.callId
    · subst same
      simp [CallDesk.insert]
    · simp only [CallDesk.insert, AList.lookup_insert_ne same]
      exact alike.calls id unheld

theorem remove (alike : SeenAlike s u) (free : ¬s.HeldOutside id) :
    SeenAlike (s.remove id) (u.remove id) := by
  refine ⟨alike.callers, alike.parties, alike.incoming, alike.announced, alike.tasks,
    fun t user other running outside => ?_, fun id' unheld => ?_⟩
  · have apart : other.callId ≠ id :=
      fun same => free ⟨t, user, other, running, same, same ▸ outside⟩
    simp only [CallDesk.remove, AList.lookup_erase_ne apart]
    exact alike.back t user other running outside
  · by_cases same : id' = id
    · subst same
      simp [CallDesk.remove]
    · simp only [CallDesk.remove, AList.lookup_erase_ne same]
      exact alike.calls id' unheld

theorem announced_append (alike : SeenAlike s u) (told : CallId × Announcement) :
    SeenAlike { s with announced := s.announced ++ [told] }
      { u with announced := u.announced ++ [told] } :=
  ⟨alike.callers, alike.parties, alike.incoming, by simp [alike.announced], alike.tasks, alike.back,
    alike.calls⟩

theorem incoming_append (alike : SeenAlike s u) (more : List (ConnId × CallId)) :
    SeenAlike { s with incoming := s.incoming ++ more } { u with incoming := u.incoming ++ more } :=
  ⟨alike.callers, alike.parties, by simp [alike.incoming], alike.announced, alike.tasks, alike.back,
    alike.calls⟩

end SeenAlike

theorem Followed.timer_inside (followed : ∀ id, s.Followed id) {j : CallId}
    (running : s.tasks.lookup (.timer j) = some phase) : s.foreign phase = false := by
  obtain ⟨-, -, due | timeout⟩ := (followed phase.about).1.timer j phase (view_runs running)
  · rw [due]
    rfl
  · rw [timeout]
    rfl

/-- Only one task has the call. -/
theorem Followed.holder (followed : s.Followed state.callId) {t' : CallTask} {user' : String}
    {state' : CallState} (running : s.tasks.lookup t = some (.reinsert user state))
    (running' : s.tasks.lookup t' = some (.reinsert user' state'))
    (same : state'.callId = state.callId) : t' = t := by
  have own : (s.view state.callId).runs t = some (.reinsert user state) := view_runs running
  have other : (s.view state.callId).runs t' = some (.reinsert user' state') := by
    rw [← same]
    exact view_runs running'
  have parties := followed.1.held t user state own
  have unique : ∀ located : CallState, (s.view state.callId).Located located → t' = t :=
    fun _ located => (located.of_holder own).2.2 t' _ other rfl
  cases followed.2 (by simp [parties]) with
  | ringing state located => exact unique state located
  | accepting state _ located => exact unique state located
  | accepted state located => exact unique state located
  | closing _ _ nowhere => exact absurd (nowhere.2 t _ own) (by simp [CallPhase.reinserts])
  | closed nowhere => exact absurd (nowhere.2 t _ own) (by simp [CallPhase.reinserts])

theorem SeenAlike.perform (alike : SeenAlike s u) (followed : ∀ id, s.Followed id)
    (running : s.tasks.lookup t = some phase) (timely : s.Timely phase)
    (inside : s.foreign phase = false) : SeenAlike (s.perform t phase) (u.perform t phase) := by
  have was : ∀ other, s.tasks.lookup t = some other → s.foreign other = false := by
    intro other runs
    rw [running] at runs
    cases runs
    exact inside
  have ended : SeenAlike (s.setTask t none) (u.setTask t none) := alike.setTask was (by simp)
  have tells : ∀ id' what, ∀ phase ∈ some (CallPhase.announce id' what), s.foreign phase = false := by
    intro _ _ _ given
    cases given
    rfl
  cases phase with
  | ring state =>
    simp only [CallDesk.perform, alike.userConnections]
    split_ifs with absent
    · exact (alike.remove (not_heldOutside timely.1)).setTask was (by simp)
    · have told := alike.incoming_append
        ((s.userConnections state.targetUserId).map (·, state.callId))
      have nothing : ∀ other ∈ (none : Option CallPhase), s.foreign other = false := by simp
      have next := told.setTask was nothing
      refine next.setTask (fun other runs => ?_) fun other given => ?_
      · rw [lookup_setTask] at runs
        by_cases same : CallTask.timer state.callId = t
        · subst same
          rw [Function.update_self] at runs
          cases runs
        · rw [Function.update_of_ne same] at runs
          have inside : s.foreign other = false := Followed.timer_inside followed runs
          exact (foreign_congr setTask_parties other).trans inside
      · cases given
        rfl
  | get user id =>
    simp only [CallDesk.perform, alike.calls id (not_heldOutside timely)]
    split
    next state found =>
      split_ifs with allowed
      · refine alike.setTask was fun other given => ?_
        cases given
        rfl
      · exact ended
    next => exact ended
  | accept state =>
    obtain ⟨entry, found, -⟩ := Option.map_eq_some_iff.mp timely
    have free : ¬s.HeldOutside state.callId := by
      rintro ⟨t', user, held, runs, same, outside⟩
      have absent := (alike.back t' user held runs (same ▸ outside)).2
      rw [same, found] at absent
      cases absent
    have belongs : entry.callId = state.callId := ((followed _).born found).1
    simp only [CallDesk.perform, alike.calls _ free, found]
    exact (alike.insert (by simpa [belongs] using free)).setTask was (tells _ _)
  | remove user id ends =>
    have free := not_heldOutside timely.1
    simp only [CallDesk.perform, alike.calls id free]
    split
    next state found =>
      by_cases allowed : (if ends then state.canEnd user else state.canReject user) = true
      · rw [if_pos allowed, if_pos allowed]
        exact (alike.remove free).setTask was (tells _ _)
      · rw [if_neg allowed, if_neg allowed]
        refine (alike.remove free).setTask was fun other given => ?_
        cases given
        change s.outsider user state.callId = false
        rw [((followed id).born found).1]
        exact inside
    next => exact ended
  | reinsert user state =>
    have free : ¬s.HeldOutside state.callId := by
      rintro ⟨t', user', held, runs, same, outside⟩
      have unique := (followed _).holder running runs same
      subst unique
      rw [running] at runs
      cases runs
      rw [show s.outsider user state.callId = false from inside] at outside
      cases outside
    have nothing : ∀ other ∈ (none : Option CallPhase), s.foreign other = false := by simp
    exact (alike.insert free).setTask was nothing
  | expire id =>
    have free := not_heldOutside timely
    simp only [CallDesk.perform, alike.calls id free]
    split
    next state found =>
      split_ifs with ringing
      · exact (alike.remove free).setTask was (tells _ _)
      · exact ended
    next => exact ended
  | announce id what =>
    have nothing : ∀ other ∈ (none : Option CallPhase), s.foreign other = false := by simp
    exact (alike.announced_append (id, what)).setTask was nothing

theorem outsider_congr (parties : after.parties = s.parties) (user : String) (id : CallId) :
    after.outsider user id = s.outsider user id := by
  unfold outsider
  rw [parties]

/-- A task that goes on leaves it to the others what they hold. -/
theorem HeldOutside.setTask {s' : CallDesk} (held : s.HeldOutside id) (tasks : s'.tasks = s.tasks)
    (parties : s'.parties = s.parties)
    (own : ∀ user state, s.tasks.lookup t = some (.reinsert user state) → state.callId ≠ id) :
    (s'.setTask t next).HeldOutside id := by
  obtain ⟨t', user, state, running, about, outside⟩ := held
  have self : t' ≠ t := by
    rintro rfl
    exact own user state running about
  refine ⟨t', user, state, ?_, about, ?_⟩
  · rw [lookup_setTask, Function.update_of_ne self, tasks]
    exact running
  · rw [outsider_congr (setTask_parties.trans parties)]
    exact outside

/-- An outsider who is refused has taken the call out of the first registry only. -/
theorem SeenAlike.hold (alike : SeenAlike s u) {ends : Bool}
    (running : s.tasks.lookup t = some (.remove user state.callId ends))
    (found : s.calls.lookup state.callId = some state) (free : ¬s.HeldOutside state.callId)
    (outside : s.outsider user state.callId = true) :
    SeenAlike ((s.remove state.callId).setTask t (some (.reinsert user state))) u := by
  have same : ∀ other, ((s.remove state.callId).setTask t (some (.reinsert user state))).foreign
      other = s.foreign other := foreign_congr (by simp [CallDesk.remove])
  have away : ∀ user' id, ((s.remove state.callId).setTask t (some (.reinsert user state))).outsider
      user' id = s.outsider user' id := outsider_congr (by simp [CallDesk.remove])
  refine ⟨by simp [CallDesk.remove, alike.callers], by simp [CallDesk.remove, alike.parties],
    by simp [CallDesk.remove, alike.incoming], by simp [CallDesk.remove, alike.announced],
    fun t' => ?_, fun t' user' held runs others => ?_, fun id unheld => ?_⟩
  · rw [lookup_setTask, alike.tasks]
    by_cases self : t' = t
    · subst self
      have before : (some (CallPhase.remove user state.callId ends)).filter
          (fun phase => !s.foreign phase) = none := by
        simp [foreign, outside]
      have hidden : (some (CallPhase.reinsert user state)).filter
          (fun phase => !s.foreign phase) = none := by
        simp [foreign, outside]
      simp only [Function.update_self, same, running, before, hidden]
    · rw [Function.update_of_ne self]
      simp only [same]
      rfl
  · rw [lookup_setTask] at runs
    rw [away] at others
    rw [setTask_calls]
    by_cases self : t' = t
    · subst self
      rw [Function.update_self] at runs
      cases runs
      rw [alike.calls _ free]
      exact ⟨found, AList.lookup_erase _ _⟩
    · rw [Function.update_of_ne self] at runs
      have apart : held.callId ≠ state.callId :=
        fun same => free ⟨t', user', held, runs, same, same ▸ others⟩
      simp only [CallDesk.remove, AList.lookup_erase_ne apart]
      exact alike.back t' user' held runs others
  · have apart : id ≠ state.callId := by
      rintro rfl
      refine unheld ⟨t, user, state, ?_, rfl, (away _ _).trans outside⟩
      rw [lookup_setTask, Function.update_self]
    rw [setTask_calls]
    simp only [CallDesk.remove, AList.lookup_erase_ne apart]
    refine alike.calls id fun held => unheld (held.setTask rfl rfl fun _ _ runs => ?_)
    rw [running] at runs
    cases runs

/-- And then inserts it again. -/
theorem SeenAlike.putBack (alike : SeenAlike s u) (followed : s.Followed state.callId)
    (running : s.tasks.lookup t = some (.reinsert user state))
    (outside : s.outsider user state.callId = true) :
    SeenAlike ((s.insert state).setTask t none) u := by
  have same : ∀ other, ((s.insert state).setTask t none).foreign other = s.foreign other :=
    foreign_congr (by simp [CallDesk.insert])
  obtain ⟨there, -⟩ := alike.back t user state running outside
  refine ⟨by simp [CallDesk.insert, alike.callers], by simp [CallDesk.insert, alike.parties],
    by simp [CallDesk.insert, alike.incoming], by simp [CallDesk.insert, alike.announced],
    fun t' => ?_, fun t' user' held runs others => ?_, fun id unheld => ?_⟩
  · rw [lookup_setTask, alike.tasks]
    by_cases self : t' = t
    · subst self
      have before : (some (CallPhase.reinsert user state)).filter
          (fun phase => !s.foreign phase) = none := by
        simp [foreign, outside]
      simp only [Function.update_self, running, before]
      rfl
    · rw [Function.update_of_ne self]
      simp only [same]
      rfl
  · rw [lookup_setTask] at runs
    by_cases self : t' = t
    · subst self
      rw [Function.update_self] at runs
      cases runs
    · rw [Function.update_of_ne self] at runs
      have apart : held.callId ≠ state.callId :=
        fun same => self (followed.holder running runs same)
      simp only [setTask_calls, CallDesk.insert, AList.lookup_insert_ne apart]
      refine alike.back t' user' held runs ?_
      rw [outsider_congr (s := s) (by simp [CallDesk.insert])] at others
      exact others
  · rw [setTask_calls]
    by_cases self : id = state.callId
    · subst self
      rw [there]
      simp [CallDesk.insert]
    · simp only [CallDesk.insert, AList.lookup_insert_ne self]
      refine alike.calls id fun held => unheld (held.setTask rfl rfl fun _ _ runs => ?_)
      rw [running] at runs
      cases runs
      exact Ne.symm self

/-- A handler of an outsider's message changes nothing for the others. -/
theorem SeenAlike.perform_foreign (alike : SeenAlike s u) (followed : ∀ id, s.Followed id)
    (running : s.tasks.lookup t = some phase) (timely : s.Timely phase)
    (outside : s.foreign phase = true) : SeenAlike (s.perform t phase) u := by
  have apartOf : ∀ user id state, s.calls.lookup id = some state → s.outsider user id = true →
      user ≠ state.adminUserId ∧ user ≠ state.targetUserId := by
    intro user id state found away
    have parties : s.parties.lookup id = some (state.adminUserId, state.targetUserId) :=
      ((followed id).born found).2.1
    simpa [outsider, parties] using away
  have ended : phase.reinserts = false → SeenAlike (s.setTask t none) u := by
    intro looks
    refine alike.setTask_foreign (fun other runs => ?_) (by simp)
    rw [running] at runs
    cases runs
    exact ⟨outside, looks⟩
  cases phase with
  | get user id =>
    simp only [CallDesk.perform]
    split
    next state found =>
      rw [if_neg fun allowed => (apartOf user id state found outside).2
        (of_decide_eq_true allowed.1)]
      exact ended rfl
    next => exact ended rfl
  | remove user id ends =>
    simp only [CallDesk.perform]
    split
    next state found =>
      obtain ⟨notAdmin, notTarget⟩ := apartOf user id state found outside
      have refused : ¬(if ends then state.canEnd user else state.canReject user) = true := by
        cases ends <;> simp [CallState.canEnd, CallState.canReject, notAdmin, notTarget]
      obtain rfl : state.callId = id := ((followed id).born found).1
      rw [if_neg refused]
      exact alike.hold running found (not_heldOutside timely.1) outside
    next => exact ended rfl
  | reinsert user state => exact alike.putBack (followed _) running outside
  | ring state => cases outside
  | accept state => cases outside
  | expire id => cases outside
  | announce id what => cases outside

theorem SeenAlike.initiate (alike : SeenAlike s u) (fresh : s.fresh state.callId = true)
    (idle : s.tasks.lookup (.receive c) = none) (parties : String × String) :
    SeenAlike
      (({ s.insert state with
        parties := s.parties.insert state.callId parties } : CallDesk).setTask (.receive c)
          (some (.ring state)))
      (({ u.insert state with
        parties := u.parties.insert state.callId parties } : CallDesk).setTask (.receive c)
          (some (.ring state))) := by
  obtain ⟨unknown, untouched⟩ := fresh_iff.mp fresh
  have unborn : ∀ user id, id ≠ state.callId → ({ s.insert state with
      parties := s.parties.insert state.callId parties } : CallDesk).outsider user id =
        s.outsider user id := by
    intro user id apart
    simp [outsider, AList.lookup_insert_ne apart]
  have created : SeenAlike
      { s.insert state with parties := s.parties.insert state.callId parties }
      { u.insert state with parties := u.parties.insert state.callId parties } := by
    refine ⟨alike.callers, by simp [alike.parties], alike.incoming, alike.announced, fun t => ?_,
      fun t user held running outside => ?_, fun id unheld => ?_⟩
    · change u.tasks.lookup t = (s.tasks.lookup t).filter _
      rw [alike.tasks]
      cases running : s.tasks.lookup t with
      | none => rfl
      | some phase =>
        have apart := untouched t phase running
        have same : ({ s.insert state with
            parties := s.parties.insert state.callId parties } : CallDesk).foreign phase =
            s.foreign phase := by
          cases phase <;> simp only [foreign]
          all_goals exact unborn _ _ apart
        simp only [Option.filter_some, same]
    · have apart : held.callId ≠ state.callId := untouched t _ running
      simp only [CallDesk.insert, AList.lookup_insert_ne apart]
      exact alike.back t user held running ((unborn _ _ apart).symm.trans outside)
    · by_cases same : id = state.callId
      · subst same
        simp [CallDesk.insert]
      · simp only [CallDesk.insert, AList.lookup_insert_ne same]
        refine alike.calls id fun held => unheld ?_
        obtain ⟨t, user, other, running, about, outside⟩ := held
        exact ⟨t, user, other, running, about, (unborn _ _ same).trans outside⟩
  refine created.setTask (fun phase running => ?_) fun phase given => ?_
  · change s.tasks.lookup (.receive c) = some phase at running
    rw [idle] at running
    cases running
  · cases given
    rfl

theorem SeenAlike.fresh (alike : SeenAlike s u) (fresh : s.fresh id = true) :
    u.fresh id = true := by
  obtain ⟨unknown, untouched⟩ := fresh_iff.mp fresh
  refine fresh_iff.mpr ⟨by rw [alike.parties]; exact unknown, fun t phase running => ?_⟩
  rw [alike.tasks] at running
  exact untouched t phase (Option.filter_eq_some_iff.mp running).1

/-- A step that is not an outsider's can be taken without the outsiders. -/
theorem SeenAlike.step (alike : SeenAlike s u) (followed : ∀ id, s.Followed id)
    (timely : s.InTurn action) (inside : s.byOutsider action = false)
    (taken : s.step action = some after) :
    ∃ other, u.step action = some other ∧ SeenAlike after other := by
  have present : ∀ c, u.get c = s.get c := by
    intro c
    simp [CallDesk.get, alike.callers]
  cases action with
  | register c user role =>
    simp only [CallDesk.step, alike.callers] at taken ⊢
    split_ifs at taken ⊢ with unused
    cases taken
    exact ⟨_, rfl, by simp, alike.parties, alike.incoming, alike.announced, alike.tasks, alike.back,
      alike.calls⟩
  | unregister c =>
    simp only [CallDesk.step, alike.callers] at taken ⊢
    obtain ⟨caller, found, rfl⟩ := Option.map_eq_some_iff.mp taken
    rw [found]
    exact ⟨_, rfl, by simp, alike.parties, alike.incoming, alike.announced, alike.tasks, alike.back,
      alike.calls⟩
  | initiate c target id =>
    simp only [CallDesk.step, present] at taken ⊢
    split_ifs at taken with free
    rw [if_pos ⟨alike.idle free.1, alike.fresh free.2⟩]
    split at taken
    next caller found =>
      split_ifs at taken with allowed
      · cases taken
        simp only [if_pos allowed]
        obtain ⟨state, isNew⟩ : ∃ state, state = CallState.mk id caller.userId target .ringing :=
          ⟨_, rfl⟩
        have fresh : s.fresh state.callId = true := by
          rw [isNew]
          exact free.2
        have begun := alike.initiate fresh free.1 (caller.userId, target)
        rw [isNew] at begun
        exact ⟨_, rfl, begun⟩
      · cases taken
        simp only [if_neg allowed]
        exact ⟨u, rfl, alike⟩
    next missing =>
      cases taken
      exact ⟨u, rfl, alike⟩
  | message c m =>
    simp only [CallDesk.step, present] at taken ⊢
    split_ifs at taken with free
    rw [if_pos (alike.idle free)]
    split at taken
    next caller found =>
      cases taken
      refine ⟨_, rfl, alike.setTask (by simp [free]) fun phase given => ?_⟩
      cases given
      have known : s.outsider caller.userId m.callId = false := by
        simpa [byOutsider, found] using inside
      cases m <;> exact known
    next missing =>
      cases taken
      exact ⟨u, rfl, alike⟩
  | perform t =>
    obtain ⟨phase, running, rfl⟩ := Option.map_eq_some_iff.mp taken
    have known : s.foreign phase = false := by simpa [byOutsider, running] using inside
    refine ⟨u.perform t phase, ?_, alike.perform followed running (timely phase running) known⟩
    simp [CallDesk.step, alike.running running known]

theorem SeenAlike.step_foreign (alike : SeenAlike s u) (followed : ∀ id, s.Followed id)
    (timely : s.InTurn action) (outside : s.byOutsider action = true)
    (taken : s.step action = some after) : SeenAlike after u := by
  cases action with
  | register c user role => cases outside
  | unregister c => cases outside
  | initiate c target id => cases outside
  | message c m =>
    simp only [CallDesk.step] at taken
    split_ifs at taken with free
    split at taken
    next caller found =>
      cases taken
      refine alike.setTask_foreign (by simp [free]) fun phase given => ?_
      cases given
      have away : s.outsider caller.userId m.callId = true := by
        simpa [byOutsider, found] using outside
      cases m <;> exact ⟨away, rfl⟩
    next missing =>
      cases taken
      exact alike
  | perform t =>
    obtain ⟨phase, running, rfl⟩ := Option.map_eq_some_iff.mp taken
    have away : s.foreign phase = true := by simpa [byOutsider, running] using outside
    exact alike.perform_foreign followed running (timely phase running) away

end CallDesk

end TradingPlatform
