import TradingPlatform.Gateway.CallTracks
import TradingPlatform.Library.Noninterference

namespace TradingPlatform

open StepRuns

namespace CallDesk
variable {s after u : CallDesk} {t : CallTask} {id : CallId} {phase : CallPhase} {state : CallState}
  {next : Option CallPhase} {c : ConnId} {action : CallDeskAction} {user target : String}

theorem followed_initiate (followed : ∀ id, s.Followed id)
    (idle : s.tasks.lookup (.receive c) = none) (fresh : s.fresh id = true)
    (own : state.callId = id) (ringing : state.status = .ringing) (id' : CallId) :
    (({ s.insert state with
        parties := s.parties.insert id (state.adminUserId, state.targetUserId) } :
      CallDesk).setTask (.receive c) (some (.ring state))).Followed id' := by
  obtain ⟨unknown, untouched⟩ := fresh_iff.mp fresh
  by_cases same : id' = id
  · subst same
    have silent : ∀ t, (s.view id').runs t = none := fun t => view_runs_none (untouched t)
    obtain ⟨none, quiet, -⟩ := (followed id').1.unborn unknown
    have created : ({ s.insert state with
        parties := s.parties.insert id' (state.adminUserId, state.targetUserId) } :
        CallDesk).view id' = { s.view id' with
          entry := some state
          parties := some (state.adminUserId, state.targetUserId) } := by
      have inserted := view_insert s state id'
      rw [if_pos own.symm] at inserted
      unfold view at inserted ⊢
      simp only [CallView.mk.injEq] at inserted ⊢
      exact ⟨inserted.1, inserted.2.1, inserted.2.2.1, AList.lookup_insert _, inserted.2.2.2.2⟩
    have only : ∀ t phase, Function.update (s.view id').runs (.receive c) (some (.ring state)) t =
        some phase → t = .receive c ∧ phase = .ring state := by
      refine CallView.forall_update (fun t phase _ runs => ?_) fun phase given => ?_
      · rw [silent t] at runs
        cases runs
      · cases given
        exact ⟨rfl, rfl⟩
    unfold Followed
    rw [view_setTask_self (by simp [CallPhase.about, own]), created]
    constructor
    · refine ⟨?_, ?_, ?_, ?_, ?_, ?_⟩
      · intro j phase runs
        cases (only (.timer j) phase runs).1
      · intro t other runs
        obtain ⟨rfl, phases⟩ := only t _ runs
        cases phases
        refine ⟨quiet, ?_, rfl, fun t' phase runs' _ => (only t' phase runs').1⟩
        by_contra timed
        obtain ⟨other, timed⟩ := Option.ne_none_iff_exists'.mp timed
        cases (only (.timer id') other timed).1
      · intro other found
        cases found
        exact ⟨own, rfl⟩
      · intro t user other runs
        cases (only t _ runs).2
      · intro t phase runs
        rw [(only t phase runs).2]
        exact own
      · intro missing
        cases missing
    · intro _
      refine .ringing state (.inl ⟨rfl, fun t phase runs => ?_⟩) ringing (fun t phase runs => ?_) none
        (.inr ⟨.receive c, .ring state, Function.update_self .., rfl⟩)
      · rw [(only t phase runs).2]
        rfl
      · rw [(only t phase runs).2]
        rfl
  · have unchanged : ({ s.insert state with
        parties := s.parties.insert id (state.adminUserId, state.targetUserId) } :
        CallDesk).view id' = s.view id' := by
      have inserted := view_insert s state id'
      rw [if_neg (own ▸ same)] at inserted
      unfold view at inserted ⊢
      simp only [CallView.mk.injEq] at inserted ⊢
      exact ⟨inserted.1, inserted.2.1, inserted.2.2.1, AList.lookup_insert_ne same,
        inserted.2.2.2.2⟩
    unfold Followed
    rw [view_setTask_ne unchanged (view_runs_none (by simp [idle]))]
    · exact followed id'
    · simpa [CallPhase.about, own] using fun same' => same same'.symm

theorem followed_message {m : CallMessage} (followed : s.Followed id)
    (idle : s.tasks.lookup (.receive c) = none) :
    (s.setTask (.receive c) (some (m.first user))).Followed id := by
  have about : (m.first user).about = m.callId := by cases m <;> rfl
  have arrived : (m.first user).arrived = true := by cases m <;> rfl
  have looks : CallView.Looks (m.first user) := by cases m <;> exact ⟨rfl, rfl, rfl⟩
  have notHeld : ∀ user' state, m.first user ≠ .reinsert user' state := by
    intro user' state
    cases m <;> simp [CallMessage.first]
  have silent : (s.view id).runs (.receive c) = none := view_runs_none (by simp [idle])
  unfold Followed
  by_cases same : m.callId = id
  · rw [view_setTask_self (by simp [about, same])]
    refine ⟨followed.1.goes followed.1.entry (by simp) ?_ ?_ ?_, fun created =>
      (followed.2 created).goes (by simp [silent]) ?_ fun _ _ _ due => due.goes (by simp [silent])⟩
    · simp [about, same, looks.2.2]
    · intro user' state given
      exact absurd (Option.some.inj given) (notHeld user' state)
    · exact fun missing => ⟨(followed.1.unborn missing).1, by simp [arrived]⟩
    · intro _ given
      cases given
      exact looks
  · rw [view_setTask_ne rfl silent (by simpa [about] using same)]
    exact followed

theorem followed_step (followed : ∀ id, s.Followed id) (timely : s.InTurn action)
    (taken : s.step action = some after) (id : CallId) : after.Followed id := by
  cases action with
  | register c user role =>
    simp only [step] at taken
    split_ifs at taken
    cases taken
    exact followed id
  | unregister c =>
    obtain ⟨caller, -, rfl⟩ := Option.map_eq_some_iff.mp taken
    exact followed id
  | initiate c target id' =>
    simp only [step] at taken
    split_ifs at taken with free
    split at taken
    next caller present =>
      split_ifs at taken
      · cases taken
        exact followed_initiate followed free.1 free.2 rfl rfl id
      · cases taken
        exact followed id
    next =>
      cases taken
      exact followed id
  | message c m =>
    simp only [step] at taken
    split_ifs at taken with free
    split at taken
    next caller present =>
      cases taken
      exact followed_message (followed id) free
    next =>
      cases taken
      exact followed id
  | perform t =>
    obtain ⟨phase, running, rfl⟩ := Option.map_eq_some_iff.mp taken
    exact followed_perform followed running (timely phase running) id

theorem followed_opened (id : CallId) : opened.Followed id := by
  have nothing : ∀ t, (opened.view id).runs t = none := fun t => rfl
  have silent : ¬(opened.view id).rang := by
    rintro ⟨c, member⟩
    cases member
  refine ⟨⟨?_, ?_, ?_, ?_, ?_, ?_⟩, fun created => absurd rfl created⟩
  · intro j phase runs
    rw [nothing] at runs
    cases runs
  · intro t state runs
    rw [nothing] at runs
    cases runs
  · intro state found
    cases found
  · intro t user state runs
    rw [nothing] at runs
    cases runs
  · intro t phase runs
    rw [nothing] at runs
    cases runs
  · refine fun _ => ⟨rfl, silent, fun t phase runs => ?_⟩
    rw [nothing] at runs
    cases runs

section Fields

@[simp] theorem setTask_callers : (s.setTask t next).callers = s.callers := by cases next <;> rfl

@[simp] theorem setTask_calls : (s.setTask t next).calls = s.calls := by cases next <;> rfl

@[simp] theorem setTask_parties : (s.setTask t next).parties = s.parties := by cases next <;> rfl

@[simp] theorem setTask_incoming : (s.setTask t next).incoming = s.incoming := by cases next <;> rfl

@[simp] theorem setTask_announced : (s.setTask t next).announced = s.announced := by
  cases next <;> rfl

end Fields

/-- The operations change neither the connections nor who a call is between,
and only a call that rings comes in somewhere. -/
theorem perform_others (s : CallDesk) (t : CallTask) (phase : CallPhase) :
    (s.perform t phase).callers = s.callers ∧
    (s.perform t phase).parties = s.parties ∧
    ((∀ state, phase ≠ .ring state) → (s.perform t phase).incoming = s.incoming) := by
  cases phase with
  | ring state =>
    simp only [perform]
    split_ifs
    · simp [remove]
    · simp
  | get user id =>
    simp only [perform]
    split
    · split_ifs <;> simp
    · simp
  | accept state =>
    simp only [perform]
    split <;> simp [insert]
  | remove user id ends =>
    simp only [perform]
    split
    next state found =>
      by_cases allowed : (if ends then state.canEnd user else state.canReject user) = true
      · rw [if_pos allowed]
        simp [remove]
      · rw [if_neg allowed]
        simp [remove]
    next => simp
  | reinsert user state => simp [perform, insert]
  | expire id =>
    simp only [perform]
    split
    · split_ifs <;> simp [remove]
    · simp
  | announce id what => simp [perform]

/-- Where a call came in is a connection of its target. -/
def Called (s : CallDesk) : Prop :=
  ∀ c id, (c, id) ∈ s.incoming → ∃ caller admin, s.callers.lookup c = some caller ∧
    s.parties.lookup id = some (admin, caller.userId)

theorem Called.perform (called : s.Called) (followed : ∀ id, s.Followed id)
    (running : s.tasks.lookup t = some phase) (timely : s.Timely phase) :
    (s.perform t phase).Called := by
  obtain ⟨callers, parties, incoming⟩ := perform_others s t phase
  intro c id member
  rw [callers, parties]
  by_cases rings : ∃ state, phase = .ring state
  · obtain ⟨state, rfl⟩ := rings
    have own : (s.view state.callId).runs t = some (.ring state) := view_runs running
    obtain ⟨-, -, between, -⟩ := (followed state.callId).1.ring t state own
    simp only [CallDesk.perform] at member
    split_ifs at member with absent
    · exact called c id (by simpa [remove] using member)
    · simp only [setTask_incoming, List.mem_append, List.mem_map, Prod.mk.injEq] at member
      obtain old | ⟨c', online, rfl, rfl⟩ := member
      · exact called c id old
      · obtain ⟨caller, registered, spelled⟩ := Option.map_eq_some_iff.mp (timely.2 c' online)
        exact ⟨caller, state.adminUserId, registered, by rw [spelled]; exact between⟩
  · rw [incoming fun state same => rings ⟨state, same⟩] at member
    exact called c id member

theorem Called.step (called : s.Called) (followed : ∀ id, s.Followed id)
    (timely : s.InTurn action) (taken : s.step action = some after) : after.Called := by
  cases action with
  | register c user role =>
    simp only [CallDesk.step] at taken
    split_ifs at taken with unused
    cases taken
    intro c' id member
    obtain ⟨caller, admin, registered, between⟩ := called c' id member
    refine ⟨caller, admin, ?_, between⟩
    have apart : c' ≠ c := by
      rintro rfl
      rw [unused] at registered
      cases registered
    exact (AList.lookup_insert_ne apart).trans registered
  | unregister c =>
    obtain ⟨was, present, rfl⟩ := Option.map_eq_some_iff.mp taken
    intro c' id member
    obtain ⟨caller, admin, registered, between⟩ := called c' id member
    by_cases same : c' = c
    · subst same
      rw [present] at registered
      cases registered
      exact ⟨_, admin, AList.lookup_insert _, between⟩
    · exact ⟨caller, admin, (AList.lookup_insert_ne same).trans registered, between⟩
  | initiate c target id' =>
    simp only [CallDesk.step] at taken
    split_ifs at taken with free
    split at taken
    next caller present =>
      split_ifs at taken
      · cases taken
        intro c' id member
        rw [setTask_incoming] at member
        obtain ⟨caller', admin, registered, between⟩ := called c' id member
        refine ⟨caller', admin, by simpa [insert] using registered, ?_⟩
        have apart : id ≠ id' := by
          rintro rfl
          rw [(fresh_iff.mp free.2).1] at between
          cases between
        rw [setTask_parties]
        exact (AList.lookup_insert_ne apart).trans between
      · cases taken
        exact called
    next =>
      cases taken
      exact called
  | message c m =>
    simp only [CallDesk.step] at taken
    split_ifs at taken with free
    split at taken
    next caller present =>
      cases taken
      intro c' id member
      simpa using called c' id (by simpa using member)
    next =>
      cases taken
      exact called
  | perform t =>
    obtain ⟨phase, running, rfl⟩ := Option.map_eq_some_iff.mp taken
    exact called.perform followed running (timely phase running)

end CallDesk

end TradingPlatform
