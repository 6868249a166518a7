import TradingPlatform.Gateway.CallOutsiders

namespace TradingPlatform

open StepRuns

namespace CallDesk
variable {s : CallDesk} {id : CallId} {actions : List CallDeskAction}

/-- Each call is followed, and came in at connections of its target. -/
structure Orderly (s : CallDesk) : Prop where
  followed : ∀ id, s.Followed id
  called : s.Called

theorem orderly_opened : opened.Orderly := by
  refine ⟨followed_opened, fun c id member => ?_⟩
  cases member

theorem orderly_of_run (run : GuardedRun step InTurn opened actions s) : s.Orderly :=
  run.invariant orderly_opened fun _ _ _ timely taken held =>
    ⟨followed_step held.followed timely taken, held.called.step held.followed timely taken⟩

theorem Followed.pairwise (followed : s.Followed id) :
    (s.outcomes id).Pairwise Announcement.MayFollow := by
  by_cases created : (s.view id).parties = none
  · rw [show s.outcomes id = [] from (followed.1.unborn created).1]
    exact .nil
  · cases followed.2 created with
    | ringing _ _ _ _ silent =>
      rw [show s.outcomes id = [] from silent]
      exact .nil
    | accepting _ _ _ _ _ silent =>
      rw [show s.outcomes id = [] from silent]
      exact .nil
    | accepted _ _ _ _ told =>
      rw [show s.outcomes id = [.accepted] from told]
      simp
    | closing _ _ _ _ told =>
      obtain silent | ⟨told, -, -⟩ := told
      · rw [show s.outcomes id = [] from silent]
        exact .nil
      · rw [show s.outcomes id = [.accepted] from told]
        simp
    | closed _ _ told => exact told

/-- When nothing is under way any more, a call that rang has an outcome. -/
theorem Followed.answered (followed : s.Followed id) (rang : s.Rang id)
    (settled : ∀ t phase, s.tasks.lookup t = some phase → phase.about ≠ id)
    (unanswered : ∀ what ∈ s.outcomes id, what = .timeout) :
    s.outcomes id = [.timeout] ∧ s.calls.lookup id = none := by
  have silent : ∀ t, (s.view id).runs t = none := fun t => view_runs_none (settled t)
  have created : (s.view id).parties ≠ none :=
    fun missing => (followed.1.unborn missing).2.1 rang
  cases followed.2 created with
  | ringing _ _ _ _ _ due =>
    obtain timer | ⟨t, phase, runs, -⟩ := due
    · rw [silent] at timer
      cases timer
    · rw [silent] at runs
      cases runs
  | accepting _ t _ _ only =>
    cases (silent t).symm.trans only.1
  | accepted _ _ _ _ told =>
    have accepted : Announcement.accepted ∈ s.outcomes id := by
      rw [show s.outcomes id = [.accepted] from told]
      simp
    cases unanswered _ accepted
  | closing t _ _ only =>
    cases (silent t).symm.trans only.1
  | closed nowhere _ told answered =>
    have some : s.outcomes id ≠ [] := answered (.inl rang)
    have told' : (s.outcomes id).Pairwise Announcement.MayFollow := told
    refine ⟨?_, nowhere.1⟩
    match outcomes : s.outcomes id with
    | [] => exact absurd outcomes some
    | [only] => rw [unanswered only (by simp [outcomes])]
    | first :: second :: rest =>
      rw [outcomes, unanswered first (by simp [outcomes]), unanswered second (by simp [outcomes])]
        at told'
      simp [Announcement.MayFollow, Announcement.final] at told'

/-- As long as every operation on a call finds it where it is, a call has one
outcome. -/
theorem outcome_of_run (run : GuardedRun step InTurn opened actions s) :
    (∀ id, (s.outcomes id).Pairwise Announcement.MayFollow) ∧
    (∀ id, s.Rang id → (∀ t phase, s.tasks.lookup t = some phase → phase.about ≠ id) →
      (∀ what ∈ s.outcomes id, what = .timeout) →
        s.outcomes id = [.timeout] ∧ s.calls.lookup id = none) ∧
    (∀ c id, (c, id) ∈ s.incoming → ∀ caller ∈ s.callers.lookup c, ∀ state ∈ s.calls.lookup id,
      state.canAnswer caller.userId = true ∧ state.canReject caller.userId = true) ∧
    ∃ s', Run step opened (publicLabels step byOutsider opened actions) s' ∧
      s'.announced = s.announced := by
  obtain ⟨followed, called⟩ := orderly_of_run run
  refine ⟨fun id => (followed id).pairwise, fun id => (followed id).answered, ?_, ?_⟩
  · intro c id member caller registered state found
    obtain ⟨caller', admin, registered', between⟩ := called c id member
    cases registered'.symm.trans registered
    have parties : s.parties.lookup id = some (state.adminUserId, state.targetUserId) :=
      ((followed id).born found).2.1
    rw [parties] at between
    simp only [Option.some.injEq, Prod.mk.injEq] at between
    simp [CallState.canAnswer, CallState.canReject, between.2]
  · have alike : SeenAlike opened opened := by
      refine ⟨rfl, rfl, rfl, rfl, fun t => rfl, fun t user state running => ?_, fun id _ => rfl⟩
      cases running
    have without : ∃ s', Run step opened (publicLabels step byOutsider opened actions) s' ∧
        (∀ id, s.Followed id) ∧ SeenAlike s s' := by
      refine run.purge_at (R := fun s u => (∀ id, s.Followed id) ∧ SeenAlike s u)
        ⟨followed_opened, alike⟩ (fun s u action after timely inside taken held => ?_)
        fun s u action after timely outside taken held =>
          ⟨followed_step held.1 timely taken, held.2.step_foreign held.1 timely outside taken⟩
      obtain ⟨other, follows, still⟩ := held.2.step held.1 timely inside taken
      exact ⟨other, follows, followed_step held.1 timely taken, still⟩
    obtain ⟨s', purged, -, alike⟩ := without
    exact ⟨s', purged, alike.announced⟩

/-- An outsider rejects the call and is refused before anybody else comes,
then its target answers and the admin ends it. -/
def answeredAndEnded : List CallDeskAction :=
  [.register 1 "a" "admin", .register 2 "b" "user", .register 3 "x" "user", .initiate 1 "b" 7,
    .perform (.receive 1), .message 3 (.callReject 7), .perform (.receive 3), .perform (.receive 3),
    .message 2 (.callAnswer 7), .perform (.receive 2), .perform (.receive 2), .perform (.receive 2),
    .message 1 (.callEnd 7), .perform (.receive 1), .perform (.receive 1), .perform (.timer 7)]

/-- Nobody answers. -/
def leftRinging : List CallDeskAction :=
  [.register 1 "a" "admin", .register 2 "b" "user", .initiate 1 "b" 7, .perform (.receive 1),
    .perform (.timer 7), .perform (.timer 7)]

theorem outcome_of_answer_and_ringing :
    (∃ s, GuardedRun step InTurn opened answeredAndEnded s ∧
      (s.outcomes 7).Pairwise Announcement.MayFollow ∧ s.outcomes 7 = [.accepted, .ended true] ∧
      ∃ s', Run step opened (publicLabels step byOutsider opened answeredAndEnded) s' ∧
        s'.announced = s.announced) ∧
    ∃ s, GuardedRun step InTurn opened leftRinging s ∧ (2, 7) ∈ s.incoming ∧
      s.outcomes 7 = [.timeout] ∧ s.calls.lookup 7 = none := by
  constructor
  · have evaluates : (runGuarded step InTurn opened answeredAndEnded).map (·.outcomes 7) =
        some [.accepted, .ended true] := by decide +kernel
    obtain ⟨s, reached, told⟩ := Option.map_eq_some_iff.mp evaluates
    have run : GuardedRun step InTurn opened answeredAndEnded s := .of_eval reached
    obtain ⟨pairwise, -, -, without⟩ := outcome_of_run run
    exact ⟨s, run, pairwise 7, told, without⟩
  · have evaluates : (runGuarded step InTurn opened leftRinging).map
        (fun s => (s.incoming, s.tasks.keys, s.outcomes 7)) =
          some ([(2, 7)], [], [.timeout]) := by decide +kernel
    obtain ⟨s, reached, reads⟩ := Option.map_eq_some_iff.mp evaluates
    simp only [Prod.mk.injEq] at reads
    have run : GuardedRun step InTurn opened leftRinging s := .of_eval reached
    have came : (2, 7) ∈ s.incoming := by simp [reads.1]
    have idle : ∀ t, s.tasks.lookup t = none := by
      intro t
      rw [AList.lookup_eq_none, AList.mem_keys, reads.2.1]
      simp
    obtain ⟨-, answered, -, -⟩ := outcome_of_run run
    obtain ⟨timeout, removed⟩ := answered 7 ⟨2, came⟩ (by simp [idle]) (by simp [reads.2.2])
    exact ⟨s, run, came, timeout, removed⟩

/-- Two connections of the target answer: each has read that the call rings
before the other has accepted it. -/
def answeredTwice : List CallDeskAction :=
  [.register 1 "a" "admin", .register 2 "b" "user", .register 4 "b" "user", .initiate 1 "b" 7,
    .perform (.receive 1), .message 2 (.callAnswer 7), .message 4 (.callAnswer 7),
    .perform (.receive 2), .perform (.receive 4), .perform (.receive 2), .perform (.receive 4),
    .perform (.receive 2), .perform (.receive 4)]

/-- The admin ends the call between the read and the write of an answer. -/
def endedThenAnswered : List CallDeskAction :=
  [.register 1 "a" "admin", .register 2 "b" "user", .initiate 1 "b" 7, .perform (.receive 1),
    .message 2 (.callAnswer 7), .perform (.receive 2), .message 1 (.callEnd 7),
    .perform (.receive 1), .perform (.receive 1), .perform (.receive 2), .perform (.receive 2)]

/-- An outsider's reject has the call when the timeout looks for it. -/
def neverTimedOut : List CallDeskAction :=
  [.register 1 "a" "admin", .register 2 "b" "user", .register 3 "x" "user", .initiate 1 "b" 7,
    .perform (.receive 1), .message 3 (.callReject 7), .perform (.receive 3), .perform (.timer 7),
    .perform (.receive 3)]

/-- The admin wrote the target's identifier in capitals. -/
def calledInCapitals : List CallDeskAction :=
  [.register 1 "a" "admin", .register 2 "b" "user", .initiate 1 "B" 7, .perform (.receive 1)]

theorem not_one_outcome :
    (∃ s, Run step opened answeredTwice s ∧ s.outcomes 7 = [.accepted, .accepted]) ∧
    (∃ s, Run step opened endedThenAnswered s ∧ s.outcomes 7 = [.ended true, .accepted]) ∧
    (∃ s s', Run step opened neverTimedOut s ∧ (2, 7) ∈ s.incoming ∧ s.tasks.keys = [] ∧
      s.outcomes 7 = [] ∧ (s.calls.lookup 7).isSome ∧
      Run step opened (publicLabels step byOutsider opened neverTimedOut ++ [.perform (.timer 7)])
        s' ∧ s'.outcomes 7 = [.timeout]) ∧
    ∃ s, Run step opened calledInCapitals s ∧ (2, 7) ∈ s.incoming ∧
      (s.get 2).map (·.userId) = some "b" ∧
      (s.calls.lookup 7).map (fun state => (state.canAnswer "b", state.canReject "b")) =
        some (false, false) := by
  refine ⟨?_, ?_, ?_, ?_⟩
  · have evaluates : (runGuarded step (fun _ _ => True) opened answeredTwice).map
        (·.outcomes 7) = some [.accepted, .accepted] := by decide +kernel
    obtain ⟨s, reached, told⟩ := Option.map_eq_some_iff.mp evaluates
    exact ⟨s, .of_eval reached, told⟩
  · have evaluates : (runGuarded step (fun _ _ => True) opened endedThenAnswered).map
        (·.outcomes 7) = some [.ended true, .accepted] := by decide +kernel
    obtain ⟨s, reached, told⟩ := Option.map_eq_some_iff.mp evaluates
    exact ⟨s, .of_eval reached, told⟩
  · have evaluates : (runGuarded step (fun _ _ => True) opened neverTimedOut).map
        (fun s => (s.incoming, s.tasks.keys, s.outcomes 7, (s.calls.lookup 7).isSome)) =
          some ([(2, 7)], [], [], true) := by decide +kernel
    have without : (runGuarded step (fun _ _ => True) opened
        (publicLabels step byOutsider opened neverTimedOut ++ [.perform (.timer 7)])).map
          (·.outcomes 7) = some [.timeout] := by decide +kernel
    obtain ⟨s, reached, reads⟩ := Option.map_eq_some_iff.mp evaluates
    obtain ⟨s', reached', told⟩ := Option.map_eq_some_iff.mp without
    simp only [Prod.mk.injEq] at reads
    exact ⟨s, s', .of_eval reached, by simp [reads.1], reads.2.1, reads.2.2.1, reads.2.2.2,
      .of_eval reached', told⟩
  · have evaluates : (runGuarded step (fun _ _ => True) opened calledInCapitals).map
        (fun s => (s.incoming, (s.get 2).map (·.userId), (s.calls.lookup 7).map
          fun state => (state.canAnswer "b", state.canReject "b"))) =
          some ([(2, 7)], some "b", some (false, false)) := by decide +kernel
    obtain ⟨s, reached, reads⟩ := Option.map_eq_some_iff.mp evaluates
    simp only [Prod.mk.injEq] at reads
    exact ⟨s, .of_eval reached, by simp [reads.1], reads.2.1, reads.2.2⟩

end CallDesk

end TradingPlatform
