import TradingPlatform.Summary.ThresholdCache

namespace TradingPlatform

open StepRuns

namespace ThresholdCache
variable {s after : ThresholdCache} {i j : ℕ} {f g : ThresholdField} {levels : Levels}
  {task : ThresholdTask} {next : Option ThresholdTask}

theorem replace_row (s : ThresholdCache) (i : ℕ) (next : Option ThresholdTask) :
    (s.replace i next).row = s.row := by
  cases next <;> rfl

theorem replace_hash (s : ThresholdCache) (i : ℕ) (next : Option ThresholdTask) :
    (s.replace i next).hash = s.hash := by
  cases next <;> rfl

theorem lookup_replace_self (s : ThresholdCache) (i : ℕ) (next : Option ThresholdTask) :
    (s.replace i next).tasks.lookup i = next := by
  cases next with
  | none => exact AList.lookup_erase i s.tasks
  | some task => exact AList.lookup_insert s.tasks

theorem lookup_replace_ne (other : j ≠ i) (s : ThresholdCache) (next : Option ThresholdTask) :
    (s.replace i next).tasks.lookup j = s.tasks.lookup j := by
  cases next with
  | none => exact AList.lookup_erase_ne other
  | some task => exact AList.lookup_insert_ne other

/-- An update that another task has still to make is not touched by a step of this one. -/
theorem Covered.owed (covered : s.Covered i f) (row : after.row f = s.row f)
    (tasks : after.tasks = s.tasks) (next : Option ThresholdTask) :
    (after.replace i next).Owed f := by
  obtain ⟨⟨j, other⟩, member, apart, writes⟩ := covered
  refine .inr ⟨j, other, ?_, ?_⟩
  · rw [lookup_replace_ne apart, tasks]
    exact AList.mem_lookup_iff.mpr member
  · rw [replace_row, row]
    exact writes

/-- A step that leaves a field alone keeps what is owed for it, if the task had
nothing to write there that it does not have any more. -/
theorem Owed.replace (owed : s.Owed f) (running : s.tasks.lookup i = some task)
    (row : after.row f = s.row f) (hash : after.hash f = s.hash f)
    (tasks : after.tasks = s.tasks) (kept : task.toWrite f = some (s.row f) →
      (∃ task' ∈ next, task'.toWrite f = some (s.row f)) ∨ s.Settled f ∨ s.Covered i f) :
    (after.replace i next).Owed f := by
  have settled : s.Settled f → (after.replace i next).Owed f := by
    intro settled
    refine .inl ?_
    unfold Settled
    rw [replace_hash, replace_row, hash, row]
    exact settled
  rcases owed with done | ⟨j, other, known, writes⟩
  · exact settled done
  · by_cases own : j = i
    · subst own
      cases running.symm.trans known
      rcases kept writes with ⟨task', given, again⟩ | done | covered
      · refine .inr ⟨j, task', ?_, ?_⟩
        · rw [lookup_replace_self]
          exact given
        · rw [replace_row, row]
          exact again
      · exact settled done
      · exact covered.owed row tasks next
    · refine .inr ⟨j, other, ?_, ?_⟩
      · rw [lookup_replace_ne own, tasks]
        exact known
      · rw [replace_row, row]
        exact writes

/-- A write that goes through leaves the field settled or owed. -/
theorem MayWrite.owed {level : Option ℚ} (may : s.MayWrite i f level)
    (next : Option ThresholdTask) :
    (ThresholdCache.replace { s with hash := Function.update s.hash f level } i next).Owed f := by
  rcases may with rfl | rfl | covered
  · refine .inl (.inl ?_)
    rw [replace_hash]
    exact Function.update_self ..
  · refine .inl (.inr ?_)
    rw [replace_hash, replace_row]
    exact Function.update_self ..
  · refine covered.owed ?_ ?_ next <;> rfl

/-- The update's next task has still to write the other field. -/
theorem toWrite_afterWrite (other : f ≠ g)
    (writes : (ThresholdTask.writing levels g).toWrite f = some (s.row f)) :
    ∃ task' ∈ ThresholdTask.afterWrite levels g, task'.toWrite f = some (s.row f) := by
  cases g with
  | marginCallLevel =>
    cases f with
    | marginCallLevel => exact absurd rfl other
    | stopOutLevel => exact ⟨_, rfl, writes⟩
  | stopOutLevel =>
    cases f with
    | marginCallLevel => cases writes
    | stopOutLevel => exact absurd rfl other

theorem toWrite_writing : (ThresholdTask.writing levels f).toWrite f = some (levels f) := by
  cases f <;> rfl

theorem owed_of_statement {ok : Bool} (owed : ∀ f, s.Owed f)
    (harmless : s.Harmless (.statement i ok)) (taken : s.step (.statement i ok) = some after) :
    after.Owed f := by
  simp only [step] at taken
  split at taken
  next => cases taken
  next task running =>
    have fine := harmless task running
    cases ok with
    | true =>
      rw [if_pos rfl] at taken
      split_ifs at taken
      cases taken
      cases task with
      | updating levels =>
        refine .inr ⟨i, .connecting levels, lookup_replace_self .., ?_⟩
        rw [replace_row]
        rfl
      | connecting levels => exact (owed f).replace running rfl rfl rfl fun writes => .inl ⟨_, rfl, writes⟩
      | writing levels g =>
        by_cases same : f = g
        · subst same
          exact MayWrite.owed fine _
        · exact (owed f).replace running rfl (Function.update_of_ne same ..) rfl
            fun writes => .inl (toWrite_afterWrite same writes)
      | getting g => exact (owed f).replace running rfl rfl rfl fun writes => by cases writes
      | selecting g => exact (owed f).replace running rfl rfl rfl fun writes => by cases writes
      | storing g level =>
        by_cases same : f = g
        · subst same
          exact MayWrite.owed fine _
        · exact (owed f).replace running rfl (Function.update_of_ne same ..) rfl
            fun writes => by cases writes
    | false =>
      rw [if_neg Bool.false_ne_true] at taken
      cases taken
      cases task with
      | updating levels => exact (owed f).replace running rfl rfl rfl fun writes => by cases writes
      | connecting levels =>
        refine (owed f).replace running rfl rfl rfl fun writes => ?_
        cases f with
        | marginCallLevel => exact .inr (fine.1 (Option.some.inj writes))
        | stopOutLevel => exact .inr (fine.2 (Option.some.inj writes))
      | writing levels g =>
        refine (owed f).replace running rfl rfl rfl fun writes => ?_
        by_cases same : f = g
        · subst same
          rw [toWrite_writing] at writes
          exact .inr (fine (Option.some.inj writes))
        · exact .inl (toWrite_afterWrite same writes)
      | getting g => exact (owed f).replace running rfl rfl rfl fun writes => by cases writes
      | selecting g => exact (owed f).replace running rfl rfl rfl fun writes => by cases writes
      | storing g level => exact (owed f).replace running rfl rfl rfl fun writes => by cases writes

theorem owed_of_step {action : ThresholdAction} (owed : ∀ f, s.Owed f)
    (harmless : s.Harmless action) (taken : s.step action = some after) : after.Owed f := by
  cases action with
  | redis reachable =>
    cases taken
    exact owed f
  | statement i ok => exact owed_of_statement owed harmless taken
  | call i task =>
    simp only [step] at taken
    split_ifs at taken with new
    cases taken
    rcases owed f with done | ⟨j, other, known, writes⟩
    · exact .inl done
    · have apart : j ≠ i := by
        rintro rfl
        rw [new.1] at known
        cases known
      exact .inr ⟨j, other, (lookup_replace_ne apart ..).trans known, writes⟩

/-- When every call has finished, both getters answer what the row says. -/
theorem getLevel_of_run {actions : List ThresholdAction}
    (run : GuardedRun step Harmless (start levels) actions s) (finished : s.tasks = ∅)
    (f : ThresholdField) : s.getLevel f = s.row f := by
  have owed : ∀ f, s.Owed f :=
    run.invariant (fun _ => .inl (.inl rfl))
      fun _ _ _ harmless taken owed _ => owed_of_step owed harmless taken
  have settled : s.Settled f := by
    rcases owed f with done | ⟨j, other, known, _⟩
    · exact done
    · rw [finished] at known
      cases known
  unfold getLevel
  rcases settled with missing | same
  · rw [missing]
  · rw [same]
    cases s.row f <;> rfl

/-- A getter fills the cache, and an update then overwrites it. -/
theorem getLevel_after_update : ∃ s, GuardedRun step Harmless (start fun _ => some 50)
    [.call 0 (.getting .stopOutLevel), .statement 0 true, .statement 0 true, .statement 0 true,
      .call 1 (.updating fun _ => some 20), .statement 1 true, .statement 1 true,
      .statement 1 true, .statement 1 true] s ∧ s.getLevel .stopOutLevel = s.row .stopOutLevel := by
  have evaluates : (runGuarded step Harmless (start fun _ => some 50)
      [.call 0 (.getting .stopOutLevel), .statement 0 true, .statement 0 true, .statement 0 true,
        .call 1 (.updating fun _ => some 20), .statement 1 true, .statement 1 true,
        .statement 1 true, .statement 1 true]).map
      (fun s => (s.tasks.entries.length, s.hash .stopOutLevel)) = some (0, some 20) := by
    decide +kernel
  obtain ⟨s, reached, reads⟩ := Option.map_eq_some_iff.mp evaluates
  have finished : s.tasks = ∅ :=
    AList.ext (List.length_eq_zero_iff.mp (Prod.mk.inj reads).1)
  exact ⟨s, .of_eval reached, getLevel_of_run (.of_eval reached) finished .stopOutLevel⟩

/-- A getter that selected before an update stores after it: the old stop-out
level stays. -/
theorem getLevel_crossing_update : ∃ s, Run step (start fun _ => some 50)
    [.call 0 (.getting .stopOutLevel), .statement 0 true, .statement 0 true,
      .call 1 (.updating fun _ => some 20), .statement 1 true, .statement 1 true,
      .statement 1 true, .statement 1 true, .statement 0 true] s ∧
    s.tasks = ∅ ∧ s.reachable = true ∧ s.getLevel .stopOutLevel ≠ s.row .stopOutLevel := by
  have evaluates : (runGuarded step (fun _ _ => True) (start fun _ => some 50)
      [.call 0 (.getting .stopOutLevel), .statement 0 true, .statement 0 true,
        .call 1 (.updating fun _ => some 20), .statement 1 true, .statement 1 true,
        .statement 1 true, .statement 1 true, .statement 0 true]).map
      (fun s => (s.tasks.entries.length, s.reachable, s.getLevel .stopOutLevel,
        s.row .stopOutLevel)) = some (0, true, some 50, some 20) := by
    decide +kernel
  obtain ⟨s, reached, reads⟩ := Option.map_eq_some_iff.mp evaluates
  simp only [Prod.mk.injEq] at reads
  obtain ⟨finished, reachable, answer, row⟩ := reads
  refine ⟨s, .of_eval reached, AList.ext (List.length_eq_zero_iff.mp finished), reachable, ?_⟩
  rw [answer, row]
  decide

end ThresholdCache

end TradingPlatform
