import TradingPlatform.Library.StepRuns

namespace StepRuns
variable {σ α : Type*} {step : σ → α → Option σ} {ok : σ → α → Prop} {start : σ}

/-- Unwinding. When public steps keep related states related, and a secret
step keeps the relation to a state that does not take it, a run ends in a
state related to the one that its public steps lead to. -/
theorem GuardedRun.purge {R : σ → σ → Prop} {secret : α → Bool} (initially : R start start)
    (consistent : ∀ s t a after, ok s a → secret a = false → step s a = some after → R s t →
      ∃ other, step t a = some other ∧ R after other)
    (respects : ∀ s t a after, ok s a → secret a = true → step s a = some after → R s t →
      R after t)
    {labels : List α} {state : σ} (run : GuardedRun step ok start labels state) :
    ∃ other, Run step start (labels.filter fun a => !secret a) other ∧ R state other := by
  induction run with
  | nil => exact ⟨start, .nil, initially⟩
  | @snoc labels before label after _ allowed taken ih =>
    obtain ⟨other, purged, related⟩ := ih
    rw [List.filter_append]
    cases isSecret : secret label with
    | true =>
      refine ⟨other, ?_, respects _ _ _ _ allowed isSecret taken related⟩
      simpa [isSecret] using purged
    | false =>
      obtain ⟨next, follows, still⟩ := consistent _ _ _ _ allowed isSecret taken related
      refine ⟨next, ?_, still⟩
      simpa [isSecret] using purged.snoc trivial follows

/-- The public steps, where it depends on the state which steps are secret. -/
def publicLabels (step : σ → α → Option σ) (secret : σ → α → Bool) (start : σ)
    (labels : List α) : List α :=
  (labels.foldl (fun sofar a =>
    ((step sofar.1 a).getD sofar.1, if secret sofar.1 a then sofar.2 else sofar.2 ++ [a]))
    (start, [])).2

/-- Unwinding, where it depends on the state which steps are secret. -/
theorem GuardedRun.purge_at {R : σ → σ → Prop} {secret : σ → α → Bool} (initially : R start start)
    (consistent : ∀ s t a after, ok s a → secret s a = false → step s a = some after → R s t →
      ∃ other, step t a = some other ∧ R after other)
    (respects : ∀ s t a after, ok s a → secret s a = true → step s a = some after → R s t →
      R after t)
    {labels : List α} {state : σ} (run : GuardedRun step ok start labels state) :
    ∃ other, Run step start (publicLabels step secret start labels) other ∧ R state other := by
  suffices both : (labels.foldl (fun sofar a => ((step sofar.1 a).getD sofar.1,
      if secret sofar.1 a then sofar.2 else sofar.2 ++ [a])) (start, [])).1 = state ∧
      ∃ other, Run step start (publicLabels step secret start labels) other ∧ R state other from
    both.2
  induction run with
  | nil => exact ⟨rfl, start, .nil, initially⟩
  | @snoc labels before label after _ allowed taken ih =>
    obtain ⟨reached, other, purged, related⟩ := ih
    have last : publicLabels step secret start (labels ++ [label]) =
        if secret before label then publicLabels step secret start labels
        else publicLabels step secret start labels ++ [label] := by
      rw [← reached]
      exact congrArg Prod.snd List.foldl_append
    refine ⟨?_, ?_⟩
    · rw [List.foldl_append]
      simp [reached, taken]
    rw [last]
    cases isSecret : secret before label with
    | true => exact ⟨other, purged, respects _ _ _ _ allowed isSecret taken related⟩
    | false =>
      obtain ⟨next, follows, still⟩ := consistent _ _ _ _ allowed isSecret taken related
      exact ⟨next, purged.snoc trivial follows, still⟩

end StepRuns
