import Mathlib.Algebra.Group.Defs
import Mathlib.Data.List.Basic

namespace StepRuns
variable {σ α : Type*}

/-- Runs of a labelled step function, every step of which is permitted by
`ok` in the state it starts from. With `ok` always true these are all runs. -/
inductive GuardedRun (step : σ → α → Option σ) (ok : σ → α → Prop) (start : σ) :
    List α → σ → Prop
  | nil : GuardedRun step ok start [] start
  | snoc {labels before label after} :
      GuardedRun step ok start labels before → ok before label →
      step before label = some after → GuardedRun step ok start (labels ++ [label]) after

/-- All runs: no step is excluded. -/
abbrev Run (step : σ → α → Option σ) (start : σ) : List α → σ → Prop :=
  GuardedRun step (fun _ _ => True) start

variable {step : σ → α → Option σ} {ok : σ → α → Prop} {start : σ}

/-- The rule of invariants with the labels taken so far in scope. -/
theorem GuardedRun.invariant_labels {Inv : List α → σ → Prop} (initially : Inv [] start)
    (preserved : ∀ labels before label after, ok before label → step before label = some after →
      Inv labels before → Inv (labels ++ [label]) after)
    {labels : List α} {state : σ} (run : GuardedRun step ok start labels state) :
    Inv labels state := by
  induction run with
  | nil => exact initially
  | snoc _ allowed taken ih => exact preserved _ _ _ _ allowed taken ih

theorem GuardedRun.invariant {Inv : σ → Prop} (initially : Inv start)
    (preserved : ∀ before label after, ok before label → step before label = some after →
      Inv before → Inv after)
    {labels : List α} {state : σ} (run : GuardedRun step ok start labels state) : Inv state := by
  induction run with
  | nil => exact initially
  | snoc _ allowed taken ih => exact preserved _ _ _ allowed taken ih

theorem GuardedRun.append {middle final : σ} {first second : List α}
    (run : GuardedRun step ok start first middle)
    (rest : GuardedRun step ok middle second final) :
    GuardedRun step ok start (first ++ second) final := by
  induction rest with
  | nil => simpa using run
  | snoc _ allowed taken ih =>
    rw [← List.append_assoc]
    exact .snoc ih allowed taken

theorem GuardedRun.cons {middle final : σ} {label : α} {labels : List α} (allowed : ok start label)
    (taken : step start label = some middle) (rest : GuardedRun step ok middle labels final) :
    GuardedRun step ok start (label :: labels) final := by
  have first : GuardedRun step ok start [label] middle := .snoc .nil allowed taken
  exact first.append rest

theorem GuardedRun.weaken {weaker : σ → α → Prop} (implies : ∀ s a, ok s a → weaker s a)
    {labels : List α} {state : σ} (run : GuardedRun step ok start labels state) :
    GuardedRun step weaker start labels state := by
  induction run with
  | nil => exact .nil
  | snoc _ allowed taken ih => exact .snoc ih (implies _ _ allowed) taken

/-- Steps that are permitted one way are permitted another way wherever an
invariant holds. -/
theorem GuardedRun.weaken_of_invariant {weaker : σ → α → Prop} {Inv : σ → Prop}
    (initially : Inv start)
    (preserved : ∀ before label after, ok before label → step before label = some after →
      Inv before → Inv after)
    (implies : ∀ s a, Inv s → ok s a → weaker s a)
    {labels : List α} {state : σ} (run : GuardedRun step ok start labels state) :
    GuardedRun step weaker start labels state := by
  induction run with
  | nil => exact .nil
  | snoc before allowed taken ih =>
    have holds := before.invariant initially preserved
    exact .snoc ih (implies _ _ holds allowed) taken

section Tally
variable {M : Type*} [AddMonoid M]

/-- The state that some labels lead to and the sum over them of a quantity of
each step. -/
def tallied (step : σ → α → Option σ) (moves : σ → α → M) (start : σ) (labels : List α) :
    Option σ × M :=
  labels.foldl (fun sofar a => (sofar.1.bind (step · a), sofar.2 + sofar.1.elim 0 (moves · a)))
    (some start, 0)

/-- A measure that every step changes by a quantity, as long as an invariant
holds, has changed by its sum. -/
theorem GuardedRun.tallied {moves : σ → α → M} {measure : σ → M} {Inv : σ → Prop}
    (initially : Inv start)
    (preserved : ∀ before label after, ok before label → step before label = some after →
      Inv before → Inv after)
    (changes : ∀ before label after, ok before label → step before label = some after →
      Inv before → measure after = measure before + moves before label)
    {labels : List α} {state : σ} (run : GuardedRun step ok start labels state) :
    (StepRuns.tallied step moves start labels).1 = some state ∧
      measure state = measure start + (StepRuns.tallied step moves start labels).2 := by
  induction run with
  | nil => exact ⟨rfl, (add_zero _).symm⟩
  | @snoc labels before label after run allowed taken ih =>
    obtain ⟨reached, sum⟩ := ih
    have holds : Inv before := run.invariant initially preserved
    have last : StepRuns.tallied step moves start (labels ++ [label]) =
        ((StepRuns.tallied step moves start labels).1.bind (step · label),
          (StepRuns.tallied step moves start labels).2 +
            (StepRuns.tallied step moves start labels).1.elim 0 (moves · label)) :=
      List.foldl_append
    rw [last, reached]
    refine ⟨taken, ?_⟩
    rw [changes _ _ _ allowed taken holds, sum, add_assoc]
    rfl

end Tally

section Evaluation
variable [∀ s a, Decidable (ok s a)]

/-- Executes the labels in order, stopping at a label that is not permitted
or whose step is undefined. -/
def runGuarded (step : σ → α → Option σ) (ok : σ → α → Prop) [∀ s a, Decidable (ok s a)] :
    σ → List α → Option σ
  | s, [] => some s
  | s, a :: rest =>
    if ok s a then
      match step s a with
      | some after => runGuarded step ok after rest
      | none => none
    else none

theorem GuardedRun.of_eval {labels : List α} {state : σ}
    (eval : runGuarded step ok start labels = some state) :
    GuardedRun step ok start labels state := by
  induction labels generalizing start with
  | nil =>
    cases Option.some.inj eval
    exact .nil
  | cons label rest ih =>
    simp only [runGuarded] at eval
    split at eval
    next allowed =>
      split at eval
      next after taken => exact .cons allowed taken (ih eval)
      next => cases eval
    next => cases eval

/-- What an evaluation shows of the state it ends in. -/
theorem GuardedRun.of_eval_map {β : Type*} {f : σ → β} {b : β} {labels : List α}
    (eval : (runGuarded step ok start labels).map f = some b) :
    ∃ state, GuardedRun step ok start labels state ∧ f state = b := by
  obtain ⟨state, reached, shown⟩ := Option.map_eq_some_iff.mp eval
  exact ⟨state, .of_eval reached, shown⟩

end Evaluation

end StepRuns
