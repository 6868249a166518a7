import Mathlib.Data.List.DropRight
import Mathlib.Data.Finset.Card

namespace SlidingWindow
variable {ι : Type*} [DecidableEq ι]

/-- The entries of `x` at times in the window that ends at `t`. -/
def held (window : ℕ) (log : List (ι × ℕ)) (x : ι) (t : ℕ) : List (ι × ℕ) :=
  log.filter fun e => e.1 = x ∧ e.2 ≤ t ∧ t < e.2 + window

def admits (window limit : ℕ) (log : List (ι × ℕ)) (call : ι × ℕ) : Prop :=
  (held window log call.1 call.2).length < limit

instance (window limit : ℕ) (log : List (ι × ℕ)) (call : ι × ℕ) :
    Decidable (admits window limit log call) :=
  inferInstanceAs (Decidable (_ < _))

/-- The calls that an exact sliding window admits, in their order. -/
def admitted (window limit : ℕ) (calls : List (ι × ℕ)) : List (ι × ℕ) :=
  calls.foldl (fun log call => if admits window limit log call then log ++ [call] else log) []

variable {window limit : ℕ} {calls log : List (ι × ℕ)}

theorem admitted_snoc (calls : List (ι × ℕ)) (call : ι × ℕ) :
    admitted window limit (calls ++ [call]) =
      if admits window limit (admitted window limit calls) call then
        admitted window limit calls ++ [call]
      else admitted window limit calls := by
  unfold admitted
  rw [List.foldl_append]
  rfl

theorem admitted_mono {first second : List (ι × ℕ)} (earlier : first <+: second) :
    admitted window limit first <+: admitted window limit second := by
  obtain ⟨rest, rfl⟩ := earlier
  induction rest using List.reverseRecOn with
  | nil => simp
  | append_singleton rest call ih =>
    rw [← List.append_assoc, admitted_snoc]
    split
    · exact ih.trans (List.prefix_append ..)
    · exact ih

theorem mem_of_mem_admitted {e : ι × ℕ} (member : e ∈ admitted window limit calls) :
    e ∈ calls := by
  induction calls using List.reverseRecOn with
  | nil => simp [admitted] at member
  | append_singleton calls call ih =>
    rw [admitted_snoc] at member
    split at member
    · rcases List.mem_append.mp member with earlier | new
      · exact List.mem_append_left _ (ih earlier)
      · exact List.mem_append_right _ new
    · exact List.mem_append_left _ (ih member)

theorem mem_held {e : ι × ℕ} {x : ι} {t : ℕ} :
    e ∈ held window log x t ↔ e ∈ log ∧ e.1 = x ∧ e.2 ≤ t ∧ t < e.2 + window := by
  simp [held]

@[simp] theorem held_append (first second : List (ι × ℕ)) (x : ι) (t : ℕ) :
    held window (first ++ second) x t =
      held window first x t ++ held window second x t :=
  List.filter_append ..

/-- Only the entries of its own identifier are looked at. -/
theorem held_filter (log : List (ι × ℕ)) (x : ι) (t : ℕ) :
    held window (log.filter (·.1 = x)) x t = held window log x t := by
  unfold held
  rw [List.filter_filter]
  refine List.filter_congr fun e _ => ?_
  by_cases own : e.1 = x <;> simp [own]

/-- An exact sliding window decides the calls of one identifier as if there
were no others. -/
theorem admitted_filter (x : ι) (calls : List (ι × ℕ)) :
    (admitted window limit calls).filter (·.1 = x) =
      admitted window limit (calls.filter (·.1 = x)) := by
  induction calls using List.reverseRecOn with
  | nil => rfl
  | append_singleton calls call ih =>
    rw [admitted_snoc, List.filter_append]
    by_cases own : call.1 = x
    · have alike : admits window limit (admitted window limit calls) call ↔
          admits window limit (admitted window limit (calls.filter (·.1 = x))) call := by
        unfold admits
        rw [← ih, own, held_filter]
      rw [show [call].filter (·.1 = x) = [call] by simp [own], admitted_snoc, ← ih]
      simp only [ih] at alike ⊢
      by_cases admission : admits window limit (admitted window limit calls) call
      · rw [if_pos admission, if_pos (alike.mp admission), List.filter_append, ih]
        simp [own]
      · rw [if_neg admission, if_neg (fun other => admission (alike.mpr other)), ih]
    · rw [show [call].filter (·.1 = x) = [] by simp [own], List.append_nil, ← ih]
      split
      · simp [own]
      · rfl

/-- No window holds more admitted calls than the limit. -/
theorem length_held_admitted_le (ordered : calls.Pairwise (·.2 ≤ ·.2)) (x : ι) (t : ℕ) :
    (held window (admitted window limit calls) x t).length ≤ limit := by
  induction calls using List.reverseRecOn with
  | nil => simp [admitted, held]
  | append_singleton calls call ih =>
    obtain ⟨sorted, -, latest⟩ := List.pairwise_append.mp ordered
    have before := ih sorted
    rw [admitted_snoc]
    split
    next admission =>
      rw [held_append, List.length_append]
      by_cases within : call.1 = x ∧ call.2 ≤ t ∧ t < call.2 + window
      · obtain ⟨own, past, near⟩ := within
        -- what the window ending at `t` holds was in the window ending at the call
        have earlier : (held window (admitted window limit calls) x t).length ≤
            (held window (admitted window limit calls) call.1 call.2).length := by
          unfold held
          rw [← List.countP_eq_length_filter, ← List.countP_eq_length_filter]
          refine List.countP_mono_left fun e member => ?_
          have notLater : e.2 ≤ call.2 := latest e (mem_of_mem_admitted member) call (by simp)
          simp only [decide_eq_true_eq]
          rintro ⟨same, -, recent⟩
          exact ⟨same.trans own.symm, notLater, by omega⟩
        have room : (held window (admitted window limit calls) call.1 call.2).length < limit :=
          admission
        have one : (held window [call] x t).length ≤ 1 := List.length_filter_le ..
        omega
      · have outside : held window [call] x t = [] := by simpa [held] using within
        simpa [outside] using before
    next => exact before

end SlidingWindow
