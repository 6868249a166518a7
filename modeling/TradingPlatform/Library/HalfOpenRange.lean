import Mathlib.Data.Set.Lattice
import Mathlib.Order.CompletePartialOrder

namespace HalfOpenRange
variable {α : Type*} [LinearOrder α] {lower lower' x : α} {upper upper' : Option α}

/-- The values from `lower` on and, when there is an upper bound, below it. -/
def range (lower : α) (upper : Option α) : Set α := {x | lower ≤ x ∧ ∀ e ∈ upper, x < e}

/-- The range with this upper bound has nothing from `x` on. -/
def EndsBy (upper : Option α) (x : α) : Prop := ∃ e ∈ upper, e ≤ x

theorem EndsBy.bounded (ends : EndsBy upper x) : upper ≠ none := by
  obtain ⟨e, bound, _⟩ := ends
  rintro rfl
  cases bound

theorem range_nonempty : (range lower upper).Nonempty ↔ ∀ e ∈ upper, lower < e :=
  ⟨fun ⟨_, above, below⟩ e bound => above.trans_lt (below e bound), fun proper => ⟨lower, le_rfl, proper⟩⟩

theorem EndsBy.disjoint (ends : EndsBy upper lower') :
    Disjoint (range lower upper) (range lower' upper') := by
  obtain ⟨e, bound, early⟩ := ends
  rw [Set.disjoint_left]
  rintro x ⟨_, below⟩ ⟨above, _⟩
  exact ((below e bound).trans_le early).not_ge above

/-- Of two disjoint ranges one ends before the other begins. -/
theorem disjoint_iff (nonempty : (range lower upper).Nonempty)
    (nonempty' : (range lower' upper').Nonempty) :
    Disjoint (range lower upper) (range lower' upper') ↔
      EndsBy upper lower' ∨ EndsBy upper' lower := by
  constructor
  · intro apart
    by_contra neither
    rw [not_or] at neither
    obtain ⟨late, late'⟩ := neither
    have below : ∀ e ∈ upper, lower' < e := fun e bound => not_le.mp fun early => late ⟨e, bound, early⟩
    have below' : ∀ e ∈ upper', lower < e := fun e bound => not_le.mp fun early => late' ⟨e, bound, early⟩
    have inFirst : max lower lower' ∈ range lower upper :=
      ⟨le_max_left _ _, fun e bound => max_lt (range_nonempty.mp nonempty e bound) (below e bound)⟩
    have inSecond : max lower lower' ∈ range lower' upper' :=
      ⟨le_max_right _ _, fun e bound => max_lt (below' e bound) (range_nonempty.mp nonempty' e bound)⟩
    exact Set.disjoint_left.mp apart inFirst inSecond
  · rintro (ends | ends)
    · exact ends.disjoint
    · exact ends.disjoint.symm

end HalfOpenRange
