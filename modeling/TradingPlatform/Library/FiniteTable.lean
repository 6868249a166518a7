import Mathlib.Data.List.AList
import Mathlib.Algebra.BigOperators.Group.Finset.Basic
import Mathlib.Algebra.BigOperators.Group.List.Basic
import Mathlib.Algebra.Order.BigOperators.Group.List
import Mathlib.Tactic.Abel

/-- A finite table: at most one value for each key. -/
abbrev FiniteTable (K V : Type*) := AList (fun _ : K => V)

namespace FiniteTable
variable {K V M : Type*}

/-- The sum of a quantity over all rows of the table. -/
def total [AddCommMonoid M] (f : K → V → M) (t : FiniteTable K V) : M :=
  (t.entries.map fun row => f row.1 row.2).sum

@[simp] theorem total_empty [AddCommMonoid M] (f : K → V → M) :
    total f (∅ : FiniteTable K V) = 0 := rfl

theorem map_total {N : Type*} [AddCommMonoid M] [AddCommMonoid N] (φ : M →+ N) (f : K → V → M)
    (t : FiniteTable K V) : φ (total f t) = total (fun k v => φ (f k v)) t := by
  rw [total, map_list_sum, List.map_map]
  rfl

variable [DecidableEq K] [AddCommGroup M] {f g : K → V → M} {t : FiniteTable K V} {k : K}

/-- What the row stored under `k` contributes to the total. -/
def share (f : K → V → M) (t : FiniteTable K V) (k : K) : M :=
  (t.lookup k).elim 0 (f k)

theorem share_none (absent : t.lookup k = none) : share f t k = 0 := by
  simp only [share, absent, Option.elim_none]

theorem share_some {v : V} (stored : t.lookup k = some v) : share f t k = f k v := by
  simp only [share, stored, Option.elim_some]

theorem total_eq_kerase_add (f : K → V → M) (t : FiniteTable K V) (k : K) :
    total f t = ((List.kerase k t.entries).map fun row => f row.1 row.2).sum + share f t k := by
  by_cases member : k ∈ t.entries.keys
  · obtain ⟨v, front, back, _, split, erased⟩ := List.exists_of_kerase member
    have stored : t.lookup k = some v := by
      apply AList.mem_lookup_iff.mpr
      rw [split]
      simp
    rw [share_some stored, erased, total, split]
    simp only [List.map_append, List.map_cons, List.sum_append, List.sum_cons]
    abel
  · rw [List.kerase_of_notMem_keys member, share_none (AList.lookup_eq_none.mpr member), add_zero]
    rfl

/-- Writing a row replaces its old contribution by the new one. -/
theorem total_insert (f : K → V → M) (t : FiniteTable K V) (k : K) (v : V) :
    total f (t.insert k v) = total f t - share f t k + f k v := by
  rw [total_eq_kerase_add f t k, add_sub_cancel_right, add_comm]
  simp [total, AList.insert, List.kinsert_def]

theorem total_erase (f : K → V → M) (t : FiniteTable K V) (k : K) :
    total f (t.erase k) = total f t - share f t k := by
  rw [total_eq_kerase_add f t k, add_sub_cancel_right]
  rfl

theorem total_congr (agree : ∀ k v, t.lookup k = some v → f k v = g k v) :
    total f t = total g t := by
  unfold total
  congr 1
  apply List.map_congr_left
  intro row member
  exact agree row.1 row.2 (AList.mem_lookup_iff.mpr member)

theorem total_eq_zero (vanish : ∀ k v, t.lookup k = some v → f k v = 0) : total f t = 0 := by
  apply List.sum_eq_zero
  intro x member
  obtain ⟨row, inRows, rfl⟩ := List.mem_map.mp member
  exact vanish row.1 row.2 (AList.mem_lookup_iff.mpr inRows)

theorem total_eq_sum_share (f : K → V → M) (t : FiniteTable K V) :
    total f t = ∑ k ∈ t.keys.toFinset, share f t k := by
  rw [List.sum_toFinset _ t.keys_nodup]
  change _ = ((t.entries.map Sigma.fst).map (share f t)).sum
  rw [List.map_map, total]
  congr 1
  apply List.map_congr_left
  intro row member
  exact (share_some (AList.mem_lookup_iff.mpr member)).symm

section Order
variable [PartialOrder M] [IsOrderedAddMonoid M]

theorem total_nonneg (nonneg : ∀ k v, t.lookup k = some v → 0 ≤ f k v) : 0 ≤ total f t := by
  apply List.sum_nonneg
  intro x member
  obtain ⟨row, inRows, rfl⟩ := List.mem_map.mp member
  exact nonneg row.1 row.2 (AList.mem_lookup_iff.mpr inRows)

/-- No row contributes more than the total when no row contributes less than zero. -/
theorem share_le_total (nonneg : ∀ k v, t.lookup k = some v → 0 ≤ f k v) :
    share f t k ≤ total f t := by
  rw [total_eq_kerase_add f t k]
  apply le_add_of_nonneg_left
  apply List.sum_nonneg
  intro x member
  obtain ⟨row, inRest, rfl⟩ := List.mem_map.mp member
  have inRows : row ∈ t.entries := (List.kerase_sublist k t.entries).mem inRest
  exact nonneg row.1 row.2 (AList.mem_lookup_iff.mpr inRows)

end Order

end FiniteTable
