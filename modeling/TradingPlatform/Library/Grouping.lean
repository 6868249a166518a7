import TradingPlatform.Library.FiniteTable

namespace Grouping
variable {α κ γ M : Type*} [DecidableEq κ]

/-- Folds an element into the entry of its key; a missing entry starts out as
`start x`. -/
def addTo (key : α → κ) (start : α → γ) (add : γ → α → γ) (t : FiniteTable κ γ) (x : α) :
    FiniteTable κ γ :=
  t.insert (key x) (add ((t.lookup (key x)).getD (start x)) x)

def grouped (key : α → κ) (start : α → γ) (add : γ → α → γ) (xs : List α) : FiniteTable κ γ :=
  xs.foldl (addTo key start add) ∅

/-- The entry that the elements of one group fold to. -/
def entry (start : α → γ) (add : γ → α → γ) : List α → Option γ
  | [] => none
  | x :: rest => some ((x :: rest).foldl add (start x))

theorem entry_append_singleton (start : α → γ) (add : γ → α → γ) (xs : List α) (x : α) :
    entry start add (xs ++ [x]) = some (add ((entry start add xs).getD (start x)) x) := by
  cases xs with
  | nil => rfl
  | cons y rest => simp [entry]

variable (key : α → κ) (start : α → γ) (add : γ → α → γ) (xs : List α)

theorem lookup_grouped (k : κ) :
    (grouped key start add xs).lookup k = entry start add (xs.filter (key · = k)) := by
  induction xs using List.reverseRecOn with
  | nil => rfl
  | append_singleton xs x ih =>
    have last : grouped key start add (xs ++ [x]) =
        addTo key start add (grouped key start add xs) x := List.foldl_append
    rw [last, addTo, List.filter_append]
    by_cases same : key x = k
    · subst same
      rw [AList.lookup_insert, List.filter_singleton, ih]
      simp [entry_append_singleton]
    · rw [AList.lookup_insert_ne (Ne.symm same), ih]
      simp [same]

theorem mem_grouped (k : κ) : k ∈ grouped key start add xs ↔ k ∈ xs.map key := by
  rw [← AList.lookup_isSome, lookup_grouped]
  constructor
  · intro present
    cases group : xs.filter (key · = k) with
    | nil => rw [group] at present; cases present
    | cons x rest =>
      have member : x ∈ xs.filter (key · = k) := by rw [group]; exact List.mem_cons_self
      obtain ⟨inList, same⟩ := List.mem_filter.mp member
      exact List.mem_map.mpr ⟨x, inList, of_decide_eq_true same⟩
  · intro member
    obtain ⟨x, inList, same⟩ := List.mem_map.mp member
    cases group : xs.filter (key · = k) with
    | nil =>
      have : x ∈ xs.filter (key · = k) := List.mem_filter.mpr ⟨inList, decide_eq_true same⟩
      rw [group] at this
      cases this
    | cons y rest => rfl

/-- A total over the groups is a sum over the keys that occur. -/
theorem total_grouped [AddCommGroup M] (f : κ → γ → M) :
    FiniteTable.total f (grouped key start add xs) =
      ∑ k ∈ (xs.map key).toFinset,
        (entry start add (xs.filter (key · = k))).elim 0 (f k) := by
  have keys : (xs.map key).toFinset = (grouped key start add xs).keys.toFinset := by
    ext k
    rw [List.mem_toFinset, List.mem_toFinset, ← AList.mem_keys, mem_grouped]
  rw [keys, FiniteTable.total_eq_sum_share]
  refine Finset.sum_congr rfl fun k _ => ?_
  rw [FiniteTable.share, lookup_grouped]

end Grouping
