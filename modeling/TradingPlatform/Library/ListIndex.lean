import TradingPlatform.Library.FiniteTable

/-- An index: under each key a list of values. -/
abbrev ListIndex (K V : Type*) := FiniteTable K (List V)

namespace ListIndex
variable {K V : Type*} [DecidableEq K] [DecidableEq V] {t : ListIndex K V} {k j : K} {v w : V}

def listed (t : ListIndex K V) (k : K) : List V := (t.lookup k).getD []

def push (t : ListIndex K V) (k : K) (v : V) : ListIndex K V := t.insert k (listed t k ++ [v])

/-- All occurrences of a value go, and the list with them when it is empty. -/
def retract (t : ListIndex K V) (k : K) (v : V) : ListIndex K V :=
  match t.lookup k with
  | none => t
  | some vs =>
    let left := vs.filter (· ≠ v)
    if left = [] then t.erase k else t.insert k left

/-- No key keeps an empty list. -/
def NoneEmpty (t : ListIndex K V) : Prop := ∀ k, t.lookup k ≠ some []

omit [DecidableEq V] in
theorem listed_insert (t : ListIndex K V) (k j : K) (vs : List V) :
    listed (t.insert k vs) j = if j = k then vs else listed t j := by
  unfold listed
  split_ifs with same
  · subst same
    rw [AList.lookup_insert, Option.getD_some]
  · rw [AList.lookup_insert_ne same]

omit [DecidableEq V] in
theorem listed_erase (t : ListIndex K V) (k j : K) :
    listed (t.erase k) j = if j = k then [] else listed t j := by
  unfold listed
  split_ifs with same
  · subst same
    rw [AList.lookup_erase, Option.getD_none]
  · rw [AList.lookup_erase_ne same]

theorem listed_retract (t : ListIndex K V) (k j : K) (v : V) :
    listed (retract t k v) j = if j = k then (listed t k).filter (· ≠ v) else listed t j := by
  unfold retract
  split
  next absent =>
    split_ifs with same
    · subst same
      rw [listed, absent, Option.getD_none, List.filter_nil]
    · rfl
  next vs stored =>
    have now : listed t k = vs := by rw [listed, stored, Option.getD_some]
    rw [now]
    dsimp only
    by_cases empty : vs.filter (· ≠ v) = []
    · rw [if_pos empty, listed_erase, empty]
    · rw [if_neg empty, listed_insert]

theorem count_push (t : ListIndex K V) (k j : K) (v w : V) :
    (listed (push t k v) j).count w =
      (listed t j).count w + if j = k ∧ w = v then 1 else 0 := by
  rw [push, listed_insert]
  by_cases same : j = k
  · subst same
    rw [if_pos rfl, List.count_append, List.count_singleton]
    by_cases own : w = v
    · simp [own]
    · simp [own, Ne.symm own]
  · rw [if_neg same, if_neg fun both => same both.1, Nat.add_zero]

theorem count_retract (t : ListIndex K V) (k j : K) (v w : V) :
    (listed (retract t k v) j).count w =
      if j = k ∧ w = v then 0 else (listed t j).count w := by
  rw [listed_retract]
  by_cases same : j = k
  · subst same
    rw [if_pos rfl]
    by_cases own : w = v
    · subst own
      rw [if_pos ⟨rfl, rfl⟩, List.count_eq_zero]
      intro member
      exact of_decide_eq_true (List.mem_filter.mp member).2 rfl
    · rw [if_neg fun both => own both.2]
      exact List.count_filter (decide_eq_true own)
  · rw [if_neg same, if_neg fun both => same both.1]

theorem count_retract_all (t : ListIndex K V) (keys : List K) (j : K) (v w : V) :
    (listed (keys.foldl (fun t k => retract t k v) t) j).count w =
      if j ∈ keys ∧ w = v then 0 else (listed t j).count w := by
  induction keys generalizing t with
  | nil => rw [List.foldl_nil, if_neg fun both => List.not_mem_nil both.1]
  | cons k rest ih =>
    rw [List.foldl_cons, ih, count_retract]
    by_cases own : w = v
    · by_cases here : j = k
      · simp [own, here]
      · simp [own, here]
    · simp [own]

omit [DecidableEq V] in
theorem NoneEmpty.push (nonempty : NoneEmpty t) (k : K) (v : V) : NoneEmpty (push t k v) := by
  intro j stored
  unfold ListIndex.push at stored
  by_cases same : j = k
  · subst same
    rw [AList.lookup_insert] at stored
    exact List.append_ne_nil_of_right_ne_nil _ (List.cons_ne_nil v []) (Option.some.inj stored)
  · rw [AList.lookup_insert_ne same] at stored
    exact nonempty j stored

theorem NoneEmpty.retract (nonempty : NoneEmpty t) (k : K) (v : V) : NoneEmpty (retract t k v) := by
  intro j stored
  unfold ListIndex.retract at stored
  split at stored
  next => exact nonempty j stored
  next vs _ =>
    dsimp only at stored
    by_cases empty : vs.filter (· ≠ v) = []
    · rw [if_pos empty] at stored
      by_cases same : j = k
      · rw [same, AList.lookup_erase] at stored
        cases stored
      · rw [AList.lookup_erase_ne same] at stored
        exact nonempty j stored
    · rw [if_neg empty] at stored
      by_cases same : j = k
      · rw [same, AList.lookup_insert] at stored
        exact empty (Option.some.inj stored)
      · rw [AList.lookup_insert_ne same] at stored
        exact nonempty j stored

theorem NoneEmpty.retract_all (nonempty : NoneEmpty t) (keys : List K) (v : V) :
    NoneEmpty (keys.foldl (fun t k => ListIndex.retract t k v) t) := by
  induction keys generalizing t with
  | nil => exact nonempty
  | cons k rest ih => exact ih (nonempty.retract k v)

end ListIndex
