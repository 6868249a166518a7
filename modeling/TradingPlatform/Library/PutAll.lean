import Mathlib.Data.List.Basic

namespace PutAll
variable {T K V : Type*} [DecidableEq K] {get : T → K → Option V} {put : T → K × V → T}

/-- Writing under one key. -/
def Lawful (get : T → K → Option V) (put : T → K × V → T) : Prop :=
  ∀ t write k, get (put t write) k = if k = write.1 then some write.2 else get t k

theorem get_foldl_of_notMem (lawful : Lawful get put) {writes : List (K × V)} {k : K}
    (absent : ∀ v, (k, v) ∉ writes) (t : T) : get (writes.foldl put t) k = get t k := by
  induction writes generalizing t with
  | nil => rfl
  | cons write rest ih =>
    rw [List.foldl_cons, ih fun v later => absent v (List.mem_cons_of_mem _ later), lawful,
      if_neg]
    rintro rfl
    exact absent write.2 List.mem_cons_self

/-- A key that is written, and always with the same value, holds it afterwards. -/
theorem get_foldl_of_mem (lawful : Lawful get put) {writes : List (K × V)} {k : K} {v : V}
    (member : (k, v) ∈ writes) (only : ∀ other, (k, other) ∈ writes → other = v) (t : T) :
    get (writes.foldl put t) k = some v := by
  induction writes generalizing t with
  | nil => cases member
  | cons write rest ih =>
    have onlyRest := fun other later => only other (List.mem_cons_of_mem _ later)
    rw [List.foldl_cons]
    by_cases later : (k, v) ∈ rest
    · exact ih later onlyRest _
    · have last : (k, v) = write := (List.mem_cons.mp member).resolve_right later
      have absent : ∀ other, (k, other) ∉ rest := by
        intro other again
        exact later (onlyRest other again ▸ again)
      rw [get_foldl_of_notMem lawful absent, lawful, ← last, if_pos rfl]

end PutAll
