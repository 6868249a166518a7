import Mathlib.Order.Bounds.Basic

namespace LeastSoFar
variable {α β : Type*} [LinearOrder α]

/-- The result of a search for the least element of a set; `none` when there
is no element. -/
def Finds (S : Set α) : Option α → Prop
  | none => S = ∅
  | some least => IsLeast S least

/-- The candidate replaces a greater one. -/
def keep (best : Option α) (candidate : α) : Option α :=
  some (match best with
    | none => candidate
    | some b => if candidate < b then candidate else b)

variable {S : Set α} {best : Option α}

theorem finds_none : Finds (∅ : Set α) none := rfl

theorem Finds.keep (found : Finds S best) (candidate : α) :
    Finds (S ∪ {candidate}) (keep best candidate) := by
  cases best with
  | none =>
    have empty : S = ∅ := found
    rw [empty, Set.empty_union]
    exact isLeast_singleton
  | some b =>
    have least : IsLeast S b := found
    unfold LeastSoFar.keep
    dsimp only
    split_ifs with smaller
    · refine ⟨.inr rfl, ?_⟩
      rintro y (old | rfl)
      · exact smaller.le.trans (least.2 old)
      · exact le_rfl
    · refine ⟨.inl least.1, ?_⟩
      rintro y (old | rfl)
      · exact least.2 old
      · exact not_lt.mp smaller

theorem Finds.congr {T : Set α} (found : Finds S best) (same : S = T) : Finds T best :=
  same ▸ found

theorem Finds.mem {least : α} (found : Finds S (some least)) : least ∈ S := found.1

theorem Finds.le {least candidate : α} (found : Finds S (some least)) (member : candidate ∈ S) :
    least ≤ candidate := found.2 member

theorem Finds.isSome {candidate : α} (found : Finds S best) (member : candidate ∈ S) :
    ∃ least, best = some least := by
  cases best with
  | none =>
    have empty : S = ∅ := found
    rw [empty] at member
    exact member.elim
  | some least => exact ⟨least, rfl⟩

/-- A search whose steps add the candidates of one item each finds the least
candidate of all items. -/
theorem Finds.foldl {step : Option α → β → Option α} {T : β → Set α}
    (each : ∀ S best x, Finds S best → Finds (S ∪ T x) (step best x)) (items : List β)
    (found : Finds S best) :
    Finds (S ∪ {y | ∃ x ∈ items, y ∈ T x}) (items.foldl step best) := by
  induction items generalizing S best with
  | nil =>
    refine found.congr ?_
    ext y
    simp
  | cons x rest ih =>
    refine (ih (each S best x found)).congr ?_
    ext y
    simp only [Set.mem_union, Set.mem_ofPred_eq, List.mem_cons, exists_eq_or_imp, or_assoc]

end LeastSoFar
