import Mathlib.Algebra.Order.Field.Rat
import Mathlib.Data.List.Pairwise

namespace TradingPlatform

/-- A row of a tier table, with its texts read as decimals; no upper bound
stands for an absent or empty one. -/
structure LeverageTier where
  notionalFrom : ℚ
  notionalTo : Option ℚ
  maxLeverage : ℤ
  deriving DecidableEq, Repr

namespace LeverageTier

def InTier (t : LeverageTier) (notional : ℚ) : Prop :=
  t.notionalFrom ≤ notional ∧ ∀ upper ∈ t.notionalTo, notional < upper

instance (t : LeverageTier) (notional : ℚ) : Decidable (t.InTier notional) :=
  inferInstanceAs (Decidable (_ ∧ _))

/-- One round of the loop over the tiers: the tier with the larger lower bound
is kept. -/
def keepBest (notional : ℚ) (best : Option LeverageTier) (t : LeverageTier) : Option LeverageTier :=
  if t.InTier notional then
    match best with
    | none => some t
    | some b => if b.notionalFrom < t.notionalFrom then some t else some b
  else best

/-- The lowest tier, the first of those with the least lower bound. -/
def keepLowest (best : Option LeverageTier) (t : LeverageTier) : Option LeverageTier :=
  match best with
  | none => some t
  | some b => if t.notionalFrom < b.notionalFrom then some t else some b

end LeverageTier

def bestTier (notional : ℚ) (tiers : List LeverageTier) : Option LeverageTier :=
  tiers.foldl (LeverageTier.keepBest notional) none

/-- The tier's leverage, else that of the last open-ended tier from below the
notional, else for a notional below all tiers that of the lowest tier. -/
def symbolLeverage (notional : ℚ) (tiers : List LeverageTier) : Option ℤ :=
  match bestTier notional tiers with
  | some t => some t.maxLeverage
  | none =>
    match tiers.reverse.find? fun t => t.notionalTo = none ∧ t.notionalFrom ≤ notional with
    | some t => some t.maxLeverage
    | none =>
      if 0 < notional then
        match tiers.foldl LeverageTier.keepLowest none with
        | some t => if notional < t.notionalFrom then some t.maxLeverage else none
        | none => none
      else none

/-- `effective_leverage` -/
def effectiveLeverage (notional : ℚ) (minLeverage maxLeverage : Option ℤ)
    (tiers : Option (List LeverageTier)) : Option ℚ :=
  match minLeverage, maxLeverage, tiers with
  | some minL, some maxL, some tiers =>
    if minL < 1 ∨ maxL < 1 ∨ maxL < minL ∨ tiers = [] ∨ notional < 0 then none
    else
      match symbolLeverage notional tiers with
      | some s => if s < 1 then none else some (min (max (s : ℚ) minL) maxL)
      | none => none
  | _, _, _ => none

variable {notional : ℚ} {tiers : List LeverageTier} {t : LeverageTier}

theorem LeverageTier.keepBest_self {best : Option LeverageTier} (isIn : t.InTier notional)
    (soFar : best = none ∨ best = some t) : LeverageTier.keepBest notional best t = some t := by
  unfold LeverageTier.keepBest
  rw [if_pos isIn]
  rcases soFar with rfl | rfl
  · rfl
  · exact if_neg (lt_irrefl _)

/-- Tiers that do not compete with `t` leave it the best one. -/
theorem LeverageTier.foldl_keepBest {rest : List LeverageTier}
    (only : ∀ other ∈ rest, other.InTier notional → other = t) (best : Option LeverageTier)
    (soFar : best = none ∨ best = some t) :
    rest.foldl (LeverageTier.keepBest notional) best = none ∨
      rest.foldl (LeverageTier.keepBest notional) best = some t := by
  induction rest generalizing best with
  | nil => exact soFar
  | cons other rest ih =>
    rw [List.foldl_cons]
    refine ih (fun r isLater => only r (List.mem_cons_of_mem _ isLater)) _ ?_
    by_cases otherIn : other.InTier notional
    · cases only other List.mem_cons_self otherIn
      exact .inr (LeverageTier.keepBest_self otherIn soFar)
    · have kept : LeverageTier.keepBest notional best other = best := if_neg otherIn
      rw [kept]
      exact soFar

/-- A tier that no other one competes with is the best one. -/
theorem bestTier_eq (member : t ∈ tiers) (isIn : t.InTier notional)
    (only : ∀ other ∈ tiers, other.InTier notional → other = t) : bestTier notional tiers = some t := by
  obtain ⟨before, after, rfl⟩ := List.append_of_mem member
  have ofBefore := fun other isEarlier => only other (List.mem_append_left _ isEarlier)
  have ofAfter := fun other isLater =>
    only other (List.mem_append_right _ (List.mem_cons_of_mem _ isLater))
  unfold bestTier
  rw [List.foldl_append, List.foldl_cons,
    LeverageTier.keepBest_self isIn (LeverageTier.foldl_keepBest ofBefore none (.inl rfl))]
  have found : ∀ (rest : List LeverageTier), (∀ other ∈ rest, other.InTier notional → other = t) →
      rest.foldl (LeverageTier.keepBest notional) (some t) = some t := by
    intro rest
    induction rest with
    | nil => exact fun _ => rfl
    | cons other rest ih =>
      intro onlyRest
      rw [List.foldl_cons]
      have kept : LeverageTier.keepBest notional (some t) other = some t := by
        by_cases otherIn : other.InTier notional
        · cases onlyRest other List.mem_cons_self otherIn
          exact LeverageTier.keepBest_self otherIn (.inr rfl)
        · exact if_neg otherIn
      rw [kept]
      exact ih fun r isLater => onlyRest r (List.mem_cons_of_mem _ isLater)
  exact found after ofAfter

end TradingPlatform
