import Mathlib.Algebra.Order.Round
import Mathlib.Tactic.FieldSimp
import Mathlib.Tactic.Linarith
import Mathlib.Tactic.NormNum
import Mathlib.Tactic.Ring

namespace HalfAway

section Scale
variable {K : Type*} [Field K] {scale a b : K}

/-- A value that is a whole number of units of a column with `scale` units. -/
def OnScale (scale x : K) : Prop := ∃ n : ℤ, x * scale = n

theorem onScale_zero : OnScale scale 0 := ⟨0, by rw [zero_mul, Int.cast_zero]⟩

theorem OnScale.add (left : OnScale scale a) (right : OnScale scale b) : OnScale scale (a + b) := by
  obtain ⟨n, units⟩ := left
  obtain ⟨m, more⟩ := right
  exact ⟨n + m, by rw [add_mul, units, more, Int.cast_add]⟩

theorem OnScale.neg (onScale : OnScale scale a) : OnScale scale (-a) := by
  obtain ⟨n, units⟩ := onScale
  exact ⟨-n, by rw [neg_mul, units, Int.cast_neg]⟩

theorem OnScale.sub (left : OnScale scale a) (right : OnScale scale b) : OnScale scale (a - b) :=
  sub_eq_add_neg a b ▸ left.add right.neg

end Scale

variable {K : Type*} [Field K] [LinearOrder K] [IsStrictOrderedRing K] [FloorRing K]

/-- The nearest integer; a value in the middle goes to the one farther from zero. -/
def roundAway (x : K) : ℤ := if 0 ≤ x then ⌊x + 1 / 2⌋ else ⌈x - 1 / 2⌉

/-- The value is in the middle of two integers. -/
def Tie (x : K) : Prop := Int.fract x = 1 / 2

/-- The value as a column with `scale` units stores it. -/
def stored (scale x : K) : K := roundAway (x * scale) / scale

omit [IsStrictOrderedRing K] in
theorem onScale_stored {scale : K} (positive : 0 < scale) (x : K) :
    OnScale scale (stored scale x) :=
  ⟨roundAway (x * scale), div_mul_cancel₀ _ positive.ne'⟩

theorem roundAway_of_not_tie {x : K} (clear : ¬ Tie x) : roundAway x = round x := by
  unfold roundAway
  split_ifs
  · exact (round_eq x).symm
  · have below := Int.floor_le (x + 1 / 2)
    have above := Int.lt_floor_add_one (x + 1 / 2)
    have apart : (⌊x + 1 / 2⌋ : K) ≠ x + 1 / 2 := by
      intro middle
      refine clear (Int.fract_eq_iff.mpr ⟨by norm_num, by norm_num, ⌊x + 1 / 2⌋ - 1, ?_⟩)
      rw [Int.cast_sub, middle, Int.cast_one]
      linarith
    have strict := lt_of_le_of_ne below apart
    rw [round_eq, Int.ceil_eq_iff]
    exact ⟨by linarith, by linarith⟩

theorem roundAway_intCast (n : ℤ) : roundAway (n : K) = n := by
  have clear : ¬ Tie (n : K) := by
    unfold Tie
    rw [Int.fract_intCast]
    norm_num
  rw [roundAway_of_not_tie clear, round_intCast]

theorem roundAway_neg (x : K) : roundAway (-x) = -roundAway x := by
  rcases lt_trichotomy x 0 with negative | rfl | positive
  · unfold roundAway
    rw [if_pos (neg_nonneg.mpr negative.le), if_neg negative.not_ge, ← Int.floor_neg]
    congr 1
    ring
  · have zero := roundAway_intCast (K := K) 0
    rw [Int.cast_zero] at zero
    rw [neg_zero, zero, neg_zero]
  · unfold roundAway
    rw [if_neg (neg_neg_iff_pos.mpr positive).not_ge, if_pos positive.le, ← Int.ceil_neg]
    congr 1
    ring

theorem roundAway_mono {x y : K} (order : x ≤ y) : roundAway x ≤ roundAway y := by
  unfold roundAway
  split_ifs with first second
  · exact Int.floor_mono (by linarith)
  · exact absurd (first.trans order) second
  · have left : ⌈x - 1 / 2⌉ ≤ 0 := Int.ceil_le.mpr (by push_cast; linarith)
    have right : 0 ≤ ⌊y + 1 / 2⌋ := Int.floor_nonneg.mpr (by linarith)
    exact left.trans right
  · exact Int.ceil_mono (by linarith)

theorem roundAway_nonneg {x : K} (nonneg : 0 ≤ x) : 0 ≤ roundAway x := by
  rw [roundAway, if_pos nonneg]
  exact Int.floor_nonneg.mpr (by linarith)

/-- An integer part is kept by the rounding of what is not a tie. -/
theorem roundAway_intCast_add (n : ℤ) {x : K} (clear : ¬ Tie x) :
    roundAway (n + x) = n + roundAway x := by
  have stillClear : ¬ Tie ((n : K) + x) := by
    unfold Tie
    rw [Int.fract_intCast_add]
    exact clear
  rw [roundAway_of_not_tie stillClear, roundAway_of_not_tie clear, round_intCast_add]

/-- Rounding goes the same way before and after an integer is added, if the sign
stays. -/
theorem roundAway_intCast_add_of_sign (n : ℤ) {x : K} (sign : 0 ≤ x ↔ 0 ≤ n + x) :
    roundAway (n + x) = n + roundAway x := by
  unfold roundAway
  by_cases nonneg : 0 ≤ x
  · rw [if_pos nonneg, if_pos (sign.mp nonneg), add_assoc, Int.floor_intCast_add]
  · rw [if_neg nonneg, if_neg (mt sign.mpr nonneg), add_sub_assoc, Int.ceil_intCast_add]

theorem Tie.of_neg {x : K} (tie : Tie (-x)) : Tie x := by
  obtain ⟨-, -, n, middle⟩ := Int.fract_eq_iff.mp tie
  refine Int.fract_eq_iff.mpr ⟨by norm_num, by norm_num, -n - 1, ?_⟩
  rw [Int.cast_sub, Int.cast_neg, ← middle, Int.cast_one]
  ring

section Columns
variable {scale a b x : K}

theorem OnScale.stored (onScale : OnScale scale a) (positive : 0 < scale) :
    stored scale a = a := by
  obtain ⟨n, units⟩ := onScale
  rw [HalfAway.stored, units, roundAway_intCast, ← units]
  exact mul_div_cancel_right₀ a positive.ne'

theorem OnScale.not_tie (onScale : OnScale scale a) : ¬ Tie (a * scale) := by
  obtain ⟨n, units⟩ := onScale
  rw [units, Tie, Int.fract_intCast]
  norm_num

theorem stored_mono (positive : 0 < scale) : Monotone (stored scale) := by
  intro x y order
  have units := roundAway_mono (mul_le_mul_of_nonneg_right order positive.le)
  exact div_le_div_of_nonneg_right (Int.cast_le.mpr units) positive.le

theorem stored_nonneg (positive : 0 < scale) (nonneg : 0 ≤ x) : 0 ≤ stored scale x :=
  div_nonneg (Int.cast_nonneg (roundAway_nonneg (mul_nonneg nonneg positive.le))) positive.le

theorem stored_neg (scale x : K) : stored scale (-x) = -stored scale x := by
  rw [stored, neg_mul, roundAway_neg, Int.cast_neg, neg_div, stored]

/-- Adding to a column adds the stored amount, unless that amount is a tie. -/
theorem OnScale.stored_add (onScale : OnScale scale a) (positive : 0 < scale)
    (clear : ¬ Tie (x * scale)) : HalfAway.stored scale (a + x) = a + HalfAway.stored scale x := by
  obtain ⟨n, units⟩ := onScale
  have column : a = n / scale := by rw [← units, mul_div_cancel_right₀ a positive.ne']
  rw [HalfAway.stored, add_mul, units, roundAway_intCast_add n clear, Int.cast_add, add_div,
    ← column, HalfAway.stored]

/-- Neither does a tie matter, if the sum has the sign of the amount. -/
theorem OnScale.stored_add_of_sign (onScale : OnScale scale a) (positive : 0 < scale)
    (sign : 0 ≤ x ↔ 0 ≤ a + x) : HalfAway.stored scale (a + x) = a + HalfAway.stored scale x := by
  obtain ⟨n, units⟩ := onScale
  have column : a = n / scale := by rw [← units, mul_div_cancel_right₀ a positive.ne']
  have sameSign : 0 ≤ x * scale ↔ 0 ≤ (n : K) + x * scale := by
    rw [← units, ← add_mul, mul_nonneg_iff_of_pos_right positive,
      mul_nonneg_iff_of_pos_right positive, sign]
  rw [HalfAway.stored, add_mul, units, roundAway_intCast_add_of_sign n sameSign, Int.cast_add,
    add_div, ← column, HalfAway.stored]

theorem OnScale.stored_sub (onScale : OnScale scale a) (positive : 0 < scale)
    (clear : ¬ Tie (x * scale)) : HalfAway.stored scale (a - x) = a - HalfAway.stored scale x := by
  have clearNeg : ¬ Tie (-x * scale) := fun tie => clear (Tie.of_neg (neg_mul x scale ▸ tie))
  rw [sub_eq_add_neg, onScale.stored_add positive clearNeg, stored_neg, ← sub_eq_add_neg]

/-- What is not a tie stays so when an amount on the scale is taken off. -/
theorem OnScale.not_tie_sub (onScale : OnScale scale a) (clear : ¬ Tie (x * scale)) :
    ¬ Tie ((x - a) * scale) := by
  obtain ⟨n, units⟩ := onScale
  rw [sub_mul, units, Tie, Int.fract_sub_intCast]
  exact clear

/-- An amount that is no tie splits into such amounts at a column's value. -/
theorem OnScale.not_tie_min (onScale : OnScale scale a) (clear : ¬ Tie (x * scale)) :
    ¬ Tie (min x a * scale) ∧ ¬ Tie ((x - min x a) * scale) := by
  rcases le_total x a with whole | part
  · rw [min_eq_left whole, sub_self]
    exact ⟨clear, onScale_zero.not_tie⟩
  · rw [min_eq_right part]
    exact ⟨onScale.not_tie, onScale.not_tie_sub clear⟩

/-- The value as a column of so many digits, so many of them decimals, stores it,
if it has room for it. -/
def column (digits decimals : ℕ) (x : K) : Option K :=
  if |stored (10 ^ decimals) x| < 10 ^ (digits - decimals) then some (stored (10 ^ decimals) x)
  else none

variable {digits decimals : ℕ} {y : K}

omit [IsStrictOrderedRing K] in
theorem column_eq_some (accepted : column digits decimals x = some y) :
    y = HalfAway.stored (10 ^ decimals) x := by
  unfold column at accepted
  split_ifs at accepted
  exact (Option.some.inj accepted).symm

theorem scale_pos (decimals : ℕ) : (0 : K) < 10 ^ decimals := pow_pos (by norm_num) decimals

theorem onScale_of_column (accepted : column digits decimals x = some y) :
    OnScale ((10 : K) ^ decimals) y := by
  rw [column_eq_some accepted]
  exact onScale_stored (scale_pos decimals) x

/-- A value that has been stored is stored as it is. -/
theorem column_column (accepted : column digits decimals x = some y) :
    column digits decimals y = some y := by
  have same := (onScale_of_column accepted).stored (scale_pos decimals)
  unfold column at accepted ⊢
  split_ifs at accepted with fits
  cases accepted
  rw [same, if_pos fits]

theorem column_eq_self_iff (accepted : column digits decimals x = some y) :
    y = x ↔ OnScale ((10 : K) ^ decimals) x := by
  constructor
  · rintro rfl
    exact onScale_of_column accepted
  · intro onScale
    rw [column_eq_some accepted, onScale.stored (scale_pos decimals)]

end Columns

end HalfAway
