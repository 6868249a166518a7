import Mathlib.Algebra.Order.Field.Power
import Mathlib.Data.Int.Log
import Mathlib.Data.List.DropRight
import Mathlib.Data.Rat.Floor
import Mathlib.Tactic.FieldSimp
import Mathlib.Tactic.Linarith
import Mathlib.Tactic.Positivity
import Mathlib.Tactic.Ring

namespace SignificantDigits

/-- The nearest natural number; a value in the middle goes to the even one. -/
def roundHalfEven (x : ℚ) : ℕ :=
  let below := ⌊x⌋₊
  if x - below < 1 / 2 then below
  else if 1 / 2 < x - below then below + 1
  else if Even below then below else below + 1

theorem roundHalfEven_natCast (n : ℕ) : roundHalfEven n = n := by
  simp [roundHalfEven]

/-- The decimal exponent of a positive number and its first digits as one
number, after rounding to so many digits. -/
def leading (digits : ℕ) (x : ℚ) : ℤ × ℕ :=
  let exponent := Int.log 10 x
  let rounded := roundHalfEven (x * 10 ^ ((digits : ℤ) - 1 - exponent))
  if rounded = 10 ^ digits then (exponent + 1, 10 ^ (digits - 1)) else (exponent, rounded)

/-- Exactly so many digits of a number, from the most significant one. -/
def padded : ℕ → ℕ → List Char
  | 0, _ => []
  | d + 1, n => Nat.digitChar (n / 10 ^ d) :: padded d (n % 10 ^ d)

def trimZeros (fraction : List Char) : List Char := fraction.rdropWhile (· = '0')

/-- A fraction behind its point, or nothing. -/
def pointed (fraction : List Char) : List Char := if fraction = [] then [] else '.' :: fraction

/-- `n / 10 ^ d` without the zeros at the end of the fraction. -/
def fixed (n d : ℕ) : List Char :=
  Nat.toDigits 10 (n / 10 ^ d) ++ pointed (trimZeros (padded d (n % 10 ^ d)))

/-- `e`, the sign and at least two digits. -/
def exponentPart (exponent : ℤ) : List Char :=
  'e' :: (if exponent < 0 then '-' else '+') ::
    (if exponent.natAbs < 10 then ['0'] else []) ++ Nat.toDigits 10 exponent.natAbs

/-- `%.{digits}g` of a positive number. -/
def positive (digits : ℕ) (x : ℚ) : List Char :=
  let (exponent, n) := leading digits x
  if -4 ≤ exponent ∧ exponent < digits then fixed n (digits - 1 - exponent).toNat
  else fixed n (digits - 1) ++ exponentPart exponent

/-- `%.{digits}g`: the number in so many significant digits, with an exponent
when it is very small or has more digits before the point. -/
def general (digits : ℕ) (x : ℚ) : List Char :=
  if x = 0 then ['0'] else if x < 0 then '-' :: positive digits (-x) else positive digits x


example : general 14 (-25 / 2) = "-12.5".toList := by decide +kernel
example : general 14 (1 / 100000) = "1e-05".toList := by decide +kernel

/-- The text is digits, and perhaps a point and more digits, that write `x`. -/
def Unsigned (text : List Char) (x : ℚ) : Prop :=
  ∃ whole fraction : List Char, text = whole ++ pointed fraction ∧ whole ≠ [] ∧
    (∀ c ∈ whole ++ fraction, c.isDigit) ∧
    x = Nat.ofDigitChars 10 whole 0 + Nat.ofDigitChars 10 fraction 0 / 10 ^ fraction.length

/-- A plain decimal, with a minus sign or without. -/
inductive Decimal : List Char → ℚ → Prop
  | unsigned {text : List Char} {x : ℚ} (writes : Unsigned text x) : Decimal text x
  | negative {text : List Char} {x : ℚ} (writes : Unsigned text x) : Decimal ('-' :: text) (-x)

/-- A number that so many digits write, at some power of ten. -/
def HasDigits (digits : ℕ) (x : ℚ) : Prop := ∃ n k : ℤ, |n| < 10 ^ digits ∧ x = n * 10 ^ k

/-- The magnitudes that are written without an exponent. -/
def InRange (digits : ℕ) (x : ℚ) : Prop := x = 0 ∨ 1 / 10 ^ 4 ≤ |x| ∧ |x| < 10 ^ digits

section Digits
variable {d n : ℕ}

theorem length_padded (d n : ℕ) : (padded d n).length = d := by
  induction d generalizing n with
  | zero => rfl
  | succ d ih => rw [padded, List.length_cons, ih]

theorem isDigit_padded (below : n < 10 ^ d) : ∀ c ∈ padded d n, c.isDigit := by
  induction d generalizing n with
  | zero => intro c member; cases member
  | succ d ih =>
    intro c member
    rcases List.mem_cons.mp member with rfl | later
    · have digit : n / 10 ^ d < 10 := Nat.div_lt_of_lt_mul (by rwa [← pow_succ])
      simp [Nat.isDigit_digitChar, digit]
    · exact ih (Nat.mod_lt n (by positivity)) c later

theorem ofDigitChars_padded (below : n < 10 ^ d) (init : ℕ) :
    Nat.ofDigitChars 10 (padded d n) init = 10 ^ d * init + n := by
  induction d generalizing n init with
  | zero =>
    have zero : n = 0 := by simpa using below
    simp [padded, zero]
  | succ d ih =>
    have digit : n / 10 ^ d < 10 := Nat.div_lt_of_lt_mul (by rwa [← pow_succ])
    rw [padded, Nat.ofDigitChars_cons_digitChar_of_lt_ten digit,
      ih (Nat.mod_lt n (by positivity))]
    calc 10 ^ d * (10 * init + n / 10 ^ d) + n % 10 ^ d
        = 10 ^ (d + 1) * init + (10 ^ d * (n / 10 ^ d) + n % 10 ^ d) := by ring
      _ = 10 ^ (d + 1) * init + n := by rw [Nat.div_add_mod]

/-- Zeros at the end of a fraction do not count. -/
theorem trimZeros_value (fraction : List Char) :
    (Nat.ofDigitChars 10 (trimZeros fraction) 0 : ℚ) / 10 ^ (trimZeros fraction).length =
      Nat.ofDigitChars 10 fraction 0 / 10 ^ fraction.length := by
  induction fraction using List.reverseRecOn with
  | nil => rfl
  | append_singleton fraction c ih =>
    by_cases zero : c = '0'
    · subst zero
      have trimmed : trimZeros (fraction ++ ['0']) = trimZeros fraction :=
        List.rdropWhile_concat_pos _ _ _ (by simp)
      have value : Nat.ofDigitChars 10 (fraction ++ ['0']) 0 =
          10 * Nat.ofDigitChars 10 fraction 0 := by
        rw [Nat.ofDigitChars_append]
        simp [Nat.ofDigitChars_cons]
      rw [trimmed, ih, value, List.length_append, List.length_singleton, pow_succ]
      push_cast
      field_simp
    · have kept : trimZeros (fraction ++ [c]) = fraction ++ [c] :=
        List.rdropWhile_concat_neg _ _ _ (by simpa using zero)
      rw [kept]

theorem mem_of_mem_trimZeros {fraction : List Char} {c : Char} (member : c ∈ trimZeros fraction) :
    c ∈ fraction := (List.rdropWhile_prefix _ _).subset member

theorem unsigned_fixed (n d : ℕ) : Unsigned (fixed n d) (n / 10 ^ d) := by
  have below : n % 10 ^ d < 10 ^ d := Nat.mod_lt n (by positivity)
  refine ⟨_, _, rfl, Nat.toDigits_ne_nil, fun c member => ?_, ?_⟩
  · rcases List.mem_append.mp member with whole | fraction
    · exact Nat.isDigit_of_mem_toDigits (by norm_num) le_rfl whole
    · exact isDigit_padded below c (mem_of_mem_trimZeros fraction)
  · rw [trimZeros_value, length_padded, ofDigitChars_padded below, Nat.ofDigitChars_ten_toDigits]
    have split : (n : ℚ) = 10 ^ d * (n / 10 ^ d : ℕ) + (n % 10 ^ d : ℕ) := by
      exact_mod_cast (Nat.div_add_mod n (10 ^ d)).symm
    rw [mul_zero, zero_add]
    calc (n : ℚ) / 10 ^ d
        = (10 ^ d * (n / 10 ^ d : ℕ) + (n % 10 ^ d : ℕ)) / 10 ^ d := congrArg (· / 10 ^ d) split
      _ = (n / 10 ^ d : ℕ) + (n % 10 ^ d : ℕ) / 10 ^ d := by
        rw [add_div, mul_div_cancel_left₀ _ (by positivity)]

theorem length_fixed_le {digits : ℕ} (below : n < 10 ^ digits) :
    (fixed n d).length ≤ max digits (d + 1) + 1 := by
  have fraction : (trimZeros (padded d (n % 10 ^ d))).length ≤ d :=
    (List.rdropWhile_prefix _ _).length_le.trans (length_padded d _).le
  have behind : (pointed (trimZeros (padded d (n % 10 ^ d)))).length ≤ d + 1 := by
    unfold pointed
    split_ifs
    · simp
    · simpa using fraction
  have room : 0 < max (digits - d) 1 := by omega
  have whole : (Nat.toDigits 10 (n / 10 ^ d)).length ≤ max (digits - d) 1 := by
    refine (Nat.length_toDigits_le_iff (by norm_num) room).mpr (Nat.div_lt_of_lt_mul ?_)
    rw [← pow_add]
    exact below.trans_le (Nat.pow_le_pow_right (by norm_num) (by omega))
  rw [fixed, List.length_append]
  omega

end Digits

section Leading
variable {digits : ℕ} {x : ℚ}

theorem log_between (x_pos : 0 < x) :
    (10 : ℚ) ^ Int.log 10 x ≤ x ∧ x < (10 : ℚ) ^ (Int.log 10 x + 1) := by
  have lower := Int.zpow_log_le_self (b := 10) (by norm_num) x_pos
  have upper := Int.lt_zpow_succ_log_self (b := 10) (by norm_num) x
  exact ⟨by exact_mod_cast lower, by exact_mod_cast upper⟩

/-- A number with few digits is a whole number of units of its last place. -/
theorem HasDigits.units (hasDigits : HasDigits digits x) (x_pos : 0 < x) :
    ∃ n : ℕ, n < 10 ^ digits ∧ x = n * 10 ^ (Int.log 10 x - (digits - 1)) := by
  obtain ⟨m, k, bound, value⟩ := hasDigits
  obtain ⟨lower, upper⟩ := log_between x_pos
  have place_pos : (0 : ℚ) < 10 ^ k := zpow_pos (by norm_num) k
  have m_pos : 0 < m := by
    rw [value] at x_pos
    exact_mod_cast pos_of_mul_pos_left x_pos place_pos.le
  have m_below : (m : ℚ) < 10 ^ (digits : ℤ) := by
    rw [abs_of_pos m_pos] at bound
    exact_mod_cast bound
  have enough : Int.log 10 x - (digits - 1) ≤ k := by
    have below : (10 : ℚ) ^ Int.log 10 x < 10 ^ (digits + k) :=
      calc (10 : ℚ) ^ Int.log 10 x ≤ m * 10 ^ k := value ▸ lower
        _ < 10 ^ (digits : ℤ) * 10 ^ k := mul_lt_mul_of_pos_right m_below place_pos
        _ = 10 ^ (digits + k) := (zpow_add₀ (by norm_num) _ _).symm
    have order := (zpow_lt_zpow_iff_right₀ (by norm_num)).mp below
    omega
  obtain ⟨shift, isShift⟩ := Int.eq_ofNat_of_zero_le (sub_nonneg.mpr enough)
  obtain ⟨n, rfl⟩ := Int.eq_ofNat_of_zero_le m_pos.le
  have same : x = (n * 10 ^ shift : ℕ) * 10 ^ (Int.log 10 x - (digits - 1)) := by
    have place : k = shift + (Int.log 10 x - (digits - 1)) := by omega
    calc x = n * 10 ^ k := by simpa using value
      _ = n * (10 ^ shift * 10 ^ (Int.log 10 x - (digits - 1))) := by
        nth_rewrite 1 [place]
        rw [zpow_add₀ (by norm_num), zpow_natCast]
      _ = (n * 10 ^ shift : ℕ) * 10 ^ (Int.log 10 x - (digits - 1)) := by
        push_cast
        ring
  refine ⟨n * 10 ^ shift, ?_, same⟩
  have split : (10 : ℚ) ^ (Int.log 10 x + 1) =
      10 ^ digits * 10 ^ (Int.log 10 x - (digits - 1)) := by
    rw [← zpow_natCast, ← zpow_add₀ (by norm_num)]
    congr 1
    omega
  have scaled : ((n * 10 ^ shift : ℕ) : ℚ) < 10 ^ digits := by
    have unit_nonneg : (0 : ℚ) ≤ 10 ^ (Int.log 10 x - (digits - 1)) := by positivity
    refine lt_of_mul_lt_mul_right ?_ unit_nonneg
    rw [← same, ← split]
    exact upper
  exact_mod_cast scaled

/-- Such a number is not rounded. -/
theorem HasDigits.leading (hasDigits : HasDigits digits x) (x_pos : 0 < x) :
    ∃ n : ℕ, SignificantDigits.leading digits x = (Int.log 10 x, n) ∧ n < 10 ^ digits ∧
      x = n * 10 ^ (Int.log 10 x - (digits - 1)) := by
  obtain ⟨n, below, value⟩ := hasDigits.units x_pos
  have unscaled : x * 10 ^ ((digits : ℤ) - 1 - Int.log 10 x) = n := by
    nth_rewrite 1 [value]
    rw [mul_assoc, ← zpow_add₀ (by norm_num)]
    simp
  refine ⟨n, ?_, below, value⟩
  rw [SignificantDigits.leading, unscaled, roundHalfEven_natCast, if_neg below.ne]

theorem inRange_iff_log (x_pos : 0 < x) :
    InRange digits x ↔ -4 ≤ Int.log 10 x ∧ Int.log 10 x < digits := by
  have low : (1 / 10 ^ 4 : ℚ) = (10 : ℕ) ^ (-4 : ℤ) := by norm_num
  have high : (10 ^ digits : ℚ) = (10 : ℕ) ^ (digits : ℤ) := by simp
  unfold InRange
  rw [abs_of_pos x_pos, low, high, Int.zpow_le_iff_le_log (by norm_num) x_pos,
    Int.lt_zpow_iff_log_lt (by norm_num) x_pos]
  exact or_iff_right x_pos.ne'

theorem unsigned_positive (hasDigits : HasDigits digits x) (x_pos : 0 < x)
    (inRange : InRange digits x) : Unsigned (positive digits x) x := by
  obtain ⟨n, split, below, value⟩ := hasDigits.leading x_pos
  have range := (inRange_iff_log x_pos).mp inRange
  have written := unsigned_fixed n ((digits : ℤ) - 1 - Int.log 10 x).toNat
  have place : (10 : ℚ) ^ (Int.log 10 x - (digits - 1)) =
      (10 ^ ((digits : ℤ) - 1 - Int.log 10 x).toNat)⁻¹ := by
    rw [← zpow_natCast, Int.toNat_of_nonneg (by omega), ← zpow_neg]
    congr 1
    omega
  rw [positive, split]
  dsimp only
  rw [if_pos range]
  have same : x = n / 10 ^ ((digits : ℤ) - 1 - Int.log 10 x).toNat :=
    value.trans ((congrArg _ place).trans (div_eq_mul_inv _ _).symm)
  rw [← same] at written
  exact written

theorem length_positive_le (hasDigits : HasDigits digits x) (x_pos : 0 < x)
    (inRange : InRange digits x) : (positive digits x).length ≤ digits + 5 := by
  obtain ⟨n, split, below, value⟩ := hasDigits.leading x_pos
  have range := (inRange_iff_log x_pos).mp inRange
  have length := length_fixed_le (d := ((digits : ℤ) - 1 - Int.log 10 x).toNat) below
  rw [positive, split]
  dsimp only
  rw [if_pos range]
  omega

theorem e_mem_positive (hasDigits : HasDigits digits x) (x_pos : 0 < x)
    (outside : ¬ InRange digits x) : 'e' ∈ positive digits x := by
  obtain ⟨n, split, below, value⟩ := hasDigits.leading x_pos
  rw [positive, split]
  dsimp only
  rw [if_neg (mt (inRange_iff_log x_pos).mpr outside)]
  simp [exponentPart]

theorem HasDigits.neg (hasDigits : HasDigits digits x) : HasDigits digits (-x) := by
  obtain ⟨n, k, bound, value⟩ := hasDigits
  exact ⟨-n, k, by rwa [abs_neg], by rw [value]; push_cast; ring⟩

theorem InRange.neg_iff : InRange digits (-x) ↔ InRange digits x := by
  unfold InRange
  rw [abs_neg, neg_eq_zero]

theorem decimal_zero : Decimal ['0'] 0 := by
  have digit : ∀ c ∈ ['0'] ++ [], c.isDigit := by simp
  exact .unsigned ⟨['0'], [], rfl, by simp, digit, by simp [Nat.ofDigitChars_cons]⟩

/-- A number with so many digits is written as the plain decimal that it is, if
its magnitude is in the range. -/
theorem decimal_general (hasDigits : HasDigits digits x) (inRange : InRange digits x) :
    Decimal (general digits x) x := by
  unfold general
  split_ifs with zero negative
  · rw [zero]
    exact decimal_zero
  · have written := unsigned_positive hasDigits.neg (neg_pos.mpr negative)
      (InRange.neg_iff.mpr inRange)
    have signed : Decimal ('-' :: positive digits (-x)) (- -x) := .negative written
    rwa [neg_neg] at signed
  · have x_pos := lt_of_le_of_ne (not_lt.mp negative) (Ne.symm zero)
    exact .unsigned (unsigned_positive hasDigits x_pos inRange)

theorem length_general_le (hasDigits : HasDigits digits x) (inRange : InRange digits x) :
    (general digits x).length ≤ digits + 6 := by
  unfold general
  split_ifs with zero negative
  · simp
  · have length := length_positive_le hasDigits.neg (neg_pos.mpr negative)
      (InRange.neg_iff.mpr inRange)
    rw [List.length_cons]
    omega
  · have x_pos := lt_of_le_of_ne (not_lt.mp negative) (Ne.symm zero)
    have length := length_positive_le hasDigits x_pos inRange
    omega

/-- Outside the range the text has an exponent. -/
theorem e_mem_general (hasDigits : HasDigits digits x) (outside : ¬ InRange digits x) :
    'e' ∈ general digits x := by
  unfold general
  split_ifs with zero negative
  · exact absurd (.inl zero) outside
  · have inText := e_mem_positive hasDigits.neg (neg_pos.mpr negative)
      (mt InRange.neg_iff.mp outside)
    exact List.mem_cons_of_mem _ inText
  · have x_pos := lt_of_le_of_ne (not_lt.mp negative) (Ne.symm zero)
    exact e_mem_positive hasDigits x_pos outside

end Leading
end SignificantDigits
