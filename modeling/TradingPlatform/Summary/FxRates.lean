import TradingPlatform.Engine.OrderCache

namespace TradingPlatform

/-- 1 USD in units of each currency that the snapshot has. -/
abbrev Rates := String → Option ℚ

inductive FxError
  | unsupportedCurrency (code : String)
  | zeroRate (code : String)
  deriving DecidableEq, Repr

/-- `norm_currency` -/
def normCurrency (code : String) : String :=
  let u := normalizeSymbol code
  if u = "USDT" then "USD" else u

def convertWithRates (amount : ℚ) (source target : String) (rates : Rates) : Except FxError ℚ :=
  let f := normCurrency source
  let t := normCurrency target
  if f = t then .ok amount
  else
    match rates f with
    | none => .error (.unsupportedCurrency f)
    | some rateFrom =>
      match rates t with
      | none => .error (.unsupportedCurrency t)
      | some rateTo =>
        if rateFrom = 0 then .error (.zeroRate f) else .ok (amount * rateTo / rateFrom)

def quoteCurrencySupported (rates : Rates) (quote : String) : Bool :=
  match convertWithRates 1 quote "USD" rates with
  | .ok _ => true
  | .error _ => false

/-- USD per unit of a supported currency. -/
def usdFactor (rates : Rates) (quote : String) : ℚ :=
  match convertWithRates 1 quote "USD" rates with
  | .ok factor => factor
  | .error _ => 0

theorem convertWithRates_usd {rates : Rates} {quote : String}
    (supported : quoteCurrencySupported rates quote) (amount : ℚ) :
    convertWithRates amount quote "USD" rates = .ok (amount * usdFactor rates quote) := by
  unfold usdFactor
  unfold quoteCurrencySupported at supported
  unfold convertWithRates at supported ⊢
  dsimp only at supported ⊢
  split_ifs at supported ⊢ with same
  · rw [mul_one]
  · split at supported
    next converted =>
      split at converted
      next => cases converted
      next rateFrom hasFrom =>
        split at converted
        next => cases converted
        next rateTo hasTo =>
          split_ifs at converted with zero
          cases converted
          rw [if_neg zero, one_mul, mul_div_assoc]
    next => cases supported

theorem usdFactor_of_not_supported {rates : Rates} {quote : String}
    (unsupported : ¬ quoteCurrencySupported rates quote) : usdFactor rates quote = 0 := by
  unfold usdFactor
  unfold quoteCurrencySupported at unsupported
  cases converted : convertWithRates 1 quote "USD" rates with
  | ok factor =>
    rw [converted] at unsupported
    exact absurd rfl unsupported
  | error e => rfl

theorem usdFactor_congr {rates : Rates} {quote other : String}
    (same : normCurrency quote = normCurrency other) :
    usdFactor rates quote = usdFactor rates other := by
  unfold usdFactor convertWithRates
  rw [same]

theorem quoteCurrencySupported_congr {rates : Rates} {quote other : String}
    (same : normCurrency quote = normCurrency other) :
    quoteCurrencySupported rates quote = quoteCurrencySupported rates other := by
  unfold quoteCurrencySupported convertWithRates
  rw [same]

/-- `str::trim` -/
def trim (s : String) : String :=
  String.ofList (((s.toList.dropWhile Char.isWhitespace).reverse.dropWhile
    Char.isWhitespace).reverse)

section Trimming
variable {α : Type*} (blank : α → Bool) (f : α → α) (l : List α)

/-- Both ends of a list freed from blanks. -/
def strip : List α := (l.dropWhile blank).rdropWhile blank

theorem strip_strip : strip blank (strip blank l) = strip blank l := by
  have noLeading : (strip blank l).dropWhile blank = strip blank l := by
    unfold strip
    cases trimmed : l.dropWhile blank with
    | nil => rfl
    | cons c rest =>
      have solid : ¬ blank c := by
        have first := List.head_dropWhile_not blank (l := l) (w := by rw [trimmed]; simp)
        simpa [trimmed] using first
      rcases List.prefix_cons_iff.mp (List.rdropWhile_prefix blank (c :: rest)) with
        empty | ⟨t, starts, -⟩
      · rw [empty]; rfl
      · rw [starts, List.dropWhile_cons_of_neg solid]
  have noTrailing : (strip blank l).rdropWhile blank = strip blank l :=
    List.rdropWhile_idempotent blank _
  rw [strip, noLeading, noTrailing]

theorem strip_map (keeps : ∀ a, blank (f a) = blank a) :
    strip blank (l.map f) = (strip blank l).map f := by
  have same : blank ∘ f = blank := funext keeps
  simp only [strip, List.rdropWhile, List.dropWhile_map, same, ← List.map_reverse]

end Trimming

theorem isWhitespace_of_isAlpha {c : Char} (letter : c.isAlpha) : c.isWhitespace = false := by
  by_contra blank
  have isBlank : c = ' ' ∨ c = '\t' ∨ c = '\r' ∨ c = '\n' := by
    rw [Bool.not_eq_false, Char.isWhitespace] at blank
    simpa [or_assoc] using blank
  rcases isBlank with rfl | rfl | rfl | rfl <;> exact absurd letter (by decide)

theorem isWhitespace_toUpper (c : Char) : c.toUpper.isWhitespace = c.isWhitespace := by
  by_cases lower : c.isLower
  · have letter : c.isAlpha := by simp [Char.isAlpha, lower]
    have upper : c.toUpper.isAlpha := by rwa [Char.isAlpha_toUpper_eq_isAlpha]
    rw [isWhitespace_of_isAlpha letter, isWhitespace_of_isAlpha upper]
  · rw [Char.toUpper_eq_of_not_isLower lower]

theorem normalizeSymbol_eq (s : String) : normalizeSymbol s =
    String.ofList ((strip Char.isWhitespace s.toList).map Char.toUpper) := rfl

theorem normalizeSymbol_trim (s : String) : normalizeSymbol (trim s) = normalizeSymbol s := by
  have trimmed : (trim s).toList = strip Char.isWhitespace s.toList := String.toList_ofList
  rw [normalizeSymbol_eq, trimmed, strip_strip, normalizeSymbol_eq]

theorem normalizeSymbol_normalizeSymbol (s : String) :
    normalizeSymbol (normalizeSymbol s) = normalizeSymbol s := by
  have upper : (normalizeSymbol s).toList =
    (strip Char.isWhitespace s.toList).map Char.toUpper := String.toList_ofList
  have twice : Char.toUpper ∘ Char.toUpper = Char.toUpper :=
    funext Char.toUpper_toUpper_eq_toUpper
  rw [normalizeSymbol_eq, upper, strip_map _ _ _ isWhitespace_toUpper, strip_strip, List.map_map,
    twice, normalizeSymbol_eq]

theorem normCurrency_congr {quote other : String}
    (same : normalizeSymbol quote = normalizeSymbol other) :
    normCurrency quote = normCurrency other := by
  unfold normCurrency
  rw [same]

end TradingPlatform
