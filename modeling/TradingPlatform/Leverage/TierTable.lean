import Mathlib.Data.Int.Log
import Mathlib.Data.Rat.Floor
import Mathlib.Order.WithBot
import TradingPlatform.Leverage.EffectiveLeverage
import TradingPlatform.Library.HalfAway
import TradingPlatform.Library.HalfOpenRange
import TradingPlatform.Library.StepRuns

namespace TradingPlatform

open HalfAway (stored)
open HalfOpenRange (range EndsBy)

/-- A non-negative decimal as it is written: digits, and after a point more
digits if there are any. -/
structure PlainDecimal where
  whole : List (Fin 10)
  fraction : List (Fin 10)
  hasDigit : whole ≠ []
  deriving DecidableEq, Repr

namespace PlainDecimal

def numeral (digits : List (Fin 10)) : ℕ := digits.foldl (fun n d => 10 * n + d) 0

def digit (d : Fin 10) : Char := Nat.digitChar d

def text (s : PlainDecimal) : List Char :=
  s.whole.map digit ++ (if s.fraction = [] then [] else '.' :: s.fraction.map digit)

def value (s : PlainDecimal) : ℚ := numeral s.whole + numeral s.fraction / 10 ^ s.fraction.length

/-- The closest integer, the even one of two. -/
def roundHalfEven (q : ℚ) : ℤ :=
  if Int.fract q < 1 / 2 then ⌊q⌋
  else if 1 / 2 < Int.fract q then ⌊q⌋ + 1
  else if ⌊q⌋ % 2 = 0 then ⌊q⌋ else ⌊q⌋ + 1

/-- The double that a non-negative decimal is parsed to, `⊤` for infinity. -/
def toF64 (s : PlainDecimal) : WithTop ℚ :=
  if s.value = 0 then ((0 : ℚ) : WithTop ℚ)
  else
    let exponent := max (Int.log 2 s.value - 52) (-1074)
    let rounded := roundHalfEven (s.value / 2 ^ exponent) * (2 : ℚ) ^ exponent
    if rounded < 2 ^ 1024 then (rounded : WithTop ℚ) else ⊤

end PlainDecimal

inductive TierError where
  | tierIndex
  | maxLeverage
  | emptyRange
  | overlap
  | notFound
  | database
  deriving DecidableEq, Repr

namespace TierError

/-- The texts of the service; a refusal by the database carries its own. -/
def message : TierError → Option String
  | tierIndex => some "Tier index must be >= 1"
  | maxLeverage => some "Max leverage must be >= 1"
  | emptyRange => some "notional_to must be > notional_from"
  | overlap => some "Tier ranges cannot overlap"
  | notFound => some "Tier not found"
  | database => none

end TierError

/-- The body of a create or an update. A percentage is `none` when its text is
not a number. -/
structure TierRequest where
  tierIndex : ℤ
  notionalFrom : PlainDecimal
  notionalTo : Option PlainDecimal
  maxLeverage : ℤ
  initialMarginPercent : Option ℚ
  maintenanceMarginPercent : Option ℚ
  deriving DecidableEq, Repr

/-- A row of `leverage_profile_tiers`. -/
structure TierRow where
  id : ℕ
  tierIndex : ℤ
  notionalFrom : ℚ
  notionalTo : Option ℚ
  maxLeverage : ℤ
  initialMarginPercent : ℚ
  maintenanceMarginPercent : ℚ
  marginFrom : ℚ
  marginTo : ℚ
  deriving DecidableEq, Repr

/-- What the queries take for the end of a tier that has no upper bound. -/
def openEnd : ℚ := 999999999999

namespace TierRow

def range (t : TierRow) : Set ℚ := HalfOpenRange.range t.notionalFrom t.notionalTo

def leverageTier (t : TierRow) : LeverageTier := ⟨t.notionalFrom, t.notionalTo, t.maxLeverage⟩

/-- The condition of the overlap query. -/
def Overlaps (lower : ℚ) (upper : Option ℚ) (t : TierRow) : Prop :=
  (t.notionalFrom < upper.getD openEnd ∧ ∀ e ∈ t.notionalTo, lower < e) ∨
    (upper = none ∧ t.notionalFrom < openEnd) ∨
    (lower ≤ t.notionalFrom ∧ ∀ e ∈ t.notionalTo, e ≤ upper.getD openEnd)

instance (lower : ℚ) (upper : Option ℚ) (t : TierRow) : Decidable (t.Overlaps lower upper) :=
  inferInstanceAs (Decidable (_ ∨ _))

end TierRow

/-- A value in a column `NUMERIC(precision, scale)`. -/
def numericColumn (precision scale : ℕ) (value : ℚ) : Except TierError ℚ :=
  if |stored (10 ^ scale) value| < 10 ^ (precision - scale) then .ok (stored (10 ^ scale) value)
  else .error .database

namespace TierRequest

def lower (r : TierRequest) : ℚ := r.notionalFrom.value

def upper (r : TierRequest) : Option ℚ := r.notionalTo.map PlainDecimal.value

def range (r : TierRequest) : Set ℚ := HalfOpenRange.range r.lower r.upper

def percentColumn (percent : Option ℚ) : Except TierError ℚ :=
  match percent with
  | some p => numericColumn 10 4 p
  | none => .error .database

def boundColumn (upper : Option ℚ) : Except TierError (Option ℚ) :=
  match upper with
  | some e => (numericColumn 20 8 e).map some
  | none => .ok none

/-- The row that an INSERT or UPDATE writes, with the column types and the
table's constraints `margin_range_check` and `leverage_check`. -/
def toRow (id : ℕ) (r : TierRequest) : Except TierError TierRow := do
  let notionalFrom ← numericColumn 20 8 r.lower
  let notionalTo ← boundColumn r.upper
  let initial ← percentColumn r.initialMarginPercent
  let maintenance ← percentColumn r.maintenanceMarginPercent
  let marginFrom ← numericColumn 20 2 r.lower
  let marginTo ← numericColumn 20 2 (r.upper.getD openEnd)
  if marginFrom < marginTo ∧ 0 < r.maxLeverage ∧ r.maxLeverage ≤ 1000 then
    pure ⟨id, r.tierIndex, notionalFrom, notionalTo, r.maxLeverage, initial, maintenance,
      marginFrom, marginTo⟩
  else .error .database

/-- The checks that create and update make before they write. -/
def validate (notEmpty : Prop) [Decidable notEmpty] (others : List TierRow) (r : TierRequest) :
    Except TierError Unit :=
  if r.tierIndex < 1 then .error .tierIndex
  else if r.maxLeverage < 1 then .error .maxLeverage
  else if ¬ notEmpty then .error .emptyRange
  else if ∃ t ∈ others, t.Overlaps r.lower r.upper then .error .overlap
  else .ok ()

/-- The bounds compare as strings, character by character. -/
def TextOrdered (r : TierRequest) : Prop :=
  ∀ e ∈ r.notionalTo, r.notionalFrom.text.lex e.text fun a b => decide (a < b)

/-- The bounds compare as floats. -/
def FloatOrdered (r : TierRequest) : Prop :=
  ∀ e ∈ r.notionalTo, ¬ e.toF64 ≤ r.notionalFrom.toF64

instance (r : TierRequest) : Decidable r.TextOrdered :=
  inferInstanceAs (Decidable (∀ e ∈ r.notionalTo,
    r.notionalFrom.text.lex e.text fun a b => decide (a < b)))

instance (r : TierRequest) : Decidable r.FloatOrdered :=
  inferInstanceAs (Decidable (∀ e ∈ r.notionalTo, ¬ e.toF64 ≤ r.notionalFrom.toF64))

end TierRequest

/-- `create_tier`, with the id the database gives the row. -/
def createTier (id : ℕ) (r : TierRequest) (table : List TierRow) :
    Except TierError (List TierRow) := do
  r.validate r.TextOrdered table
  let row ← r.toRow id
  pure (table ++ [row])

/-- `update_tier` -/
def updateTier (id : ℕ) (r : TierRequest) (table : List TierRow) :
    Except TierError (List TierRow) := do
  r.validate r.FloatOrdered (table.filter fun t => t.id ≠ id)
  if ∀ t ∈ table, t.id ≠ id then .error .notFound
  else
    let row ← r.toRow id
    pure (table.map fun t => if t.id = id then row else t)

/-- `delete_tier` -/
def deleteTier (id : ℕ) (table : List TierRow) : List TierRow := table.filter fun t => t.id ≠ id

inductive TierCall where
  | create (id : ℕ) (r : TierRequest)
  | update (id : ℕ) (r : TierRequest)
  | delete (id : ℕ)
  deriving DecidableEq, Repr

namespace TierCall

def result (table : List TierRow) : TierCall → Except TierError (List TierRow)
  | create id r => createTier id r table
  | update id r => updateTier id r table
  | delete id => .ok (deleteTier id table)

/-- A call on the profile; one that fails leaves its tiers as they are, and a
new row has an id of its own. -/
def step (table : List TierRow) : TierCall → Option (List TierRow)
  | create id r =>
    if ∃ t ∈ table, t.id = id then none
    else some ((createTier id r table).toOption.getD table)
  | update id r => some ((updateTier id r table).toOption.getD table)
  | delete id => some (deleteTier id table)

def Accepted (table : List TierRow) (call : TierCall) : Prop := ∃ after, call.result table = .ok after

end TierCall

end TradingPlatform
