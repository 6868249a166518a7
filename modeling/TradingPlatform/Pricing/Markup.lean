import Mathlib.Algebra.Order.Floor.Ring
import Mathlib.Data.Rat.Floor

namespace TradingPlatform

/-- A quote of the feed or of a channel. -/
structure Quote where
  bid : ℚ
  ask : ℚ
  deriving DecidableEq, Repr

/-- Percentages for each side. -/
structure MarkupConfig where
  bidMarkup : ℚ
  askMarkup : ℚ
  deriving DecidableEq, Repr

/-- What `get_markup` returns. -/
inductive MarkupRead
  | failed
  | absent
  | found (markup : MarkupConfig)
  deriving DecidableEq, Repr

/-- `Decimal::MAX` -/
def decimalMax : ℚ := 79228162514264337593543950335

/-- `decimal_from_f64`, with the number taken as the decimal it prints as. -/
def decimalFromF64 (f : ℚ) : Option ℚ := if |f| ≤ decimalMax then some f else none

/-- `apply_markup`. Without a markup, or when the read fails, the quote stays
as it is. -/
def applyMarkup (read : MarkupRead) (quote : Quote) : Option Quote :=
  match read with
  | .failed => some quote
  | .absent => some quote
  | .found markup =>
    match decimalFromF64 (markup.bidMarkup / 100), decimalFromF64 (markup.askMarkup / 100) with
    | some bid, some ask => some ⟨quote.bid * (1 + bid), quote.ask * (1 + ask)⟩
    | _, _ => none

/-- The nearest integer; a value in the middle goes to the even one. -/
def roundHalfEven (x : ℚ) : ℤ :=
  if Int.fract x < 1 / 2 then ⌊x⌋
  else if 1 / 2 < Int.fract x then ⌊x⌋ + 1
  else if ⌊x⌋ % 2 = 0 then ⌊x⌋ else ⌊x⌋ + 1

/-- `round_dp` -/
def roundDp (dp : ℕ) (x : ℚ) : ℚ := roundHalfEven (x * 10 ^ dp) / 10 ^ dp

/-- `normalize_price` -/
def normalizePrice (quote : Quote) : Option Quote :=
  if quote.ask ≤ quote.bid then none
  else
    let rounded : Quote := ⟨roundDp 10 quote.bid, roundDp 10 quote.ask⟩
    if rounded.bid < rounded.ask then some rounded else some quote

/-- Where the price loop publishes: the entry of a group in the array of
`price:ticks`, the subjects `ticks.SYMBOL.g` and `ticks.SYMBOL`, and the rooms
`group:g:symbol:SYMBOL` and `symbol:SYMBOL`. -/
inductive PriceChannel
  | arrayEntry (symbol group : String)
  | groupSubject (symbol group : String)
  | symbolSubject (symbol : String)
  | groupRoom (group symbol : String)
  | symbolRoom (symbol : String)
  deriving DecidableEq, Repr

section Loop
variable (read : String → MarkupRead) (symbol : String)

/-- `broadcast_price`: what everybody in the room gets. -/
def broadcastPrice (group : Option String) (quote : Quote) : Option (PriceChannel × Quote) :=
  match normalizePrice quote with
  | none => none
  | some normalized =>
    match group with
    | some g => (applyMarkup (read g) normalized).map fun final => (.groupRoom g symbol, final)
    | none => some (.symbolRoom symbol, normalized)

/-- The price of a group in a round of the loop. -/
def groupPrice (g : String) (quote : Quote) : Quote := (applyMarkup (read g) quote).getD quote

/-- All that the loop publishes for a quote that it does not skip. -/
def publishQuote (groups : List String) (quote : Quote) : List (PriceChannel × Quote) :=
  groups.filterMap (fun g => broadcastPrice read symbol (some g) (groupPrice read g quote)) ++
  (broadcastPrice read symbol none quote).toList ++
  (if groups = [] then [(.arrayEntry symbol "", quote)]
    else groups.map fun g => (.arrayEntry symbol g, groupPrice read g quote)) ++
  (if groups = [] then [(.symbolSubject symbol, quote)]
    else groups.map fun g => (.groupSubject symbol g, groupPrice read g quote))

end Loop

/-- The key of `get_markup` -/
def markupKey (symbol group : String) : String :=
  "symbol:markup:" ++ String.ofList (symbol.toList.map Char.toUpper) ++ ":" ++ group

/-- `get_markup` when Redis answers. -/
def getMarkup (redis : String → Option MarkupConfig) (symbol group : String) : MarkupRead :=
  match redis (markupKey symbol group) with
  | some markup => .found markup
  | none => .absent

end TradingPlatform
