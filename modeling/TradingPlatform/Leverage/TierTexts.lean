import TradingPlatform.Leverage.EffectiveLeverage
import TradingPlatform.Summary.FxRates

namespace TradingPlatform

/-- A row of the tiers as `effective_leverage` gets it. -/
structure TierTexts where
  notionalFrom : String
  notionalTo : Option String
  maxLeverage : ℤ
  deriving DecidableEq, Repr

namespace TierTexts
variable (parse : String → Option ℚ) (notional : ℚ)

/-- `Decimal::from_str` of the trimmed lower bound. -/
def lower (row : TierTexts) : Option ℚ := parse (trim row.notionalFrom)

/-- The text of the upper bound; an absent or blank one is open. -/
def upperText (row : TierTexts) : Option String := (row.notionalTo.map trim).filter (· ≠ "")

/-- The upper bound, when it parses. -/
def upper (row : TierTexts) : Option (Option ℚ) :=
  match row.upperText with
  | none => some none
  | some text => (parse text).map some

def keepGreater (best : Option (ℚ × ℤ)) (lower : ℚ) (maxLeverage : ℤ) : Option (ℚ × ℤ) :=
  match best with
  | none => some (lower, maxLeverage)
  | some b => if b.1 < lower then some (lower, maxLeverage) else some b

/-- One round of the first loop; the outer `none` is the early return at a text
that does not parse, and the upper bound is read only above the lower one. -/
def keepBest (best : Option (ℚ × ℤ)) (row : TierTexts) : Option (Option (ℚ × ℤ)) :=
  (row.lower parse).bind fun lower =>
    if notional < lower then some best
    else
      match row.upperText with
      | none => some (keepGreater best lower row.maxLeverage)
      | some text => (parse text).map fun upper =>
          if notional < upper then keepGreater best lower row.maxLeverage else best

/-- The search for an open-ended tier, over the reversed rows. -/
def firstOpenEnded : List TierTexts → Option (Option ℤ)
  | [] => some none
  | row :: rest =>
    if row.upperText.isSome then firstOpenEnded rest
    else
      (row.lower parse).bind fun lower =>
        if lower ≤ notional then some (some row.maxLeverage) else firstOpenEnded rest

/-- One round of the last loop, which skips what does not parse. -/
def keepLowest (best : Option (ℚ × ℤ)) (row : TierTexts) : Option (ℚ × ℤ) :=
  match row.lower parse with
  | none => best
  | some lower =>
    match best with
    | none => some (lower, row.maxLeverage)
    | some b => if lower < b.1 then some (lower, row.maxLeverage) else some b

/-- The leverage for a notional below all tiers. -/
def lowestLeverage (rows : List TierTexts) : Option ℤ :=
  if 0 < notional then
    match rows.foldl (keepLowest parse) none with
    | some b => if notional < b.1 then some b.2 else none
    | none => none
  else none

def symbolLeverage (rows : List TierTexts) : Option (Option ℤ) :=
  (rows.foldlM (keepBest parse notional) none).bind fun best =>
    match best with
    | some b => some (some b.2)
    | none => (firstOpenEnded parse notional rows.reverse).map fun found =>
        match found with
        | some s => some s
        | none => lowestLeverage parse notional rows

/-- `effective_leverage` -/
def effectiveLeverage (minLeverage maxLeverage : Option ℤ) (rows : Option (List TierTexts)) :
    Option ℚ :=
  match minLeverage, maxLeverage with
  | some minL, some maxL =>
    if minL < 1 ∨ maxL < 1 ∨ maxL < minL then none
    else
      rows.bind fun rows =>
        if rows = [] ∨ notional < 0 then none
        else
          match symbolLeverage parse notional rows with
          | some (some s) => if s < 1 then none else some (min (max (s : ℚ) minL) maxL)
          | _ => none
  | _, _ => none

/-- The tier that the texts of a row stand for. -/
def read (row : TierTexts) : Option LeverageTier :=
  (row.lower parse).bind fun lower =>
    (row.upper parse).map fun upper => ⟨lower, upper, row.maxLeverage⟩

/-- The tiers of the rows that parse. -/
def tiersOf (rows : List TierTexts) : List LeverageTier := rows.filterMap (·.read parse)

end TierTexts

namespace LeverageTier

/-- What the loops over the texts keep of a tier. -/
def bound (t : LeverageTier) : ℚ × ℤ := (t.notionalFrom, t.maxLeverage)

end LeverageTier

namespace TierTexts
variable {parse : String → Option ℚ} {notional : ℚ} {row : TierTexts} {rows : List TierTexts}
  {t : LeverageTier}

theorem read_eq_some (reads : row.read parse = some t) : row.lower parse = some t.notionalFrom ∧
    row.upper parse = some t.notionalTo ∧ row.maxLeverage = t.maxLeverage := by
  obtain ⟨lower, isLower, later⟩ := Option.bind_eq_some_iff.mp reads
  obtain ⟨upper, isUpper, rfl⟩ := Option.map_eq_some_iff.mp later
  exact ⟨isLower, isUpper, rfl⟩

theorem upperText_of_open (isUpper : row.upper parse = some none) : row.upperText = none := by
  unfold upper at isUpper
  cases text : row.upperText with
  | none => rfl
  | some s => simp [text] at isUpper

theorem upperText_of_bounded {to' : ℚ} (isUpper : row.upper parse = some (some to')) :
    ∃ text, row.upperText = some text ∧ parse text = some to' := by
  unfold upper at isUpper
  cases text : row.upperText with
  | none => simp [text] at isUpper
  | some s => exact ⟨s, rfl, by simpa [text] using isUpper⟩

/-- A list of rows that all parse is read row by row. -/
theorem tiersOf_cons (reads : row.read parse = some t) :
    tiersOf parse (row :: rows) = t :: tiersOf parse rows := by
  rw [tiersOf, List.filterMap_cons_some reads, tiersOf]

theorem tiersOf_reverse : tiersOf parse rows.reverse = (tiersOf parse rows).reverse :=
  List.filterMap_reverse

theorem keepGreater_bound (isIn : t.InTier notional) (best : Option LeverageTier) :
    keepGreater (best.map (·.bound)) t.notionalFrom t.maxLeverage =
      (LeverageTier.keepBest notional best t).map (·.bound) := by
  unfold keepGreater LeverageTier.keepBest
  rw [if_pos isIn]
  cases best with
  | none => rfl
  | some b =>
    simp only [LeverageTier.bound, Option.map_some]
    split_ifs <;> rfl

theorem keepBest_read (reads : row.read parse = some t) (best : Option LeverageTier) :
    keepBest parse notional (best.map (·.bound)) row =
      some ((LeverageTier.keepBest notional best t).map (·.bound)) := by
  obtain ⟨isLower, isUpper, leverage⟩ := read_eq_some reads
  have out : ¬ t.InTier notional → LeverageTier.keepBest notional best t = best :=
    fun out => if_neg out
  rw [keepBest, isLower, Option.bind_some, leverage]
  by_cases below : notional < t.notionalFrom
  · rw [if_pos below, out fun isIn => not_le.mpr below isIn.1]
  · rw [if_neg below]
    cases ends : t.notionalTo with
    | none =>
      have isIn : t.InTier notional := ⟨not_lt.mp below, by simp [ends]⟩
      simp only [upperText_of_open (ends ▸ isUpper), keepGreater_bound isIn]
    | some upper =>
      obtain ⟨text, isText, parsed⟩ := upperText_of_bounded (ends ▸ isUpper)
      simp only [isText, parsed, Option.map_some]
      by_cases within : notional < upper
      · have isIn : t.InTier notional := ⟨not_lt.mp below, by simpa [ends] using within⟩
        rw [if_pos within, keepGreater_bound isIn]
      · rw [if_neg within, out fun isIn => within (isIn.2 upper ends)]

theorem foldlM_keepBest (notional : ℚ) (parses : ∀ row ∈ rows, (row.read parse).isSome)
    (best : Option LeverageTier) :
    rows.foldlM (keepBest parse notional) (best.map (·.bound)) =
      some (((tiersOf parse rows).foldl (LeverageTier.keepBest notional) best).map (·.bound)) := by
  induction rows generalizing best with
  | nil => rfl
  | cons row rows ih =>
    obtain ⟨t, reads⟩ := Option.isSome_iff_exists.mp (parses row List.mem_cons_self)
    rw [List.foldlM_cons, keepBest_read reads, tiersOf_cons reads, List.foldl_cons]
    exact ih (fun row later => parses row (List.mem_cons_of_mem _ later)) _

theorem firstOpenEnded_read (parses : ∀ row ∈ rows, (row.read parse).isSome) :
    firstOpenEnded parse notional rows =
      some (((tiersOf parse rows).find? fun t =>
        t.notionalTo = none ∧ t.notionalFrom ≤ notional).map (·.maxLeverage)) := by
  induction rows with
  | nil => rfl
  | cons row rows ih =>
    obtain ⟨t, reads⟩ := Option.isSome_iff_exists.mp (parses row List.mem_cons_self)
    obtain ⟨isLower, isUpper, leverage⟩ := read_eq_some reads
    have later := ih fun row later => parses row (List.mem_cons_of_mem _ later)
    rw [firstOpenEnded, tiersOf_cons reads, List.find?_cons]
    cases ends : t.notionalTo with
    | some upper =>
      obtain ⟨text, isText, -⟩ := upperText_of_bounded (ends ▸ isUpper)
      simp [isText, later]
    | none =>
      rw [upperText_of_open (ends ▸ isUpper), isLower]
      by_cases fits : t.notionalFrom ≤ notional <;> simp [fits, later, leverage]

theorem keepLowest_read (reads : row.read parse = some t) (best : Option LeverageTier) :
    keepLowest parse (best.map (·.bound)) row =
      (LeverageTier.keepLowest best t).map (·.bound) := by
  obtain ⟨isLower, -, leverage⟩ := read_eq_some reads
  unfold keepLowest LeverageTier.keepLowest
  rw [isLower]
  cases best with
  | none => simp [LeverageTier.bound, leverage]
  | some b =>
    simp only [LeverageTier.bound, Option.map_some, leverage]
    split_ifs <;> rfl

theorem foldl_keepLowest (parses : ∀ row ∈ rows, (row.read parse).isSome)
    (best : Option LeverageTier) : rows.foldl (keepLowest parse) (best.map (·.bound)) =
      ((tiersOf parse rows).foldl LeverageTier.keepLowest best).map (·.bound) := by
  induction rows generalizing best with
  | nil => rfl
  | cons row rows ih =>
    obtain ⟨t, reads⟩ := Option.isSome_iff_exists.mp (parses row List.mem_cons_self)
    rw [List.foldl_cons, keepLowest_read reads, tiersOf_cons reads, List.foldl_cons]
    exact ih (fun row later => parses row (List.mem_cons_of_mem _ later)) _

theorem lowestLeverage_read (parses : ∀ row ∈ rows, (row.read parse).isSome) :
    lowestLeverage parse notional rows = if 0 < notional then
      match (tiersOf parse rows).foldl LeverageTier.keepLowest none with
      | some t => if notional < t.notionalFrom then some t.maxLeverage else none
      | none => none
    else none := by
  unfold lowestLeverage
  have folded := foldl_keepLowest parses none
  rw [Option.map_none] at folded
  rw [folded]
  cases (tiersOf parse rows).foldl LeverageTier.keepLowest none <;> rfl

theorem symbolLeverage_read (parses : ∀ row ∈ rows, (row.read parse).isSome) :
    symbolLeverage parse notional rows =
      some (TradingPlatform.symbolLeverage notional (tiersOf parse rows)) := by
  have reversed : ∀ row ∈ rows.reverse, (row.read parse).isSome := fun row isRow =>
    parses row (List.mem_reverse.mp isRow)
  have folded := foldlM_keepBest notional parses none
  rw [Option.map_none] at folded
  unfold symbolLeverage TradingPlatform.symbolLeverage bestTier
  rw [folded, Option.bind_some, firstOpenEnded_read reversed, tiersOf_reverse]
  cases (tiersOf parse rows).foldl (LeverageTier.keepBest notional) none with
  | some t => rfl
  | none =>
    rw [Option.map_none, Option.map_some, lowestLeverage_read parses]
    cases (tiersOf parse rows).reverse.find? fun t =>
      t.notionalTo = none ∧ t.notionalFrom ≤ notional <;> rfl

/-- Rows that parse are worth their tiers. -/
theorem effectiveLeverage_read (parses : ∀ row ∈ rows, (row.read parse).isSome)
    (minLeverage maxLeverage : Option ℤ) :
    effectiveLeverage parse notional minLeverage maxLeverage (some rows) =
      TradingPlatform.effectiveLeverage notional minLeverage maxLeverage
        (some (tiersOf parse rows)) := by
  have empty : rows = [] ↔ tiersOf parse rows = [] := by
    cases rows with
    | nil => simp [tiersOf]
    | cons row rows =>
      obtain ⟨t, reads⟩ := Option.isSome_iff_exists.mp (parses row List.mem_cons_self)
      simp [tiersOf_cons reads]
  unfold effectiveLeverage TradingPlatform.effectiveLeverage
  cases minLeverage with
  | none => rfl
  | some minL =>
    cases maxLeverage with
    | none => rfl
    | some maxL =>
      dsimp only
      rw [Option.bind_some, symbolLeverage_read parses]
      simp only [empty]
      by_cases bounds : minL < 1 ∨ maxL < 1 ∨ maxL < minL
      · have refused : minL < 1 ∨ maxL < 1 ∨ maxL < minL ∨ tiersOf parse rows = [] ∨
            notional < 0 := by
          tauto
        rw [if_pos bounds, if_pos refused]
      · rw [if_neg bounds]
        by_cases unusable : tiersOf parse rows = [] ∨ notional < 0
        · have refused : minL < 1 ∨ maxL < 1 ∨ maxL < minL ∨ tiersOf parse rows = [] ∨
              notional < 0 := by
            tauto
          rw [if_pos unusable, if_pos refused]
        · have accepted : ¬ (minL < 1 ∨ maxL < 1 ∨ maxL < minL ∨ tiersOf parse rows = [] ∨
              notional < 0) := by
            tauto
          rw [if_neg unusable, if_neg accepted]
          cases TradingPlatform.symbolLeverage notional (tiersOf parse rows) <;> rfl

end TierTexts

end TradingPlatform
