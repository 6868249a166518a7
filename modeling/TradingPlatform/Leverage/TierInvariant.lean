import Mathlib.Data.List.Nodup
import TradingPlatform.Leverage.TierTable

namespace TradingPlatform

open HalfAway (stored OnScale stored_mono onScale_stored)
open HalfOpenRange (range EndsBy range_nonempty)
open StepRuns

theorem except_bind_eq_ok {ε α β : Type} {first : Except ε α} {next : α → Except ε β} {b : β} :
    (first >>= next) = .ok b ↔ ∃ a, first = .ok a ∧ next a = .ok b := by
  cases first with
  | error e => exact ⟨fun failed => (by cases failed), fun ⟨_, failed, _⟩ => (by cases failed)⟩
  | ok a => exact ⟨fun done => ⟨a, rfl, done⟩, fun ⟨_, same, done⟩ => (by cases same; exact done)⟩

theorem numericColumn_eq_ok {precision scale : ℕ} {value column : ℚ} :
    numericColumn precision scale value = .ok column ↔
      |stored (10 ^ scale) value| < 10 ^ (precision - scale) ∧
        column = stored (10 ^ scale) value := by
  unfold numericColumn
  split_ifs with fits
  · exact ⟨fun same => ⟨fits, (Except.ok.inj same).symm⟩, fun ⟨_, same⟩ => by rw [same]⟩
  · exact ⟨fun failed => (by cases failed), fun ⟨fitting, _⟩ => absurd fitting fits⟩

theorem PlainDecimal.value_nonneg (s : PlainDecimal) : 0 ≤ s.value := by
  unfold PlainDecimal.value
  positivity

namespace TierRequest
variable {r : TierRequest} {id : ℕ} {row : TierRow} {others : List TierRow}

theorem lower_nonneg (r : TierRequest) : 0 ≤ r.lower := r.notionalFrom.value_nonneg

theorem upper_nonneg {e : ℚ} (bound : e ∈ r.upper) : 0 ≤ e := by
  obtain ⟨s, _, rfl⟩ := Option.map_eq_some_iff.mp bound
  exact s.value_nonneg

/-- The range has a value and none of another tier. -/
def Free (r : TierRequest) (others : List TierRow) : Prop :=
  r.range.Nonempty ∧ ∀ t ∈ others, Disjoint r.range t.range

def FitsPercent (percent : Option ℚ) : Prop := ∃ p ∈ percent, |stored (10 ^ 4) p| < 10 ^ 6

/-- The columns of the table hold the request: no overflow, a leverage that
the constraint permits, and bounds that differ in their cents. -/
structure FitsColumns (r : TierRequest) : Prop where
  leverage : r.maxLeverage ≤ 1000
  lower : stored (10 ^ 8) r.lower < 10 ^ 12
  upper : ∀ e ∈ r.upper, stored (10 ^ 8) e < 10 ^ 12
  cents : stored (10 ^ 2) r.lower < stored (10 ^ 2) (r.upper.getD openEnd)
  initial : FitsPercent r.initialMarginPercent
  maintenance : FitsPercent r.maintenanceMarginPercent

theorem percentColumn_eq_ok {percent : Option ℚ} {column : ℚ} :
    percentColumn percent = .ok column →
      FitsPercent percent ∧ ∃ p ∈ percent, column = stored (10 ^ 4) p := by
  intro written
  unfold percentColumn at written
  cases percent with
  | none => cases written
  | some p =>
    obtain ⟨fits, same⟩ := numericColumn_eq_ok.mp written
    exact ⟨⟨p, rfl, fits⟩, p, rfl, same⟩

theorem FitsPercent.column {percent : Option ℚ} (fits : FitsPercent percent) :
    ∃ column, percentColumn percent = .ok column := by
  obtain ⟨p, rfl, bound⟩ := fits
  exact ⟨_, numericColumn_eq_ok.mpr ⟨bound, rfl⟩⟩

theorem boundColumn_eq_ok {upper column : Option ℚ} (written : boundColumn upper = .ok column) :
    (∀ e ∈ upper, stored (10 ^ 8) e < 10 ^ 12) ∧ column = upper.map (stored (10 ^ 8)) := by
  cases upper with
  | none =>
    cases written
    exact ⟨fun e member => (by cases member), rfl⟩
  | some e =>
    change Except.map some (numericColumn 20 8 e) = .ok column at written
    cases stored : numericColumn 20 8 e with
    | error _ => rw [stored] at written; cases written
    | ok value =>
      rw [stored] at written
      obtain ⟨fits, rfl⟩ := numericColumn_eq_ok.mp stored
      cases written
      exact ⟨fun e member => (by cases member; exact lt_of_abs_lt fits), rfl⟩

/-- What a written row holds. -/
theorem toRow_eq_ok (written : r.toRow id = .ok row) : r.FitsColumns ∧ row.id = id ∧
    row.notionalFrom = stored (10 ^ 8) r.lower ∧
    row.notionalTo = r.upper.map (stored (10 ^ 8)) := by
  unfold toRow at written
  obtain ⟨notionalFrom, lowerColumn, written⟩ := except_bind_eq_ok.mp written
  obtain ⟨notionalTo, upperColumn, written⟩ := except_bind_eq_ok.mp written
  obtain ⟨initial, initialColumn, written⟩ := except_bind_eq_ok.mp written
  obtain ⟨maintenance, maintenanceColumn, written⟩ := except_bind_eq_ok.mp written
  obtain ⟨marginFrom, fromColumn, written⟩ := except_bind_eq_ok.mp written
  obtain ⟨marginTo, toColumn, written⟩ := except_bind_eq_ok.mp written
  obtain ⟨lowerFits, rfl⟩ := numericColumn_eq_ok.mp lowerColumn
  obtain ⟨-, rfl⟩ := numericColumn_eq_ok.mp fromColumn
  obtain ⟨-, rfl⟩ := numericColumn_eq_ok.mp toColumn
  have upperHeld := boundColumn_eq_ok upperColumn
  split_ifs at written with permitted
  · cases written
    exact ⟨⟨permitted.2.2, lt_of_abs_lt lowerFits, upperHeld.1, permitted.1,
      (percentColumn_eq_ok initialColumn).1, (percentColumn_eq_ok maintenanceColumn).1⟩,
      rfl, rfl, upperHeld.2⟩

theorem stored_lt_of_lt {x : ℚ} (bound : stored (10 ^ 8) x < 10 ^ 12) : x < 10 ^ 12 := by
  by_contra large
  have onScale : OnScale (10 ^ 8 : ℚ) (10 ^ 12) := ⟨10 ^ 20, by norm_num⟩
  have rounded := stored_mono (by norm_num : (0 : ℚ) < 10 ^ 8) (not_lt.mp large)
  rw [onScale.stored (by norm_num)] at rounded
  exact bound.not_ge rounded

/-- What fits a column with eight decimals fits the wider one for money. -/
theorem moneyColumn_of_le {x : ℚ} (nonneg : 0 ≤ x) (bound : x ≤ 10 ^ 12) :
    numericColumn 20 2 x = .ok (stored (10 ^ 2) x) := by
  refine numericColumn_eq_ok.mpr ⟨?_, rfl⟩
  have onScale : OnScale (10 ^ 2 : ℚ) (10 ^ 12) := ⟨10 ^ 14, by norm_num⟩
  have rounded := stored_mono (by norm_num : (0 : ℚ) < 10 ^ 2) bound
  rw [onScale.stored (by norm_num)] at rounded
  rw [abs_of_nonneg (HalfAway.stored_nonneg (by norm_num) nonneg)]
  exact rounded.trans_lt (by norm_num)

theorem wideColumn_of_lt {x : ℚ} (nonneg : 0 ≤ x) (bound : stored (10 ^ 8) x < 10 ^ 12) :
    numericColumn 20 8 x = .ok (stored (10 ^ 8) x) := by
  refine numericColumn_eq_ok.mpr ⟨?_, rfl⟩
  rw [abs_of_nonneg (HalfAway.stored_nonneg (by norm_num) nonneg)]
  exact bound

theorem boundColumn_of_lt {upper : Option ℚ} (nonneg : ∀ e ∈ upper, 0 ≤ e)
    (bounds : ∀ e ∈ upper, stored (10 ^ 8) e < 10 ^ 12) :
    boundColumn upper = .ok (upper.map (stored (10 ^ 8))) := by
  cases upper with
  | none => rfl
  | some e =>
    have column := wideColumn_of_lt (nonneg e rfl) (bounds e rfl)
    simp only [boundColumn, column, Except.map, Option.map_some]

theorem FitsColumns.toRow (fits : r.FitsColumns) (permitted : 1 ≤ r.maxLeverage) :
    ∃ row, r.toRow id = .ok row := by
  obtain ⟨initial, initialColumn⟩ := fits.initial.column
  obtain ⟨maintenance, maintenanceColumn⟩ := fits.maintenance.column
  have lowerColumn := wideColumn_of_lt r.lower_nonneg fits.lower
  have upperColumn := boundColumn_of_lt (fun e bound => upper_nonneg bound) fits.upper
  have fromColumn := moneyColumn_of_le r.lower_nonneg (stored_lt_of_lt fits.lower).le
  have toColumn : numericColumn 20 2 (r.upper.getD openEnd) =
      .ok (stored (10 ^ 2) (r.upper.getD openEnd)) := by
    cases bound : r.upper with
    | none => exact moneyColumn_of_le (by norm_num [openEnd]) (by norm_num [openEnd])
    | some e => exact moneyColumn_of_le (upper_nonneg bound) (stored_lt_of_lt (fits.upper e bound)).le
  unfold TierRequest.toRow
  rw [lowerColumn, upperColumn, initialColumn, maintenanceColumn, fromColumn, toColumn]
  exact ⟨_, if_pos ⟨fits.cents, by omega, fits.leverage⟩⟩

theorem validate_eq_ok {notEmpty : Prop} [Decidable notEmpty] :
    r.validate notEmpty others = .ok () ↔ 1 ≤ r.tierIndex ∧ 1 ≤ r.maxLeverage ∧ notEmpty ∧
      ∀ t ∈ others, ¬ t.Overlaps r.lower r.upper := by
  unfold validate
  split_ifs with index leverage proper overlap
  · exact ⟨fun failed => (by cases failed), fun ⟨fine, _⟩ => by omega⟩
  · exact ⟨fun failed => (by cases failed), fun ⟨_, fine, _⟩ => by omega⟩
  · obtain ⟨t, member, overlaps⟩ := overlap
    exact ⟨fun failed => (by cases failed), fun ⟨_, _, _, fine⟩ => absurd overlaps (fine t member)⟩
  · exact ⟨fun _ => ⟨by omega, by omega, proper,
      fun t member overlaps => overlap ⟨t, member, overlaps⟩⟩, fun _ => rfl⟩
  · exact ⟨fun failed => (by cases failed), fun ⟨_, _, fine, _⟩ => absurd fine proper⟩

/-- Bounds in a column's cents are apart only if the bounds are. -/
theorem FitsColumns.nonempty (fits : r.FitsColumns) : r.range.Nonempty := by
  refine range_nonempty.mpr fun e bound => ?_
  by_contra late
  have cents := fits.cents
  rw [Option.mem_def.mp bound] at cents
  exact cents.not_ge (stored_mono (by norm_num) (not_lt.mp late))

/-- What makes the tests decide as the ranges do: for a free range the bounds
pass the comparison, the columns hold them apart, and no other tier is open
ended unless the request is for the only tier; for an open-ended request that
is not free, a tier shows it to the query. -/
structure Regular (ordered : Prop) (others : List TierRow) (r : TierRequest) : Prop where
  ordered : r.Free others → ordered
  fits : r.Free others → r.FitsColumns ∧ ∀ e ∈ r.upper, stored (10 ^ 8) r.lower < stored (10 ^ 8) e
  bounded : r.Free others → others = [] ∨ (r.upper ≠ none ∧ ∀ t ∈ others, t.notionalTo ≠ none)
  seen : r.upper = none → r.FitsColumns → (∃ t ∈ others, ¬ Disjoint r.range t.range) →
    ∃ t ∈ others, t.notionalTo = none ∨ t.notionalFrom < openEnd

/-- A bounded range that the columns hold is regular beside bounded tiers. -/
theorem Regular.of_bounded {ordered : Prop} (passes : ordered) (fits : r.FitsColumns)
    (distinct : ∀ e ∈ r.upper, stored (10 ^ 8) r.lower < stored (10 ^ 8) e)
    (bounded : r.upper ≠ none) (ended : ∀ t ∈ others, t.notionalTo ≠ none) :
    r.Regular ordered others :=
  ⟨fun _ => passes, fun _ => ⟨fits, distinct⟩, fun _ => .inr ⟨bounded, ended⟩,
    fun unbounded => absurd unbounded bounded⟩

theorem overlaps_of_bounded {t : TierRow} {e : ℚ} (bound : r.upper = some e)
    (meets : ¬ Disjoint r.range t.range) : t.Overlaps r.lower r.upper := by
  refine .inl ⟨?_, fun d ends => ?_⟩
  · rw [bound, Option.getD_some]
    by_contra late
    exact meets (EndsBy.disjoint ⟨e, bound, not_lt.mp late⟩)
  · by_contra early
    exact meets (EndsBy.disjoint ⟨d, ends, not_lt.mp early⟩).symm

theorem overlaps_of_open {t : TierRow} (unbounded : r.upper = none) (fits : r.FitsColumns)
    (shows : t.notionalTo = none ∨ t.notionalFrom < openEnd) : t.Overlaps r.lower r.upper := by
  rcases lt_or_ge t.notionalFrom openEnd with early | late
  · exact .inr (.inl ⟨unbounded, early⟩)
  · have noEnd := shows.resolve_right late.not_gt
    refine .inr (.inr ⟨?_, fun e bound => (by rw [noEnd] at bound; cases bound)⟩)
    by_contra below
    have cents := fits.cents
    rw [unbounded, Option.getD_none] at cents
    exact cents.not_ge (stored_mono (by norm_num) (late.trans (not_le.mp below).le))

theorem not_overlaps {t : TierRow} (bounded : r.upper ≠ none) (ended : t.notionalTo ≠ none)
    (proper : r.range.Nonempty) (nonempty : t.range.Nonempty) (apart : Disjoint r.range t.range) :
    ¬ t.Overlaps r.lower r.upper := by
  obtain ⟨e, bound⟩ := Option.ne_none_iff_exists'.mp bounded
  obtain ⟨d, ends⟩ := Option.ne_none_iff_exists'.mp ended
  have width := range_nonempty.mp nonempty d ends
  have order : e ≤ t.notionalFrom ∨ d ≤ r.lower := by
    rcases (HalfOpenRange.disjoint_iff proper nonempty).mp apart with first | first
    · obtain ⟨e', bound', early⟩ := first
      cases bound.symm.trans bound'
      exact .inl early
    · obtain ⟨d', ends', early⟩ := first
      cases ends.symm.trans ends'
      exact .inr early
  rw [bound]
  rintro (⟨early, late⟩ | ⟨unbounded, _⟩ | ⟨inside, within⟩)
  · rcases order with first | first
    · exact early.not_ge first
    · exact (late d ends).not_ge first
  · cases unbounded
  · have shut := within d ends
    rw [Option.getD_some] at shut
    rcases order with first | first <;> linarith

/-- The tests admit a regular request when its range is free, and only then. -/
theorem Regular.admitted_iff {ordered : Prop} [Decidable ordered] (regular : r.Regular ordered others)
    (id : ℕ) (sound : ∀ t ∈ others, t.range.Nonempty) (index : 1 ≤ r.tierIndex) (leverage : 1 ≤ r.maxLeverage) :
    (r.validate ordered others = .ok () ∧ ∃ row, r.toRow id = .ok row) ↔ r.Free others := by
  constructor
  · rintro ⟨valid, row, written⟩
    obtain ⟨-, -, -, clear⟩ := validate_eq_ok.mp valid
    have fits := (toRow_eq_ok written).1
    refine ⟨fits.nonempty, fun t member => ?_⟩
    by_contra meets
    cases bound : r.upper with
    | none =>
      obtain ⟨other, isOther, shows⟩ := regular.seen bound fits ⟨t, member, meets⟩
      exact clear other isOther (overlaps_of_open bound fits shows)
    | some e => exact clear t member (overlaps_of_bounded bound meets)
  · intro free
    refine ⟨validate_eq_ok.mpr ⟨index, leverage, regular.ordered free, fun t member => ?_⟩,
      (regular.fits free).1.toRow leverage⟩
    rcases regular.bounded free with only | ⟨bounded, ended⟩
    · rw [only] at member
      cases member
    · exact not_overlaps bounded (ended t member) free.1 (sound t member) (free.2 t member)

end TierRequest

/-- Every tier has a value, and no two have one in common. The bounds are in
units of their columns, so that rounding keeps what is written beside them apart. -/
structure TiersApart (table : List TierRow) : Prop where
  ids : (table.map TierRow.id).Nodup
  nonempty : ∀ t ∈ table, t.range.Nonempty
  onScale : ∀ t ∈ table, OnScale (10 ^ 8) t.notionalFrom ∧ ∀ e ∈ t.notionalTo, OnScale (10 ^ 8) e
  apart : ∀ s ∈ table, ∀ t ∈ table, s.id ≠ t.id → Disjoint s.range t.range

section Rounding
variable {r : TierRequest} {id : ℕ} {row t : TierRow}

theorem stored_le_of_le {x y : ℚ} (onScale : OnScale (10 ^ 8) y) (order : x ≤ y) :
    stored (10 ^ 8) x ≤ y := by
  have rounded := stored_mono (by norm_num : (0 : ℚ) < 10 ^ 8) order
  rwa [onScale.stored (by norm_num)] at rounded

theorem le_stored_of_le {x y : ℚ} (onScale : OnScale (10 ^ 8) y) (order : y ≤ x) :
    y ≤ stored (10 ^ 8) x := by
  have rounded := stored_mono (by norm_num : (0 : ℚ) < 10 ^ 8) order
  rwa [onScale.stored (by norm_num)] at rounded

theorem written_onScale (written : r.toRow id = .ok row) :
    OnScale (10 ^ 8) row.notionalFrom ∧ ∀ e ∈ row.notionalTo, OnScale (10 ^ 8) e := by
  obtain ⟨-, -, lower, upper⟩ := TierRequest.toRow_eq_ok written
  rw [lower, upper]
  refine ⟨onScale_stored (by norm_num) _, fun e bound => ?_⟩
  obtain ⟨_, _, rfl⟩ := Option.map_eq_some_iff.mp bound
  exact onScale_stored (by norm_num) _

/-- The row is apart from each tier that the request was apart from. -/
theorem written_apart (written : r.toRow id = .ok row) (proper : r.range.Nonempty)
    (nonempty : t.range.Nonempty)
    (onScale : OnScale (10 ^ 8) t.notionalFrom ∧ ∀ e ∈ t.notionalTo, OnScale (10 ^ 8) e)
    (apart : Disjoint r.range t.range) : Disjoint row.range t.range := by
  obtain ⟨-, -, lower, upper⟩ := TierRequest.toRow_eq_ok written
  rcases (HalfOpenRange.disjoint_iff proper nonempty).mp apart with first | first
  · obtain ⟨e, bound, early⟩ := first
    refine EndsBy.disjoint ⟨stored (10 ^ 8) e, ?_, stored_le_of_le onScale.1 early⟩
    rw [upper, Option.mem_def.mp bound]
    rfl
  · obtain ⟨d, ends, early⟩ := first
    refine (EndsBy.disjoint ⟨d, ends, ?_⟩).symm
    rw [lower]
    exact le_stored_of_le (onScale.2 d ends) early

end Rounding

section Results
variable {r : TierRequest} {id : ℕ} {row : TierRow} {table after : List TierRow}

theorem createTier_eq_ok : createTier id r table = .ok after ↔
    r.validate r.TextOrdered table = .ok () ∧ ∃ row, r.toRow id = .ok row ∧ after = table ++ [row] := by
  unfold createTier
  constructor
  · intro written
    obtain ⟨_, valid, written⟩ := except_bind_eq_ok.mp written
    obtain ⟨row, column, written⟩ := except_bind_eq_ok.mp written
    cases written
    exact ⟨valid, row, column, rfl⟩
  · rintro ⟨valid, row, column, rfl⟩
    rw [valid, column]
    rfl

theorem updateTier_eq_ok : updateTier id r table = .ok after ↔
    r.validate r.FloatOrdered (table.filter fun t => t.id ≠ id) = .ok () ∧
      (∃ t ∈ table, t.id = id) ∧ ∃ row, r.toRow id = .ok row ∧
        after = table.map fun t => if t.id = id then row else t := by
  unfold updateTier
  constructor
  · intro written
    obtain ⟨_, valid, written⟩ := except_bind_eq_ok.mp written
    split_ifs at written with missing
    · obtain ⟨row, column, written⟩ := except_bind_eq_ok.mp written
      cases written
      push Not at missing
      exact ⟨valid, missing, row, column, rfl⟩
  · rintro ⟨valid, ⟨t, member, same⟩, row, column, rfl⟩
    have present : ¬ ∀ t ∈ table, t.id ≠ id := fun absent => absent t member same
    rw [valid]
    change (if ∀ t ∈ table, t.id ≠ id then _ else _) = _
    rw [if_neg present, column]
    rfl

theorem TiersApart.append (sound : TiersApart table) (fresh : ∀ t ∈ table, t.id ≠ id)
    (free : r.Free table) (proper : row.range.Nonempty) (written : r.toRow id = .ok row) :
    TiersApart (table ++ [row]) := by
  have rowId := (TierRequest.toRow_eq_ok written).2.1
  have beside : ∀ t ∈ table, Disjoint row.range t.range := fun t member =>
    written_apart written free.1 (sound.nonempty t member) (sound.onScale t member) (free.2 t member)
  refine ⟨?_, ?_, ?_, ?_⟩
  · rw [List.map_append, List.map_singleton, rowId]
    refine sound.ids.append (List.nodup_singleton id) ?_
    intro other isOld isNew
    obtain ⟨t, member, same⟩ := List.mem_map.mp isOld
    exact fresh t member (same.trans (List.mem_singleton.mp isNew))
  · intro t member
    rcases List.mem_append.mp member with old | new
    · exact sound.nonempty t old
    · rw [List.mem_singleton.mp new]
      exact proper
  · intro t member
    rcases List.mem_append.mp member with old | new
    · exact sound.onScale t old
    · rw [List.mem_singleton.mp new]
      exact written_onScale written
  · intro s sMember t tMember distinct
    rcases List.mem_append.mp sMember with sOld | sNew <;>
      rcases List.mem_append.mp tMember with tOld | tNew
    · exact sound.apart s sOld t tOld distinct
    · cases List.mem_singleton.mp tNew
      exact (beside s sOld).symm
    · cases List.mem_singleton.mp sNew
      exact beside t tOld
    · cases List.mem_singleton.mp sNew
      cases List.mem_singleton.mp tNew
      exact absurd rfl distinct

theorem TiersApart.replace (sound : TiersApart table)
    (free : r.Free (table.filter fun t => t.id ≠ id)) (proper : row.range.Nonempty)
    (written : r.toRow id = .ok row) :
    TiersApart (table.map fun t => if t.id = id then row else t) := by
  have rowId := (TierRequest.toRow_eq_ok written).2.1
  have origin : ∀ t ∈ table.map (fun t => if t.id = id then row else t),
      t = row ∨ (t ∈ table ∧ t.id ≠ id) := by
    intro t member
    obtain ⟨old, isOld, same⟩ := List.mem_map.mp member
    split_ifs at same with here
    · exact .inl same.symm
    · exact .inr ⟨same ▸ isOld, same ▸ here⟩
  have beside : ∀ t ∈ table, t.id ≠ id → Disjoint row.range t.range := fun t member elsewhere =>
    written_apart written free.1 (sound.nonempty t member) (sound.onScale t member)
      (free.2 t (List.mem_filter.mpr ⟨member, decide_eq_true elsewhere⟩))
  refine ⟨?_, ?_, ?_, ?_⟩
  · have same : (table.map fun t => if t.id = id then row else t).map TierRow.id =
        table.map TierRow.id := by
      rw [List.map_map]
      refine List.map_congr_left fun t _ => ?_
      rw [Function.comp_apply]
      split_ifs with here
      · exact rowId.trans here.symm
      · rfl
    rw [same]
    exact sound.ids
  · intro t member
    rcases origin t member with rfl | ⟨old, _⟩
    · exact proper
    · exact sound.nonempty t old
  · intro t member
    rcases origin t member with rfl | ⟨old, _⟩
    · exact written_onScale written
    · exact sound.onScale t old
  · intro s sMember t tMember distinct
    rcases origin s sMember with rfl | ⟨sOld, sElsewhere⟩ <;>
      rcases origin t tMember with rfl | ⟨tOld, tElsewhere⟩
    · exact absurd rfl distinct
    · exact beside t tOld tElsewhere
    · exact (beside s sOld sElsewhere).symm
    · exact sound.apart s sOld t tOld distinct

theorem TiersApart.delete (sound : TiersApart table) : TiersApart (deleteTier id table) := by
  have old : ∀ t ∈ deleteTier id table, t ∈ table := fun t member => (List.mem_filter.mp member).1
  exact ⟨sound.ids.sublist (List.filter_sublist.map _), fun t member => sound.nonempty t (old t member),
    fun t member => sound.onScale t (old t member),
    fun s sMember t tMember => sound.apart s (old s sMember) t (old t tMember)⟩

theorem TiersApart.pairwise (sound : TiersApart table) :
    table.Pairwise fun s t => Disjoint s.range t.range :=
  (List.pairwise_map.mp sound.ids).imp_of_mem
    fun sMember tMember distinct => sound.apart _ sMember _ tMember distinct

end Results

namespace TierCall
variable {table after : List TierRow} {call : TierCall} {calls : List TierCall}

def Regular (table : List TierRow) : TierCall → Prop
  | create _ r => 1 ≤ r.tierIndex → 1 ≤ r.maxLeverage → r.Regular r.TextOrdered table
  | update id r => 1 ≤ r.tierIndex → 1 ≤ r.maxLeverage →
      r.Regular r.FloatOrdered (table.filter fun t => t.id ≠ id) ∧
        (r.Free (table.filter fun t => t.id ≠ id) → ∃ t ∈ table, t.id = id)
  | delete _ => True

/-- A call with a tier index and a leverage from 1 on is accepted exactly when
its range has a value and none of another tier. -/
def DecidedByRange (table : List TierRow) : TierCall → Prop
  | create id r => 1 ≤ r.tierIndex → 1 ≤ r.maxLeverage →
      ((create id r).Accepted table ↔ r.Free table)
  | update id r => 1 ≤ r.tierIndex → 1 ≤ r.maxLeverage →
      ((update id r).Accepted table ↔ r.Free (table.filter fun t => t.id ≠ id))
  | delete id => (delete id).Accepted table

theorem decidedByRange (sound : TiersApart table) (regular : Regular table call) :
    TierCall.DecidedByRange table call := by
  cases call with
  | create id r =>
    intro index leverage
    refine Iff.trans ?_
      ((regular index leverage).admitted_iff id sound.nonempty index leverage)
    constructor
    · rintro ⟨after, done⟩
      obtain ⟨valid, row, written, _⟩ := createTier_eq_ok.mp done
      exact ⟨valid, row, written⟩
    · rintro ⟨valid, row, written⟩
      exact ⟨_, createTier_eq_ok.mpr ⟨valid, row, written, rfl⟩⟩
  | update id r =>
    intro index leverage
    obtain ⟨ranges, present⟩ := regular index leverage
    have admitted := ranges.admitted_iff id
      (fun t member => sound.nonempty t (List.mem_filter.mp member).1) index leverage
    constructor
    · rintro ⟨after, done⟩
      obtain ⟨valid, _, row, written, _⟩ := updateTier_eq_ok.mp done
      exact admitted.mp ⟨valid, row, written⟩
    · intro free
      obtain ⟨valid, row, written⟩ := admitted.mpr free
      exact ⟨_, updateTier_eq_ok.mpr ⟨valid, present free, row, written, rfl⟩⟩
  | delete id => exact ⟨_, rfl⟩

/-- Rounding leaves a regular row a value. -/
theorem written_nonempty {r : TierRequest} {id : ℕ} {row : TierRow} {others : List TierRow}
    {ordered : Prop} (regular : r.Regular ordered others) (free : r.Free others)
    (written : r.toRow id = .ok row) : row.range.Nonempty := by
  obtain ⟨-, -, lower, upper⟩ := TierRequest.toRow_eq_ok written
  refine range_nonempty.mpr fun e bound => ?_
  rw [upper] at bound
  obtain ⟨e', bound', rfl⟩ := Option.map_eq_some_iff.mp bound
  rw [lower]
  exact (regular.fits free).2 e' bound'

theorem tiersApart_step (sound : TiersApart table) (regular : Regular table call)
    (taken : call.step table = some after) : TiersApart after := by
  cases call with
  | create id r =>
    have decided := decidedByRange sound regular
    change (if ∃ t ∈ table, t.id = id then none
      else some ((createTier id r table).toOption.getD table)) = some after at taken
    split_ifs at taken with used
    cases done : createTier id r table with
    | error e =>
      rw [done] at taken
      cases taken
      exact sound
    | ok written =>
      rw [done] at taken
      cases taken
      obtain ⟨valid, row, column, rfl⟩ := createTier_eq_ok.mp done
      obtain ⟨index, leverage, -, -⟩ := TierRequest.validate_eq_ok.mp valid
      have free := (decided index leverage).mp ⟨_, done⟩
      exact sound.append (fun t member same => used ⟨t, member, same⟩) free
        (written_nonempty (regular index leverage) free column) column
  | update id r =>
    have decided := decidedByRange sound regular
    change some ((updateTier id r table).toOption.getD table) = some after at taken
    cases done : updateTier id r table with
    | error e =>
      rw [done] at taken
      cases taken
      exact sound
    | ok written =>
      rw [done] at taken
      cases taken
      obtain ⟨valid, -, row, column, rfl⟩ := updateTier_eq_ok.mp done
      obtain ⟨index, leverage, -, -⟩ := TierRequest.validate_eq_ok.mp valid
      have free := (decided index leverage).mp ⟨_, done⟩
      exact sound.replace free (written_nonempty (regular index leverage).1 free column) column
  | delete id =>
    cases taken
    exact sound.delete

end TierCall

theorem TiersApart.run {calls : List TierCall} {table : List TierRow}
    (run : GuardedRun TierCall.step TierCall.Regular [] calls table) :
    TiersApart table := by
  have none : TiersApart [] := by
    refine ⟨List.nodup_nil, ?_, ?_, ?_⟩ <;> intro t member <;> cases member
  exact run.invariant none fun before call after regular taken sound =>
    TierCall.tiersApart_step sound regular taken

/-- In every profile that regular calls build up, the tiers have values, no two
of them a common one, so that for a notional at most one tier matches, which
`effective_leverage` then takes; and a regular call is decided by its range. -/
theorem leverage_tiers_apart {calls : List TierCall} {table : List TierRow}
    (run : GuardedRun TierCall.step TierCall.Regular [] calls table) :
    (∀ t ∈ table, ∀ e ∈ t.notionalTo, t.notionalFrom < e) ∧
      (table.Pairwise fun s t => Disjoint s.range t.range) ∧
      (∀ notional, ∀ t ∈ table, t.leverageTier.InTier notional →
        bestTier notional (table.map TierRow.leverageTier) = some t.leverageTier ∧
        ∀ other ∈ table, other.leverageTier.InTier notional → other = t) ∧
      ∀ call : TierCall, TierCall.Regular table call → TierCall.DecidedByRange table call := by
  have sound := TiersApart.run run
  refine ⟨fun t member => range_nonempty.mp (sound.nonempty t member), sound.pairwise, ?_,
    fun call regular => TierCall.decidedByRange sound regular⟩
  intro notional t member isIn
  have only : ∀ other ∈ table, other.leverageTier.InTier notional → other = t := by
    intro other isOther otherIn
    by_contra distinct
    have ids : other.id ≠ t.id := fun same =>
      distinct (List.inj_on_of_nodup_map sound.ids isOther member same)
    exact Set.disjoint_left.mp (sound.apart other isOther t member ids) otherIn isIn
  refine ⟨bestTier_eq (List.mem_map_of_mem member) isIn ?_, only⟩
  intro tier isTier tierIn
  obtain ⟨other, isOther, rfl⟩ := List.mem_map.mp isTier
  rw [only other isOther tierIn]

section Ladders

/-- A tier request with nothing unusual but its range. -/
def plainTier (notionalFrom : PlainDecimal) (notionalTo : Option PlainDecimal) : TierRequest :=
  ⟨1, notionalFrom, notionalTo, 100, some 1, some (1 / 2)⟩

def decimalOf (digits : List (Fin 10)) (hasDigit : digits ≠ []) : PlainDecimal := ⟨digits, [], hasDigit⟩

def firstRung : TierRequest :=
  plainTier (decimalOf [0] (by decide)) (some (decimalOf [1, 0, 0, 0] (by decide)))

def lastRung : TierRequest := plainTier (decimalOf [1, 0, 0, 0] (by decide)) none

def nextRung : TierRequest :=
  plainTier (decimalOf [1, 0, 0, 0] (by decide)) (some (decimalOf [2, 0, 0, 0] (by decide)))

def nineToTen : TierRequest :=
  plainTier (decimalOf [9] (by decide)) (some (decimalOf [1, 0] (by decide)))

theorem firstRung_fits : firstRung.FitsColumns := by
  refine ⟨by decide, by decide +kernel, fun e bound => ?_, by decide +kernel,
    ⟨1, rfl, by decide +kernel⟩, ⟨1 / 2, rfl, by decide +kernel⟩⟩
  cases bound
  decide +kernel

theorem nextRung_fits : nextRung.FitsColumns := by
  refine ⟨by decide, by decide +kernel, fun e bound => ?_, by decide +kernel,
    ⟨1, rfl, by decide +kernel⟩, ⟨1 / 2, rfl, by decide +kernel⟩⟩
  cases bound
  decide +kernel

/-- Two bounded rungs, entered one after the other. -/
theorem leverage_tiers_apart_rungs :
    ∃ table, GuardedRun TierCall.step TierCall.Regular [] [.create 1 firstRung, .create 2 nextRung]
        table ∧
      (table.map TierRow.leverageTier = [⟨0, some 1000, 100⟩, ⟨1000, some 2000, 100⟩] ∧
        table.Pairwise fun s t => Disjoint s.range t.range) := by
  have first : GuardedRun TierCall.step TierCall.Regular [] [.create 1 firstRung]
      [⟨1, 1, 0, some 1000, 100, 1, 1 / 2, 0, 1000⟩] := by
    refine .snoc .nil (fun _ _ => ?_) (by decide +kernel)
    refine .of_bounded (by decide +kernel) firstRung_fits (fun e bound => ?_) (by decide)
      (fun t member => (by cases member))
    cases bound
    decide +kernel
  have second : GuardedRun TierCall.step TierCall.Regular []
      [.create 1 firstRung, .create 2 nextRung]
      [⟨1, 1, 0, some 1000, 100, 1, 1 / 2, 0, 1000⟩,
        ⟨2, 1, 1000, some 2000, 100, 1, 1 / 2, 1000, 2000⟩] := by
    refine .snoc first (fun _ _ => ?_) (by decide +kernel)
    refine .of_bounded (by decide +kernel) nextRung_fits (fun e bound => ?_) (by decide)
      (fun t member => ?_)
    · cases bound
      decide +kernel
    · cases List.mem_singleton.mp member
      decide
  exact ⟨_, second, by decide +kernel, (leverage_tiers_apart second).2.1⟩

end Ladders

/-- The two rungs of a ladder cannot both be entered, in either order: with an
open end on one side the query counts every other tier. A tier from 9 to 10 is
refused too, for as texts its bounds are in the other order. -/
theorem ladder_refused : ¬ (∀ (calls : List TierCall) (table : List TierRow),
    Run TierCall.step [] calls table → ∀ call : TierCall, TierCall.DecidedByRange table call) ∧
    createTier 1 lastRung [] = .ok [⟨1, 1, 1000, none, 100, 1, 1 / 2, 1000, 999999999999⟩] ∧
    createTier 2 firstRung [⟨1, 1, 1000, none, 100, 1, 1 / 2, 1000, 999999999999⟩] =
      .error .overlap ∧
    createTier 1 nineToTen [] = .error .emptyRange := by
  refine ⟨?_, by decide +kernel, by decide +kernel, by decide +kernel⟩
  intro claimed
  have evaluates : (runGuarded TierCall.step (fun _ _ => True) [] [.create 1 firstRung]).map
      (fun table => (table, createTier 2 lastRung table)) =
      some ([⟨1, 1, 0, some 1000, 100, 1, 1 / 2, 0, 1000⟩], .error .overlap) := by decide +kernel
  obtain ⟨table, reached, reads⟩ := Option.map_eq_some_iff.mp evaluates
  obtain ⟨tiers, refused⟩ := Prod.mk.inj reads
  have decided := (claimed _ _ (.of_eval reached) (.create 2 lastRung) (by decide) (by decide)).mpr
  have free : lastRung.Free table := by
    subst tiers
    refine ⟨range_nonempty.mpr fun e bound => (by cases bound), fun t member => ?_⟩
    cases List.mem_singleton.mp member
    exact (EndsBy.disjoint ⟨1000, rfl, by decide +kernel⟩).symm
  obtain ⟨after, accepted⟩ := decided free
  exact absurd (refused.symm.trans accepted) (by simp)

end TradingPlatform
