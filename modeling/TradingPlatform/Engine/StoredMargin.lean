import TradingPlatform.Engine.IndexInvariant

namespace TradingPlatform

open StepRuns

/-- The margin field is the one of this size and entry price. -/
def PositionHash.MarginFits (h : PositionHash) (size entryPrice : ℚ) : Prop :=
  ∃ leverage ∈ h.leverage, h.margin = some (size * entryPrice / leverage)

instance (h : PositionHash) (size entryPrice : ℚ) : Decidable (h.MarginFits size entryPrice) :=
  inferInstanceAs (Decidable (∃ leverage ∈ h.leverage, _))

/-- `margin = size * entry_price / leverage`, with a positive leverage. -/
def PositionHash.MarginMatches (h : PositionHash) : Prop :=
  ∃ size entryPrice leverage, h.size = some size ∧ h.entryPrice = some entryPrice ∧
    h.leverage = some leverage ∧ 0 < leverage ∧ h.margin = some (size * entryPrice / leverage)

/-- What every hash has, so that its margin can be right while it is open. -/
structure PositionHash.Margined (h : PositionHash) : Prop where
  entryPrice : ∃ entryPrice, h.entryPrice = some entryPrice
  leverage : ∃ leverage, h.leverage = some leverage ∧ 0 < leverage
  matches_open : h.status = some .OPEN → h.MarginMatches

section Writes
variable {g h : PositionHash} {p q : PositionId} {stored : Option PositionHash}

theorem Fill.posLevOrFill_of_pos {fill : Fill} {leverage : ℚ} (positive : 0 < leverage)
    (jsonLev : JsonNum) : fill.posLevOrFill (some leverage) jsonLev = leverage := by
  unfold posLevOrFill
  simp only [Option.filter, positive, decide_true, if_true]

theorem FillWrite.margined {fill : Fill} (how : FillWrite fill q stored h)
    (before : ∀ g ∈ stored, g.Margined) : h.Margined := by
  cases how with
  | opened size leverage leverage_pos =>
    exact ⟨⟨_, rfl⟩, ⟨_, rfl, leverage_pos⟩, fun _ => ⟨_, _, _, rfl, rfl, rfl, leverage_pos, rfl⟩⟩
  | merged _ g isOpen _ =>
    obtain ⟨leverage, hasLeverage, positive⟩ := (before g rfl).leverage
    refine ⟨⟨_, rfl⟩, ⟨leverage, hasLeverage, positive⟩, fun _ =>
      ⟨_, _, leverage, rfl, rfl, hasLeverage, positive, ?_⟩⟩
    unfold Fill.mergeHash
    rw [hasLeverage, Fill.posLevOrFill_of_pos positive]
  | reduced _ g newSize newRealized isOpen =>
    obtain ⟨leverage, hasLeverage, positive⟩ := (before g rfl).leverage
    obtain ⟨entryPrice, hasEntry⟩ := (before g rfl).entryPrice
    refine ⟨⟨entryPrice, hasEntry⟩, ⟨leverage, hasLeverage, positive⟩, fun _ =>
      ⟨newSize, entryPrice, leverage, rfl, hasEntry, hasLeverage, positive, ?_⟩⟩
    unfold Fill.reducedHash
    rw [hasLeverage, hasEntry, Fill.posLevOrFill_of_pos positive]
    rfl
  | closed _ g newRealized _ =>
    refine ⟨(before g rfl).entryPrice, (before g rfl).leverage, fun stillOpen => ?_⟩
    cases stillOpen

/-- A close keeps the margin field, so it has to be one of the whole size. -/
theorem CloseWrite.margined {args : CloseArgs} (how : CloseWrite args q stored h)
    (before : ∀ g ∈ stored, g.Margined)
    (whole : ∀ g ∈ stored, g.status = some .OPEN → g.entryPrice = some 0 ∨
      args.actualCloseSize (g.size.getD 0) = g.size.getD 0) : h.Margined := by
  cases how with
  | full g _ =>
    refine ⟨(before g rfl).entryPrice, (before g rfl).leverage, fun stillOpen => ?_⟩
    change some args.fullCloseStatus = some .OPEN at stillOpen
    unfold CloseArgs.fullCloseStatus at stillOpen
    split_ifs at stillOpen <;> cases stillOpen
  | part g isOpen part =>
    have free := (whole g rfl isOpen).resolve_right part.ne
    refine ⟨(before g rfl).entryPrice, (before g rfl).leverage, fun _ => ?_⟩
    obtain ⟨size, entryPrice, leverage, _, hasEntry, hasLeverage, positive, margin⟩ :=
      (before g rfl).matches_open isOpen
    cases Option.some.inj (free.symm.trans hasEntry)
    refine ⟨_, 0, leverage, rfl, hasEntry, hasLeverage, positive, margin.trans ?_⟩
    rw [mul_zero, mul_zero]

theorem ReopenWrite.margined {timestampMs : Millis} (how : ReopenWrite p timestampMs q stored h)
    (before : ∀ g ∈ stored, g.Margined)
    (kept : ∀ g ∈ stored, (∃ status ∈ g.status, status.Closed) → g.restoreSize ≠ 0 →
      g.MarginFits g.restoreSize (g.entryPrice.getD 0)) : h.Margined := by
  obtain ⟨g, closed, restores⟩ := how
  have fits := kept g rfl closed restores
  refine ⟨(before g rfl).entryPrice, (before g rfl).leverage, fun _ => ?_⟩
  obtain ⟨leverage, hasLeverage, positive⟩ := (before g rfl).leverage
  obtain ⟨entryPrice, hasEntry⟩ := (before g rfl).entryPrice
  obtain ⟨other, again, margin⟩ := fits
  cases Option.some.inj (hasLeverage.symm.trans again)
  rw [hasEntry] at margin
  exact ⟨_, entryPrice, leverage, rfl, hasEntry, hasLeverage, positive, margin⟩

theorem ReopenWithWrite.margined {timestampMs : Millis} {params : ParamOverrides}
    (how : ReopenWithWrite p timestampMs params q stored h) (before : ∀ g ∈ stored, g.Margined)
    (kept : ∀ g ∈ stored, (∃ status ∈ g.status, status.Closed) →
      positiveOr params.size g.restoreSize ≠ 0 →
      g.MarginFits (positiveOr params.size g.restoreSize)
        (positiveOr params.entryPrice (g.entryPrice.getD 0))) : h.Margined := by
  obtain ⟨g, closed, restores⟩ := how
  refine ⟨⟨_, rfl⟩, (before g rfl).leverage, fun _ => ?_⟩
  obtain ⟨leverage, hasLeverage, positive⟩ := (before g rfl).leverage
  obtain ⟨other, again, margin⟩ := kept g rfl closed restores
  cases Option.some.inj (hasLeverage.symm.trans again)
  exact ⟨_, _, leverage, rfl, rfl, hasLeverage, positive, margin⟩

theorem UpdateWrite.margined {timestampMs : Millis} {params : ParamOverrides}
    (how : UpdateWrite p timestampMs params q stored h) (before : ∀ g ∈ stored, g.Margined) :
    h.Margined := by
  cases how with
  | resized g _ size entryPrice noLeverage =>
    obtain ⟨leverage, hasLeverage, positive⟩ := (before g rfl).leverage
    rw [hasLeverage, Option.filter_some, if_pos (decide_eq_true positive)] at noLeverage
    cases noLeverage
  | updated g _ size entryPrice leverage hasLeverage =>
    obtain ⟨stored, positive⟩ := Option.filter_eq_some_iff.mp hasLeverage
    have leverage_pos := of_decide_eq_true positive
    exact ⟨⟨_, rfl⟩, ⟨leverage, stored, leverage_pos⟩,
      fun _ => ⟨size, entryPrice, leverage, rfl, rfl, stored, leverage_pos, rfl⟩⟩

end Writes

namespace Store

/-- Every open position's margin field matches its size, entry price and leverage. -/
def MarginsMatch (st : Store) : Prop :=
  ∀ p, ∀ h ∈ st.hash p, h.status = some .OPEN → h.MarginMatches

/-- A close of an open position closes all of it, unless its entry price is 0,
and a reopening restores a size and entry price that the margin field is of. -/
def KeepsMargins (st : Store) : ScriptCall → Prop
  | .atomicClosePosition args => ∀ h ∈ st.hash args.positionId, h.status = some .OPEN →
      h.entryPrice = some 0 ∨ args.actualCloseSize (h.size.getD 0) = h.size.getD 0
  | .atomicReopenPosition p _ => ∀ h ∈ st.hash p, (∃ status ∈ h.status, status.Closed) →
      h.restoreSize ≠ 0 → h.MarginFits h.restoreSize (h.entryPrice.getD 0)
  | .atomicReopenPositionWithParams p _ params => ∀ h ∈ st.hash p,
      (∃ status ∈ h.status, status.Closed) → positiveOr params.size h.restoreSize ≠ 0 →
      h.MarginFits (positiveOr params.size h.restoreSize)
        (positiveOr params.entryPrice (h.entryPrice.getD 0))
  | .placeOrder _ _ => True
  | .atomicFillOrder _ _ _ => True
  | .atomicCancelOrder _ _ => True
  | .atomicUpdatePositionParams _ _ _ => True

instance (st : Store) : DecidablePred st.KeepsMargins
  | .atomicClosePosition args => inferInstanceAs (Decidable (∀ h ∈ st.hash args.positionId, _))
  | .atomicReopenPosition p _ => inferInstanceAs (Decidable (∀ h ∈ st.hash p, _))
  | .atomicReopenPositionWithParams p _ _ => inferInstanceAs (Decidable (∀ h ∈ st.hash p, _))
  | .placeOrder _ _ => inferInstanceAs (Decidable True)
  | .atomicFillOrder _ _ _ => inferInstanceAs (Decidable True)
  | .atomicCancelOrder _ _ => inferInstanceAs (Decidable True)
  | .atomicUpdatePositionParams _ _ _ => inferInstanceAs (Decidable True)

/-- The invariant: every hash has what its margin needs. -/
structure MarginsKept (st : Store) : Prop where
  hashesOnly : st.HashesOnly
  margined : ∀ p, ∀ h ∈ st.hash p, h.Margined

theorem MarginsKept.of_writes {before after : Store}
    {way : PositionId → Option PositionHash → PositionHash → Prop} (sound : before.MarginsKept)
    (writes : HashWrites way before after)
    (kept : ∀ q h, way q (before.hash q) h → (∀ g ∈ before.hash q, g.Margined) → h.Margined) :
    after.MarginsKept :=
  ⟨sound.hashesOnly.of_writes writes, writes.all kept sound.margined⟩

theorem call_marginsKept {before after : Store} {call : ScriptCall}
    (keeps : before.KeepsMargins call) (taken : before.call call = some after)
    (sound : before.MarginsKept) : after.MarginsKept := by
  cases call with
  | placeOrder o order =>
    cases taken
    exact ⟨sound.hashesOnly, sound.margined⟩
  | atomicFillOrder args existing old =>
    simp only [Store.call] at taken
    split_ifs at taken with reads
    cases taken
    rcases atomicFillOrder_writes existing old sound.hashesOnly reads.1 with
      same | ⟨_, _, _, writes⟩
    · rw [same]
      exact sound
    · exact sound.of_writes writes fun _ _ => FillWrite.margined
  | atomicCancelOrder o timestampMs =>
    cases taken
    unfold atomicCancelOrder
    split
    next => exact sound
    next =>
      split_ifs
      · exact sound
      · exact ⟨sound.hashesOnly, sound.margined⟩
  | atomicClosePosition args =>
    cases taken
    refine sound.of_writes (atomicClosePosition_writes before args) fun q h how initially => ?_
    have here : q = args.positionId := by
      generalize before.hash q = stored at how
      cases how <;> rfl
    subst here
    exact how.margined initially keeps
  | atomicReopenPosition p timestampMs =>
    cases taken
    refine sound.of_writes (atomicReopenPosition_writes before p timestampMs)
      fun q h how initially => ?_
    have here : q = p := by
      generalize before.hash q = stored at how
      cases how
      rfl
    subst here
    exact how.margined initially keeps
  | atomicReopenPositionWithParams p timestampMs params =>
    cases taken
    refine sound.of_writes (atomicReopenPositionWithParams_writes before p timestampMs params)
      fun q h how initially => ?_
    have here : q = p := by
      generalize before.hash q = stored at how
      cases how
      rfl
    subst here
    exact how.margined initially keeps
  | atomicUpdatePositionParams p timestampMs params =>
    cases taken
    exact sound.of_writes (atomicUpdatePositionParams_writes before p timestampMs params)
      fun _ _ => UpdateWrite.margined

/-- Where closes are full and reopenings restore what the margin is of, every
open position's margin field stays right. -/
theorem marginsMatch_of_run {calls : List ScriptCall} {st : Store}
    (run : GuardedRun Store.call KeepsMargins .empty calls st) : st.MarginsMatch := by
  have initially : Store.empty.MarginsKept := ⟨fun _ => rfl, fun p h stored => by cases stored⟩
  have sound := run.invariant initially fun _ _ _ keeps taken => call_marginsKept keeps taken
  exact fun p h stored => (sound.margined p h stored).matches_open

/-- Half of a position of 2 is closed. -/
def halfClosedCalls : List ScriptCall :=
  [.placeOrder 1 (nettingBuy 1 2 8 20),
   .atomicFillOrder ⟨1, 10, 2, 1000, .uuid 1, some 100⟩ [] [],
   .atomicClosePosition
     { positionId := .uuid 1, exitPrice := 12, closeSize := 1, timestampMs := 2000 }]

/-- The position of size 1 at 10 keeps the margin of size 2. -/
theorem not_marginsMatch_halfClosed :
    ∃ st, Run Store.call .empty halfClosedCalls st ∧ ¬ st.MarginsMatch := by
  have evaluates : (runGuarded Store.call (fun _ _ => True) .empty halfClosedCalls).map
      (fun st => (st.hash (.uuid 1)).map
        fun h => ([h.size, h.entryPrice, h.leverage, h.margin], h.status)) =
      some (some ([some 1, some 10, some 100, some (1 / 5)], some .OPEN)) := by decide +kernel
  obtain ⟨st, reached, reads⟩ := Option.map_eq_some_iff.mp evaluates
  refine ⟨st, .of_eval reached, fun marginsMatch => ?_⟩
  obtain ⟨h, stored, fields⟩ := Option.map_eq_some_iff.mp reads
  simp only [Prod.mk.injEq, List.cons.injEq] at fields
  obtain ⟨⟨isSize, isEntry, isLeverage, isMargin, -⟩, isOpen⟩ := fields
  obtain ⟨size, entryPrice, leverage, hasSize, hasEntry, hasLeverage, _, hasMargin⟩ :=
    marginsMatch _ h stored isOpen
  cases Option.some.inj (isSize.symm.trans hasSize)
  cases Option.some.inj (isEntry.symm.trans hasEntry)
  cases Option.some.inj (isLeverage.symm.trans hasLeverage)
  exact absurd (isMargin.symm.trans hasMargin) (by decide +kernel)

/-- A merge, a reduction, a full close, a reopening and new parameters. -/
def wholeClosedCalls : List ScriptCall :=
  [.placeOrder 1 (nettingBuy 1 2 8 20),
   .atomicFillOrder ⟨1, 10, 2, 1000, .uuid 1, some 100⟩ [] [],
   .placeOrder 2 (nettingBuy 2 1 8 20),
   .atomicFillOrder ⟨2, 13, 1, 2000, .uuid 2, some 100⟩ [.uuid 1] [],
   .placeOrder 3 { nettingBuy 3 1 8 20 with side := .SELL },
   .atomicFillOrder ⟨3, 14, 1, 3000, .uuid 3, some 100⟩ [.uuid 1] [],
   .atomicClosePosition
     { positionId := .uuid 1, exitPrice := 12, closeSize := 0, timestampMs := 4000 },
   .atomicReopenPosition (.uuid 1) 5000,
   .atomicUpdatePositionParams (.uuid 1) 6000 { size := some 3 }]

theorem marginsMatch_wholeClosed : ∃ st,
    GuardedRun Store.call KeepsMargins .empty wholeClosedCalls st ∧
    ((st.hash (.uuid 1)).bind (·.margin) = some (33 / 100)) ∧ st.MarginsMatch := by
  have evaluates : (runGuarded Store.call KeepsMargins .empty wholeClosedCalls).map
      (fun st => (st.hash (.uuid 1)).bind (·.margin)) = some (some (33 / 100)) := by decide +kernel
  obtain ⟨st, reached, margin⟩ := Option.map_eq_some_iff.mp evaluates
  have run : GuardedRun Store.call KeepsMargins .empty wholeClosedCalls st := .of_eval reached
  exact ⟨st, run, margin, marginsMatch_of_run run⟩

end Store

end TradingPlatform
