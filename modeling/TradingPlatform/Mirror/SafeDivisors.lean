import TradingPlatform.Mirror.PositionMirror

namespace TradingPlatform

open StepRuns

/-- The numbers of a hash as `Decimal::from_str_exact` reads their texts,
which is `none` for a text with an exponent. -/
abbrev DecimalReading := ℚ → Option ℚ

section Publish
variable (read : DecimalReading)

def PositionHash.sizeRead (h : PositionHash) : ℚ := (h.size.bind read).getD 0

def PositionHash.avgPriceRead (h : PositionHash) : ℚ :=
  ((h.avgPrice.orElse fun _ => h.entryPrice).bind read).getD 0

/-- `publish_position_updated` with the texts of the hash read as decimals:
what cannot be read counts as zero, except for the leverage. -/
def publishPositionUpdatedRead (st : Store) (p : PositionId)
    (statusOverride : Option PositionStatus) : Option PositionUpdatedEvent :=
  match st.hash p with
  | none => none
  | some h =>
    match h.userId, h.leverage.bind read with
    | some userId, some leverage => some
        { positionId := p
          userId := userId
          symbol := h.symbol.getD ""
          side := h.side.getD .LONG
          size := h.sizeRead read
          avgPrice := h.avgPriceRead read
          leverage := leverage
          unrealizedPnl := (h.unrealizedPnl.bind read).getD 0
          realizedPnl := (h.realizedPnl.bind read).getD 0
          sl := ((h.sl.bind LevelText.tonumber).bind read).filter (· ≠ 0)
          tp := ((h.tp.bind LevelText.tonumber).bind read).filter (· ≠ 0)
          status := (statusOverride.orElse fun _ => h.status).getD .OPEN
          marginFromCash := (h.marginFromCash.bind read).getD 0
          marginFromBonus := (h.marginFromBonus.bind read).getD 0 }
    | _, _ => none

/-- Where every text is read, the event is the one of the exact numbers. -/
theorem publishPositionUpdatedRead_some :
    publishPositionUpdatedRead some = publishPositionUpdated := by
  funext st p statusOverride
  unfold publishPositionUpdatedRead publishPositionUpdated PositionHash.sizeRead
    PositionHash.avgPriceRead
  cases st.hash p with
  | none => rfl
  | some h =>
    dsimp only
    cases h.userId with
    | none => rfl
    | some userId => cases h.leverage <;> simp [Option.bind_fun_some]

/-- A size and a price that the percentage can be computed from. -/
def DivisorFor (size price : ℚ) : Prop := (read size).getD 0 ≠ 0 ∨ (read price).getD 0 ≤ 0

instance (size price : ℚ) : Decidable (DivisorFor read size price) :=
  inferInstanceAs (Decidable (_ ∨ _))

/-- The event of this hash can be synchronised without a division by zero. -/
def PositionHash.Divisible (h : PositionHash) : Prop := h.sizeRead read ≠ 0 ∨ h.avgPriceRead read ≤ 0

def Store.Divisible (st : Store) : Prop := ∀ p, ∀ h ∈ st.hash p, h.Divisible read

end Publish

/-- The synchronisation divides by zero only for a percentage without a divisor:
the leverage is checked before anything is divided by it. -/
theorem syncPositionToDatabase_divides_iff {symbols : Finset Symbol} {row : Option PositionRow}
    {e : PositionUpdatedEvent} : syncPositionToDatabase symbols row e = .error .divisionByZero ↔
      e.symbol ∈ symbols ∧ 0 < e.leverage ∧ ¬ e.PercentDefined := by
  rw [← PositionUpdatedEvent.pnlPercent_isSome]
  unfold syncPositionToDatabase
  by_cases known : e.symbol ∈ symbols
  · by_cases positive : 0 < e.leverage
    · cases e.pnlPercent with
      | none => simp [known, positive]
      | some pnlPercent => cases row <;> simp [known, not_le.mpr positive]
    · simp [known, positive, not_lt.mp positive]
  · simp [known]

section Reads
variable {read : DecimalReading} {st : Store} {p : PositionId} {h : PositionHash}

theorem Store.Divisible.percentDefined (divisible : st.Divisible read)
    {statusOverride : Option PositionStatus} {e : PositionUpdatedEvent}
    (published : publishPositionUpdatedRead read st p statusOverride = some e) :
    e.PercentDefined := by
  unfold publishPositionUpdatedRead at published
  split at published
  next => cases published
  next h stored =>
    split at published
    next userId leverage _ _ =>
      cases published
      exact (divisible p h stored).symm
    next => cases published

theorem PositionHash.divisible_of {size price : ℚ} (hasSize : h.size = some size)
    (hasPrice : h.avgPrice = some price) (divisor : DivisorFor read size price) :
    h.Divisible read := by
  unfold Divisible sizeRead avgPriceRead
  rw [hasSize, hasPrice]
  exact divisor

/-- A hash that keeps its average price, with a new size. -/
theorem PositionHash.Divisible.resize {g : PositionHash} {size : ℚ}
    (hasSize : g.size = some size) (avgPrice : g.avgPrice = h.avgPrice)
    (entryPrice : g.entryPrice = h.entryPrice)
    (divisor : (read size).getD 0 ≠ 0 ∨ h.avgPriceRead read ≤ 0) : g.Divisible read := by
  unfold Divisible sizeRead avgPriceRead
  rw [hasSize, avgPrice, entryPrice]
  exact divisor

theorem Store.Divisible.hset (divisible : st.Divisible read)
    {write : PositionHash → PositionHash} (written : (write ((st.hash p).getD {})).Divisible read) :
    (st.hset p write).Divisible read := by
  intro q g stored
  rw [Store.hash_hset] at stored
  split_ifs at stored with same
  · cases stored
    exact written
  · exact divisible q g stored

theorem Store.Divisible.of_sameButIndex {after : Store} (divisible : st.Divisible read)
    (frame : st.SameButIndex after) : after.Divisible read := by
  intro q g stored
  rw [frame.hash_eq] at stored
  exact divisible q g stored

end Reads

namespace Fill
variable {read : DecimalReading} {st : Store} {fill : Fill} {p : PositionId} {h : PositionHash}

theorem addTo_divisible (divisible : st.Divisible read)
    (divisor : DivisorFor read (fill.totalSize (h.size.getD 0))
      (fill.newEntryPrice (h.size.getD 0) (h.entryPrice.getD 0))) :
    (storeLeft Prod.fst (addTo st fill p h)).Divisible read :=
  (divisible.hset (PositionHash.divisible_of rfl rfl divisor)).of_sameButIndex
    (addTo_sameButIndex st fill p h)

theorem openPosition_divisible {size leverage : ℚ} (divisible : st.Divisible read)
    (divisor : DivisorFor read size fill.fillPrice) :
    (storeLeft id (openPosition st fill size leverage)).Divisible read := by
  have opened : (opened st fill size leverage).Divisible read := by
    have written : (st.hset fill.positionUuid (fill.openHash size leverage)).Divisible read :=
      divisible.hset (PositionHash.divisible_of rfl rfl divisor)
    exact written
  exact opened.of_sameButIndex (openPosition_sameButIndex st fill size leverage)

theorem closeNetted_divisible (divisible : st.Divisible read) (stored : st.hash p = some h)
    (divisor : (read 0).getD 0 ≠ 0 ∨ h.avgPriceRead read ≤ 0) (newRealized : ℚ) :
    (closeNetted st fill p newRealized).Divisible read := by
  have closed : (st.hset p (fill.closedHash newRealized)).Divisible read := by
    refine divisible.hset ?_
    rw [stored]
    exact PositionHash.Divisible.resize (h := h) rfl rfl rfl divisor
  exact closed

/-- A reduction leaves what remains, a flip opens what it exceeds by. -/
theorem netAgainst_divisible (divisible : st.Divisible read) (stored : st.hash p = some h)
    (remains : (read (max (h.size.getD 0 - fill.fillSize) 0)).getD 0 ≠ 0 ∨
      h.avgPriceRead read ≤ 0)
    (exceeds : h.size.getD 0 - fill.fillSize < 0 →
      DivisorFor read (-(h.size.getD 0 - fill.fillSize)) fill.fillPrice) :
    (storeLeft Prod.fst (netAgainst st fill p h)).Divisible read := by
  unfold netAgainst
  dsimp only
  split_ifs with positive zero
  · rw [max_eq_left positive.le] at remains
    have reduced (newRealized : ℚ) : (st.hset p (fill.reducedHash (h.size.getD 0 - fill.fillSize)
        (h.entryPrice.getD 0) (fill.posLevOrFill h.leverage .absent) newRealized)).Divisible
          read := by
      refine divisible.hset ?_
      rw [stored]
      exact PositionHash.Divisible.resize (h := h) rfl rfl rfl remains
    exact (reduced _).of_sameButIndex (Store.sameButIndex_zadd ..)
  · rw [max_eq_right (not_lt.mp positive)] at remains
    exact closeNetted_divisible divisible stored remains _
  · rw [max_eq_right (not_lt.mp positive)] at remains
    have negative := lt_of_le_of_ne (not_lt.mp positive) zero
    refine (congrArg (Store.Divisible read) (storeLeft_paired _ _)).mpr ?_
    exact openPosition_divisible (closeNetted_divisible divisible stored remains _)
      (exceeds negative)

end Fill

namespace PositionMirror

/-- What a close leaves of an open position has a size, or no price. -/
def LeavesDivisor (read : DecimalReading) (st : Store) (args : CloseArgs) : Prop :=
  ∀ h ∈ st.hash args.positionId, h.status = some .OPEN →
    (read (h.size.getD 0 - args.actualCloseSize (h.size.getD 0))).getD 0 ≠ 0 ∨
      h.avgPriceRead read ≤ 0

instance (read : DecimalReading) (st : Store) (args : CloseArgs) :
    Decidable (LeavesDivisor read st args) :=
  inferInstanceAs (Decidable (∀ h ∈ st.hash args.positionId, _))

/-- So do the positions that a fill writes: a merged or an opened one, and an
opposite one that is reduced, but none that is closed. -/
def TargetDivisor (read : DecimalReading) (args : FillArgs) : Target → Prop
  | .merge _ h =>
    let posSize := h.size.getD 0
    DivisorFor read (posSize + args.fillSize)
      ((h.entryPrice.getD 0 * posSize + args.fillPrice * args.fillSize) / (posSize + args.fillSize))
  | .net _ h =>
    let newSize := h.size.getD 0 - args.fillSize
    ((read (max newSize 0)).getD 0 ≠ 0 ∨ h.avgPriceRead read ≤ 0) ∧
      (newSize < 0 → DivisorFor read (-newSize) args.fillPrice)
  | .fresh => DivisorFor read args.fillSize args.fillPrice

instance (read : DecimalReading) (args : FillArgs) : DecidablePred (TargetDivisor read args)
  | .merge _ _ => inferInstanceAs (Decidable (DivisorFor read _ _))
  | .net _ _ => inferInstanceAs (Decidable ((_ ∨ _) ∧ (_ → DivisorFor read _ _)))
  | .fresh => inferInstanceAs (Decidable (DivisorFor read _ _))

def FillsDivisor (read : DecimalReading) (st : Store) (args : FillArgs) (order : Order)
    (existing : List PositionId) : Prop := TargetDivisor read args (order.target st existing)

instance (read : DecimalReading) (st : Store) (args : FillArgs) (order : Order)
    (existing : List PositionId) : Decidable (FillsDivisor read st args order existing) :=
  inferInstanceAs (Decidable (TargetDivisor read args _))

/-- No step writes a hash whose percentage has no divisor. Every close of a
whole position that has a price does. -/
def KeepsDivisors (read : DecimalReading) (m : PositionMirror) : MirrorAction → Prop
  | .fill args existing _ _ => ∀ order ∈ m.store.orders args.orderId, args.Pass order →
      FillsDivisor read m.store args order existing
  | .close _ args => LeavesDivisor read m.store args
  | .closeAll p exitPrice liquidated timestampMs => LeavesDivisor read m.store
      { positionId := p, exitPrice := exitPrice, closeSize := 0, timestampMs := timestampMs
        liquidated := liquidated }
  | .trigger p exitPrice timestampMs => LeavesDivisor read m.store
      { positionId := p, exitPrice := exitPrice, closeSize := 0, timestampMs := timestampMs }
  | .reopen p _ => ∀ h ∈ m.store.hash p, DivisorFor read h.restoreSize (h.entryPrice.getD 0)
  | .reopenWithParams p _ params => ∀ h ∈ m.store.hash p,
      DivisorFor read (positiveOr params.size h.restoreSize)
        (positiveOr params.entryPrice (h.entryPrice.getD 0))
  | .updateParams p _ params => ∀ h ∈ m.store.hash p, h.status = some .OPEN →
      DivisorFor read (h.updatedSize params) (h.updatedEntry params)
  | .placeOrder _ _ => True
  | .deliver => True

instance (read : DecimalReading) (m : PositionMirror) : DecidablePred (m.KeepsDivisors read)
  | .fill args _ _ _ => inferInstanceAs (Decidable (∀ order ∈ m.store.orders args.orderId, _))
  | .close _ args => inferInstanceAs (Decidable (LeavesDivisor read m.store args))
  | .closeAll _ _ _ _ => inferInstanceAs (Decidable (LeavesDivisor read m.store _))
  | .trigger _ _ _ => inferInstanceAs (Decidable (LeavesDivisor read m.store _))
  | .reopen p _ => inferInstanceAs (Decidable (∀ h ∈ m.store.hash p, _))
  | .reopenWithParams p _ _ => inferInstanceAs (Decidable (∀ h ∈ m.store.hash p, _))
  | .updateParams p _ _ => inferInstanceAs (Decidable (∀ h ∈ m.store.hash p, _))
  | .placeOrder _ _ => inferInstanceAs (Decidable True)
  | .deliver => inferInstanceAs (Decidable True)

/-- Every hash is divisible, and all positions are hashes. -/
structure DivisorsKept (read : DecimalReading) (st : Store) : Prop where
  hashesOnly : st.HashesOnly
  divisible : st.Divisible read

section Scripts
variable {read : DecimalReading} {st : Store} {m after : PositionMirror}

theorem DivisorsKept.of_writes {next : Store} (kept : DivisorsKept read st)
    (writes : HashWrites (fun q stored h => stored = st.hash q → h.Divisible read) st next) :
    DivisorsKept read next where
  hashesOnly := kept.hashesOnly.of_writes writes
  divisible := writes.all (fun _ _ how _ => how rfl) kept.divisible

theorem DivisorsKept.close {args : CloseArgs} (kept : DivisorsKept read st)
    (leaves : LeavesDivisor read st args) :
    DivisorsKept read (atomicClosePosition st args).store := by
  refine kept.of_writes (atomicClosePosition_ways st args ?_ ?_)
  · intro h isOpen whole found
    have divisor := leaves h found.symm isOpen
    rw [whole, sub_self] at divisor
    exact PositionHash.Divisible.resize rfl rfl rfl divisor
  · intro h isOpen _ found
    exact PositionHash.Divisible.resize rfl rfl rfl (leaves h found.symm isOpen)

theorem DivisorsKept.update {p : PositionId} {params : ParamOverrides} (timestampMs : Millis)
    (kept : DivisorsKept read st) (leaves : ∀ h ∈ st.hash p, h.status = some .OPEN →
      DivisorFor read (h.updatedSize params) (h.updatedEntry params)) :
    DivisorsKept read (atomicUpdatePositionParams st p timestampMs params).store := by
  refine kept.of_writes (atomicUpdatePositionParams_ways st p timestampMs params ?_ ?_)
  · intro h isOpen _ found
    exact PositionHash.divisible_of rfl rfl (leaves h found.symm isOpen)
  · intro h leverage isOpen _ found
    exact PositionHash.divisible_of rfl rfl (leaves h found.symm isOpen)

theorem DivisorsKept.reopen {p : PositionId} (timestampMs : Millis) (kept : DivisorsKept read st)
    (leaves : ∀ h ∈ st.hash p, DivisorFor read h.restoreSize (h.entryPrice.getD 0)) :
    DivisorsKept read (atomicReopenPosition st p timestampMs).store := by
  have writes := atomicReopenPosition_writes st p timestampMs
  refine ⟨kept.hashesOnly.of_writes writes, writes.all (fun q h how _ => ?_) kept.divisible⟩
  generalize found : st.hash q = stored at how
  cases how with
  | reopened g closed restores => exact PositionHash.divisible_of rfl rfl (leaves g found)

theorem DivisorsKept.reopenWithParams {p : PositionId} {params : ParamOverrides}
    (timestampMs : Millis) (kept : DivisorsKept read st) (leaves : ∀ h ∈ st.hash p,
      DivisorFor read (positiveOr params.size h.restoreSize)
        (positiveOr params.entryPrice (h.entryPrice.getD 0))) :
    DivisorsKept read (atomicReopenPositionWithParams st p timestampMs params).store := by
  have writes := atomicReopenPositionWithParams_writes st p timestampMs params
  refine ⟨kept.hashesOnly.of_writes writes, writes.all (fun q h how _ => ?_) kept.divisible⟩
  generalize found : st.hash q = stored at how
  cases how with
  | reopened g closed restores => exact PositionHash.divisible_of rfl rfl (leaves g found)

theorem DivisorsKept.fill {args : FillArgs} {existing old : List PositionId}
    (kept : DivisorsKept read st) (fresh : st.hash args.positionUuid = none)
    (fills : ∀ order ∈ st.orders args.orderId, args.Pass order →
      FillsDivisor read st args order existing) :
    DivisorsKept read (atomicFillOrder st args existing old).store := by
  rcases atomicFillOrder_left st args existing old with same | ⟨order, el, accepted, left⟩
  · rw [same]
    exact kept
  · have marked : DivisorsKept read (st.markFilled args order) := ⟨kept.hashesOnly, kept.divisible⟩
    have divisor := fills order accepted.stored accepted.pass
    have writes := Fill.applyToPositions_writes (fillWays_fillWrite
      (Fill.ofArgs args order el accepted.leverage_pos)) existing old marked.hashesOnly fresh
    refine ⟨?_, ?_⟩
    · rw [left]
      exact marked.hashesOnly.of_writes writes
    · rw [left, Fill.applyToPositions_eq marked.hashesOnly]
      have sameTarget : (Fill.ofArgs args order el accepted.leverage_pos).order.target
        (st.markFilled args order) existing = order.target st existing := rfl
      rw [sameTarget]
      unfold FillsDivisor at divisor
      cases target : order.target st existing with
      | merge p h =>
        rw [target] at divisor
        exact Fill.addTo_divisible marked.divisible divisor
      | net p h =>
        rw [target] at divisor
        exact Fill.netAgainst_divisible marked.divisible (Order.target_net target).2.1 divisor.1
          divisor.2
      | fresh =>
        rw [target] at divisor
        refine (congrArg (Store.Divisible read) (Fill.storeLeft_paired _ _)).mpr ?_
        exact Fill.openPosition_divisible marked.divisible divisor

theorem store_publish (m : PositionMirror) (p : PositionId)
    (statusOverride : Option PositionStatus) : (m.publish p statusOverride).store = m.store := by
  unfold publish
  split <;> rfl

theorem store_publishFill (m : PositionMirror) (result : FillResult) :
    (m.publishFill result).store = m.store := by
  unfold publishFill
  cases result.closedPositionId <;> cases result.positionId <;> simp [store_publish]

theorem store_publishAfter {ε α : Type} (m : PositionMirror) (outcome : ScriptOutcome ε α)
    (p : PositionId) (statusOverride : Option PositionStatus) :
    (m.publishAfter outcome p statusOverride).store = outcome.store := by
  unfold publishAfter
  cases outcome with
  | success st result => exact store_publish ..
  | error st e => rfl
  | raised st => rfl

theorem store_fill (m : PositionMirror) (args : FillArgs) (existing old ids : List PositionId) :
    (m.fill args existing old ids).store = (atomicFillOrder m.store args existing old).store := by
  unfold PositionMirror.fill
  cases atomicFillOrder m.store args existing old with
  | success st result => exact store_publishFill ..
  | raised st => rfl
  | error st e =>
    split
    next found => cases found
    next found =>
      cases found
      split
      next => exact store_publish ..
      next => rfl
    next found => cases found; rfl
    next found => cases found

theorem DivisorsKept.step {symbols : Finset Symbol} {action : MirrorAction}
    (kept : DivisorsKept read m.store) (keeps : m.KeepsDivisors read action)
    (taken : m.step symbols action = some after) : DivisorsKept read after.store := by
  cases action with
  | placeOrder o order =>
    cases taken
    exact ⟨kept.hashesOnly, kept.divisible⟩
  | fill args existing old ids =>
    simp only [PositionMirror.step] at taken
    split_ifs at taken with enabled
    cases taken
    rw [store_fill]
    exact kept.fill enabled.1 keeps
  | close userId args =>
    simp only [PositionMirror.step] at taken
    split_ifs at taken
    · cases taken
      rw [store_publishAfter]
      exact kept.close keeps
    · cases taken
      exact kept
  | closeAll p exitPrice liquidated timestampMs =>
    cases taken
    rw [store_publishAfter]
    exact kept.close keeps
  | trigger p exitPrice timestampMs =>
    cases taken
    rw [store_publishAfter]
    exact kept.close keeps
  | reopen p timestampMs =>
    cases taken
    rw [store_publishAfter]
    exact kept.reopen timestampMs keeps
  | reopenWithParams p timestampMs params =>
    cases taken
    rw [store_publishAfter]
    exact kept.reopenWithParams timestampMs keeps
  | updateParams p timestampMs params =>
    cases taken
    rw [store_publishAfter]
    exact kept.update timestampMs keeps
  | deliver =>
    have sameStore : after.store = m.store := by
      simp only [PositionMirror.step, PositionMirror.deliver] at taken
      split at taken
      next => cases taken
      next => cases taken; rfl
    rw [sameStore]
    exact kept

/-- The engine's store in a run that keeps the divisors. -/
def Divided (read : DecimalReading) (m : PositionMirror) : Prop := DivisorsKept read m.store

theorem divided_start : start.Divided read where
  hashesOnly _ := rfl
  divisible p h stored := by cases stored

end Scripts

/-- No update that the engine can publish from this state makes the listener
divide by zero. -/
def DividesSafely (read : DecimalReading) (symbols : Finset Symbol) (m : PositionMirror) : Prop :=
  ∀ p statusOverride e row, publishPositionUpdatedRead read m.store p statusOverride = some e →
    syncPositionToDatabase symbols row e ≠ .error .divisionByZero

theorem dividesSafely_of_run {read : DecimalReading} {symbols : Finset Symbol}
    {actions : List MirrorAction} {m : PositionMirror}
    (run : GuardedRun (step symbols) (KeepsDivisors read) start actions m) :
    m.DividesSafely read symbols := by
  have kept : m.Divided read :=
    run.invariant divided_start fun _ _ _ keeps taken kept => DivisorsKept.step kept keeps taken
  intro p statusOverride e row published
  have percent := kept.divisible.percentDefined published
  exact fun fails => (syncPositionToDatabase_divides_iff.mp fails).2.2 percent

/-- A buy of 2 that a close command closes for half, and the parameters of
the rest updated. -/
def dividedActions : List MirrorAction :=
  [.placeOrder 1 (mirroredOrder 1 .BUY 2),
   .fill ⟨1, 10, 2, 1000, .uuid 1, some 100⟩ [] [] [],
   .close 7 { positionId := .uuid 1, exitPrice := 12, closeSize := 1, timestampMs := 2000 },
   .updateParams (.uuid 1) 3000 { size := some 5 }]

theorem dividesSafely_dividedActions : ∃ m,
    GuardedRun (step {"EURUSD"}) (KeepsDivisors some) start dividedActions m ∧
    (m.store.hash (.uuid 1)).map (·.size) = some (some 5) ∧ m.DividesSafely some {"EURUSD"} := by
  have evaluates : (runGuarded (step {"EURUSD"}) (KeepsDivisors some) start
      dividedActions).map (fun m => (m.store.hash (.uuid 1)).map (·.size)) =
      some (some (some 5)) := by decide +kernel
  obtain ⟨m, reached, size⟩ := Option.map_eq_some_iff.mp evaluates
  have run : GuardedRun (step {"EURUSD"}) (KeepsDivisors some) start dividedActions m :=
    .of_eval reached
  exact ⟨m, run, size, dividesSafely_of_run run⟩

/-- A buy of 2 that is closed as a whole. -/
def closedActions : List MirrorAction :=
  [.placeOrder 1 (mirroredOrder 1 .BUY 2),
   .fill ⟨1, 10, 2, 1000, .uuid 1, some 100⟩ [] [] [],
   .closeAll (.uuid 1) 12 false 2000]

theorem not_dividesSafely_closedActions : ∃ m, Run (step {"EURUSD"}) start closedActions m ∧
    ¬ m.DividesSafely some {"EURUSD"} := by
  have evaluates : (runGuarded (step {"EURUSD"}) (fun _ _ => True) start closedActions).map
      (fun m => (publishPositionUpdatedRead some m.store (.uuid 1) (some .CLOSED)).map fun e =>
        syncPositionToDatabase {"EURUSD"} none e) = some (some (.error .divisionByZero)) := by
    decide +kernel
  obtain ⟨m, reached, reads⟩ := Option.map_eq_some_iff.mp evaluates
  obtain ⟨e, published, fails⟩ := Option.map_eq_some_iff.mp reads
  exact ⟨m, .of_eval reached, fun safe => safe _ _ e none published fails⟩

end PositionMirror

end TradingPlatform
