import TradingPlatform.Engine.FillBranches

namespace TradingPlatform

/-- The listed id stands for an open position of this side on the order's
symbol, kept as a hash or else in the older format. -/
def Order.finds (st : Store) (order : Order) (side : PositionSide) (p : PositionId) : Bool :=
  match st.hash p with
  | some h => decide (h.IsOpenOn order.symbol ∧ h.side = some side)
  | none => decide (∃ pos ∈ st.oldPositions p, pos.IsOpenOn order.symbol ∧ pos.side = side)

/-- A stop loss and a take profit on their way to the indexes. -/
abbrev LevelPair := JsonNum × JsonNum

def Order.levels (order : Order) : LevelPair := (order.stopLoss, order.takeProfit)

/-- An old position brings its own levels along when it moves to a hash. -/
def Order.mergeLevels (st : Store) (order : Order) (p : PositionId) : LevelPair :=
  match st.hash p, p with
  | some _, _ => order.levels
  | none, .uuid _ => order.levels
  | none, .legacy _ => (st.oldPositions p).elim order.levels fun pos =>
      (pos.stopLoss, pos.takeProfit)

def Order.oldLevels (st : Store) (order : Order) (p : PositionId) : LevelPair :=
  (st.oldPositions p).elim order.levels fun pos => (pos.stopLoss, pos.takeProfit)

/-- The id stands for an old position of this side, whether or not it has a hash. -/
def Order.findsOld (st : Store) (order : Order) (side : PositionSide) (p : PositionId) : Bool :=
  decide (∃ pos ∈ st.oldPositions p, pos.IsOpenOn order.symbol ∧ pos.side = side)

/-- The levels that a fill of this size writes to the indexes. A netting order
that reduces or closes an opposite position writes none. -/
def Order.indexedLevels (st : Store) (order : Order) (fillSize : ℚ)
    (existing old : List PositionId) : Option LevelPair :=
  if isNetting order.accountType then
    match existing.find? (order.finds st order.side.opens) with
    | some p => some (order.mergeLevels st p)
    | none =>
      match old.find? fun p => p ∉ existing ∧ order.findsOld st order.side.opens p with
      | some p => some (order.oldLevels st p)
      | none =>
        match order.openOn st order.side.opens.opposite existing with
        | some (_, h) => if fillSize ≤ h.size.getD 0 then none else some order.levels
        | none => some order.levels
  else some order.levels

/-- Neither level is the JSON `null`, which Lua takes for a level. -/
def LevelPair.Present (levels : LevelPair) : Prop := levels.1 ≠ .null ∧ levels.2 ≠ .null

instance (levels : LevelPair) : Decidable levels.Present := inferInstanceAs (Decidable (_ ∧ _))

/-- A run of commands that ends without a raise. -/
def Finishes {α : Type} (done : Except Store α) : Prop := ∃ after, done = .ok after

theorem Store.zaddLevels_finishes (st : Store) (s : Symbol) (p : PositionId) (sl tp : JsonNum) :
    Finishes (st.zaddLevels s p sl tp) ↔ LevelPair.Present (sl, tp) := by
  unfold Finishes LevelPair.Present
  cases sl <;> cases tp <;> simp [zaddLevels, zaddLevel, JsonNum.truthy, JsonNum.tonumber]

theorem finishes_paired {α : Type} (done : Except Store Store) (result : Store → α) :
    Finishes (match done with
      | .error st => .error st
      | .ok st => .ok (result st)) ↔ Finishes done := by
  unfold Finishes
  cases done <;> simp

namespace Fill
variable {st : Store} {fill : Fill} {p : PositionId} {h : PositionHash}
  {existing old : List PositionId}

theorem addTo_finishes : Finishes (addTo st fill p h) ↔ fill.order.levels.Present :=
  (finishes_paired _ _).trans (Store.zaddLevels_finishes ..)

theorem updateOld_finishes (pos : OldPosition) :
    Finishes (updateOld st fill p pos) ↔ fill.order.levels.Present :=
  (finishes_paired _ _).trans (Store.zaddLevels_finishes ..)

theorem migrate_finishes (pos : OldPosition) (leaveSet : Store → Store) :
    Finishes (migrate st fill pos leaveSet) ↔
      LevelPair.Present (pos.stopLoss, pos.takeProfit) :=
  (finishes_paired _ _).trans (Store.zaddLevels_finishes ..)

theorem create_finishes : Finishes (create st fill) ↔ fill.order.levels.Present :=
  (finishes_paired _ _).trans (Store.zaddLevels_finishes ..)

/-- Only a flip opens a position and writes levels. -/
theorem netAgainst_finishes : Finishes (netAgainst st fill p h) ↔
    (¬ fill.fillSize ≤ h.size.getD 0 → fill.order.levels.Present) := by
  unfold netAgainst
  dsimp only
  split_ifs with reduces closes
  · have within : fill.fillSize ≤ h.size.getD 0 := by linarith
    simp [Finishes, within]
  · have within : fill.fillSize ≤ h.size.getD 0 := by linarith
    simp [Finishes, within]
  · have exceeds : ¬ fill.fillSize ≤ h.size.getD 0 := by
      intro within
      rcases within.lt_or_eq with less | same
      · exact reduces (by linarith)
      · exact closes (by linarith)
    simp only [exceeds, not_false_eq_true, forall_const]
    exact (finishes_paired _ _).trans (Store.zaddLevels_finishes ..)

/-- A hedging order breaks off the loop and goes on to a new position. -/
theorem existingLoop_hedging (hedging : fill.netting = false) :
    existingLoop st fill existing = none := by
  induction existing with
  | nil => rfl
  | cons p rest ih =>
    simp only [existingLoop, hedging, ih]
    cases st.hash p with
    | some h => simp
    | none =>
      cases st.oldPositions p with
      | none => simp
      | some pos => simp

theorem oldLoop_hedging (hedging : fill.netting = false) :
    oldLoop st fill existing old = none := by
  induction old with
  | nil => rfl
  | cons p rest ih =>
    simp only [oldLoop, hedging, ih]
    cases st.oldPositions p with
    | none => simp
    | some pos => simp

variable (st existing old) in
/-- A netting order merges into the first position that its list finds. -/
theorem existingLoop_netting (netting : fill.netting = true) :
    match existing.find? (fill.order.finds st fill.newSide) with
    | none => existingLoop st fill existing = none
    | some p => ∃ done, existingLoop st fill existing = some done ∧
        (Finishes done ↔ (fill.order.mergeLevels st p).Present) := by
  induction existing with
  | nil => rfl
  | cons p rest ih =>
    rw [List.find?_cons]
    unfold existingLoop Order.finds
    cases stored : st.hash p with
    | some h =>
      by_cases matched : h.IsOpenOn fill.order.symbol ∧ h.side = some fill.newSide
      · simp only [matched, and_self, decide_true, if_true, netting]
        refine ⟨_, rfl, ?_⟩
        simp only [Order.mergeLevels, stored]
        exact addTo_finishes
      · simp only [matched, decide_false, if_false]
        exact ih
    | none =>
      cases before : st.oldPositions p with
      | none =>
        simp only [Option.mem_def, reduceCtorEq, false_and, exists_false, decide_false]
        exact ih
      | some pos =>
        by_cases matched : pos.IsOpenOn fill.order.symbol ∧ pos.side = fill.newSide
        · simp only [Option.mem_def, Option.some.injEq, exists_eq_left', matched, and_self,
            decide_true, if_true, netting]
          cases p with
          | legacy n =>
            refine ⟨_, rfl, ?_⟩
            simp only [Order.mergeLevels, stored, before, Option.elim_some]
            exact migrate_finishes pos _
          | uuid n =>
            refine ⟨_, rfl, ?_⟩
            simp only [Order.mergeLevels, stored]
            exact updateOld_finishes pos
        · simp only [Option.mem_def, Option.some.injEq, exists_eq_left', matched,
            decide_false, if_false]
          exact ih

variable (st existing old) in
theorem oldLoop_netting (netting : fill.netting = true) :
    match old.find? fun p => p ∉ existing ∧ fill.order.findsOld st fill.newSide p with
    | none => oldLoop st fill existing old = none
    | some p => ∃ done, oldLoop st fill existing old = some done ∧
        (Finishes done ↔ (fill.order.oldLevels st p).Present) := by
  induction old with
  | nil => rfl
  | cons p rest ih =>
    rw [List.find?_cons]
    unfold oldLoop Order.findsOld
    by_cases listed : p ∈ existing
    · simp only [listed, not_true, false_and, decide_false, if_true]
      exact ih
    · cases before : st.oldPositions p with
      | none =>
        simp only [Option.mem_def, reduceCtorEq, false_and, exists_false, decide_false,
          Bool.false_eq_true, and_false, listed, if_false]
        exact ih
      | some pos =>
        by_cases matched : pos.IsOpenOn fill.order.symbol ∧ pos.side = fill.newSide
        · simp only [Option.mem_def, Option.some.injEq, exists_eq_left', matched, and_self,
            decide_true, listed, not_false_eq_true, if_true, if_false, netting]
          have finishes : Finishes (migrate st fill pos (·.sremOld fill.order.userId p)) ↔ _ :=
            migrate_finishes pos _
          simpa [Order.oldLevels, before] using finishes
        · simp only [Option.mem_def, Option.some.injEq, exists_eq_left', matched,
            decide_false, Bool.false_eq_true, and_false, listed, if_false]
          exact ih

/-- The position part raises exactly when it comes to index a null level. -/
theorem applyToPositions_finishes : Finishes (applyToPositions st fill existing old) ↔
    ∀ levels ∈ fill.order.indexedLevels st fill.fillSize existing old, levels.Present := by
  unfold applyToPositions Order.indexedLevels
  cases netting : fill.netting with
  | false =>
    have hedging : isNetting fill.order.accountType = false := netting
    rw [existingLoop_hedging netting, oldLoop_hedging netting]
    simp only [hedging, Bool.false_eq_true, if_false, Option.mem_some_iff, forall_eq']
    exact create_finishes
  | true =>
    have isNet : isNetting fill.order.accountType = true := netting
    have merges := existingLoop_netting st existing netting
    have migrates := oldLoop_netting st existing old netting
    simp only [isNet, if_true]
    unfold newSide at merges migrates
    cases found : existing.find? (fill.order.finds st fill.order.side.opens) with
    | some p =>
      rw [found] at merges
      obtain ⟨done, taken, finishes⟩ := merges
      simpa [taken] using finishes
    | none =>
      rw [found] at merges
      rw [merges]
      cases foundOld : old.find? fun p => p ∉ existing ∧
          fill.order.findsOld st fill.order.side.opens p with
      | some p =>
        rw [foundOld] at migrates
        obtain ⟨done, taken, finishes⟩ := migrates
        simpa [taken, foundOld] using finishes
      | none =>
        rw [foundOld] at migrates
        rw [migrates, oppositeLoop_eq]
        unfold newSide
        cases fill.order.openOn st fill.order.side.opens.opposite existing with
        | none => simpa using create_finishes
        | some opposite =>
          obtain ⟨p, h⟩ := opposite
          have finishes : Finishes (netAgainst st fill p h) ↔ _ := netAgainst_finishes
          by_cases within : fill.fillSize ≤ h.size.getD 0
          · simpa [within] using finishes
          · simpa [within] using finishes

end Fill

/-- A call that does not succeed has written nothing, and the call succeeds
once its checks pass. -/
structure FillAtomic (st : Store) (args : FillArgs) (order : Order)
    (existing old : List PositionId) : Prop where
  error : ∀ after e, atomicFillOrder st args existing old = .error after e → after = st
  raised : ∀ after, atomicFillOrder st args existing old = .raised after → after = st
  completes : args.Pass order →
    ∃ after result, atomicFillOrder st args existing old = .success after result

theorem indexedLevels_markFilled (st : Store) (args : FillArgs) (order : Order) {el : ℚ}
    (leverage_pos : 0 < el) (existing old : List PositionId) :
    (Fill.ofArgs args order el leverage_pos).order.indexedLevels (st.markFilled args order)
      args.fillSize existing old = order.indexedLevels st args.fillSize existing old := rfl

section Atomic
variable {st : Store} {args : FillArgs} {order : Order} {existing old : List PositionId}

theorem FillArgs.Pass.accepted (pass : args.Pass order)
    (stored : st.orders args.orderId = some order) :
    ∃ el, FillAccepted st args order el := by
  obtain ⟨⟨el, leverage, positive⟩, pending, priceMet⟩ := pass
  exact ⟨el, leverage, positive, stored, pending, priceMet⟩

/-- The reply to a position part that has ended. -/
def replyTo (done : Except Store (Store × FillResult)) : ScriptOutcome FillError FillResult :=
  match done with
  | .error after => .raised after
  | .ok (after, result) => .success after result

/-- Past the checks the call ends as the position part does. -/
theorem FillAccepted.outcome {el : ℚ} (accepted : FillAccepted st args order el) :
    atomicFillOrder st args existing old = replyTo (Fill.applyToPositions
      (st.markFilled args order) (Fill.ofArgs args order el accepted.leverage_pos) existing old) := by
  unfold atomicFillOrder
  simp only [accepted.leverage, accepted.leverage_pos, accepted.stored, accepted.pending,
    accepted.priceMet, dif_pos, ne_eq, not_true_eq_false, if_false]
  generalize Fill.applyToPositions _ _ _ _ = done
  cases done with
  | error after => rfl
  | ok done => rfl

theorem FillAccepted.succeeds_iff {el : ℚ} (accepted : FillAccepted st args order el) :
    (∃ after result, atomicFillOrder st args existing old = .success after result) ↔
      ∀ levels ∈ order.indexedLevels st args.fillSize existing old, levels.Present := by
  rw [← indexedLevels_markFilled st args order accepted.leverage_pos existing old]
  have finishes : Finishes (Fill.applyToPositions (st.markFilled args order)
    (Fill.ofArgs args order el accepted.leverage_pos) existing old) ↔ _ :=
      Fill.applyToPositions_finishes
  refine Iff.trans ?_ finishes
  rw [accepted.outcome]
  unfold Finishes
  cases Fill.applyToPositions (st.markFilled args order)
    (Fill.ofArgs args order el accepted.leverage_pos) existing old with
  | error after => simp [replyTo]
  | ok done => simp [replyTo]

end Atomic

theorem fillAtomic_iff {st : Store} {args : FillArgs} {order : Order}
    {existing old : List PositionId} (stored : st.orders args.orderId = some order) :
    FillAtomic st args order existing old ↔ (args.Pass order →
      ∀ levels ∈ order.indexedLevels st args.fillSize existing old, levels.Present) := by
  constructor
  · intro atomic pass
    obtain ⟨el, accepted⟩ := pass.accepted stored
    exact accepted.succeeds_iff.mp (atomic.completes pass)
  · intro present
    have completes : args.Pass order →
        ∃ after result, atomicFillOrder st args existing old = .success after result := by
      intro pass
      obtain ⟨el, accepted⟩ := pass.accepted stored
      exact accepted.succeeds_iff.mpr (present pass)
    refine ⟨?_, ?_, completes⟩
    · intro after e failed
      rcases atomicFillOrder_cases st args existing old with ⟨e', unchanged⟩ | unchanged |
        ⟨other, el, accepted, outcome⟩
      · simp_all
      · simp_all
      · rw [outcome] at failed
        split at failed <;> cases failed
    · intro after failed
      rcases atomicFillOrder_cases st args existing old with ⟨e', unchanged⟩ | unchanged |
        ⟨other, el, accepted, outcome⟩
      · simp_all
      · simp_all
      · cases Option.some.inj (stored.symm.trans accepted.stored)
        obtain ⟨after', result, filled⟩ := completes accepted.pass
        rw [filled] at failed
        cases failed

namespace FillAtomicity

/-- A pending market order without levels, as the engine stores it. -/
def plainOrder : Order where
  id := 1
  userId := 7
  symbol := "EURUSD"
  side := .BUY
  orderType := .MARKET
  size := 2

def guardedOrder : Order := { plainOrder with stopLoss := .num 90, takeProfit := .num 120 }

def plainArgs : FillArgs where
  orderId := 1
  fillPrice := 100
  fillSize := 2
  timestampMs := 5
  positionUuid := .uuid 3
  effectiveLeverage := some 10

def storing (order : Order) : Store := (Store.empty.setOrder 1 order).zaddPending order.symbol 1

/-- Two levels that are numbers let the call finish. -/
theorem fillAtomic_guarded :
    FillAtomic (storing guardedOrder) plainArgs guardedOrder [] [] ∧
      plainArgs.Pass guardedOrder := by
  have stored : (storing guardedOrder).orders plainArgs.orderId = some guardedOrder := by
    decide +kernel
  exact ⟨(fillAtomic_iff stored).mpr fun _ => by decide +kernel, by decide +kernel⟩

/-- The null levels of an order without any leave it FILLED without a result. -/
theorem not_fillAtomic_plain : plainArgs.Pass plainOrder ∧
    ¬ FillAtomic (storing plainOrder) plainArgs plainOrder [] [] := by
  refine ⟨by decide +kernel, ?_⟩
  intro atomic
  have evaluates : (match atomicFillOrder (storing plainOrder) plainArgs [] [] with
      | .raised after => (after.orders 1).map (·.status)
      | _ => none) = some .FILLED := by decide +kernel
  cases outcome : atomicFillOrder (storing plainOrder) plainArgs [] [] with
  | success after result => simp [outcome] at evaluates
  | error after e => simp [outcome] at evaluates
  | raised after =>
    have unchanged := atomic.raised after outcome
    simp only [outcome, unchanged] at evaluates
    have before : ((storing plainOrder).orders 1).map (·.status) = some .PENDING := by
      decide +kernel
    rw [before] at evaluates
    cases evaluates

end FillAtomicity

end TradingPlatform
