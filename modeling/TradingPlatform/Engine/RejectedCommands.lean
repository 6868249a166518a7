import TradingPlatform.Engine.ReopenScripts

namespace TradingPlatform

/-- A call of a script that can turn its command down. -/
inductive PositionCommand
  | cancelOrder (o : OrderId) (timestampMs : Millis)
  | closePosition (args : CloseArgs)
  | reopenPosition (p : PositionId) (timestampMs : Millis)
  | reopenPositionWithParams (p : PositionId) (timestampMs : Millis) (params : ParamOverrides)
  | updatePositionParams (p : PositionId) (timestampMs : Millis) (params : ParamOverrides)

/-- The store behind a reply with an `error` field. -/
def ScriptOutcome.refused {ε α : Type} : ScriptOutcome ε α → Option Store
  | .success .. => none
  | .error st _ => some st
  | .raised _ => none

/-- The store the call leaves when it replies `0` or an object with an `error`. -/
def Store.refusedBy (st : Store) : PositionCommand → Option Store
  | .cancelOrder o timestampMs =>
    let reply := atomicCancelOrder st o timestampMs
    if reply.1 then none else some reply.2
  | .closePosition args => (atomicClosePosition st args).refused
  | .reopenPosition p timestampMs => (atomicReopenPosition st p timestampMs).refused
  | .reopenPositionWithParams p timestampMs params =>
    (atomicReopenPositionWithParams st p timestampMs params).refused
  | .updatePositionParams p timestampMs params =>
    (atomicUpdatePositionParams st p timestampMs params).refused

/-- Every key holds the same in both stores. -/
structure Store.SameContent (before after : Store) : Prop where
  orders : ∀ o, after.orders o = before.orders o
  pending : after.pending = before.pending
  hash : ∀ p, after.hash p = before.hash p
  oldPositions : after.oldPositions = before.oldPositions
  userPositions : after.userPositions = before.userPositions
  oldUserPositions : after.oldUserPositions = before.oldUserPositions
  score : ∀ k s p, after.score k s p = before.score k s p

theorem Store.SameContent.refl (st : Store) : st.SameContent st :=
  ⟨fun _ => rfl, rfl, fun _ => rfl, rfl, rfl, rfl, fun _ _ _ => rfl⟩

/-- A refused command leaves Redis untouched. -/
def Store.RefusedUntouched (st : Store) (command : PositionCommand) : Prop :=
  ∀ after ∈ st.refusedBy command, st.SameContent after

/-- The update script starts on this hash and gives up at its leverage check. -/
structure PositionHash.Unleveraged (h : PositionHash) : Prop where
  isOpen : h.status = some .OPEN
  symbol : h.symbol ≠ none
  userId : h.userId ≠ none
  leverage : ∀ leverage ∈ h.leverage, leverage ≤ 0

/-- The hash holds what the update would write before its leverage check. -/
structure PositionHash.AtParams (h : PositionHash) (timestampMs : Millis)
    (params : ParamOverrides) : Prop where
  size : h.size = some (positiveOr params.size (h.size.getD 0))
  entryPrice : h.entryPrice = some (positiveOr params.entryPrice h.entryOrAvg)
  avgPrice : h.avgPrice = h.entryPrice
  updatedAt : h.updatedAt = some timestampMs

/-- The command is no update, or an update that the hash's leverage lets pass
or that has nothing to write. -/
def PositionCommand.WritesNothing (st : Store) : PositionCommand → Prop
  | .updatePositionParams p timestampMs params =>
    ∀ h ∈ st.hash p, h.Unleveraged → h.AtParams timestampMs params
  | _ => True

section Refusals
variable {st after : Store}

theorem atomicCancelOrder_refused {o : OrderId} {timestampMs : Millis}
    (refused : (atomicCancelOrder st o timestampMs).1 = false) :
    (atomicCancelOrder st o timestampMs).2 = st := by
  unfold atomicCancelOrder at refused ⊢
  cases stored : st.orders o with
  | none => rfl
  | some order =>
    simp only [stored] at refused ⊢
    by_cases isPending : order.status = .PENDING
    · simp [isPending] at refused
    · simp [isPending]

theorem atomicClosePosition_refused {args : CloseArgs}
    (refused : (atomicClosePosition st args).refused = some after) : after = st := by
  cases outcome : atomicClosePosition st args with
  | success left result =>
    rw [outcome] at refused
    cases refused
  | raised left =>
    rw [outcome] at refused
    cases refused
  | error left e =>
    rw [outcome] at refused
    have same : left = after := Option.some.inj refused
    rw [← same]
    exact atomicClosePosition_error outcome

theorem atomicReopenPosition_refused {p : PositionId} {timestampMs : Millis}
    (refused : (atomicReopenPosition st p timestampMs).refused = some after) : after = st := by
  unfold atomicReopenPosition at refused
  cases stored : st.hash p with
  | none =>
    rw [stored] at refused
    exact (Option.some.inj refused).symm
  | some h =>
    simp only [stored] at refused
    split_ifs at refused
    · exact (Option.some.inj refused).symm
    · split at refused
      next =>
        split at refused
        next => cases refused
        next => cases refused
      next => exact (Option.some.inj refused).symm
    · exact (Option.some.inj refused).symm

theorem atomicReopenPositionWithParams_refused {p : PositionId} {timestampMs : Millis}
    {params : ParamOverrides}
    (refused : (atomicReopenPositionWithParams st p timestampMs params).refused = some after) :
    after = st := by
  unfold atomicReopenPositionWithParams at refused
  cases stored : st.hash p with
  | none =>
    rw [stored] at refused
    exact (Option.some.inj refused).symm
  | some h =>
    simp only [stored] at refused
    split_ifs at refused
    · exact (Option.some.inj refused).symm
    · split at refused
      next => cases refused
      next => exact (Option.some.inj refused).symm
    · exact (Option.some.inj refused).symm

end Refusals

section Updates
variable {st : Store} {p : PositionId} {timestampMs : Millis} {params : ParamOverrides}
  {h : PositionHash}

theorem PositionHash.filter_leverage_eq_none :
    h.leverage.filter (0 < ·) = none ↔ ∀ leverage ∈ h.leverage, leverage ≤ 0 := by
  simp [Option.filter_eq_none_iff]

/-- The resize is the update of an unleveraged hash; any other refusal comes
before the first write. -/
theorem atomicUpdatePositionParams_refused {after : Store}
    (refused : (atomicUpdatePositionParams st p timestampMs params).refused = some after) :
    after = st ∨ ∃ h, st.hash p = some h ∧ h.Unleveraged ∧
      after = st.hset p (·.resized timestampMs (positiveOr params.size (h.size.getD 0))
        (positiveOr params.entryPrice h.entryOrAvg)) := by
  unfold atomicUpdatePositionParams at refused
  cases stored : st.hash p with
  | none =>
    rw [stored] at refused
    exact .inl (Option.some.inj refused).symm
  | some h =>
    simp only [stored] at refused
    split_ifs at refused with shut
    · exact .inl (Option.some.inj refused).symm
    · have isOpen : h.status = some .OPEN := not_not.mp shut
      split at refused
      next symbol u hasSymbol owner =>
        split at refused
        next noLeverage =>
          refine .inr ⟨h, rfl, ⟨isOpen, ?_, ?_, ?_⟩, (Option.some.inj refused).symm⟩
          · simp [hasSymbol]
          · simp [owner]
          · exact PositionHash.filter_leverage_eq_none.mp noLeverage
        next => cases refused
      next => exact .inl (Option.some.inj refused).symm

theorem PositionHash.Unleveraged.refuses (unleveraged : h.Unleveraged)
    (stored : st.hash p = some h) :
    (atomicUpdatePositionParams st p timestampMs params).refused =
      some (st.hset p (·.resized timestampMs (positiveOr params.size (h.size.getD 0))
        (positiveOr params.entryPrice h.entryOrAvg))) := by
  have noLeverage := PositionHash.filter_leverage_eq_none.mpr unleveraged.leverage
  obtain ⟨symbol, hasSymbol⟩ := Option.ne_none_iff_exists'.mp unleveraged.symbol
  obtain ⟨u, owner⟩ := Option.ne_none_iff_exists'.mp unleveraged.userId
  simp [atomicUpdatePositionParams, stored, unleveraged.isOpen, hasSymbol, owner, noLeverage,
    ScriptOutcome.refused]

theorem PositionHash.resized_eq_iff : h.resized timestampMs
    (positiveOr params.size (h.size.getD 0)) (positiveOr params.entryPrice h.entryOrAvg) = h ↔
      h.AtParams timestampMs params := by
  constructor
  · intro same
    have size := congrArg PositionHash.size same
    have entryPrice := congrArg PositionHash.entryPrice same
    have avgPrice := congrArg PositionHash.avgPrice same
    have updatedAt := congrArg PositionHash.updatedAt same
    exact ⟨size.symm, entryPrice.symm, avgPrice.symm.trans entryPrice, updatedAt.symm⟩
  · intro held
    unfold PositionHash.resized
    rw [← held.size, ← held.entryPrice, ← held.updatedAt]
    nth_rewrite 2 [← held.avgPrice]
    rfl

theorem Store.sameContent_hset_iff (stored : st.hash p = some h)
    (write : PositionHash → PositionHash) :
    st.SameContent (st.hset p write) ↔ write h = h := by
  constructor
  · intro same
    have read := same.hash p
    rw [Store.hash_hset_self, stored, Option.getD_some] at read
    exact Option.some.inj read
  · intro unchanged
    refine ⟨fun _ => rfl, rfl, ?_, rfl, rfl, rfl, fun _ _ _ => rfl⟩
    intro q
    rw [Store.hash_hset]
    split_ifs with same
    · rw [same, stored, Option.getD_some, unchanged]
    · rfl

end Updates

theorem refusedUntouched_iff (st : Store) (command : PositionCommand) :
    st.RefusedUntouched command ↔ command.WritesNothing st := by
  unfold Store.RefusedUntouched
  cases command with
  | cancelOrder o timestampMs =>
    refine iff_of_true ?_ trivial
    intro after refused
    cases reply : (atomicCancelOrder st o timestampMs).1 with
    | true => simp [Store.refusedBy, reply] at refused
    | false =>
      simp only [Store.refusedBy, reply, Bool.false_eq_true, if_false, Option.mem_def,
        Option.some.injEq] at refused
      rw [← refused, atomicCancelOrder_refused reply]
      exact .refl st
  | closePosition args =>
    refine iff_of_true ?_ trivial
    intro after refused
    rw [atomicClosePosition_refused refused]
    exact .refl st
  | reopenPosition p timestampMs =>
    refine iff_of_true ?_ trivial
    intro after refused
    rw [atomicReopenPosition_refused refused]
    exact .refl st
  | reopenPositionWithParams p timestampMs params =>
    refine iff_of_true ?_ trivial
    intro after refused
    rw [atomicReopenPositionWithParams_refused refused]
    exact .refl st
  | updatePositionParams p timestampMs params =>
    constructor
    · intro untouched h stored unleveraged
      have same := untouched _ (unleveraged.refuses stored)
      exact PositionHash.resized_eq_iff.mp ((Store.sameContent_hset_iff stored _).mp same)
    · intro settled after refused
      rcases atomicUpdatePositionParams_refused refused with same | ⟨h, stored, unleveraged, left⟩
      · rw [same]
        exact .refl st
      · rw [left]
        exact (Store.sameContent_hset_iff stored _).mpr
          (PositionHash.resized_eq_iff.mpr (settled h stored unleveraged))

namespace RejectedCommands

/-- An open position from before the leverage field. -/
def legacyHash : PositionHash where
  userId := some 7
  symbol := some "EURUSD"
  side := some .LONG
  size := some 1
  entryPrice := some 100
  avgPrice := some 100
  status := some .OPEN
  updatedAt := some 5

def legacyStore : Store := Store.empty.hset (.uuid 1) fun _ => legacyHash

/-- The update that is refused for the missing leverage has doubled the size. -/
theorem not_refusedUntouched_resize : ¬ legacyStore.RefusedUntouched
    (.updatePositionParams (.uuid 1) 9 { size := some 2 }) := by
  intro untouched
  have stored : legacyStore.hash (.uuid 1) = some legacyHash := Store.hash_hset_self ..
  have unleveraged : legacyHash.Unleveraged := ⟨rfl, by simp [legacyHash], by simp [legacyHash],
    by simp [legacyHash]⟩
  have same := (Store.sameContent_hset_iff stored _).mp (untouched _ (unleveraged.refuses stored))
  have size := congrArg PositionHash.size same
  revert size
  decide +kernel

end RejectedCommands

end TradingPlatform
