import TradingPlatform.Engine.FillScript

namespace TradingPlatform

/-- The arguments of `atomic_close_position.lua`; a size of 0 closes all. -/
structure CloseArgs where
  positionId : PositionId
  exitPrice : ℚ
  closeSize : ℚ
  timestampMs : Millis
  liquidated : Bool := false
  deriving DecidableEq, Repr

structure CloseResult where
  positionId : PositionId
  closedSize : ℚ
  exitPrice : ℚ
  realizedPnl : ℚ
  isFullClose : Bool
  marginFromCash : ℚ
  marginFromBonus : ℚ
  deriving DecidableEq, Repr

inductive CloseError
  | positionNotFound
  | positionNotOpen (status : Option PositionStatus)
  | closeSizeExceedsPosition
  deriving DecidableEq, Repr

namespace CloseArgs

def fullCloseStatus (args : CloseArgs) : PositionStatus :=
  if args.liquidated then .LIQUIDATED else .CLOSED

def actualCloseSize (args : CloseArgs) (currentSize : ℚ) : ℚ :=
  if args.closeSize = 0 ∨ currentSize ≤ args.closeSize then currentSize else args.closeSize

def pnl (args : CloseArgs) (h : PositionHash) : ℚ :=
  Fill.pnlClose h.side (h.entryPrice.getD 0) args.exitPrice
    (args.actualCloseSize (h.size.getD 0))

def ratio (args : CloseArgs) (currentSize : ℚ) : ℚ :=
  if 0 < currentSize then args.actualCloseSize currentSize / currentSize else 0

/-- The HSETs of a full close. -/
def fullHash (args : CloseArgs) (h : PositionHash) : PositionHash :=
  { h with
    status := some args.fullCloseStatus
    size := some 0
    originalSize := some (h.size.getD 0)
    exitPrice := some args.exitPrice
    closedAt := some args.timestampMs
    updatedAt := some args.timestampMs
    realizedPnl := some (h.realizedPnl.getD 0 + args.pnl h) }

/-- The HSETs of a partial close. -/
def partialHash (args : CloseArgs) (h : PositionHash) : PositionHash :=
  let cash := h.marginFromCash.getD 0
  let bonus := h.marginFromBonus.getD 0
  let currentSize := h.size.getD 0
  { h with
    size := some (currentSize - args.actualCloseSize currentSize)
    updatedAt := some args.timestampMs
    realizedPnl := some (h.realizedPnl.getD 0 + args.pnl h)
    marginFromCash := some (cash - cash * args.ratio currentSize)
    marginFromBonus := some (bonus - bonus * args.ratio currentSize) }

def result (args : CloseArgs) (h : PositionHash) : CloseResult :=
  let currentSize := h.size.getD 0
  { positionId := args.positionId
    closedSize := args.actualCloseSize currentSize
    exitPrice := args.exitPrice
    realizedPnl := args.pnl h
    isFullClose := decide (currentSize ≤ args.actualCloseSize currentSize)
    marginFromCash := h.marginFromCash.getD 0 * args.ratio currentSize
    marginFromBonus := h.marginFromBonus.getD 0 * args.ratio currentSize }

end CloseArgs

/-- `atomic_close_position.lua` on a hash. The engine passes `pos:by_id:{id}`
also as the key of the older format, so an id without a hash is not found. -/
def atomicClosePosition (st : Store) (args : CloseArgs) : ScriptOutcome CloseError CloseResult :=
  let p := args.positionId
  match st.hash p with
  | none => .error st .positionNotFound
  | some h =>
    if h.status ≠ some .OPEN then .error st (.positionNotOpen h.status)
    else
      let currentSize := h.size.getD 0
      let actual := args.actualCloseSize currentSize
      if currentSize < actual then .error st .closeSizeExceedsPosition
      else if currentSize ≤ actual then
        let st := st.hset p args.fullHash
        match h.symbol with
        | none => .raised st
        | some symbol => .success (st.unindex symbol p) (args.result h)
      else .success (st.hset p args.partialHash) (args.result h)

theorem CloseArgs.actualCloseSize_le (args : CloseArgs) (currentSize : ℚ) :
    args.actualCloseSize currentSize ≤ currentSize := by
  unfold actualCloseSize
  split
  · exact le_rfl
  next kept => exact (not_le.mp (not_or.mp kept).2).le

/-- What a successful close did: the position was open, and either the whole
size was closed and the index entries removed, or a smaller part was. -/
theorem atomicClosePosition_success {st after : Store} {args : CloseArgs} {result : CloseResult}
    (closed : atomicClosePosition st args = .success after result) :
    ∃ h, st.hash args.positionId = some h ∧ h.status = some .OPEN ∧ result = args.result h ∧
      ((args.actualCloseSize (h.size.getD 0) = h.size.getD 0 ∧ ∃ symbol, h.symbol = some symbol ∧
          after = (st.hset args.positionId args.fullHash).unindex symbol args.positionId) ∨
        (args.actualCloseSize (h.size.getD 0) < h.size.getD 0 ∧
          after = st.hset args.positionId args.partialHash)) := by
  unfold atomicClosePosition at closed
  dsimp only at closed
  split at closed
  next => cases closed
  next h stored =>
    split_ifs at closed with shut exceeds full
    · have opened := not_not.mp shut
      split at closed
      next => cases closed
      next symbol hasSymbol =>
        cases closed
        have same := le_antisymm (args.actualCloseSize_le _) full
        exact ⟨h, stored, opened, rfl, .inl ⟨same, symbol, hasSymbol, rfl⟩⟩
    · cases closed
      exact ⟨h, stored, not_not.mp shut, rfl, .inr ⟨not_le.mp full, rfl⟩⟩

theorem atomicClosePosition_error {st after : Store} {args : CloseArgs} {e : CloseError}
    (refused : atomicClosePosition st args = .error after e) : after = st := by
  unfold atomicClosePosition at refused
  dsimp only at refused
  split at refused
  next => cases refused; rfl
  next h stored =>
    split_ifs at refused
    · cases refused; rfl
    · cases refused; rfl
    · split at refused <;> cases refused

/-- The script raises only on an open position without a symbol. -/
theorem atomicClosePosition_raised {st after : Store} {args : CloseArgs}
    (raised : atomicClosePosition st args = .raised after) :
    ∃ h, st.hash args.positionId = some h ∧ h.status = some .OPEN ∧ h.symbol = none := by
  unfold atomicClosePosition at raised
  dsimp only at raised
  split at raised
  next => cases raised
  next h stored =>
    split_ifs at raised with shut exceeds full
    split at raised
    next noSymbol => exact ⟨h, stored, not_not.mp shut, noSymbol⟩
    next => cases raised

end TradingPlatform
