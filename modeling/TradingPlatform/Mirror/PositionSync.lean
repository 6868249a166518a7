import TradingPlatform.Engine.PositionEvents

namespace TradingPlatform

/-- A row of `positions`, with its symbol by code. The last two columns
belong to the wallet side; the synchronisation leaves them alone. -/
structure PositionRow where
  userId : UserId
  symbol : Symbol
  side : PositionSide
  size : ℚ
  entryPrice : ℚ
  markPrice : ℚ
  leverage : ℚ
  marginUsed : ℚ
  liquidationPrice : ℚ
  pnl : ℚ
  pnlPercent : ℚ
  status : PositionStatus
  marginFromCash : ℚ
  marginFromBonus : ℚ
  bonusWalletReleased : Bool := false
  accumulatedSwapUsd : ℚ := 0
  deriving DecidableEq, Repr

/-- Why `sync_position_to_database` writes nothing. A `Decimal` division by
zero panics, which also writes nothing. -/
inductive SyncError
  | symbolNotFound
  | missingLeverage
  | divisionByZero
  deriving DecidableEq, Repr

namespace PositionUpdatedEvent

def marginUsed (e : PositionUpdatedEvent) : ℚ := e.size * e.avgPrice / e.leverage

def liquidationPrice (e : PositionUpdatedEvent) : ℚ :=
  match e.side with
  | .LONG => e.avgPrice * (1 - 1 / e.leverage)
  | .SHORT => e.avgPrice * (1 + 1 / e.leverage)

def pnl (e : PositionUpdatedEvent) : ℚ := e.unrealizedPnl + e.realizedPnl

/-- `none` is the division by zero. -/
def pnlPercent (e : PositionUpdatedEvent) : Option ℚ :=
  if 0 < e.avgPrice then
    if e.avgPrice * e.size = 0 then none else some (e.pnl / (e.avgPrice * e.size) * 100)
  else some 0

/-- The UPDATE of an existing row: neither user, symbol nor side is written. -/
def updateRow (e : PositionUpdatedEvent) (pnlPercent : ℚ) (row : PositionRow) : PositionRow :=
  { row with
    size := e.size
    entryPrice := e.avgPrice
    markPrice := e.avgPrice
    leverage := e.leverage
    marginUsed := e.marginUsed
    liquidationPrice := e.liquidationPrice
    pnl := e.pnl
    pnlPercent := pnlPercent
    status := e.status
    marginFromCash := e.marginFromCash
    marginFromBonus := e.marginFromBonus }

def insertRow (e : PositionUpdatedEvent) (pnlPercent : ℚ) : PositionRow where
  userId := e.userId
  symbol := e.symbol
  side := e.side
  size := e.size
  entryPrice := e.avgPrice
  markPrice := e.avgPrice
  leverage := e.leverage
  marginUsed := e.marginUsed
  liquidationPrice := e.liquidationPrice
  pnl := e.pnl
  pnlPercent := pnlPercent
  status := e.status
  marginFromCash := e.marginFromCash
  marginFromBonus := e.marginFromBonus

end PositionUpdatedEvent

/-- `sync_position_to_database`: the row of the event's position afterwards. -/
def syncPositionToDatabase (symbols : Finset Symbol) (row : Option PositionRow)
    (e : PositionUpdatedEvent) : Except SyncError PositionRow :=
  if e.symbol ∉ symbols then .error .symbolNotFound
  else if e.leverage ≤ 0 then .error .missingLeverage
  else
    match e.pnlPercent with
    | none => .error .divisionByZero
    | some pnlPercent =>
      match row with
      | some row => .ok (e.updateRow pnlPercent row)
      | none => .ok (e.insertRow pnlPercent)

/-- The row agrees with a hash in all that the engine's book consists of. -/
structure PositionRow.Agrees (row : PositionRow) (h : PositionHash) : Prop where
  status : h.status = some row.status
  size : h.size = some row.size
  side : h.side = some row.side
  entryPrice : h.entryPrice = some row.entryPrice
  marginFromCash : h.marginFromCash = some row.marginFromCash
  marginFromBonus : h.marginFromBonus = some row.marginFromBonus

/-- The event says what the hash says, with a leverage that passes the check. -/
structure PositionUpdatedEvent.Reads (e : PositionUpdatedEvent) (h : PositionHash) : Prop where
  status : h.status = some e.status
  size : h.size = some e.size
  side : h.side = some e.side
  entryPrice : h.entryPrice = some e.avgPrice
  marginFromCash : h.marginFromCash = some e.marginFromCash
  marginFromBonus : h.marginFromBonus = some e.marginFromBonus
  leverage_pos : 0 < e.leverage

/-- The division for the PnL percentage is defined. -/
def PositionUpdatedEvent.PercentDefined (e : PositionUpdatedEvent) : Prop :=
  e.avgPrice ≤ 0 ∨ e.size ≠ 0

instance (e : PositionUpdatedEvent) : Decidable e.PercentDefined :=
  inferInstanceAs (Decidable (_ ∨ _))

theorem PositionUpdatedEvent.pnlPercent_isSome {e : PositionUpdatedEvent} :
    e.pnlPercent.isSome ↔ e.PercentDefined := by
  unfold pnlPercent PercentDefined
  split_ifs with priced zero
  · rcases mul_eq_zero.mp zero with noPrice | noSize
    · exact absurd noPrice priced.ne'
    · simp [not_le.mpr priced, noSize]
  · have sized : e.size ≠ 0 := fun noSize => zero (by rw [noSize, mul_zero])
    simp [sized]
  · simp [not_lt.mp priced]

/-- A delivery whose event reads a hash makes the row agree with it, unless
the row exists with another side. -/
theorem syncPositionToDatabase_agrees {symbols : Finset Symbol} {row : Option PositionRow}
    {e : PositionUpdatedEvent} {h : PositionHash} (known : e.symbol ∈ symbols)
    (percent : e.PercentDefined) (reads : e.Reads h)
    (sameSide : ∀ r ∈ row, h.side = some r.side) :
    ∃ r, syncPositionToDatabase symbols row e = .ok r ∧ r.Agrees h := by
  obtain ⟨pnlPercent, defined⟩ := Option.isSome_iff_exists.mp
    (PositionUpdatedEvent.pnlPercent_isSome.mpr percent)
  unfold syncPositionToDatabase
  rw [if_neg (not_not.mpr known), if_neg (not_le.mpr reads.leverage_pos), defined]
  cases row with
  | some row =>
    exact ⟨_, rfl, reads.status, reads.size, sameSide row rfl, reads.entryPrice,
      reads.marginFromCash, reads.marginFromBonus⟩
  | none =>
    exact ⟨_, rfl, reads.status, reads.size, reads.side, reads.entryPrice,
      reads.marginFromCash, reads.marginFromBonus⟩

/-- The synchronisation keeps the owner and the columns of the wallet side. -/
theorem syncPositionToDatabase_keeps {symbols : Finset Symbol} {row after : PositionRow}
    {e : PositionUpdatedEvent} (synced : syncPositionToDatabase symbols (some row) e = .ok after) :
    after.userId = row.userId ∧ after.bonusWalletReleased = row.bonusWalletReleased ∧
      after.accumulatedSwapUsd = row.accumulatedSwapUsd := by
  unfold syncPositionToDatabase at synced
  split_ifs at synced
  split at synced
  next => cases synced
  next => cases synced; exact ⟨rfl, rfl, rfl⟩

end TradingPlatform
