import TradingPlatform.Engine.RedisStore
import TradingPlatform.Library.StepRuns

namespace TradingPlatform

open StepRuns FiniteTable

abbrev TransactionId := ℕ

/-- The row of `fee_charge_log` of an order. -/
structure FeeLog where
  feeAmountUsd : ℚ
  positionId : Option PositionId := none
  refunded : Bool := false
  refundTransactionId : Option TransactionId := none
  deriving DecidableEq, Repr

/-- A row of `positions` by the columns that the attribution reads and writes. -/
structure FeePosition where
  userId : UserId
  symbolId : SymbolId
  status : PositionStatus
  updatedAt : Millis
  closedAt : Option Millis
  accumulatedFeesUsd : ℚ
  deriving DecidableEq, Repr

/-- Where a call is, with the fee it has read. -/
inductive FeeTask
  | idle
  | refunding (feeAmount : ℚ)
  | findingOpen (feeAmount : ℚ)
  | findingClosed (feeAmount : ℚ)
  | attributing (feeAmount : ℚ) (p : PositionId)
  deriving DecidableEq, Repr

def FeeTask.amount : FeeTask → Option ℚ
  | .idle => none
  | .refunding feeAmount => some feeAmount
  | .findingOpen feeAmount => some feeAmount
  | .findingClosed feeAmount => some feeAmount
  | .attributing feeAmount _ => some feeAmount

/-- The rows that belong to the placement fee of one order, and the calls of
`refund_placement_fee_for_order` and `link_placement_fee_to_position_on_fill`
that are running on it. -/
structure FeeDesk where
  userId : UserId
  /-- `orders.symbol_id` -/
  symbolId : Option SymbolId
  availableBalance : ℚ
  /-- the `FEE-REFUND` rows of `transactions` -/
  refundRows : List (TransactionId × ℚ)
  log : FeeLog
  positions : FiniteTable PositionId FeePosition
  tasks : ℕ → FeeTask

inductive FeeAction
  | refund (t : ℕ)
  | refundTransaction (t : ℕ) (uuid : TransactionId)
  | link (t : ℕ)
  | selectOpen (t : ℕ) (reply : Option PositionId)
  | selectClosed (t : ℕ) (reply : Option PositionId)
  | linkTransaction (t : ℕ)
  | abort (t : ℕ)
  | writePosition (p : PositionId) (row : FeePosition)
  deriving DecidableEq

namespace FeeDesk

/-- `ORDER BY … DESC LIMIT 1` over the matching rows; rows with equal keys come
in any order. -/
def Latest (rows : FiniteTable PositionId FeePosition) (matching : FeePosition → Bool)
    (le : FeePosition → FeePosition → Bool) : Option PositionId → Prop
  | none => ∀ q ∈ rows.keys, ∀ row ∈ rows.lookup q, ¬ matching row
  | some p => ∃ latest ∈ rows.lookup p, matching latest ∧
      ∀ q ∈ rows.keys, ∀ row ∈ rows.lookup q, matching row → le row latest

instance (rows : FiniteTable PositionId FeePosition) (matching : FeePosition → Bool)
    (le : FeePosition → FeePosition → Bool) : DecidablePred (Latest rows matching le)
  | none => inferInstanceAs (Decidable (∀ q ∈ rows.keys, _))
  | some _ => inferInstanceAs (Decidable (∃ latest ∈ rows.lookup _, _))

def openRow (s : FeeDesk) (row : FeePosition) : Bool :=
  row.userId = s.userId ∧ s.symbolId = some row.symbolId ∧ row.status = .OPEN

def closedRow (s : FeeDesk) (row : FeePosition) : Bool :=
  row.userId = s.userId ∧ s.symbolId = some row.symbolId ∧
    (row.status = .CLOSED ∨ row.status = .LIQUIDATED)

/-- `ORDER BY updated_at DESC` -/
def updatedBefore (row other : FeePosition) : Bool := row.updatedAt ≤ other.updatedAt

/-- `ORDER BY closed_at DESC NULLS LAST, updated_at DESC` -/
def closedBefore (row other : FeePosition) : Bool :=
  match row.closedAt, other.closedAt with
  | none, none => row.updatedAt ≤ other.updatedAt
  | none, some _ => true
  | some _, none => false
  | some a, some b => a < b ∨ a = b ∧ row.updatedAt ≤ other.updatedAt

def setTask (s : FeeDesk) (t : ℕ) (task : FeeTask) : FeeDesk :=
  { s with tasks := Function.update s.tasks t task }

/-- The SELECT of `refund_placement_fee_for_order`; a settled or empty fee
ends the call. -/
def refund (s : FeeDesk) (t : ℕ) : FeeDesk :=
  if s.log.refunded ∨ s.log.feeAmountUsd ≤ 0 then s
  else s.setTask t (.refunding s.log.feeAmountUsd)

/-- The transaction of `refund_placement_fee_for_order`. The row count of its
last UPDATE is not looked at. -/
def commitRefund (s : FeeDesk) (feeAmount : ℚ) (uuid : TransactionId) : FeeDesk :=
  { s with
    availableBalance := s.availableBalance + feeAmount
    refundRows := s.refundRows ++ [(uuid, feeAmount)]
    log := if s.log.refunded then s.log
      else { s.log with refunded := true, refundTransactionId := some uuid } }

/-- The first two SELECTs of `link_placement_fee_to_position_on_fill`. -/
def link (s : FeeDesk) (t : ℕ) : FeeDesk :=
  if s.log.refunded ∨ s.log.positionId ≠ none ∨ s.log.feeAmountUsd ≤ 0 ∨ s.symbolId = none then s
  else s.setTask t (.findingOpen s.log.feeAmountUsd)

/-- The transaction of `link_placement_fee_to_position_on_fill`, whose last
UPDATE may also hit no row. -/
def commitLink (s : FeeDesk) (feeAmount : ℚ) (p : PositionId) : FeeDesk :=
  { s with
    positions := match s.positions.lookup p with
      | none => s.positions
      | some row => s.positions.insert p
          { row with accumulatedFeesUsd := row.accumulatedFeesUsd + feeAmount }
    log := if s.log.positionId = none then { s.log with positionId := some p } else s.log }

def step (s : FeeDesk) : FeeAction → Option FeeDesk
  | .refund t => if s.tasks t = .idle then some (s.refund t) else none
  | .refundTransaction t uuid =>
    match s.tasks t with
    | .refunding feeAmount =>
      if uuid ∈ s.refundRows.map Prod.fst then none
      else some ((s.commitRefund feeAmount uuid).setTask t .idle)
    | _ => none
  | .link t => if s.tasks t = .idle then some (s.link t) else none
  | .selectOpen t reply =>
    match s.tasks t with
    | .findingOpen feeAmount =>
      if Latest s.positions s.openRow updatedBefore reply then
        match reply with
        | some p => some (s.setTask t (.attributing feeAmount p))
        | none => some (s.setTask t (.findingClosed feeAmount))
      else none
    | _ => none
  | .selectClosed t reply =>
    match s.tasks t with
    | .findingClosed feeAmount =>
      if Latest s.positions s.closedRow closedBefore reply then
        match reply with
        | some p => some (s.setTask t (.attributing feeAmount p))
        | none => some (s.setTask t .idle)
      else none
    | _ => none
  | .linkTransaction t =>
    match s.tasks t with
    | .attributing feeAmount p => some ((s.commitLink feeAmount p).setTask t .idle)
    | _ => none
  | .abort t => some (s.setTask t .idle)
  | .writePosition p row =>
    if row.accumulatedFeesUsd = (s.positions.lookup p).elim 0 (·.accumulatedFeesUsd) then
      some { s with positions := s.positions.insert p row }
    else none

def accumulatedFees (s : FeeDesk) : ℚ := total (fun _ row => row.accumulatedFeesUsd) s.positions

/-- The fee has been paid back once at most, with one row of `transactions`
for it, and added to the fees of positions once at most. -/
structure SettledOnce (s initial : FeeDesk) : Prop where
  credited : s.availableBalance = initial.availableBalance ∨
    s.availableBalance = initial.availableBalance + initial.log.feeAmountUsd
  refundRow : s.log.refunded = true → s.refundRows.length = 1
  attributed : s.accumulatedFees = initial.accumulatedFees ∨
    s.accumulatedFees = initial.accumulatedFees + initial.log.feeAmountUsd

/-- What the call's SELECT saw still holds when its transaction runs. -/
def StillDue (s : FeeDesk) : FeeAction → Prop
  | .refundTransaction _ _ => s.log.refunded = false
  | .linkTransaction _ => s.log.positionId = none
  | .refund _ => True
  | .link _ => True
  | .selectOpen _ _ => True
  | .selectClosed _ _ => True
  | .abort _ => True
  | .writePosition _ _ => True

instance (s : FeeDesk) : DecidablePred s.StillDue
  | .refundTransaction _ _ => inferInstanceAs (Decidable (s.log.refunded = false))
  | .linkTransaction _ => inferInstanceAs (Decidable (s.log.positionId = none))
  | .refund _ => inferInstanceAs (Decidable True)
  | .link _ => inferInstanceAs (Decidable True)
  | .selectOpen _ _ => inferInstanceAs (Decidable True)
  | .selectClosed _ _ => inferInstanceAs (Decidable True)
  | .abort _ => inferInstanceAs (Decidable True)
  | .writePosition _ _ => inferInstanceAs (Decidable True)

/-- A fee as `charge_placement_fee_in_tx` leaves it, before any call. -/
structure Charged (s : FeeDesk) : Prop where
  notRefunded : s.log.refunded = false
  notAttributed : s.log.positionId = none
  noRefundRow : s.refundRows = []
  idle : ∀ t, s.tasks t = .idle

/-- The invariant: money and rows say what the log row says. -/
structure Sound (s initial : FeeDesk) : Prop where
  amount : s.log.feeAmountUsd = initial.log.feeAmountUsd
  tasks : ∀ t, ∀ feeAmount ∈ (s.tasks t).amount, feeAmount = initial.log.feeAmountUsd
  refunded : s.log.refunded = true → s.refundRows.length = 1 ∧
    s.availableBalance = initial.availableBalance + initial.log.feeAmountUsd
  notRefunded : s.log.refunded = false → s.refundRows = [] ∧
    s.availableBalance = initial.availableBalance
  fees : s.accumulatedFees = initial.accumulatedFees ∨ s.log.positionId ≠ none ∧
    s.accumulatedFees = initial.accumulatedFees + initial.log.feeAmountUsd

variable {initial s after : FeeDesk} {t : ℕ}

theorem Sound.settledOnce (sound : s.Sound initial) : s.SettledOnce initial where
  credited := by
    cases flag : s.log.refunded with
    | false => exact .inl (sound.notRefunded flag).2
    | true => exact .inr (sound.refunded flag).2
  refundRow flag := (sound.refunded flag).1
  attributed := sound.fees.imp_right And.right

theorem Sound.setTask (sound : s.Sound initial) {task : FeeTask}
    (amount : ∀ feeAmount ∈ task.amount, feeAmount = initial.log.feeAmountUsd) :
    (s.setTask t task).Sound initial where
  amount := sound.amount
  tasks u feeAmount member := by
    by_cases same : u = t
    · subst same
      change feeAmount ∈ (Function.update s.tasks u task u).amount at member
      rw [Function.update_self] at member
      exact amount feeAmount member
    · change feeAmount ∈ (Function.update s.tasks t task u).amount at member
      rw [Function.update_of_ne same] at member
      exact sound.tasks u feeAmount member
  refunded := sound.refunded
  notRefunded := sound.notRefunded
  fees := sound.fees

theorem Sound.idle (sound : s.Sound initial) (t : ℕ) : (s.setTask t .idle).Sound initial :=
  sound.setTask fun _ member => by cases member

/-- The call takes the fee it has read along. -/
theorem Sound.carry (sound : s.Sound initial) {task : FeeTask} {feeAmount : ℚ}
    (read : (s.tasks t).amount = some feeAmount) (carried : task.amount = some feeAmount) :
    (s.setTask t task).Sound initial := by
  refine sound.setTask fun other member => ?_
  have same : feeAmount = other := Option.some.inj (carried.symm.trans member)
  exact same ▸ sound.tasks t feeAmount read

theorem Sound.commitRefund (sound : s.Sound initial) {feeAmount : ℚ}
    (read : (s.tasks t).amount = some feeAmount) (due : s.log.refunded = false)
    (uuid : TransactionId) : (s.commitRefund feeAmount uuid).Sound initial := by
  obtain ⟨noRow, balance⟩ := sound.notRefunded due
  have fee := sound.tasks t feeAmount read
  have flag : (s.commitRefund feeAmount uuid).log =
      { s.log with refunded := true, refundTransactionId := some uuid } := by
    unfold FeeDesk.commitRefund
    rw [due]
    rfl
  constructor
  · rw [flag]
    exact sound.amount
  · exact sound.tasks
  · intro _
    change (s.refundRows ++ [(uuid, feeAmount)]).length = 1 ∧ s.availableBalance + feeAmount = _
    rw [noRow, balance, fee]
    exact ⟨rfl, rfl⟩
  · intro notFlag
    rw [flag] at notFlag
    cases notFlag
  · rw [flag]
    exact sound.fees

theorem accumulatedFees_insert (p : PositionId) (row : FeePosition) :
    accumulatedFees { s with positions := s.positions.insert p row } = s.accumulatedFees -
      (s.positions.lookup p).elim 0 (·.accumulatedFeesUsd) + row.accumulatedFeesUsd :=
  total_insert _ s.positions p row

theorem Sound.commitLink (sound : s.Sound initial) {feeAmount : ℚ} {p : PositionId}
    (read : (s.tasks t).amount = some feeAmount) (due : s.log.positionId = none) :
    (s.commitLink feeAmount p).Sound initial := by
  have fee := sound.tasks t feeAmount read
  have fees : s.accumulatedFees = initial.accumulatedFees :=
    sound.fees.resolve_right fun attributed => attributed.1 due
  have linked : (s.commitLink feeAmount p).log = { s.log with positionId := some p } := by
    unfold FeeDesk.commitLink
    rw [due]
    rfl
  have grown : (s.commitLink feeAmount p).accumulatedFees = s.accumulatedFees ∨
      (s.commitLink feeAmount p).accumulatedFees = s.accumulatedFees + feeAmount := by
    unfold FeeDesk.commitLink accumulatedFees
    cases stored : s.positions.lookup p with
    | none => exact .inl rfl
    | some row =>
      right
      dsimp only
      rw [total_insert, share_some stored]
      ring
  constructor
  · rw [linked]
    exact sound.amount
  · exact sound.tasks
  · rw [linked]
    exact sound.refunded
  · rw [linked]
    exact sound.notRefunded
  · rw [linked]
    refine grown.imp (fun same => same.trans fees) fun more => ⟨Option.some_ne_none p, ?_⟩
    rw [more, fees, fee]

theorem Sound.writePosition (sound : s.Sound initial) {p : PositionId} {row : FeePosition}
    (keepsFees : row.accumulatedFeesUsd = (s.positions.lookup p).elim 0 (·.accumulatedFeesUsd)) :
    Sound { s with positions := s.positions.insert p row } initial := by
  have same : accumulatedFees { s with positions := s.positions.insert p row } =
      s.accumulatedFees := by
    rw [accumulatedFees_insert, keepsFees, sub_add_cancel]
  refine ⟨sound.amount, sound.tasks, sound.refunded, sound.notRefunded, ?_⟩
  rw [same]
  exact sound.fees

theorem Sound.step (sound : s.Sound initial) {action : FeeAction} (due : s.StillDue action)
    (taken : s.step action = some after) : after.Sound initial := by
  cases action with
  | refund t =>
    simp only [FeeDesk.step, FeeDesk.refund] at taken
    split_ifs at taken <;> cases taken
    · exact sound
    · refine sound.setTask fun feeAmount member => ?_
      exact (Option.some.inj member).symm.trans sound.amount
  | refundTransaction t uuid =>
    simp only [FeeDesk.step] at taken
    split at taken
    next feeAmount atTask =>
      split_ifs at taken
      cases taken
      exact (sound.commitRefund (by rw [atTask]; rfl) due uuid).idle t
    next => cases taken
  | link t =>
    simp only [FeeDesk.step, FeeDesk.link] at taken
    split_ifs at taken <;> cases taken
    · exact sound
    · refine sound.setTask fun feeAmount member => ?_
      exact (Option.some.inj member).symm.trans sound.amount
  | selectOpen t reply =>
    simp only [FeeDesk.step] at taken
    split at taken
    next feeAmount atTask =>
      split_ifs at taken
      cases reply <;> cases taken
      · exact sound.carry (by rw [atTask]; rfl) rfl
      · exact sound.carry (by rw [atTask]; rfl) rfl
    next => cases taken
  | selectClosed t reply =>
    simp only [FeeDesk.step] at taken
    split at taken
    next feeAmount atTask =>
      split_ifs at taken
      cases reply <;> cases taken
      · exact sound.idle t
      · exact sound.carry (by rw [atTask]; rfl) rfl
    next => cases taken
  | linkTransaction t =>
    simp only [FeeDesk.step] at taken
    split at taken
    next feeAmount p atTask =>
      cases taken
      exact (sound.commitLink (by rw [atTask]; rfl) due).idle t
    next => cases taken
  | abort t =>
    cases taken
    exact sound.idle t
  | writePosition p row =>
    simp only [FeeDesk.step] at taken
    split_ifs at taken with keepsFees
    cases taken
    exact sound.writePosition keepsFees

/-- A fee whose calls commit only what is still due is settled once. -/
theorem settledOnce_of_run {actions : List FeeAction} (charged : initial.Charged)
    (run : GuardedRun step StillDue initial actions s) : s.SettledOnce initial := by
  let IsSound (s : FeeDesk) : Prop := s.Sound initial
  have initially : IsSound initial :=
    { amount := rfl
      tasks := fun t feeAmount member => by rw [charged.idle t] at member; cases member
      refunded := fun flag => by rw [charged.notRefunded] at flag; cases flag
      notRefunded := fun _ => ⟨charged.noRefundRow, rfl⟩
      fees := .inl rfl }
  have sound : IsSound s :=
    run.invariant initially fun _ _ _ due taken sound => Sound.step sound due taken
  exact Sound.settledOnce sound

/-- A fee of 5 charged for an order of user 7, who has one open position. -/
def chargedFee : FeeDesk where
  userId := 7
  symbolId := some 1
  availableBalance := 95
  refundRows := []
  log := { feeAmountUsd := 5 }
  positions := (∅ : FiniteTable PositionId FeePosition).insert (.uuid 1)
    { userId := 7, symbolId := 1, status := .OPEN, updatedAt := 1000, closedAt := none
      accumulatedFeesUsd := 0 }
  tasks := fun _ => .idle

theorem charged_chargedFee : chargedFee.Charged := ⟨rfl, rfl, rfl, fun _ => rfl⟩

/-- The event handler and the scanner both read the fee before either refunds it. -/
def overlappingRefunds : List FeeAction :=
  [.refund 0, .refund 1, .refundTransaction 0 100, .refundTransaction 1 101]

theorem not_settledOnce_overlappingRefunds :
    ∃ s, Run step chargedFee overlappingRefunds s ∧ ¬ s.SettledOnce chargedFee := by
  have evaluates : (runGuarded step (fun _ _ => True) chargedFee overlappingRefunds).map
      (fun s => (s.log.refunded, s.refundRows.length)) = some (true, 2) := by decide +kernel
  obtain ⟨s, reached, reads⟩ := Option.map_eq_some_iff.mp evaluates
  obtain ⟨flag, rows⟩ := Prod.mk.inj reads
  refine ⟨s, .of_eval reached, fun settled => ?_⟩
  exact absurd (rows.symm.trans (settled.refundRow flag)) (by decide)

/-- Two Filled events and two refunds, each handled after the other. -/
def successiveCalls : List FeeAction :=
  [.link 0, .selectOpen 0 (some (.uuid 1)), .linkTransaction 0, .link 1,
   .refund 0, .refundTransaction 0 100, .refund 1]

theorem settledOnce_successiveCalls : ∃ s,
    GuardedRun step StillDue chargedFee successiveCalls s ∧ s.availableBalance = 100 ∧
      s.accumulatedFees = 5 ∧ s.SettledOnce chargedFee := by
  have evaluates : (runGuarded step StillDue chargedFee successiveCalls).map
      (fun s => (s.availableBalance, s.accumulatedFees)) = some (100, 5) := by decide +kernel
  obtain ⟨s, reached, reads⟩ := Option.map_eq_some_iff.mp evaluates
  obtain ⟨balance, fees⟩ := Prod.mk.inj reads
  have run : GuardedRun step StillDue chargedFee successiveCalls s := .of_eval reached
  exact ⟨s, run, balance, fees, settledOnce_of_run charged_chargedFee run⟩

end FeeDesk

end TradingPlatform
