import TradingPlatform.Pricing.SymbolKeys
import TradingPlatform.Wallet.AuditTrail

namespace TradingPlatform

open StepRuns HalfAway

/-- A row of `positions` with what the query of the swap engine joins to it. -/
structure SwapPosition where
  id : PositionId
  isOpen : Bool
  /-- `LOWER(side::text)` -/
  side : String
  size : ℚ
  markPrice : ℚ
  symbol : Symbol
  market : String
  quoteCurrency : String
  groupId : GroupId
  swapEnabled : Bool
  accumulatedSwapUsd : ℚ
  deriving DecidableEq, Repr

/-- A row of `swap_rules`. -/
structure SwapRule where
  id : ℕ
  groupId : GroupId
  symbol : Symbol
  market : String
  active : Bool
  daily : Bool
  rolloverTimeUtc : String
  longRate : ℚ
  shortRate : ℚ
  tripleDay : Option String
  unit : String
  minCharge : Option ℚ
  maxCharge : Option ℚ
  deriving DecidableEq, Repr

/-- A row of the query, `SwapApplicable`. -/
structure SwapApplicable where
  positionId : PositionId
  side : String
  size : ℚ
  markPrice : ℚ
  quoteCurrency : String
  rule : SwapRule
  deriving DecidableEq, Repr

/-- A row of `swap_charge_log` as it is inserted, with the UTC date of
`charged_at`. -/
structure SwapCharge where
  positionId : PositionId
  date : ℤ
  amountUsd : ℚ
  ruleId : ℕ
  daysCount : ℤ
  positionSize : ℚ
  markPrice : ℚ
  rateApplied : ℚ
  side : String
  deriving DecidableEq, Repr

/-- What the unique index of the log is over. -/
def SwapCharge.key (c : SwapCharge) : PositionId × ℤ := (c.positionId, c.date)

def lowerCase (s : String) : String := String.ofList (s.toList.map Char.toLower)

section Charge

def applyMinMax (charge : ℚ) (minCharge maxCharge : Option ℚ) : ℚ :=
  let sign : ℚ := if 0 ≤ charge then 1 else -1
  let a := match minCharge with
    | some least => if 0 < least ∧ |charge| < least then least else |charge|
    | none => |charge|
  let a := match maxCharge with
    | some most => if 0 ≤ most ∧ most < a then most else a
    | none => a
  sign * a

namespace SwapApplicable

def isTriple (pos : SwapApplicable) (weekday : String) : Bool :=
  pos.rule.tripleDay.any fun d => lowerCase d = weekday

def rate (pos : SwapApplicable) : ℚ :=
  if pos.side = "long" then pos.rule.longRate else pos.rule.shortRate

/-- The charge of one position; nothing for an FX error, an unknown unit or a
charge of zero. -/
def chargeUsd (pos : SwapApplicable) (rates : Rates) (weekday : String) : Option ℚ :=
  let days : ℚ := if pos.isTriple weekday then 3 else 1
  match convertWithRates (pos.size * pos.markPrice) (trim pos.quoteCurrency) "USD" rates with
  | .error _ => none
  | .ok positionValueUsd =>
    let charge := if pos.rule.unit = "percent" then some (positionValueUsd * pos.rate * days)
      else if pos.rule.unit = "fixed" then some (pos.rate * days * pos.size)
      else none
    (charge.map (applyMinMax · pos.rule.minCharge pos.rule.maxCharge)).filter (· ≠ 0)

/-- The row that `charge_one_position` inserts on a date. -/
def charge (pos : SwapApplicable) (weekday : String) (date : ℤ) (chargeUsd : ℚ) : SwapCharge where
  positionId := pos.positionId
  date := date
  amountUsd := chargeUsd
  ruleId := pos.rule.id
  daysCount := if pos.isTriple weekday then 3 else 1
  positionSize := pos.size
  markPrice := pos.markPrice
  rateApplied := pos.rate
  side := pos.side

end SwapApplicable

end Charge

/-- The clock at the start of a tick: the rollover time, the weekday and the UTC
date. -/
structure SwapClock where
  rolloverHm : String
  weekday : String
  date : ℤ
  deriving DecidableEq, Repr

/-- Where a transaction of `charge_one_position` stands. `locked` is the value
that its UPDATE has written to the locked row, if it has found one. -/
inductive SwapStage
  | check
  | update
  | insert (locked : Option ℚ)
  | commit (locked : Option ℚ)
  deriving DecidableEq, Repr

/-- One execution of `run_rollover_tick`: what it has read, what is left of its
loop and the transaction that it is in. -/
structure SwapTick where
  weekday : String
  rates : Rates
  applicable : List SwapApplicable
  transaction : Option (SwapCharge × SwapStage)

/-- The tables, the locks that uncommitted transactions hold on rows of
`positions` and on entries of the unique index, and the running executions. -/
structure SwapTables where
  positions : List SwapPosition
  rules : List SwapRule
  log : List SwapCharge
  rowLock : PositionId → Option ℕ
  keyLock : PositionId × ℤ → Option ℕ
  ticks : ℕ → Option SwapTick

inductive SwapAction
  | openPosition (p : SwapPosition)
  /-- any other writer of the row: a close, a reopen, a new size or price -/
  | sync (id : PositionId) (isOpen : Bool) (size markPrice : ℚ)
  | setRules (rules : List SwapRule)
  | tick (e : ℕ) (clock : SwapClock) (bypassRolloverClock : Bool) (rates : Rates)
  | charge (e : ℕ) (date : ℤ)
  | advance (e : ℕ)
  | fail (e : ℕ)

namespace SwapTables

def start : SwapTables where
  positions := []
  rules := []
  log := []
  rowLock := fun _ => none
  keyLock := fun _ => none
  ticks := fun _ => none

/-- The rule is one for the position at that time. -/
def applies (clock : SwapClock) (bypassRolloverClock : Bool) (p : SwapPosition) (r : SwapRule) :
    Bool :=
  p.isOpen ∧ p.swapEnabled ∧ r.groupId = p.groupId ∧ r.symbol = p.symbol ∧
    lowerCase (sqlTrim r.market) = lowerCase (sqlTrim p.market) ∧ r.active ∧ r.daily ∧
    (bypassRolloverClock ∨ sqlTrim r.rolloverTimeUtc = clock.rolloverHm)

/-- The query of `run_rollover_tick`. -/
def selectApplicable (s : SwapTables) (clock : SwapClock) (bypassRolloverClock : Bool) :
    List SwapApplicable :=
  s.positions.flatMap fun p =>
    if s.log.any fun c => c.key = (p.id, clock.date) then []
    else
      (s.rules.filter (applies clock bypassRolloverClock p)).map fun r =>
        ⟨p.id, p.side, p.size, p.markPrice, p.quoteCurrency, r⟩

/-- The row of the position, when it is open. -/
def openRow (s : SwapTables) (id : PositionId) : Option SwapPosition :=
  s.positions.find? fun p => p.id = id ∧ p.isOpen

def setTick (s : SwapTables) (e : ℕ) (tick : SwapTick) : SwapTables :=
  { s with ticks := Function.update s.ticks e (some tick) }

def inStage (s : SwapTables) (e : ℕ) (tick : SwapTick) (charge : SwapCharge) (stage : SwapStage) :
    SwapTables :=
  s.setTick e { tick with transaction := some (charge, stage) }

/-- The transaction is over and its locks are free. -/
def release (s : SwapTables) (e : ℕ) (tick : SwapTick) : SwapTables :=
  { s.setTick e { tick with transaction := none } with
    rowLock := fun id => if s.rowLock id = some e then none else s.rowLock id
    keyLock := fun key => if s.keyLock key = some e then none else s.keyLock key }

/-- The row takes the value that the UPDATE has written. -/
def writeAccumulated (s : SwapTables) (id : PositionId) (value : ℚ) : SwapTables :=
  { s with
    positions := s.positions.map fun p =>
      if p.id = id then { p with accumulatedSwapUsd := value } else p }

/-- COMMIT: the row and the log entry are there for everybody. -/
def commit (s : SwapTables) (charge : SwapCharge) (locked : Option ℚ) : SwapTables :=
  { locked.elim s (s.writeAccumulated charge.positionId) with
    log := s.log ++ [{ charge with amountUsd := numeric charge.amountUsd }] }

/-- The next statement of a transaction; `none` while it waits for a lock. -/
def statement (s : SwapTables) (e : ℕ) (tick : SwapTick) (charge : SwapCharge) :
    SwapStage → Option SwapTables
  | .check =>
    if s.log.any fun c => c.key = charge.key then some (s.release e tick)
    else some (s.inStage e tick charge .update)
  | .update =>
    match s.openRow charge.positionId with
    | none => some (s.inStage e tick charge (.insert none))
    | some p =>
      if s.rowLock charge.positionId ≠ none then none
      else
        some { s.inStage e tick charge
            (.insert (some (numeric (p.accumulatedSwapUsd + charge.amountUsd)))) with
          rowLock := Function.update s.rowLock charge.positionId (some e) }
  | .insert locked =>
    if s.keyLock charge.key ≠ none then none
    else if s.log.any fun c => c.key = charge.key then some (s.release e tick)
    else if s.positions.any fun p => p.id = charge.positionId then
      some { s.inStage e tick charge (.commit locked) with
        keyLock := Function.update s.keyLock charge.key (some e) }
    else some (s.release e tick)
  | .commit locked => some ((s.commit charge locked).release e tick)

def step (s : SwapTables) : SwapAction → Option SwapTables
  | .openPosition p =>
    if s.positions.any fun q => q.id = p.id then none
    else some { s with positions := s.positions ++ [{ p with accumulatedSwapUsd := 0 }] }
  | .sync id isOpen size markPrice =>
    if s.rowLock id ≠ none then none
    else
      some { s with
        positions := s.positions.map fun p =>
          if p.id = id then { p with isOpen := isOpen, size := size, markPrice := markPrice }
          else p }
  | .setRules rules => some { s with rules := rules }
  | .tick e clock bypassRolloverClock rates =>
    match s.ticks e with
    | some _ => none
    | none =>
      some (s.setTick e ⟨clock.weekday, rates, s.selectApplicable clock bypassRolloverClock, none⟩)
  | .charge e date =>
    match s.ticks e with
    | none => none
    | some tick =>
      match tick.transaction, tick.applicable with
      | none, pos :: rest =>
        match pos.chargeUsd tick.rates tick.weekday with
        | none => some (s.setTick e { tick with applicable := rest })
        | some chargeUsd =>
          some (s.setTick e { tick with
            applicable := rest
            transaction := some (pos.charge tick.weekday date chargeUsd, .check) })
      | none, [] => some { s with ticks := Function.update s.ticks e none }
      | some _, _ => none
  | .advance e =>
    match s.ticks e with
    | none => none
    | some tick =>
      match tick.transaction with
      | none => none
      | some (charge, stage) => s.statement e tick charge stage
  | .fail e => (s.ticks e).map (s.release e)

/-- The sum of a position's rows in the log. -/
def logged (s : SwapTables) (id : PositionId) : ℚ :=
  ((s.log.filter fun c => c.positionId = id).map (·.amountUsd)).sum

/-- The two records of the swap agree, and no day is charged twice. -/
structure Accrued (s : SwapTables) : Prop where
  same : ∀ p ∈ s.positions, p.accumulatedSwapUsd = s.logged p.id
  daily : (s.log.map (·.key)).Nodup

/-- The UPDATE of the charge finds the position open, and adds what the log
takes: a charge with a ninth decimal 5 that decides the rounding has the sign of
the sum. -/
def ChargesOpen (s : SwapTables) : SwapAction → Prop
  | .advance e => ∀ tick ∈ s.ticks e, ∀ charge, tick.transaction = some (charge, .update) →
    ∃ p, s.openRow charge.positionId = some p ∧ (NumericTie charge.amountUsd →
      (0 ≤ charge.amountUsd ↔ 0 ≤ p.accumulatedSwapUsd + charge.amountUsd))
  | _ => True

end SwapTables

end TradingPlatform
