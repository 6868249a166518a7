import TradingPlatform.Engine.RedisStore
import TradingPlatform.Library.StepRuns

namespace TradingPlatform

open StepRuns FiniteTable

/-- The `transaction_type` of a request. -/
inductive RequestKind
  | deposit
  | withdrawal
  deriving DecidableEq, Repr

inductive TransactionStatus
  | pending
  | completed
  | approved
  | rejected
  deriving DecidableEq, Repr

/-- A row of `transactions` that a deposit or withdrawal request has created.
The last three fields count what has been done for it: changes of the wallet's
balance, rows of `affiliate_commissions` and payments to the referrer. -/
structure RequestRow where
  kind : RequestKind
  amount : ℚ
  netAmount : ℚ
  status : TransactionStatus := .pending
  applied : ℕ := 0
  commissions : ℕ := 0
  rebates : ℕ := 0
  deriving DecidableEq, Repr

abbrev RequestId := ℕ

/-- What a call's first SELECT has read. -/
structure Request where
  id : RequestId
  kind : RequestKind
  amount : ℚ
  deriving DecidableEq, Repr

/-- Positive for deposits, negative for withdrawals. -/
def signed (kind : RequestKind) (amount : ℚ) : ℚ :=
  match kind with
  | .deposit => amount
  | .withdrawal => -amount

def RequestRow.delta (row : RequestRow) : ℚ := signed row.kind row.netAmount

def Request.delta (r : Request) : ℚ := signed r.kind r.amount

/-- The four endpoints, of `finance` and of `deposits`. -/
inductive Endpoint
  | approveTransaction
  | rejectTransaction
  | approveDeposit
  | rejectDeposit
  deriving DecidableEq, Repr

/-- Which of the two approvals a step belongs to. -/
inductive Approval
  | finance
  | deposits
  deriving DecidableEq, Repr

/-- The statement that a call has to execute next. -/
inductive ApprovalTask
  | idle
  | checkFunds (r : Request)
  | readWallet (route : Approval) (r : Request)
  | insertEntry (route : Approval) (r : Request) (currentBalance : ℚ)
  | writeWallet (route : Approval) (r : Request) (currentBalance : ℚ)
  | markCompleted (r : Request)
  | markApproved (r : Request)
  | markRejected (route : Approval) (r : Request)
  | accrue (r : Request)
  | readReferrer (r : Request) (commissionAmount : ℚ)
  | writeReferrer (r : Request) (commissionAmount currentBalance : ℚ)
  | markPaid (r : Request)
  deriving DecidableEq, Repr

/-- A user's spot USD wallet, the user's requests, the referrer's wallet and
the calls that are running. -/
structure ApprovalDesk where
  availableBalance : ℚ
  /-- `delta` and `balance_after` of the wallet's ledger entries -/
  entries : List (ℚ × ℚ)
  rows : FiniteTable RequestId RequestRow
  /-- the referrer's `referral_code`, if there is a referrer -/
  referralCode : Option String
  /-- `commission_percent` of level 1 -/
  commissionPercent : Option ℚ
  referrerBalance : ℚ
  tasks : ℕ → ApprovalTask

inductive ApprovalAction
  | call (t : ℕ) (endpoint : Endpoint) (id : RequestId)
  | advance (t : ℕ)
  deriving DecidableEq, Repr

def ApprovalAction.task : ApprovalAction → ℕ
  | .call t _ _ => t
  | .advance t => t

/-- `Decimal::round_dp(2)`: a value in the middle goes to the even neighbour. -/
def roundDp2 (x : ℚ) : ℚ :=
  let floor := ⌊x * 100⌋
  let rest := x * 100 - floor
  if rest < 1 / 2 ∨ rest = 1 / 2 ∧ floor % 2 = 0 then floor / 100 else (floor + 1) / 100

namespace ApprovalDesk

def setTask (s : ApprovalDesk) (t : ℕ) (task : ApprovalTask) : ApprovalDesk :=
  { s with tasks := Function.update s.tasks t task }

/-- UPDATE of the row with the given id. -/
def updateRow (s : ApprovalDesk) (id : RequestId) (write : RequestRow → RequestRow) :
    ApprovalDesk :=
  match s.rows.lookup id with
  | none => s
  | some row => { s with rows := s.rows.insert id (write row) }

/-- What follows the first SELECT of a pending row. -/
def firstTask (endpoint : Endpoint) (id : RequestId) (row : RequestRow) : ApprovalTask :=
  match endpoint with
  | .approveTransaction =>
    match row.kind with
    | .withdrawal => .checkFunds ⟨id, row.kind, row.netAmount⟩
    | .deposit => .readWallet .finance ⟨id, row.kind, row.netAmount⟩
  | .rejectTransaction => .markRejected .finance ⟨id, row.kind, row.netAmount⟩
  | .approveDeposit => .markApproved ⟨id, row.kind, row.amount⟩
  | .rejectDeposit => .markRejected .deposits ⟨id, row.kind, row.amount⟩

/-- The endpoints of `deposits` select deposits only. -/
def selects (endpoint : Endpoint) (row : RequestRow) : Bool :=
  match endpoint with
  | .approveTransaction => true
  | .rejectTransaction => true
  | .approveDeposit => row.kind = .deposit
  | .rejectDeposit => row.kind = .deposit

def select (s : ApprovalDesk) (t : ℕ) (endpoint : Endpoint) (id : RequestId) : ApprovalDesk :=
  match s.rows.lookup id with
  | none => s
  | some row =>
    if selects endpoint row ∧ row.status = .pending then s.setTask t (firstTask endpoint id row)
    else s

/-- The commission of a deposit, if one is to be accrued. -/
def commission (s : ApprovalDesk) (depositAmount : ℚ) : Option ℚ :=
  match s.referralCode, s.commissionPercent with
  | some _, some percent =>
    let commissionAmount := roundDp2 (depositAmount * percent / 100)
    if 0 < percent ∧ 0 < commissionAmount then some commissionAmount else none
  | _, _ => none

/-- The next statement of a call. -/
def advance (s : ApprovalDesk) (t : ℕ) : Option ApprovalDesk :=
  match s.tasks t with
  | .idle => none
  | .checkFunds r =>
    if s.availableBalance < r.amount then some (s.setTask t .idle)
    else some (s.setTask t (.readWallet .finance r))
  | .readWallet route r => some (s.setTask t (.insertEntry route r s.availableBalance))
  | .insertEntry route r currentBalance =>
    some { s.setTask t (.writeWallet route r currentBalance) with
      entries := s.entries ++ [(r.delta, currentBalance + r.delta)] }
  | .writeWallet route r currentBalance =>
    let paid := { s with availableBalance := currentBalance + r.delta }.updateRow r.id
      fun row => { row with applied := row.applied + 1 }
    match route with
    | .finance => some (paid.setTask t (.markCompleted r))
    | .deposits => some (paid.setTask t (.accrue r))
  | .markCompleted r =>
    let marked := s.updateRow r.id fun row => { row with status := .completed }
    match r.kind with
    | .deposit => some (marked.setTask t (.accrue r))
    | .withdrawal => some (marked.setTask t .idle)
  | .markApproved r =>
    let marked := s.updateRow r.id fun row =>
      if row.status = .pending then { row with status := .approved } else row
    some (marked.setTask t (.readWallet .deposits r))
  | .markRejected .finance r =>
    some ((s.updateRow r.id fun row => { row with status := .rejected }).setTask t .idle)
  | .markRejected .deposits r =>
    let marked := s.updateRow r.id fun row =>
      if row.status = .pending then { row with status := .rejected } else row
    some (marked.setTask t .idle)
  | .accrue r =>
    match s.commission r.amount with
    | none => some (s.setTask t .idle)
    | some commissionAmount =>
      let accrued := s.updateRow r.id fun row => { row with commissions := row.commissions + 1 }
      some (accrued.setTask t (.readReferrer r commissionAmount))
  | .readReferrer r commissionAmount =>
    some (s.setTask t (.writeReferrer r commissionAmount s.referrerBalance))
  | .writeReferrer r commissionAmount currentBalance =>
    let paid := { s with referrerBalance := currentBalance + commissionAmount }.updateRow r.id
      fun row => { row with rebates := row.rebates + 1 }
    some (paid.setTask t (.markPaid r))
  | .markPaid _ => some (s.setTask t .idle)

def step (s : ApprovalDesk) : ApprovalAction → Option ApprovalDesk
  | .call t endpoint id => if s.tasks t = .idle then some (s.select t endpoint id) else none
  | .advance t => s.advance t

/-- The sum of what the requests have moved. -/
def moved (s : ApprovalDesk) : ℚ := total (fun _ row => row.applied * row.delta) s.rows

/-- A pending request for which no money has been moved. -/
def Untouched (s : ApprovalDesk) (id : RequestId) : Prop :=
  ∀ row ∈ s.rows.lookup id, row.status = .pending ∧ row.applied = 0

/-- The balance that is written over is the one that was read, and a
withdrawal is still covered by it. -/
def Current (s : ApprovalDesk) (r : Request) (currentBalance : ℚ) : Prop :=
  s.availableBalance = currentBalance ∧ (r.kind = .withdrawal → r.amount ≤ s.availableBalance)

/-- What a call has read still holds when it starts to write: at its first
write the request is untouched, and at the UPDATE of the wallet the balance is
the one it has read. -/
def StillValid (s : ApprovalDesk) : ApprovalTask → Prop
  | .writeWallet .finance r currentBalance => s.Untouched r.id ∧ s.Current r currentBalance
  | .writeWallet .deposits r currentBalance => s.Current r currentBalance
  | .markApproved r => s.Untouched r.id
  | .markRejected _ r => s.Untouched r.id
  | .idle => True
  | .checkFunds _ => True
  | .readWallet _ _ => True
  | .insertEntry _ _ _ => True
  | .markCompleted _ => True
  | .accrue _ => True
  | .readReferrer _ _ => True
  | .writeReferrer _ _ _ => True
  | .markPaid _ => True

instance (s : ApprovalDesk) (r : Request) (currentBalance : ℚ) :
    Decidable (s.Current r currentBalance) :=
  inferInstanceAs (Decidable (s.availableBalance = currentBalance ∧
    (r.kind = .withdrawal → r.amount ≤ s.availableBalance)))

instance (s : ApprovalDesk) (id : RequestId) : Decidable (s.Untouched id) :=
  inferInstanceAs (Decidable (∀ row ∈ s.rows.lookup id, row.status = .pending ∧ row.applied = 0))

instance (s : ApprovalDesk) : DecidablePred s.StillValid
  | .writeWallet .finance r currentBalance =>
    inferInstanceAs (Decidable (s.Untouched r.id ∧ s.Current r currentBalance))
  | .writeWallet .deposits r currentBalance =>
    inferInstanceAs (Decidable (s.Current r currentBalance))
  | .markApproved r => inferInstanceAs (Decidable (s.Untouched r.id))
  | .markRejected _ r => inferInstanceAs (Decidable (s.Untouched r.id))
  | .idle => inferInstanceAs (Decidable True)
  | .checkFunds _ => inferInstanceAs (Decidable True)
  | .readWallet _ _ => inferInstanceAs (Decidable True)
  | .insertEntry _ _ _ => inferInstanceAs (Decidable True)
  | .markCompleted _ => inferInstanceAs (Decidable True)
  | .accrue _ => inferInstanceAs (Decidable True)
  | .readReferrer _ _ => inferInstanceAs (Decidable True)
  | .writeReferrer _ _ _ => inferInstanceAs (Decidable True)
  | .markPaid _ => inferInstanceAs (Decidable True)

def Undisturbed (s : ApprovalDesk) : ApprovalAction → Prop
  | .call _ _ _ => True
  | .advance t => s.StillValid (s.tasks t)

instance (s : ApprovalDesk) : DecidablePred s.Undisturbed
  | .call _ _ _ => inferInstanceAs (Decidable True)
  | .advance t => inferInstanceAs (Decidable (s.StillValid (s.tasks t)))

/-- Each request is settled once. The first field is about a desk at rest. -/
structure RequestsSettled (s initial : ApprovalDesk) : Prop where
  applied : (∀ t, s.tasks t = .idle) → ∀ id, ∀ row ∈ s.rows.lookup id, row.applied ≤ 1 ∧
    (row.applied = 1 ↔ row.status = .completed ∨ row.status = .approved)
  balance : s.availableBalance = initial.availableBalance + s.moved
  final : ∀ action after, s.Undisturbed action → s.step action = some after →
    ∀ id, ∀ row ∈ s.rows.lookup id, row.status ≠ .pending →
      ∃ later ∈ after.rows.lookup id, later.status = row.status
  commissions : ∀ id, ∀ row ∈ s.rows.lookup id, row.commissions ≤ 1 ∧ row.rebates ≤ 1
  funds : 0 ≤ initial.availableBalance → 0 ≤ s.availableBalance

/-- Requests as the request routes create them, and no call yet. -/
structure Requested (s : ApprovalDesk) : Prop where
  rows : ∀ id, ∀ row ∈ s.rows.lookup id, row.netAmount = row.amount ∧ 10 ≤ row.amount ∧
    row.status = .pending ∧ row.applied = 0 ∧ row.commissions = 0 ∧ row.rebates = 0
  idle : ∀ t, s.tasks t = .idle

end ApprovalDesk

namespace ApprovalTask

/-- What a call has read of its request. -/
def request : ApprovalTask → Option Request
  | .idle => none
  | .checkFunds r => some r
  | .readWallet _ r => some r
  | .insertEntry _ r _ => some r
  | .writeWallet _ r _ => some r
  | .markCompleted r => some r
  | .markApproved r => some r
  | .markRejected _ r => some r
  | .accrue r => some r
  | .readReferrer r _ => some r
  | .writeReferrer r _ _ => some r
  | .markPaid r => some r

/-- The request for which a call has begun to write and has not finished. -/
def engaged : ApprovalTask → Option RequestId
  | .readWallet .deposits r => some r.id
  | .insertEntry .deposits r _ => some r.id
  | .writeWallet .deposits r _ => some r.id
  | .markCompleted r => some r.id
  | .accrue r => some r.id
  | .readReferrer r _ => some r.id
  | .writeReferrer r _ _ => some r.id
  | .markPaid r => some r.id
  | _ => none

end ApprovalTask

namespace RequestRow

def Settled (row : RequestRow) : Prop := row.status = .completed ∨ row.status = .approved

/-- How often the row's money, commission and rebate have been booked. -/
def Counts (row : RequestRow) (applied commissions rebates : ℕ) : Prop :=
  row.applied = applied ∧ row.commissions = commissions ∧ row.rebates = rebates

/-- The row as a call that is engaged with it has left it. -/
def LeftBy (row : RequestRow) : ApprovalTask → Prop
  | .readWallet .deposits _ => row.status = .approved ∧ row.Counts 0 0 0
  | .insertEntry .deposits _ _ => row.status = .approved ∧ row.Counts 0 0 0
  | .writeWallet .deposits _ _ => row.status = .approved ∧ row.Counts 0 0 0
  | .markCompleted _ => row.status = .pending ∧ row.Counts 1 0 0
  | .accrue _ => row.Settled ∧ row.Counts 1 0 0
  | .readReferrer _ _ => row.Settled ∧ row.Counts 1 1 0
  | .writeReferrer _ _ _ => row.Settled ∧ row.Counts 1 1 0
  | .markPaid _ => row.Settled ∧ row.Counts 1 1 1
  | _ => False

/-- The row when no call is engaged with it. -/
def AtRest (row : RequestRow) : Prop :=
  (row.status = .pending ∨ row.status = .rejected) ∧ row.Counts 0 0 0 ∨
    row.Settled ∧ row.applied = 1 ∧ row.commissions ≤ 1 ∧ row.rebates ≤ 1

end RequestRow

namespace ApprovalDesk

/-- One call is engaged with the row and has left it so, or none is. -/
def Consistent (s : ApprovalDesk) (id : RequestId) (row : RequestRow) : Prop :=
  (∃ t, (s.tasks t).engaged = some id ∧ row.LeftBy (s.tasks t) ∧
    ∀ u, (s.tasks u).engaged = some id → u = t) ∨
  row.AtRest ∧ ∀ u, (s.tasks u).engaged ≠ some id

/-- The call's request has a row with what the call has read. -/
def Snapshot (s : ApprovalDesk) (r : Request) : Prop :=
  ∃ row ∈ s.rows.lookup r.id, row.kind = r.kind ∧ row.netAmount = r.amount

/-- The invariant. -/
structure Sound (s initial : ApprovalDesk) : Prop where
  snapshot : ∀ t, ∀ r ∈ (s.tasks t).request, s.Snapshot r
  amounts : ∀ id, ∀ row ∈ s.rows.lookup id, row.netAmount = row.amount ∧ 0 ≤ row.netAmount
  consistent : ∀ id, ∀ row ∈ s.rows.lookup id, s.Consistent id row
  balance : s.availableBalance = initial.availableBalance + s.moved
  funds : 0 ≤ initial.availableBalance → 0 ≤ s.availableBalance

variable {initial s after : ApprovalDesk} {t : ℕ} {id : RequestId} {row : RequestRow} {r : Request}

theorem updateRow_of_stored (stored : s.rows.lookup id = some row)
    (write : RequestRow → RequestRow) :
    s.updateRow id write = { s with rows := s.rows.insert id (write row) } := by
  unfold updateRow
  rw [stored]

theorem moved_insert (stored : s.rows.lookup id = some row) {changed : RequestRow}
    (delta : changed.delta = row.delta) :
    moved { s with rows := s.rows.insert id changed } =
      s.moved + ((changed.applied : ℚ) - row.applied) * row.delta := by
  unfold moved
  rw [total_insert, share_some stored, delta]
  ring

/-- A call that is engaged with a row is the only one, and the row is as it
has left it. -/
theorem Sound.engaged (sound : s.Sound initial) (stored : s.rows.lookup id = some row)
    (engaged : (s.tasks t).engaged = some id) :
    row.LeftBy (s.tasks t) ∧ ∀ u, (s.tasks u).engaged = some id → u = t := by
  rcases sound.consistent id row stored with ⟨u, _, left, only⟩ | ⟨_, nobody⟩
  · have same : t = u := only t engaged
    subst same
    exact ⟨left, only⟩
  · exact absurd engaged (nobody t)

/-- A call is engaged with a row of which it has changed something. -/
theorem LeftBy.touched {task : ApprovalTask} (left : row.LeftBy task)
    (pending : row.status = .pending) : row.applied = 1 := by
  have unsettled : ¬ row.Settled := by
    unfold RequestRow.Settled
    rw [pending]
    rintro (completed | approved)
    · cases completed
    · cases approved
  have unapproved : row.status ≠ .approved := fun approved => unsettled (.inr approved)
  cases task with
  | readWallet route r => cases route with
    | finance => exact left.elim
    | deposits => exact absurd left.1 unapproved
  | insertEntry route r currentBalance => cases route with
    | finance => exact left.elim
    | deposits => exact absurd left.1 unapproved
  | writeWallet route r currentBalance => cases route with
    | finance => exact left.elim
    | deposits => exact absurd left.1 unapproved
  | markCompleted r => exact left.2.1
  | accrue r => exact absurd left.1 unsettled
  | readReferrer r commissionAmount => exact absurd left.1 unsettled
  | writeReferrer r commissionAmount currentBalance => exact absurd left.1 unsettled
  | markPaid r => exact absurd left.1 unsettled
  | idle | checkFunds _ | markApproved _ | markRejected _ _ => exact left.elim

/-- No call is engaged with an untouched row, and nothing is booked for it. -/
theorem Sound.untouched (sound : s.Sound initial) (stored : s.rows.lookup id = some row)
    (untouched : s.Untouched id) :
    row.Counts 0 0 0 ∧ ∀ u, (s.tasks u).engaged ≠ some id := by
  obtain ⟨pending, unpaid⟩ := untouched row stored
  rcases sound.consistent id row stored with ⟨u, _, left, _⟩ | ⟨rest, nobody⟩
  · have paid := LeftBy.touched left pending
    omega
  · refine ⟨?_, nobody⟩
    rcases rest with ⟨_, counts⟩ | ⟨_, paid, _⟩
    · exact counts
    · omega

theorem Sound.snapshot_row (sound : s.Sound initial) (read : (s.tasks t).request = some r) :
    ∃ row, s.rows.lookup r.id = some row ∧ row.delta = r.delta ∧ 0 ≤ r.amount := by
  obtain ⟨row, stored, kind, amount⟩ := sound.snapshot t r read
  refine ⟨row, stored, ?_, amount ▸ (sound.amounts r.id row stored).2⟩
  rw [RequestRow.delta, Request.delta, kind, amount]

/-- A step that changes no row and keeps what the call is engaged with. -/
theorem Sound.retask (sound : s.Sound initial) {task : ApprovalTask}
    (engaged : task.engaged = (s.tasks t).engaged)
    (left : ∀ row : RequestRow, row.LeftBy (s.tasks t) → row.LeftBy task)
    (request : ∀ r ∈ task.request, s.Snapshot r) (rows : after.rows = s.rows)
    (tasks : after.tasks = Function.update s.tasks t task)
    (balance : after.availableBalance = s.availableBalance) : after.Sound initial := by
  have others : ∀ u, (after.tasks u).engaged = (s.tasks u).engaged := by
    intro u
    rw [tasks]
    by_cases same : u = t
    · rw [same, Function.update_self, engaged]
    · rw [Function.update_of_ne same]
  constructor
  · intro u r read
    unfold Snapshot
    rw [rows]
    rw [tasks] at read
    by_cases same : u = t
    · rw [same, Function.update_self] at read
      exact request r read
    · rw [Function.update_of_ne same] at read
      exact sound.snapshot u r read
  · rw [rows]
    exact sound.amounts
  · intro id row stored
    rw [rows] at stored
    rcases sound.consistent id row stored with ⟨u, atRow, leftRow, only⟩ | ⟨rest, nobody⟩
    · refine .inl ⟨u, (others u).trans atRow, ?_, fun v atV => only v ((others v).symm.trans atV)⟩
      rw [tasks]
      by_cases same : u = t
      · rw [same, Function.update_self]
        exact left row (same ▸ leftRow)
      · rw [Function.update_of_ne same]
        exact leftRow
    · exact .inr ⟨rest, fun u atU => nobody u ((others u).symm.trans atU)⟩
  · rw [balance, moved, rows]
    exact sound.balance
  · rw [balance]
    exact sound.funds

/-- A step that may change one row, which no other call is engaged with. -/
theorem Sound.land (sound : s.Sound initial) {changed : RequestRow} {task : ApprovalTask}
    (stored : s.rows.lookup id = some row)
    (alone : ∀ u, (s.tasks u).engaged = some id → u = t)
    (own : ∀ other, (s.tasks t).engaged = some other → other = id)
    (kept : changed.kind = row.kind ∧ changed.amount = row.amount ∧
      changed.netAmount = row.netAmount)
    (lands : task.engaged = some id ∧ changed.LeftBy task ∨ task.engaged = none ∧ changed.AtRest)
    (request : ∀ r ∈ task.request, r ∈ (s.tasks t).request)
    (atId : after.rows.lookup id = some changed)
    (elsewhere : ∀ q, q ≠ id → after.rows.lookup q = s.rows.lookup q)
    (tasks : after.tasks = Function.update s.tasks t task)
    (balance : after.availableBalance - after.moved = s.availableBalance - s.moved)
    (funds : 0 ≤ s.availableBalance → 0 ≤ after.availableBalance) : after.Sound initial := by
  have atTask : after.tasks t = task := by rw [tasks, Function.update_self]
  have otherTask : ∀ u, u ≠ t → after.tasks u = s.tasks u := by
    intro u other
    rw [tasks, Function.update_of_ne other]
  have readBefore : ∀ u, ∀ r ∈ (after.tasks u).request, r ∈ (s.tasks u).request := by
    intro u r read
    by_cases same : u = t
    · subst same
      exact request r (atTask ▸ read)
    · exact otherTask u same ▸ read
  constructor
  · intro u r read
    obtain ⟨old, atOld, kind, amount⟩ := sound.snapshot u r (readBefore u r read)
    by_cases same : r.id = id
    · have oldRow : old = row := Option.some.inj (atOld.symm.trans (same ▸ stored))
      subst oldRow
      exact ⟨changed, same ▸ atId, kept.1.trans kind, kept.2.2.trans amount⟩
    · exact ⟨old, (elsewhere r.id same).trans atOld, kind, amount⟩
  · intro q found atQ
    by_cases same : q = id
    · subst same
      cases Option.some.inj (atId.symm.trans atQ)
      have amounts := sound.amounts q row stored
      rw [kept.2.1, kept.2.2]
      exact amounts
    · exact sound.amounts q found (elsewhere q same ▸ atQ)
  · intro q found atQ
    by_cases same : q = id
    · subst same
      cases Option.some.inj (atId.symm.trans atQ)
      have nobodyElse : ∀ u, u ≠ t → (after.tasks u).engaged ≠ some q := by
        intro u other atU
        exact other (alone u (otherTask u other ▸ atU))
      rcases lands with ⟨atRow, left⟩ | ⟨none, rest⟩
      · exact .inl ⟨t, atTask ▸ atRow, atTask ▸ left,
          fun u atU => not_not.mp fun other => nobodyElse u other atU⟩
      · refine .inr ⟨rest, fun u atU => ?_⟩
        by_cases isT : u = t
        · rw [isT, atTask, none] at atU
          cases atU
        · exact nobodyElse u isT atU
    · -- the stepping call is engaged with no other row, before or after
      have notBefore : (s.tasks t).engaged ≠ some q := fun atT => same (own q atT)
      have notAfter : (after.tasks t).engaged ≠ some q := by
        rw [atTask]
        rcases lands with ⟨atRow, _⟩ | ⟨none, _⟩
        · rw [atRow]
          exact fun atT => same (Option.some.inj atT).symm
        · rw [none]
          exact nofun
      have engagedIff : ∀ u, (after.tasks u).engaged = some q ↔ (s.tasks u).engaged = some q := by
        intro u
        by_cases isT : u = t
        · subst isT
          exact iff_of_false notAfter notBefore
        · rw [otherTask u isT]
      rcases sound.consistent q found (elsewhere q same ▸ atQ) with
        ⟨u, atU, left, only⟩ | ⟨rest, nobody⟩
      · have notT : u ≠ t := fun isT => notBefore (isT ▸ atU)
        exact .inl ⟨u, (engagedIff u).mpr atU, (otherTask u notT).symm ▸ left,
          fun v atV => only v ((engagedIff v).mp atV)⟩
      · exact .inr ⟨rest, fun u atU => nobody u ((engagedIff u).mp atU)⟩
  · rw [← sub_eq_iff_eq_add, balance, sound.balance, add_sub_cancel_right]
  · exact fun start => funds (sound.funds start)

/-- A step that writes one row, which no other call is engaged with. -/
theorem Sound.write (sound : s.Sound initial) {changed : RequestRow} {task : ApprovalTask}
    (stored : s.rows.lookup id = some row)
    (alone : ∀ u, (s.tasks u).engaged = some id → u = t)
    (own : ∀ other, (s.tasks t).engaged = some other → other = id)
    (kept : changed.kind = row.kind ∧ changed.amount = row.amount ∧
      changed.netAmount = row.netAmount)
    (lands : task.engaged = some id ∧ changed.LeftBy task ∨ task.engaged = none ∧ changed.AtRest)
    (request : ∀ r ∈ task.request, r ∈ (s.tasks t).request)
    (rows : after.rows = s.rows.insert id changed)
    (tasks : after.tasks = Function.update s.tasks t task)
    (balance : after.availableBalance =
      s.availableBalance + ((changed.applied : ℚ) - row.applied) * row.delta)
    (funds : 0 ≤ s.availableBalance → 0 ≤ after.availableBalance) : after.Sound initial := by
  have delta : changed.delta = row.delta := by
    rw [RequestRow.delta, kept.1, kept.2.2, RequestRow.delta]
  have moves : after.moved = moved { s with rows := s.rows.insert id changed } := by
    unfold moved
    rw [rows]
  refine sound.land stored alone own kept lands request ?_ (fun q other => ?_) tasks ?_ funds
  · rw [rows, AList.lookup_insert]
  · rw [rows, AList.lookup_insert_ne other]
  · rw [balance, moves, moved_insert stored delta]
    ring

/-- A step of a call that changes nothing but its task. -/
theorem Sound.proceed (sound : s.Sound initial) {task : ApprovalTask}
    (engaged : task.engaged = (s.tasks t).engaged)
    (left : ∀ row : RequestRow, row.LeftBy (s.tasks t) → row.LeftBy task)
    (request : ∀ r ∈ task.request, r ∈ (s.tasks t).request) : (s.setTask t task).Sound initial :=
  sound.retask engaged left (fun r read => sound.snapshot t r (request r read)) rfl rfl rfl

theorem firstTask_engaged (endpoint : Endpoint) (id : RequestId) (row : RequestRow) :
    (firstTask endpoint id row).engaged = none := by
  obtain ⟨kind, _⟩ := row
  cases endpoint <;> cases kind <;> rfl

theorem firstTask_request (endpoint : Endpoint) (id : RequestId) (row : RequestRow) :
    (firstTask endpoint id row).request = some ⟨id, row.kind, row.netAmount⟩ ∨
      (firstTask endpoint id row).request = some ⟨id, row.kind, row.amount⟩ := by
  obtain ⟨kind, _⟩ := row
  cases endpoint <;> cases kind <;> first | exact .inl rfl | exact .inr rfl

theorem Sound.select (sound : s.Sound initial) (free : s.tasks t = .idle) (endpoint : Endpoint)
    (id : RequestId) : (s.select t endpoint id).Sound initial := by
  unfold ApprovalDesk.select
  cases stored : s.rows.lookup id with
  | none => exact sound
  | some row =>
    dsimp only
    split_ifs
    · have amounts := (sound.amounts id row stored).1
      refine sound.retask ?_ (fun _ left => ?_) (fun r read => ?_) rfl rfl rfl
      · rw [firstTask_engaged, free]
        rfl
      · rw [free] at left
        exact left.elim
      · rcases firstTask_request endpoint id row with net | gross
        · cases Option.some.inj (net.symm.trans read)
          exact ⟨row, stored, rfl, rfl⟩
        · cases Option.some.inj (gross.symm.trans read)
          exact ⟨row, stored, rfl, amounts⟩
    · exact sound

/-- The first write of a call, on a request that is still untouched. -/
theorem Sound.firstWrite (sound : s.Sound initial) {task : ApprovalTask}
    {write : RequestRow → RequestRow} (atTask : (s.tasks t).engaged = none)
    (stored : s.rows.lookup id = some row) (untouched : s.Untouched id)
    (kept : (write row).kind = row.kind ∧ (write row).amount = row.amount ∧
      (write row).netAmount = row.netAmount ∧ (write row).applied = row.applied)
    (lands : row.status = .pending → row.Counts 0 0 0 →
      task.engaged = some id ∧ (write row).LeftBy task ∨ task.engaged = none ∧ (write row).AtRest)
    (request : ∀ r ∈ task.request, r ∈ (s.tasks t).request) :
    ((s.updateRow id write).setTask t task).Sound initial := by
  obtain ⟨counts, nobody⟩ := sound.untouched stored untouched
  rw [updateRow_of_stored stored]
  refine sound.write stored (fun u atU => absurd atU (nobody u)) ?_
    ⟨kept.1, kept.2.1, kept.2.2.1⟩ (lands (untouched row stored).1 counts) request rfl rfl ?_
    (fun nonneg => nonneg)
  · intro other atOther
    rw [atTask] at atOther
    cases atOther
  · rw [kept.2.2.2, sub_self, zero_mul, add_zero]
    rfl

/-- A later write of a call that is engaged with the row. -/
theorem Sound.laterWrite (sound : s.Sound initial) {task : ApprovalTask}
    {write : RequestRow → RequestRow} (atTask : (s.tasks t).engaged = some id)
    (stored : s.rows.lookup id = some row)
    (kept : (write row).kind = row.kind ∧ (write row).amount = row.amount ∧
      (write row).netAmount = row.netAmount ∧ (write row).applied = row.applied)
    (lands : row.LeftBy (s.tasks t) →
      task.engaged = some id ∧ (write row).LeftBy task ∨ task.engaged = none ∧ (write row).AtRest)
    (request : ∀ r ∈ task.request, r ∈ (s.tasks t).request) :
    ((s.updateRow id write).setTask t task).Sound initial := by
  obtain ⟨left, alone⟩ := sound.engaged stored atTask
  rw [updateRow_of_stored stored]
  refine sound.write stored alone ?_ ⟨kept.1, kept.2.1, kept.2.2.1⟩ (lands left) request rfl rfl ?_
    (fun nonneg => nonneg)
  · intro other atOther
    exact Option.some.inj (atOther.symm.trans atTask)
  · rw [kept.2.2.2, sub_self, zero_mul, add_zero]
    rfl

/-- The last step of a call that is engaged with a row. -/
theorem Sound.finish (sound : s.Sound initial) (atTask : (s.tasks t).engaged = some id)
    (stored : s.rows.lookup id = some row) (rests : row.LeftBy (s.tasks t) → row.AtRest) :
    (s.setTask t .idle).Sound initial := by
  obtain ⟨left, alone⟩ := sound.engaged stored atTask
  exact sound.land stored alone (fun _ atOther => Option.some.inj (atOther.symm.trans atTask))
    ⟨rfl, rfl, rfl⟩ (.inr ⟨rfl, rests left⟩) (fun _ read => by cases read) stored (fun _ _ => rfl) rfl rfl
    (fun nonneg => nonneg)

/-- The UPDATE of the wallet over the balance that the call has read. -/
theorem Sound.writeWallet (sound : s.Sound initial) {task : ApprovalTask} {currentBalance : ℚ}
    (stored : s.rows.lookup r.id = some row) (delta : row.delta = r.delta) (nonneg : 0 ≤ r.amount)
    (current : s.Current r currentBalance)
    (alone : ∀ u, (s.tasks u).engaged = some r.id → u = t)
    (own : ∀ other, (s.tasks t).engaged = some other → other = r.id)
    (lands : task.engaged = some r.id ∧ RequestRow.LeftBy { row with applied := row.applied + 1 } task)
    (request : ∀ r ∈ task.request, r ∈ (s.tasks t).request) :
    (({ s with availableBalance := currentBalance + r.delta }.updateRow r.id
      fun row => { row with applied := row.applied + 1 }).setTask t task).Sound initial := by
  have same : ({ s with availableBalance := currentBalance + r.delta } : ApprovalDesk).rows.lookup
      r.id = some row := stored
  let changed : RequestRow := { row with applied := row.applied + 1 }
  have kept : changed.kind = row.kind ∧ changed.amount = row.amount ∧
      changed.netAmount = row.netAmount := ⟨rfl, rfl, rfl⟩
  rw [updateRow_of_stored same]
  refine sound.write stored alone own kept (.inl lands) request rfl rfl ?_ ?_
  · change currentBalance + r.delta =
      s.availableBalance + (((row.applied + 1 : ℕ) : ℚ) - row.applied) * row.delta
    rw [current.1, delta, Nat.cast_succ, add_sub_cancel_left, one_mul]
  · intro before
    change 0 ≤ currentBalance + r.delta
    rw [← current.1, Request.delta]
    cases kind : r.kind with
    | deposit => exact add_nonneg before nonneg
    | withdrawal =>
      change 0 ≤ s.availableBalance + -r.amount
      rw [← sub_eq_add_neg]
      exact sub_nonneg.mpr (current.2 kind)

theorem Sound.advance (sound : s.Sound initial) (valid : s.StillValid (s.tasks t))
    (taken : s.advance t = some after) : after.Sound initial := by
  unfold ApprovalDesk.advance at taken
  cases atTask : s.tasks t with
  | idle =>
    rw [atTask] at taken
    cases taken
  | checkFunds r =>
    rw [atTask] at taken
    dsimp only at taken
    split_ifs at taken <;> cases taken
    · exact sound.proceed (by rw [atTask]; rfl) (fun _ left => by rw [atTask] at left; exact left.elim)
        nofun
    · exact sound.proceed (by rw [atTask]; rfl) (fun _ left => by rw [atTask] at left; exact left.elim)
        (fun _ read => by rw [atTask]; exact read)
  | readWallet route r =>
    rw [atTask] at taken
    cases taken
    refine sound.proceed ?_ (fun row left => ?_) (fun _ read => by rw [atTask]; exact read)
    · rw [atTask]
      cases route <;> rfl
    · rw [atTask] at left
      cases route <;> exact left
  | insertEntry route r currentBalance =>
    rw [atTask] at taken
    cases taken
    refine sound.retask ?_ (fun row left => ?_) (fun u read => ?_) rfl rfl rfl
    · rw [atTask]
      cases route <;> rfl
    · rw [atTask] at left
      cases route <;> exact left
    · exact sound.snapshot t u (by rw [atTask]; exact read)
  | writeWallet route r currentBalance =>
    rw [atTask] at taken valid
    obtain ⟨row, stored, delta, nonneg⟩ := sound.snapshot_row (by rw [atTask]; rfl)
    cases route with
    | finance =>
      cases taken
      obtain ⟨counts, nobody⟩ := sound.untouched stored valid.1
      have pending := (valid.1 row stored).1
      refine sound.writeWallet stored delta nonneg valid.2 (fun u atU => absurd atU (nobody u)) ?_
        ⟨rfl, pending, by rw [counts.1], counts.2.1, counts.2.2⟩ (fun _ read => by rw [atTask]; exact read)
      intro other atOther
      rw [atTask] at atOther
      cases atOther
    | deposits =>
      cases taken
      have engaged : (s.tasks t).engaged = some r.id := by rw [atTask]; rfl
      obtain ⟨left, alone⟩ := sound.engaged stored engaged
      rw [atTask] at left
      obtain ⟨approved, applied, commissions, rebates⟩ := left
      refine sound.writeWallet stored delta nonneg valid alone ?_
        ⟨rfl, .inr approved, by rw [applied], commissions, rebates⟩
        (fun _ read => by rw [atTask]; exact read)
      intro other atOther
      exact Option.some.inj (atOther.symm.trans engaged)
  | markCompleted r =>
    rw [atTask] at taken
    dsimp only at taken
    obtain ⟨row, stored, _, _⟩ := sound.snapshot_row (by rw [atTask]; rfl)
    have engaged : (s.tasks t).engaged = some r.id := by rw [atTask]; rfl
    cases kind : r.kind with
    | deposit =>
      rw [kind] at taken
      cases taken
      refine sound.laterWrite engaged stored ⟨rfl, rfl, rfl, rfl⟩ (fun left => ?_)
        (fun _ read => by rw [atTask]; exact read)
      rw [atTask] at left
      exact .inl ⟨rfl, .inl rfl, left.2⟩
    | withdrawal =>
      rw [kind] at taken
      cases taken
      refine sound.laterWrite engaged stored ⟨rfl, rfl, rfl, rfl⟩ (fun left => ?_) nofun
      rw [atTask] at left
      obtain ⟨_, applied, commissions, rebates⟩ := left
      exact .inr ⟨rfl, .inr ⟨.inl rfl, applied, commissions.trans_le zero_le_one,
        rebates.trans_le zero_le_one⟩⟩
  | markApproved r =>
    rw [atTask] at taken valid
    obtain ⟨row, stored, _, _⟩ := sound.snapshot_row (by rw [atTask]; rfl)
    cases taken
    have pending := (valid row stored).1
    refine sound.firstWrite (by rw [atTask]; rfl) stored valid ?_ (fun _ counts => ?_)
      (fun _ read => by rw [atTask]; exact read)
    · split_ifs
      exact ⟨rfl, rfl, rfl, rfl⟩
    · rw [if_pos pending]
      exact .inl ⟨rfl, rfl, counts⟩
  | markRejected route r =>
    rw [atTask] at taken valid
    obtain ⟨row, stored, _, _⟩ := sound.snapshot_row (by rw [atTask]; rfl)
    have pending := (valid row stored).1
    cases route with
    | finance =>
      cases taken
      exact sound.firstWrite (by rw [atTask]; rfl) stored valid ⟨rfl, rfl, rfl, rfl⟩
        (fun _ counts => .inr ⟨rfl, .inl ⟨.inr rfl, counts⟩⟩) nofun
    | deposits =>
      cases taken
      refine sound.firstWrite (by rw [atTask]; rfl) stored valid ?_ (fun _ counts => ?_) nofun
      · split_ifs
        exact ⟨rfl, rfl, rfl, rfl⟩
      · rw [if_pos pending]
        exact .inr ⟨rfl, .inl ⟨.inr rfl, counts⟩⟩
  | accrue r =>
    rw [atTask] at taken
    dsimp only at taken
    obtain ⟨row, stored, _, _⟩ := sound.snapshot_row (by rw [atTask]; rfl)
    have engaged : (s.tasks t).engaged = some r.id := by rw [atTask]; rfl
    cases found : s.commission r.amount with
    | none =>
      rw [found] at taken
      cases taken
      refine sound.finish engaged stored fun left => ?_
      rw [atTask] at left
      obtain ⟨settled, applied, commissions, rebates⟩ := left
      exact .inr ⟨settled, applied, commissions.trans_le zero_le_one, rebates.trans_le zero_le_one⟩
    | some commissionAmount =>
      rw [found] at taken
      cases taken
      refine sound.laterWrite engaged stored ⟨rfl, rfl, rfl, rfl⟩ (fun left => ?_)
        (fun _ read => by rw [atTask]; exact read)
      rw [atTask] at left
      obtain ⟨settled, applied, commissions, rebates⟩ := left
      exact .inl ⟨rfl, settled, applied, by rw [commissions], rebates⟩
  | readReferrer r commissionAmount =>
    rw [atTask] at taken
    cases taken
    refine sound.proceed (by rw [atTask]; rfl) (fun row left => ?_)
      (fun _ read => by rw [atTask]; exact read)
    rw [atTask] at left
    exact left
  | writeReferrer r commissionAmount currentBalance =>
    rw [atTask] at taken
    obtain ⟨row, stored, _, _⟩ := sound.snapshot_row (by rw [atTask]; rfl)
    have engaged : (s.tasks t).engaged = some r.id := by rw [atTask]; rfl
    cases taken
    have credited : Sound { s with referrerBalance := currentBalance + commissionAmount } initial :=
      ⟨sound.snapshot, sound.amounts, sound.consistent, sound.balance, sound.funds⟩
    refine credited.laterWrite engaged stored ⟨rfl, rfl, rfl, rfl⟩ (fun left => ?_)
      (fun _ read => by rw [atTask]; exact read)
    rw [atTask] at left
    obtain ⟨settled, applied, commissions, rebates⟩ := left
    exact .inl ⟨rfl, settled, applied, commissions, by rw [rebates]⟩
  | markPaid r =>
    rw [atTask] at taken
    obtain ⟨row, stored, _, _⟩ := sound.snapshot_row (by rw [atTask]; rfl)
    have engaged : (s.tasks t).engaged = some r.id := by rw [atTask]; rfl
    cases taken
    refine sound.finish engaged stored fun left => ?_
    rw [atTask] at left
    obtain ⟨settled, applied, commissions, rebates⟩ := left
    exact .inr ⟨settled, applied, commissions.le, rebates.le⟩

theorem Sound.step (sound : s.Sound initial) {action : ApprovalAction}
    (undisturbed : s.Undisturbed action) (taken : s.step action = some after) :
    after.Sound initial := by
  cases action with
  | call t endpoint id =>
    simp only [ApprovalDesk.step] at taken
    split_ifs at taken with free
    cases taken
    exact sound.select free endpoint id
  | advance t => exact sound.advance undisturbed taken

/-- An UPDATE that leaves the status of a row that is not pending. -/
theorem updateRow_status {target : RequestId} {write : RequestRow → RequestRow}
    (keeps : ∀ row ∈ s.rows.lookup target, row.status ≠ .pending → (write row).status = row.status)
    (stored : s.rows.lookup id = some row) (left : row.status ≠ .pending) :
    ∃ later ∈ (s.updateRow target write).rows.lookup id, later.status = row.status := by
  by_cases same : id = target
  · subst same
    rw [updateRow_of_stored stored]
    exact ⟨write row, AList.lookup_insert _, keeps row stored left⟩
  · refine ⟨row, ?_, rfl⟩
    unfold updateRow
    cases s.rows.lookup target with
    | none => exact stored
    | some other => exact (AList.lookup_insert_ne same).trans stored

theorem advance_status (sound : s.Sound initial) (valid : s.StillValid (s.tasks t))
    (taken : s.advance t = some after) (stored : s.rows.lookup id = some row)
    (left : row.status ≠ .pending) :
    ∃ later ∈ after.rows.lookup id, later.status = row.status := by
  have unchanged : ∃ later ∈ s.rows.lookup id, later.status = row.status := ⟨row, stored, rfl⟩
  unfold ApprovalDesk.advance at taken
  cases atTask : s.tasks t with
  | idle =>
    rw [atTask] at taken
    cases taken
  | checkFunds r =>
    rw [atTask] at taken
    dsimp only at taken
    split_ifs at taken <;> cases taken <;> exact unchanged
  | readWallet _ _ | insertEntry _ _ _ | readReferrer _ _ | markPaid _ =>
    rw [atTask] at taken
    cases taken
    exact unchanged
  | writeWallet route r currentBalance =>
    rw [atTask] at taken
    cases route <;> cases taken <;> exact updateRow_status (fun _ _ _ => rfl) stored left
  | markCompleted r =>
    rw [atTask] at taken
    dsimp only at taken
    have engaged : (s.tasks t).engaged = some r.id := by rw [atTask]; rfl
    have keeps : ∀ other ∈ s.rows.lookup r.id, other.status ≠ .pending →
        TransactionStatus.completed = other.status := by
      intro other atOther unpending
      have leftBy := (sound.engaged atOther engaged).1
      rw [atTask] at leftBy
      exact absurd leftBy.1 unpending
    cases kind : r.kind <;> rw [kind] at taken <;> cases taken <;>
      exact updateRow_status keeps stored left
  | markApproved r =>
    rw [atTask] at taken valid
    cases taken
    exact updateRow_status (fun other atOther unpending =>
      absurd (valid other atOther).1 unpending) stored left
  | markRejected route r =>
    rw [atTask] at taken valid
    cases route <;> cases taken <;>
      exact updateRow_status (fun other atOther unpending =>
        absurd (valid other atOther).1 unpending) stored left
  | accrue r =>
    rw [atTask] at taken
    dsimp only at taken
    cases found : s.commission r.amount with
    | none =>
      rw [found] at taken
      cases taken
      exact unchanged
    | some commissionAmount =>
      rw [found] at taken
      cases taken
      exact updateRow_status (fun _ _ _ => rfl) stored left
  | writeReferrer r commissionAmount currentBalance =>
    rw [atTask] at taken
    cases taken
    have same : ({ s with referrerBalance := currentBalance + commissionAmount } :
      ApprovalDesk).rows.lookup id = some row := stored
    exact updateRow_status (fun _ _ _ => rfl) same left

/-- A row that has left `pending` keeps its status. -/
theorem step_status (sound : s.Sound initial) {action : ApprovalAction}
    (undisturbed : s.Undisturbed action) (taken : s.step action = some after)
    (stored : s.rows.lookup id = some row) (left : row.status ≠ .pending) :
    ∃ later ∈ after.rows.lookup id, later.status = row.status := by
  cases action with
  | call t endpoint target =>
    simp only [ApprovalDesk.step, ApprovalDesk.select] at taken
    split_ifs at taken
    cases taken
    refine ⟨row, ?_, rfl⟩
    cases s.rows.lookup target with
    | none => exact stored
    | some other =>
      dsimp only
      split_ifs <;> exact stored
  | advance t => exact advance_status sound undisturbed taken stored left

theorem LeftBy.counts {task : ApprovalTask} (left : row.LeftBy task) :
    row.commissions ≤ 1 ∧ row.rebates ≤ 1 := by
  have bounded : ∀ {applied commissions rebates : ℕ}, row.Counts applied commissions rebates →
      commissions ≤ 1 → rebates ≤ 1 → row.commissions ≤ 1 ∧ row.rebates ≤ 1 :=
    fun counts few fewer => ⟨counts.2.1.trans_le few, counts.2.2.trans_le fewer⟩
  cases task with
  | readWallet route r => cases route with
    | finance => exact left.elim
    | deposits => exact bounded left.2 zero_le_one zero_le_one
  | insertEntry route r currentBalance => cases route with
    | finance => exact left.elim
    | deposits => exact bounded left.2 zero_le_one zero_le_one
  | writeWallet route r currentBalance => cases route with
    | finance => exact left.elim
    | deposits => exact bounded left.2 zero_le_one zero_le_one
  | markCompleted r => exact bounded left.2 zero_le_one zero_le_one
  | accrue r => exact bounded left.2 zero_le_one zero_le_one
  | readReferrer r commissionAmount => exact bounded left.2 le_rfl zero_le_one
  | writeReferrer r commissionAmount currentBalance => exact bounded left.2 le_rfl zero_le_one
  | markPaid r => exact bounded left.2 le_rfl le_rfl
  | idle | checkFunds _ | markApproved _ | markRejected _ _ => exact left.elim

theorem AtRest.counts (rest : row.AtRest) : row.commissions ≤ 1 ∧ row.rebates ≤ 1 := by
  rcases rest with ⟨_, _, commissions, rebates⟩ | ⟨_, _, bounds⟩
  · exact ⟨commissions.trans_le zero_le_one, rebates.trans_le zero_le_one⟩
  · exact bounds

theorem AtRest.applied_iff (rest : row.AtRest) :
    row.applied ≤ 1 ∧ (row.applied = 1 ↔ row.status = .completed ∨ row.status = .approved) := by
  rcases rest with ⟨status, applied, _⟩ | ⟨settled, applied, _⟩
  · refine ⟨applied.trans_le zero_le_one, iff_of_false (by omega) ?_⟩
    rcases status with pending | rejected
    · rw [pending]
      rintro (completed | approved)
      · cases completed
      · cases approved
    · rw [rejected]
      rintro (completed | approved)
      · cases completed
      · cases approved
  · exact ⟨applied.le, iff_of_true applied settled⟩

theorem Sound.requestsSettled (sound : s.Sound initial) : s.RequestsSettled initial where
  applied idle id row stored := by
    rcases sound.consistent id row stored with ⟨t, engaged, _⟩ | ⟨rest, _⟩
    · rw [idle t] at engaged
      cases engaged
    · exact AtRest.applied_iff rest
  balance := sound.balance
  final _ _ undisturbed taken _ _ stored left := step_status sound undisturbed taken stored left
  commissions id row stored := by
    rcases sound.consistent id row stored with ⟨t, _, left, _⟩ | ⟨rest, _⟩
    · exact LeftBy.counts left
    · exact AtRest.counts rest
  funds := sound.funds

/-- Requests are settled once in every run whose calls are not disturbed
between what they read and what they write. -/
theorem requestsSettled_of_run {actions : List ApprovalAction} (requested : initial.Requested)
    (run : GuardedRun step Undisturbed initial actions s) : s.RequestsSettled initial := by
  let IsSound (s : ApprovalDesk) : Prop := s.Sound initial
  have initially : IsSound initial := by
    refine ⟨?_, ?_, ?_, ?_, id⟩
    · intro t r read
      rw [requested.idle t] at read
      cases read
    · intro id row stored
      obtain ⟨net, large, _⟩ := requested.rows id row stored
      exact ⟨net, net ▸ le_trans (by norm_num) large⟩
    · intro id row stored
      obtain ⟨_, _, pending, applied, commissions, rebates⟩ := requested.rows id row stored
      refine .inr ⟨.inl ⟨.inl pending, applied, commissions, rebates⟩, fun t => ?_⟩
      rw [requested.idle t]
      exact nofun
    · have nothing : initial.moved = 0 := total_eq_zero fun id row stored => by
        rw [(requested.rows id row stored).2.2.2.1, Nat.cast_zero, zero_mul]
      rw [nothing, add_zero]
  have sound : IsSound s :=
    run.invariant initially fun _ _ _ undisturbed taken sound => Sound.step sound undisturbed taken
  exact Sound.requestsSettled sound

@[simp]
theorem updateRow_tasks (s : ApprovalDesk) (id : RequestId) (write : RequestRow → RequestRow) :
    (s.updateRow id write).tasks = s.tasks := by
  unfold updateRow
  cases s.rows.lookup id <;> rfl

/-- A step changes no other call. -/
theorem step_tasks {action : ApprovalAction} {u : ℕ} (other : u ≠ action.task)
    (taken : s.step action = some after) : after.tasks u = s.tasks u := by
  cases action with
  | call t endpoint id =>
    simp only [ApprovalDesk.step, ApprovalDesk.select] at taken
    split_ifs at taken
    cases taken
    cases s.rows.lookup id with
    | none => rfl
    | some row =>
      dsimp only
      split_ifs
      · exact Function.update_of_ne other _ _
      · rfl
  | advance t =>
    simp only [ApprovalDesk.step, ApprovalDesk.advance] at taken
    cases atTask : s.tasks t with
    | idle =>
      rw [atTask] at taken
      cases taken
    | checkFunds r =>
      rw [atTask] at taken
      dsimp only at taken
      split_ifs at taken <;> cases taken <;> exact Function.update_of_ne other _ _
    | accrue r =>
      rw [atTask] at taken
      dsimp only at taken
      cases found : s.commission r.amount <;> rw [found] at taken <;> cases taken <;>
        simp only [setTask, updateRow_tasks] <;> exact Function.update_of_ne other _ _
    | markCompleted r =>
      rw [atTask] at taken
      dsimp only at taken
      cases kind : r.kind <;> rw [kind] at taken <;> cases taken <;>
        simp only [setTask, updateRow_tasks] <;> exact Function.update_of_ne other _ _
    | writeWallet route r currentBalance =>
      rw [atTask] at taken
      cases route <;> cases taken <;> simp only [setTask, updateRow_tasks] <;>
        exact Function.update_of_ne other _ _
    | markRejected route r =>
      rw [atTask] at taken
      cases route <;> cases taken <;> simp only [setTask, updateRow_tasks] <;>
        exact Function.update_of_ne other _ _
    | readWallet _ _ | insertEntry _ _ _ | readReferrer _ _ | markPaid _ | markApproved _
    | writeReferrer _ _ _ =>
      rw [atTask] at taken
      cases taken
      simp only [setTask, updateRow_tasks]
      exact Function.update_of_ne other _ _

/-- After a run of the first `n` calls all others are where they were. -/
theorem tasks_of_run {actions : List ApprovalAction} {n : ℕ}
    (run : GuardedRun step (fun _ action => action.task < n) initial actions s) :
    ∀ u, n ≤ u → s.tasks u = initial.tasks u := by
  let Kept (s : ApprovalDesk) : Prop := ∀ u, n ≤ u → s.tasks u = initial.tasks u
  have initially : Kept initial := fun _ _ => rfl
  exact run.invariant initially fun _ action _ small taken kept u large =>
    (step_tasks (ne_of_gt (small.trans_le large)) taken).trans (kept u large)

/-- An empty wallet with a pending deposit of 100, no referrer. -/
def pendingDeposit : ApprovalDesk where
  availableBalance := 0
  entries := []
  rows := (∅ : FiniteTable RequestId RequestRow).insert 1
    { kind := .deposit, amount := 100, netAmount := 100 }
  referralCode := none
  commissionPercent := none
  referrerBalance := 0
  tasks := fun _ => .idle

theorem requested_pendingDeposit : pendingDeposit.Requested where
  rows id row stored := by
    by_cases same : id = 1
    · subst same
      cases Option.some.inj ((AList.lookup_insert _).symm.trans stored)
      exact ⟨rfl, by norm_num, rfl, rfl, rfl, rfl⟩
    · cases (AList.lookup_insert_ne same).symm.trans stored
  idle _ := rfl

/-- A double click: the second approval reads the row before the first one
has marked it. -/
def approvedTwice : List ApprovalAction :=
  [.call 0 .approveTransaction 1, .call 1 .approveTransaction 1,
   .advance 0, .advance 0, .advance 0, .advance 0, .advance 0,
   .advance 1, .advance 1, .advance 1, .advance 1, .advance 1]

theorem not_requestsSettled_approvedTwice : pendingDeposit.Requested ∧
    ∃ s, Run step pendingDeposit approvedTwice s ∧ (∀ t, s.tasks t = .idle) ∧
      s.availableBalance = 200 ∧ ¬ s.RequestsSettled pendingDeposit := by
  have evaluates : (runGuarded step (fun _ action => action.task < 2) pendingDeposit
      approvedTwice).map (fun s => (s.availableBalance, (s.rows.lookup 1).map (·.applied),
        s.tasks 0, s.tasks 1)) = some (200, some 2, .idle, .idle) := by decide +kernel
  obtain ⟨s, reached, reads⟩ := Option.map_eq_some_iff.mp evaluates
  obtain ⟨balance, rest⟩ := Prod.mk.inj reads
  obtain ⟨applied, first, second⟩ := Prod.mk.inj rest |>.imp_right Prod.mk.inj
  have run : GuardedRun step (fun _ action => action.task < 2) pendingDeposit approvedTwice s :=
    .of_eval reached
  have idle : ∀ t, s.tasks t = .idle := by
    intro t
    rcases Nat.lt_or_ge t 2 with small | large
    · interval_cases t
      · exact first
      · exact second
    · exact tasks_of_run run t large
  refine ⟨requested_pendingDeposit, s, run.weaken fun _ _ _ => trivial, idle, balance,
    fun settled => ?_⟩
  obtain ⟨row, stored, twice⟩ := Option.map_eq_some_iff.mp applied
  have once := (settled.applied idle 1 row stored).1
  omega

/-- A referred user with a pending deposit and a pending withdrawal. -/
def twoRequests : ApprovalDesk where
  availableBalance := 0
  entries := []
  rows := ((∅ : FiniteTable RequestId RequestRow).insert 1
    { kind := .deposit, amount := 100, netAmount := 100 }).insert 2
      { kind := .withdrawal, amount := 30, netAmount := 30 }
  referralCode := some "ABC123"
  commissionPercent := some 10
  referrerBalance := 0
  tasks := fun _ => .idle

theorem requested_twoRequests : twoRequests.Requested where
  rows id row stored := by
    by_cases second : id = 2
    · subst second
      cases Option.some.inj ((AList.lookup_insert _).symm.trans stored)
      exact ⟨rfl, by norm_num, rfl, rfl, rfl, rfl⟩
    · have first := (AList.lookup_insert_ne second).symm.trans stored
      by_cases same : id = 1
      · subst same
        cases Option.some.inj ((AList.lookup_insert _).symm.trans first)
        exact ⟨rfl, by norm_num, rfl, rfl, rfl, rfl⟩
      · cases (AList.lookup_insert_ne same).symm.trans first
  idle _ := rfl

/-- The deposit is approved with a commission, while a rejection comes too
late; then the withdrawal is approved. -/
def approvedInTurn : List ApprovalAction :=
  [.call 0 .approveDeposit 1, .advance 0, .call 1 .rejectTransaction 1, .advance 0, .advance 0,
   .advance 0, .advance 0, .advance 0, .advance 0, .advance 0,
   .call 2 .approveTransaction 2, .advance 2, .advance 2, .advance 2, .advance 2, .advance 2]

theorem requestsSettled_approvedInTurn : ∃ s,
    GuardedRun step Undisturbed twoRequests approvedInTurn s ∧ s.availableBalance = 70 ∧
      s.referrerBalance = 10 ∧ s.RequestsSettled twoRequests := by
  have evaluates : (runGuarded step Undisturbed twoRequests approvedInTurn).map
      (fun s => (s.availableBalance, s.referrerBalance)) = some (70, 10) := by decide +kernel
  obtain ⟨s, reached, reads⟩ := Option.map_eq_some_iff.mp evaluates
  obtain ⟨balance, rebate⟩ := Prod.mk.inj reads
  have run : GuardedRun step Undisturbed twoRequests approvedInTurn s := .of_eval reached
  exact ⟨s, run, balance, rebate, requestsSettled_of_run requested_twoRequests run⟩

end ApprovalDesk

end TradingPlatform
