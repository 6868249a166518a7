import TradingPlatform.Summary.AccountSummary
import TradingPlatform.Wallet.Charges
import TradingPlatform.Wallet.RequestApproval

namespace TradingPlatform

open StepRuns

/-- The enumeration `transaction_type`. -/
inductive PaymentKind
  | deposit | withdrawal | adjustment | fee | rebate | swap | affiliateCommission
  | bonusGrant | bonusRevoke | bonusLossAbsorb | bonusMarginLock | bonusMarginRelease
  | marginLock | marginUnlock | pnlCredit | pnlDebit
  deriving DecidableEq, Repr

/-- A row of `transactions` in USD. Every request has its `amount` as its
`net_amount`. -/
structure Payment where
  kind : PaymentKind
  status : TransactionStatus
  netAmount : ℚ
  deriving DecidableEq, Repr

/-- One user's spot USD wallet and rows. A row of `transactions` goes by its
place in the order of insertion. -/
structure Funds where
  wallet : Wallet
  transactions : List Payment
  /-- fee and flag of an order's row in `fee_charge_log` -/
  feeLog : FiniteTable OrderId (ℚ × Bool)
  rows : List DbPosition
  /-- the positions with `bonus_wallet_released` -/
  released : List ℕ
  /-- the positions with a transaction `SWAP-SETTLE-{position}` -/
  swapSettled : List ℕ

/-- The operations on the wallet, each of them whole, and any other write to a
row of `positions`. -/
inductive FundsAction
  | createDepositRequest (amount : ℚ)
  | createWithdrawalRequest (amount : ℚ)
  | approveTransaction (i : ℕ)
  | approveDeposit (i : ℕ)
  | rejectTransaction (i : ℕ)
  | rejectDeposit (i : ℕ)
  | createDirectDeposit (amount : ℚ)
  | createLedgerEntry (kind : PaymentKind) (delta : ℚ)
  | grantBonus (amount : ℚ)
  | revokeBonus (amount : ℚ)
  | lockMargin (marginRequired : ℚ)
  | rollbackOrderMarginLock (m : Margins)
  | chargePlacementFee (o : OrderId) (feeAmountUsd : ℚ)
  | refundPlacementFee (o : OrderId)
  | releaseAndApplyPnl (p : ℕ) (m : Margins) (realizedPnl : ℚ)
  | settleSwap (p : ℕ)
  | writePosition (row : DbPosition)
  deriving DecidableEq

namespace Funds

def opened : Funds := ⟨Wallet.cash 0 0, [], ∅, [], [], []⟩

def insert (s : Funds) (kind : PaymentKind) (status : TransactionStatus) (netAmount : ℚ) : Funds :=
  { s with transactions := s.transactions ++ [⟨kind, status, netAmount⟩] }

/-- A completed row for a positive amount. -/
def insertPositive (s : Funds) (kind : PaymentKind) (amount netAmount : ℚ) : Funds :=
  if 0 < amount then s.insert kind .completed netAmount else s

/-- `create_ledger_entry` with `skip_mirror_transaction`. -/
def credit (s : Funds) (delta : ℚ) : Funds :=
  { s with wallet := { s.wallet with availableBalance := s.wallet.availableBalance + delta } }

def setStatus (s : Funds) (i : ℕ) (status : TransactionStatus) : Funds :=
  { s with transactions := s.transactions.modify i fun t => { t with status := status } }

/-- The check of an amount in both request endpoints. -/
def requestable (amount : ℚ) : Prop :=
  10 ≤ amount ∧ amount ≤ 1000000 ∧ amount * 100 = ⌊amount * 100⌋

instance (amount : ℚ) : Decidable (requestable amount) :=
  inferInstanceAs (Decidable (_ ∧ _))

/-- `approve_transaction` -/
def approveTransaction (s : Funds) (i : ℕ) : Funds :=
  match s.transactions[i]? with
  | none => s
  | some t =>
    if t.status ≠ .pending then s
    else if t.kind = .withdrawal ∧ s.wallet.availableBalance < t.netAmount then s
    else (s.credit (if t.kind = .withdrawal then -t.netAmount else t.netAmount)).setStatus i
      .completed

/-- `approve_deposit` -/
def approveDeposit (s : Funds) (i : ℕ) : Funds :=
  match s.transactions[i]? with
  | none => s
  | some t =>
    if t.kind = .deposit ∧ t.status = .pending then
      (s.setStatus i .approved).credit t.netAmount
    else s

def reject (s : Funds) (i : ℕ) (selects : Payment → Prop) [DecidablePred selects] : Funds :=
  match s.transactions[i]? with
  | none => s
  | some t => if selects t ∧ t.status = .pending then s.setStatus i .rejected else s

/-- `grant_bonus` -/
def grantBonus (s : Funds) (amount : ℚ) : Funds :=
  if amount ≤ 0 then s
  else
    match Wallet.update s.wallet.availableBalance s.wallet.lockedBalance
      (s.wallet.bonusBalance + amount) s.wallet.bonusLocked with
    | none => s
    | some wallet => { s with wallet := wallet }.insert .bonusGrant .completed amount

/-- `revoke_bonus` -/
def revokeBonus (s : Funds) (amount : ℚ) : Funds :=
  if amount ≤ 0 ∨ max (s.wallet.bonusBalance - s.wallet.bonusLocked) 0 < amount then s
  else
    match Wallet.update s.wallet.availableBalance s.wallet.lockedBalance
      (s.wallet.bonusBalance - amount) s.wallet.bonusLocked with
    | none => s
    | some wallet => { s with wallet := wallet }.insert .bonusRevoke .completed (-amount)

/-- `lock_margin` -/
def lockMargin (s : Funds) (marginRequired : ℚ) : Funds :=
  match s.wallet.lockMargin marginRequired with
  | none => s
  | some (wallet, m) =>
    ({ s with wallet := wallet }.insertPositive .marginLock m.1 0).insertPositive .bonusMarginLock
      m.2 0

/-- The rows for margin that is given back. -/
def insertUnlocks (s : Funds) (m : Margins) : Funds :=
  (s.insertPositive .marginUnlock m.1 0).insertPositive .bonusMarginRelease m.2 0

/-- `rollback_order_margin_lock` -/
def rollbackOrderMarginLock (s : Funds) (m : Margins) : Funds :=
  match s.wallet.rollbackOrderMarginLock m with
  | none => s
  | some wallet => { s with wallet := wallet }.insertUnlocks m

/-- `charge_placement_fee_in_tx` -/
def chargePlacementFee (s : Funds) (o : OrderId) (feeAmountUsd : ℚ) : Funds :=
  match s.wallet.chargePlacementFee feeAmountUsd with
  | none => s
  | some wallet =>
    if feeAmountUsd ≤ 0 then s
    else { s with
      wallet := wallet
      feeLog := s.feeLog.insert o (feeAmountUsd, false) }.insert .fee .completed (-feeAmountUsd)

/-- The fee that `refund_placement_fee_for_order` pays back. -/
def refundDue (s : Funds) (o : OrderId) : Option ℚ :=
  (s.feeLog.lookup o).bind fun (feeAmount, refunded) =>
    if refunded ∨ feeAmount ≤ 0 then none else some feeAmount

/-- `refund_placement_fee_for_order` -/
def refundPlacementFee (s : Funds) (o : OrderId) : Funds :=
  match s.refundDue o with
  | none => s
  | some feeAmount =>
    { s.credit feeAmount with
      feeLog := s.feeLog.insert o (feeAmount, true) }.insert .fee .completed feeAmount

/-- `bonus_wallet_released` of a row, if there is the row. -/
def releasedFlag (s : Funds) (p : ℕ) : Option Bool :=
  if s.rows.any (·.uuid = p) then some (decide (p ∈ s.released)) else none

/-- The rows that `release_and_apply_pnl` inserts for the PnL. -/
def insertPnl (s : Funds) (realizedPnl bonusAbsorb : ℚ) : Funds :=
  if realizedPnl < 0 then
    (s.insertPositive .bonusLossAbsorb bonusAbsorb (-bonusAbsorb)).insertPositive .pnlDebit
      (|realizedPnl| - bonusAbsorb) (-(|realizedPnl| - bonusAbsorb))
  else s.insertPositive .pnlCredit realizedPnl realizedPnl

/-- `release_and_apply_pnl` -/
def releaseAndApplyPnl (s : Funds) (p : ℕ) (m : Margins) (realizedPnl : ℚ) : Funds :=
  match s.wallet.releaseAndApplyPnl (s.releasedFlag p) m realizedPnl with
  | none => s
  | some (_, none) => s
  | some (wallet, some bonusAbsorb) =>
    let absorbed (row : DbPosition) : DbPosition :=
      if row.uuid = p then { row with bonusLossAbsorbed := some bonusAbsorb } else row
    ({ s with
      wallet := wallet
      rows := s.rows.map absorbed
      released := p :: s.released }.insertUnlocks m).insertPnl realizedPnl bonusAbsorb

/-- The swap that `settle_swap_on_closed_position` debits. -/
def swapDue (s : Funds) (p : ℕ) : Option ℚ :=
  if p ∈ s.swapSettled then none
  else
    match s.rows.find? (·.uuid = p) with
    | none => none
    | some row =>
      if (row.status = .CLOSED ∨ row.status = .LIQUIDATED) ∧ row.accumulatedSwapUsd ≠ 0 ∧
          row.accumulatedSwapUsd ≤ s.wallet.availableBalance then
        some row.accumulatedSwapUsd
      else none

/-- `settle_swap_on_closed_position`. A wallet that cannot pay rolls the
inserted row back. -/
def settleSwap (s : Funds) (p : ℕ) : Funds :=
  match s.swapDue p with
  | none => s
  | some acc =>
    { s.credit (-acc) with swapSettled := p :: s.swapSettled }.insert .swap .completed (-acc)

/-- A row as another writer leaves it: the loss that the bonus absorbed is
written by the wallet alone. -/
def writePosition (s : Funds) (row : DbPosition) : Funds :=
  match s.rows.find? (·.uuid = row.uuid) with
  | none => { s with rows := s.rows ++ [{ row with bonusLossAbsorbed := none }] }
  | some _ => { s with
      rows := s.rows.map fun old =>
        if old.uuid = row.uuid then { row with bonusLossAbsorbed := old.bonusLossAbsorbed }
        else old }

/-- An operation; one that fails changes nothing. An order is charged once. -/
def step (s : Funds) : FundsAction → Option Funds
  | .createDepositRequest amount =>
    some (if requestable amount then s.insert .deposit .pending amount else s)
  | .createWithdrawalRequest amount =>
    some (if requestable amount ∧ amount ≤ s.wallet.availableBalance then
      s.insert .withdrawal .pending amount else s)
  | .approveTransaction i => some (s.approveTransaction i)
  | .approveDeposit i => some (s.approveDeposit i)
  | .rejectTransaction i => some (s.reject i fun _ => True)
  | .rejectDeposit i => some (s.reject i fun t => t.kind = .deposit)
  | .createDirectDeposit amount =>
    some (if 0 < amount ∧ amount ≤ 1000000 then
      (s.insert .deposit .approved amount).credit amount else s)
  | .createLedgerEntry kind delta => some ((s.insert kind .completed delta).credit delta)
  | .grantBonus amount => some (s.grantBonus amount)
  | .revokeBonus amount => some (s.revokeBonus amount)
  | .lockMargin marginRequired => some (s.lockMargin marginRequired)
  | .rollbackOrderMarginLock m => some (s.rollbackOrderMarginLock m)
  | .chargePlacementFee o feeAmountUsd =>
    if s.feeLog.lookup o = none then some (s.chargePlacementFee o feeAmountUsd) else none
  | .refundPlacementFee o => some (s.refundPlacementFee o)
  | .releaseAndApplyPnl p m realizedPnl => some (s.releaseAndApplyPnl p m realizedPnl)
  | .settleSwap p => some (s.settleSwap p)
  | .writePosition row => some (s.writePosition row)

end Funds

end TradingPlatform
