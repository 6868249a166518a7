import TradingPlatform.Library.HalfAway
import TradingPlatform.Library.StepRuns
import TradingPlatform.Wallet.Charges

namespace TradingPlatform

open StepRuns HalfAway

/-- The units of a `NUMERIC(20, 8)` column. -/
def numericScale : ℚ := 100000000

/-- A value as a `NUMERIC(20, 8)` column takes it. -/
def numeric (x : ℚ) : ℚ := stored numericScale x

def numericMargins (m : Margins) : Margins := (numeric m.1, numeric m.2)

/-- A ninth decimal 5 with nothing after it. -/
def NumericTie (x : ℚ) : Prop := Tie (x * numericScale)

instance : DecidablePred NumericTie := fun x =>
  inferInstanceAs (Decidable (Int.fract (x * numericScale) = 1 / 2))

/-- The `transaction_type` of the rows that the wallet services insert. -/
inductive TransactionKind
  | bonusGrant | bonusRevoke | marginLock | bonusMarginLock | marginUnlock | bonusMarginRelease
  | bonusLossAbsorb | pnlDebit | pnlCredit | fee | swap
  deriving DecidableEq, Repr

structure TransactionRow where
  kind : TransactionKind
  amount : ℚ
  netAmount : ℚ
  deriving DecidableEq, Repr

/-- A wallet and the `transactions` rows inserted for it since the start. -/
structure Books where
  wallet : Wallet
  transactions : List TransactionRow
  deriving DecidableEq

/-- All columns hold what a `NUMERIC(20, 8)` column can hold. -/
structure Wallet.OnScale (w : Wallet) : Prop where
  availableBalance : HalfAway.OnScale numericScale w.availableBalance
  lockedBalance : HalfAway.OnScale numericScale w.lockedBalance
  bonusBalance : HalfAway.OnScale numericScale w.bonusBalance
  bonusLocked : HalfAway.OnScale numericScale w.bonusLocked

namespace Books

/-- UPDATE that adds to the columns of the wallet. -/
def add (b : Books) (available locked bonus bonusLocked : ℚ) : Option Books :=
  (Wallet.update (numeric (b.wallet.availableBalance + available))
    (numeric (b.wallet.lockedBalance + locked)) (numeric (b.wallet.bonusBalance + bonus))
    (numeric (b.wallet.bonusLocked + bonusLocked))).map ({ b with wallet := · })

/-- `insert_bonus_transaction`, `insert_fee_tx_row` -/
def insert (b : Books) (kind : TransactionKind) (amount netAmount : ℚ) : Books :=
  { b with transactions := b.transactions ++ [⟨kind, numeric amount, numeric netAmount⟩] }

/-- The rows of a lock or an unlock, inserted for the positive parts. -/
def insertPositive (b : Books) (kind : TransactionKind) (amount : ℚ) : Books :=
  if 0 < amount then b.insert kind amount 0 else b

/-- `grant_bonus` -/
def grantBonus (b : Books) (amount : ℚ) : Option Books :=
  if amount ≤ 0 then none
  else (b.add 0 0 amount 0).map (·.insert .bonusGrant amount amount)

/-- `revoke_bonus` -/
def revokeBonus (b : Books) (amount : ℚ) : Option Books :=
  if amount ≤ 0 then none
  else
    let revokable := max (b.wallet.bonusBalance - b.wallet.bonusLocked) 0
    if revokable < amount then none
    else (b.add 0 0 (-amount) 0).map (·.insert .bonusRevoke amount (-amount))

/-- `lock_margin` -/
def lockMargin (b : Books) (marginRequired : ℚ) : Option (Books × Margins) :=
  if marginRequired ≤ 0 then none
  else
    let marginFromCash := min marginRequired (max b.wallet.availableBalance 0)
    let marginFromBonus := marginRequired - marginFromCash
    if max (b.wallet.bonusBalance - b.wallet.bonusLocked) 0 < marginFromBonus then none
    else (b.add (-marginFromCash) marginFromCash 0 marginFromBonus).map fun b =>
      ((b.insertPositive .marginLock marginFromCash).insertPositive .bonusMarginLock
        marginFromBonus, (marginFromCash, marginFromBonus))

/-- The UPDATE and the rows by which locked margin is given back. -/
def unlock (b : Books) (m : Margins) : Option Books :=
  (b.add m.1 (-m.1) 0 (-m.2)).map fun b =>
    (b.insertPositive .marginUnlock m.1).insertPositive .bonusMarginRelease m.2

/-- `rollback_order_margin_lock` -/
def rollbackOrderMarginLock (b : Books) (m : Margins) : Option Books :=
  if m.1 = 0 ∧ m.2 = 0 then some b else b.unlock m

/-- The bonus part of a loss in `release_and_apply_pnl`. -/
def absorb (b : Books) (bonusAbsorb : ℚ) : Option Books :=
  if 0 < bonusAbsorb then
    (b.add 0 0 (-bonusAbsorb) 0).map (·.insert .bonusLossAbsorb bonusAbsorb (-bonusAbsorb))
  else some b

/-- The cash part of a loss in `release_and_apply_pnl`. -/
def debit (b : Books) (cashLoss : ℚ) : Option Books :=
  if 0 < cashLoss then
    (b.add (-cashLoss) 0 0 0).map (·.insert .pnlDebit cashLoss (-cashLoss))
  else some b

/-- The PnL part of `release_and_apply_pnl`. -/
def applyPnl (b : Books) (realizedPnl : ℚ) : Option Books :=
  if realizedPnl < 0 then
    let loss := |realizedPnl|
    let bonusAbsorb := min loss (max (b.wallet.bonusBalance - b.wallet.bonusLocked) 0)
    (b.absorb bonusAbsorb).bind (·.debit (loss - bonusAbsorb))
  else if 0 < realizedPnl then
    (b.add realizedPnl 0 0 0).map (·.insert .pnlCredit realizedPnl realizedPnl)
  else some b

/-- `release_and_apply_pnl` -/
def releaseAndApplyPnl (b : Books) (released : Option Bool) (m : Margins) (realizedPnl : ℚ) :
    Option Books :=
  match released with
  | none => some b
  | some true => some b
  | some false => (b.unlock m).bind (·.applyPnl realizedPnl)

/-- `charge_placement_fee_in_tx` -/
def chargePlacementFee (b : Books) (feeAmountUsd : ℚ) : Option Books :=
  if feeAmountUsd ≤ 0 then some b
  else if feeAmountUsd ≤ b.wallet.availableBalance then
    (b.add (-feeAmountUsd) 0 0 0).map (·.insert .fee (-feeAmountUsd) (-feeAmountUsd))
  else none

/-- `refund_placement_fee_for_order`. `log` is the fee and the flag of the
order's row in `fee_charge_log`. -/
def refundPlacementFee (b : Books) (log : Option (ℚ × Bool)) : Option Books :=
  match log with
  | none => some b
  | some (feeAmount, refunded) =>
    if refunded ∨ feeAmount ≤ 0 then some b
    else (b.add feeAmount 0 0 0).map (·.insert .fee feeAmount feeAmount)

/-- `settle_swap_on_closed_position`. The row is inserted first; a wallet that
cannot pay rolls it back. -/
def settleSwapOnClosedPosition (b : Books) (settled : Bool) (userId : UserId)
    (row : Option PositionRow) : Option Books :=
  if settled then some b
  else
    match row.bind (·.swapToSettle userId) with
    | none => some b
    | some acc =>
      if acc = 0 then some b
      else if acc ≤ b.wallet.availableBalance then (b.insert .swap (-acc) (-acc)).add (-acc) 0 0 0
      else some b

/-- What the wallet has beyond its transactions. -/
def surplus (b : Books) : ℚ := b.wallet.total - (b.transactions.map (·.netAmount)).sum

/-- The transactions account for the change of the wallet, whose locks are now
`locks`. -/
structure Records (after before : Books) (locks : Margins) : Prop where
  onScale : after.wallet.OnScale
  surplus : after.surplus = before.surplus
  locks : after.wallet.locks = locks

theorem numericScale_pos : 0 < numericScale := by
  unfold numericScale
  norm_num

@[simp]
theorem numeric_zero : numeric 0 = 0 := onScale_zero.stored numericScale_pos

@[simp]
theorem numeric_neg (x : ℚ) : numeric (-x) = -numeric x := stored_neg _ x

theorem not_numericTie_zero : ¬ NumericTie 0 := onScale_zero.not_tie

theorem not_numericTie_neg {x : ℚ} (clear : ¬ NumericTie x) : ¬ NumericTie (-x) :=
  fun tie => clear (Tie.of_neg (neg_mul x numericScale ▸ tie))

variable {b after : Books} {m : Margins}

theorem insert_surplus (kind : TransactionKind) (amount netAmount : ℚ) :
    (b.insert kind amount netAmount).surplus = b.surplus - numeric netAmount := by
  simp only [surplus, insert, List.map_append, List.sum_append, List.map_cons, List.map_nil,
    List.sum_singleton]
  ring

theorem Records.refl (onScale : b.wallet.OnScale) : b.Records b b.wallet.locks :=
  ⟨onScale, rfl, rfl⟩

theorem Records.trans {final : Books} {locks finalLocks : Margins}
    (first : after.Records b locks) (second : final.Records after finalLocks) :
    final.Records b finalLocks :=
  ⟨second.onScale, second.surplus.trans first.surplus, second.locks⟩

/-- An UPDATE whose amounts are no ties moves the stored amounts. -/
theorem add_moves {available locked bonus bonusLocked : ℚ} (onScale : b.wallet.OnScale)
    (clearAvailable : ¬ NumericTie available) (clearLocked : ¬ NumericTie locked)
    (clearBonus : ¬ NumericTie bonus) (clearBonusLocked : ¬ NumericTie bonusLocked)
    (added : b.add available locked bonus bonusLocked = some after) :
    after.wallet.OnScale ∧
      after.surplus = b.surplus + (numeric available + numeric locked + numeric bonus) ∧
      after.wallet.locks = b.wallet.locks + (numeric locked, numeric bonusLocked) := by
  obtain ⟨w, updated, same⟩ := Option.map_eq_some_iff.mp added
  cases same
  obtain ⟨atAvailable, atLocked, atBonus, atBonusLocked⟩ := Wallet.update_eq_some updated
  have column : ∀ y, HalfAway.OnScale numericScale (numeric y) :=
    fun y => onScale_stored numericScale_pos y
  refine ⟨⟨?_, ?_, ?_, ?_⟩, ?_, ?_⟩
  · exact atAvailable ▸ column _
  · exact atLocked ▸ column _
  · exact atBonus ▸ column _
  · exact atBonusLocked ▸ column _
  · have newAvailable := onScale.availableBalance.stored_add numericScale_pos clearAvailable
    have newLocked := onScale.lockedBalance.stored_add numericScale_pos clearLocked
    have newBonus := onScale.bonusBalance.stored_add numericScale_pos clearBonus
    simp only [surplus, Wallet.total, atAvailable, atLocked, atBonus, numeric, newAvailable,
      newLocked, newBonus]
    ring
  · have newLocked := onScale.lockedBalance.stored_add numericScale_pos clearLocked
    have newBonusLocked := onScale.bonusLocked.stored_add numericScale_pos clearBonusLocked
    exact Prod.ext (atLocked.trans newLocked) (atBonusLocked.trans newBonusLocked)

/-- One column changes, or two against each other, and a row says by how much. -/
theorem add_insert_records {available bonus : ℚ} {kind : TransactionKind} {amount : ℚ}
    (onScale : b.wallet.OnScale) (clearAvailable : ¬ NumericTie available)
    (clearBonus : ¬ NumericTie bonus) {netAmount : ℚ}
    (net : numeric netAmount = numeric available + numeric bonus)
    (recorded : (b.add available 0 bonus 0).map (·.insert kind amount netAmount) = some after) :
    after.Records b b.wallet.locks := by
  obtain ⟨moved, added, same⟩ := Option.map_eq_some_iff.mp recorded
  cases same
  obtain ⟨movedOnScale, surplus, locks⟩ := add_moves onScale clearAvailable not_numericTie_zero
    clearBonus not_numericTie_zero added
  refine ⟨movedOnScale, ?_, ?_⟩
  · rw [insert_surplus, surplus, net, numeric_zero]
    ring
  · have zero : ((numeric 0, numeric 0) : Margins) = 0 := Prod.ext numeric_zero numeric_zero
    rw [zero, add_zero] at locks
    exact locks

theorem grantBonus_records {amount : ℚ} (onScale : b.wallet.OnScale)
    (clear : ¬ NumericTie amount) (granted : b.grantBonus amount = some after) :
    after.Records b b.wallet.locks := by
  unfold grantBonus at granted
  split_ifs at granted
  exact add_insert_records onScale not_numericTie_zero clear
    (by rw [numeric_zero, zero_add]) granted

theorem revokeBonus_records {amount : ℚ} (onScale : b.wallet.OnScale)
    (clear : ¬ NumericTie amount) (revoked : b.revokeBonus amount = some after) :
    after.Records b b.wallet.locks := by
  unfold revokeBonus at revoked
  dsimp only at revoked
  split_ifs at revoked
  exact add_insert_records onScale not_numericTie_zero (not_numericTie_neg clear)
    (by rw [numeric_zero, zero_add]) revoked

theorem insertPositive_records (onScale : b.wallet.OnScale) (kind : TransactionKind) (amount : ℚ) :
    (b.insertPositive kind amount).Records b b.wallet.locks := by
  unfold insertPositive
  split_ifs
  · exact ⟨onScale, by rw [insert_surplus, numeric_zero, sub_zero], rfl⟩
  · exact .refl onScale

/-- Margin moves between a balance and its lock; the rows have net amount 0. -/
theorem add_insertPositive_records {cash bonus : ℚ} {cashKind bonusKind : TransactionKind}
    {cashAmount bonusAmount : ℚ} (onScale : b.wallet.OnScale) (clearCash : ¬ NumericTie cash)
    (clearBonus : ¬ NumericTie bonus) {moved : Books} (added : b.add (-cash) cash 0 bonus = some moved) :
    ((moved.insertPositive cashKind cashAmount).insertPositive bonusKind bonusAmount).Records b
      (b.wallet.locks + numericMargins (cash, bonus)) := by
  obtain ⟨movedOnScale, surplus, locks⟩ := add_moves onScale (not_numericTie_neg clearCash)
    clearCash not_numericTie_zero clearBonus added
  have transfer : moved.Records b (b.wallet.locks + numericMargins (cash, bonus)) := by
    refine ⟨movedOnScale, ?_, locks⟩
    rw [surplus, numeric_neg, numeric_zero]
    ring
  have first := insertPositive_records movedOnScale cashKind cashAmount
  have second := insertPositive_records first.onScale bonusKind bonusAmount
  rw [first.locks, locks] at second
  exact transfer.trans (first.trans second)

theorem lockMargin_records {required : ℚ} (onScale : b.wallet.OnScale)
    (clear : ¬ NumericTie required) (locked : b.lockMargin required = some (after, m)) :
    after.Records b (b.wallet.locks + numericMargins m) := by
  unfold lockMargin at locked
  dsimp only at locked
  split_ifs at locked
  obtain ⟨moved, added, same⟩ := Option.map_eq_some_iff.mp locked
  cases same
  have column : HalfAway.OnScale numericScale (max b.wallet.availableBalance 0) := by
    rcases le_total b.wallet.availableBalance 0 with empty | funded
    · exact (max_eq_right empty).symm ▸ onScale_zero
    · exact (max_eq_left funded).symm ▸ onScale.availableBalance
  have split := column.not_tie_min clear
  exact add_insertPositive_records onScale split.1 split.2 added

theorem lockMargin_nonneg {required : ℚ} (locked : b.lockMargin required = some (after, m)) :
    0 ≤ m := by
  unfold lockMargin at locked
  dsimp only at locked
  split_ifs at locked with amount
  obtain ⟨moved, _, same⟩ := Option.map_eq_some_iff.mp locked
  cases same
  exact ⟨le_min (not_le.mp amount).le (le_max_right _ _), sub_nonneg.mpr (min_le_left _ _)⟩

theorem unlock_records (onScale : b.wallet.OnScale) (clearCash : ¬ NumericTie m.1)
    (clearBonus : ¬ NumericTie m.2) (unlocked : b.unlock m = some after) :
    after.Records b (b.wallet.locks - numericMargins m) := by
  obtain ⟨moved, added, same⟩ := Option.map_eq_some_iff.mp unlocked
  cases same
  have negated : numericMargins (-m.1, -m.2) = -numericMargins m :=
    Prod.ext (numeric_neg m.1) (numeric_neg m.2)
  rw [sub_eq_add_neg, ← negated]
  have moves : b.add (- -m.1) (-m.1) 0 (-m.2) = some moved := by
    rw [neg_neg]
    exact added
  exact add_insertPositive_records onScale (not_numericTie_neg clearCash)
    (not_numericTie_neg clearBonus) moves

theorem rollbackOrderMarginLock_records (onScale : b.wallet.OnScale)
    (clearCash : ¬ NumericTie m.1) (clearBonus : ¬ NumericTie m.2)
    (unlocked : b.rollbackOrderMarginLock m = some after) :
    after.Records b (b.wallet.locks - numericMargins m) := by
  unfold rollbackOrderMarginLock at unlocked
  split_ifs at unlocked with nothing
  · cases unlocked
    have zero : numericMargins m = 0 := by
      rw [numericMargins, nothing.1, nothing.2, numeric_zero]
      rfl
    rw [zero, sub_zero]
    exact .refl onScale
  · exact unlock_records onScale clearCash clearBonus unlocked

theorem absorb_records {bonusAbsorb : ℚ} (onScale : b.wallet.OnScale)
    (clear : ¬ NumericTie bonusAbsorb) (absorbed : b.absorb bonusAbsorb = some after) :
    after.Records b b.wallet.locks := by
  unfold absorb at absorbed
  split_ifs at absorbed
  · exact add_insert_records onScale not_numericTie_zero (not_numericTie_neg clear)
      (by rw [numeric_zero, zero_add]) absorbed
  · cases absorbed
    exact .refl onScale

theorem debit_records {cashLoss : ℚ} (onScale : b.wallet.OnScale)
    (clear : ¬ NumericTie cashLoss) (debited : b.debit cashLoss = some after) :
    after.Records b b.wallet.locks := by
  unfold debit at debited
  split_ifs at debited
  · exact add_insert_records onScale (not_numericTie_neg clear) not_numericTie_zero
      (by rw [numeric_zero, add_zero]) debited
  · cases debited
    exact .refl onScale

theorem applyPnl_records {realizedPnl : ℚ} (onScale : b.wallet.OnScale)
    (clear : ¬ NumericTie realizedPnl) (applied : b.applyPnl realizedPnl = some after) :
    after.Records b b.wallet.locks := by
  unfold applyPnl at applied
  dsimp only at applied
  split_ifs at applied with loses gains
  · obtain ⟨reduced, absorbed, debited⟩ := Option.bind_eq_some_iff.mp applied
    have clearLoss : ¬ NumericTie |realizedPnl| := by
      rw [abs_of_neg loses]
      exact not_numericTie_neg clear
    have column : HalfAway.OnScale numericScale
        (max (b.wallet.bonusBalance - b.wallet.bonusLocked) 0) := by
      rw [max_eq_left (sub_nonneg.mpr b.wallet.bonusLocked_le)]
      exact onScale.bonusBalance.sub onScale.bonusLocked
    have split := column.not_tie_min clearLoss
    have first := absorb_records onScale split.1 absorbed
    have second := debit_records first.onScale split.2 debited
    rw [first.locks] at second
    exact first.trans second
  · exact add_insert_records onScale clear not_numericTie_zero
      (by rw [numeric_zero, add_zero]) applied
  · cases applied
    exact .refl onScale

theorem releaseAndApplyPnl_records {released : Option Bool} {realizedPnl : ℚ}
    (onScale : b.wallet.OnScale) (clearCash : ¬ NumericTie m.1) (clearBonus : ¬ NumericTie m.2)
    (clearPnl : ¬ NumericTie realizedPnl)
    (applied : b.releaseAndApplyPnl released m realizedPnl = some after) :
    after.Records b
      (b.wallet.locks + if released = some false then -numericMargins m else 0) := by
  unfold releaseAndApplyPnl at applied
  split at applied
  next =>
    cases applied
    rw [if_neg nofun, add_zero]
    exact .refl onScale
  next =>
    cases applied
    rw [if_neg nofun, add_zero]
    exact .refl onScale
  next =>
    obtain ⟨freed, unlocked, pnlApplied⟩ := Option.bind_eq_some_iff.mp applied
    have first := unlock_records onScale clearCash clearBonus unlocked
    have second := applyPnl_records first.onScale clearPnl pnlApplied
    rw [first.locks, sub_eq_add_neg] at second
    rw [if_pos rfl]
    exact first.trans second

theorem chargePlacementFee_records {feeAmountUsd : ℚ} (onScale : b.wallet.OnScale)
    (clear : ¬ NumericTie feeAmountUsd)
    (charged : b.chargePlacementFee feeAmountUsd = some after) :
    after.Records b b.wallet.locks := by
  unfold chargePlacementFee at charged
  split_ifs at charged
  · cases charged
    exact .refl onScale
  · exact add_insert_records onScale (not_numericTie_neg clear) not_numericTie_zero
      (by rw [numeric_zero, add_zero]) charged

theorem refundPlacementFee_records {log : Option (ℚ × Bool)} (onScale : b.wallet.OnScale)
    (clear : ∀ row ∈ log, ¬ NumericTie row.1)
    (refunded : b.refundPlacementFee log = some after) : after.Records b b.wallet.locks := by
  cases log with
  | none =>
    cases refunded
    exact .refl onScale
  | some row =>
    simp only [refundPlacementFee] at refunded
    split_ifs at refunded
    · cases refunded
      exact .refl onScale
    · exact add_insert_records onScale (clear row rfl) not_numericTie_zero
        (by rw [numeric_zero, add_zero]) refunded

theorem settleSwapOnClosedPosition_records {settled : Bool} {userId : UserId}
    {row : Option PositionRow} (onScale : b.wallet.OnScale)
    (clear : ∀ p ∈ row, ¬ NumericTie p.accumulatedSwapUsd)
    (done : b.settleSwapOnClosedPosition settled userId row = some after) :
    after.Records b b.wallet.locks := by
  unfold settleSwapOnClosedPosition at done
  split_ifs at done
  · cases done
    exact .refl onScale
  · cases read : row.bind (·.swapToSettle userId) with
    | none =>
      rw [read] at done
      cases done
      exact .refl onScale
    | some acc =>
      rw [read] at done
      dsimp only at done
      obtain ⟨p, member, amount⟩ := Option.bind_eq_some_iff.mp read
      have clearSwap : ¬ NumericTie acc := by
        unfold PositionRow.swapToSettle at amount
        split_ifs at amount
        exact Option.some.inj amount ▸ clear p member
      split_ifs at done
      · cases done
        exact .refl onScale
      · have inserted : (b.insert .swap (-acc) (-acc)).wallet.OnScale := onScale
        obtain ⟨movedOnScale, surplus, locks⟩ := add_moves inserted
          (not_numericTie_neg clearSwap) not_numericTie_zero not_numericTie_zero
          not_numericTie_zero done
        have zero : ((numeric 0, numeric 0) : Margins) = 0 := Prod.ext numeric_zero numeric_zero
        rw [zero, add_zero] at locks
        refine ⟨movedOnScale, ?_, locks⟩
        rw [surplus, insert_surplus, numeric_zero]
        ring
      · cases done
        exact .refl onScale

end Books

inductive WalletCall
  | grantBonus (amount : ℚ)
  | revokeBonus (amount : ℚ)
  | lockMargin (marginRequired : ℚ)
  | rollbackOrderMarginLock (m : Margins)
  | releaseAndApplyPnl (released : Option Bool) (m : Margins) (realizedPnl : ℚ)
  | chargePlacementFee (feeAmountUsd : ℚ)
  | refundPlacementFee (log : Option (ℚ × Bool))
  | settleSwapOnClosedPosition (settled : Bool) (userId : UserId) (row : Option PositionRow)
  deriving DecidableEq

/-- The books and the margins that are locked for orders and positions. -/
structure Audit where
  books : Books
  outstanding : Margins

namespace Audit

/-- A call with the margins that it locks or gives back. -/
def call (b : Books) : WalletCall → Option (Books × Margins)
  | .grantBonus amount => (b.grantBonus amount).map (·, 0)
  | .revokeBonus amount => (b.revokeBonus amount).map (·, 0)
  | .lockMargin marginRequired =>
    (b.lockMargin marginRequired).map fun (b, m) => (b, numericMargins m)
  | .rollbackOrderMarginLock m => (b.rollbackOrderMarginLock m).map (·, -numericMargins m)
  | .releaseAndApplyPnl released m realizedPnl =>
    (b.releaseAndApplyPnl released m realizedPnl).map
      (·, if released = some false then -numericMargins m else 0)
  | .chargePlacementFee feeAmountUsd => (b.chargePlacementFee feeAmountUsd).map (·, 0)
  | .refundPlacementFee log => (b.refundPlacementFee log).map (·, 0)
  | .settleSwapOnClosedPosition settled userId row =>
    (b.settleSwapOnClosedPosition settled userId row).map (·, 0)

/-- A call whose transaction may be interrupted; a failing transaction is
rolled back. -/
def step (s : Audit) (attempt : WalletCall × Bool) : Option Audit :=
  if attempt.2 then some s
  else
    match call s.books attempt.1 with
    | none => some s
    | some (b, change) => some ⟨b, s.outstanding + change⟩

/-- The call fails: it is interrupted, or refused by the code or a CHECK. -/
def Fails (s : Audit) (attempt : WalletCall × Bool) : Prop :=
  attempt.2 = true ∨ call s.books attempt.1 = none

/-- Margins are given back only while they are locked. -/
def Outstanding (s : Audit) : WalletCall → Prop
  | .rollbackOrderMarginLock m => 0 ≤ m ∧ numericMargins m ≤ s.outstanding
  | .releaseAndApplyPnl released m _ =>
    released = some false → 0 ≤ m ∧ numericMargins m ≤ s.outstanding
  | .grantBonus _ => True
  | .revokeBonus _ => True
  | .lockMargin _ => True
  | .chargePlacementFee _ => True
  | .refundPlacementFee _ => True
  | .settleSwapOnClosedPosition _ _ _ => True

instance (s : Audit) : DecidablePred s.Outstanding
  | .rollbackOrderMarginLock m =>
    inferInstanceAs (Decidable (0 ≤ m ∧ numericMargins m ≤ s.outstanding))
  | .releaseAndApplyPnl released m _ =>
    inferInstanceAs (Decidable (released = some false → 0 ≤ m ∧ numericMargins m ≤ s.outstanding))
  | .grantBonus _ => inferInstanceAs (Decidable True)
  | .revokeBonus _ => inferInstanceAs (Decidable True)
  | .lockMargin _ => inferInstanceAs (Decidable True)
  | .chargePlacementFee _ => inferInstanceAs (Decidable True)
  | .refundPlacementFee _ => inferInstanceAs (Decidable True)
  | .settleSwapOnClosedPosition _ _ _ => inferInstanceAs (Decidable True)

/-- The amounts that a call moves. -/
def amounts : WalletCall → List ℚ
  | .grantBonus amount => [amount]
  | .revokeBonus amount => [amount]
  | .lockMargin marginRequired => [marginRequired]
  | .rollbackOrderMarginLock m => [m.1, m.2]
  | .releaseAndApplyPnl _ m realizedPnl => [m.1, m.2, realizedPnl]
  | .chargePlacementFee feeAmountUsd => [feeAmountUsd]
  | .refundPlacementFee log => log.toList.map Prod.fst
  | .settleSwapOnClosedPosition _ _ row => row.toList.map (·.accumulatedSwapUsd)

/-- No amount is a tie for the columns that it is added to. -/
def Clear (c : WalletCall) : Prop := ∀ x ∈ amounts c, ¬ NumericTie x

instance : DecidablePred Clear := fun c =>
  inferInstanceAs (Decidable (∀ x ∈ amounts c, ¬ NumericTie x))

/-- Books with nothing inserted yet, over locks that exist already. -/
structure Opening (s : Audit) : Prop where
  onScale : s.books.wallet.OnScale
  noTransaction : s.books.transactions = []
  nonneg : 0 ≤ s.outstanding
  covered : s.outstanding ≤ s.books.wallet.locks

/-- The wallet has changed by its transactions, its bounds hold, and a call
that fails leaves the books as they are. -/
structure Reconciled (s initial : Audit) : Prop where
  total : s.books.wallet.total =
    initial.books.wallet.total + (s.books.transactions.map (·.netAmount)).sum
  bonusLocked : 0 ≤ s.books.wallet.bonusLocked ∧
    s.books.wallet.bonusLocked ≤ s.books.wallet.bonusBalance
  lockedBalance : 0 ≤ s.books.wallet.lockedBalance
  failing : ∀ attempt, s.Fails attempt → ∀ after, s.step attempt = some after →
    after.books = s.books

/-- The invariant: nothing beyond the transactions, and the locks cover what
is outstanding. -/
structure Sound (s initial : Audit) : Prop where
  onScale : s.books.wallet.OnScale
  surplus : s.books.surplus = initial.books.surplus
  nonneg : 0 ≤ s.outstanding
  covered : s.outstanding ≤ s.books.wallet.locks

variable {initial s after : Audit}

theorem numericMargins_nonneg {m : Margins} (nonneg : 0 ≤ m) : 0 ≤ numericMargins m :=
  ⟨stored_nonneg Books.numericScale_pos nonneg.1, stored_nonneg Books.numericScale_pos nonneg.2⟩

theorem call_records {b final : Books} {change : Margins} {c : WalletCall}
    (onScale : b.wallet.OnScale) (clear : Clear c) (done : call b c = some (final, change)) :
    final.Records b (b.wallet.locks + change) := by
  cases c with
  | grantBonus amount =>
    obtain ⟨_, granted, same⟩ := Option.map_eq_some_iff.mp done
    cases same
    rw [add_zero]
    exact Books.grantBonus_records onScale (clear _ (.head _)) granted
  | revokeBonus amount =>
    obtain ⟨_, revoked, same⟩ := Option.map_eq_some_iff.mp done
    cases same
    rw [add_zero]
    exact Books.revokeBonus_records onScale (clear _ (.head _)) revoked
  | lockMargin marginRequired =>
    obtain ⟨_, locked, same⟩ := Option.map_eq_some_iff.mp done
    cases same
    exact Books.lockMargin_records onScale (clear _ (.head _)) locked
  | rollbackOrderMarginLock m =>
    obtain ⟨_, unlocked, same⟩ := Option.map_eq_some_iff.mp done
    cases same
    rw [← sub_eq_add_neg]
    exact Books.rollbackOrderMarginLock_records onScale (clear _ (.head _))
      (clear _ (.tail _ (.head _))) unlocked
  | releaseAndApplyPnl released m realizedPnl =>
    obtain ⟨_, applied, same⟩ := Option.map_eq_some_iff.mp done
    cases same
    exact Books.releaseAndApplyPnl_records onScale (clear _ (.head _))
      (clear _ (.tail _ (.head _))) (clear _ (.tail _ (.tail _ (.head _)))) applied
  | chargePlacementFee feeAmountUsd =>
    obtain ⟨_, charged, same⟩ := Option.map_eq_some_iff.mp done
    cases same
    rw [add_zero]
    exact Books.chargePlacementFee_records onScale (clear _ (.head _)) charged
  | refundPlacementFee log =>
    obtain ⟨_, refunded, same⟩ := Option.map_eq_some_iff.mp done
    cases same
    rw [add_zero]
    refine Books.refundPlacementFee_records onScale (fun row member => ?_) refunded
    exact clear _ (List.mem_map_of_mem (Option.mem_toList.mpr member))
  | settleSwapOnClosedPosition settled userId row =>
    obtain ⟨_, settledNow, same⟩ := Option.map_eq_some_iff.mp done
    cases same
    rw [add_zero]
    refine Books.settleSwapOnClosedPosition_records onScale (fun p member => ?_) settledNow
    exact clear _ (List.mem_map_of_mem (Option.mem_toList.mpr member))

/-- What a call gives back was outstanding. -/
theorem call_outstanding {b : Books} {change : Margins} {c : WalletCall} (nonneg : 0 ≤ s.outstanding)
    (outstanding : s.Outstanding c) (done : call s.books c = some (b, change)) :
    0 ≤ s.outstanding + change := by
  cases c with
  | lockMargin marginRequired =>
    obtain ⟨result, locked, same⟩ := Option.map_eq_some_iff.mp done
    cases same
    exact add_nonneg nonneg (numericMargins_nonneg (Books.lockMargin_nonneg locked))
  | rollbackOrderMarginLock m =>
    obtain ⟨_, _, same⟩ := Option.map_eq_some_iff.mp done
    cases same
    rw [← sub_eq_add_neg]
    exact sub_nonneg.mpr outstanding.2
  | releaseAndApplyPnl released m realizedPnl =>
    obtain ⟨_, _, same⟩ := Option.map_eq_some_iff.mp done
    cases same
    split_ifs with first
    · rw [← sub_eq_add_neg]
      exact sub_nonneg.mpr (outstanding first).2
    · rw [add_zero]
      exact nonneg
  | grantBonus _ | revokeBonus _ | chargePlacementFee _ | refundPlacementFee _
  | settleSwapOnClosedPosition _ _ _ =>
    obtain ⟨_, _, same⟩ := Option.map_eq_some_iff.mp done
    cases same
    rw [add_zero]
    exact nonneg

theorem Sound.step (sound : s.Sound initial) {attempt : WalletCall × Bool}
    (outstanding : s.Outstanding attempt.1) (clear : Clear attempt.1)
    (taken : s.step attempt = some after) : after.Sound initial := by
  unfold Audit.step at taken
  split_ifs at taken
  · cases taken
    exact sound
  · cases done : call s.books attempt.1 with
    | none =>
      rw [done] at taken
      cases taken
      exact sound
    | some result =>
      rw [done] at taken
      cases taken
      have records := call_records sound.onScale clear done
      refine ⟨records.onScale, records.surplus.trans sound.surplus, ?_, ?_⟩
      · exact call_outstanding sound.nonneg outstanding done
      · exact records.locks ▸ add_le_add_left sound.covered result.2

theorem step_of_fails {attempt : WalletCall × Bool} (fails : s.Fails attempt)
    (taken : s.step attempt = some after) : after.books = s.books := by
  unfold step at taken
  rcases fails with interrupted | refused
  · rw [if_pos interrupted] at taken
    cases taken
    rfl
  · rw [refused] at taken
    split_ifs at taken <;> cases taken <;> rfl

theorem Sound.reconciled (sound : s.Sound initial) (opening : initial.Opening) :
    s.Reconciled initial where
  total := by
    have surplus := sound.surplus
    rw [Books.surplus, Books.surplus, opening.noTransaction, List.map_nil, List.sum_nil,
      sub_zero] at surplus
    exact sub_eq_iff_eq_add.mp surplus
  bonusLocked := ⟨s.books.wallet.bonusLocked_nonneg, s.books.wallet.bonusLocked_le⟩
  lockedBalance := sound.nonneg.1.trans sound.covered.1
  failing _ fails _ taken := step_of_fails fails taken

theorem reconciled_of_run {calls : List (WalletCall × Bool)} (opening : initial.Opening)
    (run : GuardedRun step (fun s attempt => s.Outstanding attempt.1 ∧ Clear attempt.1) initial
      calls s) : s.Reconciled initial := by
  let IsSound (s : Audit) : Prop := s.Sound initial
  have initially : IsSound initial := ⟨opening.onScale, rfl, opening.nonneg, opening.covered⟩
  have sound : IsSound s :=
    run.invariant initially fun _ _ _ allowed taken sound =>
      Sound.step sound allowed.1 allowed.2 taken
  exact Sound.reconciled sound opening

/-- A wallet with 50 in cash, before its first call. -/
def fiftyCash : Audit := ⟨⟨Wallet.cash 50 0, []⟩, 0⟩

theorem opening_fiftyCash : fiftyCash.Opening :=
  ⟨⟨⟨5000000000, by decide +kernel⟩, onScale_zero, onScale_zero, onScale_zero⟩, rfl, le_rfl, le_rfl⟩

/-- Half a unit is revoked from a bonus of 1. The balance rounds back to 1,
while the row says that a unit was taken. -/
def halfUnitRevoked : List (WalletCall × Bool) :=
  [(.grantBonus 1, false), (.revokeBonus (1 / 200000000), false)]

theorem not_reconciled_halfUnitRevoked : fiftyCash.Opening ∧
    ∃ s, GuardedRun step (fun s attempt => s.Outstanding attempt.1) fiftyCash halfUnitRevoked s ∧
      ¬ s.Reconciled fiftyCash := by
  have evaluates : (runGuarded step (fun s attempt => s.Outstanding attempt.1) fiftyCash
      halfUnitRevoked).map (fun s => (s.books.wallet.total,
        (s.books.transactions.map (·.netAmount)).sum)) =
      some (51, 99999999 / 100000000) := by decide +kernel
  obtain ⟨s, reached, reads⟩ := Option.map_eq_some_iff.mp evaluates
  obtain ⟨total, net⟩ := Prod.mk.inj reads
  refine ⟨opening_fiftyCash, s, .of_eval reached, fun reconciled => ?_⟩
  have claimed := reconciled.total
  rw [total, net] at claimed
  exact absurd claimed (by decide +kernel)

/-- A bonus, an order of 80 that is filled and closed with a loss of 40 and a
third, a refused revocation, and a second order that is cancelled. -/
def tradedAndCancelled : List (WalletCall × Bool) :=
  [(.grantBonus 40, false), (.chargePlacementFee 5, false), (.lockMargin 80, false),
   (.revokeBonus 10, false), (.releaseAndApplyPnl (some false) (45, 35) (-121 / 3), false),
   (.lockMargin 20, true), (.lockMargin 20, false), (.rollbackOrderMarginLock (20, 0), false),
   (.refundPlacementFee (some (5, false)), false)]

theorem reconciled_tradedAndCancelled : ∃ s,
    GuardedRun step (fun s attempt => s.Outstanding attempt.1 ∧ Clear attempt.1) fiftyCash
      tradedAndCancelled s ∧
    s.books.transactions.length = 11 ∧ s.Reconciled fiftyCash := by
  have evaluates : (runGuarded step (fun s attempt => s.Outstanding attempt.1 ∧ Clear attempt.1)
      fiftyCash tradedAndCancelled).map (·.books.transactions.length) = some 11 := by
    decide +kernel
  obtain ⟨s, reached, rows⟩ := Option.map_eq_some_iff.mp evaluates
  have run : GuardedRun step (fun s attempt => s.Outstanding attempt.1 ∧ Clear attempt.1)
      fiftyCash tradedAndCancelled s := .of_eval reached
  exact ⟨s, run, rows, reconciled_of_run opening_fiftyCash run⟩

end Audit

end TradingPlatform
