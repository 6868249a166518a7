import TradingPlatform.Summary.SummaryAgreement
import TradingPlatform.Wallet.Funds

namespace TradingPlatform

open StepRuns

/-- `get_free_margin_from_db_fast` -/
def getFreeMarginFromDbFast (transactions : List Payment) (inp : SummaryInput) : ℚ :=
  let deposits := ((transactions.filter fun t =>
    t.kind = .deposit ∧ (t.status = .completed ∨ t.status = .approved)).map (·.netAmount)).sum
  let withdrawals := ((transactions.filter fun t =>
    t.kind = .withdrawal ∧ t.status = .completed).map (·.netAmount)).sum
  let balance := deposits - withdrawals + inp.sumClosedRealizedPnlUsd
  let (marginUsed, _, unrealizedPnl) := inp.fetchPositionAggregatesFromDb
  let equity := balance + inp.bonusBalance + unrealizedPnl
  if marginUsed ≤ equity then equity - marginUsed else 0

/-- What a row counts for in the two sums of the fast path. -/
def Payment.listed (t : Payment) : ℚ :=
  if t.kind = .deposit ∧ (t.status = .completed ∨ t.status = .approved) then t.netAmount
  else if t.kind = .withdrawal ∧ t.status = .completed then -t.netAmount
  else 0

theorem sum_listed (transactions : List Payment) :
    ((transactions.filter fun t =>
        t.kind = .deposit ∧ (t.status = .completed ∨ t.status = .approved)).map (·.netAmount)).sum -
      ((transactions.filter fun t =>
        t.kind = .withdrawal ∧ t.status = .completed).map (·.netAmount)).sum =
      (transactions.map Payment.listed).sum := by
  induction transactions with
  | nil => exact sub_zero 0
  | cons t rest ih =>
    rw [List.map_cons, List.sum_cons, ← ih, List.filter_cons, List.filter_cons]
    by_cases deposit : t.kind = .deposit ∧ (t.status = .completed ∨ t.status = .approved)
    · have noWithdrawal : ¬ (t.kind = .withdrawal ∧ t.status = .completed) := by
        rw [deposit.1]
        rintro ⟨same, _⟩
        cases same
      rw [if_pos (decide_eq_true deposit), if_neg (by simpa using noWithdrawal), Payment.listed,
        if_pos deposit, List.map_cons, List.sum_cons]
      ring
    · rw [if_neg (by simpa using deposit), Payment.listed, if_neg deposit]
      split_ifs with withdrawal withdrawn
      · rw [List.map_cons, List.sum_cons]
        ring
      · exact absurd (of_decide_eq_true withdrawal) withdrawn
      · exact absurd (decide_eq_true ‹_›) withdrawal
      · ring

namespace Wallet
variable {w after : Wallet}

/-- The balance of the summary: cash, locked or not. -/
def cashBalance (w : Wallet) : ℚ := w.availableBalance + w.lockedBalance

theorem update_cashBalance {available locked bonus bonusLocked : ℚ}
    (updated : update available locked bonus bonusLocked = some after) :
    after.cashBalance = available + locked := by
  obtain ⟨isAvailable, isLocked, _⟩ := update_eq_some updated
  rw [cashBalance, isAvailable, isLocked]

theorem lockMargin_cashBalance {required : ℚ} {m : Margins}
    (locked : w.lockMargin required = some (after, m)) : after.cashBalance = w.cashBalance := by
  have locks := congrArg Prod.fst (lockMargin_locks locked).1
  change after.lockedBalance = w.lockedBalance + m.1 at locks
  rw [cashBalance, lockMargin_availableBalance locked, locks, cashBalance]
  ring

theorem rollbackOrderMarginLock_cashBalance {m : Margins}
    (unlocked : w.rollbackOrderMarginLock m = some after) : after.cashBalance = w.cashBalance := by
  unfold rollbackOrderMarginLock at unlocked
  split_ifs at unlocked
  · cases unlocked
    rfl
  · rw [update_cashBalance unlocked, cashBalance]
    ring

theorem chargePlacementFee_cashBalance {feeAmountUsd : ℚ}
    (charged : w.chargePlacementFee feeAmountUsd = some after) :
    after.cashBalance = w.cashBalance - max feeAmountUsd 0 := by
  have locked : after.lockedBalance = w.lockedBalance := by
    unfold chargePlacementFee at charged
    split_ifs at charged <;> cases charged <;> rfl
  rw [cashBalance, chargePlacementFee_availableBalance charged, locked, cashBalance]
  ring

theorem applyPnl_cashBalance {realizedPnl bonusAbsorb : ℚ}
    (applied : w.applyPnl realizedPnl = some (after, bonusAbsorb)) :
    after.cashBalance = w.cashBalance + (realizedPnl + bonusAbsorb) := by
  obtain ⟨again, absorbed, same, locks, _⟩ := w.applyPnl_total realizedPnl
  cases Option.some.inj (applied.symm.trans same)
  have locked : after.lockedBalance = w.lockedBalance := congrArg Prod.fst locks
  rw [cashBalance, applyPnl_availableBalance applied, locked, cashBalance]
  ring

theorem releaseAndApplyPnl_cashBalance {released : Option Bool} {m : Margins} {realizedPnl : ℚ}
    {absorbed : Option ℚ}
    (applied : w.releaseAndApplyPnl released m realizedPnl = some (after, absorbed)) :
    after.cashBalance = w.cashBalance + (absorbed.map (realizedPnl + ·)).getD 0 := by
  unfold releaseAndApplyPnl at applied
  split at applied
  next => cases applied; exact (add_zero _).symm
  next => cases applied; exact (add_zero _).symm
  next =>
    split at applied
    next => cases applied
    next freed updated =>
      obtain ⟨⟨w', bonusAbsorb⟩, pnlApplied, same⟩ := Option.map_eq_some_iff.mp applied
      cases same
      change after.cashBalance = w.cashBalance + (realizedPnl + bonusAbsorb)
      rw [applyPnl_cashBalance pnlApplied, update_cashBalance updated, cashBalance]
      ring

end Wallet

namespace Funds

/-- Cash that no counted row stands for. -/
def unlisted (s : Funds) : ℚ := s.wallet.cashBalance - (s.transactions.map Payment.listed).sum

/-- The fee that a charge takes. -/
def feeTaken (s : Funds) (feeAmountUsd : ℚ) : ℚ :=
  if feeAmountUsd ≤ s.wallet.availableBalance then max feeAmountUsd 0 else 0

/-- The PnL that a release books in cash: what the bonus absorbs of a loss is
not taken from there. -/
def pnlBooked (s : Funds) (p : ℕ) (m : Margins) (realizedPnl : ℚ) : ℚ :=
  match s.wallet.releaseAndApplyPnl (s.releasedFlag p) m realizedPnl with
  | some (_, some bonusAbsorb) => realizedPnl + bonusAbsorb
  | _ => 0

/-- What an operation moves in the wallet without a row that the fast path
counts. -/
def moves (s : Funds) : FundsAction → ℚ
  | .createLedgerEntry kind delta => delta - Payment.listed ⟨kind, .completed, delta⟩
  | .chargePlacementFee _ feeAmountUsd => -s.feeTaken feeAmountUsd
  | .refundPlacementFee o => (s.refundDue o).getD 0
  | .releaseAndApplyPnl p m realizedPnl => s.pnlBooked p m realizedPnl
  | .settleSwap p => -(s.swapDue p).getD 0
  | _ => 0

/-- Only requests wait for an approval. -/
def OnlyRequestsPend (s : Funds) : Prop :=
  ∀ t ∈ s.transactions, t.status = .pending → t.kind = .deposit ∨ t.kind = .withdrawal

variable {s : Funds}

theorem unlisted_insert (kind : PaymentKind) (status : TransactionStatus) (netAmount : ℚ) :
    (s.insert kind status netAmount).unlisted =
      s.unlisted - Payment.listed ⟨kind, status, netAmount⟩ := by
  unfold unlisted insert
  rw [List.map_append, List.sum_append, List.map_singleton, List.sum_singleton]
  ring

/-- A row that is neither a deposit nor a withdrawal is not counted. -/
theorem unlisted_insert_other {kind : PaymentKind} (status : TransactionStatus) (netAmount : ℚ)
    (other : kind ≠ .deposit ∧ kind ≠ .withdrawal) :
    (s.insert kind status netAmount).unlisted = s.unlisted := by
  rw [unlisted_insert, Payment.listed, if_neg fun deposit => other.1 deposit.1,
    if_neg fun withdrawal => other.2 withdrawal.1, sub_zero]

theorem unlisted_insertPositive {kind : PaymentKind} (amount netAmount : ℚ)
    (other : kind ≠ .deposit ∧ kind ≠ .withdrawal) :
    (s.insertPositive kind amount netAmount).unlisted = s.unlisted := by
  unfold insertPositive
  split_ifs
  · exact unlisted_insert_other _ _ other
  · rfl

theorem unlisted_insertUnlocks (m : Margins) : (s.insertUnlocks m).unlisted = s.unlisted := by
  unfold insertUnlocks
  rw [unlisted_insertPositive _ _ (by decide), unlisted_insertPositive _ _ (by decide)]

theorem unlisted_insertPnl (realizedPnl bonusAbsorb : ℚ) :
    (s.insertPnl realizedPnl bonusAbsorb).unlisted = s.unlisted := by
  unfold insertPnl
  split_ifs
  · rw [unlisted_insertPositive _ _ (by decide), unlisted_insertPositive _ _ (by decide)]
  · exact unlisted_insertPositive _ _ (by decide)

theorem unlisted_credit (delta : ℚ) : (s.credit delta).unlisted = s.unlisted + delta := by
  unfold unlisted credit Wallet.cashBalance
  ring

theorem unlisted_setStatus {i : ℕ} {t : Payment} (status : TransactionStatus)
    (stored : s.transactions[i]? = some t) :
    (s.setStatus i status).unlisted =
      s.unlisted + t.listed - Payment.listed { t with status := status } := by
  have sum : ((s.transactions.modify i fun t => { t with status := status }).map
      Payment.listed).sum = (s.transactions.map Payment.listed).sum +
        (Payment.listed { t with status := status } - t.listed) := by
    obtain ⟨inRange, atIndex⟩ := List.getElem?_eq_some_iff.mp stored
    have inMapped : i < (s.transactions.map Payment.listed).length := by
      rwa [List.length_map]
    have modified : s.transactions.modify i (fun t => { t with status := status }) =
        s.transactions.set i { t with status := status } := by
      rw [List.modify_eq_set_getElem?, stored]
      rfl
    rw [modified, List.map_set, List.sum_set', dif_pos inMapped, List.getElem_map, atIndex]
    ring
  unfold unlisted setStatus
  rw [sum]
  ring

/-- What an approval moves is what the row then counts for. -/
theorem listed_settled {t : Payment} (request : t.kind = .deposit ∨ t.kind = .withdrawal) :
    Payment.listed { t with status := .completed } =
      if t.kind = .withdrawal then -t.netAmount else t.netAmount := by
  unfold Payment.listed
  rcases request with deposit | withdrawal
  · simp [deposit]
  · simp [withdrawal]

theorem listed_pending {t : Payment} (pending : t.status = .pending) : t.listed = 0 := by
  simp [Payment.listed, pending]

theorem unlisted_approveTransaction (requests : s.OnlyRequestsPend) (i : ℕ) :
    (s.approveTransaction i).unlisted = s.unlisted := by
  unfold approveTransaction
  split
  next => rfl
  next t stored =>
    by_cases pending : t.status = .pending
    · rw [if_neg (not_not.mpr pending)]
      by_cases poor : t.kind = .withdrawal ∧ s.wallet.availableBalance < t.netAmount
      · rw [if_pos poor]
      rw [if_neg poor]
      have request := requests t (List.mem_of_getElem? stored) pending
      rw [unlisted_setStatus (s := s.credit _) .completed stored, unlisted_credit,
        listed_pending pending, listed_settled request, add_zero, add_sub_cancel_right]
    · rw [if_pos pending]

theorem unlisted_approveDeposit (i : ℕ) : (s.approveDeposit i).unlisted = s.unlisted := by
  unfold approveDeposit
  split
  next => rfl
  next t stored =>
    split_ifs with selected
    · have counted : Payment.listed { t with status := .approved } = t.netAmount := by
        simp [Payment.listed, selected.1]
      rw [unlisted_credit, unlisted_setStatus .approved stored, listed_pending selected.2, counted]
      ring
    · rfl

theorem unlisted_reject (i : ℕ) (selects : Payment → Prop) [DecidablePred selects] :
    (s.reject i selects).unlisted = s.unlisted := by
  unfold reject
  split
  next => rfl
  next t stored =>
    split_ifs with selected
    · have uncounted : Payment.listed { t with status := .rejected } = 0 := by
        simp [Payment.listed]
      rw [unlisted_setStatus .rejected stored, listed_pending selected.2, uncounted]
      ring
    · rfl

/-- Only the wallet changes. -/
theorem unlisted_withWallet (wallet : Wallet) : Funds.unlisted { s with wallet := wallet } =
    s.unlisted + (wallet.cashBalance - s.wallet.cashBalance) := by
  unfold unlisted
  ring

theorem unlisted_grantBonus (amount : ℚ) : (s.grantBonus amount).unlisted = s.unlisted := by
  unfold grantBonus
  split_ifs
  · rfl
  · split
    next => rfl
    next wallet updated =>
      rw [unlisted_insert_other _ _ (by decide), unlisted_withWallet,
        Wallet.update_cashBalance updated, ← Wallet.cashBalance, sub_self, add_zero]

theorem unlisted_revokeBonus (amount : ℚ) : (s.revokeBonus amount).unlisted = s.unlisted := by
  unfold revokeBonus
  split_ifs
  · rfl
  · split
    next => rfl
    next wallet updated =>
      rw [unlisted_insert_other _ _ (by decide), unlisted_withWallet,
        Wallet.update_cashBalance updated, ← Wallet.cashBalance, sub_self, add_zero]

theorem unlisted_lockMargin (marginRequired : ℚ) :
    (s.lockMargin marginRequired).unlisted = s.unlisted := by
  unfold lockMargin
  split
  next => rfl
  next wallet m locked =>
    rw [unlisted_insertPositive _ _ (by decide), unlisted_insertPositive _ _ (by decide),
      unlisted_withWallet, Wallet.lockMargin_cashBalance locked, sub_self, add_zero]

theorem unlisted_rollbackOrderMarginLock (m : Margins) :
    (s.rollbackOrderMarginLock m).unlisted = s.unlisted := by
  unfold rollbackOrderMarginLock
  split
  next => rfl
  next wallet unlocked =>
    rw [unlisted_insertUnlocks, unlisted_withWallet,
      Wallet.rollbackOrderMarginLock_cashBalance unlocked, sub_self, add_zero]

theorem unlisted_chargePlacementFee (o : OrderId) (feeAmountUsd : ℚ) :
    (s.chargePlacementFee o feeAmountUsd).unlisted = s.unlisted - s.feeTaken feeAmountUsd := by
  unfold chargePlacementFee feeTaken
  split
  next refused =>
    unfold Wallet.chargePlacementFee at refused
    split_ifs at refused with free covered
    rw [if_neg covered, sub_zero]
  next wallet charged =>
    by_cases free : feeAmountUsd ≤ 0
    · rw [if_pos free, max_eq_right free, ite_self, sub_zero]
    · have covered : feeAmountUsd ≤ s.wallet.availableBalance := by
        unfold Wallet.chargePlacementFee at charged
        rw [if_neg free] at charged
        by_contra poor
        rw [if_neg poor] at charged
        cases charged
      have moved := unlisted_withWallet (s := s) wallet
      rw [Wallet.chargePlacementFee_cashBalance charged] at moved
      rw [if_neg free, if_pos covered, unlisted_insert_other _ _ (by decide)]
      refine moved.trans ?_
      ring

theorem unlisted_refundPlacementFee (o : OrderId) :
    (s.refundPlacementFee o).unlisted = s.unlisted + (s.refundDue o).getD 0 := by
  unfold refundPlacementFee
  cases s.refundDue o with
  | none => exact (add_zero _).symm
  | some feeAmount => exact (unlisted_insert_other _ _ (by decide)).trans (unlisted_credit _)

theorem unlisted_releaseAndApplyPnl (p : ℕ) (m : Margins) (realizedPnl : ℚ) :
    (s.releaseAndApplyPnl p m realizedPnl).unlisted =
      s.unlisted + s.pnlBooked p m realizedPnl := by
  unfold releaseAndApplyPnl pnlBooked
  cases applied : s.wallet.releaseAndApplyPnl (s.releasedFlag p) m realizedPnl with
  | none => exact (add_zero _).symm
  | some result =>
    obtain ⟨wallet, absorbed⟩ := result
    cases absorbed with
    | none => exact (add_zero _).symm
    | some bonusAbsorb =>
      have moved := unlisted_withWallet (s := s) wallet
      rw [Wallet.releaseAndApplyPnl_cashBalance applied] at moved
      dsimp only
      rw [unlisted_insertPnl, unlisted_insertUnlocks]
      refine moved.trans ?_
      rw [Option.map_some, Option.getD_some]
      ring

theorem unlisted_settleSwap (p : ℕ) :
    (s.settleSwap p).unlisted = s.unlisted + -(s.swapDue p).getD 0 := by
  unfold settleSwap
  cases s.swapDue p with
  | none => exact (by rw [Option.getD_none, neg_zero, add_zero])
  | some acc => exact (unlisted_insert_other _ _ (by decide)).trans (unlisted_credit _)

theorem unlisted_writePosition (row : DbPosition) :
    (s.writePosition row).unlisted = s.unlisted := by
  unfold writePosition
  split <;> rfl

theorem unlisted_step (requests : s.OnlyRequestsPend) {action : FundsAction} {after : Funds}
    (taken : s.step action = some after) : after.unlisted = s.unlisted + s.moves action := by
  cases action with
  | createDepositRequest amount =>
    cases taken
    split_ifs
    · rw [unlisted_insert, listed_pending rfl]
      exact (sub_zero _).trans (add_zero _).symm
    · exact (add_zero _).symm
  | createWithdrawalRequest amount =>
    cases taken
    split_ifs
    · rw [unlisted_insert, listed_pending rfl]
      exact (sub_zero _).trans (add_zero _).symm
    · exact (add_zero _).symm
  | approveTransaction i =>
    cases taken
    exact (unlisted_approveTransaction requests i).trans (add_zero _).symm
  | approveDeposit i =>
    cases taken
    exact (unlisted_approveDeposit i).trans (add_zero _).symm
  | rejectTransaction i =>
    cases taken
    exact (unlisted_reject i _).trans (add_zero _).symm
  | rejectDeposit i =>
    cases taken
    exact (unlisted_reject i _).trans (add_zero _).symm
  | createDirectDeposit amount =>
    cases taken
    split_ifs
    · have counted : Payment.listed ⟨.deposit, .approved, amount⟩ = amount := if_pos ⟨rfl, .inr rfl⟩
      rw [unlisted_credit, unlisted_insert, counted, sub_add_cancel]
      exact (add_zero _).symm
    · exact (add_zero _).symm
  | createLedgerEntry kind delta =>
    cases taken
    rw [unlisted_credit, unlisted_insert, moves]
    ring
  | grantBonus amount =>
    cases taken
    exact (unlisted_grantBonus amount).trans (add_zero _).symm
  | revokeBonus amount =>
    cases taken
    exact (unlisted_revokeBonus amount).trans (add_zero _).symm
  | lockMargin marginRequired =>
    cases taken
    exact (unlisted_lockMargin marginRequired).trans (add_zero _).symm
  | rollbackOrderMarginLock m =>
    cases taken
    exact (unlisted_rollbackOrderMarginLock m).trans (add_zero _).symm
  | chargePlacementFee o feeAmountUsd =>
    simp only [step] at taken
    split_ifs at taken
    cases taken
    exact (unlisted_chargePlacementFee o feeAmountUsd).trans (sub_eq_add_neg _ _)
  | refundPlacementFee o =>
    cases taken
    exact unlisted_refundPlacementFee o
  | releaseAndApplyPnl p m realizedPnl =>
    cases taken
    exact unlisted_releaseAndApplyPnl p m realizedPnl
  | settleSwap p =>
    cases taken
    exact unlisted_settleSwap p
  | writePosition row =>
    cases taken
    exact (unlisted_writePosition row).trans (add_zero _).symm

theorem OnlyRequestsPend.insert (requests : s.OnlyRequestsPend) {kind : PaymentKind}
    {status : TransactionStatus} (netAmount : ℚ)
    (pends : status = .pending → kind = .deposit ∨ kind = .withdrawal) :
    (s.insert kind status netAmount).OnlyRequestsPend := by
  intro t member pending
  rcases List.mem_append.mp member with old | new
  · exact requests t old pending
  · cases List.mem_singleton.mp new
    exact pends pending

theorem OnlyRequestsPend.insertPositive (requests : s.OnlyRequestsPend) (kind : PaymentKind)
    (amount netAmount : ℚ) : (s.insertPositive kind amount netAmount).OnlyRequestsPend := by
  unfold Funds.insertPositive
  split_ifs
  · exact requests.insert netAmount fun pending => nomatch pending
  · exact requests

theorem OnlyRequestsPend.insertUnlocks (requests : s.OnlyRequestsPend) (m : Margins) :
    (s.insertUnlocks m).OnlyRequestsPend :=
  (requests.insertPositive _ _ _).insertPositive _ _ _

theorem OnlyRequestsPend.insertPnl (requests : s.OnlyRequestsPend) (realizedPnl bonusAbsorb : ℚ) :
    (s.insertPnl realizedPnl bonusAbsorb).OnlyRequestsPend := by
  unfold Funds.insertPnl
  split_ifs
  · exact (requests.insertPositive _ _ _).insertPositive _ _ _
  · exact requests.insertPositive _ _ _

theorem OnlyRequestsPend.setStatus (requests : s.OnlyRequestsPend) (i : ℕ)
    {status : TransactionStatus} (settles : status ≠ .pending) :
    (s.setStatus i status).OnlyRequestsPend := by
  intro t member pending
  obtain ⟨j, atIndex⟩ := List.mem_iff_getElem?.mp member
  change (s.transactions.modify i _)[j]? = some t at atIndex
  rw [List.getElem?_modify] at atIndex
  obtain ⟨old, stored, written⟩ := Option.map_eq_some_iff.mp atIndex
  split_ifs at written
  · rw [← written] at pending
    exact absurd pending settles
  · exact requests t (written ▸ List.mem_of_getElem? stored) pending

theorem OnlyRequestsPend.step (requests : s.OnlyRequestsPend) {action : FundsAction} {after : Funds}
    (taken : s.step action = some after) : after.OnlyRequestsPend := by
  cases action with
  | createDepositRequest amount =>
    cases taken
    split_ifs
    · exact requests.insert amount fun _ => .inl rfl
    · exact requests
  | createWithdrawalRequest amount =>
    cases taken
    split_ifs
    · exact requests.insert amount fun _ => .inr rfl
    · exact requests
  | approveTransaction i =>
    cases taken
    unfold approveTransaction
    split
    next => exact requests
    next t stored =>
      by_cases settled : t.status ≠ .pending
      · rwa [if_pos settled]
      rw [if_neg settled]
      by_cases poor : t.kind = .withdrawal ∧ s.wallet.availableBalance < t.netAmount
      · rwa [if_pos poor]
      rw [if_neg poor]
      have credited : (s.credit (if t.kind = .withdrawal then -t.netAmount else
        t.netAmount)).OnlyRequestsPend := requests
      exact credited.setStatus i (by decide)
  | approveDeposit i =>
    cases taken
    unfold approveDeposit
    split
    next => exact requests
    next t stored =>
      split_ifs
      · exact requests.setStatus i (by decide)
      · exact requests
  | rejectTransaction i =>
    cases taken
    unfold reject
    split
    next => exact requests
    next t stored =>
      split_ifs
      · exact requests.setStatus i (by decide)
      · exact requests
  | rejectDeposit i =>
    cases taken
    unfold reject
    split
    next => exact requests
    next t stored =>
      split_ifs
      · exact requests.setStatus i (by decide)
      · exact requests
  | createDirectDeposit amount =>
    cases taken
    split_ifs
    · exact requests.insert amount fun pending => nomatch pending
    · exact requests
  | createLedgerEntry kind delta =>
    cases taken
    exact requests.insert delta fun pending => nomatch pending
  | grantBonus amount =>
    cases taken
    unfold grantBonus
    split_ifs
    · exact requests
    · split
      next => exact requests
      next wallet _ =>
        have moved : Funds.OnlyRequestsPend { s with wallet := wallet } := requests
        exact moved.insert amount fun pending => nomatch pending
  | revokeBonus amount =>
    cases taken
    unfold revokeBonus
    split_ifs
    · exact requests
    · split
      next => exact requests
      next wallet _ =>
        have moved : Funds.OnlyRequestsPend { s with wallet := wallet } := requests
        exact moved.insert _ fun pending => nomatch pending
  | lockMargin marginRequired =>
    cases taken
    unfold lockMargin
    split
    next => exact requests
    next wallet m _ =>
      have moved : Funds.OnlyRequestsPend { s with wallet := wallet } := requests
      exact (moved.insertPositive _ _ _).insertPositive _ _ _
  | rollbackOrderMarginLock m =>
    cases taken
    unfold rollbackOrderMarginLock
    split
    next => exact requests
    next wallet _ =>
      have moved : Funds.OnlyRequestsPend { s with wallet := wallet } := requests
      exact moved.insertUnlocks m
  | chargePlacementFee o feeAmountUsd =>
    simp only [Funds.step] at taken
    split_ifs at taken
    cases taken
    unfold chargePlacementFee
    split
    next => exact requests
    next wallet _ =>
      split_ifs
      · exact requests
      · have moved : Funds.OnlyRequestsPend { s with
            wallet := wallet, feeLog := s.feeLog.insert o (feeAmountUsd, false) } := requests
        exact moved.insert _ fun pending => nomatch pending
  | refundPlacementFee o =>
    cases taken
    unfold refundPlacementFee
    split
    next => exact requests
    next feeAmount _ =>
      have moved : Funds.OnlyRequestsPend { s.credit feeAmount with
        feeLog := s.feeLog.insert o (feeAmount, true) } := requests
      exact moved.insert _ fun pending => nomatch pending
  | releaseAndApplyPnl p m realizedPnl =>
    cases taken
    unfold releaseAndApplyPnl
    split
    next => exact requests
    next => exact requests
    next wallet bonusAbsorb _ =>
      refine OnlyRequestsPend.insertPnl (OnlyRequestsPend.insertUnlocks ?_ m) _ _
      exact requests
  | settleSwap p =>
    cases taken
    unfold settleSwap
    split
    next => exact requests
    next acc _ =>
      have moved : Funds.OnlyRequestsPend { s.credit (-acc) with
        swapSettled := p :: s.swapSettled } := requests
      exact moved.insert _ fun pending => nomatch pending
  | writePosition row =>
    cases taken
    unfold writePosition
    split <;> exact requests

/-- What the operations of a history have moved without a counted row. -/
def movedBy (actions : List FundsAction) : ℚ := (tallied step moves opened actions).2

/-- In every history the cash is what the fast path counts and what the other
operations have moved. -/
theorem cashBalance_eq {actions : List FundsAction} (run : Run step opened actions s) :
    s.wallet.cashBalance = (s.transactions.map Payment.listed).sum + movedBy actions := by
  have initially : opened.OnlyRequestsPend := fun t member => nomatch member
  have moved : s.unlisted = opened.unlisted + movedBy actions :=
    (run.tallied initially (fun _ _ _ _ taken requests => requests.step taken)
      fun _ _ _ _ taken requests => unlisted_step requests taken).2
  have nothing : opened.unlisted = 0 := by decide +kernel
  rw [nothing, zero_add] at moved
  rw [← moved, unlisted, add_sub_cancel]

/-- What a summary is computed from: the account's wallet and rows, and all
the rest. -/
def input (s : Funds) (rest : SummaryInput) : SummaryInput :=
  { rest with
    rows := s.rows
    availableBalance := s.wallet.availableBalance
    lockedBalance := s.wallet.lockedBalance
    bonusBalance := s.wallet.bonusBalance }

end Funds

/-- Two differences, bounded below by 0, agree. -/
theorem ite_sub_eq_ite_sub_iff {a b c d : ℚ} :
    (if a ≤ b then b - a else 0) = (if c ≤ d then d - c else 0) ↔
      b - a = d - c ∨ b ≤ a ∧ d ≤ c := by
  split_ifs with first second second
  · constructor
    · exact .inl
    · rintro (same | ⟨left, right⟩)
      · exact same
      · rw [le_antisymm left first, le_antisymm right second, sub_self, sub_self]
  · have less := not_le.mp second
    constructor
    · intro zero
      exact .inr ⟨(sub_eq_zero.mp zero).le, less.le⟩
    · rintro (same | ⟨left, _⟩)
      · linarith
      · rw [le_antisymm left first, sub_self]
  · have less := not_le.mp first
    constructor
    · intro zero
      exact .inr ⟨less.le, (sub_eq_zero.mp zero.symm).le⟩
    · rintro (same | ⟨_, right⟩)
      · linarith
      · rw [le_antisymm right second, sub_self]
  · exact ⟨fun _ => .inr ⟨(not_le.mp first).le, (not_le.mp second).le⟩, fun _ => rfl⟩

/-- For every history, every set of rows that mirror Redis and both margin
modes, the paths agree exactly when what the history has moved without a
counted row is the closed PnL and the difference of the margins, or neither
path leaves free margin. -/
theorem fastFreeMargin_eq_iff {actions : List FundsAction} {s : Funds} {rest : SummaryInput}
    (run : Run Funds.step .opened actions s) (mirrored : (s.input rest).RowsMirrored) :
    getFreeMarginFromDbFast s.transactions (s.input rest) =
        ((s.input rest).computeAccountSummaryInner true).freeMargin ↔
      Funds.movedBy actions = (s.input rest).closedPnlUsd +
          ((s.input rest).marginUsd (fun row => SummaryInput.hashKey ((s.input rest).hashOf row)) -
            (s.input rest).marginUsd (·.symbolId)) ∨
        s.wallet.total + (s.input rest).openPnlUsd +
            ((s.input rest).closedPnlUsd - Funds.movedBy actions) ≤
              (s.input rest).marginUsd (·.symbolId) ∧
          s.wallet.total + (s.input rest).openPnlUsd ≤ (s.input rest).marginUsd (fun row =>
            SummaryInput.hashKey ((s.input rest).hashOf row)) := by
  obtain ⟨realized, redis⟩ := mirrored.fromRedis
  have closed : (s.input rest).sumClosedRealizedPnlUsd = (s.input rest).closedPnlUsd :=
    mirrored.sumUsd_joined _ _
  have cash := Funds.cashBalance_eq run
  have fast : getFreeMarginFromDbFast s.transactions (s.input rest) =
      if (s.input rest).marginUsd (·.symbolId) ≤ s.wallet.total + (s.input rest).openPnlUsd +
          ((s.input rest).closedPnlUsd - Funds.movedBy actions) then
        s.wallet.total + (s.input rest).openPnlUsd +
          ((s.input rest).closedPnlUsd - Funds.movedBy actions) -
            (s.input rest).marginUsd (·.symbolId)
      else 0 := by
    have equity : (s.transactions.map Payment.listed).sum + (s.input rest).closedPnlUsd +
        (s.input rest).bonusBalance + (s.input rest).openPnlUsd = s.wallet.total +
          (s.input rest).openPnlUsd + ((s.input rest).closedPnlUsd - Funds.movedBy actions) := by
      change _ + _ + s.wallet.bonusBalance + _ = s.wallet.cashBalance + s.wallet.bonusBalance + _ + _
      rw [cash]
      ring
    unfold getFreeMarginFromDbFast
    dsimp only
    rw [sum_listed, closed, mirrored.fromDb]
    dsimp only
    rw [equity]
  have full : ((s.input rest).computeAccountSummaryInner true).freeMargin =
      if (s.input rest).marginUsd (fun row => SummaryInput.hashKey ((s.input rest).hashOf row)) ≤
          s.wallet.total + (s.input rest).openPnlUsd then
        s.wallet.total + (s.input rest).openPnlUsd -
          (s.input rest).marginUsd (fun row => SummaryInput.hashKey ((s.input rest).hashOf row))
      else 0 := by
    unfold SummaryInput.computeAccountSummaryInner
    rw [if_pos rfl, redis]
    rfl
  rw [fast, full, ite_sub_eq_ite_sub_iff]
  refine or_congr_left ⟨fun same => ?_, fun same => ?_⟩
  · linarith
  · rw [same]
    ring

section Examples

/-- The hashes of a closed position and of an open one of 2 bought at 10, now
at 12. -/
def closedAndOpen (mode : MarginMode) : SummaryInput where
  mode := mode
  rates := fun code => if code = "USD" then some 1 else none
  symbols := (∅ : FiniteTable SymbolId SymbolRow).insert 1 ⟨"EURUSD", "USD"⟩
  store := (Store.empty.hset (.uuid 1) fun h =>
    { h with
      symbol := some "EURUSD", groupId := some "g", side := some .SHORT, size := some 0
      avgPrice := some 10, margin := some 0, status := some .CLOSED
      realizedPnl := some (-30) }).hset (.uuid 2) fun h =>
    { h with
      symbol := some "EURUSD", groupId := some "g", side := some .LONG, size := some 2
      avgPrice := some 10, margin := some 20, status := some .OPEN }
  ids := [.uuid 2, .uuid 1]
  prices := fun key => if key = "prices:EURUSDT:g" then some (12, 13) else none
  rows := []

def noPositions : SummaryInput := { closedAndOpen .hedged with ids := [] }

def feeCharged : List FundsAction := [.createDirectDeposit 1000, .chargePlacementFee 1 10]

/-- The fee is gone from the wallet, the fast path still counts it. -/
theorem fastFreeMargin_ne_feeCharged : ∃ s, Run Funds.step .opened feeCharged s ∧
    (s.input noPositions).RowsMirrored ∧
    getFreeMarginFromDbFast s.transactions (s.input noPositions) ≠
      ((s.input noPositions).computeAccountSummaryInner true).freeMargin := by
  have evaluates : (runGuarded Funds.step (fun _ _ => True) .opened feeCharged).map (fun s =>
      (decide (s.input noPositions).RowsMirrored,
        getFreeMarginFromDbFast s.transactions (s.input noPositions),
        ((s.input noPositions).computeAccountSummaryInner true).freeMargin)) =
      some (true, 1000, 990) := by decide +kernel
  obtain ⟨s, reached, reads⟩ := Option.map_eq_some_iff.mp evaluates
  simp only [Prod.mk.injEq, decide_eq_true_eq] at reads
  obtain ⟨mirrored, fast, full⟩ := reads
  refine ⟨s, .of_eval reached, mirrored, ?_⟩
  rw [fast, full]
  decide

/-- A refunded fee, and a loss that the bonus absorbs. -/
def bonusAbsorbs : List FundsAction :=
  [.createDepositRequest 1000, .approveDeposit 0, .grantBonus 50, .lockMargin 100,
   .chargePlacementFee 1 10, .refundPlacementFee 1,
   .writePosition { uuid := 2, symbolId := 1, side := .LONG, size := 2, marginUsed := 20, pnl := 4
                    status := .OPEN },
   .writePosition { uuid := 1, symbolId := 1, side := .SHORT, size := 0, marginUsed := 0
                    pnl := -30, status := .CLOSED },
   .releaseAndApplyPnl 1 (100, 0) (-30), .settleSwap 1]

theorem fastFreeMargin_eq_bonusAbsorbs : ∃ s, Run Funds.step .opened bonusAbsorbs s ∧
    getFreeMarginFromDbFast s.transactions (s.input (closedAndOpen .net)) =
      ((s.input (closedAndOpen .net)).computeAccountSummaryInner true).freeMargin := by
  have evaluates : (runGuarded Funds.step (fun _ _ => True) .opened bonusAbsorbs).map (fun s =>
      (decide (s.input (closedAndOpen .net)).RowsMirrored,
        decide (Funds.movedBy bonusAbsorbs = (s.input (closedAndOpen .net)).closedPnlUsd +
          ((s.input (closedAndOpen .net)).marginUsd (fun row =>
              SummaryInput.hashKey ((s.input (closedAndOpen .net)).hashOf row)) -
            (s.input (closedAndOpen .net)).marginUsd (·.symbolId))))) = some (true, true) := by
    decide +kernel
  obtain ⟨s, reached, reads⟩ := Option.map_eq_some_iff.mp evaluates
  simp only [Prod.mk.injEq, decide_eq_true_eq] at reads
  obtain ⟨mirrored, balanced⟩ := reads
  have run : Run Funds.step .opened bonusAbsorbs s := .of_eval reached
  exact ⟨s, run, (fastFreeMargin_eq_iff run mirrored).mpr (.inl balanced)⟩

end Examples

end TradingPlatform
