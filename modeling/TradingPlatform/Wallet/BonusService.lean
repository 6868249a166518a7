import Mathlib

namespace TradingPlatform

/-- Margin by where it was taken from: cash first, then bonus. -/
abbrev Margins := ℚ × ℚ

/-- A `wallets` row with the CHECK constraints of its bonus columns. -/
structure Wallet where
  availableBalance : ℚ
  lockedBalance : ℚ
  bonusBalance : ℚ
  bonusLocked : ℚ
  bonusBalance_nonneg : 0 ≤ bonusBalance
  bonusLocked_nonneg : 0 ≤ bonusLocked
  bonusLocked_le : bonusLocked ≤ bonusBalance
  deriving DecidableEq

namespace Wallet

/-- A wallet without bonus. -/
def cash (availableBalance lockedBalance : ℚ) : Wallet :=
  ⟨availableBalance, lockedBalance, 0, 0, le_rfl, le_rfl, le_rfl⟩

/-- UPDATE of the balances; `none` when a CHECK constraint refuses the row. -/
def update (availableBalance lockedBalance bonusBalance bonusLocked : ℚ) : Option Wallet :=
  if checks : 0 ≤ bonusBalance ∧ 0 ≤ bonusLocked ∧ bonusLocked ≤ bonusBalance then
    some ⟨availableBalance, lockedBalance, bonusBalance, bonusLocked,
      checks.1, checks.2.1, checks.2.2⟩
  else none

def locks (w : Wallet) : Margins := (w.lockedBalance, w.bonusLocked)

/-- All money of the wallet, locked or not. -/
def total (w : Wallet) : ℚ := w.availableBalance + w.lockedBalance + w.bonusBalance

/-- `lock_margin` -/
def lockMargin (w : Wallet) (marginRequired : ℚ) : Option (Wallet × Margins) :=
  if marginRequired ≤ 0 then none
  else
    let marginFromCash := min marginRequired (max w.availableBalance 0)
    let marginFromBonus := marginRequired - marginFromCash
    if max (w.bonusBalance - w.bonusLocked) 0 < marginFromBonus then none
    else (update (w.availableBalance - marginFromCash) (w.lockedBalance + marginFromCash)
      w.bonusBalance (w.bonusLocked + marginFromBonus)).map (·, (marginFromCash, marginFromBonus))

/-- `rollback_order_margin_lock` with the split stored in the orders row. -/
def rollbackOrderMarginLock (w : Wallet) (m : Margins) : Option Wallet :=
  if m.1 = 0 ∧ m.2 = 0 then some w
  else update (w.availableBalance + m.1) (w.lockedBalance - m.1) w.bonusBalance (w.bonusLocked - m.2)

/-- The PnL part of `release_and_apply_pnl`: a loss is taken from unlocked
bonus first. Returns the absorbed amount as well. -/
def applyPnl (w : Wallet) (realizedPnl : ℚ) : Option (Wallet × ℚ) :=
  if realizedPnl < 0 then
    let loss := |realizedPnl|
    let bonusAbsorb := min loss (max (w.bonusBalance - w.bonusLocked) 0)
    (update (w.availableBalance - (loss - bonusAbsorb)) w.lockedBalance
      (w.bonusBalance - bonusAbsorb) w.bonusLocked).map (·, bonusAbsorb)
  else
    (update (w.availableBalance + realizedPnl) w.lockedBalance w.bonusBalance w.bonusLocked).map
      (·, 0)

/-- `release_and_apply_pnl`. `released` is the row's flag, if there is a row.
The result is `none` when the transaction fails, and it carries the absorbed
bonus when the flag is to be set. -/
def releaseAndApplyPnl (w : Wallet) (released : Option Bool) (m : Margins) (realizedPnl : ℚ) :
    Option (Wallet × Option ℚ) :=
  match released with
  | none => some (w, none)
  | some true => some (w, none)
  | some false =>
    match update (w.availableBalance + m.1) (w.lockedBalance - m.1) w.bonusBalance
      (w.bonusLocked - m.2) with
    | none => none
    | some w => (w.applyPnl realizedPnl).map fun (w, bonusAbsorb) => (w, some bonusAbsorb)

variable {w after : Wallet} {m : Margins}

theorem update_eq_some {available locked bonus bonusLocked : ℚ}
    (updated : update available locked bonus bonusLocked = some w) :
    w.availableBalance = available ∧ w.lockedBalance = locked ∧ w.bonusBalance = bonus ∧
      w.bonusLocked = bonusLocked := by
  unfold update at updated
  split at updated
  next => cases updated; exact ⟨rfl, rfl, rfl, rfl⟩
  next => cases updated

theorem exists_update (available locked : ℚ) {bonus bonusLocked : ℚ} (nonneg : 0 ≤ bonusLocked)
    (bounded : bonusLocked ≤ bonus) : ∃ w, update available locked bonus bonusLocked = some w ∧
      w.availableBalance = available ∧ w.lockedBalance = locked ∧ w.bonusBalance = bonus ∧
      w.bonusLocked = bonusLocked := by
  have checks : 0 ≤ bonus ∧ 0 ≤ bonusLocked ∧ bonusLocked ≤ bonus :=
    ⟨nonneg.trans bounded, nonneg, bounded⟩
  exact ⟨_, dif_pos checks, rfl, rfl, rfl, rfl⟩

theorem lockMargin_locks {required : ℚ} (locked : w.lockMargin required = some (after, m)) :
    after.locks = w.locks + m ∧ 0 ≤ m := by
  unfold lockMargin at locked
  dsimp only at locked
  split_ifs at locked with amount
  obtain ⟨w', updated, same⟩ := Option.map_eq_some_iff.mp locked
  cases same
  obtain ⟨_, lockedBalance, _, bonusLocked⟩ := update_eq_some updated
  have positive := not_le.mp amount
  refine ⟨Prod.ext lockedBalance bonusLocked, ?_, ?_⟩
  · exact le_min positive.le (le_max_right _ _)
  · exact sub_nonneg.mpr (min_le_left _ _)

theorem lockMargin_sum {required : ℚ} (locked : w.lockMargin required = some (after, m)) :
    m.1 + m.2 = required := by
  unfold lockMargin at locked
  dsimp only at locked
  split_ifs at locked
  obtain ⟨w', _, same⟩ := Option.map_eq_some_iff.mp locked
  cases same
  exact add_sub_cancel _ _

theorem rollbackOrderMarginLock_locks (nonneg : 0 ≤ m) (covered : m ≤ w.locks) :
    ∃ after, w.rollbackOrderMarginLock m = some after ∧ after.locks = w.locks - m := by
  unfold rollbackOrderMarginLock
  split_ifs with zero
  · refine ⟨w, rfl, ?_⟩
    have none : m = 0 := Prod.ext zero.1 zero.2
    rw [none, sub_zero]
  · have enough : m.2 ≤ w.bonusLocked := covered.2
    obtain ⟨after, updated, _, locked, _, bonusLocked⟩ := exists_update (w.availableBalance + m.1)
      (w.lockedBalance - m.1) (sub_nonneg.mpr enough) ((sub_le_self _ nonneg.2).trans w.bonusLocked_le)
    exact ⟨after, updated, Prod.ext locked bonusLocked⟩

theorem applyPnl_total (w : Wallet) (realizedPnl : ℚ) :
    ∃ after bonusAbsorb, w.applyPnl realizedPnl = some (after, bonusAbsorb) ∧
      after.locks = w.locks ∧ after.total = w.total + realizedPnl := by
  unfold applyPnl
  dsimp only
  split_ifs with loses
  · have absorbed : min |realizedPnl| (max (w.bonusBalance - w.bonusLocked) 0) ≤
        w.bonusBalance - w.bonusLocked := by
      rw [max_eq_left (sub_nonneg.mpr w.bonusLocked_le)]
      exact min_le_right _ _
    obtain ⟨after, updated, available, locked, bonus, bonusLocked⟩ := exists_update
      (w.availableBalance -
        (|realizedPnl| - min |realizedPnl| (max (w.bonusBalance - w.bonusLocked) 0)))
      w.lockedBalance w.bonusLocked_nonneg (le_sub_comm.mp absorbed)
    refine ⟨after, _, by rw [updated, Option.map_some], Prod.ext locked bonusLocked, ?_⟩
    unfold total
    rw [available, locked, bonus, abs_of_neg loses]
    ring
  · obtain ⟨after, updated, available, locked, bonus, bonusLocked⟩ := exists_update
      (w.availableBalance + realizedPnl) w.lockedBalance w.bonusLocked_nonneg w.bonusLocked_le
    refine ⟨after, _, by rw [updated, Option.map_some], Prod.ext locked bonusLocked, ?_⟩
    unfold total
    rw [available, locked, bonus]
    ring

/-- A first release of covered margins succeeds, frees exactly those margins
and changes the wallet's money by the PnL. -/
theorem releaseAndApplyPnl_first (realizedPnl : ℚ) (nonneg : 0 ≤ m) (covered : m ≤ w.locks) :
    ∃ after bonusAbsorb,
      w.releaseAndApplyPnl (some false) m realizedPnl = some (after, some bonusAbsorb) ∧
      after.locks = w.locks - m ∧ after.total = w.total + realizedPnl := by
  have enough : m.2 ≤ w.bonusLocked := covered.2
  obtain ⟨freed, updated, available, locked, bonus, bonusLocked⟩ := exists_update
    (w.availableBalance + m.1) (w.lockedBalance - m.1) (sub_nonneg.mpr enough) ((sub_le_self _ nonneg.2).trans w.bonusLocked_le)
  obtain ⟨after, bonusAbsorb, applied, locks, total⟩ := freed.applyPnl_total realizedPnl
  refine ⟨after, bonusAbsorb, ?_, ?_, ?_⟩
  · simp only [releaseAndApplyPnl, updated, applied, Option.map_some]
  · rw [locks]
    exact Prod.ext locked bonusLocked
  · rw [total]
    unfold Wallet.total
    rw [available, locked, bonus]
    ring

end Wallet

end TradingPlatform
