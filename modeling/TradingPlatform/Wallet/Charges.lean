import TradingPlatform.Mirror.PositionSync
import TradingPlatform.Wallet.BonusService

namespace TradingPlatform

def PositionClosedEvent.margins (e : PositionClosedEvent) : Margins :=
  (e.marginFromCash, e.marginFromBonus)

namespace Wallet

/-- `charge_placement_fee_in_tx`; `none` fails the transaction. -/
def chargePlacementFee (w : Wallet) (feeAmountUsd : ℚ) : Option Wallet :=
  if feeAmountUsd ≤ 0 then some w
  else if feeAmountUsd ≤ w.availableBalance then
    some { w with availableBalance := w.availableBalance - feeAmountUsd }
  else none

end Wallet

/-- The swap that a settlement reads: only from a closed or liquidated row of the user. -/
def PositionRow.swapToSettle (row : PositionRow) (userId : UserId) : Option ℚ :=
  if row.userId = userId ∧ (row.status = .CLOSED ∨ row.status = .LIQUIDATED) then
    some row.accumulatedSwapUsd
  else none

namespace Wallet

/-- `settle_swap_on_closed_position`. `settled` tells whether there is a
transaction `SWAP-SETTLE-{position}` already; the result carries the swap of
the one that is inserted now. -/
def settleSwapOnClosedPosition (w : Wallet) (settled : Bool) (userId : UserId)
    (row : Option PositionRow) : Wallet × Option ℚ :=
  if settled then (w, none)
  else
    match row.bind (·.swapToSettle userId) with
    | none => (w, none)
    | some acc =>
      if acc = 0 then (w, none)
      else if acc ≤ w.availableBalance then
        ({ w with availableBalance := w.availableBalance - acc }, some acc)
      else (w, none)

variable {w after : Wallet} {m : Margins}

theorem lockMargin_availableBalance {required : ℚ} (locked : w.lockMargin required = some (after, m)) :
    after.availableBalance = w.availableBalance - m.1 := by
  unfold lockMargin at locked
  dsimp only at locked
  split_ifs at locked
  obtain ⟨w', updated, same⟩ := Option.map_eq_some_iff.mp locked
  cases same
  exact (update_eq_some updated).1

theorem rollbackOrderMarginLock_availableBalance
    (unlocked : w.rollbackOrderMarginLock m = some after) :
    after.availableBalance = w.availableBalance + m.1 := by
  unfold rollbackOrderMarginLock at unlocked
  split_ifs at unlocked with zero
  · cases unlocked
    rw [zero.1, add_zero]
  · exact (update_eq_some unlocked).1

theorem applyPnl_availableBalance {realizedPnl bonusAbsorb : ℚ}
    (applied : w.applyPnl realizedPnl = some (after, bonusAbsorb)) :
    after.availableBalance = w.availableBalance + (realizedPnl + bonusAbsorb) := by
  unfold applyPnl at applied
  dsimp only at applied
  split_ifs at applied with loses <;>
    obtain ⟨w', updated, same⟩ := Option.map_eq_some_iff.mp applied <;> cases same
  · rw [(update_eq_some updated).1, abs_of_neg loses]
    ring
  · rw [(update_eq_some updated).1, add_zero]

/-- A release changes the available balance only when it is the first. -/
theorem releaseAndApplyPnl_availableBalance {released : Option Bool} {realizedPnl : ℚ}
    {absorbed : Option ℚ}
    (applied : w.releaseAndApplyPnl released m realizedPnl = some (after, absorbed)) :
    after.availableBalance = w.availableBalance +
      (absorbed.map fun bonusAbsorb => m.1 + realizedPnl + bonusAbsorb).getD 0 := by
  unfold releaseAndApplyPnl at applied
  split at applied
  next => cases applied; exact (add_zero _).symm
  next => cases applied; exact (add_zero _).symm
  next =>
    split at applied
    next => cases applied
    next freed updated =>
      obtain ⟨⟨w', bonusAbsorb⟩, pnlApplied, same⟩ := Option.map_eq_some_iff.mp applied
      cases same
      change after.availableBalance = w.availableBalance + (m.1 + realizedPnl + bonusAbsorb)
      rw [applyPnl_availableBalance pnlApplied, (update_eq_some updated).1]
      ring

theorem releaseAndApplyPnl_total {released : Option Bool} {realizedPnl : ℚ} {absorbed : Option ℚ}
    (applied : w.releaseAndApplyPnl released m realizedPnl = some (after, absorbed)) :
    after.total = w.total + if released = some false then realizedPnl else 0 := by
  unfold releaseAndApplyPnl at applied
  split at applied
  next => cases applied; exact (add_zero _).symm
  next => cases applied; exact (add_zero _).symm
  next =>
    rw [if_pos rfl]
    split at applied
    next => cases applied
    next freed updated =>
      obtain ⟨⟨w', bonusAbsorb⟩, pnlApplied, same⟩ := Option.map_eq_some_iff.mp applied
      cases same
      obtain ⟨final, bonusAbsorb, again, _, total⟩ := freed.applyPnl_total realizedPnl
      cases Option.some.inj (pnlApplied.symm.trans again)
      obtain ⟨available, locked, bonus, _⟩ := update_eq_some updated
      rw [total, Wallet.total, available, locked, bonus, Wallet.total]
      ring

theorem chargePlacementFee_availableBalance {feeAmountUsd : ℚ}
    (charged : w.chargePlacementFee feeAmountUsd = some after) :
    after.availableBalance = w.availableBalance - max feeAmountUsd 0 := by
  unfold chargePlacementFee at charged
  split_ifs at charged with free <;> cases charged
  · rw [max_eq_right free, sub_zero]
  · rw [max_eq_left (not_le.mp free).le]

theorem settleSwapOnClosedPosition_availableBalance (w : Wallet) (settled : Bool)
    (userId : UserId) (row : Option PositionRow) :
    (w.settleSwapOnClosedPosition settled userId row).1.availableBalance =
      w.availableBalance - (w.settleSwapOnClosedPosition settled userId row).2.getD 0 := by
  unfold settleSwapOnClosedPosition
  split_ifs
  · exact (sub_zero _).symm
  · split
    next => exact (sub_zero _).symm
    next acc _ =>
      split_ifs
      · exact (sub_zero _).symm
      · rfl
      · exact (sub_zero _).symm

/-- A settlement takes the swap of a closed row that the wallet can pay. -/
theorem settleSwapOnClosedPosition_total {row : PositionRow} (settled : Bool) {userId : UserId}
    (owner : row.userId = userId) (covered : row.accumulatedSwapUsd ≤ w.availableBalance) :
    (w.settleSwapOnClosedPosition settled userId (some row)).1.total =
      w.total - if settled ∨ row.status = .OPEN then 0 else row.accumulatedSwapUsd := by
  unfold settleSwapOnClosedPosition
  cases settled with
  | true =>
    rw [if_pos rfl, if_pos (.inl rfl), sub_zero]
  | false =>
    rw [if_neg Bool.false_ne_true, Option.bind_some, PositionRow.swapToSettle]
    by_cases isOpen : row.status = .OPEN
    · have notClosed : ¬ (row.userId = userId ∧ (row.status = .CLOSED ∨ row.status = .LIQUIDATED)) := by
        rw [isOpen]
        rintro ⟨-, closed | liquidated⟩
        · cases closed
        · cases liquidated
      rw [if_neg notClosed, if_pos (.inr isOpen), sub_zero]
    · have closed : row.status = .CLOSED ∨ row.status = .LIQUIDATED := by
        cases status : row.status with
        | OPEN => exact absurd status isOpen
        | CLOSED => exact .inl rfl
        | LIQUIDATED => exact .inr rfl
      rw [if_pos ⟨owner, closed⟩, if_neg fun either => either.elim Bool.false_ne_true isOpen]
      dsimp only
      split_ifs with zero
      · rw [zero, sub_zero]
      · unfold total
        ring

end Wallet

end TradingPlatform
