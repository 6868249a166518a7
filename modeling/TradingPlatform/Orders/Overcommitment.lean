import TradingPlatform.Library.StepRuns
import TradingPlatform.Orders.MarginDesk

namespace TradingPlatform

open StepRuns

/-- Cash and bonus together. -/
def Margins.amount : Margins →+ ℚ := AddMonoidHom.fst ℚ ℚ + AddMonoidHom.snd ℚ ℚ

theorem Margins.amount_apply (m : Margins) : amount m = m.1 + m.2 := rfl

theorem Margins.amount_mono {m n : Margins} (le : m ≤ n) : amount m ≤ amount n :=
  add_le_add le.1 le.2

namespace Wallet
variable {w after : Wallet} {m : Margins}

/-- The money that no lock holds. -/
def unlocked (w : Wallet) : ℚ := w.availableBalance + (w.bonusBalance - w.bonusLocked)

theorem total_eq_unlocked (w : Wallet) : w.total = w.unlocked + Margins.amount w.locks := by
  rw [Margins.amount_apply, total, unlocked, locks]
  ring

theorem chargePlacementFee_locks {feeUsd : ℚ} (charged : w.chargePlacementFee feeUsd = some after) :
    after.locks = w.locks := by
  unfold chargePlacementFee at charged
  split_ifs at charged <;> cases charged <;> rfl

theorem debitSwap_locks (w : Wallet) (swapUsd : ℚ) : (w.debitSwap swapUsd).locks = w.locks := by
  unfold debitSwap
  split_ifs <;> rfl

theorem settleClose_locks {close : MarkedPosition} (nonneg : 0 ≤ close.margins)
    (covered : close.margins ≤ w.locks) : (w.settleClose close).locks = w.locks - close.margins := by
  obtain ⟨released, bonusAbsorb, applied, locks, _⟩ :=
    w.releaseAndApplyPnl_first close.pnlUsd nonneg covered
  rw [settleClose, applied]
  exact (released.debitSwap_locks close.swapUsd).trans locks

theorem placeOrder_locks {requiredMargin feeUsd : ℚ}
    (placed : w.placeOrder requiredMargin feeUsd = some (after, m)) :
    after.locks = w.locks + m ∧ 0 ≤ m ∧ m.1 + m.2 = requiredMargin := by
  obtain ⟨⟨locked, m'⟩, lock, rest⟩ := Option.bind_eq_some_iff.mp placed
  obtain ⟨charged, fee, same⟩ := Option.map_eq_some_iff.mp rest
  cases same
  obtain ⟨locks, nonneg⟩ := lockMargin_locks lock
  exact ⟨(chargePlacementFee_locks fee).trans locks, nonneg, lockMargin_sum lock⟩

end Wallet

/-- The equity covered the margin of the open positions, the margin that the
pending orders reserve with the new one, and its fee. -/
def CommittedPlacement.Within (c : CommittedPlacement) : Prop :=
  c.openMargin + (c.reserved + c.requiredMargin) + c.feeUsd ≤ c.equity

namespace MarginDesk
variable {s after : MarginDesk} {p : PositionId} {o : OrderId} {m : Margins}
  {position close : Option MarkedPosition}

def heldBy (position : Option MarkedPosition) : Margins := position.elim 0 (·.margins)

def orderMargins (s : MarginDesk) : Margins := FiniteTable.total (fun _ r => r.margins) s.orders

def positionMargins (s : MarginDesk) : Margins :=
  FiniteTable.total (fun _ position => position.margins) s.positions

/-- The margins of closes that are not settled and of cancelled orders. -/
def releasing (s : MarginDesk) : Margins := (s.closes.map (·.margins)).sum + s.cancels.sum

/-- The losses of the open positions and their margin beyond what is locked for
them. -/
def excess (s : MarginDesk) : ℚ :=
  hedgedMargin s.positions - Margins.amount s.positionMargins - openPnl s.positions

/-- The money that is not locked, or is about to be released, covers the order
and the excess of the open positions. -/
def Covers (s : MarginDesk) (request : PlacementRequest) : Prop :=
  request.requiredMargin + request.feeUsd + s.excess ≤
    s.wallet.unlocked + Margins.amount s.releasing

/-- A script leaves no more margins in the position and the close than it took
from the position and the order. -/
structure Conserves (s : MarginDesk) (p : PositionId) (m : Margins)
    (position close : Option MarkedPosition) : Prop where
  position_nonneg : 0 ≤ heldBy position
  close_nonneg : 0 ≤ heldBy close
  le : heldBy position + heldBy close ≤
    FiniteTable.share (fun _ position => position.margins) s.positions p + m

/-- The scripts of the engine create no margins, and a placement commits only
when the account covers it. -/
def Provident (s : MarginDesk) : MarginDeskAction → Prop
  | .fill o p position close =>
    s.Conserves p ((s.orders.lookup o).elim 0 (·.margins)) position close
  | .move p position close => s.Conserves p 0 position close
  | .commit o => ∀ request ∈ s.requests.lookup o, s.Covers request
  | _ => True

section Decidable

instance (request : PlacementRequest) : Decidable (s.Covers request) :=
  inferInstanceAs (Decidable (_ ≤ _))

instance : Decidable (s.Conserves p m position close) :=
  decidable_of_iff (0 ≤ heldBy position ∧ 0 ≤ heldBy close ∧ heldBy position + heldBy close ≤
    FiniteTable.share (fun _ position => position.margins) s.positions p + m)
    ⟨fun ⟨a, b, c⟩ => ⟨a, b, c⟩, fun ⟨a, b, c⟩ => ⟨a, b, c⟩⟩

instance (s : MarginDesk) : DecidablePred s.Provident
  | .fill _ _ _ _ => inferInstanceAs (Decidable (s.Conserves _ _ _ _))
  | .move _ _ _ => inferInstanceAs (Decidable (s.Conserves _ _ _ _))
  | .commit o => inferInstanceAs (Decidable (∀ request ∈ s.requests.lookup o, s.Covers request))
  | .submit _ _ _ => .isTrue trivial
  | .readFreeMargin _ => .isTrue trivial
  | .query _ => .isTrue trivial
  | .readAggregates _ => .isTrue trivial
  | .fail _ => .isTrue trivial
  | .summary => .isTrue trivial
  | .settle _ => .isTrue trivial
  | .cancel _ => .isTrue trivial
  | .rollback _ => .isTrue trivial
  | .mirror _ => .isTrue trivial

end Decidable

/-- The locks of the wallet hold the margins of everything that was locked for. -/
structure Backed (s : MarginDesk) : Prop where
  locks : s.orderMargins + s.positionMargins + s.releasing ≤ s.wallet.locks
  orders : ∀ o order, s.orders.lookup o = some order →
    0 ≤ order.margins ∧ order.margins.1 + order.margins.2 = order.requiredMargin
  positions : ∀ p position, s.positions.lookup p = some position → 0 ≤ position.margins
  closes : ∀ close ∈ s.closes, 0 ≤ close.margins
  cancels : ∀ m ∈ s.cancels, 0 ≤ m
  within : ∀ c ∈ s.placements, c.Within

theorem backed_opened (availableBalance bonusBalance deposits withdrawals : ℚ)
    (nonneg : 0 ≤ bonusBalance) :
    (opened availableBalance bonusBalance deposits withdrawals nonneg).Backed where
  locks := by
    simp [orderMargins, positionMargins, releasing, opened, Wallet.locks, Prod.mk_zero_zero]
  orders _ _ stored := nomatch stored
  positions _ _ stored := nomatch stored
  closes _ member := nomatch member
  cancels _ member := nomatch member
  within _ member := nomatch member

/-- The pending orders reserve what their locks took. -/
theorem Backed.reserved_eq (backed : s.Backed) : s.reserved = Margins.amount s.orderMargins := by
  rw [orderMargins, FiniteTable.map_total]
  exact FiniteTable.total_congr fun o order stored => (backed.orders o order stored).2.symm

theorem Backed.within_of_covers (backed : s.Backed) {request : PlacementRequest}
    (covers : s.Covers request) :
    hedgedMargin s.positions + (s.reserved + request.requiredMargin) + request.feeUsd ≤
      s.equity := by
  have locked := Margins.amount_mono backed.locks
  simp only [map_add] at locked
  unfold Covers excess at covers
  rw [equity, Wallet.total_eq_unlocked, backed.reserved_eq]
  linarith

theorem Backed.orderMargins_nonneg (backed : s.Backed) : 0 ≤ s.orderMargins :=
  FiniteTable.total_nonneg fun o order stored => (backed.orders o order stored).1

theorem Backed.positionMargins_nonneg (backed : s.Backed) : 0 ≤ s.positionMargins :=
  FiniteTable.total_nonneg backed.positions

theorem Backed.closes_nonneg (backed : s.Backed) : 0 ≤ (s.closes.map (·.margins)).sum :=
  List.sum_nonneg fun _ member => by
    obtain ⟨close, inCloses, rfl⟩ := List.mem_map.mp member
    exact backed.closes close inCloses

theorem Backed.cancels_nonneg (backed : s.Backed) : 0 ≤ s.cancels.sum :=
  List.sum_nonneg backed.cancels

theorem Backed.releasing_le (backed : s.Backed) : s.releasing ≤ s.wallet.locks :=
  (le_add_of_nonneg_left (add_nonneg backed.orderMargins_nonneg backed.positionMargins_nonneg)).trans
    backed.locks

/-- Nothing changes but the calls, the summary and the mirrored rows. -/
theorem Backed.elsewhere (backed : s.Backed) (wallet : after.wallet = s.wallet)
    (orders : after.orders = s.orders) (positions : after.positions = s.positions)
    (closes : after.closes = s.closes) (cancels : after.cancels = s.cancels)
    (placements : after.placements = s.placements) : after.Backed := by
  obtain ⟨_, _, _, _, _⟩ := after
  subst wallet orders positions closes cancels placements
  exact ⟨backed.locks, backed.orders, backed.positions, backed.closes, backed.cancels,
    backed.within⟩

theorem Backed.drop (backed : s.Backed) (o : OrderId) : (s.drop o).Backed :=
  backed.elsewhere rfl rfl rfl rfl rfl rfl

theorem Backed.setStage (backed : s.Backed) (o : OrderId) (request : PlacementRequest)
    (stage : PlacementStage) : (s.setStage o request stage).Backed :=
  backed.elsewhere rfl rfl rfl rfl rfl rfl

theorem Backed.compare (backed : s.Backed) (o : OrderId) (request : PlacementRequest)
    (freeMargin : ℚ) : (s.compare o request freeMargin).Backed := by
  unfold MarginDesk.compare
  split_ifs
  · exact backed.drop o
  · exact backed.setStage o request _

theorem Backed.summaryStep (backed : s.Backed) : s.summaryStep.Backed := by
  unfold MarginDesk.summaryStep
  split <;> exact backed.elsewhere rfl rfl rfl rfl rfl rfl

theorem Backed.commit (backed : s.Backed) {request : PlacementRequest}
    (covers : s.Covers request) (fresh : s.orders.lookup o = none) :
    (s.commit o request).Backed := by
  unfold MarginDesk.commit
  split
  next wallet m placed =>
    obtain ⟨locks, nonneg, sum⟩ := Wallet.placeOrder_locks placed
    refine ⟨?_, ?_, backed.positions, backed.closes, backed.cancels, ?_⟩
    · change FiniteTable.total _ (s.orders.insert o _) + s.positionMargins + s.releasing ≤ wallet.locks
      rw [FiniteTable.total_insert, FiniteTable.share_none fresh, sub_zero, locks]
      calc s.orderMargins + m + s.positionMargins + s.releasing
          = s.orderMargins + s.positionMargins + s.releasing + m := by abel
        _ ≤ s.wallet.locks + m := by gcongr; exact backed.locks
    · intro r order stored
      by_cases same : r = o
      · subst same
        rw [AList.lookup_insert] at stored
        cases stored
        exact ⟨nonneg, sum⟩
      · rw [AList.lookup_insert_ne same] at stored
        exact backed.orders r order stored
    · intro c member
      rcases List.mem_append.mp member with before | now
      · exact backed.within c before
      · rw [List.mem_singleton.mp now]
        exact backed.within_of_covers covers
  next => exact backed.drop o

/-- An order leaves the book and its margins are for something else. -/
theorem Backed.takes (backed : s.Backed) {order : ReservedOrder}
    (stored : s.orders.lookup o = some order) :
    { s with orders := s.orders.erase o }.Backed ∧
      FiniteTable.total (fun _ r => r.margins) (s.orders.erase o) + s.positionMargins + s.releasing +
        order.margins ≤ s.wallet.locks := by
  have nonneg := (backed.orders o order stored).1
  have room : FiniteTable.total (fun _ r => r.margins) (s.orders.erase o) + s.positionMargins +
      s.releasing + order.margins ≤ s.wallet.locks := by
    rw [FiniteTable.total_erase, FiniteTable.share_some stored]
    calc s.orderMargins - order.margins + s.positionMargins + s.releasing + order.margins
        = s.orderMargins + s.positionMargins + s.releasing := by abel
      _ ≤ s.wallet.locks := backed.locks
  refine ⟨⟨(le_add_of_nonneg_right nonneg).trans room, fun r order stored => ?_, backed.positions,
    backed.closes, backed.cancels, backed.within⟩, room⟩
  by_cases same : r = o
  · subst same
    rw [AList.lookup_erase] at stored
    cases stored
  · rw [AList.lookup_erase_ne same] at stored
    exact backed.orders r order stored

/-- A script of the engine that creates no margins. -/
theorem Backed.written (backed : s.Backed)
    (room : s.orderMargins + s.positionMargins + s.releasing + m ≤ s.wallet.locks)
    (conserves : s.Conserves p m position close) : (s.written p position close).Backed := by
  have positions : (s.written p position close).positionMargins = s.positionMargins -
      FiniteTable.share (fun _ position => position.margins) s.positions p + heldBy position := by
    cases position with
    | none =>
      exact (FiniteTable.total_erase _ _ _).trans (add_zero _).symm
    | some position => exact FiniteTable.total_insert _ _ _ _
  have releases : (s.written p position close).releasing = s.releasing + heldBy close := by
    unfold releasing MarginDesk.written
    cases close with
    | none => simp [heldBy]
    | some close =>
      simp only [Option.toList, List.map_append, List.map_cons, List.map_nil, List.sum_append,
        List.sum_cons, List.sum_nil, heldBy, Option.elim_some]
      abel
  constructor
  · rw [positions, releases]
    calc s.orderMargins + (s.positionMargins -
          FiniteTable.share (fun _ position => position.margins) s.positions p +
            heldBy position) + (s.releasing + heldBy close)
        = s.orderMargins + s.positionMargins + s.releasing -
          FiniteTable.share (fun _ position => position.margins) s.positions p +
            (heldBy position + heldBy close) := by abel
      _ ≤ s.orderMargins + s.positionMargins + s.releasing -
          FiniteTable.share (fun _ position => position.margins) s.positions p +
            (FiniteTable.share (fun _ position => position.margins) s.positions p + m) :=
        add_le_add le_rfl conserves.le
      _ = s.orderMargins + s.positionMargins + s.releasing + m := by abel
      _ ≤ s.wallet.locks := room
  · exact backed.orders
  · intro q stored' stored
    by_cases same : q = p
    · subst same
      cases position with
      | none =>
        have erased : (s.positions.erase q).lookup q = some stored' := stored
        rw [AList.lookup_erase] at erased
        cases erased
      | some position =>
        have inserted : (s.positions.insert q position).lookup q = some stored' := stored
        rw [AList.lookup_insert] at inserted
        cases inserted
        exact conserves.position_nonneg
    · cases position with
      | none =>
        have erased : (s.positions.erase p).lookup q = some stored' := stored
        rw [AList.lookup_erase_ne same] at erased
        exact backed.positions q stored' erased
      | some position =>
        have inserted : (s.positions.insert p position).lookup q = some stored' := stored
        rw [AList.lookup_insert_ne same] at inserted
        exact backed.positions q stored' inserted
  · intro closed member
    rcases List.mem_append.mp member with before | now
    · exact backed.closes closed before
    · rw [Option.mem_toList.mp now] at conserves
      exact conserves.close_nonneg
  · exact backed.cancels
  · exact backed.within

/-- A close is settled and its margins are released. -/
theorem Backed.settle (backed : s.Backed) {i : ℕ} {close : MarkedPosition}
    (member : s.closes[i]? = some close) :
    { s with wallet := s.wallet.settleClose close, closes := s.closes.eraseIdx i }.Backed := by
  have inCloses : close ∈ s.closes := List.mem_of_getElem? member
  have split : (s.closes.map (·.margins)).sum =
      close.margins + ((s.closes.eraseIdx i).map (·.margins)).sum := by
    rw [((List.getElem_cons_eraseIdx_perm (List.getElem?_eq_some_iff.mp member).1).map
      (·.margins)).sum_eq.symm, (List.getElem?_eq_some_iff.mp member).2, List.map_cons,
      List.sum_cons]
  have rest : ∀ other ∈ s.closes.eraseIdx i, 0 ≤ other.margins := fun other inRest =>
    backed.closes other (List.mem_of_mem_eraseIdx inRest)
  have covered : close.margins ≤ s.wallet.locks := by
    refine le_trans ?_ backed.releasing_le
    rw [releasing, split]
    have sum : 0 ≤ ((s.closes.eraseIdx i).map (·.margins)).sum := List.sum_nonneg fun _ held => by
      obtain ⟨other, inRest, rfl⟩ := List.mem_map.mp held
      exact rest other inRest
    exact (le_add_of_nonneg_right sum).trans (le_add_of_nonneg_right backed.cancels_nonneg)
  refine ⟨?_, backed.orders, backed.positions, rest, backed.cancels, backed.within⟩
  have locks := backed.locks
  rw [releasing, split] at locks
  change s.orderMargins + s.positionMargins +
    (((s.closes.eraseIdx i).map (·.margins)).sum + s.cancels.sum) ≤ (s.wallet.settleClose close).locks
  rw [Wallet.settleClose_locks (backed.closes close inCloses) covered]
  apply le_sub_iff_add_le.mpr
  calc s.orderMargins + s.positionMargins +
        (((s.closes.eraseIdx i).map (·.margins)).sum + s.cancels.sum) + close.margins
      = s.orderMargins + s.positionMargins +
        (close.margins + ((s.closes.eraseIdx i).map (·.margins)).sum + s.cancels.sum) := by abel
    _ ≤ s.wallet.locks := locks

/-- The lock of a cancelled order is rolled back. -/
theorem Backed.rollback (backed : s.Backed) {i : ℕ} (member : s.cancels[i]? = some m) :
    { s with
      wallet := (s.wallet.rollbackOrderMarginLock m).getD s.wallet
      cancels := s.cancels.eraseIdx i }.Backed := by
  have split : s.cancels.sum = m + (s.cancels.eraseIdx i).sum := by
    rw [(List.getElem_cons_eraseIdx_perm (List.getElem?_eq_some_iff.mp member).1).sum_eq.symm,
      (List.getElem?_eq_some_iff.mp member).2, List.sum_cons]
  have rest : ∀ other ∈ s.cancels.eraseIdx i, 0 ≤ other := fun other inRest =>
    backed.cancels other (List.mem_of_mem_eraseIdx inRest)
  have nonneg : 0 ≤ m := backed.cancels m (List.mem_of_getElem? member)
  have covered : m ≤ s.wallet.locks := by
    refine le_trans ?_ backed.releasing_le
    rw [releasing, split]
    exact (le_add_of_nonneg_right (List.sum_nonneg rest)).trans
      (le_add_of_nonneg_left backed.closes_nonneg)
  obtain ⟨wallet, unlocked, released⟩ := Wallet.rollbackOrderMarginLock_locks nonneg covered
  rw [unlocked, Option.getD_some]
  refine ⟨?_, backed.orders, backed.positions, backed.closes, rest, backed.within⟩
  have locks := backed.locks
  rw [releasing, split] at locks
  change s.orderMargins + s.positionMargins +
    ((s.closes.map (·.margins)).sum + (s.cancels.eraseIdx i).sum) ≤ wallet.locks
  rw [released]
  apply le_sub_iff_add_le.mpr
  calc s.orderMargins + s.positionMargins +
        ((s.closes.map (·.margins)).sum + (s.cancels.eraseIdx i).sum) + m
      = s.orderMargins + s.positionMargins +
        ((s.closes.map (·.margins)).sum + (m + (s.cancels.eraseIdx i).sum)) := by abel
    _ ≤ s.wallet.locks := locks

theorem Backed.cancel (backed : s.Backed) {order : ReservedOrder}
    (stored : s.orders.lookup o = some order) :
    { s with orders := s.orders.erase o, cancels := s.cancels ++ [order.margins] }.Backed := by
  obtain ⟨taken, room⟩ := backed.takes stored
  refine ⟨?_, taken.orders, backed.positions, backed.closes, fun m member => ?_, backed.within⟩
  · change FiniteTable.total (fun _ r => r.margins) (s.orders.erase o) + s.positionMargins +
      ((s.closes.map (·.margins)).sum + (s.cancels ++ [order.margins]).sum) ≤ s.wallet.locks
    rw [List.sum_append, List.sum_singleton, ← add_assoc (s.closes.map (·.margins)).sum,
      ← add_assoc]
    exact room
  · rcases List.mem_append.mp member with before | now
    · exact backed.cancels m before
    · rw [List.mem_singleton.mp now]
      exact (backed.orders o order stored).1

theorem Backed.step (backed : s.Backed) {action : MarginDeskAction}
    (provident : s.Provident action) (taken : s.step action = some after) : after.Backed := by
  cases action with
  | submit o requiredMargin feeUsd =>
    simp only [MarginDesk.step] at taken
    split_ifs at taken
    cases taken
    exact backed.elsewhere rfl rfl rfl rfl rfl rfl
  | readFreeMargin o =>
    simp only [MarginDesk.step] at taken
    split at taken
    next request _ =>
      split_ifs at taken
      split at taken
      next freeMargin _ =>
        cases taken
        exact backed.compare o request freeMargin
      next =>
        cases taken
        exact backed.setStage o request _
    next => cases taken
  | query o =>
    simp only [MarginDesk.step] at taken
    split at taken
    next request _ =>
      split at taken
      next =>
        cases taken
        exact backed.setStage o request _
      next => cases taken
    next => cases taken
  | readAggregates o =>
    simp only [MarginDesk.step] at taken
    split at taken
    next request _ =>
      split at taken
      next =>
        cases taken
        exact backed.compare o request _
      next => cases taken
    next => cases taken
  | commit o =>
    simp only [MarginDesk.step] at taken
    split at taken
    next request stored =>
      split at taken
      next =>
        split_ifs at taken with fresh
        cases taken
        exact backed.commit (provident request stored) fresh
      next => cases taken
    next => cases taken
  | fail o =>
    cases taken
    exact backed.drop o
  | summary =>
    cases taken
    exact backed.summaryStep
  | fill o p position close =>
    simp only [MarginDesk.step] at taken
    split at taken
    next order stored =>
      cases taken
      obtain ⟨rest, room⟩ := backed.takes stored
      have conserves : s.Conserves p ((s.orders.lookup o).elim 0 (·.margins)) position close :=
        provident
      rw [stored] at conserves
      exact rest.written room ⟨conserves.position_nonneg, conserves.close_nonneg, conserves.le⟩
    next => cases taken
  | move p position close =>
    simp only [MarginDesk.step] at taken
    split at taken
    next =>
      cases taken
      exact backed.written ((add_zero _).trans_le backed.locks) provident
    next => cases taken
  | settle i =>
    simp only [MarginDesk.step] at taken
    split at taken
    next close member =>
      cases taken
      exact backed.settle member
    next => cases taken
  | cancel o =>
    simp only [MarginDesk.step] at taken
    split at taken
    next order stored =>
      cases taken
      exact backed.cancel stored
    next => cases taken
  | rollback i =>
    simp only [MarginDesk.step] at taken
    split at taken
    next m member =>
      cases taken
      exact backed.rollback member
    next => cases taken
  | mirror sums =>
    cases taken
    exact backed.elsewhere rfl rfl rfl rfl rfl rfl

section Runs

/-- A thousand in cash. -/
def funded : MarginDesk := opened 1000 0 1000 0 nothingLocked

/-- One run of the summary. -/
def summaryRun : List MarginDeskAction := List.replicate 5 .summary

def placement (o : OrderId) (requiredMargin : ℚ) : List MarginDeskAction :=
  [.submit o requiredMargin 0, .readFreeMargin o, .commit o]

/-- An order is filled, its position loses 500 and the summary is cached. -/
def losingPosition : List MarginDeskAction :=
  summaryRun ++ placement 1 100 ++
    [.fill 1 (.uuid 1) (some ⟨100, 0, 0, (100, 0)⟩) none,
      .move (.uuid 1) (some ⟨100, -500, 0, (100, 0)⟩) none] ++ summaryRun

end Runs

end MarginDesk

end TradingPlatform
