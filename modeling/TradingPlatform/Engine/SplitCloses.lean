import TradingPlatform.Engine.CloseScript
import Mathlib.Tactic.FieldSimp
import Mathlib.Tactic.Ring

namespace TradingPlatform

/-- Closes of one position in a row until it is not open any more: the reply of
each with the store that it left. -/
def closeUntilClosed (st : Store) : List CloseArgs → List (CloseResult × Store)
  | [] => []
  | args :: rest =>
    match atomicClosePosition st args with
    | .success after result =>
      if (after.hash args.positionId).bind (·.status) = some .OPEN then
        (result, after) :: closeUntilClosed after rest
      else [(result, after)]
    | .error _ _ => []
    | .raised _ => []

/-- The size that a store has for the position. -/
def Store.sizeOf (st : Store) (p : PositionId) : ℚ := ((st.hash p).bind (·.size)).getD 0

variable {st : Store} {h : PositionHash} {p : PositionId} {args : CloseArgs} {symbol : Symbol}
  {s : ℚ}

theorem Fill.pnlClose_add (side : Option PositionSide) (entry exit a b : ℚ) :
    Fill.pnlClose side entry exit (a + b) =
      Fill.pnlClose side entry exit a + Fill.pnlClose side entry exit b := by
  unfold Fill.pnlClose
  split_ifs <;> ring

theorem CloseArgs.actualCloseSize_whole (whole : args.closeSize = 0 ∨ s ≤ args.closeSize) :
    args.actualCloseSize s = s := if_pos whole

theorem CloseArgs.actualCloseSize_part (positive : 0 < args.closeSize) (part : args.closeSize < s) :
    args.actualCloseSize s = args.closeSize :=
  if_neg (not_or.mpr ⟨positive.ne', not_le.mpr part⟩)

/-- A close of as much as there is, or of 0, is a full one. -/
theorem CloseArgs.closes_whole (stored : st.hash args.positionId = some h)
    (isOpen : h.status = some .OPEN) (hasSymbol : h.symbol = some symbol)
    (whole : args.closeSize = 0 ∨ h.size.getD 0 ≤ args.closeSize) :
    ∃ after, atomicClosePosition st args = .success after (args.result h) ∧
      after.hash args.positionId = some (args.fullHash h) := by
  have actual : args.actualCloseSize (h.size.getD 0) = h.size.getD 0 :=
    CloseArgs.actualCloseSize_whole whole
  refine ⟨(st.hset args.positionId args.fullHash).unindex symbol args.positionId, ?_, ?_⟩
  · simp [atomicClosePosition, stored, isOpen, hasSymbol, actual]
  · rw [Store.hash_unindex, Store.hash_hset_self, stored]
    rfl

theorem CloseArgs.closes_part (stored : st.hash args.positionId = some h)
    (isOpen : h.status = some .OPEN) (positive : 0 < args.closeSize)
    (part : args.closeSize < h.size.getD 0) :
    ∃ after, atomicClosePosition st args = .success after (args.result h) ∧
      after.hash args.positionId = some (args.partialHash h) := by
  have actual : args.actualCloseSize (h.size.getD 0) = args.closeSize :=
    CloseArgs.actualCloseSize_part positive part
  refine ⟨st.hset args.positionId args.partialHash, ?_, ?_⟩
  · simp [atomicClosePosition, stored, isOpen, actual, not_lt.mpr part.le, not_le.mpr part]
  · rw [Store.hash_hset_self, stored]
    rfl

/-- Closed sizes, profits and released margins of some closes. -/
structure CloseTotals where
  closedSize : ℚ
  realizedPnl : ℚ
  marginFromCash : ℚ
  marginFromBonus : ℚ
  deriving DecidableEq, Repr

def closeTotals (replies : List CloseResult) : CloseTotals where
  closedSize := (replies.map (·.closedSize)).sum
  realizedPnl := (replies.map (·.realizedPnl)).sum
  marginFromCash := (replies.map (·.marginFromCash)).sum
  marginFromBonus := (replies.map (·.marginFromBonus)).sum

/-- What a full close at this price would report. -/
def PositionHash.wholeTotals (h : PositionHash) (exitPrice : ℚ) : CloseTotals where
  closedSize := h.size.getD 0
  realizedPnl := Fill.pnlClose h.side (h.entryPrice.getD 0) exitPrice (h.size.getD 0)
  marginFromCash := h.marginFromCash.getD 0
  marginFromBonus := h.marginFromBonus.getD 0

theorem CloseArgs.result_whole (sized : 0 < h.size.getD 0)
    (whole : args.closeSize = 0 ∨ h.size.getD 0 ≤ args.closeSize) :
    closeTotals [args.result h] = h.wholeTotals args.exitPrice := by
  have actual : args.actualCloseSize (h.size.getD 0) = h.size.getD 0 :=
    CloseArgs.actualCloseSize_whole whole
  have ratio : args.ratio (h.size.getD 0) = 1 := by
    rw [CloseArgs.ratio, if_pos sized, actual, div_self sized.ne']
  simp [closeTotals, CloseArgs.result, CloseArgs.pnl, PositionHash.wholeTotals, actual, ratio]

/-- What a part reports and what a full close of the rest would report make up
what a full close before would have reported. -/
theorem CloseArgs.result_part (positive : 0 < args.closeSize)
    (part : args.closeSize < h.size.getD 0) (rest : List CloseResult)
    (left : closeTotals rest = (args.partialHash h).wholeTotals args.exitPrice) :
    closeTotals (args.result h :: rest) = h.wholeTotals args.exitPrice := by
  have actual : args.actualCloseSize (h.size.getD 0) = args.closeSize :=
    CloseArgs.actualCloseSize_part positive part
  have split := Fill.pnlClose_add h.side (h.entryPrice.getD 0) args.exitPrice args.closeSize
    (h.size.getD 0 - args.closeSize)
  rw [add_sub_cancel] at split
  simp only [closeTotals, PositionHash.wholeTotals, CloseArgs.partialHash, CloseTotals.mk.injEq,
    Option.getD_some, actual] at left
  obtain ⟨size, pnl, cash, bonus⟩ := left
  simp only [closeTotals, PositionHash.wholeTotals, CloseArgs.result, CloseArgs.pnl,
    List.map_cons, List.sum_cons, CloseTotals.mk.injEq, actual]
  refine ⟨?_, ?_, ?_, ?_⟩
  · rw [size]
    ring
  · rw [pnl, split]
  · rw [cash]
    ring
  · rw [bonus]
    ring

/-- Splitting a close changes nothing in total: whatever the parts, the replies
add up to those of one full close, and until the last the position stays open
and gets smaller. -/
theorem closeUntilClosed_totals {x : ℚ} {calls : List CloseArgs} (stored : st.hash p = some h)
    (isOpen : h.status = some .OPEN) (hasSymbol : h.symbol = some symbol)
    (sized : 0 < h.size.getD 0)
    (ofPosition : ∀ args ∈ calls, args.positionId = p ∧ args.exitPrice = x ∧ 0 < args.closeSize)
    (enough : h.size.getD 0 ≤ (calls.map (·.closeSize)).sum) :
    closeTotals ((closeUntilClosed st calls).map (·.1)) = h.wholeTotals x ∧
    ∃ parts last after g closing, closeUntilClosed st calls = parts ++ [(last, after)] ∧
      calls[parts.length]? = some closing ∧ after.hash p = some g ∧ g.size = some 0 ∧
      g.status = some closing.fullCloseStatus ∧
      (∀ step ∈ parts, (step.2.hash p).bind (·.status) = some .OPEN) ∧
      List.IsChain (fun before after => 0 < after ∧ after < before)
        (h.size.getD 0 :: parts.map (·.2.sizeOf p)) := by
  induction calls generalizing st h with
  | nil => exact absurd (sized.trans_le enough) (lt_irrefl 0)
  | cons args rest ih =>
    obtain ⟨rfl, rfl, positive⟩ := ofPosition args (List.mem_cons_self ..)
    rcases le_or_gt (h.size.getD 0) args.closeSize with whole | part
    · obtain ⟨after, closed, left⟩ := CloseArgs.closes_whole stored isOpen hasSymbol (.inr whole)
      have shut : (after.hash args.positionId).bind (·.status) ≠ some .OPEN := by
        rw [left]
        change some args.fullCloseStatus ≠ some .OPEN
        unfold CloseArgs.fullCloseStatus
        split_ifs <;> simp
      have once : closeUntilClosed st (args :: rest) = [(args.result h, after)] := by
        simp only [closeUntilClosed, closed, if_neg shut]
      rw [once]
      refine ⟨CloseArgs.result_whole sized (.inr whole), [], args.result h, after, args.fullHash h,
        args, rfl, rfl, left, rfl, rfl, by simp, by simp⟩
    · obtain ⟨after, closed, left⟩ := CloseArgs.closes_part stored isOpen positive part
      have actual : args.actualCloseSize (h.size.getD 0) = args.closeSize :=
        CloseArgs.actualCloseSize_part positive part
      have still : (after.hash args.positionId).bind (·.status) = some .OPEN := by
        rw [left]
        exact isOpen
      have first : closeUntilClosed st (args :: rest) =
          (args.result h, after) :: closeUntilClosed after rest := by
        simp only [closeUntilClosed, closed, if_pos still]
      have remaining : (args.partialHash h).size.getD 0 = h.size.getD 0 - args.closeSize := by
        change h.size.getD 0 - args.actualCloseSize (h.size.getD 0) = _
        rw [actual]
      have more : 0 < (args.partialHash h).size.getD 0 := by
        rw [remaining]
        exact sub_pos.mpr part
      have covered : (args.partialHash h).size.getD 0 ≤ (rest.map (·.closeSize)).sum := by
        rw [remaining, sub_le_iff_le_add']
        simpa using enough
      obtain ⟨totals, parts, last, final, g, closing, steps, which, read, size, status, opens,
        chain⟩ := ih left isOpen hasSymbol more
          (fun other member => ofPosition other (List.mem_cons_of_mem _ member)) covered
      have sizeAfter : after.sizeOf args.positionId = (args.partialHash h).size.getD 0 := by
        rw [Store.sizeOf, left]
        rfl
      rw [first]
      refine ⟨?_, (args.result h, after) :: parts, last, final, g, closing, ?_, ?_, read, size,
        status, ?_, ?_⟩
      · rw [List.map_cons]
        exact CloseArgs.result_part positive part _ totals
      · rw [steps, List.cons_append]
      · simpa using which
      · intro step member
        rcases List.mem_cons.mp member with rfl | later
        · exact still
        · exact opens step later
      · rw [List.map_cons, sizeAfter]
        refine List.isChain_cons_cons.mpr ⟨⟨more, ?_⟩, chain⟩
        rw [remaining]
        exact sub_lt_self _ positive

/-- However a close is split, the replies add up to the size, to the profit of
one full close at the price, and to the margins that the hash had. Before the
last call the position is open with less than before, after it closed. -/
theorem split_closes_add_up {x : ℚ} {calls : List CloseArgs} {once : CloseArgs}
    (stored : st.hash p = some h) (isOpen : h.status = some .OPEN) (hasSymbol : h.symbol = some symbol)
    (hasSize : h.size = some s) (sized : 0 < s)
    (ofPosition : ∀ args ∈ calls, args.positionId = p ∧ args.exitPrice = x ∧ 0 < args.closeSize)
    (enough : s ≤ (calls.map (·.closeSize)).sum)
    (whole : once.positionId = p ∧ once.exitPrice = x ∧ once.closeSize = 0) :
    (∃ after reply, atomicClosePosition st once = .success after reply ∧
      ((closeUntilClosed st calls).map (·.1.realizedPnl)).sum = reply.realizedPnl) ∧
    ((closeUntilClosed st calls).map (·.1.closedSize)).sum = s ∧
    ((closeUntilClosed st calls).map (·.1.marginFromCash)).sum = h.marginFromCash.getD 0 ∧
    ((closeUntilClosed st calls).map (·.1.marginFromBonus)).sum = h.marginFromBonus.getD 0 ∧
    ∃ parts last after g closing, closeUntilClosed st calls = parts ++ [(last, after)] ∧
      calls[parts.length]? = some closing ∧ after.hash p = some g ∧ g.size = some 0 ∧
      g.status = some closing.fullCloseStatus ∧
      (∀ step ∈ parts, (step.2.hash p).bind (·.status) = some .OPEN) ∧
      List.IsChain (fun before after => 0 < after ∧ after < before)
        (s :: parts.map (·.2.sizeOf p)) := by
  have size : h.size.getD 0 = s := by rw [hasSize]; rfl
  obtain ⟨totals, shape⟩ := closeUntilClosed_totals stored isOpen hasSymbol (size ▸ sized) ofPosition
    (size ▸ enough)
  obtain ⟨rfl, rfl, zero⟩ := whole
  obtain ⟨after, closed, -⟩ := CloseArgs.closes_whole stored isOpen hasSymbol (.inl zero)
  have one : closeTotals [once.result h] = h.wholeTotals once.exitPrice :=
    CloseArgs.result_whole (size ▸ sized) (.inl zero)
  simp only [closeTotals, PositionHash.wholeTotals, CloseTotals.mk.injEq, List.map_map] at totals one
  simp only [List.map_cons, List.map_nil, List.sum_cons, List.sum_nil, add_zero] at one
  refine ⟨⟨after, once.result h, closed, ?_⟩, ?_, totals.2.2.1, totals.2.2.2, ?_⟩
  · rw [one.2.1]
    exact totals.2.1
  · rw [← size]
    exact totals.1
  · rw [← size]
    exact shape

/-- A long position of size 3, with the margin of an order of a bonus wallet. -/
def threeHash : PositionHash :=
  { symbol := some "EURUSD", side := some .LONG, size := some 3, entryPrice := some 10,
    status := some .OPEN, marginFromCash := some 2, marginFromBonus := some 1 }

def threeOpen : Store := Store.empty.hset (.uuid 1) fun _ => threeHash

/-- One, a half, and then more than is left, for liquidation. -/
def threeParts : List CloseArgs :=
  [⟨.uuid 1, 12, 1, 0, false⟩, ⟨.uuid 1, 12, 1 / 2, 0, false⟩, ⟨.uuid 1, 12, 7, 0, true⟩]

theorem split_closes_of_three :
    ((closeUntilClosed threeOpen threeParts).map (·.1.closedSize)).sum = 3 ∧
    ((closeUntilClosed threeOpen threeParts).map (·.1.marginFromCash)).sum = 2 ∧
    ((closeUntilClosed threeOpen threeParts).map (·.1.marginFromBonus)).sum = 1 := by
  have stored : threeOpen.hash (.uuid 1) = some threeHash := rfl
  have ofPosition : ∀ args ∈ threeParts,
      args.positionId = .uuid 1 ∧ args.exitPrice = 12 ∧ 0 < args.closeSize := by
    simp [threeParts]
  have enough : (3 : ℚ) ≤ (threeParts.map (·.closeSize)).sum := by norm_num [threeParts]
  have once : (CloseArgs.mk (.uuid 1) 12 0 0 false).positionId = .uuid 1 ∧
      (CloseArgs.mk (.uuid 1) 12 0 0 false).exitPrice = 12 ∧
      (CloseArgs.mk (.uuid 1) 12 0 0 false).closeSize = 0 := ⟨rfl, rfl, rfl⟩
  obtain ⟨-, size, cash, bonus, -⟩ :=
    split_closes_add_up stored rfl rfl rfl three_pos ofPosition enough once
  exact ⟨size, cash, bonus⟩

end TradingPlatform
