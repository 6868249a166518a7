import Mathlib.Algebra.BigOperators.Group.Finset.Piecewise
import Mathlib.Algebra.Order.Ring.Abs
import TradingPlatform.Orders.OrderEffects

namespace TradingPlatform

/-- What a position counts for the exposure on a symbol. -/
def PositionHash.exposure (s : Symbol) (h : PositionHash) : ℚ :=
  if h.IsOpenOn s then |h.size.getD 0| else 0

def Store.exposureOf (st : Store) (s : Symbol) (p : PositionId) : ℚ :=
  (st.hash p).elim 0 (·.exposure s)

/-- The total absolute size of a user's open positions on a symbol. -/
def Store.exposure (st : Store) (u : UserId) (s : Symbol) : ℚ :=
  ∑ p ∈ st.userPositions u, st.exposureOf s p

/-- A fill opened no position, flipped none and did not add to the exposure. -/
structure NoExposure (before after : Store) (u : UserId) (s : Symbol) (result : FillResult) : Prop where
  notCreated : result.fillAction ≠ .created
  notFlipped : result.fillAction ≠ .flipped
  total : after.exposure u s ≤ before.exposure u s

section Exposure
variable {before after : Store} {u : UserId} {s : Symbol} {p : PositionId} {h g : PositionHash}

theorem exposure_add (listed : p ∈ before.userPositions u) : before.exposure u s =
    before.exposureOf s p + ∑ q ∈ (before.userPositions u).erase p, before.exposureOf s q :=
  (Finset.add_sum_erase _ _ listed).symm

/-- A step that writes one listed position changes the exposure by what that
position counts. -/
theorem exposure_write (listed : p ∈ before.userPositions u)
    (users : after.userPositions u = before.userPositions u)
    (others : ∀ q, q ≠ p → after.hash q = before.hash q) :
    after.exposure u s + before.exposureOf s p = before.exposure u s + after.exposureOf s p := by
  rw [exposure_add (users ▸ listed), exposure_add listed, users]
  have rest : ∑ q ∈ (before.userPositions u).erase p, after.exposureOf s q =
      ∑ q ∈ (before.userPositions u).erase p, before.exposureOf s q := by
    refine Finset.sum_congr rfl fun q other => ?_
    unfold Store.exposureOf
    rw [others q (Finset.ne_of_mem_erase other)]
  rw [rest]
  ring

theorem exposureOf_open (stored : before.hash p = some h) (isOpen : h.IsOpenOn s) :
    before.exposureOf s p = |h.size.getD 0| := by
  unfold Store.exposureOf PositionHash.exposure
  rw [stored, Option.elim_some, if_pos isOpen]

theorem exposureOf_nonneg : 0 ≤ before.exposureOf s p := by
  unfold Store.exposureOf PositionHash.exposure
  cases before.hash p with
  | none => exact le_rfl
  | some h =>
    rw [Option.elim_some]
    split_ifs
    · exact abs_nonneg _
    · exact le_rfl

/-- Taking a position out of the set takes off what it counted. -/
theorem exposure_erase (users : after.userPositions u = (before.userPositions u).erase p)
    (others : ∀ q, q ≠ p → after.hash q = before.hash q) :
    after.exposure u s ≤ before.exposure u s := by
  have same : after.exposure u s = ∑ q ∈ (before.userPositions u).erase p, before.exposureOf s q := by
    unfold Store.exposure
    rw [users]
    refine Finset.sum_congr rfl fun q other => ?_
    unfold Store.exposureOf
    rw [others q (Finset.ne_of_mem_erase other)]
  rw [same]
  exact Finset.sum_le_sum_of_subset_of_nonneg (Finset.erase_subset ..)
    fun q _ _ => exposureOf_nonneg

end Exposure

namespace Fill
variable {st after : Store} {fill : Fill} {p : PositionId} {h : PositionHash} {result : FillResult}

theorem addTo_exposure (merged : addTo st fill p h = .ok (after, result))
    (stored : st.hash p = some h) (isOpen : h.IsOpenOn fill.order.symbol)
    (sized : 0 ≤ h.size.getD 0) (positive : 0 < fill.fillSize)
    (listed : p ∈ st.userPositions fill.order.userId) :
    st.exposure fill.order.userId fill.order.symbol <
      after.exposure fill.order.userId fill.order.symbol := by
  have frame := addTo_sameButIndex st fill p h
  rw [merged] at frame
  have written : after.hash p =
      some (fill.mergeHash (h.size.getD 0) (h.entryPrice.getD 0) h.leverage h) := by
    have read := frame.hash_eq p
    rw [Fill.merged, Store.hash_hset_self, stored] at read
    exact read
  have others : ∀ q, q ≠ p → after.hash q = st.hash q := by
    intro q differ
    have read := frame.hash_eq q
    rw [Fill.merged, Store.hash_hset_ne _ _ _ _ differ] at read
    exact read
  have users : after.userPositions fill.order.userId = st.userPositions fill.order.userId := by
    have same : (storeLeft Prod.fst (Except.ok (after, result) : Except Store (Store × FillResult))) =
      after := rfl
    rw [same] at frame
    rw [frame]
    rfl
  have change := exposure_write (s := fill.order.symbol) listed users others
  have mergedOpen : (fill.mergeHash (h.size.getD 0) (h.entryPrice.getD 0) h.leverage h).IsOpenOn
    fill.order.symbol := isOpen
  rw [exposureOf_open stored isOpen, exposureOf_open written mergedOpen] at change
  have grown : |h.size.getD 0| <
      |(fill.mergeHash (h.size.getD 0) (h.entryPrice.getD 0) h.leverage h).size.getD 0| := by
    change |h.size.getD 0| < |h.size.getD 0 + fill.fillSize|
    rw [abs_of_nonneg sized, abs_of_pos (by linarith)]
    linarith
  linarith

/-- Netting against a position keeps to it exactly when it is large enough. -/
theorem netAgainst_noExposure_iff (netted : netAgainst st fill p h = .ok (after, result))
    (stored : st.hash p = some h) (isOpen : h.IsOpenOn fill.order.symbol)
    (positive : 0 < fill.fillSize) (listed : p ∈ st.userPositions fill.order.userId) :
    NoExposure st after fill.order.userId fill.order.symbol result ↔
      fill.fillSize ≤ h.size.getD 0 := by
  unfold netAgainst at netted
  dsimp only at netted
  split_ifs at netted with remains exact
  · cases netted
    have enough : fill.fillSize ≤ h.size.getD 0 := (sub_pos.mp remains).le
    refine iff_of_true ⟨(fun same => nomatch same), (fun same => nomatch same), ?_⟩ enough
    generalize h.realizedPnl.getD 0 + _ = newRealized
    generalize fill.posLevOrFill h.leverage .absent = posLeverage
    generalize reduced : fill.reducedHash (h.size.getD 0 - fill.fillSize) (h.entryPrice.getD 0)
      posLeverage newRealized = write
    have left : (write h).size = some (h.size.getD 0 - fill.fillSize) := by
      rw [← reduced]
      rfl
    have stillOpen : (write h).IsOpenOn fill.order.symbol := by
      rw [← reduced]
      exact isOpen
    generalize wrote : (st.hset p write).zadd .posOpen fill.order.symbol p (h.entryPrice.getD 0) = after
    have written : after.hash p = some (write h) := by
      rw [← wrote, Store.hash_zadd, Store.hash_hset_self, stored, Option.getD_some]
    have others : ∀ q, q ≠ p → after.hash q = st.hash q := by
      intro q differ
      rw [← wrote, Store.hash_zadd, Store.hash_hset_ne _ _ _ _ differ]
    have users : after.userPositions fill.order.userId = st.userPositions fill.order.userId := by
      rw [← wrote]
      rfl
    have change := exposure_write (s := fill.order.symbol) listed users others
    rw [exposureOf_open stored isOpen, exposureOf_open written stillOpen, left, Option.getD_some] at change
    have shrunk : |h.size.getD 0 - fill.fillSize| ≤ |h.size.getD 0| := by
      rw [abs_of_pos remains, abs_of_pos (by linarith)]
      linarith
    linarith
  · cases netted
    refine iff_of_true ⟨(fun same => nomatch same), (fun same => nomatch same), exposure_erase (p := p) ?_ ?_⟩
      (sub_eq_zero.mp exact).ge
    · exact Function.update_self ..
    · intro q differ
      rw [closeNetted, Store.hash_unindex, Store.hash_srem, Store.hash_hset_ne _ _ _ _ differ]
  · split at netted
    next => cases netted
    next =>
      cases netted
      refine iff_of_false (fun none => none.notFlipped rfl) fun enough => ?_
      exact exact (le_antisymm (not_lt.mp remains) (sub_nonneg.mpr enough))

end Fill

/-- A successful fill opens no position, flips none and adds nothing to the
user's exposure exactly when it takes from an opposite position. -/
theorem atomicFillOrder_noExposure_iff {st after : Store} {args : FillArgs} {existing old : List PositionId}
    {result : FillResult} {order : Order} (hashes : st.HashesOnly)
    (sized : ∀ p, ∀ h ∈ st.hash p, 0 ≤ h.size.getD 0) (positive : 0 < args.fillSize)
    (stored : st.orders args.orderId = some order)
    (listed : ∀ p ∈ existing, p ∈ st.userPositions order.userId)
    (filled : atomicFillOrder st args existing old = .success after result) :
    NoExposure st after order.userId order.symbol result ↔
      (order.target st existing).Reduces args.fillSize := by
  obtain ⟨other, el, accepted, applied⟩ := atomicFillOrder_success filled
  cases Option.some.inj (stored.symm.trans accepted.stored)
  have target : (Fill.ofArgs args order el accepted.leverage_pos).order.target
    (st.markFilled args order) existing = order.target st existing := rfl
  have same (final : Store) : NoExposure (st.markFilled args order) final order.userId order.symbol
    result ↔ NoExposure st final order.userId order.symbol result := ⟨fun none =>
      ⟨none.notCreated, none.notFlipped, none.total⟩, fun none =>
      ⟨none.notCreated, none.notFlipped, none.total⟩⟩
  have marked : (st.markFilled args order).HashesOnly := hashes
  rw [Fill.applyToPositions_eq marked, target] at applied
  cases found : order.target st existing with
  | merge p h =>
    obtain ⟨isListed, isStored, isOpen, _⟩ := Order.target_merge found
    simp only [found] at applied
    refine iff_of_false (fun none => ?_) id
    have grows := Fill.addTo_exposure applied isStored isOpen (sized p h isStored) positive
      (listed p isListed)
    exact absurd none.total (not_le.mpr grows)
  | net p h =>
    obtain ⟨isListed, isStored, isOpen, _⟩ := Order.target_net found
    simp only [found] at applied
    exact (same after).symm.trans
      (Fill.netAgainst_noExposure_iff applied isStored isOpen positive (listed p isListed))
  | fresh =>
    simp only [found] at applied
    refine iff_of_false (fun none => ?_) id
    unfold Fill.create at applied
    split at applied
    next => cases applied
    next =>
      cases applied
      exact none.notCreated rfl

end TradingPlatform
