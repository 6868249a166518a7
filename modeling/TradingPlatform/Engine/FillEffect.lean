import TradingPlatform.Engine.HashWrites

namespace TradingPlatform

/-- The fill closed the position, in part or as a whole. -/
def FillResult.Closes (result : FillResult) (p : PositionId) : Prop :=
  result.closedPositionId = some p ∨
    result.fillAction = .reduced ∧ result.positionId = some p

instance (result : FillResult) (p : PositionId) : Decidable (result.Closes p) :=
  inferInstanceAs (Decidable (_ ∨ _))

/-- The position keeps its owner and symbol, and is listed for no user for
whom it was not `listed` before. -/
structure SameOwner (listed : UserId → Finset PositionId) (after : Store) (p : PositionId)
    (h g : PositionHash) : Prop where
  read : after.hash p = some g
  userId : g.userId = h.userId
  symbol : g.symbol = h.symbol
  stays : ∀ u, p ∈ after.userPositions u → p ∈ listed u

/-- What a fill that succeeds does to a position that is stored. -/
inductive FillEffect (listed : UserId → Finset PositionId) (after : Store) (p : PositionId)
    (h : PositionHash) (result : FillResult) : Prop
  | kept (g : PositionHash) (owner : SameOwner listed after p h g) (status : g.status = h.status)
      (realized : g.realizedPnl.getD 0 = h.realizedPnl.getD 0) (none : ¬ result.Closes p)
  | reduced (g : PositionHash) (owner : SameOwner listed after p h g)
      (isOpen : h.status = some .OPEN) (stillOpen : g.status = some .OPEN)
      (realized : g.realizedPnl.getD 0 = h.realizedPnl.getD 0 + result.realizedPnl.getD 0)
      (part : result.Closes p) (notAll : result.closedPositionId ≠ some p)
  | closed (g : PositionHash) (owner : SameOwner listed after p h g)
      (isOpen : h.status = some .OPEN) (isClosed : g.status = some .CLOSED)
      (realized : g.realizedPnl.getD 0 = h.realizedPnl.getD 0 + result.realizedPnl.getD 0)
      (all : result.closedPositionId = some p)

/-- What a fill that raises does to it, unless the raise hits a flip. -/
def FillKeeps (listed : UserId → Finset PositionId) (after : Store) (p : PositionId)
    (h : PositionHash) : Prop :=
  ∃ g, SameOwner listed after p h g ∧ g.status = h.status ∧
    g.realizedPnl.getD 0 = h.realizedPnl.getD 0

namespace Fill
variable {st after : Store} {fill : Fill} {p q : PositionId} {h g : PositionHash}
  {result : FillResult}

theorem pnlField_getD (pnl : ℚ) : (pnlField pnl).getD 0 = pnl := by
  unfold pnlField
  split_ifs with zero
  · exact zero.symm
  · rfl

theorem addTo_keeps (stored : st.hash p = some h) (other : st.hash q = some g) :
    FillKeeps st.userPositions (storeLeft Prod.fst (addTo st fill q g)) p h := by
  have frame := addTo_sameButIndex st fill q g
  have listed : ∀ u, p ∈ (storeLeft Prod.fst (addTo st fill q g)).userPositions u →
      p ∈ st.userPositions u := by
    intro u member
    rw [frame] at member
    exact member
  by_cases same : p = q
  · subst same
    cases Option.some.inj (stored.symm.trans other)
    refine ⟨fill.mergeHash (h.size.getD 0) (h.entryPrice.getD 0) h.leverage h,
      ⟨?_, rfl, rfl, listed⟩, rfl, rfl⟩
    rw [frame.hash_eq, merged, Store.hash_hset_self, stored, Option.getD_some]
  · refine ⟨h, ⟨?_, rfl, rfl, listed⟩, rfl, rfl⟩
    rw [frame.hash_eq, merged, Store.hash_hset_ne _ _ _ _ same, stored]

theorem addTo_result (merged : addTo st fill q g = .ok (after, result)) : result = added q := by
  unfold addTo at merged
  dsimp only at merged
  split at merged <;> cases merged
  rfl

theorem not_closes_added : ¬ (added q).Closes p := by
  rintro (closed | ⟨reduced, -⟩)
  · cases closed
  · cases reduced

/-- Opening a position under a new uuid leaves the stored ones alone. -/
theorem opened_keeps {size leverage : ℚ} (fresh : st.hash fill.positionUuid = none)
    (stored : st.hash p = some h) (frame : (opened st fill size leverage).SameButIndex after) :
    after.hash p = some h ∧ ∀ u, p ∈ after.userPositions u → p ∈ st.userPositions u := by
  have differ : p ≠ fill.positionUuid := by
    rintro rfl
    rw [stored] at fresh
    cases fresh
  constructor
  · rw [openPosition_hash _ _ _ _ frame, if_neg differ, stored]
  · intro u member
    rw [frame] at member
    exact ((Store.mem_sadd ..).mp member).resolve_left fun new => differ new.2

theorem closeNetted_hash (stored : st.hash p = some h) (newRealized : ℚ) :
    (closeNetted st fill q newRealized).hash p =
      some (if p = q then fill.closedHash newRealized h else h) := by
  rw [closeNetted, Store.hash_unindex, Store.hash_srem, Store.hash_hset]
  split_ifs with same
  · rw [← same, stored, Option.getD_some]
  · exact stored

theorem mem_closeNetted {newRealized : ℚ} {u : UserId}
    (member : p ∈ (closeNetted st fill q newRealized).userPositions u) :
    p ∈ st.userPositions u := ((Store.mem_srem ..).mp member).2

/-- A close or flip of `q`, with the rest opened or not, seen by a stored position. -/
theorem closedEffect {newRealized pnl : ℚ} (stored : st.hash p = some h)
    (other : st.hash q = some g) (isOpen : g.status = some .OPEN)
    (accumulated : newRealized = g.realizedPnl.getD 0 + pnl)
    (read : after.hash p = some (if p = q then fill.closedHash newRealized h else h))
    (listed : ∀ u, p ∈ after.userPositions u → p ∈ st.userPositions u)
    (closedId : result.closedPositionId = some q) (reported : result.realizedPnl = pnlField pnl)
    (notReduced : result.fillAction ≠ .reduced) : FillEffect st.userPositions after p h result := by
  by_cases same : p = q
  · subst same
    cases Option.some.inj (stored.symm.trans other)
    rw [if_pos rfl] at read
    refine .closed _ ⟨read, rfl, rfl, listed⟩ isOpen rfl ?_ closedId
    rw [reported, pnlField_getD]
    exact accumulated
  · rw [if_neg same] at read
    refine .kept _ ⟨read, rfl, rfl, listed⟩ rfl rfl ?_
    rintro (closes | ⟨reduces, -⟩)
    · exact same (Option.some.inj (closes.symm.trans closedId))
    · exact notReduced reduces

theorem netAgainst_effect (fresh : st.hash fill.positionUuid = none) (stored : st.hash p = some h)
    (other : st.hash q = some g) (isOpen : g.status = some .OPEN)
    (netted : netAgainst st fill q g = .ok (after, result)) : FillEffect st.userPositions after p h result := by
  unfold netAgainst at netted
  dsimp only at netted
  split_ifs at netted with remains exact
  · cases netted
    by_cases same : p = q
    · subst same
      cases Option.some.inj (stored.symm.trans other)
      generalize pnlClose h.side (h.entryPrice.getD 0) fill.fillPrice
        (min (h.size.getD 0) fill.fillSize) = pnl
      have read := Store.hash_hset_self st p (fill.reducedHash (h.size.getD 0 - fill.fillSize)
        (h.entryPrice.getD 0) (fill.posLevOrFill h.leverage .absent) (h.realizedPnl.getD 0 + pnl))
      rw [stored, Option.getD_some] at read
      refine .reduced _ ⟨read, rfl, rfl, fun u member => member⟩ isOpen isOpen ?_ (.inr ⟨rfl, rfl⟩)
        fun closed => by cases closed
      exact congrArg (h.realizedPnl.getD 0 + ·) (pnlField_getD pnl).symm
    · refine .kept h ⟨?_, rfl, rfl, fun u member => member⟩ rfl rfl ?_
      · rw [Store.hash_zadd, Store.hash_hset_ne _ _ _ _ same, stored]
      · rintro (closes | ⟨-, other⟩)
        · cases closes
        · exact same (Option.some.inj other).symm
  · cases netted
    exact closedEffect stored other isOpen rfl (closeNetted_hash stored _)
      (fun u member => mem_closeNetted member) rfl rfl fun reduces => by cases reduces
  · generalize isPnl : pnlClose g.side (g.entryPrice.getD 0) fill.fillPrice
      (min (g.size.getD 0) fill.fillSize) = pnl at netted
    split at netted
    next => cases netted
    next final outcome =>
      cases netted
      have frame := openPosition_sameButIndex
        (closeNetted st fill q (g.realizedPnl.getD 0 + pnl)) fill
        (-(g.size.getD 0 - fill.fillSize)) (fill.posLevOrFill g.leverage .absent)
      rw [outcome] at frame
      have differ : fill.positionUuid ≠ q := by
        rintro same
        rw [same, other] at fresh
        cases fresh
      have stillFresh : (closeNetted st fill q (g.realizedPnl.getD 0 + pnl)).hash
          fill.positionUuid = none := by
        rw [closeNetted, Store.hash_unindex, Store.hash_srem,
          Store.hash_hset_ne _ _ _ _ differ, fresh]
      obtain ⟨read, listed⟩ := opened_keeps stillFresh (closeNetted_hash stored _) frame
      exact closedEffect stored other isOpen rfl read
        (fun u member => mem_closeNetted (listed u member)) rfl rfl
        fun reduces => by cases reduces

theorem create_effect (fresh : st.hash fill.positionUuid = none) (stored : st.hash p = some h) :
    (∀ after result, create st fill = .ok (after, result) →
      FillEffect st.userPositions after p h result ∧ result.closedPositionId ≠ some p) ∧
      FillKeeps st.userPositions (storeLeft Prod.fst (create st fill)) p h := by
  obtain ⟨final, frame, outcome⟩ := create_cases st fill
  obtain ⟨read, listed⟩ := opened_keeps fresh stored frame
  have owner : SameOwner st.userPositions final p h h := ⟨read, rfl, rfl, listed⟩
  rcases outcome with raised | created
  · rw [raised]
    refine ⟨fun after result ok => ?_, h, owner, rfl, rfl⟩
    cases ok
  · rw [created]
    refine ⟨fun after result ok => ?_, h, owner, rfl, rfl⟩
    cases ok
    refine ⟨.kept h owner rfl rfl ?_, fun closed => by cases closed⟩
    rintro (closes | ⟨reduces, -⟩)
    · cases closes
    · cases reduces

theorem netAgainst_closes (netted : netAgainst st fill q g = .ok (after, result))
    (closed : result.closedPositionId = some p) : q = p ∧ g.size.getD 0 ≤ fill.fillSize := by
  unfold netAgainst at netted
  dsimp only at netted
  split_ifs at netted with remains exact
  · cases netted
    cases closed
  · cases netted
    exact ⟨Option.some.inj closed, sub_nonpos.mp (not_lt.mp remains)⟩
  · split at netted <;> cases netted
    exact ⟨Option.some.inj closed, sub_nonpos.mp (not_lt.mp remains)⟩

/-- Netting raises only at the levels of a flip. -/
theorem netAgainst_raises (fresh : st.hash fill.positionUuid = none) (stored : st.hash p = some h)
    (other : st.hash q = some g) (raised : netAgainst st fill q g = .error after) :
    FillKeeps st.userPositions after p h ∨ q = p ∧ g.size.getD 0 < fill.fillSize ∧
      (fill.order.stopLoss = .null ∨ fill.order.takeProfit = .null) := by
  unfold netAgainst at raised
  dsimp only at raised
  split_ifs at raised with remains exact
  generalize isPnl : pnlClose g.side (g.entryPrice.getD 0) fill.fillPrice
    (min (g.size.getD 0) fill.fillSize) = pnl at raised
  split at raised
  next final outcome =>
    cases raised
    by_cases same : q = p
    · refine .inr ⟨same, sub_neg.mp (lt_of_le_of_ne (not_lt.mp remains) exact), ?_⟩
      by_contra levels
      obtain ⟨sl, tp⟩ := not_or.mp levels
      obtain ⟨opened, ok⟩ := exists_openPosition
        (closeNetted st fill q (g.realizedPnl.getD 0 + pnl)) fill
        (-(g.size.getD 0 - fill.fillSize)) (fill.posLevOrFill g.leverage .absent) sl tp
      rw [ok] at outcome
      cases outcome
    · have frame := openPosition_sameButIndex
        (closeNetted st fill q (g.realizedPnl.getD 0 + pnl)) fill
        (-(g.size.getD 0 - fill.fillSize)) (fill.posLevOrFill g.leverage .absent)
      rw [outcome] at frame
      have differ : fill.positionUuid ≠ q := by
        rintro same
        rw [same, other] at fresh
        cases fresh
      have stillFresh : (closeNetted st fill q (g.realizedPnl.getD 0 + pnl)).hash
          fill.positionUuid = none := by
        rw [closeNetted, Store.hash_unindex, Store.hash_srem,
          Store.hash_hset_ne _ _ _ _ differ, fresh]
      obtain ⟨read, listed⟩ := opened_keeps stillFresh (closeNetted_hash stored _) frame
      rw [if_neg (Ne.symm same)] at read
      exact .inl ⟨h, ⟨read, rfl, rfl, fun u member => mem_closeNetted (listed u member)⟩, rfl, rfl⟩
  next => cases raised

end Fill

section Script
variable {st after : Store} {args : FillArgs} {existing old : List PositionId} {p : PositionId}
  {h : PositionHash}

theorem atomicFillOrder_hashesOnly (existing old : List PositionId) (hashes : st.HashesOnly)
    (fresh : st.hash args.positionUuid = none) :
    (atomicFillOrder st args existing old).store.HashesOnly := by
  rcases atomicFillOrder_writes existing old hashes fresh with
    same | ⟨order, el, accepted, writes⟩
  · rw [same]
    exact hashes
  · exact hashes.of_writes writes

/-- A successful fill, and whose fill it is. A position it closed was listed
for the order's user and met by the fill. -/
theorem atomicFillOrder_effect {result : FillResult} (hashes : st.HashesOnly)
    (fresh : st.hash args.positionUuid = none) (stored : st.hash p = some h)
    (filled : atomicFillOrder st args existing old = .success after result) :
    FillEffect st.userPositions after p h result ∧ ∃ order, st.orders args.orderId = some order ∧
      args.Pass order ∧ (result.closedPositionId = some p →
        p ∈ existing ∧ order.target st existing = .net p h ∧ h.size.getD 0 ≤ args.fillSize) := by
  obtain ⟨order, el, accepted, applied⟩ := atomicFillOrder_success filled
  have marked : (st.markFilled args order).HashesOnly := hashes
  have target : (Fill.ofArgs args order el accepted.leverage_pos).order.target
    (st.markFilled args order) existing = order.target st existing := rfl
  have marks (r : PositionId) : (st.markFilled args order).hash r = st.hash r := rfl
  have unused : (st.markFilled args order).hash
    (Fill.ofArgs args order el accepted.leverage_pos).positionUuid = none := fresh
  rw [Fill.applyToPositions_eq marked, target] at applied
  split at applied <;> rename_i found
  · rename_i q g
    obtain ⟨_, other, _⟩ := Order.target_merge found
    have added := Fill.addTo_result applied
    have keeps : FillKeeps st.userPositions (storeLeft Prod.fst (Fill.addTo
        (st.markFilled args order) (Fill.ofArgs args order el accepted.leverage_pos) q g)) p h :=
      Fill.addTo_keeps ((marks p).trans stored) ((marks q).trans other)
    rw [applied] at keeps
    obtain ⟨g, owner, status, realized⟩ := keeps
    subst added
    refine ⟨.kept g owner status realized Fill.not_closes_added, order, accepted.stored,
      accepted.pass, fun closed => ?_⟩
    cases closed
  · rename_i q g
    obtain ⟨listed, other, isOpen, _⟩ := Order.target_net found
    have effect := Fill.netAgainst_effect unused ((marks p).trans stored)
      ((marks q).trans other) isOpen.2 applied
    refine ⟨effect, order, accepted.stored, accepted.pass, fun closed => ?_⟩
    obtain ⟨same, enough⟩ := Fill.netAgainst_closes applied closed
    subst same
    cases Option.some.inj (stored.symm.trans other)
    exact ⟨listed, found, enough⟩
  · obtain ⟨effect, notClosed⟩ :=
      (Fill.create_effect unused ((marks p).trans stored)).1 _ _ applied
    exact ⟨effect, order, accepted.stored, accepted.pass, fun closed => absurd closed notClosed⟩

/-- A fill that fails keeps a stored position, unless it raises after closing
the position for a flip. -/
theorem atomicFillOrder_keeps (hashes : st.HashesOnly) (fresh : st.hash args.positionUuid = none)
    (stored : st.hash p = some h)
    (failed : ∀ after result, atomicFillOrder st args existing old ≠ .success after result) :
    FillKeeps st.userPositions (atomicFillOrder st args existing old).store p h ∨
      ∃ order, st.orders args.orderId = some order ∧ args.Pass order ∧
        order.target st existing = .net p h ∧ h.size.getD 0 < args.fillSize ∧
        (order.stopLoss = .null ∨ order.takeProfit = .null) := by
  have owner : SameOwner st.userPositions st p h h := ⟨stored, rfl, rfl, fun u member => member⟩
  rcases atomicFillOrder_cases st args existing old with ⟨e, refused⟩ | refused |
    ⟨order, el, accepted, outcome⟩
  · rw [refused]
    exact .inl ⟨h, owner, rfl, rfl⟩
  · rw [refused]
    exact .inl ⟨h, owner, rfl, rfl⟩
  · have marked : (st.markFilled args order).HashesOnly := hashes
    have target : (Fill.ofArgs args order el accepted.leverage_pos).order.target
      (st.markFilled args order) existing = order.target st existing := rfl
    have marks (r : PositionId) : (st.markFilled args order).hash r = st.hash r := rfl
    have unused : (st.markFilled args order).hash
      (Fill.ofArgs args order el accepted.leverage_pos).positionUuid = none := fresh
    cases applied : Fill.applyToPositions (st.markFilled args order)
        (Fill.ofArgs args order el accepted.leverage_pos) existing old with
    | ok done =>
      rw [applied] at outcome
      exact absurd outcome (failed _ _)
    | error left =>
      rw [applied] at outcome
      rw [outcome]
      rw [Fill.applyToPositions_eq marked, target] at applied
      split at applied <;> rename_i found
      · rename_i q g
        obtain ⟨_, other, _⟩ := Order.target_merge found
        have keeps : FillKeeps st.userPositions (storeLeft Prod.fst (Fill.addTo
            (st.markFilled args order) (Fill.ofArgs args order el accepted.leverage_pos) q g)) p h :=
          Fill.addTo_keeps ((marks p).trans stored) ((marks q).trans other)
        rw [applied] at keeps
        exact .inl keeps
      · rename_i q g
        obtain ⟨_, other, _⟩ := Order.target_net found
        rcases Fill.netAgainst_raises unused ((marks p).trans stored) ((marks q).trans other)
          applied with keeps | ⟨same, exceeds, levels⟩
        · exact .inl keeps
        · subst same
          cases Option.some.inj (stored.symm.trans other)
          exact .inr ⟨order, accepted.stored, accepted.pass, found, exceeds, levels⟩
      · have keeps := (Fill.create_effect unused ((marks p).trans stored)).2
        rw [applied] at keeps
        exact .inl keeps

end Script

end TradingPlatform
