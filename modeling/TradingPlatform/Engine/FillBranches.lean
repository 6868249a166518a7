import TradingPlatform.Engine.FillScript

namespace TradingPlatform

/-- No position is stored in the older JSON format. -/
def Store.HashesOnly (st : Store) : Prop := ∀ p, st.oldPositions p = none

/-- The store a computation leaves, whether it finished or raised. -/
def storeLeft {α : Type} (result : α → Store) : Except Store α → Store
  | .ok a => result a
  | .error st => st

/-- `after` differs from `before` in the price indexes at most. -/
def Store.SameButIndex (before after : Store) : Prop := after = { before with index := after.index }

namespace Store

theorem SameButIndex.trans {before between after : Store} (first : before.SameButIndex between)
    (second : between.SameButIndex after) : before.SameButIndex after := by
  unfold SameButIndex at *
  rw [second, first]

theorem sameButIndex_zadd (st : Store) (k : PriceIndex) (s : Symbol) (p : PositionId) (x : ℚ) :
    st.SameButIndex (st.zadd k s p x) := rfl

theorem sameButIndex_unindex (st : Store) (s : Symbol) (p : PositionId) :
    st.SameButIndex (st.unindex s p) := rfl

theorem sameButIndex_zaddLevels (st : Store) (s : Symbol) (p : PositionId) (sl tp : JsonNum) :
    st.SameButIndex (storeLeft id (st.zaddLevels s p sl tp)) := by
  cases sl <;> cases tp <;> rfl

end Store

namespace Fill
variable (st : Store) (fill : Fill) (p : PositionId) (h : PositionHash) (size leverage : ℚ)

/-- The store in which a merge writes its index entries. -/
def merged : Store := st.hset p (fill.mergeHash (h.size.getD 0) (h.entryPrice.getD 0) h.leverage)

/-- The store in which a new position's index entries are written. -/
def opened : Store :=
  (st.hset fill.positionUuid (fill.openHash size leverage)).sadd fill.order.userId
    fill.positionUuid

theorem posLevOrFill_pos (hgetVal : Option ℚ) (jsonLev : JsonNum) :
    0 < fill.posLevOrFill hgetVal jsonLev := by
  unfold posLevOrFill
  split
  next _ stored => exact of_decide_eq_true (Option.filter_eq_some_iff.mp stored).2
  next json => exact of_decide_eq_true (Option.filter_eq_some_iff.mp json).2
  next => exact fill.leverage_pos

theorem addTo_left : storeLeft Prod.fst (addTo st fill p h) = storeLeft id
    (((merged st fill p h).zadd .posOpen fill.order.symbol p
      (fill.newEntryPrice (h.size.getD 0) (h.entryPrice.getD 0))).zaddLevels fill.order.symbol p
        fill.order.stopLoss fill.order.takeProfit) := by
  unfold addTo merged
  dsimp only
  split <;> rename_i outcome <;> rw [outcome] <;> rfl

theorem openPosition_left : storeLeft id (openPosition st fill size leverage) = storeLeft id
    (((opened st fill size leverage).zadd .posOpen fill.order.symbol fill.positionUuid
      fill.fillPrice).zaddLevels fill.order.symbol fill.positionUuid fill.order.stopLoss
        fill.order.takeProfit) := rfl

theorem addTo_sameButIndex :
    (merged st fill p h).SameButIndex (storeLeft Prod.fst (addTo st fill p h)) := by
  rw [addTo_left]
  exact (Store.sameButIndex_zadd ..).trans (Store.sameButIndex_zaddLevels ..)

theorem openPosition_sameButIndex : (opened st fill size leverage).SameButIndex
    (storeLeft id (openPosition st fill size leverage)) := by
  rw [openPosition_left]
  exact (Store.sameButIndex_zadd ..).trans (Store.sameButIndex_zaddLevels ..)

/-- What opening a position leaves behind, apart from the price indexes. -/
theorem openPosition_hash {after : Store}
    (frame : (opened st fill size leverage).SameButIndex after) (q : PositionId) :
    after.hash q = if q = fill.positionUuid then
      some (fill.openHash size leverage ((st.hash fill.positionUuid).getD {})) else st.hash q := by
  rw [frame]
  exact Store.hash_hset ..

theorem exists_openPosition (sl : fill.order.stopLoss ≠ .null) (tp : fill.order.takeProfit ≠ .null) :
    ∃ after, openPosition st fill size leverage = .ok after := by
  unfold openPosition Store.zaddLevels
  dsimp only
  cases first : fill.order.stopLoss with
  | null => exact absurd first sl
  | absent =>
    cases second : fill.order.takeProfit with
    | null => exact absurd second tp
    | absent => exact ⟨_, rfl⟩
    | num y => exact ⟨_, rfl⟩
  | num x =>
    cases second : fill.order.takeProfit with
    | null => exact absurd second tp
    | absent => exact ⟨_, rfl⟩
    | num y => exact ⟨_, rfl⟩

theorem create_cases : ∃ after, (opened st fill fill.fillSize fill.effectiveLeverage).SameButIndex
    after ∧ (create st fill = .error after ∨ create st fill =
      .ok (after, { positionId := some fill.positionUuid, fillAction := .created })) := by
  have frame := openPosition_sameButIndex st fill fill.fillSize fill.effectiveLeverage
  unfold create
  cases reply : openPosition st fill fill.fillSize fill.effectiveLeverage with
  | error after =>
    rw [reply] at frame
    exact ⟨after, frame, .inl rfl⟩
  | ok after =>
    rw [reply] at frame
    exact ⟨after, frame, .inr rfl⟩

/-- A fill larger than the opposite position closes it and opens the rest. -/
theorem netAgainst_flips (exceeds : h.size.getD 0 < fill.fillSize)
    (sl : fill.order.stopLoss ≠ .null) (tp : fill.order.takeProfit ≠ .null) :
    ∃ after result newRealized posLeverage, netAgainst st fill p h = .ok (after, result) ∧
      result.closedPositionId = some p ∧ (opened (closeNetted st fill p newRealized) fill
        (fill.fillSize - h.size.getD 0) posLeverage).SameButIndex after := by
  have negative : h.size.getD 0 - fill.fillSize < 0 := sub_neg.mpr exceeds
  unfold netAgainst
  simp only [not_lt.mpr negative.le, negative.ne, if_false, neg_sub]
  generalize h.realizedPnl.getD 0 + _ = newRealized
  generalize fill.posLevOrFill h.leverage .absent = posLeverage
  obtain ⟨after, reply⟩ := exists_openPosition (closeNetted st fill p newRealized) fill
    (fill.fillSize - h.size.getD 0) posLeverage sl tp
  have frame := openPosition_sameButIndex (closeNetted st fill p newRealized) fill
    (fill.fillSize - h.size.getD 0) posLeverage
  rw [reply] at frame
  exact ⟨after, _, newRealized, posLeverage, by rw [reply], rfl, frame⟩

end Fill

/-- The position a fill goes to. -/
inductive Target
  | merge (p : PositionId) (h : PositionHash)
  | net (p : PositionId) (h : PositionHash)
  | fresh

namespace Order

/-- The first open position of this symbol and side among the user's. -/
def openOn (st : Store) (order : Order) (side : PositionSide) (existing : List PositionId) :
    Option (PositionId × PositionHash) :=
  existing.findSome? fun p => ((st.hash p).filter fun h =>
    decide (h.IsOpenOn order.symbol ∧ h.side = some side)).map (p, ·)

/-- A netting order merges into the open position of its own side, else nets
against the one of the other side; any other order opens a new position. -/
def target (st : Store) (order : Order) (existing : List PositionId) : Target :=
  if isNetting order.accountType then
    match order.openOn st order.side.opens existing with
    | some (p, h) => .merge p h
    | none =>
      match order.openOn st order.side.opens.opposite existing with
      | some (p, h) => .net p h
      | none => .fresh
  else .fresh

variable {st : Store} {order : Order} {existing : List PositionId} {p : PositionId}
  {h : PositionHash}

theorem openOn_some {side : PositionSide} (found : order.openOn st side existing = some (p, h)) :
    p ∈ existing ∧ st.hash p = some h ∧ h.IsOpenOn order.symbol ∧ h.side = some side := by
  obtain ⟨q, member, matched⟩ := List.exists_of_findSome?_eq_some found
  obtain ⟨g, kept, same⟩ := Option.map_eq_some_iff.mp matched
  cases same
  obtain ⟨stored, isOpen⟩ := Option.filter_eq_some_iff.mp kept
  exact ⟨member, stored, of_decide_eq_true isOpen⟩

theorem target_merge (merges : order.target st existing = .merge p h) :
    p ∈ existing ∧ st.hash p = some h ∧ h.IsOpenOn order.symbol ∧
      h.side = some order.side.opens := by
  unfold target at merges
  split_ifs at merges
  split at merges
  next found => cases merges; exact openOn_some found
  next => split at merges <;> cases merges

theorem target_net (nets : order.target st existing = .net p h) :
    p ∈ existing ∧ st.hash p = some h ∧ h.IsOpenOn order.symbol ∧
      h.side = some order.side.opens.opposite := by
  unfold target at nets
  split_ifs at nets
  split at nets
  next => cases nets
  next =>
    split at nets
    next found => cases nets; exact openOn_some found
    next => cases nets

/-- A listed open position on the order's symbol is found, whichever side it is on. -/
theorem not_fresh_of_open (netting : isNetting order.accountType) (listed : p ∈ existing)
    (stored : st.hash p = some h) (isOpen : h.IsOpenOn order.symbol)
    (sided : ∃ side, h.side = some side) : order.target st existing ≠ .fresh := by
  obtain ⟨side, hasSide⟩ := sided
  have found : order.openOn st side existing ≠ none := by
    intro missing
    have skipped := List.findSome?_eq_none_iff.mp missing p listed
    rw [stored] at skipped
    simp [Option.filter, isOpen, hasSide] at skipped
  have either : side = order.side.opens ∨ side = order.side.opens.opposite := by
    cases side <;> cases order.side <;> simp [Side.opens, PositionSide.opposite]
  unfold target
  rw [if_pos netting]
  split
  next => exact fun same => by cases same
  next noneSame =>
    split
    next => exact fun same => by cases same
    next noneOther =>
      rcases either with same | other
      · exact absurd (same ▸ noneSame) found
      · exact absurd (other ▸ noneOther) found

end Order

namespace Fill
variable {st : Store} {fill : Fill} {existing old : List PositionId}

theorem existingLoop_eq (hashes : st.HashesOnly) : existingLoop st fill existing =
    if fill.netting then (fill.order.openOn st fill.newSide existing).map
      fun found => addTo st fill found.1 found.2 else none := by
  induction existing with
  | nil => simp [existingLoop, Order.openOn]
  | cons p rest ih =>
    rw [Order.openOn, List.findSome?_cons]
    unfold existingLoop
    cases stored : st.hash p with
    | none =>
      simp only [hashes p, Option.filter_none, Option.map_none]
      exact ih
    | some h =>
      by_cases sameSide : h.IsOpenOn fill.order.symbol ∧ h.side = some fill.newSide
      · simp [Option.filter, sameSide]
      · simp only [Option.filter, sameSide, decide_false, Bool.false_eq_true, if_false,
          Option.map_none]
        exact ih

theorem oldLoop_eq (hashes : st.HashesOnly) : oldLoop st fill existing old = none := by
  induction old with
  | nil => rfl
  | cons p rest ih => simp only [oldLoop, hashes p, ih, ite_self]

theorem oppositeLoop_eq : oppositeLoop st fill existing =
    (fill.order.openOn st fill.newSide.opposite existing).map
      fun found => netAgainst st fill found.1 found.2 := by
  induction existing with
  | nil => rfl
  | cons p rest ih =>
    rw [Order.openOn, List.findSome?_cons]
    unfold oppositeLoop
    cases stored : st.hash p with
    | none =>
      simp only [Option.filter_none, Option.map_none]
      exact ih
    | some h =>
      by_cases otherSide : h.IsOpenOn fill.order.symbol ∧ h.side = some fill.newSide.opposite
      · simp [Option.filter, otherSide]
      · simp only [Option.filter, otherSide, decide_false, Bool.false_eq_true, if_false,
          Option.map_none]
        exact ih

/-- The loops of the script carry out what the order's target says, on a
store whose positions are all hashes. -/
theorem applyToPositions_eq (hashes : st.HashesOnly) : applyToPositions st fill existing old =
    match fill.order.target st existing with
    | .merge p h => addTo st fill p h
    | .net p h => netAgainst st fill p h
    | .fresh => create st fill := by
  unfold applyToPositions Order.target
  rw [existingLoop_eq hashes, oldLoop_eq hashes, oppositeLoop_eq]
  unfold netting newSide
  split_ifs
  · cases fill.order.openOn st fill.order.side.opens existing with
    | some found => rfl
    | none =>
      cases fill.order.openOn st fill.order.side.opens.opposite existing with
      | some found => rfl
      | none => rfl
  · rfl

end Fill

/-- The checks the script makes on its arguments and the order. -/
def FillArgs.Pass (args : FillArgs) (order : Order) : Prop :=
  (∃ el ∈ args.effectiveLeverage, 0 < el) ∧ order.status = .PENDING ∧
    limitPriceMet order args.fillPrice = some true

instance (args : FillArgs) (order : Order) : Decidable (args.Pass order) :=
  inferInstanceAs (Decidable (_ ∧ _))

/-- The script gets past its checks with this order and leverage. -/
structure FillAccepted (st : Store) (args : FillArgs) (order : Order) (el : ℚ) : Prop where
  leverage : args.effectiveLeverage = some el
  leverage_pos : 0 < el
  stored : st.orders args.orderId = some order
  pending : order.status = .PENDING
  priceMet : limitPriceMet order args.fillPrice = some true

theorem FillAccepted.pass {st : Store} {args : FillArgs} {order : Order} {el : ℚ}
    (accepted : FillAccepted st args order el) : args.Pass order :=
  ⟨⟨el, accepted.leverage, accepted.leverage_pos⟩, accepted.pending, accepted.priceMet⟩

/-- A call either leaves the store as it was, or passes the checks and does
what the position part of the script does. -/
theorem atomicFillOrder_cases (st : Store) (args : FillArgs) (existing old : List PositionId) :
    (∃ e, atomicFillOrder st args existing old = .error st e) ∨
    atomicFillOrder st args existing old = .raised st ∨
    ∃ order el, ∃ accepted : FillAccepted st args order el,
      atomicFillOrder st args existing old =
        match Fill.applyToPositions (st.markFilled args order)
          (Fill.ofArgs args order el accepted.leverage_pos) existing old with
        | .error after => .raised after
        | .ok (after, result) => .success after result := by
  unfold atomicFillOrder
  split
  next => exact .inl ⟨_, rfl⟩
  next el leverage =>
    split
    next leverage_pos =>
      split
      next => exact .inl ⟨_, rfl⟩
      next order stored =>
        split_ifs with notPending
        · exact .inl ⟨_, rfl⟩
        · split
          next => exact .inr (.inl rfl)
          next => exact .inl ⟨_, rfl⟩
          next priceMet =>
            exact .inr (.inr ⟨order, el,
              ⟨leverage, leverage_pos, stored, not_not.mp notPending, priceMet⟩, rfl⟩)
    next => exact .inl ⟨_, rfl⟩

theorem atomicFillOrder_success {st after : Store} {args : FillArgs}
    {existing old : List PositionId} {result : FillResult}
    (filled : atomicFillOrder st args existing old = .success after result) :
    ∃ order el, ∃ accepted : FillAccepted st args order el,
      Fill.applyToPositions (st.markFilled args order)
        (Fill.ofArgs args order el accepted.leverage_pos) existing old = .ok (after, result) := by
  rcases atomicFillOrder_cases st args existing old with ⟨e, failed⟩ | failed |
    ⟨order, el, accepted, outcome⟩
  · rw [failed] at filled
    cases filled
  · rw [failed] at filled
    cases filled
  · rw [outcome] at filled
    refine ⟨order, el, accepted, ?_⟩
    split at filled
    next => cases filled
    next applied => cases filled; exact applied

/-- The store any call leaves: the old one, or the one its target's branch leaves. -/
theorem atomicFillOrder_left (st : Store) (args : FillArgs) (existing old : List PositionId) :
    (atomicFillOrder st args existing old).store = st ∨
    ∃ order el, ∃ accepted : FillAccepted st args order el,
      (atomicFillOrder st args existing old).store = storeLeft Prod.fst
        (Fill.applyToPositions (st.markFilled args order)
          (Fill.ofArgs args order el accepted.leverage_pos) existing old) := by
  rcases atomicFillOrder_cases st args existing old with ⟨e, failed⟩ | failed |
    ⟨order, el, accepted, outcome⟩
  · exact .inl (by rw [failed]; rfl)
  · exact .inl (by rw [failed]; rfl)
  · refine .inr ⟨order, el, accepted, ?_⟩
    rw [outcome]
    split <;> rename_i applied <;> rw [applied] <;> rfl

section Orders

/-- The orders are left as they were. -/
def SameOrders (st : Store) (done : Except Store (Store × FillResult)) : Prop :=
  (storeLeft Prod.fst done).orderRecords = st.orderRecords

/-- A part of the store that no command on positions changes. -/
def IgnoresPositions {α : Type} (read : Store → α) : Prop :=
  ∀ (st : Store) positions oldPositions userPositions oldUserPositions index,
    read { st with
      positions := positions, oldPositions := oldPositions, userPositions := userPositions
      oldUserPositions := oldUserPositions, index := index } = read st

namespace Fill
variable {α : Type} {read : Store → α} (ignores : IgnoresPositions read)
  (st : Store) (fill : Fill)
include ignores

theorem read_addTo (p : PositionId) (h : PositionHash) :
    read (storeLeft Prod.fst (addTo st fill p h)) = read st := by
  rw [addTo_sameButIndex st fill p h]
  exact ignores st _ _ _ _ _

theorem read_create : read (storeLeft Prod.fst (create st fill)) = read st := by
  obtain ⟨after, frame, raised | created⟩ := create_cases st fill
  · rw [raised, storeLeft, frame]
    exact ignores st _ _ _ _ _
  · rw [created, storeLeft, frame]
    exact ignores st _ _ _ _ _

omit ignores in
theorem storeLeft_paired (done : Except Store Store) (result : FillResult) :
    storeLeft Prod.fst (match done with
      | .error st => .error st
      | .ok st => .ok (st, result)) = storeLeft id done := by
  cases done <;> rfl

theorem read_zaddLevels (s : Symbol) (p : PositionId) (sl tp : JsonNum) :
    read (storeLeft id (st.zaddLevels s p sl tp)) = read st := by
  rw [Store.sameButIndex_zaddLevels st s p sl tp]
  exact ignores st _ _ _ _ _

theorem read_migrate (pos : OldPosition) (leaveSet : Store → Store)
    (keeps : ∀ st, read (leaveSet st) = read st) :
    read (storeLeft Prod.fst (migrate st fill pos leaveSet)) = read st := by
  refine (congrArg read (storeLeft_paired _ _)).trans ?_
  rw [read_zaddLevels ignores]
  have left := keeps (st.hset fill.positionUuid (fill.migratedHash pos))
  exact (ignores (leaveSet _) _ _ _ _ _).trans (left.trans (ignores st _ _ _ _ _))

theorem read_updateOld (p : PositionId) (pos : OldPosition) :
    read (storeLeft Prod.fst (updateOld st fill p pos)) = read st := by
  refine (congrArg read (storeLeft_paired _ _)).trans ?_
  rw [read_zaddLevels ignores]
  exact ignores st _ _ _ _ _

theorem read_netAgainst (p : PositionId) (h : PositionHash) :
    read (storeLeft Prod.fst (netAgainst st fill p h)) = read st := by
  unfold netAgainst
  dsimp only
  split_ifs
  · exact ignores st _ _ _ _ _
  · exact ignores st _ _ _ _ _
  · refine (congrArg read (storeLeft_paired _ _)).trans ?_
    rw [openPosition_sameButIndex]
    exact ignores st _ _ _ _ _

variable {st fill} {existing old : List PositionId} {done : Except Store (Store × FillResult)}

theorem read_existingLoop (taken : existingLoop st fill existing = some done) :
    read (storeLeft Prod.fst done) = read st := by
  induction existing with
  | nil => cases taken
  | cons p rest ih =>
    simp only [existingLoop] at taken
    split at taken
    next h _ =>
      split_ifs at taken
      · cases taken
        exact read_addTo ignores st fill p h
      · exact ih taken
    next =>
      split at taken
      next pos _ =>
        split_ifs at taken
        · split at taken <;> cases taken
          · exact read_migrate ignores st fill pos _ fun st => ignores st _ _ _ _ _
          · exact read_updateOld ignores st fill _ pos
        · exact ih taken
      next => exact ih taken

theorem read_oldLoop (taken : oldLoop st fill existing old = some done) :
    read (storeLeft Prod.fst done) = read st := by
  induction old with
  | nil => cases taken
  | cons p rest ih =>
    simp only [oldLoop] at taken
    split at taken
    next => exact ih taken
    next =>
      split at taken
      next pos _ =>
        split_ifs at taken
        · cases taken
          exact read_migrate ignores st fill pos _ fun st => ignores st _ _ _ _ _
        · exact ih taken
      next => exact ih taken

theorem read_oppositeLoop (taken : oppositeLoop st fill existing = some done) :
    read (storeLeft Prod.fst done) = read st := by
  rw [oppositeLoop_eq] at taken
  obtain ⟨⟨p, h⟩, _, rfl⟩ := Option.map_eq_some_iff.mp taken
  exact read_netAgainst ignores st fill p h

/-- Whatever happens to positions, also old ones, the other parts stay. -/
theorem read_applyToPositions :
    read (storeLeft Prod.fst (applyToPositions st fill existing old)) = read st := by
  unfold applyToPositions
  split
  next merged => exact read_existingLoop ignores merged
  next =>
    split
    next migrated => exact read_oldLoop ignores migrated
    next =>
      split
      next netted =>
        split_ifs at netted
        exact read_oppositeLoop ignores netted
      next => exact read_create ignores st fill

omit ignores in
theorem sameOrders_applyToPositions : SameOrders st (applyToPositions st fill existing old) :=
  have ignores : IgnoresPositions Store.orderRecords := fun _ _ _ _ _ _ => rfl
  read_applyToPositions ignores

end Fill

/-- A call leaves the orders as they were without succeeding, or it finds its
order PENDING and leaves it FILLED. -/
theorem atomicFillOrder_orders (st : Store) (args : FillArgs) (existing old : List PositionId) :
    ((atomicFillOrder st args existing old).store.orderRecords = st.orderRecords ∧
      ∀ after result, atomicFillOrder st args existing old ≠ .success after result) ∨
    ∃ order, st.orders args.orderId = some order ∧ order.status = .PENDING ∧
      (atomicFillOrder st args existing old).store.orderRecords =
        (st.setOrder args.orderId (order.filled args)).orderRecords := by
  rcases atomicFillOrder_cases st args existing old with ⟨e, failed⟩ | failed |
    ⟨order, el, accepted, outcome⟩
  · refine .inl ⟨congrArg (fun outcome => outcome.store.orderRecords) failed, ?_⟩
    intro after result filled
    rw [failed] at filled
    cases filled
  · refine .inl ⟨congrArg (fun outcome => outcome.store.orderRecords) failed, ?_⟩
    intro after result filled
    rw [failed] at filled
    cases filled
  · refine .inr ⟨order, accepted.stored, accepted.pending, ?_⟩
    have same : SameOrders (st.markFilled args order) (Fill.applyToPositions
      (st.markFilled args order) (Fill.ofArgs args order el accepted.leverage_pos) existing old) :=
      Fill.sameOrders_applyToPositions
    have marked : (st.markFilled args order).orderRecords =
      (st.setOrder args.orderId (order.filled args)).orderRecords := rfl
    rw [outcome, ← marked]
    unfold SameOrders at same
    revert same
    cases Fill.applyToPositions (st.markFilled args order)
      (Fill.ofArgs args order el accepted.leverage_pos) existing old with
    | error after => exact id
    | ok done => exact id

end Orders

end TradingPlatform
