import TradingPlatform.Engine.FillBranches
import TradingPlatform.Engine.ReopenScripts

namespace TradingPlatform

namespace Store
variable (st : Store) (s : Symbol) (p q : PositionId)

theorem sameButIndex_zaddStoredLevels (sl tp : Option LevelText) :
    st.SameButIndex (storeLeft id (st.zaddStoredLevels s p sl tp)) := by
  rcases sl with - | - | - | x <;> rcases tp with - | - | - | y <;> rfl

theorem hash_replaceLevels_self (sl tp : Option ℚ) : (st.replaceLevels s p sl tp).hash p =
    some { (st.hash p).getD {} with sl := sl.map .num, tp := tp.map .num } := by
  cases sl <;> cases tp <;> simp [replaceLevels, setLevel]

theorem hash_replaceLevels_ne (sl tp : Option ℚ) (differ : q ≠ p) :
    (st.replaceLevels s p sl tp).hash q = st.hash q := by
  cases sl <;> cases tp <;> simp [replaceLevels, setLevel, hash_hset_ne _ _ _ _ differ]

end Store

/-- Every hash is left as it was or written in one of the given ways, which
relate an id, the hash found there and the hash written. -/
structure HashWrites (way : PositionId → Option PositionHash → PositionHash → Prop)
    (before after : Store) : Prop where
  old : after.oldPositions = before.oldPositions
  hash : ∀ q, after.hash q = before.hash q ∨
    ∃ h, after.hash q = some h ∧ way q (before.hash q) h

/-- The ways a fill writes a position hash. -/
inductive FillWrite (fill : Fill) : PositionId → Option PositionHash → PositionHash → Prop
  | opened (size leverage : ℚ) (leverage_pos : 0 < leverage) :
      FillWrite fill fill.positionUuid none (fill.openHash size leverage {})
  | merged (p : PositionId) (h : PositionHash) (isOpen : h.IsOpenOn fill.order.symbol)
      (same : h.side = some fill.newSide) :
      FillWrite fill p (some h)
        (fill.mergeHash (h.size.getD 0) (h.entryPrice.getD 0) h.leverage h)
  | reduced (p : PositionId) (h : PositionHash) (newSize newRealized : ℚ)
      (isOpen : h.IsOpenOn fill.order.symbol) :
      FillWrite fill p (some h) (fill.reducedHash newSize (h.entryPrice.getD 0)
        (fill.posLevOrFill h.leverage .absent) newRealized h)
  | closed (p : PositionId) (h : PositionHash) (newRealized : ℚ)
      (isOpen : h.IsOpenOn fill.order.symbol) :
      FillWrite fill p (some h) (fill.closedHash newRealized h)

inductive CloseWrite (args : CloseArgs) : PositionId → Option PositionHash → PositionHash → Prop
  | full (h : PositionHash) (isOpen : h.status = some .OPEN) :
      CloseWrite args args.positionId (some h) (args.fullHash h)
  | part (h : PositionHash) (isOpen : h.status = some .OPEN)
      (part : args.actualCloseSize (h.size.getD 0) < h.size.getD 0) :
      CloseWrite args args.positionId (some h) (args.partialHash h)

inductive ReopenWrite (p : PositionId) (timestampMs : Millis) :
    PositionId → Option PositionHash → PositionHash → Prop
  | reopened (h : PositionHash) (closed : ∃ status ∈ h.status, status.Closed)
      (restores : h.restoreSize ≠ 0) :
      ReopenWrite p timestampMs p (some h) (h.reopened timestampMs)

/-- Levels set to the overrides of a parameter script. -/
def PositionHash.withLevels (h : PositionHash) (params : ParamOverrides) : PositionHash :=
  { h with sl := params.sl.map .num, tp := params.tp.map .num }

inductive ReopenWithWrite (p : PositionId) (timestampMs : Millis) (params : ParamOverrides) :
    PositionId → Option PositionHash → PositionHash → Prop
  | reopened (h : PositionHash) (closed : ∃ status ∈ h.status, status.Closed)
      (restores : positiveOr params.size h.restoreSize ≠ 0) :
      ReopenWithWrite p timestampMs params p (some h)
        ((h.reopenedWith timestampMs params).withLevels params)

inductive UpdateWrite (p : PositionId) (timestampMs : Millis) (params : ParamOverrides) :
    PositionId → Option PositionHash → PositionHash → Prop
  | resized (h : PositionHash) (isOpen : h.status = some .OPEN) (size entryPrice : ℚ)
      (noLeverage : h.leverage.filter (0 < ·) = none) :
      UpdateWrite p timestampMs params p (some h) (h.resized timestampMs size entryPrice)
  | updated (h : PositionHash) (isOpen : h.status = some .OPEN) (size entryPrice leverage : ℚ)
      (hasLeverage : h.leverage.filter (0 < ·) = some leverage) :
      UpdateWrite p timestampMs params p (some h) ({ h.resized timestampMs size entryPrice with
        margin := some (size * entryPrice / leverage) }.withLevels params)

section Frames
variable {way : PositionId → Option PositionHash → PositionHash → Prop} {st before after : Store}

theorem HashWrites.refl : HashWrites way st st := ⟨rfl, fun _ => .inl rfl⟩

theorem HashWrites.hset {p : PositionId} {write : PositionHash → PositionHash}
    (isWrite : way p (st.hash p) (write ((st.hash p).getD {}))) :
    HashWrites way st (st.hset p write) where
  old := rfl
  hash q := by
    rw [Store.hash_hset]
    split_ifs with same
    · subst same
      exact .inr ⟨_, rfl, isWrite⟩
    · exact .inl rfl

theorem HashWrites.of_only {p : PositionId} {g h : PositionHash} (stored : before.hash p = some g)
    (old : after.oldPositions = before.oldPositions)
    (others : ∀ q, q ≠ p → after.hash q = before.hash q) (read : after.hash p = some h)
    (how : way p (some g) h) : HashWrites way before after where
  old := old
  hash q := by
    by_cases same : q = p
    · subst same
      rw [stored]
      exact .inr ⟨h, read, how⟩
    · exact .inl (others q same)

theorem Store.SameButIndex.hash_eq (same : before.SameButIndex after) (q : PositionId) :
    after.hash q = before.hash q := by
  rw [same]
  rfl

theorem Store.SameButIndex.hashWrites (same : before.SameButIndex after)
    (writes : HashWrites way st before) : HashWrites way st after where
  old := by rw [same]; exact writes.old
  hash q := by rw [same.hash_eq]; exact writes.hash q

theorem Store.HashesOnly.of_writes (hashes : before.HashesOnly)
    (writes : HashWrites way before after) : after.HashesOnly := by
  intro q
  rw [writes.old]
  exact hashes q

/-- What every way of writing keeps true of each hash stays true of all. -/
theorem HashWrites.all {P : PositionHash → Prop} (writes : HashWrites way before after)
    (kept : ∀ q h, way q (before.hash q) h → (∀ g ∈ before.hash q, P g) → P h)
    (initially : ∀ q, ∀ h ∈ before.hash q, P h) : ∀ q, ∀ h ∈ after.hash q, P h := by
  intro q h read
  rcases writes.hash q with same | ⟨g, written, how⟩
  · exact initially q h (same ▸ read)
  · cases Option.some.inj (written.symm.trans read)
    exact kept q _ how (initially q)

end Frames

/-- Any relation that has the writes a fill makes: a new position of the fill's
size or of what a flip leaves of it, a merge, a reduction to what remains, a close. -/
structure FillWays (fill : Fill) (way : PositionId → Option PositionHash → PositionHash → Prop) :
    Prop where
  opened : ∀ size leverage, 0 < leverage → size = fill.fillSize ∨ 0 < size →
    way fill.positionUuid none (fill.openHash size leverage {})
  merged : ∀ p h, h.IsOpenOn fill.order.symbol → h.side = some fill.newSide →
    way p (some h) (fill.mergeHash (h.size.getD 0) (h.entryPrice.getD 0) h.leverage h)
  reduced : ∀ p h newSize newRealized, 0 < newSize → h.IsOpenOn fill.order.symbol →
    way p (some h) (fill.reducedHash newSize (h.entryPrice.getD 0)
      (fill.posLevOrFill h.leverage .absent) newRealized h)
  closed : ∀ p h newRealized, h.IsOpenOn fill.order.symbol →
    way p (some h) (fill.closedHash newRealized h)

theorem fillWays_fillWrite (fill : Fill) : FillWays fill (FillWrite fill) where
  opened size leverage leverage_pos _ := .opened size leverage leverage_pos
  merged p h isOpen same := .merged p h isOpen same
  reduced p h newSize newRealized _ isOpen := .reduced p h newSize newRealized isOpen
  closed p h newRealized isOpen := .closed p h newRealized isOpen

namespace Fill
variable {st : Store} {fill : Fill} {p : PositionId} {h : PositionHash}
  {way : PositionId → Option PositionHash → PositionHash → Prop}

theorem addTo_writes (ways : FillWays fill way) (stored : st.hash p = some h)
    (isOpen : h.IsOpenOn fill.order.symbol) (same : h.side = some fill.newSide) :
    HashWrites way st (storeLeft Prod.fst (addTo st fill p h)) := by
  refine (addTo_sameButIndex st fill p h).hashWrites (.hset ?_)
  rw [stored]
  exact ways.merged p h isOpen same

theorem openPosition_writes {size leverage : ℚ} (ways : FillWays fill way)
    (fresh : st.hash fill.positionUuid = none) (leverage_pos : 0 < leverage)
    (sized : size = fill.fillSize ∨ 0 < size) :
    HashWrites way st (storeLeft id (openPosition st fill size leverage)) := by
  refine (openPosition_sameButIndex st fill size leverage).hashWrites ?_
  have written : HashWrites way st (st.hset fill.positionUuid (fill.openHash size leverage)) := by
    refine .hset ?_
    rw [fresh]
    exact ways.opened size leverage leverage_pos sized
  exact ⟨written.old, written.hash⟩

theorem closeNetted_writes (ways : FillWays fill way) (stored : st.hash p = some h)
    (isOpen : h.IsOpenOn fill.order.symbol) (newRealized : ℚ) :
    HashWrites way st (closeNetted st fill p newRealized) := by
  have written : HashWrites way st (st.hset p (fill.closedHash newRealized)) := by
    refine .hset ?_
    rw [stored]
    exact ways.closed p h newRealized isOpen
  exact ⟨written.old, written.hash⟩

/-- A flip writes two hashes: the closed one and, under the uuid, the new one. -/
theorem netAgainst_writes (ways : FillWays fill way) (fresh : st.hash fill.positionUuid = none)
    (stored : st.hash p = some h) (isOpen : h.IsOpenOn fill.order.symbol) :
    HashWrites way st (storeLeft Prod.fst (netAgainst st fill p h)) := by
  unfold netAgainst
  dsimp only
  split_ifs with remains exact
  · refine (Store.sameButIndex_zadd ..).hashWrites (.hset ?_)
    rw [stored]
    exact ways.reduced p h _ _ remains isOpen
  · exact closeNetted_writes ways stored isOpen _
  · refine (congrArg (HashWrites way st) (storeLeft_paired _ _)).mpr ?_
    generalize h.realizedPnl.getD 0 + _ = newRealized
    have closing : HashWrites way st (closeNetted st fill p newRealized) :=
      closeNetted_writes ways stored isOpen newRealized
    have differ : fill.positionUuid ≠ p := by
      rintro same
      rw [same, stored] at fresh
      cases fresh
    have stillFresh : (closeNetted st fill p newRealized).hash fill.positionUuid = none := by
      simp only [closeNetted, Store.hash_unindex, Store.hash_srem]
      rw [Store.hash_hset_ne _ _ _ _ differ, fresh]
    have residual : 0 < -(h.size.getD 0 - fill.fillSize) :=
      neg_pos.mpr (lt_of_le_of_ne (not_lt.mp remains) exact)
    have opening : HashWrites way (closeNetted st fill p newRealized)
        (storeLeft id (openPosition (closeNetted st fill p newRealized) fill
          (-(h.size.getD 0 - fill.fillSize)) (fill.posLevOrFill h.leverage .absent))) :=
      openPosition_writes ways stillFresh (fill.posLevOrFill_pos h.leverage .absent) (.inr residual)
    refine ⟨opening.old.trans closing.old, fun q => ?_⟩
    by_cases isNew : q = fill.positionUuid
    · subst isNew
      rcases opening.hash fill.positionUuid with same | ⟨g, written, how⟩
      · exact .inl (same.trans (stillFresh.trans fresh.symm))
      · rw [stillFresh] at how
        exact .inr ⟨g, written, fresh ▸ how⟩
    · rw [openPosition_hash _ _ _ _ (openPosition_sameButIndex ..), if_neg isNew]
      exact closing.hash q

/-- A close or a flip reports the position it closed, a reduction none. -/
theorem netAgainst_closed {after : Store} {result : FillResult} {q : PositionId}
    (fresh : st.hash fill.positionUuid = none) (stored : st.hash p = some h)
    (netted : netAgainst st fill p h = .ok (after, result))
    (closedId : result.closedPositionId = some q) :
    ∃ g, after.hash q = some g ∧ g.status = some .CLOSED := by
  have differ : p ≠ fill.positionUuid := by
    rintro rfl
    rw [stored] at fresh
    cases fresh
  have closing (newRealized : ℚ) : (closeNetted st fill p newRealized).hash p =
      some (fill.closedHash newRealized h) := by
    rw [closeNetted, Store.hash_unindex, Store.hash_srem, Store.hash_hset_self, stored,
      Option.getD_some]
  unfold netAgainst at netted
  dsimp only at netted
  split_ifs at netted
  · cases netted
    cases closedId
  · cases netted
    cases closedId
    exact ⟨_, closing _, rfl⟩
  · split at netted
    next => cases netted
    next residual opened =>
      cases netted
      cases closedId
      have frame := openPosition_sameButIndex (closeNetted st fill p (h.realizedPnl.getD 0 +
        pnlClose h.side (h.entryPrice.getD 0) fill.fillPrice (min (h.size.getD 0) fill.fillSize)))
        fill (-(h.size.getD 0 - fill.fillSize)) (fill.posLevOrFill h.leverage .absent)
      rw [opened] at frame
      have kept := (openPosition_hash _ _ _ _ frame p).trans ((if_neg differ).trans (closing _))
      exact ⟨_, kept, rfl⟩

theorem applyToPositions_writes (ways : FillWays fill way) (existing old : List PositionId)
    (hashes : st.HashesOnly) (fresh : st.hash fill.positionUuid = none) :
    HashWrites way st (storeLeft Prod.fst (applyToPositions st fill existing old)) := by
  rw [applyToPositions_eq hashes]
  split
  next p h merges =>
    obtain ⟨_, stored, isOpen, same⟩ := Order.target_merge merges
    exact addTo_writes ways stored isOpen same
  next p h nets =>
    obtain ⟨_, stored, isOpen, _⟩ := Order.target_net nets
    exact netAgainst_writes ways fresh stored isOpen
  next =>
    exact (congrArg (HashWrites way st) (storeLeft_paired _ _)).mpr
      (openPosition_writes ways fresh fill.leverage_pos (.inl rfl))

end Fill

/-- A fill call leaves the hashes alone or writes them in the ways of a fill
that its arguments and its pending order determine. -/
theorem atomicFillOrder_ways {st : Store} {args : FillArgs} (existing old : List PositionId)
    (hashes : st.HashesOnly) (fresh : st.hash args.positionUuid = none)
    (way : Fill → PositionId → Option PositionHash → PositionHash → Prop)
    (ways : ∀ order el, ∀ accepted : FillAccepted st args order el,
      FillWays (Fill.ofArgs args order el accepted.leverage_pos)
        (way (Fill.ofArgs args order el accepted.leverage_pos))) :
    (atomicFillOrder st args existing old).store = st ∨
    ∃ order el, ∃ accepted : FillAccepted st args order el,
      HashWrites (way (Fill.ofArgs args order el accepted.leverage_pos)) st
        (atomicFillOrder st args existing old).store := by
  rcases atomicFillOrder_left st args existing old with same | ⟨order, el, accepted, left⟩
  · exact .inl same
  · refine .inr ⟨order, el, accepted, ?_⟩
    have marked : (st.markFilled args order).HashesOnly := hashes
    have unused : (st.markFilled args order).hash
      (Fill.ofArgs args order el accepted.leverage_pos).positionUuid = none := fresh
    have writes := Fill.applyToPositions_writes (ways order el accepted) existing old marked unused
    rw [left]
    exact ⟨writes.old, writes.hash⟩

theorem atomicFillOrder_writes {st : Store} {args : FillArgs} (existing old : List PositionId)
    (hashes : st.HashesOnly) (fresh : st.hash args.positionUuid = none) :
    (atomicFillOrder st args existing old).store = st ∨
    ∃ order el, ∃ accepted : FillAccepted st args order el,
      HashWrites (FillWrite (Fill.ofArgs args order el accepted.leverage_pos)) st
        (atomicFillOrder st args existing old).store :=
  atomicFillOrder_ways existing old hashes fresh FillWrite fun _ _ _ => fillWays_fillWrite _

/-- A position that a successful fill reports as closed is closed. -/
theorem atomicFillOrder_closed {st after : Store} {args : FillArgs} {existing old : List PositionId}
    {result : FillResult} {p : PositionId} (hashes : st.HashesOnly)
    (fresh : st.hash args.positionUuid = none)
    (filled : atomicFillOrder st args existing old = .success after result)
    (closedId : result.closedPositionId = some p) :
    ∃ h, after.hash p = some h ∧ h.status = some .CLOSED := by
  obtain ⟨order, el, accepted, applied⟩ := atomicFillOrder_success filled
  have marked : (st.markFilled args order).HashesOnly := hashes
  rw [Fill.applyToPositions_eq marked] at applied
  split at applied
  next =>
    unfold Fill.addTo at applied
    dsimp only at applied
    split at applied <;> cases applied
    cases closedId
  next q h nets =>
    obtain ⟨_, stored, _⟩ := Order.target_net nets
    exact Fill.netAgainst_closed fresh stored applied closedId
  next =>
    unfold Fill.create at applied
    split at applied <;> cases applied
    cases closedId

/-- A close writes the whole hash of a full close or, when less than the size
is closed, the one of a partial close. -/
theorem atomicClosePosition_ways (st : Store) (args : CloseArgs)
    {way : PositionId → Option PositionHash → PositionHash → Prop}
    (full : ∀ h, h.status = some .OPEN →
      args.actualCloseSize (h.size.getD 0) = h.size.getD 0 →
      way args.positionId (some h) (args.fullHash h))
    (part : ∀ h, h.status = some .OPEN → args.actualCloseSize (h.size.getD 0) < h.size.getD 0 →
      way args.positionId (some h) (args.partialHash h)) :
    HashWrites way st (atomicClosePosition st args).store := by
  unfold atomicClosePosition
  dsimp only
  split
  next => exact .refl
  next h stored =>
    split_ifs with shut exceeds whole
    · exact .refl
    · exact .refl
    · have closed : HashWrites way st (st.hset args.positionId args.fullHash) := by
        refine .hset ?_
        rw [stored]
        exact full h (not_not.mp shut) ((args.actualCloseSize_le _).antisymm whole)
      split
      next => exact closed
      next => exact (Store.sameButIndex_unindex ..).hashWrites closed
    · refine .hset ?_
      rw [stored]
      exact part h (not_not.mp shut) (not_le.mp whole)

theorem atomicClosePosition_writes (st : Store) (args : CloseArgs) :
    HashWrites (CloseWrite args) st (atomicClosePosition st args).store :=
  atomicClosePosition_ways st args (fun h isOpen _ => .full h isOpen)
    fun h isOpen part => .part h isOpen part

theorem atomicReopenPosition_writes (st : Store) (p : PositionId) (timestampMs : Millis) :
    HashWrites (ReopenWrite p timestampMs) st (atomicReopenPosition st p timestampMs).store := by
  unfold atomicReopenPosition
  split
  next => exact .refl
  next h stored =>
    split_ifs with closed noSize
    · exact .refl
    · split
      next symbol _ _ _ =>
        have written : HashWrites (ReopenWrite p timestampMs) st
            (st.hset p (·.reopened timestampMs)) := by
          refine .hset ?_
          rw [stored]
          exact .reopened h closed noSize
        have left := (Store.sameButIndex_zadd (st.hset p (·.reopened timestampMs)) .posOpen symbol p
          (h.entryPrice.getD 0)).trans
          (Store.sameButIndex_zaddStoredLevels _ symbol p h.sl h.tp)
        dsimp only
        split <;> rename_i outcome <;> rw [outcome] at left
        · exact left.hashWrites written
        · exact left.hashWrites written
      next => exact .refl
    · exact .refl

theorem atomicReopenPosition_opens {st after : Store} {p : PositionId} {timestampMs : Millis}
    {result : ReopenResult}
    (reopened : atomicReopenPosition st p timestampMs = .success after result) :
    ∃ h, after.hash p = some h ∧ h.status = some .OPEN := by
  unfold atomicReopenPosition at reopened
  split at reopened
  next => cases reopened
  next h stored =>
    split_ifs at reopened
    split at reopened
    next symbol _ _ _ =>
      dsimp only at reopened
      have left := (Store.sameButIndex_zadd (st.hset p (·.reopened timestampMs)) .posOpen symbol p
        (h.entryPrice.getD 0)).trans (Store.sameButIndex_zaddStoredLevels _ symbol p h.sl h.tp)
      split at reopened
      next => cases reopened
      next outcome =>
        cases reopened
        rw [outcome] at left
        exact ⟨_, (left.hash_eq p).trans (Store.hash_hset_self ..), rfl⟩
    next => cases reopened

theorem atomicReopenPositionWithParams_opens {st after : Store} {p : PositionId}
    {timestampMs : Millis} {params : ParamOverrides} {result : ReopenResult}
    (reopened : atomicReopenPositionWithParams st p timestampMs params = .success after result) :
    ∃ h, after.hash p = some h ∧ h.status = some .OPEN := by
  unfold atomicReopenPositionWithParams at reopened
  split at reopened
  next => cases reopened
  next h stored =>
    dsimp only at reopened
    split_ifs at reopened
    split at reopened
    next =>
      cases reopened
      refine ⟨_, (Store.hash_zadd ..).trans (Store.hash_replaceLevels_self ..), ?_⟩
      rw [Store.hash_hset_self]
      rfl
    next => cases reopened

theorem atomicReopenPositionWithParams_writes (st : Store) (p : PositionId) (timestampMs : Millis)
    (params : ParamOverrides) : HashWrites (ReopenWithWrite p timestampMs params) st
      (atomicReopenPositionWithParams st p timestampMs params).store := by
  unfold atomicReopenPositionWithParams
  split
  next => exact .refl
  next h stored =>
    dsimp only
    split_ifs with closed noSize
    · exact .refl
    · split
      next =>
        refine .of_only stored ?_ (fun q differ => ?_) ?_ (.reopened h closed noSize)
        · cases params.sl <;> cases params.tp <;> rfl
        · simp only [ScriptOutcome.store, Store.hash_zadd]
          rw [Store.hash_replaceLevels_ne _ _ _ _ _ _ differ, Store.hash_hset_ne _ _ _ _ differ]
        · simp only [ScriptOutcome.store, Store.hash_zadd]
          rw [Store.hash_replaceLevels_self, Store.hash_hset_self, stored]
          rfl
      next => exact .refl
    · exact .refl

/-- The size and the entry price the update script writes. -/
def PositionHash.updatedSize (h : PositionHash) (params : ParamOverrides) : ℚ :=
  positiveOr params.size (h.size.getD 0)

def PositionHash.updatedEntry (h : PositionHash) (params : ParamOverrides) : ℚ :=
  positiveOr params.entryPrice h.entryOrAvg

/-- The update writes the size and the entry price it is asked for, if they
are positive, and else the ones the hash has. -/
theorem atomicUpdatePositionParams_ways (st : Store) (p : PositionId) (timestampMs : Millis)
    (params : ParamOverrides) {way : PositionId → Option PositionHash → PositionHash → Prop}
    (resized : ∀ h, h.status = some .OPEN → h.leverage.filter (0 < ·) = none →
      way p (some h)
        (h.resized timestampMs (h.updatedSize params) (h.updatedEntry params)))
    (updated : ∀ h leverage, h.status = some .OPEN →
      h.leverage.filter (0 < ·) = some leverage →
      way p (some h)
        ({ h.resized timestampMs (h.updatedSize params) (h.updatedEntry params) with
          margin := some (h.updatedSize params * h.updatedEntry params / leverage)
        }.withLevels params)) :
    HashWrites way st (atomicUpdatePositionParams st p timestampMs params).store := by
  unfold atomicUpdatePositionParams
  split
  next => exact .refl
  next h stored =>
    split_ifs with shut
    · exact .refl
    · have isOpen := not_not.mp shut
      split
      next =>
        dsimp only
        split
        next noLeverage =>
          refine .hset ?_
          rw [stored]
          exact resized h isOpen noLeverage
        next leverage hasLeverage =>
          refine .of_only stored ?_ (fun q differ => ?_) ?_
            (updated h leverage isOpen hasLeverage)
          · cases params.sl <;> cases params.tp <;> rfl
          · simp only [ScriptOutcome.store, Store.hash_zadd]
            rw [Store.hash_replaceLevels_ne _ _ _ _ _ _ differ, Store.hash_hset_ne _ _ _ _ differ,
              Store.hash_hset_ne _ _ _ _ differ]
          · simp only [ScriptOutcome.store, Store.hash_zadd]
            rw [Store.hash_replaceLevels_self, Store.hash_hset_self, Store.hash_hset_self, stored]
            rfl
      next => exact .refl

theorem atomicUpdatePositionParams_writes (st : Store) (p : PositionId) (timestampMs : Millis)
    (params : ParamOverrides) : HashWrites (UpdateWrite p timestampMs params) st
      (atomicUpdatePositionParams st p timestampMs params).store :=
  atomicUpdatePositionParams_ways st p timestampMs params
    (fun h isOpen noLeverage => .resized h isOpen _ _ noLeverage)
    fun h leverage isOpen hasLeverage => .updated h isOpen _ _ leverage hasLeverage

end TradingPlatform
