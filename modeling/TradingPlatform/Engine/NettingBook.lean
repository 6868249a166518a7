import TradingPlatform.Engine.IndexInvariant

namespace TradingPlatform

open StepRuns

namespace Store

/-- The OPEN positions of a user on a symbol. -/
def openPositions (st : Store) (u : UserId) (s : Symbol) : List PositionId :=
  st.positions.keys.filter fun p =>
    decide (∃ h ∈ st.hash p, h.userId = some u ∧ h.IsOpenOn s)

/-- At most one OPEN position of this user and symbol. -/
def OneOpenPosition (st : Store) (u : UserId) (s : Symbol) : Prop :=
  ∀ p ∈ st.openPositions u s, ∀ q ∈ st.openPositions u s, p = q

instance (st : Store) (u : UserId) (s : Symbol) : Decidable (st.OneOpenPosition u s) :=
  inferInstanceAs (Decidable (∀ p ∈ st.openPositions u s, _))

theorem mem_openPositions {st : Store} {u : UserId} {s : Symbol} {p : PositionId} :
    p ∈ st.openPositions u s ↔ ∃ h, st.hash p = some h ∧ h.userId = some u ∧ h.IsOpenOn s := by
  unfold openPositions
  rw [List.mem_filter, decide_eq_true_eq]
  constructor
  · rintro ⟨-, h, stored, holds⟩
    exact ⟨h, stored, holds⟩
  · rintro ⟨h, stored, holds⟩
    have isKey : p ∈ st.positions := AList.lookup_isSome.mp (Option.isSome_of_eq_some stored)
    exact ⟨isKey, h, stored, holds⟩

/-- The script reopens this position only while the user has no other one
open on its symbol. -/
def ReopensAlone (st : Store) (u : UserId) (p : PositionId) (restoreSize : PositionHash → ℚ) :
    Prop :=
  ∀ h ∈ st.hash p, h.userId = some u → (∃ status ∈ h.status, status.Closed) → restoreSize h ≠ 0 →
    ∀ s ∈ h.symbol, st.openPositions u s = []

instance (st : Store) (u : UserId) (p : PositionId) (restoreSize : PositionHash → ℚ) :
    Decidable (st.ReopensAlone u p restoreSize) := by
  unfold ReopensAlone
  infer_instance

/-- The calls after which the user still has one position per symbol: a
reopening is the only open position of its symbol, and a fill finds the open
position of its symbol in the user's set. -/
def KeepsOnePosition (u : UserId) (st : Store) : ScriptCall → Prop
  | .atomicFillOrder args _ _ => ∀ order ∈ st.orders args.orderId, order.userId = u →
      args.Pass order → ∀ p ∈ st.openPositions u order.symbol, p ∈ st.userPositions u
  | .atomicReopenPosition p _ => st.ReopensAlone u p PositionHash.restoreSize
  | .atomicReopenPositionWithParams p _ params =>
    st.ReopensAlone u p fun h => positiveOr params.size h.restoreSize
  | .placeOrder _ _ => True
  | .atomicCancelOrder _ _ => True
  | .atomicClosePosition _ => True
  | .atomicUpdatePositionParams _ _ _ => True

instance (u : UserId) (st : Store) : DecidablePred (KeepsOnePosition u st)
  | .atomicFillOrder args _ _ => inferInstanceAs (Decidable (∀ order ∈ st.orders args.orderId, _))
  | .atomicReopenPosition p _ =>
    inferInstanceAs (Decidable (st.ReopensAlone u p PositionHash.restoreSize))
  | .atomicReopenPositionWithParams p _ params =>
    inferInstanceAs (Decidable (st.ReopensAlone u p fun h => positiveOr params.size h.restoreSize))
  | .placeOrder _ _ => inferInstanceAs (Decidable True)
  | .atomicCancelOrder _ _ => inferInstanceAs (Decidable True)
  | .atomicClosePosition _ => inferInstanceAs (Decidable True)
  | .atomicUpdatePositionParams _ _ _ => inferInstanceAs (Decidable True)

/-- The invariant of a netting user's book. -/
structure NettingBook (u : UserId) (st : Store) : Prop where
  hashesOnly : st.HashesOnly
  netting : ∀ o, ∀ order ∈ st.orders o, order.userId = u → isNetting order.accountType
  listed : ∀ p ∈ st.userPositions u, ∃ h, st.hash p = some h ∧ h.userId = some u
  sided : ∀ p, ∀ h ∈ st.hash p, ∃ side, h.side = some side
  one : ∀ s, st.OneOpenPosition u s

section Steps
variable {u : UserId} {before after : Store} {p : PositionId} {h : PositionHash}

/-- A step at one position keeps the book when that position, if it is open
afterwards, is the only one. -/
theorem NettingBook.touch (sound : before.NettingBook u)
    (old : after.oldPositions = before.oldPositions)
    (orders : after.orderRecords = before.orderRecords)
    (others : ∀ q, q ≠ p → after.hash q = before.hash q) (stored : after.hash p = some h)
    (users : ∀ q ∈ after.userPositions u, q ∈ before.userPositions u ∨ q = p)
    (owner : p ∈ after.userPositions u → h.userId = some u) (sided : ∃ side, h.side = some side)
    (alone : ∀ s, h.userId = some u → h.IsOpenOn s → ∀ q ∈ before.openPositions u s, q = p) :
    after.NettingBook u where
  hashesOnly q := by rw [old]; exact sound.hashesOnly q
  netting o order found := by
    have found : before.orders o = some order := by
      rw [← found, Store.orders, Store.orders, orders]
    exact sound.netting o order found
  listed q member := by
    by_cases same : q = p
    · subst same
      exact ⟨h, stored, owner member⟩
    · obtain ⟨g, found, owns⟩ := sound.listed q ((users q member).resolve_right same)
      exact ⟨g, (others q same).trans found, owns⟩
  sided q g found := by
    by_cases same : q = p
    · subst same
      cases Option.some.inj (stored.symm.trans found)
      exact sided
    · exact sound.sided q g ((others q same).symm.trans found)
  one s := by
    have earlier : ∀ q ∈ after.openPositions u s, q ≠ p → q ∈ before.openPositions u s := by
      intro q member differ
      obtain ⟨g, found, holds⟩ := mem_openPositions.mp member
      exact mem_openPositions.mpr ⟨g, (others q differ).symm.trans found, holds⟩
    have only : p ∈ after.openPositions u s → ∀ q ∈ after.openPositions u s, q = p := by
      intro member q other
      by_contra differ
      obtain ⟨g, found, owns, isOpen⟩ := mem_openPositions.mp member
      cases Option.some.inj (stored.symm.trans found)
      exact differ (alone s owns isOpen q (earlier q other differ))
    intro q first r second
    by_cases isFirst : q = p
    · subst isFirst
      exact (only first r second).symm
    · by_cases isSecond : r = p
      · subst isSecond
        exact only second q first
      · exact sound.one s q (earlier q first isFirst) r (earlier r second isSecond)

/-- A position that was already open stays the only one. -/
theorem NettingBook.alone_of_open (sound : before.NettingBook u) {g : PositionHash} {s : Symbol}
    (stored : before.hash p = some g) (owns : g.userId = some u) (isOpen : g.IsOpenOn s) :
    ∀ q ∈ before.openPositions u s, q = p :=
  fun q member => sound.one s q member p (mem_openPositions.mpr ⟨g, stored, owns, isOpen⟩)

theorem NettingBook.sameButIndex (sound : before.NettingBook u)
    (same : before.SameButIndex after) : after.NettingBook u := by
  rw [same]
  exact ⟨sound.hashesOnly, sound.netting, sound.listed, sound.sided, sound.one⟩

theorem NettingBook.hset (sound : before.NettingBook u) {g : PositionHash}
    {write : PositionHash → PositionHash} (stored : before.hash p = some g)
    (owner : (write g).userId = g.userId) (sided : ∃ side, (write g).side = some side)
    (alone : ∀ s, (write g).userId = some u → (write g).IsOpenOn s →
      ∀ q ∈ before.openPositions u s, q = p) : (before.hset p write).NettingBook u := by
  have written : (before.hset p write).hash p = some (write g) := by
    rw [hash_hset_self, stored, Option.getD_some]
  refine sound.touch rfl rfl (fun q differ => hash_hset_ne _ p q _ differ) written
    (fun q member => .inl member) (fun member => ?_) sided alone
  obtain ⟨other, found, owns⟩ := sound.listed p member
  cases Option.some.inj (stored.symm.trans found)
  exact owner.trans owns

/-- The write keeps whose position it is, its symbol and side, and does not
open it. -/
structure Holds (g h : PositionHash) : Prop where
  userId : h.userId = g.userId
  symbol : h.symbol = g.symbol
  side : h.side = g.side
  status : h.status = some .OPEN → g.status = some .OPEN

theorem NettingBook.rewrite (sound : before.NettingBook u) {g : PositionHash}
    (stored : before.hash p = some g) (write : PositionHash → PositionHash)
    (holds : Holds g (write g)) : (before.hset p write).NettingBook u := by
  refine sound.hset stored holds.userId ?_ fun s owns isOpen => ?_
  · rw [holds.side]
    exact sound.sided p g stored
  · exact sound.alone_of_open stored (holds.userId ▸ owns)
      ⟨holds.symbol ▸ isOpen.1, holds.status isOpen.2⟩

theorem NettingBook.srem (sound : before.NettingBook u) (v : UserId) (q : PositionId) :
    (before.srem v q).NettingBook u where
  hashesOnly := sound.hashesOnly
  netting := sound.netting
  listed r member := sound.listed r ((mem_srem ..).mp member).2
  sided := sound.sided
  one := sound.one

theorem NettingBook.setLevel (sound : before.NettingBook u) (stored : before.hash p = some h)
    (k : PriceIndex) (s : Symbol) (write : LevelText → PositionHash → PositionHash)
    (holds : ∀ x, Holds h (write x h)) (level : Option ℚ) :
    (before.setLevel k s p write level).NettingBook u := by
  cases level with
  | none => exact sound
  | some x => exact (sound.rewrite stored _ (holds (.num x))).sameButIndex (sameButIndex_zadd ..)

theorem hash_setLevel (stored : before.hash p = some h) (k : PriceIndex) (s : Symbol)
    (write : LevelText → PositionHash → PositionHash) (level : Option ℚ) :
    ∃ g, (before.setLevel k s p write level).hash p = some g := by
  cases level with
  | none => exact ⟨h, stored⟩
  | some x => exact ⟨_, (hash_zadd ..).trans (hash_hset_self ..)⟩

theorem NettingBook.replaceLevels (sound : before.NettingBook u) (stored : before.hash p = some h)
    (s : Symbol) (sl tp : Option ℚ) : (before.replaceLevels s p sl tp).NettingBook u := by
  have removed : ((before.zrem .posSl s p).zrem .posTp s p).NettingBook u :=
    sound.sameButIndex rfl
  have cleared := removed.rewrite stored (fun h => { h with sl := none, tp := none })
    ⟨rfl, rfl, rfl, id⟩
  have first := cleared.setLevel (hash_hset_self ..) .posSl s
    (fun level h => { h with sl := some level }) (fun _ => ⟨rfl, rfl, rfl, id⟩) sl
  obtain ⟨g, written⟩ := hash_setLevel (hash_hset_self ((before.zrem .posSl s p).zrem .posTp s p) p
    fun h => { h with sl := none, tp := none }) .posSl s
    (fun level h => { h with sl := some level }) sl
  exact first.setLevel written .posTp s (fun level h => { h with tp := some level })
    (fun _ => ⟨rfl, rfl, rfl, id⟩) tp

end Steps

end Store

section Fills
variable {u : UserId} {st : Store} {fill : Fill} {p : PositionId} {h : PositionHash}

theorem Fill.addTo_nettingBook (sound : st.NettingBook u) (stored : st.hash p = some h) :
    (storeLeft Prod.fst (addTo st fill p h)).NettingBook u := by
  have written : (merged st fill p h).NettingBook u :=
    sound.rewrite stored _ ⟨rfl, rfl, rfl, id⟩
  exact written.sameButIndex (addTo_sameButIndex st fill p h)

theorem Fill.closeNetted_nettingBook (sound : st.NettingBook u) (stored : st.hash p = some h)
    (newRealized : ℚ) : (closeNetted st fill p newRealized).NettingBook u := by
  have written : (st.hset p (fill.closedHash newRealized)).NettingBook u :=
    sound.rewrite stored _ ⟨rfl, rfl, rfl, fun isOpen => by cases isOpen⟩
  exact (written.srem fill.order.userId p).sameButIndex (Store.sameButIndex_unindex ..)

/-- A new position keeps the book when the user had none open on its symbol. -/
theorem Fill.openPosition_nettingBook {size leverage : ℚ} (sound : st.NettingBook u)
    (fresh : st.hash fill.positionUuid = none)
    (alone : fill.order.userId = u → st.openPositions u fill.order.symbol = []) :
    (storeLeft id (openPosition st fill size leverage)).NettingBook u := by
  have written : (opened st fill size leverage).NettingBook u := by
    have read : (opened st fill size leverage).hash fill.positionUuid =
        some (fill.openHash size leverage {}) := by
      rw [opened, Store.hash_sadd, Store.hash_hset_self, fresh, Option.getD_none]
    refine sound.touch rfl rfl (fun q differ => Store.hash_hset_ne _ _ _ _ differ) read ?_ ?_
      ⟨_, rfl⟩ ?_
    · intro q member
      rcases (Store.mem_sadd ..).mp member with ⟨-, same⟩ | earlier
      · exact .inr same
      · exact .inl earlier
    · intro member
      rcases (Store.mem_sadd ..).mp member with ⟨owns, -⟩ | earlier
      · exact congrArg some owns.symm
      · obtain ⟨g, found, _⟩ := sound.listed _ earlier
        cases fresh.symm.trans found
    · intro s owns isOpen q member
      have owner : fill.order.userId = u := Option.some.inj owns
      have onSymbol : fill.order.symbol = s := Option.some.inj isOpen.1
      rw [← onSymbol, alone owner] at member
      cases member
  exact written.sameButIndex (openPosition_sameButIndex st fill size leverage)

/-- Netting leaves the netted position open, closes it, or replaces it by one
on the other side. -/
theorem Fill.netAgainst_nettingBook (sound : st.NettingBook u)
    (fresh : st.hash fill.positionUuid = none) (stored : st.hash p = some h)
    (isOpen : h.IsOpenOn fill.order.symbol)
    (owner : fill.order.userId = u → h.userId = some u) :
    (storeLeft Prod.fst (netAgainst st fill p h)).NettingBook u := by
  unfold netAgainst
  dsimp only
  generalize h.realizedPnl.getD 0 + _ = newRealized
  have closed : (closeNetted st fill p newRealized).NettingBook u :=
    closeNetted_nettingBook sound stored newRealized
  split_ifs with remains exact
  · have written := sound.rewrite stored (fill.reducedHash (h.size.getD 0 - fill.fillSize)
      (h.entryPrice.getD 0) (fill.posLevOrFill h.leverage .absent) newRealized) ⟨rfl, rfl, rfl, id⟩
    exact written.sameButIndex (Store.sameButIndex_zadd ..)
  · exact closed
  · have differ : fill.positionUuid ≠ p := by
      rintro same
      rw [same, stored] at fresh
      cases fresh
    have read : (closeNetted st fill p newRealized).hash p =
        some (fill.closedHash newRealized h) := by
      rw [closeNetted, Store.hash_unindex, Store.hash_srem, Store.hash_hset_self, stored,
        Option.getD_some]
    have others : ∀ q, q ≠ p → (closeNetted st fill p newRealized).hash q = st.hash q := by
      intro q other
      rw [closeNetted, Store.hash_unindex, Store.hash_srem, Store.hash_hset_ne _ _ _ _ other]
    refine (congrArg (Store.NettingBook u) (storeLeft_paired _ _)).mpr
      (openPosition_nettingBook closed ((others _ differ).trans fresh) fun owns => ?_)
    refine List.eq_nil_iff_forall_not_mem.mpr fun q member => ?_
    obtain ⟨g, found, isOwner, stillOpen⟩ := Store.mem_openPositions.mp member
    by_cases same : q = p
    · subst same
      cases Option.some.inj (read.symm.trans found)
      cases stillOpen.2
    · have before : q ∈ st.openPositions u fill.order.symbol :=
        Store.mem_openPositions.mpr ⟨g, (others q same).symm.trans found, isOwner, stillOpen⟩
      exact same (sound.alone_of_open stored (owner owns) isOpen q before)

theorem Fill.applyToPositions_nettingBook {existing old : List PositionId}
    (sound : st.NettingBook u) (fresh : st.hash fill.positionUuid = none)
    (netting : fill.order.userId = u → isNetting fill.order.accountType)
    (listing : fill.order.userId = u → ∀ p, p ∈ existing ↔ p ∈ st.userPositions u)
    (found : fill.order.userId = u →
      ∀ p ∈ st.openPositions u fill.order.symbol, p ∈ st.userPositions u) :
    (storeLeft Prod.fst (applyToPositions st fill existing old)).NettingBook u := by
  rw [applyToPositions_eq sound.hashesOnly]
  cases target : fill.order.target st existing with
  | merge p h =>
    obtain ⟨_, stored, _⟩ := Order.target_merge target
    exact addTo_nettingBook sound stored
  | net p h =>
    obtain ⟨member, stored, isOpen, _⟩ := Order.target_net target
    refine netAgainst_nettingBook sound fresh stored isOpen fun owns => ?_
    obtain ⟨g, other, isOwner⟩ := sound.listed p ((listing owns p).mp member)
    cases Option.some.inj (stored.symm.trans other)
    exact isOwner
  | fresh =>
    refine (congrArg (Store.NettingBook u) (storeLeft_paired _ _)).mpr
      (openPosition_nettingBook sound fresh fun owns => ?_)
    refine List.eq_nil_iff_forall_not_mem.mpr fun p member => ?_
    have inSet := (listing owns p).mpr (found owns p member)
    obtain ⟨h, stored, _, isOpen⟩ := Store.mem_openPositions.mp member
    exact Order.not_fresh_of_open (netting owns) inSet stored isOpen
      (sound.sided p h stored) target

end Fills

section Scripts
variable {u : UserId} {st : Store}

theorem atomicClosePosition_nettingBook (sound : st.NettingBook u) (args : CloseArgs) :
    (atomicClosePosition st args).store.NettingBook u := by
  unfold atomicClosePosition
  dsimp only
  split
  next => exact sound
  next h stored =>
    have shut : (args.fullHash h).status ≠ some .OPEN := by
      unfold CloseArgs.fullHash CloseArgs.fullCloseStatus
      dsimp only
      split <;> decide
    have closed := sound.rewrite stored args.fullHash
      ⟨rfl, rfl, rfl, fun isOpen => absurd isOpen shut⟩
    split_ifs
    · exact sound
    · exact sound
    · split
      next => exact closed
      next => exact closed.sameButIndex (Store.sameButIndex_unindex ..)
    · exact sound.rewrite stored args.partialHash ⟨rfl, rfl, rfl, id⟩

theorem atomicReopenPosition_nettingBook (sound : st.NettingBook u) (p : PositionId)
    (timestampMs : Millis) (alone : st.ReopensAlone u p PositionHash.restoreSize) :
    (atomicReopenPosition st p timestampMs).store.NettingBook u := by
  unfold atomicReopenPosition
  split
  next => exact sound
  next h stored =>
    split_ifs with closed noSize
    · exact sound
    · split
      next symbol owner hasSymbol hasOwner =>
        have reopened : (st.hset p (·.reopened timestampMs)).NettingBook u := by
          refine sound.hset stored rfl (sound.sided p h stored) fun s owns isOpen q member => ?_
          rw [alone h stored owns closed noSize s isOpen.1] at member
          cases member
        have left := (Store.sameButIndex_zadd (st.hset p (·.reopened timestampMs)) .posOpen symbol p
          (h.entryPrice.getD 0)).trans (Store.sameButIndex_zaddStoredLevels _ symbol p h.sl h.tp)
        dsimp only
        split <;> rename_i outcome <;> rw [outcome] at left
        · exact reopened.sameButIndex left
        · exact reopened.sameButIndex left
      next => exact sound
    · exact sound

theorem atomicReopenPositionWithParams_nettingBook (sound : st.NettingBook u) (p : PositionId)
    (timestampMs : Millis) (params : ParamOverrides)
    (alone : st.ReopensAlone u p fun h => positiveOr params.size h.restoreSize) :
    (atomicReopenPositionWithParams st p timestampMs params).store.NettingBook u := by
  unfold atomicReopenPositionWithParams
  dsimp only
  split
  next => exact sound
  next h stored =>
    split_ifs with closed noSize
    · exact sound
    · split
      next symbol owner hasSymbol hasOwner =>
        have reopened : (st.hset p (·.reopenedWith timestampMs params)).NettingBook u := by
          refine sound.hset stored rfl ⟨_, rfl⟩ fun s owns isOpen q member => ?_
          rw [alone h stored owns closed noSize s isOpen.1] at member
          cases member
        exact (reopened.replaceLevels (Store.hash_hset_self ..) symbol params.sl
          params.tp).sameButIndex (Store.sameButIndex_zadd ..)
      next => exact sound
    · exact sound

theorem atomicUpdatePositionParams_nettingBook (sound : st.NettingBook u) (p : PositionId)
    (timestampMs : Millis) (params : ParamOverrides) :
    (atomicUpdatePositionParams st p timestampMs params).store.NettingBook u := by
  unfold atomicUpdatePositionParams
  dsimp only
  split
  next => exact sound
  next h stored =>
    split_ifs
    · exact sound
    · split
      next symbol owner hasSymbol hasOwner =>
        generalize positiveOr params.size (h.size.getD 0) = newSize
        generalize positiveOr params.entryPrice h.entryOrAvg = newEntry
        have resized := sound.rewrite stored (·.resized timestampMs newSize newEntry)
          ⟨rfl, rfl, rfl, id⟩
        split
        next => exact resized
        next leverage _ =>
          have margined := resized.rewrite (Store.hash_hset_self ..)
            (fun h => { h with margin := some (newSize * newEntry / leverage) }) ⟨rfl, rfl, rfl, id⟩
          exact (margined.replaceLevels (Store.hash_hset_self ..) symbol params.sl
            params.tp).sameButIndex (Store.sameButIndex_zadd ..)
      next => exact sound

/-- A stored order keeps its user and account type. -/
theorem Store.NettingBook.setOrder (sound : st.NettingBook u) (o : OrderId) {order : Order}
    (netting : order.userId = u → isNetting order.accountType) :
    (st.setOrder o order).NettingBook u where
  hashesOnly := sound.hashesOnly
  netting r other stored owns := by
    rw [Store.orders_setOrder] at stored
    split at stored
    next =>
      cases stored
      exact netting owns
    next => exact sound.netting r other stored owns
  listed := sound.listed
  sided := sound.sided
  one := sound.one

theorem Store.NettingBook.zremPending (sound : st.NettingBook u) (s : Symbol) (o : OrderId) :
    (st.zremPending s o).NettingBook u :=
  ⟨sound.hashesOnly, sound.netting, sound.listed, sound.sided, sound.one⟩

theorem atomicCancelOrder_nettingBook (sound : st.NettingBook u) (o : OrderId)
    (timestampMs : Millis) : (atomicCancelOrder st o timestampMs).2.NettingBook u := by
  unfold atomicCancelOrder
  split
  next => exact sound
  next order stored =>
    split_ifs
    · exact sound
    · have canceled : (st.setOrder o (order.canceled timestampMs)).NettingBook u :=
        sound.setOrder o (sound.netting o order stored)
      exact canceled.zremPending order.symbol o

theorem atomicFillOrder_nettingBook (sound : st.NettingBook u) {args : FillArgs}
    {existing old : List PositionId} (fresh : st.hash args.positionUuid = none)
    (reads : ∀ order ∈ st.orders args.orderId, Smembers existing (st.userPositions order.userId))
    (keeps : st.KeepsOnePosition u (.atomicFillOrder args existing old)) :
    (atomicFillOrder st args existing old).store.NettingBook u := by
  rcases atomicFillOrder_left st args existing old with same | ⟨order, el, accepted, left⟩
  · rw [same]
    exact sound
  · rw [left]
    have filled : (st.setOrder args.orderId (order.filled args)).NettingBook u :=
      sound.setOrder args.orderId (sound.netting args.orderId order accepted.stored)
    have marked : (st.markFilled args order).NettingBook u :=
      filled.zremPending order.symbol args.orderId
    have unused : (st.markFilled args order).hash
      (Fill.ofArgs args order el accepted.leverage_pos).positionUuid = none := fresh
    refine Fill.applyToPositions_nettingBook marked unused
      (sound.netting args.orderId order accepted.stored) (fun owns p => ?_) fun owns => ?_
    · have owner : order.userId = u := owns
      have listing := (reads order accepted.stored).mem_iff (p := p)
      rw [owner] at listing
      exact listing
    · exact keeps order accepted.stored owns accepted.pass

end Scripts

namespace Store

theorem call_nettingBook {u : UserId} {before after : Store} {call : ScriptCall}
    (netting : ∀ o order, call = .placeOrder o order → order.userId = u →
      isNetting order.accountType)
    (keeps : before.KeepsOnePosition u call) (taken : before.call call = some after)
    (sound : before.NettingBook u) : after.NettingBook u := by
  cases call with
  | placeOrder o order =>
    cases taken
    exact sound.setOrder o (netting o order rfl)
  | atomicFillOrder args existing old =>
    simp only [Store.call] at taken
    split_ifs at taken with reads
    cases taken
    exact atomicFillOrder_nettingBook sound reads.1 (fun order stored => (reads.2 order stored).1)
      keeps
  | atomicCancelOrder o timestampMs =>
    cases taken
    exact atomicCancelOrder_nettingBook sound o timestampMs
  | atomicClosePosition args =>
    cases taken
    exact atomicClosePosition_nettingBook sound args
  | atomicReopenPosition p timestampMs =>
    cases taken
    exact atomicReopenPosition_nettingBook sound p timestampMs keeps
  | atomicReopenPositionWithParams p timestampMs params =>
    cases taken
    exact atomicReopenPositionWithParams_nettingBook sound p timestampMs params keeps
  | atomicUpdatePositionParams p timestampMs params =>
    cases taken
    exact atomicUpdatePositionParams_nettingBook sound p timestampMs params

theorem nettingBook_empty (u : UserId) : empty.NettingBook u where
  hashesOnly _ := rfl
  netting o order stored := by cases stored
  listed p member := by cases member
  sided p h stored := by cases stored
  one s p member := by
    obtain ⟨h, stored, _⟩ := mem_openPositions.mp member
    cases stored

/-- All orders of the user are netting orders. -/
def NettingOrders (u : UserId) (calls : List ScriptCall) : Prop :=
  ∀ o order, .placeOrder o order ∈ calls → order.userId = u → isNetting order.accountType

/-- A netting user has at most one open position per symbol, where reopenings
and fills find the user's open position. -/
theorem oneOpenPosition_of_run {u : UserId} {calls : List ScriptCall} {st : Store}
    (netting : NettingOrders u calls)
    (run : GuardedRun Store.call (KeepsOnePosition u) .empty calls st) (s : Symbol) :
    st.OneOpenPosition u s := by
  let Book (calls : List ScriptCall) (st : Store) : Prop :=
    NettingOrders u calls → st.NettingBook u
  have initially : Book [] .empty := fun _ => nettingBook_empty u
  have book : Book calls st := run.invariant_labels initially fun calls before call after keeps taken
      sound netting => by
    refine call_nettingBook (fun o order placed => ?_) keeps taken
      (sound fun o order member => netting o order (List.mem_append_left _ member))
    exact netting o order (placed ▸ List.mem_append_right _ List.mem_cons_self)
  exact (book netting).one s

/-- A buy, closed and reopened while a second buy is open. -/
def reopenedBesideCalls : List ScriptCall :=
  [.placeOrder 1 (nettingBuy 1 2 8 20),
   .atomicFillOrder ⟨1, 10, 2, 1000, .uuid 1, some 100⟩ [] [],
   .atomicClosePosition
     { positionId := .uuid 1, exitPrice := 12, closeSize := 0, timestampMs := 2000 },
   .placeOrder 2 (nettingBuy 2 1 8 20),
   .atomicFillOrder ⟨2, 13, 1, 3000, .uuid 2, some 100⟩ [.uuid 1] [],
   .atomicReopenPosition (.uuid 1) 4000]

theorem not_oneOpenPosition_reopenedBeside :
    ∃ st, Run Store.call .empty reopenedBesideCalls st ∧ NettingOrders 7 reopenedBesideCalls ∧
      ¬ st.OneOpenPosition 7 "EURUSD" := by
  have evaluates : (runGuarded Store.call (fun _ _ => True) .empty reopenedBesideCalls).map
      (fun st => decide (st.OneOpenPosition 7 "EURUSD")) = some false := by decide +kernel
  obtain ⟨st, reached, two⟩ := Option.map_eq_some_iff.mp evaluates
  refine ⟨st, .of_eval reached, fun o order member _ => ?_, of_decide_eq_false two⟩
  simp only [reopenedBesideCalls, List.mem_cons, ScriptCall.placeOrder.injEq, reduceCtorEq,
    false_or, List.not_mem_nil, or_false] at member
  rcases member with ⟨rfl, rfl⟩ | ⟨rfl, rfl⟩ <;> decide

/-- The position is closed and reopened before the next fill, which flips it. -/
def reopenedAloneCalls : List ScriptCall :=
  [.placeOrder 1 (nettingBuy 1 2 8 20),
   .atomicFillOrder ⟨1, 10, 2, 1000, .uuid 1, some 100⟩ [] [],
   .atomicClosePosition
     { positionId := .uuid 1, exitPrice := 12, closeSize := 0, timestampMs := 2000 },
   .atomicReopenPosition (.uuid 1) 3000,
   .placeOrder 2 { nettingBuy 2 3 8 20 with side := .SELL },
   .atomicFillOrder ⟨2, 13, 3, 4000, .uuid 2, some 100⟩ [.uuid 1] []]

theorem oneOpenPosition_reopenedAlone : ∃ st,
    GuardedRun Store.call (KeepsOnePosition 7) .empty reopenedAloneCalls st ∧
      st.openPositions 7 "EURUSD" = [.uuid 2] ∧ st.OneOpenPosition 7 "EURUSD" := by
  have evaluates : (runGuarded Store.call (KeepsOnePosition 7) .empty reopenedAloneCalls).map
      (fun st => st.openPositions 7 "EURUSD") = some [.uuid 2] := by decide +kernel
  obtain ⟨st, reached, reads⟩ := Option.map_eq_some_iff.mp evaluates
  have run : GuardedRun Store.call (KeepsOnePosition 7) .empty reopenedAloneCalls st :=
    .of_eval reached
  have netting : NettingOrders 7 reopenedAloneCalls := by
    intro o order member _
    simp only [reopenedAloneCalls, List.mem_cons, ScriptCall.placeOrder.injEq, reduceCtorEq,
      false_or, List.not_mem_nil, or_false] at member
    rcases member with ⟨rfl, rfl⟩ | ⟨rfl, rfl⟩ <;> decide
  exact ⟨st, run, reads, oneOpenPosition_of_run netting run "EURUSD"⟩

end Store

end TradingPlatform
