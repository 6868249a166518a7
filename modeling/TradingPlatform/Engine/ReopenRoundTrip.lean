import TradingPlatform.Engine.FillEffect
import TradingPlatform.Engine.HashWrites
import TradingPlatform.Engine.IndexInvariant

namespace TradingPlatform

/-- A call that can close a position in full: the close script, or a fill that
nets against it. -/
inductive ClosingCall
  | closePosition (args : CloseArgs)
  | fillOrder (args : FillArgs) (existing old : List PositionId)

def ClosingCall.store (st : Store) : ClosingCall → Store
  | .closePosition args => (atomicClosePosition st args).store
  | .fillOrder args existing old => (atomicFillOrder st args existing old).store

/-- The replies of SMEMBERS that a fill works with are those of this store. -/
def ClosingCall.Reads (st : Store) : ClosingCall → Prop
  | .closePosition _ => True
  | .fillOrder args existing _ =>
    ∀ order ∈ st.orders args.orderId, Smembers existing (st.userPositions order.userId)

/-- The call leaves the position closed or liquidated. -/
structure ClosingCall.Closes (st : Store) (p : PositionId) (closing : ClosingCall) : Prop where
  reads : closing.Reads st
  closed : ∃ g, (closing.store st).hash p = some g ∧ ∃ status ∈ g.status, status.Closed

/-- The hash as it was before the close; only `avg_price` and `updated_at` differ. -/
def PositionHash.restored (h : PositionHash) (timestampMs : Millis) : PositionHash :=
  { h with
    avgPrice := some (h.entryPrice.getD 0)
    updatedAt := some timestampMs
    exitPrice := none
    closedAt := none }

/-- Reopening in the store `closed` succeeds and brings back the position that
`st` holds: its hash, its place in the user sets and all its scores. -/
def RestoredBy (st closed : Store) (p : PositionId) (h : PositionHash) (timestampMs : Millis) :
    Prop :=
  ∃ after result, atomicReopenPosition closed p timestampMs = .success after result ∧
    after.hash p = some (h.restored timestampMs) ∧
    (∀ u, p ∈ after.userPositions u ↔ p ∈ st.userPositions u) ∧
    ∀ k s, after.score k s p = st.score k s p

/-- The score that the reopen script gives the position in an index. -/
def PositionHash.reopenedScore (h : PositionHash) : PriceIndex → Option ℚ
  | .posOpen => some (h.entryPrice.getD 0)
  | .posSl => h.sl.bind LevelText.tonumber
  | .posTp => h.tp.bind LevelText.tonumber

/-- What a position needs for the reopen script to undo its close at a price:
the close made no profit or loss, the hash kept an earlier `original_size`
that is its size, and the indexes hold what the script will put there. -/
structure UndoneAt (st : Store) (p : PositionId) (h : PositionHash) (exitPrice : ℚ) : Prop where
  exit : exitPrice = h.entryPrice.getD 0
  size : h.size.getD 0 ≠ 0
  originalSize : h.originalSize = h.size
  realizedPnl : h.realizedPnl ≠ none
  userId : h.userId ≠ none
  sl : h.sl ≠ some .userdata
  tp : h.tp ≠ some .userdata
  indexed : ∃ symbol, h.symbol = some symbol ∧ ∀ k, st.score k symbol p = h.reopenedScore k

/-- A netting close is never undone. -/
def ClosingCall.Undone (st : Store) (p : PositionId) (h : PositionHash) : ClosingCall → Prop
  | .closePosition args => UndoneAt st p h args.exitPrice
  | .fillOrder .. => False

section Reopen
variable {st after : Store} {p : PositionId} {h : PositionHash} {timestampMs : Millis}
  {result : ReopenResult}

/-- What the reopen script asks of the hash it finds. -/
structure PositionHash.Reopenable (h : PositionHash) (symbol : Symbol) : Prop where
  closed : ∃ status ∈ h.status, status.Closed
  restores : h.restoreSize ≠ 0
  symbol : h.symbol = some symbol
  userId : h.userId ≠ none
  sl : h.sl ≠ some .userdata
  tp : h.tp ≠ some .userdata

/-- What the reopen script leaves of its position. -/
structure ReopenedTo (st after : Store) (p : PositionId) (h : PositionHash) (symbol : Symbol)
    (timestampMs : Millis) : Prop where
  hash : after.hash p = some (h.reopened timestampMs)
  userPositions : after.userPositions = st.userPositions
  score : ∀ k s, after.score k s p =
    if s = symbol then (h.reopenedScore k).or (st.score k s p) else st.score k s p

theorem Store.zaddStoredLevels_eq (st : Store) (s : Symbol) (p : PositionId)
    {sl tp : Option LevelText} (slText : sl ≠ some .userdata) (tpText : tp ≠ some .userdata) :
    st.zaddStoredLevels s p sl tp = .ok (storeLeft id (st.zaddStoredLevels s p sl tp)) := by
  rcases sl with - | - | - | x <;> rcases tp with - | - | - | y <;>
    simp_all [zaddStoredLevels, zaddStored, storeLeft]

theorem Store.zaddStoredLevels_ok (st : Store) (s : Symbol) (p : PositionId)
    {sl tp : Option LevelText} (ok : st.zaddStoredLevels s p sl tp = .ok after) :
    sl ≠ some .userdata ∧ tp ≠ some .userdata := by
  rcases sl with - | - | - | x <;> rcases tp with - | - | - | y <;>
    simp_all [zaddStoredLevels, zaddStored]

theorem reopenedTo_levels (stored : st.hash p = some h) (symbol : Symbol) (timestampMs : Millis)
    (sl : h.sl ≠ some .userdata) :
    ReopenedTo st (storeLeft id (((st.hset p (·.reopened timestampMs)).zadd .posOpen symbol p
      (h.entryPrice.getD 0)).zaddStoredLevels symbol p h.sl h.tp)) p h symbol timestampMs where
  hash := by
    rw [(Store.sameButIndex_zaddStoredLevels _ symbol p h.sl h.tp).hash_eq, Store.hash_zadd,
      Store.hash_hset_self, stored, Option.getD_some]
  userPositions := by
    rw [Store.sameButIndex_zaddStoredLevels _ symbol p h.sl h.tp]
    rfl
  score k s := by
    rw [Store.score_zaddStoredLevels, Store.score_zadd, Store.score_hset]
    by_cases here : s = symbol
    · subst here
      cases k with
      | posOpen => simp [Store.restoredLevel, PositionHash.reopenedScore]
      | posSl => simp [Store.restoredLevel, PositionHash.reopenedScore]
      | posTp => simp [Store.restoredLevel, PositionHash.reopenedScore, sl]
    · simp [here]

theorem PositionHash.Reopenable.succeeds {symbol : Symbol} (reopenable : h.Reopenable symbol)
    (stored : st.hash p = some h) (timestampMs : Millis) :
    ∃ after result, atomicReopenPosition st p timestampMs = .success after result ∧
      ReopenedTo st after p h symbol timestampMs := by
  obtain ⟨u, owner⟩ := Option.ne_none_iff_exists'.mp reopenable.userId
  have levels := reopenedTo_levels stored symbol timestampMs reopenable.sl
  refine ⟨_, ⟨p, symbol, h.restoreSize, h.entryPrice.getD 0, none⟩, ?_, levels⟩
  unfold atomicReopenPosition
  rw [stored]
  dsimp only
  rw [if_neg (not_not.mpr reopenable.closed), if_neg reopenable.restores, reopenable.symbol, owner]
  dsimp only
  rw [Store.zaddStoredLevels_eq _ symbol p reopenable.sl reopenable.tp]
  rfl

theorem atomicReopenPosition_success (stored : st.hash p = some h)
    (reopened : atomicReopenPosition st p timestampMs = .success after result) :
    ∃ symbol, h.Reopenable symbol ∧ ReopenedTo st after p h symbol timestampMs := by
  unfold atomicReopenPosition at reopened
  rw [stored] at reopened
  dsimp only at reopened
  by_cases closed : ∃ status ∈ h.status, status.Closed
  swap
  · rw [if_pos closed] at reopened
    cases reopened
  rw [if_neg (not_not.mpr closed)] at reopened
  by_cases noSize : h.restoreSize = 0
  · rw [if_pos noSize] at reopened
    cases reopened
  rw [if_neg noSize] at reopened
  split at reopened
  next symbol u hasSymbol owner =>
    have fields := reopenedTo_levels stored symbol timestampMs
    generalize levels : ((st.hset p (·.reopened timestampMs)).zadd .posOpen symbol p
      (h.entryPrice.getD 0)).zaddStoredLevels symbol p h.sl h.tp = done at reopened fields
    cases done with
    | error left => cases reopened
    | ok left =>
      cases reopened
      obtain ⟨sl, tp⟩ := Store.zaddStoredLevels_ok _ _ _ levels
      exact ⟨symbol, ⟨closed, noSize, hasSymbol, by simp [owner], sl, tp⟩, fields sl⟩
  next => cases reopened

end Reopen

section CloseScript
variable {st : Store} {p : PositionId} {h : PositionHash} {args : CloseArgs}

/-- What the close script leaves of a position that it closes in full. -/
structure ClosedTo (st after : Store) (p : PositionId) (h closed : PositionHash) : Prop where
  hash : after.hash p = some closed
  userPositions : after.userPositions = st.userPositions
  score : ∀ symbol, h.symbol = some symbol → ∀ k s,
    after.score k s p = if s = symbol then none else st.score k s p

theorem CloseArgs.closed_fullCloseStatus (args : CloseArgs) : args.fullCloseStatus.Closed := by
  unfold fullCloseStatus
  split_ifs
  · trivial
  · trivial

/-- A close of another position, or of a part, does not leave it closed. -/
theorem atomicClosePosition_closes_self (stored : st.hash p = some h)
    (isOpen : h.status = some .OPEN)
    (closed : ∃ g, (atomicClosePosition st args).store.hash p = some g ∧
      ∃ status ∈ g.status, status.Closed) :
    args.positionId = p ∧ (atomicClosePosition st args).store.hash p = some (args.fullHash h) := by
  obtain ⟨g, read, shut⟩ := closed
  have notOpen := PositionHash.not_open_of_closed shut
  rcases (atomicClosePosition_writes st args).hash p with same | ⟨g', found, way⟩
  · rw [same, stored] at read
    cases Option.some.inj read
    exact absurd isOpen notOpen
  · cases Option.some.inj (found.symm.trans read)
    rw [stored] at way
    cases way with
    | full => exact ⟨rfl, found⟩
    | part => exact absurd isOpen notOpen

theorem atomicClosePosition_closes (stored : st.hash p = some h) (isOpen : h.status = some .OPEN)
    (closed : ∃ g, (atomicClosePosition st args).store.hash p = some g ∧
      ∃ status ∈ g.status, status.Closed) :
    args.actualCloseSize (h.size.getD 0) = h.size.getD 0 ∧
      ClosedTo st (atomicClosePosition st args).store p h (args.fullHash h) := by
  obtain ⟨rfl, hash⟩ := atomicClosePosition_closes_self stored isOpen closed
  have within := args.actualCloseSize_le (h.size.getD 0)
  unfold atomicClosePosition at hash ⊢
  dsimp only at hash ⊢
  rw [stored] at hash ⊢
  dsimp only at hash ⊢
  rw [if_neg (not_not.mpr isOpen), if_neg (not_lt.mpr within)] at hash ⊢
  by_cases full : h.size.getD 0 ≤ args.actualCloseSize (h.size.getD 0)
  · refine ⟨le_antisymm within full, ?_⟩
    rw [if_pos full] at hash ⊢
    cases hasSymbol : h.symbol with
    | none =>
      rw [hasSymbol] at hash
      exact ⟨hash, rfl, fun _ same => by simp [hasSymbol] at same⟩
    | some symbol =>
      rw [hasSymbol] at hash
      refine ⟨hash, rfl, ?_⟩
      intro other same k s
      rw [hasSymbol] at same
      cases Option.some.inj same
      simp only [ScriptOutcome.store]
      rw [Store.score_unindex, Store.score_hset]
      simp
  · rw [if_neg full, ScriptOutcome.store, Store.hash_hset_self, stored, Option.getD_some] at hash
    have status := congrArg PositionHash.status (Option.some.inj hash)
    have shut := args.closed_fullCloseStatus
    have stillOpen : (args.partialHash h).status = some .OPEN := isOpen
    rw [stillOpen] at status
    rw [← Option.some.inj status] at shut
    exact absurd shut id

theorem Fill.pnlClose_eq_zero {side : Option PositionSide} {entry exit size : ℚ}
    (sized : size ≠ 0) : Fill.pnlClose side entry exit size = 0 ↔ exit = entry := by
  unfold Fill.pnlClose
  split_ifs
  · simp [sized, sub_eq_zero]
  · rw [mul_eq_zero, sub_eq_zero, or_iff_left sized]
    exact eq_comm

/-- The reopened form of a fully closed hash is the hash before the close just
when the close left `original_size` and `realized_pnl` as they were. -/
theorem reopened_fullHash_eq_iff {timestampMs : Millis} (isOpen : h.status = some .OPEN)
    (sized : h.size.getD 0 ≠ 0) (full : args.actualCloseSize (h.size.getD 0) = h.size.getD 0) :
    (args.fullHash h).reopened timestampMs = h.restored timestampMs ↔
      args.exitPrice = h.entryPrice.getD 0 ∧ h.originalSize = h.size ∧ h.realizedPnl ≠ none := by
  obtain ⟨size, hasSize⟩ : ∃ size, h.size = some size := by
    cases hasSize : h.size with
    | none => simp [hasSize] at sized
    | some size => exact ⟨size, rfl⟩
  have noPnl : args.pnl h = 0 ↔ args.exitPrice = h.entryPrice.getD 0 := by
    unfold CloseArgs.pnl
    rw [full]
    exact Fill.pnlClose_eq_zero sized
  constructor
  · intro same
    have originalSize : some (h.size.getD 0) = h.originalSize :=
      congrArg PositionHash.originalSize same
    have realizedPnl : some (h.realizedPnl.getD 0 + args.pnl h) = h.realizedPnl :=
      congrArg PositionHash.realizedPnl same
    have pnl : args.pnl h = 0 := by
      have value := congrArg (Option.getD · 0) realizedPnl
      simpa using value
    refine ⟨noPnl.mp pnl, ?_, ?_⟩
    · rw [← originalSize, hasSize, Option.getD_some]
    · rw [← realizedPnl]
      simp
  · rintro ⟨exit, originalSize, realizedPnl⟩
    obtain ⟨realized, hasRealized⟩ := Option.ne_none_iff_exists'.mp realizedPnl
    unfold PositionHash.reopened CloseArgs.fullHash PositionHash.restored PositionHash.restoreSize
    simp [noPnl.mpr exit, originalSize, hasSize, hasRealized, isOpen]

theorem restoredBy_closePosition_iff (timestampMs : Millis) (stored : st.hash p = some h)
    (isOpen : h.status = some .OPEN)
    (closes : (ClosingCall.closePosition args).Closes st p) :
    RestoredBy st (atomicClosePosition st args).store p h timestampMs ↔
      UndoneAt st p h args.exitPrice := by
  obtain ⟨full, closedTo⟩ := atomicClosePosition_closes stored isOpen closes.closed
  constructor
  · rintro ⟨after, result, reopened, hash, _, score⟩
    obtain ⟨symbol, reopenable, reopenedTo⟩ := atomicReopenPosition_success closedTo.hash reopened
    have sized : h.size.getD 0 ≠ 0 := reopenable.restores
    have same := Option.some.inj (reopenedTo.hash.symm.trans hash)
    obtain ⟨exit, originalSize, realizedPnl⟩ :=
      (reopened_fullHash_eq_iff isOpen sized full).mp same
    refine ⟨exit, sized, originalSize, realizedPnl, reopenable.userId, reopenable.sl,
      reopenable.tp, symbol, reopenable.symbol, ?_⟩
    intro k
    have scored := reopenedTo.score k symbol
    rw [if_pos rfl, closedTo.score symbol reopenable.symbol, if_pos rfl, score] at scored
    rw [scored, Option.or_none]
    rfl
  · intro undone
    obtain ⟨symbol, hasSymbol, indexed⟩ := undone.indexed
    have reopenable : (args.fullHash h).Reopenable symbol :=
      ⟨⟨_, rfl, args.closed_fullCloseStatus⟩, undone.size, hasSymbol, undone.userId, undone.sl,
        undone.tp⟩
    obtain ⟨after, result, reopened, reopenedTo⟩ :=
      reopenable.succeeds closedTo.hash timestampMs
    refine ⟨after, result, reopened, ?_, ?_, ?_⟩
    · rw [reopenedTo.hash, (reopened_fullHash_eq_iff isOpen undone.size full).mpr
        ⟨undone.exit, undone.originalSize, undone.realizedPnl⟩]
    · intro u
      rw [reopenedTo.userPositions, closedTo.userPositions]
    · intro k s
      rw [reopenedTo.score, closedTo.score symbol hasSymbol]
      by_cases here : s = symbol
      · subst here
        rw [if_pos rfl, if_pos rfl, Option.or_none, indexed k]
        rfl
      · simp [here]

end CloseScript

/-- No open position is closed between the two stores. -/
def KeepsOpen (before after : Store) : Prop :=
  ∀ p h, before.hash p = some h → h.status = some .OPEN →
    ∃ g, after.hash p = some g ∧ g.status = some .OPEN

theorem keepsOpen_hset (st : Store) (q : PositionId) (write : PositionHash → PositionHash)
    (writesOpen : ∀ h : PositionHash, h.status = some .OPEN → (write h).status = some .OPEN) :
    KeepsOpen st (st.hset q write) := by
  intro p h stored isOpen
  by_cases same : p = q
  · subst same
    refine ⟨write h, ?_, writesOpen h isOpen⟩
    rw [Store.hash_hset_self, stored, Option.getD_some]
  · exact ⟨h, (Store.hash_hset_ne _ _ _ _ same).trans stored, isOpen⟩

theorem KeepsOpen.sameHashes {before after final : Store} (keeps : KeepsOpen before after)
    (same : ∀ p, final.hash p = after.hash p) : KeepsOpen before final := by
  intro p h stored isOpen
  rw [same p]
  exact keeps p h stored isOpen

namespace Fill
variable {st : Store} {fill : Fill} {p q : PositionId} {g h : PositionHash}
  {existing old : List PositionId} {done : Except Store (Store × FillResult)}

theorem addTo_keepsOpen : KeepsOpen st (storeLeft Prod.fst (addTo st fill q g)) :=
  (keepsOpen_hset st q (fill.mergeHash _ _ _) fun _ isOpen => isOpen).sameHashes
    fun p => (addTo_sameButIndex st fill q g).hash_eq p

theorem updateOld_keepsOpen (pos : OldPosition) :
    KeepsOpen st (storeLeft Prod.fst (updateOld st fill q pos)) := by
  refine (congrArg (KeepsOpen st) (storeLeft_paired _ _)).mpr ?_
  have merged := keepsOpen_hset st q (fill.mergeHash (pos.size.getD 0) (pos.entryPrice.getD 0)
    ((st.hash q).bind (·.leverage))) fun _ isOpen => isOpen
  refine merged.sameHashes fun p => ?_
  rw [Store.hash_zaddLevels, Store.hash_zadd]

theorem migrate_keepsOpen (pos : OldPosition) {leaveSet : Store → Store}
    (leaves : ∀ st q, (leaveSet st).hash q = st.hash q) :
    KeepsOpen st (storeLeft Prod.fst (migrate st fill pos leaveSet)) := by
  refine (congrArg (KeepsOpen st) (storeLeft_paired _ _)).mpr ?_
  refine (keepsOpen_hset st fill.positionUuid (fill.migratedHash pos) fun _ _ => rfl).sameHashes
    fun p => ?_
  rw [Store.hash_zaddLevels, Store.hash_zadd, Store.hash_sadd, leaves]

theorem openPosition_keepsOpen {size leverage : ℚ} :
    KeepsOpen st (storeLeft id (openPosition st fill size leverage)) :=
  (keepsOpen_hset st fill.positionUuid (fill.openHash size leverage) fun _ _ => rfl).sameHashes
    fun p => (openPosition_sameButIndex st fill size leverage).hash_eq p

theorem create_keepsOpen : KeepsOpen st (storeLeft Prod.fst (create st fill)) :=
  (congrArg (KeepsOpen st) (storeLeft_paired _ _)).mpr openPosition_keepsOpen

theorem existingLoop_keepsOpen (taken : existingLoop st fill existing = some done) :
    KeepsOpen st (storeLeft Prod.fst done) := by
  induction existing with
  | nil => cases taken
  | cons q rest ih =>
    unfold existingLoop at taken
    split at taken
    next g _ =>
      split_ifs at taken
      · cases taken
        exact addTo_keepsOpen
      · exact ih taken
    next =>
      split at taken
      next pos _ =>
        split_ifs at taken
        · split at taken
          next =>
            cases taken
            exact migrate_keepsOpen pos fun _ _ => rfl
          next =>
            cases taken
            exact updateOld_keepsOpen pos
        · exact ih taken
      next => exact ih taken

theorem oldLoop_keepsOpen (taken : oldLoop st fill existing old = some done) :
    KeepsOpen st (storeLeft Prod.fst done) := by
  induction old with
  | nil => cases taken
  | cons q rest ih =>
    unfold oldLoop at taken
    by_cases listed : q ∈ existing
    · rw [if_pos listed] at taken
      exact ih taken
    · rw [if_neg listed] at taken
      split at taken
      next pos _ =>
        split_ifs at taken
        · cases taken
          exact migrate_keepsOpen pos fun _ _ => rfl
        · exact ih taken
      next => exact ih taken

/-- A position that netting closes has left its user's set. -/
theorem netAgainst_closes_left (stored : st.hash p = some h) (isOpen : h.status = some .OPEN)
    (closed : ∃ g', (storeLeft Prod.fst (netAgainst st fill q g)).hash p = some g' ∧
      g'.status ≠ some .OPEN) :
    p = q ∧ p ∉ (storeLeft Prod.fst (netAgainst st fill q g)).userPositions fill.order.userId := by
  have closing (newRealized : ℚ) : (closeNetted st fill q newRealized).hash p =
      some (if p = q then fill.closedHash newRealized h else h) := closeNetted_hash stored newRealized
  have left (newRealized : ℚ) :
      q ∉ (closeNetted st fill q newRealized).userPositions fill.order.userId :=
    fun member => ((Store.mem_srem ..).mp member).1 ⟨rfl, rfl⟩
  obtain ⟨g', read, notOpen⟩ := closed
  unfold netAgainst at read ⊢
  dsimp only at read ⊢
  split_ifs at read ⊢ with remains exact
  · obtain ⟨g'', found, stillOpen⟩ := keepsOpen_hset st q (fill.reducedHash _ _ _ _)
      (fun _ isOpen => isOpen) p h stored isOpen
    cases Option.some.inj (found.symm.trans read)
    exact absurd stillOpen notOpen
  · have same : p = q := by
      by_contra differ
      have kept := (closing _).symm.trans read
      rw [if_neg differ] at kept
      exact notOpen (Option.some.inj kept ▸ isOpen)
    exact ⟨same, same ▸ left _⟩
  · generalize g.realizedPnl.getD 0 + _ = newRealized at read ⊢
    refine (congrArg (fun left : Store => p = q ∧ p ∉ left.userPositions fill.order.userId)
      (storeLeft_paired _ _)).mpr ?_
    have opening := (congrArg (Store.hash · p) (storeLeft_paired _ _)).symm.trans read
    rw [openPosition_hash _ _ _ _ (openPosition_sameButIndex ..)] at opening
    split_ifs at opening with isNew
    · rw [← Option.some.inj opening] at notOpen
      exact absurd rfl notOpen
    · have same : p = q := by
        by_contra differ
        have kept := (closing newRealized).symm.trans opening
        rw [if_neg differ] at kept
        exact notOpen (Option.some.inj kept ▸ isOpen)
      refine ⟨same, fun member => ?_⟩
      rw [openPosition_sameButIndex] at member
      rcases (Store.mem_sadd ..).mp member with ⟨_, listedNew⟩ | listed
      · exact isNew listedNew
      · exact left newRealized (same ▸ listed)

/-- Only netting closes a position, and it takes it out of the user's set. -/
theorem applyToPositions_closes_left (stored : st.hash p = some h) (isOpen : h.status = some .OPEN)
    (closed : ∃ g', (storeLeft Prod.fst (applyToPositions st fill existing old)).hash p = some g' ∧
      g'.status ≠ some .OPEN) :
    p ∈ existing ∧ p ∉ (storeLeft Prod.fst (applyToPositions st fill existing old)).userPositions
      fill.order.userId := by
  obtain ⟨g', read, notOpen⟩ := closed
  have refute {done : Except Store (Store × FillResult)} (keeps : KeepsOpen st (storeLeft Prod.fst done))
      (found : (storeLeft Prod.fst done).hash p = some g') : False := by
    obtain ⟨g, found', stillOpen⟩ := keeps p h stored isOpen
    cases Option.some.inj (found.symm.trans found')
    exact notOpen stillOpen
  unfold applyToPositions at read ⊢
  cases merges : existingLoop st fill existing with
  | some done =>
    rw [merges] at read
    exact absurd read (refute (existingLoop_keepsOpen merges))
  | none =>
    cases migrates : oldLoop st fill existing old with
    | some done =>
      rw [merges, migrates] at read
      exact absurd read (refute (oldLoop_keepsOpen migrates))
    | none =>
      rw [merges, migrates] at read
      dsimp only at read ⊢
      cases nets : if fill.netting then oppositeLoop st fill existing else none with
      | none =>
        rw [nets] at read
        exact absurd read (refute create_keepsOpen)
      | some done =>
        rw [nets] at read
        dsimp only at read ⊢
        split_ifs at nets
        rw [oppositeLoop_eq] at nets
        obtain ⟨⟨q, g⟩, found, rfl⟩ := Option.map_eq_some_iff.mp nets
        obtain ⟨rfl, unlisted⟩ := netAgainst_closes_left stored isOpen ⟨g', read, notOpen⟩
        exact ⟨(Order.openOn_some found).1, unlisted⟩

end Fill

theorem not_restoredBy_fillOrder {st : Store} {p : PositionId} {h : PositionHash} {args : FillArgs}
    {existing old : List PositionId} (timestampMs : Millis) (stored : st.hash p = some h)
    (isOpen : h.status = some .OPEN) (closes : (ClosingCall.fillOrder args existing old).Closes st p) :
    ¬ RestoredBy st (atomicFillOrder st args existing old).store p h timestampMs := by
  rintro ⟨after, result, reopened, _, listed, _⟩
  obtain ⟨g, read, shut⟩ := closes.closed
  have notOpen := PositionHash.not_open_of_closed shut
  change (atomicFillOrder st args existing old).store.hash p = some g at read
  rcases atomicFillOrder_left st args existing old with same | ⟨order, el, accepted, left⟩
  · rw [same, stored] at read
    exact notOpen (Option.some.inj read ▸ isOpen)
  · obtain ⟨symbol, _, reopenedTo⟩ := atomicReopenPosition_success read reopened
    rw [left] at read
    have marked : (st.markFilled args order).hash p = some h := stored
    obtain ⟨member, unlisted⟩ :=
      Fill.applyToPositions_closes_left marked isOpen ⟨g, read, notOpen⟩
    have wasListed : p ∈ st.userPositions order.userId :=
      (closes.reads order accepted.stored).mem_iff.mp member
    have stays := (listed order.userId).mpr wasListed
    rw [reopenedTo.userPositions, left] at stays
    exact unlisted stays

theorem restoredBy_iff {st : Store} {p : PositionId} {h : PositionHash} {closing : ClosingCall}
    (timestampMs : Millis) (stored : st.hash p = some h) (isOpen : h.status = some .OPEN)
    (closes : closing.Closes st p) :
    RestoredBy st (closing.store st) p h timestampMs ↔ closing.Undone st p h := by
  cases closing with
  | closePosition args => exact restoredBy_closePosition_iff timestampMs stored isOpen closes
  | fillOrder args existing old =>
    exact iff_of_false (not_restoredBy_fillOrder timestampMs stored isOpen closes) id

namespace ReopenRoundTrip

/-- A long position with a stop loss; `originalSize` is that of an earlier close. -/
def longHash (originalSize : Option ℚ) : PositionHash where
  userId := some 7
  symbol := some "EURUSD"
  side := some .LONG
  size := some 2
  entryPrice := some 100
  realizedPnl := some 0
  status := some .OPEN
  sl := some (.num 90)
  tp := some .null
  originalSize := originalSize

def holding (originalSize : Option ℚ) : Store :=
  let st := (Store.empty.hset (.uuid 3) fun _ => longHash originalSize).sadd 7 (.uuid 3)
  (st.zadd .posOpen "EURUSD" (.uuid 3) 100).zadd .posSl "EURUSD" (.uuid 3) 90

def closeAt (exitPrice : ℚ) : ClosingCall :=
  .closePosition { positionId := .uuid 3, exitPrice := exitPrice, closeSize := 0, timestampMs := 5 }

/-- The second close of a position, at its entry price, is undone. -/
theorem restoredBy_again :
    RestoredBy (holding (some 2)) ((closeAt 100).store (holding (some 2))) (.uuid 3)
      (longHash (some 2)) 9 := by
  have stored : (holding (some 2)).hash (.uuid 3) = some (longHash (some 2)) := by decide +kernel
  have closes : (closeAt 100).Closes (holding (some 2)) (.uuid 3) :=
    ⟨trivial, _, Option.get_mem (by decide +kernel), .CLOSED, by decide +kernel, trivial⟩
  refine (restoredBy_iff 9 stored rfl closes).mpr ⟨rfl, ?_, rfl, ?_, ?_, ?_, ?_, "EURUSD", rfl, ?_⟩
  · simp [longHash]
  · simp [longHash]
  · simp [longHash]
  · simp [longHash]
  · simp [longHash]
  · intro k
    cases k <;> decide +kernel

def nettingSell : Order where
  id := 1
  userId := 7
  symbol := "EURUSD"
  side := .SELL
  orderType := .MARKET
  size := 2
  accountType := some "netting"

def netting : ClosingCall := .fillOrder
  { orderId := 1, fillPrice := 100, fillSize := 2, timestampMs := 5, positionUuid := .uuid 4
    effectiveLeverage := some 10 } [.uuid 3] []

/-- A close at a profit leaves the profit in `realized_pnl`, and a position
closed by netting is gone from its user's set even when it can be reopened. -/
theorem not_restoredBy_closed :
    ((closeAt 105).Closes (holding (some 2)) (.uuid 3) ∧
      ¬ RestoredBy (holding (some 2)) ((closeAt 105).store (holding (some 2))) (.uuid 3)
        (longHash (some 2)) 9) ∧
    netting.Closes ((holding (some 2)).setOrder 1 nettingSell) (.uuid 3) ∧
      ¬ RestoredBy ((holding (some 2)).setOrder 1 nettingSell)
        (netting.store ((holding (some 2)).setOrder 1 nettingSell)) (.uuid 3)
        (longHash (some 2)) 9 := by
  have profits : (closeAt 105).Closes (holding (some 2)) (.uuid 3) :=
    ⟨trivial, _, Option.get_mem (by decide +kernel), .CLOSED, by decide +kernel, trivial⟩
  have stored : (holding (some 2)).hash (.uuid 3) = some (longHash (some 2)) := by decide +kernel
  have nets : netting.Closes ((holding (some 2)).setOrder 1 nettingSell) (.uuid 3) := by
    refine ⟨?_, _, Option.get_mem (by decide +kernel), .CLOSED, by decide +kernel, trivial⟩
    change ∀ order ∈ ((holding (some 2)).setOrder 1 nettingSell).orders 1, _
    decide +kernel
  refine ⟨⟨profits, fun restored => ?_⟩, nets, ?_⟩
  · have undone := (restoredBy_closePosition_iff 9 stored rfl profits).mp restored
    have exit := undone.exit
    revert exit
    decide +kernel
  · exact not_restoredBy_fillOrder 9 stored rfl nets

end ReopenRoundTrip

end TradingPlatform
