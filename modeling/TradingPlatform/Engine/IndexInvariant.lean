import TradingPlatform.Engine.HashWrites
import TradingPlatform.Library.StepRuns

namespace TradingPlatform

open StepRuns

/-- The number a position is sorted by in an index. -/
def PositionHash.level (h : PositionHash) : PriceIndex → Option ℚ
  | .posOpen => h.entryPrice
  | .posSl => h.sl.bind LevelText.tonumber
  | .posTp => h.tp.bind LevelText.tonumber

/-- The score it should have: its level while open, none otherwise. -/
def PositionHash.indexed (h : PositionHash) (k : PriceIndex) : Option ℚ :=
  if h.status = some .OPEN then h.level k else none

namespace Store

/-- Every open position is in its user's set, and every position has exactly
the scores in its symbol's indexes that its hash asks for. -/
structure IndexesMatch (st : Store) : Prop where
  userSet : ∀ p h, st.hash p = some h → h.status = some .OPEN →
    ∃ u, h.userId = some u ∧ p ∈ st.userPositions u
  indexes : ∀ p h, st.hash p = some h → ∃ s entry, h.symbol = some s ∧
    h.entryPrice = some entry ∧ ∀ k, st.score k s p = h.indexed k

/-- `after` differs from `before` at one position at most. -/
structure OnlyPosition (p : PositionId) (before after : Store) : Prop where
  hash : ∀ q, q ≠ p → after.hash q = before.hash q
  score : ∀ k s q, q ≠ p → after.score k s q = before.score k s q
  member : ∀ u q, q ≠ p → (q ∈ after.userPositions u ↔ q ∈ before.userPositions u)
  old : after.oldPositions = before.oldPositions

namespace OnlyPosition
variable {p : PositionId} {before between after : Store}

theorem trans (first : OnlyPosition p before between) (second : OnlyPosition p between after) :
    OnlyPosition p before after where
  hash q other := (second.hash q other).trans (first.hash q other)
  score k s q other := (second.score k s q other).trans (first.score k s q other)
  member u q other := (second.member u q other).trans (first.member u q other)
  old := second.old.trans first.old

variable (st : Store) (p)

theorem refl : OnlyPosition p st st where
  hash _ _ := rfl
  score _ _ _ _ := rfl
  member _ _ _ := Iff.rfl
  old := rfl

theorem hset (write : PositionHash → PositionHash) : OnlyPosition p st (st.hset p write) where
  hash q other := hash_hset_ne st p q write other
  score _ _ _ _ := rfl
  member _ _ _ := Iff.rfl
  old := rfl

theorem zadd (k : PriceIndex) (s : Symbol) (x : ℚ) : OnlyPosition p st (st.zadd k s p x) where
  hash _ _ := rfl
  score k' s' q other := by rw [score_zadd, if_neg fun same => other same.2.2]
  member _ _ _ := Iff.rfl
  old := rfl

theorem unindex (s : Symbol) : OnlyPosition p st (st.unindex s p) where
  hash _ _ := rfl
  score k s' q other := by rw [score_unindex, if_neg fun same => other same.2]
  member _ _ _ := Iff.rfl
  old := rfl

theorem sadd (u : UserId) : OnlyPosition p st (st.sadd u p) where
  hash _ _ := rfl
  score _ _ _ _ := rfl
  member v q other := by
    rw [mem_sadd]
    exact ⟨fun either => either.resolve_left fun same => other same.2, .inr⟩
  old := rfl

theorem srem (u : UserId) : OnlyPosition p st (st.srem u p) where
  hash _ _ := rfl
  score _ _ _ _ := rfl
  member v q other := by
    rw [mem_srem]
    exact ⟨And.right, fun member => ⟨fun same => other same.2, member⟩⟩
  old := rfl

theorem zaddLevels (s : Symbol) (sl tp : JsonNum) :
    OnlyPosition p st (storeLeft id (st.zaddLevels s p sl tp)) := by
  cases sl <;> cases tp <;> first
    | exact refl p st
    | exact zadd p st _ _ _
    | exact (zadd p st _ _ _).trans (zadd p _ _ _ _)

theorem zaddStoredLevels (s : Symbol) (sl tp : Option LevelText) :
    OnlyPosition p st (storeLeft id (st.zaddStoredLevels s p sl tp)) := by
  rcases sl with - | - | - | x <;> rcases tp with - | - | - | y <;> first
    | exact refl p st
    | exact zadd p st _ _ _
    | exact (zadd p st _ _ _).trans (zadd p _ _ _ _)

end OnlyPosition

section Levels
variable (st : Store) (k : PriceIndex) (s s' : Symbol) (p q : PositionId)

/-- The levels that the two ZADDs of an order write; a null stop loss raises
before the take profit is reached. -/
def zaddedLevel (sl tp : JsonNum) : PriceIndex → Option ℚ
  | .posOpen => none
  | .posSl => sl.tonumber
  | .posTp => if sl = .null then none else tp.tonumber

theorem score_zaddLevels (sl tp : JsonNum) :
    (storeLeft id (st.zaddLevels s p sl tp)).score k s' q =
      if s' = s ∧ q = p then (zaddedLevel sl tp k).or (st.score k s' q) else st.score k s' q := by
  cases sl <;> cases tp <;> cases k <;>
    simp [Store.zaddLevels, zaddLevel, JsonNum.truthy, JsonNum.tonumber, storeLeft, score_zadd,
      zaddedLevel]

@[simp] theorem hash_zaddLevels (sl tp : JsonNum) :
    (storeLeft id (st.zaddLevels s p sl tp)).hash q = st.hash q := by
  rw [sameButIndex_zaddLevels st s p sl tp]
  rfl

@[simp] theorem userPositions_zaddLevels (sl tp : JsonNum) :
    (storeLeft id (st.zaddLevels s p sl tp)).userPositions = st.userPositions := by
  rw [sameButIndex_zaddLevels st s p sl tp]

/-- The levels that the reopen script's two ZADDs write, stopping at a null text. -/
def restoredLevel (sl tp : Option LevelText) : PriceIndex → Option ℚ
  | .posOpen => none
  | .posSl => sl.bind LevelText.tonumber
  | .posTp => if sl = some .userdata then none else tp.bind LevelText.tonumber

theorem score_zaddStoredLevels (sl tp : Option LevelText) :
    (storeLeft id (st.zaddStoredLevels s p sl tp)).score k s' q =
      if s' = s ∧ q = p then (restoredLevel sl tp k).or (st.score k s' q)
      else st.score k s' q := by
  rcases sl with - | - | - | x <;> rcases tp with - | - | - | y <;> cases k <;>
    simp [zaddStoredLevels, zaddStored, LevelText.tonumber, storeLeft, score_zadd, restoredLevel]

@[simp] theorem userPositions_replaceLevels (sl tp : Option ℚ) :
    (st.replaceLevels s p sl tp).userPositions = st.userPositions := by
  cases sl <;> cases tp <;> rfl

theorem score_replaceLevels_self (sl tp : Option ℚ) :
    (st.replaceLevels s p sl tp).score k s' p = if s' = s then
      match k with
      | .posOpen => st.score .posOpen s' p
      | .posSl => sl
      | .posTp => tp
    else st.score k s' p := by
  cases sl <;> cases tp <;> cases k <;> by_cases same : s' = s <;>
    simp [replaceLevels, setLevel, score_zadd, score_zrem, same]

theorem OnlyPosition.setLevel (write : LevelText → PositionHash → PositionHash)
    (level : Option ℚ) : OnlyPosition p st (st.setLevel k s p write level) := by
  cases level with
  | none => exact refl p st
  | some x => exact (hset p st _).trans (zadd p _ _ _ _)

theorem OnlyPosition.replaceLevels (sl tp : Option ℚ) :
    OnlyPosition p st (st.replaceLevels s p sl tp) := by
  have removed : OnlyPosition p st (((st.zrem .posSl s p).zrem .posTp s p).hset p
      fun h => { h with sl := none, tp := none }) :=
    { hash := fun q other => hash_hset_ne _ p q _ other
      score := fun k' s' q other => by
        rw [score_hset, score_zrem, if_neg fun same => other same.2.2, score_zrem,
          if_neg fun same => other same.2.2]
      member := fun _ _ _ => Iff.rfl
      old := rfl }
  exact (removed.trans (setLevel _ .posSl s p (fun level h => { h with sl := some level }) sl)).trans
    (setLevel _ .posTp s p (fun level h => { h with tp := some level }) tp)

end Levels

end Store

/-- What the scripts keep true of each hash. A stop loss stored as a null
text blocks the take profit from being indexed, so it has none. -/
structure PositionHash.WellFormed (h : PositionHash) : Prop where
  userId : ∃ u, h.userId = some u
  symbol : ∃ s, h.symbol = some s
  entryPrice : ∃ entry, h.entryPrice = some entry
  leverage : ∃ leverage, h.leverage = some leverage ∧ 0 < leverage
  levels : h.sl = some .userdata → h.tp.bind LevelText.tonumber = none

namespace Store

/-- The invariant over all scripts: the indexes hold exactly the scores that
the hashes ask for, also for ids without a hash and for foreign symbols. -/
structure Indexed (st : Store) : Prop where
  hashesOnly : st.HashesOnly
  wellFormed : ∀ p h, st.hash p = some h → h.WellFormed
  score : ∀ k s p, st.score k s p =
    (st.hash p).bind fun h => if h.symbol = some s then h.indexed k else none
  member : ∀ p h u, st.hash p = some h → h.status = some .OPEN → h.userId = some u →
    p ∈ st.userPositions u

variable {before after : Store} {p : PositionId} {h : PositionHash}

theorem Indexed.score_of_hash (indexed : before.Indexed) (stored : before.hash p = some h)
    (k : PriceIndex) (s : Symbol) :
    before.score k s p = if h.symbol = some s then h.indexed k else none := by
  rw [indexed.score, stored, Option.bind_some]

theorem Indexed.matches (indexed : before.Indexed) : before.IndexesMatch where
  userSet p h stored isOpen := by
    obtain ⟨u, owner⟩ := (indexed.wellFormed p h stored).userId
    exact ⟨u, owner, indexed.member p h u stored isOpen owner⟩
  indexes p h stored := by
    obtain ⟨s, symbol⟩ := (indexed.wellFormed p h stored).symbol
    obtain ⟨entry, entryPrice⟩ := (indexed.wellFormed p h stored).entryPrice
    exact ⟨s, entry, symbol, entryPrice, fun k => by
      rw [indexed.score_of_hash stored, if_pos symbol]⟩

/-- A step at one position keeps the invariant when the new hash and its
scores agree. -/
theorem Indexed.touch (indexed : before.Indexed) (only : OnlyPosition p before after)
    (stored : after.hash p = some h) (wellFormed : h.WellFormed)
    (score : ∀ k s, after.score k s p = if h.symbol = some s then h.indexed k else none)
    (member : h.status = some .OPEN → ∀ u, h.userId = some u → p ∈ after.userPositions u) :
    after.Indexed where
  hashesOnly q := by rw [only.old]; exact indexed.hashesOnly q
  wellFormed q g read := by
    by_cases other : q = p
    · subst other
      cases Option.some.inj (stored.symm.trans read)
      exact wellFormed
    · exact indexed.wellFormed q g ((only.hash q other).symm.trans read)
  score k s q := by
    by_cases other : q = p
    · subst other
      rw [stored, Option.bind_some, score]
    · rw [only.score k s q other, only.hash q other, indexed.score]
  member q g u read isOpen owner := by
    by_cases other : q = p
    · subst other
      cases Option.some.inj (stored.symm.trans read)
      exact member isOpen u owner
    · exact (only.member u q other).mpr
        (indexed.member q g u ((only.hash q other).symm.trans read) isOpen owner)

theorem indexed_empty : Store.empty.Indexed where
  hashesOnly _ := rfl
  wellFormed p h stored := by cases stored
  score k s p := rfl
  member p h u stored := by cases stored

end Store

theorem JsonNum.tonumber_levelText (level : JsonNum) :
    level.levelText.tonumber = level.tonumber := by
  cases level <;> rfl

theorem JsonNum.levelText_userdata {level : JsonNum} (userdata : level.levelText = .userdata) :
    level = .null := by
  cases level <;> first | rfl | cases userdata

section Fills
variable {st : Store} {fill : Fill} {p : PositionId} {h : PositionHash}

/-- A merge writes no level to the hash, so the levels of the order must be
the ones stored there. A null stop loss raises before the take profit. -/
def LevelsKept (order : Order) (h : PositionHash) : Prop :=
  (∀ x ∈ order.stopLoss.tonumber, h.level .posSl = some x) ∧
    (order.stopLoss ≠ .null → ∀ x ∈ order.takeProfit.tonumber, h.level .posTp = some x)

/-- Opening a position stores both levels, but indexes no take profit after a
null stop loss. -/
def LevelsIndexed (order : Order) : Prop :=
  order.stopLoss = .null → order.takeProfit.tonumber = none

instance (order : Order) (h : PositionHash) : Decidable (LevelsKept order h) :=
  inferInstanceAs (Decidable (_ ∧ _))

instance (order : Order) : Decidable (LevelsIndexed order) :=
  inferInstanceAs (Decidable (_ → _))

/-- The two levels of an order, merged over the scores of an open hash that
keeps its levels, are that hash's levels. -/
theorem LevelsKept.zaddedLevel_or {order : Order} {k : PriceIndex} (kept : LevelsKept order h)
    (isOpen : h.status = some .OPEN) (notOpenIndex : k ≠ .posOpen) :
    (Store.zaddedLevel order.stopLoss order.takeProfit k).or (h.indexed k) = h.level k := by
  rw [PositionHash.indexed, if_pos isOpen]
  cases k with
  | posOpen => exact absurd rfl notOpenIndex
  | posSl =>
    unfold Store.zaddedLevel
    cases level : order.stopLoss.tonumber with
    | none => rfl
    | some x => exact (kept.1 x level).symm
  | posTp =>
    unfold Store.zaddedLevel
    split_ifs with raises
    · rfl
    · cases level : order.takeProfit.tonumber with
      | none => rfl
      | some x => exact (kept.2 raises x level).symm

theorem Fill.addTo_indexed (indexed : st.Indexed) (stored : st.hash p = some h)
    (isOpen : h.IsOpenOn fill.order.symbol) (kept : LevelsKept fill.order h) :
    (storeLeft Prod.fst (addTo st fill p h)).Indexed := by
  rw [addTo_left]
  have wellFormed := indexed.wellFormed p h stored
  apply indexed.touch (p := p) (h := fill.mergeHash (h.size.getD 0) (h.entryPrice.getD 0) h.leverage h)
  · exact ((Store.OnlyPosition.hset p st _).trans (Store.OnlyPosition.zadd p _ _ _ _)).trans
      (Store.OnlyPosition.zaddLevels p _ _ _ _)
  · rw [Store.hash_zaddLevels, Store.hash_zadd, merged, Store.hash_hset_self, stored,
      Option.getD_some]
  · exact ⟨wellFormed.userId, wellFormed.symbol, ⟨_, rfl⟩, wellFormed.leverage, wellFormed.levels⟩
  · intro k s
    have before : (merged st fill p h).score k s p = _ := indexed.score_of_hash stored k s
    rw [Store.score_zaddLevels, Store.score_zadd, before]
    change _ = if h.symbol = some s then
      if h.status = some .OPEN then PositionHash.level _ k else none else none
    rw [isOpen.1, if_pos isOpen.2]
    by_cases here : s = fill.order.symbol
    · subst here
      cases k with
      | posOpen => simp [Store.zaddedLevel, mergeHash, PositionHash.level]
      | posSl =>
        simp only [and_self, reduceCtorEq, false_and, if_true, if_false]
        exact kept.zaddedLevel_or isOpen.2 (by decide)
      | posTp =>
        simp only [and_self, reduceCtorEq, false_and, if_true, if_false]
        exact kept.zaddedLevel_or isOpen.2 (by decide)
    · simp [here, Ne.symm here]
  · intro _ u owner
    rw [Store.userPositions_zaddLevels]
    exact indexed.member p h u stored isOpen.2 owner

theorem Fill.openPosition_indexed {size leverage : ℚ} (indexed : st.Indexed)
    (fresh : st.hash fill.positionUuid = none) (leverage_pos : 0 < leverage)
    (levels : LevelsIndexed fill.order) :
    (storeLeft id (openPosition st fill size leverage)).Indexed := by
  rw [openPosition_left]
  apply indexed.touch (p := fill.positionUuid) (h := fill.openHash size leverage {})
  · exact (((Store.OnlyPosition.hset _ st _).trans (Store.OnlyPosition.sadd _ _ _)).trans
      (Store.OnlyPosition.zadd _ _ _ _ _)).trans (Store.OnlyPosition.zaddLevels _ _ _ _ _)
  · rw [Store.hash_zaddLevels, Store.hash_zadd, opened, Store.hash_sadd, Store.hash_hset_self,
      fresh, Option.getD_none]
  · refine ⟨⟨_, rfl⟩, ⟨_, rfl⟩, ⟨_, rfl⟩, ⟨_, rfl, leverage_pos⟩, fun userdata => ?_⟩
    change fill.order.takeProfit.levelText.tonumber = none
    rw [JsonNum.tonumber_levelText]
    exact levels (JsonNum.levelText_userdata (Option.some.inj userdata))
  · intro k s
    have before : (opened st fill size leverage).score k s fill.positionUuid = none := by
      have missing := indexed.score k s fill.positionUuid
      rw [fresh] at missing
      exact missing
    rw [Store.score_zaddLevels, Store.score_zadd, before]
    change _ = if some fill.order.symbol = some s then PositionHash.level _ k else none
    by_cases here : s = fill.order.symbol
    · subst here
      cases k with
      | posOpen => simp [Store.zaddedLevel, openHash, PositionHash.level]
      | posSl =>
        simp [Store.zaddedLevel, openHash, PositionHash.level, JsonNum.tonumber_levelText]
      | posTp =>
        simp only [Store.zaddedLevel, openHash, PositionHash.level, and_self, reduceCtorEq, false_and,
          if_true, if_false, Option.or_none, Option.bind_some, JsonNum.tonumber_levelText]
        split_ifs with raises
        · exact (levels raises).symm
        · rfl
    · simp [here, Ne.symm here]
  · intro _ u owner
    cases owner
    rw [Store.userPositions_zaddLevels, Store.userPositions_zadd, opened, Store.mem_sadd]
    exact .inl ⟨rfl, rfl⟩

theorem Fill.closeNetted_indexed (indexed : st.Indexed) (stored : st.hash p = some h)
    (isOpen : h.IsOpenOn fill.order.symbol) (newRealized : ℚ) :
    (closeNetted st fill p newRealized).Indexed := by
  have wellFormed := indexed.wellFormed p h stored
  apply indexed.touch (p := p) (h := fill.closedHash newRealized h)
  · exact ((Store.OnlyPosition.hset p st _).trans (Store.OnlyPosition.srem p _ _)).trans
      (Store.OnlyPosition.unindex p _ _)
  · rw [closeNetted, Store.hash_unindex, Store.hash_srem, Store.hash_hset_self, stored,
      Option.getD_some]
  · exact ⟨wellFormed.userId, wellFormed.symbol, wellFormed.entryPrice, wellFormed.leverage,
      wellFormed.levels⟩
  · intro k s
    have before := indexed.score_of_hash stored k s
    rw [closeNetted, Store.score_unindex, Store.score_srem, Store.score_hset, before]
    change _ = if h.symbol = some s then none else none
    rw [isOpen.1]
    by_cases here : s = fill.order.symbol
    · simp [here]
    · simp [here, Ne.symm here]
  · intro isOpen
    cases isOpen

theorem Fill.netAgainst_indexed (indexed : st.Indexed) (fresh : st.hash fill.positionUuid = none)
    (stored : st.hash p = some h) (isOpen : h.IsOpenOn fill.order.symbol)
    (levels : h.size.getD 0 < fill.fillSize → LevelsIndexed fill.order) :
    (storeLeft Prod.fst (netAgainst st fill p h)).Indexed := by
  have wellFormed := indexed.wellFormed p h stored
  obtain ⟨entry, entryPrice⟩ := wellFormed.entryPrice
  unfold netAgainst
  dsimp only
  split_ifs with remains exact
  · apply indexed.touch (p := p) (h := fill.reducedHash (h.size.getD 0 - fill.fillSize)
      (h.entryPrice.getD 0) (fill.posLevOrFill h.leverage .absent) (h.realizedPnl.getD 0 +
        pnlClose h.side (h.entryPrice.getD 0) fill.fillPrice (min (h.size.getD 0) fill.fillSize)) h)
    · exact (Store.OnlyPosition.hset p st _).trans (Store.OnlyPosition.zadd p _ _ _ _)
    · simp only [storeLeft]
      rw [Store.hash_zadd, Store.hash_hset_self, stored, Option.getD_some]
    · exact ⟨wellFormed.userId, wellFormed.symbol, wellFormed.entryPrice, wellFormed.leverage,
        wellFormed.levels⟩
    · intro k s
      simp only [storeLeft]
      rw [Store.score_zadd, Store.score_hset, indexed.score_of_hash stored]
      change _ = if h.symbol = some s then if h.status = some .OPEN then h.level k else none else none
      rw [PositionHash.indexed, if_pos isOpen.2]
      split_ifs with indexedOpen <;> first | rfl | skip
      · rw [indexedOpen.1, PositionHash.level, entryPrice, Option.getD_some]
      · exact absurd (indexedOpen.2.1 ▸ isOpen.1) ‹_›
    · exact fun _ u owner => indexed.member p h u stored isOpen.2 owner
  · exact closeNetted_indexed indexed stored isOpen _
  · have exceeds : h.size.getD 0 < fill.fillSize :=
      sub_neg.mp (lt_of_le_of_ne (not_lt.mp remains) exact)
    have closed := closeNetted_indexed indexed stored isOpen (h.realizedPnl.getD 0 +
      pnlClose h.side (h.entryPrice.getD 0) fill.fillPrice (min (h.size.getD 0) fill.fillSize))
    have differ : fill.positionUuid ≠ p := by
      rintro same
      rw [same, stored] at fresh
      cases fresh
    have unused : (closeNetted st fill p (h.realizedPnl.getD 0 + pnlClose h.side
        (h.entryPrice.getD 0) fill.fillPrice (min (h.size.getD 0) fill.fillSize))).hash
        fill.positionUuid = none := by
      rw [closeNetted, Store.hash_unindex, Store.hash_srem, Store.hash_hset_ne _ _ _ _ differ, fresh]
    have residual : (storeLeft id (openPosition _ fill (-(h.size.getD 0 - fill.fillSize))
        (fill.posLevOrFill h.leverage .absent))).Indexed :=
      openPosition_indexed closed unused (fill.posLevOrFill_pos h.leverage .absent) (levels exceeds)
    split <;> rename_i outcome <;> rw [outcome] at residual <;> exact residual

/-- The levels of an order suit the position it goes to. -/
def KeepsLevels (st : Store) (order : Order) (fillSize : ℚ) (existing : List PositionId) : Prop :=
  match order.target st existing with
  | .merge _ h => LevelsKept order h
  | .net _ h => h.size.getD 0 < fillSize → LevelsIndexed order
  | .fresh => LevelsIndexed order

instance (st : Store) (order : Order) (fillSize : ℚ) (existing : List PositionId) :
    Decidable (KeepsLevels st order fillSize existing) := by
  unfold KeepsLevels
  split <;> infer_instance

theorem Fill.applyToPositions_indexed {existing old : List PositionId} (indexed : st.Indexed)
    (fresh : st.hash fill.positionUuid = none)
    (levels : KeepsLevels st fill.order fill.fillSize existing) :
    (storeLeft Prod.fst (applyToPositions st fill existing old)).Indexed := by
  rw [applyToPositions_eq indexed.hashesOnly]
  unfold KeepsLevels at levels
  cases found : fill.order.target st existing with
  | merge p h =>
    rw [found] at levels
    obtain ⟨_, stored, isOpen, _⟩ := Order.target_merge found
    exact addTo_indexed indexed stored isOpen levels
  | net p h =>
    rw [found] at levels
    obtain ⟨_, stored, isOpen, _⟩ := Order.target_net found
    exact netAgainst_indexed indexed fresh stored isOpen levels
  | fresh =>
    rw [found] at levels
    have created : (storeLeft id (openPosition st fill fill.fillSize fill.effectiveLeverage)).Indexed :=
      openPosition_indexed indexed fresh fill.leverage_pos levels
    dsimp only
    unfold create
    split <;> rename_i outcome <;> rw [outcome] at created <;> exact created

end Fills

section Scripts
variable {st : Store}

theorem Store.Indexed.sameOrders (indexed : st.Indexed) {after : Store}
    (same : after = { st with orderRecords := after.orderRecords, pending := after.pending }) :
    after.Indexed := by
  rw [same]
  exact ⟨indexed.hashesOnly, indexed.wellFormed, indexed.score, indexed.member⟩

theorem atomicClosePosition_indexed (indexed : st.Indexed) (args : CloseArgs) :
    (atomicClosePosition st args).store.Indexed := by
  unfold atomicClosePosition
  dsimp only
  split
  next => exact indexed
  next h stored =>
    have wellFormed := indexed.wellFormed _ h stored
    obtain ⟨symbol, hasSymbol⟩ := wellFormed.symbol
    split_ifs with shut exceeds full
    · exact indexed
    · exact indexed
    · rw [hasSymbol]
      apply indexed.touch (p := args.positionId) (h := args.fullHash h)
      · exact (Store.OnlyPosition.hset _ st _).trans (Store.OnlyPosition.unindex _ _ _)
      · simp only [ScriptOutcome.store]
        rw [Store.hash_unindex, Store.hash_hset_self, stored, Option.getD_some]
      · exact ⟨wellFormed.userId, wellFormed.symbol, wellFormed.entryPrice, wellFormed.leverage,
          wellFormed.levels⟩
      · intro k s
        simp only [ScriptOutcome.store]
        rw [Store.score_unindex, Store.score_hset, indexed.score_of_hash stored]
        change _ = if h.symbol = some s then
          if some args.fullCloseStatus = some .OPEN then _ else none else none
        have closed : some args.fullCloseStatus ≠ some .OPEN := by
          unfold CloseArgs.fullCloseStatus
          split <;> decide
        rw [hasSymbol, if_neg closed]
        by_cases here : s = symbol
        · simp [here]
        · simp [here, Ne.symm here]
      · intro isOpen
        change some args.fullCloseStatus = some .OPEN at isOpen
        unfold CloseArgs.fullCloseStatus at isOpen
        split at isOpen <;> cases isOpen
    · apply indexed.touch (p := args.positionId) (h := args.partialHash h)
      · exact Store.OnlyPosition.hset _ st _
      · simp only [ScriptOutcome.store]
        rw [Store.hash_hset_self, stored, Option.getD_some]
      · exact ⟨wellFormed.userId, wellFormed.symbol, wellFormed.entryPrice, wellFormed.leverage,
          wellFormed.levels⟩
      · exact fun k s => indexed.score_of_hash stored k s
      · exact fun isOpen u owner => indexed.member _ h u stored isOpen owner

theorem PositionHash.not_open_of_closed {h : PositionHash}
    (closed : ∃ status ∈ h.status, status.Closed) : h.status ≠ some .OPEN := by
  rintro isOpen
  obtain ⟨status, stored, shut⟩ := closed
  cases Option.some.inj (isOpen.symm.trans stored)
  exact shut

theorem Store.Indexed.unscored {p : PositionId} {h : PositionHash} (indexed : st.Indexed)
    (stored : st.hash p = some h) (closed : h.status ≠ some .OPEN) (k : PriceIndex) (s : Symbol) :
    st.score k s p = none := by
  rw [indexed.score_of_hash stored, PositionHash.indexed, if_neg closed, ite_self]

/-- A reopened position is in its user's set, unless the script refuses it. -/
def ReopenListed (st : Store) (p : PositionId) (restoreSize : PositionHash → ℚ) : Prop :=
  ∀ h ∈ st.hash p, ∀ u ∈ h.userId, (∃ status ∈ h.status, status.Closed) → restoreSize h ≠ 0 →
    p ∈ st.userPositions u

instance (st : Store) (p : PositionId) (restoreSize : PositionHash → ℚ) :
    Decidable (ReopenListed st p restoreSize) := by
  unfold ReopenListed
  infer_instance

theorem atomicReopenPosition_indexed (indexed : st.Indexed) (p : PositionId) (timestampMs : Millis)
    (listed : ReopenListed st p PositionHash.restoreSize) :
    (atomicReopenPosition st p timestampMs).store.Indexed := by
  unfold atomicReopenPosition
  split
  next => exact indexed
  next h stored =>
    have wellFormed := indexed.wellFormed p h stored
    obtain ⟨symbol, hasSymbol⟩ := wellFormed.symbol
    obtain ⟨u, owner⟩ := wellFormed.userId
    obtain ⟨entry, entryPrice⟩ := wellFormed.entryPrice
    split_ifs with closed noSize
    · exact indexed
    · have unscored := indexed.unscored stored (PositionHash.not_open_of_closed closed)
      rw [hasSymbol, owner]
      dsimp only
      have reopened : (storeLeft id (((st.hset p (·.reopened timestampMs)).zadd .posOpen symbol p
          (h.entryPrice.getD 0)).zaddStoredLevels symbol p h.sl h.tp)).Indexed := by
        have same := Store.sameButIndex_zaddStoredLevels
          ((st.hset p (·.reopened timestampMs)).zadd .posOpen symbol p (h.entryPrice.getD 0))
          symbol p h.sl h.tp
        apply indexed.touch (p := p) (h := h.reopened timestampMs)
        · exact ((Store.OnlyPosition.hset p st _).trans (Store.OnlyPosition.zadd p _ _ _ _)).trans
            (Store.OnlyPosition.zaddStoredLevels p _ _ _ _)
        · rw [same]
          change ((st.hset p (·.reopened timestampMs)).hash p) = _
          rw [Store.hash_hset_self, stored, Option.getD_some]
        · exact ⟨wellFormed.userId, wellFormed.symbol, wellFormed.entryPrice, wellFormed.leverage,
            wellFormed.levels⟩
        · intro k s
          rw [Store.score_zaddStoredLevels, Store.score_zadd, Store.score_hset, unscored]
          change _ = if h.symbol = some s then h.level k else none
          rw [hasSymbol]
          by_cases here : s = symbol
          · subst here
            cases k with
            | posOpen => simp [Store.restoredLevel, PositionHash.level, entryPrice]
            | posSl => simp [Store.restoredLevel, PositionHash.level]
            | posTp =>
              by_cases userdata : h.sl = some .userdata
              · simp [Store.restoredLevel, PositionHash.level, userdata, wellFormed.levels userdata]
              · simp [Store.restoredLevel, PositionHash.level, userdata]
          · simp [here, Ne.symm here]
        · intro _ v owns
          rw [same]
          change p ∈ st.userPositions v
          exact listed h stored v owns closed noSize
      split <;> rename_i outcome <;> rw [outcome] at reopened <;> exact reopened
    · exact indexed

theorem atomicReopenPositionWithParams_indexed (indexed : st.Indexed) (p : PositionId)
    (timestampMs : Millis) (params : ParamOverrides)
    (listed : ReopenListed st p fun h => positiveOr params.size h.restoreSize) :
    (atomicReopenPositionWithParams st p timestampMs params).store.Indexed := by
  unfold atomicReopenPositionWithParams
  dsimp only
  split
  next => exact indexed
  next h stored =>
    have wellFormed := indexed.wellFormed p h stored
    obtain ⟨symbol, hasSymbol⟩ := wellFormed.symbol
    obtain ⟨u, owner⟩ := wellFormed.userId
    split_ifs with closed noSize
    · exact indexed
    · have unscored := indexed.unscored stored (PositionHash.not_open_of_closed closed)
      rw [hasSymbol, owner]
      apply indexed.touch (p := p) (h := { h.reopenedWith timestampMs params with
        sl := params.sl.map .num, tp := params.tp.map .num })
      · exact ((Store.OnlyPosition.hset p st _).trans
          (Store.OnlyPosition.replaceLevels _ _ _ _ _)).trans (Store.OnlyPosition.zadd p _ _ _ _)
      · simp only [ScriptOutcome.store]
        rw [Store.hash_zadd, Store.hash_replaceLevels_self, Store.hash_hset_self, stored]
        rfl
      · refine ⟨wellFormed.userId, wellFormed.symbol, ⟨_, rfl⟩, wellFormed.leverage, ?_⟩
        cases params.sl <;> simp
      · intro k s
        simp only [ScriptOutcome.store]
        rw [Store.score_zadd, Store.score_replaceLevels_self, Store.score_hset, Store.score_hset,
          unscored, unscored]
        change _ = if h.symbol = some s then PositionHash.level _ k else none
        rw [hasSymbol]
        by_cases here : s = symbol
        · subst here
          cases k with
          | posOpen => simp [PositionHash.level, PositionHash.reopenedWith]
          | posSl => cases params.sl <;> simp [PositionHash.level, LevelText.tonumber]
          | posTp => cases params.tp <;> simp [PositionHash.level, LevelText.tonumber]
        · simp [here, Ne.symm here]
      · intro _ v owns
        simp only [ScriptOutcome.store]
        rw [Store.userPositions_zadd, Store.userPositions_replaceLevels, Store.userPositions_hset]
        exact listed h stored v owns closed noSize
    · exact indexed

theorem atomicUpdatePositionParams_indexed (indexed : st.Indexed) (p : PositionId)
    (timestampMs : Millis) (params : ParamOverrides) :
    (atomicUpdatePositionParams st p timestampMs params).store.Indexed := by
  unfold atomicUpdatePositionParams
  dsimp only
  split
  next => exact indexed
  next h stored =>
    have wellFormed := indexed.wellFormed p h stored
    obtain ⟨symbol, hasSymbol⟩ := wellFormed.symbol
    obtain ⟨u, owner⟩ := wellFormed.userId
    obtain ⟨leverage, hasLeverage, positive⟩ := wellFormed.leverage
    split_ifs with shut
    · exact indexed
    · have isOpen := not_not.mp shut
      have kept : h.leverage.filter (0 < ·) = some leverage := by
        rw [hasLeverage]
        exact Option.filter_some_pos (decide_eq_true positive)
      rw [hasSymbol, owner, kept]
      dsimp only
      generalize positiveOr params.size (h.size.getD 0) = newSize
      generalize positiveOr params.entryPrice h.entryOrAvg = newEntry
      apply indexed.touch (p := p) (h := { h.resized timestampMs newSize newEntry with
        margin := some (newSize * newEntry / leverage)
        sl := params.sl.map .num, tp := params.tp.map .num })
      · exact (((Store.OnlyPosition.hset p st _).trans (Store.OnlyPosition.hset p _ _)).trans
          (Store.OnlyPosition.replaceLevels _ _ _ _ _)).trans (Store.OnlyPosition.zadd p _ _ _ _)
      · simp only [ScriptOutcome.store]
        rw [Store.hash_zadd, Store.hash_replaceLevels_self, Store.hash_hset_self,
          Store.hash_hset_self, stored]
        rfl
      · refine ⟨wellFormed.userId, wellFormed.symbol, ⟨_, rfl⟩, wellFormed.leverage, ?_⟩
        cases params.sl <;> simp
      · intro k s
        simp only [ScriptOutcome.store]
        rw [Store.score_zadd, Store.score_replaceLevels_self]
        simp only [Store.score_hset]
        rw [indexed.score_of_hash stored, indexed.score_of_hash stored]
        change _ = if h.symbol = some s then
          if h.status = some .OPEN then PositionHash.level _ k else none else none
        rw [hasSymbol, if_pos isOpen]
        by_cases here : s = symbol
        · subst here
          cases k with
          | posOpen => simp [PositionHash.level, PositionHash.resized]
          | posSl => cases params.sl <;> simp [PositionHash.level, LevelText.tonumber]
          | posTp => cases params.tp <;> simp [PositionHash.level, LevelText.tonumber]
        · simp [here, Ne.symm here]
      · intro _ v owns
        simp only [ScriptOutcome.store]
        rw [Store.userPositions_zadd, Store.userPositions_replaceLevels, Store.userPositions_hset,
          Store.userPositions_hset]
        exact indexed.member p h v stored isOpen owns

theorem atomicCancelOrder_indexed (indexed : st.Indexed) (o : OrderId) (timestampMs : Millis) :
    (atomicCancelOrder st o timestampMs).2.Indexed := by
  unfold atomicCancelOrder
  split
  next => exact indexed
  next order stored =>
    split_ifs
    · exact indexed
    · exact indexed.sameOrders rfl

end Scripts

/-- A call of one of the engine's scripts, or the SET that places an order. -/
inductive ScriptCall
  | placeOrder (o : OrderId) (order : Order)
  | atomicFillOrder (args : FillArgs) (existing old : List PositionId)
  | atomicCancelOrder (o : OrderId) (timestampMs : Millis)
  | atomicClosePosition (args : CloseArgs)
  | atomicReopenPosition (p : PositionId) (timestampMs : Millis)
  | atomicReopenPositionWithParams (p : PositionId) (timestampMs : Millis)
      (params : ParamOverrides)
  | atomicUpdatePositionParams (p : PositionId) (timestampMs : Millis) (params : ParamOverrides)

namespace Store

/-- The store a call leaves, also when it reports an error or raises. A fill
comes with a new uuid and reads each set in some order. -/
def call (st : Store) : ScriptCall → Option Store
  | .placeOrder o order => some (st.setOrder o order)
  | .atomicFillOrder args existing old =>
    if st.hash args.positionUuid = none ∧ ∀ order ∈ st.orders args.orderId,
        Smembers existing (st.userPositions order.userId) ∧
        Smembers old (st.oldUserPositions order.userId) then
      some (TradingPlatform.atomicFillOrder st args existing old).store
    else none
  | .atomicCancelOrder o timestampMs => some (TradingPlatform.atomicCancelOrder st o timestampMs).2
  | .atomicClosePosition args => some (TradingPlatform.atomicClosePosition st args).store
  | .atomicReopenPosition p timestampMs =>
    some (TradingPlatform.atomicReopenPosition st p timestampMs).store
  | .atomicReopenPositionWithParams p timestampMs params =>
    some (TradingPlatform.atomicReopenPositionWithParams st p timestampMs params).store
  | .atomicUpdatePositionParams p timestampMs params =>
    some (TradingPlatform.atomicUpdatePositionParams st p timestampMs params).store

/-- The calls that keep hashes and indexes together: a merging order brings no
level but the position's own, an opening one no take profit after a null stop
loss, and a reopened position is still in its user's set. -/
def KeepsIndexes (st : Store) : ScriptCall → Prop
  | .atomicFillOrder args existing _ =>
    ∀ order ∈ st.orders args.orderId, args.Pass order →
      KeepsLevels st order args.fillSize existing
  | .atomicReopenPosition p _ => ReopenListed st p PositionHash.restoreSize
  | .atomicReopenPositionWithParams p _ params =>
    ReopenListed st p fun h => positiveOr params.size h.restoreSize
  | _ => True

instance (st : Store) : (call : ScriptCall) → Decidable (st.KeepsIndexes call)
  | .placeOrder .. => inferInstanceAs (Decidable True)
  | .atomicFillOrder args existing _ => inferInstanceAs (Decidable
      (∀ order ∈ st.orders args.orderId, args.Pass order →
        KeepsLevels st order args.fillSize existing))
  | .atomicCancelOrder .. => inferInstanceAs (Decidable True)
  | .atomicClosePosition .. => inferInstanceAs (Decidable True)
  | .atomicReopenPosition p _ =>
    inferInstanceAs (Decidable (ReopenListed st p PositionHash.restoreSize))
  | .atomicReopenPositionWithParams p _ params =>
    inferInstanceAs (Decidable (ReopenListed st p fun h => positiveOr params.size h.restoreSize))
  | .atomicUpdatePositionParams .. => inferInstanceAs (Decidable True)

end Store

theorem atomicFillOrder_indexed {st : Store} (indexed : st.Indexed) (args : FillArgs)
    (existing old : List PositionId) (fresh : st.hash args.positionUuid = none)
    (keeps : st.KeepsIndexes (.atomicFillOrder args existing old)) :
    (atomicFillOrder st args existing old).store.Indexed := by
  rcases atomicFillOrder_left st args existing old with same | ⟨order, el, accepted, left⟩
  · rw [same]
    exact indexed
  · rw [left]
    have marked : (st.markFilled args order).Indexed := indexed.sameOrders rfl
    have unused : (st.markFilled args order).hash
      (Fill.ofArgs args order el accepted.leverage_pos).positionUuid = none := fresh
    have levels : KeepsLevels (st.markFilled args order)
        (Fill.ofArgs args order el accepted.leverage_pos).order args.fillSize existing :=
      keeps order accepted.stored accepted.pass
    exact Fill.applyToPositions_indexed marked unused levels

theorem Store.call_indexed {before after : Store} {call : ScriptCall}
    (keeps : before.KeepsIndexes call) (taken : before.call call = some after)
    (indexed : before.Indexed) : after.Indexed := by
  cases call with
  | placeOrder o order =>
    cases taken
    exact indexed.sameOrders rfl
  | atomicFillOrder args existing old =>
    simp only [Store.call] at taken
    split_ifs at taken with reads
    cases taken
    exact atomicFillOrder_indexed indexed args existing old reads.1 keeps
  | atomicCancelOrder o timestampMs =>
    cases taken
    exact atomicCancelOrder_indexed indexed o timestampMs
  | atomicClosePosition args =>
    cases taken
    exact atomicClosePosition_indexed indexed args
  | atomicReopenPosition p timestampMs =>
    cases taken
    exact atomicReopenPosition_indexed indexed p timestampMs keeps
  | atomicReopenPositionWithParams p timestampMs params =>
    cases taken
    exact atomicReopenPositionWithParams_indexed indexed p timestampMs params keeps
  | atomicUpdatePositionParams p timestampMs params =>
    cases taken
    exact atomicUpdatePositionParams_indexed indexed p timestampMs params

def nettingBuy (o : OrderId) (size sl tp : ℚ) : Order :=
  { id := o, userId := 7, symbol := "EURUSD", side := .BUY, orderType := .MARKET, size := size
    stopLoss := .num sl, takeProfit := .num tp, accountType := some "netting" }

/-- Two buys of a netting account, the second with a tighter stop loss. -/
def tightenedStopCalls : List ScriptCall :=
  [.placeOrder 1 (nettingBuy 1 2 8 20),
   .atomicFillOrder ⟨1, 10, 2, 1000, .uuid 1, some 100⟩ [] [],
   .placeOrder 2 (nettingBuy 2 1 9 20),
   .atomicFillOrder ⟨2, 13, 1, 2000, .uuid 2, some 100⟩ [.uuid 1] []]

/-- A merge under the position's own levels, a partial and a full close, a
reopening and new parameters. -/
def reopenCalls : List ScriptCall :=
  [.placeOrder 1 (nettingBuy 1 2 8 20),
   .atomicFillOrder ⟨1, 10, 2, 1000, .uuid 1, some 100⟩ [] [],
   .placeOrder 2 (nettingBuy 2 1 8 20),
   .atomicFillOrder ⟨2, 13, 1, 2000, .uuid 2, some 100⟩ [.uuid 1] [],
   .atomicClosePosition { positionId := .uuid 1, exitPrice := 12, closeSize := 1, timestampMs := 3000 },
   .atomicClosePosition { positionId := .uuid 1, exitPrice := 12, closeSize := 0, timestampMs := 4000 },
   .atomicReopenPosition (.uuid 1) 5000,
   .atomicUpdatePositionParams (.uuid 1) 6000 { sl := some 9 }]

end TradingPlatform
