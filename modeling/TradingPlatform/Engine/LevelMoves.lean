import TradingPlatform.Engine.FillEffect
import TradingPlatform.Engine.SltpTriggers

namespace TradingPlatform

/-- The levels of a position that an index keeps. -/
inductive LevelField
  | sl | tp
  deriving DecidableEq, Repr

def LevelField.index : LevelField → PriceIndex
  | .sl => .posSl
  | .tp => .posTp

/-- The hash field of the level. -/
def PositionHash.text (h : PositionHash) : LevelField → Option LevelText
  | .sl => h.sl
  | .tp => h.tp

/-- What a position hash says of one level. -/
structure LevelView where
  symbol : Option Symbol
  status : Option PositionStatus
  text : Option LevelText
  deriving DecidableEq, Repr

def PositionHash.view (h : PositionHash) (f : LevelField) : LevelView :=
  ⟨h.symbol, h.status, h.text f⟩

/-- One level of one position: its hash and its scores in the level's indexes. -/
@[ext] structure LevelState where
  view : Option LevelView
  score : Symbol → Option ℚ

def Store.levelState (st : Store) (f : LevelField) (p : PositionId) : LevelState where
  view := (st.hash p).map (·.view f)
  score := fun s => st.score f.index s p

namespace LevelState

/-- The scores after a ZADD of the level, if it is one. -/
def zadd (score : Symbol → Option ℚ) (s : Symbol) (added : Option ℚ) : Symbol → Option ℚ :=
  Function.update score s (added.or (score s))

/-- The scores after a ZREM, if the symbol is known. -/
def zrem (score : Symbol → Option ℚ) : Option Symbol → Symbol → Option ℚ
  | none => score
  | some s => Function.update score s none

/-- Only an open position is indexed, under its symbol and the level that its
hash says. -/
def Live (v : LevelState) : Prop :=
  ∀ s, ∀ x ∈ v.score s, v.view = some ⟨some s, some .OPEN, some (.num x)⟩

/-- The level is set and indexed. -/
def Holds (v : LevelState) (s : Symbol) (x : ℚ) : Prop :=
  v.view = some ⟨some s, some .OPEN, some (.num x)⟩ ∧ v.score s = some x

/-- Every level in the hash has the property. -/
def Within (P : ℚ → Prop) (v : LevelState) : Prop :=
  ∀ view ∈ v.view, ∀ x, view.text = some (.num x) → P x

end LevelState

/-- What a script does to a level. A `P` holds of the levels it brings. -/
inductive LevelMove (P : ℚ → Prop) : LevelState → LevelState → Prop
  | refl (v : LevelState) : LevelMove P v v
  | opened (score : Symbol → Option ℚ) (s : Symbol) (text : LevelText) (added : Option ℚ)
      (levels : ∀ x ∈ added, text = .num x) (within : ∀ x, text = .num x → P x) :
      LevelMove P ⟨none, score⟩
        ⟨some ⟨some s, some .OPEN, some text⟩, LevelState.zadd score s added⟩
  | listed (score : Symbol → Option ℚ) (s : Symbol) (status : Option PositionStatus)
      (text : Option LevelText) (added : Option ℚ) (levels : ∀ x ∈ added, text = some (.num x)) :
      LevelMove P ⟨some ⟨some s, status, text⟩, score⟩
        ⟨some ⟨some s, some .OPEN, text⟩, LevelState.zadd score s added⟩
  | closed (score : Symbol → Option ℚ) (symbol : Option Symbol) (status : PositionStatus)
      (text : Option LevelText) (shut : status ≠ .OPEN) :
      LevelMove P ⟨some ⟨symbol, some .OPEN, text⟩, score⟩
        ⟨some ⟨symbol, some status, text⟩, LevelState.zrem score symbol⟩
  | replaced (score : Symbol → Option ℚ) (s : Symbol) (status : Option PositionStatus)
      (text : Option LevelText) (level : Option ℚ) (within : ∀ x ∈ level, P x) :
      LevelMove P ⟨some ⟨some s, status, text⟩, score⟩
        ⟨some ⟨some s, some .OPEN, level.map .num⟩, Function.update score s level⟩

namespace LevelMove
variable {P : ℚ → Prop} {v w : LevelState}

theorem live (move : LevelMove P v w) (live : v.Live) : w.Live := by
  cases move with
  | refl => exact live
  | opened score s text added levels within =>
    intro s' x scored
    by_cases here : s' = s
    · subst here
      have unscored : score s' = none := by
        by_contra isScored
        obtain ⟨y, before⟩ := Option.ne_none_iff_exists'.mp isScored
        cases live s' y before
      have isAdded : added = some x := by
        simpa [LevelState.zadd, unscored] using scored
      rw [levels x isAdded]
    · have before : score s' = some x := by
        simpa [LevelState.zadd, here] using scored
      cases live s' x before
  | listed score s status text added levels =>
    intro s' x scored
    by_cases here : s' = s
    · subst here
      have either : added = some x ∨ (added = none ∧ score s' = some x) := by
        simpa [LevelState.zadd, Option.or_eq_some_iff] using scored
      rcases either with isAdded | ⟨-, before⟩
      · rw [levels x isAdded]
      · have same := live s' x before
        simp only [Option.some.injEq, LevelView.mk.injEq, true_and] at same
        rw [same.2]
    · have before : score s' = some x := by
        simpa [LevelState.zadd, here] using scored
      have same := live s' x before
      simp only [Option.some.injEq, LevelView.mk.injEq] at same
      exact absurd same.1.symm here
  | closed score symbol status text shut =>
    intro s' x scored
    have before : score s' = some x := by
      cases symbol with
      | none => exact scored
      | some s =>
        by_cases here : s' = s
        · simp [LevelState.zrem, here] at scored
        · simpa [LevelState.zrem, here] using scored
    have same := live s' x before
    simp only [Option.some.injEq, LevelView.mk.injEq] at same
    obtain ⟨rfl, -⟩ := same
    simp [LevelState.zrem] at scored
  | replaced score s status text level within =>
    intro s' x scored
    by_cases here : s' = s
    · subst here
      have isLevel : level = some x := by simpa using scored
      rw [isLevel]
      rfl
    · have before : score s' = some x := by simpa [here] using scored
      have same := live s' x before
      simp only [Option.some.injEq, LevelView.mk.injEq] at same
      exact absurd same.1.symm here

/-- A level that was set and indexed stays indexed as long as the hash says it. -/
theorem holds {s : Symbol} {x : ℚ} (move : LevelMove P v w) (holds : v.Holds s x)
    (kept : w.view = v.view) : w.Holds s x := by
  refine ⟨kept.trans holds.1, ?_⟩
  obtain ⟨view, scored⟩ := holds
  cases move with
  | refl => exact scored
  | opened score s' text added levels within => cases view
  | listed score s' status text added levels =>
    simp only [Option.some.injEq, LevelView.mk.injEq] at view
    obtain ⟨rfl, -, rfl⟩ := view
    cases added with
    | none => simpa [LevelState.zadd] using scored
    | some y =>
      have same := levels y rfl
      simp only [Option.some.injEq, LevelText.num.injEq] at same
      simp [LevelState.zadd, same]
  | closed score symbol status text shut =>
    simp only [Option.some.injEq, LevelView.mk.injEq] at kept
    exact absurd kept.2.1 shut
  | replaced score s' status text level within =>
    simp only [Option.some.injEq, LevelView.mk.injEq] at view kept
    obtain ⟨rfl, -, rfl⟩ := view
    have isLevel : level = some x := by simpa using kept.2.2
    simp [isLevel]

theorem within (move : LevelMove P v w) (within : v.Within P) : w.Within P := by
  cases move with
  | refl => exact within
  | opened score s text added levels brings =>
    intro view isView x isText
    cases isView
    exact brings x (Option.some.inj isText)
  | listed score s status text added levels =>
    intro view isView x isText
    cases isView
    exact within _ rfl x isText
  | closed score symbol status text shut =>
    intro view isView x isText
    cases isView
    exact within _ rfl x isText
  | replaced score s status text level brings =>
    intro view isView x isText
    cases isView
    have isLevel : level = some x := by simpa using isText
    exact brings x isLevel

/-- A position keeps its symbol. -/
theorem symbol {view : LevelView} (move : LevelMove P v w) (isView : view ∈ v.view) :
    ∃ later ∈ w.view, later.symbol = view.symbol := by
  cases move with
  | refl => exact ⟨view, isView, rfl⟩
  | opened score s text added levels brings => cases isView
  | listed score s status text added levels =>
    cases isView
    exact ⟨_, rfl, rfl⟩
  | closed score symbol status text shut =>
    cases isView
    exact ⟨_, rfl, rfl⟩
  | replaced score s status text level brings =>
    cases isView
    exact ⟨_, rfl, rfl⟩

end LevelMove

section Scripts
variable {P : ℚ → Prop} {st before after : Store} {p q : PositionId} {f : LevelField}

theorem Store.levelState_eq {view : Option LevelView} {score : Symbol → Option ℚ}
    (hash : (st.hash p).map (·.view f) = view) (scores : ∀ s, st.score f.index s p = score s) :
    st.levelState f p = ⟨view, score⟩ :=
  LevelState.ext hash (funext scores)

theorem Store.OnlyPosition.levelState (only : OnlyPosition p before after) (differ : q ≠ p) :
    after.levelState f q = before.levelState f q :=
  Store.levelState_eq (by rw [only.hash q differ]) fun s => only.score f.index s q differ

/-- A write that leaves the symbol, the status and the levels of a hash alone. -/
theorem Store.levelState_hset {write : PositionHash → PositionHash}
    (kept : ∀ f, some ((write ((st.hash p).getD {})).view f) = (st.hash p).map (·.view f))
    (f : LevelField) (q : PositionId) :
    (st.hset p write).levelState f q = st.levelState f q := by
  refine Store.levelState_eq ?_ fun s => Store.score_hset ..
  rw [Store.hash_hset]
  split_ifs with here
  · subst here
    exact kept f
  · rfl

/-- Only the position that a script writes needs a move. -/
theorem LevelMove.of_only (only : Store.OnlyPosition p before after)
    (written : ∀ f, LevelMove P (before.levelState f p) (after.levelState f p)) (f : LevelField)
    (q : PositionId) : LevelMove P (before.levelState f q) (after.levelState f q) := by
  by_cases same : q = p
  · subst same
    exact written f
  · rw [only.levelState same]
    exact .refl _

/-- The index of open positions holds no level. -/
theorem score_zaddOpen (f : LevelField) (s s' : Symbol) (x : ℚ) :
    (st.zadd .posOpen s p x).score f.index s' q = st.score f.index s' q := by
  cases f <;> rw [Store.score_zadd] <;> exact if_neg fun same => nomatch same.1

/-- The levels that an order brings have the property. -/
def Order.LevelsWithin (order : Order) (P : ℚ → Prop) : Prop :=
  (∀ x ∈ order.stopLoss.tonumber, P x) ∧ ∀ x ∈ order.takeProfit.tonumber, P x

def ParamOverrides.LevelsWithin (params : ParamOverrides) (P : ℚ → Prop) : Prop :=
  (∀ x ∈ params.sl, P x) ∧ ∀ x ∈ params.tp, P x

def ParamOverrides.level (params : ParamOverrides) : LevelField → Option ℚ
  | .sl => params.sl
  | .tp => params.tp

def Order.level (order : Order) : LevelField → JsonNum
  | .sl => order.stopLoss
  | .tp => order.takeProfit

theorem Order.LevelsWithin.level {order : Order} (within : order.LevelsWithin P) (f : LevelField) :
    ∀ x, (order.level f).levelText = .num x → P x := by
  intro x isText
  have isLevel : (order.level f).tonumber = some x := by
    rw [← JsonNum.tonumber_levelText, isText]
    rfl
  cases f with
  | sl => exact within.1 x isLevel
  | tp => exact within.2 x isLevel

/-- What the two ZADDs of an order add for the level. -/
theorem Order.zaddedLevel_level {order : Order} (f : LevelField) :
    ∀ x ∈ Store.zaddedLevel order.stopLoss order.takeProfit f.index,
      (order.level f).tonumber = some x := by
  intro x isAdded
  cases f with
  | sl => exact isAdded
  | tp =>
    simp only [LevelField.index, Store.zaddedLevel] at isAdded
    split_ifs at isAdded
    · cases isAdded
    · exact isAdded

theorem LevelsKept.zaddedLevel {order : Order} {h : PositionHash} (kept : LevelsKept order h)
    (f : LevelField) : ∀ x ∈ Store.zaddedLevel order.stopLoss order.takeProfit f.index,
      h.text f = some (.num x) := by
  intro x isAdded
  have isLevel := Order.zaddedLevel_level f x isAdded
  cases f with
  | sl => exact LevelText.bind_tonumber_eq_some.mp (kept.1 x isLevel)
  | tp =>
    simp only [LevelField.index, Store.zaddedLevel] at isAdded
    split_ifs at isAdded with raises
    · cases isAdded
    · exact LevelText.bind_tonumber_eq_some.mp (kept.2 raises x isAdded)

namespace Fill
variable {fill : Fill} {h : PositionHash}

theorem addTo_levelMove (stored : st.hash p = some h) (isOpen : h.IsOpenOn fill.order.symbol)
    (kept : LevelsKept fill.order h) (f : LevelField) (q : PositionId) :
    LevelMove P (st.levelState f q) ((storeLeft Prod.fst (addTo st fill p h)).levelState f q) := by
  rw [addTo_left]
  refine LevelMove.of_only (p := p) (((Store.OnlyPosition.hset p st _).trans
    (Store.OnlyPosition.zadd p _ _ _ _)).trans (Store.OnlyPosition.zaddLevels p _ _ _ _)) ?_ f q
  change ∀ f, LevelMove P _ ((storeLeft id (((merged st fill p h).zadd .posOpen fill.order.symbol p
    (fill.newEntryPrice (h.size.getD 0) (h.entryPrice.getD 0))).zaddLevels fill.order.symbol p
      fill.order.stopLoss fill.order.takeProfit)).levelState f p)
  intro f
  have earlier : st.levelState f p = ⟨some ⟨some fill.order.symbol, some .OPEN, h.text f⟩,
      fun s => st.score f.index s p⟩ := by
    refine Store.levelState_eq ?_ fun _ => rfl
    rw [stored, Option.map_some, PositionHash.view, isOpen.1, isOpen.2]
  have later : (storeLeft id (((merged st fill p h).zadd .posOpen fill.order.symbol p
      (fill.newEntryPrice (h.size.getD 0) (h.entryPrice.getD 0))).zaddLevels fill.order.symbol p
        fill.order.stopLoss fill.order.takeProfit)).levelState f p =
      ⟨some ⟨some fill.order.symbol, some .OPEN, h.text f⟩,
        LevelState.zadd (fun s => st.score f.index s p) fill.order.symbol
          (Store.zaddedLevel fill.order.stopLoss fill.order.takeProfit f.index)⟩ := by
    refine Store.levelState_eq ?_ fun s => ?_
    · rw [Store.hash_zaddLevels, Store.hash_zadd, merged, Store.hash_hset_self, stored,
        Option.getD_some, Option.map_some]
      have view : (fill.mergeHash (h.size.getD 0) (h.entryPrice.getD 0) h.leverage h).view f =
          ⟨h.symbol, h.status, h.text f⟩ := by
        cases f <;> rfl
      rw [view, isOpen.1, isOpen.2]
    · rw [Store.score_zaddLevels, score_zaddOpen, merged, Store.score_hset]
      by_cases here : s = fill.order.symbol
      · subst here
        simp [LevelState.zadd]
      · simp [LevelState.zadd, here]
  rw [earlier, later]
  exact .listed _ _ _ _ _ (kept.zaddedLevel f)

theorem openPosition_levelMove {size leverage : ℚ} (fresh : st.hash fill.positionUuid = none)
    (within : fill.order.LevelsWithin P) (f : LevelField) :
    LevelMove P (st.levelState f fill.positionUuid)
      ((storeLeft id (openPosition st fill size leverage)).levelState f fill.positionUuid) := by
  rw [openPosition_left]
  have earlier : st.levelState f fill.positionUuid =
      ⟨none, fun s => st.score f.index s fill.positionUuid⟩ := by
    refine Store.levelState_eq ?_ fun _ => rfl
    rw [fresh, Option.map_none]
  have later : (storeLeft id (((opened st fill size leverage).zadd .posOpen fill.order.symbol
      fill.positionUuid fill.fillPrice).zaddLevels fill.order.symbol fill.positionUuid
        fill.order.stopLoss fill.order.takeProfit)).levelState f fill.positionUuid =
      ⟨some ⟨some fill.order.symbol, some .OPEN, some (fill.order.level f).levelText⟩,
        LevelState.zadd (fun s => st.score f.index s fill.positionUuid) fill.order.symbol
          (Store.zaddedLevel fill.order.stopLoss fill.order.takeProfit f.index)⟩ := by
    refine Store.levelState_eq ?_ fun s => ?_
    · rw [Store.hash_zaddLevels, Store.hash_zadd, opened, Store.hash_sadd, Store.hash_hset_self,
        fresh, Option.getD_none, Option.map_some]
      cases f <;> rfl
    · rw [Store.score_zaddLevels, score_zaddOpen, opened, Store.score_sadd, Store.score_hset]
      by_cases here : s = fill.order.symbol
      · subst here
        simp [LevelState.zadd]
      · simp [LevelState.zadd, here]
  rw [earlier, later]
  refine .opened _ _ _ _ ?_ (within.level f)
  intro x isAdded
  have isLevel := Order.zaddedLevel_level f x isAdded
  rw [← JsonNum.tonumber_levelText] at isLevel
  cases text : (fill.order.level f).levelText with
  | null => rw [text] at isLevel; cases isLevel
  | userdata => rw [text] at isLevel; cases isLevel
  | num y => rw [text] at isLevel; cases isLevel; rfl

theorem openPosition_only (size leverage : ℚ) : Store.OnlyPosition fill.positionUuid st
    (storeLeft id (openPosition st fill size leverage)) := by
  rw [openPosition_left]
  exact (((Store.OnlyPosition.hset _ st _).trans (Store.OnlyPosition.sadd _ _ _)).trans
    (Store.OnlyPosition.zadd _ _ _ _ _)).trans (Store.OnlyPosition.zaddLevels _ _ _ _ _)

theorem closeNetted_only (newRealized : ℚ) :
    Store.OnlyPosition p st (closeNetted st fill p newRealized) :=
  ((Store.OnlyPosition.hset p st _).trans (Store.OnlyPosition.srem p _ _)).trans
    (Store.OnlyPosition.unindex p _ _)

theorem closeNetted_levelMove (stored : st.hash p = some h)
    (isOpen : h.IsOpenOn fill.order.symbol) (newRealized : ℚ) (f : LevelField) (q : PositionId) :
    LevelMove P (st.levelState f q) ((closeNetted st fill p newRealized).levelState f q) := by
  refine LevelMove.of_only (closeNetted_only newRealized) ?_ f q
  intro f
  have earlier : st.levelState f p = ⟨some ⟨some fill.order.symbol, some .OPEN, h.text f⟩,
      fun s => st.score f.index s p⟩ := by
    refine Store.levelState_eq ?_ fun _ => rfl
    rw [stored, Option.map_some, PositionHash.view, isOpen.1, isOpen.2]
  have later : (closeNetted st fill p newRealized).levelState f p =
      ⟨some ⟨some fill.order.symbol, some .CLOSED, h.text f⟩,
        LevelState.zrem (fun s => st.score f.index s p) (some fill.order.symbol)⟩ := by
    refine Store.levelState_eq ?_ fun s => ?_
    · rw [closeNetted, Store.hash_unindex, Store.hash_srem, Store.hash_hset_self, stored,
        Option.getD_some, Option.map_some]
      have view : (fill.closedHash newRealized h).view f = ⟨h.symbol, some .CLOSED, h.text f⟩ := by
        cases f <;> rfl
      rw [view, isOpen.1]
    · rw [closeNetted, Store.score_unindex, Store.score_srem, Store.score_hset]
      by_cases here : s = fill.order.symbol
      · subst here
        simp [LevelState.zrem]
      · simp [LevelState.zrem, here]
  rw [earlier, later]
  exact .closed _ _ _ _ (by decide)

/-- A flip closes one position and opens another. -/
theorem netAgainst_levelMove (fresh : st.hash fill.positionUuid = none)
    (stored : st.hash p = some h) (isOpen : h.IsOpenOn fill.order.symbol)
    (within : fill.order.LevelsWithin P) (f : LevelField) (q : PositionId) : LevelMove P
      (st.levelState f q) ((storeLeft Prod.fst (netAgainst st fill p h)).levelState f q) := by
  unfold netAgainst
  dsimp only
  split_ifs with remains exact
  · refine LevelMove.of_only (p := p) ((Store.OnlyPosition.hset p st _).trans
      (Store.OnlyPosition.zadd p _ _ _ _)) ?_ f q
    intro f
    have same : ((st.hset p (fill.reducedHash (h.size.getD 0 - fill.fillSize)
        (h.entryPrice.getD 0) (fill.posLevOrFill h.leverage .absent) (h.realizedPnl.getD 0 +
          pnlClose h.side (h.entryPrice.getD 0) fill.fillPrice
            (min (h.size.getD 0) fill.fillSize)))).zadd .posOpen fill.order.symbol p
              (h.entryPrice.getD 0)).levelState f p = st.levelState f p := by
      refine Store.levelState_eq ?_ fun s => ?_
      · rw [Store.hash_zadd, Store.hash_hset_self, stored, Option.getD_some, Option.map_some]
        cases f <;> rfl
      · rw [score_zaddOpen, Store.score_hset]
    rw [same]
    exact .refl _
  · exact closeNetted_levelMove stored isOpen _ f q
  · generalize h.realizedPnl.getD 0 + _ = newRealized
    have differ : fill.positionUuid ≠ p := by
      rintro same
      rw [same, stored] at fresh
      cases fresh
    have unused : (closeNetted st fill p newRealized).hash fill.positionUuid = none := by
      rw [closeNetted, Store.hash_unindex, Store.hash_srem, Store.hash_hset_ne _ _ _ _ differ, fresh]
    refine (congrArg (fun after : Store => LevelMove P (st.levelState f q) (after.levelState f q))
      (storeLeft_paired _ _)).mpr ?_
    by_cases isNew : q = fill.positionUuid
    · subst isNew
      rw [← (closeNetted_only newRealized).levelState differ]
      exact openPosition_levelMove unused within f
    · rw [(openPosition_only _ _).levelState isNew]
      exact closeNetted_levelMove stored isOpen newRealized f q

theorem applyToPositions_levelMove {existing old : List PositionId} (hashes : st.HashesOnly)
    (fresh : st.hash fill.positionUuid = none) (within : fill.order.LevelsWithin P)
    (kept : ∀ p h, fill.order.target st existing = .merge p h → LevelsKept fill.order h)
    (f : LevelField) (q : PositionId) : LevelMove P (st.levelState f q)
      ((storeLeft Prod.fst (applyToPositions st fill existing old)).levelState f q) := by
  rw [applyToPositions_eq hashes]
  cases found : fill.order.target st existing with
  | merge p h =>
    obtain ⟨_, stored, isOpen, _⟩ := Order.target_merge found
    exact addTo_levelMove stored isOpen (kept p h found) f q
  | net p h =>
    obtain ⟨_, stored, isOpen, _⟩ := Order.target_net found
    exact netAgainst_levelMove fresh stored isOpen within f q
  | fresh =>
    refine (congrArg (fun after : Store => LevelMove P (st.levelState f q) (after.levelState f q))
      (storeLeft_paired _ _)).mpr ?_
    by_cases isNew : q = fill.positionUuid
    · subst isNew
      exact openPosition_levelMove fresh within f
    · rw [(openPosition_only _ _).levelState isNew]
      exact .refl _

end Fill

/-- The fill merges no other level into a position than its own. -/
def Store.MergesLevels (st : Store) (args : FillArgs) (existing : List PositionId) : Prop :=
  ∀ order ∈ st.orders args.orderId, args.Pass order →
    match order.target st existing with
    | .merge _ h => LevelsKept order h
    | _ => True

theorem atomicFillOrder_levelMove {args : FillArgs} {existing old : List PositionId}
    (hashes : st.HashesOnly) (fresh : st.hash args.positionUuid = none)
    (within : ∀ order ∈ st.orders args.orderId, order.LevelsWithin P)
    (merges : st.MergesLevels args existing) (f : LevelField) (q : PositionId) :
    LevelMove P (st.levelState f q)
      ((atomicFillOrder st args existing old).store.levelState f q) := by
  rcases atomicFillOrder_left st args existing old with same | ⟨order, el, accepted, left⟩
  · rw [same]
    exact .refl _
  · rw [left]
    have marked : (st.markFilled args order).HashesOnly := hashes
    have unused : (st.markFilled args order).hash
      (Fill.ofArgs args order el accepted.leverage_pos).positionUuid = none := fresh
    have levels : (Fill.ofArgs args order el accepted.leverage_pos).order.LevelsWithin P :=
      within order accepted.stored
    refine Fill.applyToPositions_levelMove marked unused levels ?_ f q
    intro p h found
    have kept := merges order accepted.stored accepted.pass
    have same : order.target st existing = .merge p h := found
    rw [same] at kept
    exact kept

theorem atomicClosePosition_levelMove (args : CloseArgs) (f : LevelField) (q : PositionId) :
    LevelMove P (st.levelState f q) ((atomicClosePosition st args).store.levelState f q) := by
  unfold atomicClosePosition
  dsimp only
  cases stored : st.hash args.positionId with
  | none => exact .refl _
  | some h =>
    dsimp only
    split_ifs with shut exceeds whole
    · exact .refl _
    · exact .refl _
    · have isOpen : h.status = some .OPEN := not_not.mp shut
      have closes : args.fullCloseStatus ≠ .OPEN := by
        unfold CloseArgs.fullCloseStatus
        split <;> decide
      have earlier (f : LevelField) : st.levelState f args.positionId =
          ⟨some ⟨h.symbol, some .OPEN, h.text f⟩, fun s => st.score f.index s args.positionId⟩ := by
        refine Store.levelState_eq ?_ fun _ => rfl
        rw [stored, Option.map_some, PositionHash.view, isOpen]
      have view (f : LevelField) : (args.fullHash h).view f =
          ⟨h.symbol, some args.fullCloseStatus, h.text f⟩ := by
        cases f <;> rfl
      cases symbol : h.symbol with
      | none =>
        refine LevelMove.of_only (Store.OnlyPosition.hset args.positionId st _) ?_ f q
        intro f
        have later : (st.hset args.positionId args.fullHash).levelState f args.positionId =
            ⟨some ⟨none, some args.fullCloseStatus, h.text f⟩,
              LevelState.zrem (fun s => st.score f.index s args.positionId) none⟩ := by
          refine Store.levelState_eq ?_ fun s => ?_
          · rw [Store.hash_hset_self, stored, Option.getD_some, Option.map_some, view, symbol]
          · rw [Store.score_hset]
            rfl
        rw [earlier, symbol]
        refine (congrArg (LevelMove P _) later).mpr ?_
        exact .closed _ _ _ _ closes
      | some s =>
        refine LevelMove.of_only ((Store.OnlyPosition.hset args.positionId st _).trans
          (Store.OnlyPosition.unindex _ _ _)) ?_ f q
        intro f
        have later : ((st.hset args.positionId args.fullHash).unindex s args.positionId).levelState
            f args.positionId = ⟨some ⟨some s, some args.fullCloseStatus, h.text f⟩,
              LevelState.zrem (fun s => st.score f.index s args.positionId) (some s)⟩ := by
          refine Store.levelState_eq ?_ fun s' => ?_
          · rw [Store.hash_unindex, Store.hash_hset_self, stored, Option.getD_some,
              Option.map_some, view, symbol]
          · rw [Store.score_unindex, Store.score_hset]
            by_cases here : s' = s
            · simp [LevelState.zrem, here]
            · simp [LevelState.zrem, here]
        rw [earlier, symbol]
        refine (congrArg (LevelMove P _) later).mpr ?_
        exact .closed _ _ _ _ closes
    · refine (congrArg (LevelMove P _) (Store.levelState_hset ?_ f q)).mpr (.refl _)
      intro f
      rw [stored, Option.getD_some, Option.map_some, Option.some.injEq]
      cases f <;> rfl

theorem restoredLevel_text (h : PositionHash) (f : LevelField) :
    ∀ x ∈ Store.restoredLevel h.sl h.tp f.index, h.text f = some (.num x) := by
  intro x isRestored
  cases f with
  | sl => exact LevelText.bind_tonumber_eq_some.mp isRestored
  | tp =>
    simp only [LevelField.index, Store.restoredLevel] at isRestored
    split_ifs at isRestored
    · cases isRestored
    · exact LevelText.bind_tonumber_eq_some.mp isRestored

/-- The ZADD and the two ZADDs that follow when a position is reopened. -/
theorem reopened_levelMove {h : PositionHash} {s : Symbol} (timestampMs : Millis) (entry : ℚ)
    (stored : st.hash p = some h) (symbol : h.symbol = some s) (f : LevelField) (q : PositionId) :
    LevelMove P (st.levelState f q) ((storeLeft id (((st.hset p (·.reopened timestampMs)).zadd
      .posOpen s p entry).zaddStoredLevels s p h.sl h.tp)).levelState f q) := by
  refine LevelMove.of_only (((Store.OnlyPosition.hset p st _).trans
    (Store.OnlyPosition.zadd p _ _ _ _)).trans (Store.OnlyPosition.zaddStoredLevels p _ _ _ _)) ?_ f q
  intro f
  have earlier : st.levelState f p =
      ⟨some ⟨some s, h.status, h.text f⟩, fun s => st.score f.index s p⟩ := by
    refine Store.levelState_eq ?_ fun _ => rfl
    rw [stored, Option.map_some, PositionHash.view, symbol]
  have later : (storeLeft id (((st.hset p (·.reopened timestampMs)).zadd .posOpen s p
      entry).zaddStoredLevels s p h.sl h.tp)).levelState f p =
      ⟨some ⟨some s, some .OPEN, h.text f⟩, LevelState.zadd (fun s => st.score f.index s p) s
        (Store.restoredLevel h.sl h.tp f.index)⟩ := by
    refine Store.levelState_eq ?_ fun s' => ?_
    · rw [(Store.sameButIndex_zaddStoredLevels _ s p h.sl h.tp).hash_eq, Store.hash_zadd,
        Store.hash_hset_self, stored, Option.getD_some, Option.map_some]
      have view : (h.reopened timestampMs).view f = ⟨h.symbol, some .OPEN, h.text f⟩ := by
        cases f <;> rfl
      rw [view, symbol]
    · rw [Store.score_zaddStoredLevels, score_zaddOpen, Store.score_hset]
      by_cases here : s' = s
      · subst here
        simp [LevelState.zadd]
      · simp [LevelState.zadd, here]
  rw [earlier, later]
  exact .listed _ _ _ _ _ (restoredLevel_text h f)

theorem atomicReopenPosition_levelMove (p : PositionId) (timestampMs : Millis) (f : LevelField)
    (q : PositionId) : LevelMove P (st.levelState f q)
      ((atomicReopenPosition st p timestampMs).store.levelState f q) := by
  unfold atomicReopenPosition
  cases stored : st.hash p with
  | none => exact .refl _
  | some h =>
    dsimp only
    split_ifs with closed noSize
    · exact .refl _
    · cases symbol : h.symbol with
      | none => exact .refl _
      | some s =>
        cases h.userId with
        | none => exact .refl _
        | some u =>
          have move := reopened_levelMove (P := P) timestampMs (h.entryPrice.getD 0) stored symbol f q
          dsimp only
          split <;> rename_i outcome <;> rw [outcome] at move <;> exact move
    · exact .refl _

/-- Both levels replaced after the hash was written, as far as a level sees it. -/
theorem replaceLevels_levelMove {written : Store} {s : Symbol} (status : Option PositionStatus)
    (text : LevelField → Option LevelText) {params : ParamOverrides} (x : ℚ)
    (within : params.LevelsWithin P) (only : Store.OnlyPosition p st written)
    (earlier : ∀ f, (st.levelState f p).view = some ⟨some s, status, text f⟩)
    (view : ∀ f, ∃ h, written.hash p = some h ∧ h.view f = ⟨some s, some .OPEN, text f⟩)
    (score : ∀ (f : LevelField) s', written.score f.index s' p = st.score f.index s' p) (f : LevelField)
    (q : PositionId) : LevelMove P (st.levelState f q)
      (((written.replaceLevels s p params.sl params.tp).zadd .posOpen s p x).levelState f q) := by
  refine LevelMove.of_only ((only.trans (Store.OnlyPosition.replaceLevels _ _ _ _ _)).trans
    (Store.OnlyPosition.zadd p _ _ _ _)) ?_ f q
  intro f
  have before : st.levelState f p =
      ⟨some ⟨some s, status, text f⟩, fun s => st.score f.index s p⟩ :=
    LevelState.ext (earlier f) rfl
  obtain ⟨h, stored, isOpen⟩ := view f
  have later : ((written.replaceLevels s p params.sl params.tp).zadd .posOpen s p x).levelState f p =
      ⟨some ⟨some s, some .OPEN, (params.level f).map .num⟩,
        Function.update (fun s => st.score f.index s p) s (params.level f)⟩ := by
    refine Store.levelState_eq ?_ fun s' => ?_
    · rw [Store.hash_zadd, Store.hash_replaceLevels_self, stored, Option.getD_some, Option.map_some]
      have symbol : h.symbol = some s := congrArg LevelView.symbol isOpen
      have status : h.status = some .OPEN := congrArg LevelView.status isOpen
      cases f <;> simp [PositionHash.view, PositionHash.text, ParamOverrides.level, symbol, status]
    · rw [score_zaddOpen, Store.score_replaceLevels_self, score]
      by_cases here : s' = s
      · subst here
        cases f <;> simp [LevelField.index, ParamOverrides.level]
      · simp [here]
  rw [before, later]
  refine .replaced _ _ _ _ _ ?_
  cases f with
  | sl => exact within.1
  | tp => exact within.2

theorem atomicReopenPositionWithParams_levelMove (p : PositionId) (timestampMs : Millis)
    {params : ParamOverrides} (within : params.LevelsWithin P) (f : LevelField) (q : PositionId) :
    LevelMove P (st.levelState f q)
      ((atomicReopenPositionWithParams st p timestampMs params).store.levelState f q) := by
  unfold atomicReopenPositionWithParams
  cases stored : st.hash p with
  | none => exact .refl _
  | some h =>
    dsimp only
    split_ifs with closed noSize
    · exact .refl _
    · cases symbol : h.symbol with
      | none => exact .refl _
      | some s =>
        cases h.userId with
        | none => exact .refl _
        | some u =>
          refine replaceLevels_levelMove h.status h.text _ within
            (Store.OnlyPosition.hset p st _) ?_ ?_ (fun f s' => Store.score_hset ..) f q
          · intro f
            change (st.hash p).map (·.view f) = _
            rw [stored, Option.map_some, PositionHash.view, symbol]
          · intro f
            refine ⟨_, Store.hash_hset_self .., ?_⟩
            rw [stored, Option.getD_some, ← symbol]
            cases f <;> rfl
    · exact .refl _

theorem atomicUpdatePositionParams_levelMove (p : PositionId) (timestampMs : Millis)
    {params : ParamOverrides} (within : params.LevelsWithin P) (f : LevelField) (q : PositionId) :
    LevelMove P (st.levelState f q)
      ((atomicUpdatePositionParams st p timestampMs params).store.levelState f q) := by
  unfold atomicUpdatePositionParams
  cases stored : st.hash p with
  | none => exact .refl _
  | some h =>
    dsimp only
    split_ifs with shut
    · exact .refl _
    · have isOpen : h.status = some .OPEN := not_not.mp shut
      cases symbol : h.symbol with
      | none => exact .refl _
      | some s =>
        cases h.userId with
        | none => exact .refl _
        | some u =>
          dsimp only
          cases h.leverage.filter (0 < ·) with
          | none =>
            refine (congrArg (LevelMove P _) (Store.levelState_hset ?_ f q)).mpr (.refl _)
            intro f
            rw [stored, Option.getD_some, Option.map_some, Option.some.injEq]
            cases f <;> rfl
          | some leverage =>
            dsimp only
            refine replaceLevels_levelMove h.status h.text _ within
              ((Store.OnlyPosition.hset p st _).trans (Store.OnlyPosition.hset p _ _)) ?_ ?_
              (fun f s' => by rw [Store.score_hset, Store.score_hset]) f q
            · intro f
              change (st.hash p).map (·.view f) = _
              rw [stored, Option.map_some, PositionHash.view, symbol]
            · intro f
              refine ⟨_, Store.hash_hset_self .., ?_⟩
              rw [Store.hash_hset_self, stored, Option.getD_some, Option.getD_some, ← symbol,
                ← isOpen]
              cases f <;> rfl

theorem atomicCancelOrder_levelState (o : OrderId) (timestampMs : Millis) (f : LevelField)
    (q : PositionId) : (atomicCancelOrder st o timestampMs).2.levelState f q = st.levelState f q := by
  unfold atomicCancelOrder
  cases st.orders o with
  | none => rfl
  | some order =>
    dsimp only
    split_ifs
    · rfl
    · rfl

namespace Store

/-- What keeps the moves of all levels possible: no position of the older
format, and orders whose levels have the property. -/
structure Placed (P : ℚ → Prop) (st : Store) : Prop where
  hashesOnly : st.HashesOnly
  orders : ∀ o, ∀ order ∈ st.orders o, order.LevelsWithin P

/-- The levels that a call brings have the property. -/
def CallWithin (P : ℚ → Prop) : ScriptCall → Prop
  | .placeOrder _ order => order.LevelsWithin P
  | .atomicReopenPositionWithParams _ _ params => params.LevelsWithin P
  | .atomicUpdatePositionParams _ _ params => params.LevelsWithin P
  | _ => True

/-- A call that is a fill merges only a position's own levels into it. -/
def CallMerges (st : Store) : ScriptCall → Prop
  | .atomicFillOrder args existing _ => st.MergesLevels args existing
  | _ => True

theorem call_levelMove {call : ScriptCall} (placed : before.Placed P) (within : CallWithin P call)
    (merges : before.CallMerges call) (taken : before.call call = some after) (f : LevelField)
    (q : PositionId) : LevelMove P (before.levelState f q) (after.levelState f q) := by
  cases call with
  | placeOrder o order =>
    cases taken
    exact .refl _
  | atomicFillOrder args existing old =>
    simp only [Store.call] at taken
    split_ifs at taken with reads
    cases taken
    exact atomicFillOrder_levelMove placed.hashesOnly reads.1 (placed.orders args.orderId) merges f q
  | atomicCancelOrder o timestampMs =>
    cases taken
    rw [atomicCancelOrder_levelState]
    exact .refl _
  | atomicClosePosition args =>
    cases taken
    exact atomicClosePosition_levelMove args f q
  | atomicReopenPosition p timestampMs =>
    cases taken
    exact atomicReopenPosition_levelMove p timestampMs f q
  | atomicReopenPositionWithParams p timestampMs params =>
    cases taken
    exact atomicReopenPositionWithParams_levelMove p timestampMs within f q
  | atomicUpdatePositionParams p timestampMs params =>
    cases taken
    exact atomicUpdatePositionParams_levelMove p timestampMs within f q

theorem Placed.setOrder (placed : before.Placed P) {o : OrderId} {order : Order}
    (within : order.LevelsWithin P) (old : after.oldPositions = before.oldPositions)
    (records : after.orderRecords = (before.setOrder o order).orderRecords) : after.Placed P where
  hashesOnly := by
    unfold HashesOnly
    rw [old]
    exact placed.hashesOnly
  orders r other isStored := by
    unfold Store.orders at isStored
    rw [records] at isStored
    have read : (before.setOrder o order).orders r = some other := isStored
    rw [orders_setOrder] at read
    split_ifs at read
    · cases read
      exact within
    · exact placed.orders r other read

theorem Placed.writes {way : PositionId → Option PositionHash → PositionHash → Prop}
    (placed : before.Placed P) (writes : HashWrites way before after)
    (records : after.orderRecords = before.orderRecords) : after.Placed P where
  hashesOnly := placed.hashesOnly.of_writes writes
  orders o order isStored := by
    unfold Store.orders at isStored
    rw [records] at isStored
    exact placed.orders o order isStored

section Records
variable (st : Store) (p : PositionId) (timestampMs : Millis) (params : ParamOverrides)

theorem records_close (args : CloseArgs) :
    (atomicClosePosition st args).store.orderRecords = st.orderRecords := by
  unfold atomicClosePosition
  dsimp only
  cases st.hash args.positionId with
  | none => rfl
  | some h =>
    dsimp only
    split_ifs
    · rfl
    · rfl
    · cases h.symbol <;> rfl
    · rfl

theorem records_reopen :
    (atomicReopenPosition st p timestampMs).store.orderRecords = st.orderRecords := by
  unfold atomicReopenPosition
  cases st.hash p with
  | none => rfl
  | some h =>
    dsimp only
    split_ifs
    · rfl
    · cases h.symbol with
      | none => rfl
      | some s =>
        cases h.userId with
        | none => rfl
        | some u =>
          have same := sameButIndex_zaddStoredLevels ((st.hset p (·.reopened timestampMs)).zadd
            .posOpen s p (h.entryPrice.getD 0)) s p h.sl h.tp
          have records := congrArg Store.orderRecords same
          dsimp only
          split <;> rename_i outcome <;> rw [outcome] at records <;> exact records
    · rfl

theorem records_replaceLevels (s : Symbol) :
    (st.replaceLevels s p params.sl params.tp).orderRecords = st.orderRecords := by
  cases params.sl <;> cases params.tp <;> rfl

theorem records_reopenWithParams :
    (atomicReopenPositionWithParams st p timestampMs params).store.orderRecords =
      st.orderRecords := by
  unfold atomicReopenPositionWithParams
  cases st.hash p with
  | none => rfl
  | some h =>
    dsimp only
    split_ifs
    · rfl
    · cases h.symbol with
      | none => rfl
      | some s =>
        cases h.userId with
        | none => rfl
        | some u => exact records_replaceLevels _ p params s
    · rfl

theorem records_updateParams :
    (atomicUpdatePositionParams st p timestampMs params).store.orderRecords =
      st.orderRecords := by
  unfold atomicUpdatePositionParams
  cases st.hash p with
  | none => rfl
  | some h =>
    dsimp only
    split_ifs
    · rfl
    · cases h.symbol with
      | none => rfl
      | some s =>
        cases h.userId with
        | none => rfl
        | some u =>
          dsimp only
          cases h.leverage.filter (0 < ·) with
          | none => rfl
          | some leverage => exact records_replaceLevels _ p params s

end Records

theorem call_placed {call : ScriptCall} (placed : before.Placed P) (within : CallWithin P call)
    (taken : before.call call = some after) : after.Placed P := by
  cases call with
  | placeOrder o order =>
    cases taken
    exact placed.setOrder within rfl rfl
  | atomicFillOrder args existing old =>
    simp only [Store.call] at taken
    split_ifs at taken with reads
    cases taken
    have hashes := atomicFillOrder_hashesOnly existing old placed.hashesOnly reads.1
    rcases atomicFillOrder_orders before args existing old with ⟨same, -⟩ | ⟨order, stored, -, writes⟩
    · refine ⟨hashes, fun o order isStored => ?_⟩
      unfold Store.orders at isStored
      rw [same] at isStored
      exact placed.orders o order isStored
    · have filled : (order.filled args).LevelsWithin P := placed.orders _ order stored
      have marked : (before.setOrder args.orderId (order.filled args)).Placed P :=
        placed.setOrder filled rfl rfl
      refine ⟨hashes, fun o other isStored => ?_⟩
      unfold Store.orders at isStored
      rw [writes] at isStored
      exact marked.orders o other isStored
  | atomicCancelOrder o timestampMs =>
    cases taken
    unfold atomicCancelOrder
    cases stored : before.orders o with
    | none => exact placed
    | some order =>
      dsimp only
      split_ifs
      · exact placed
      · have same : (order.canceled timestampMs).LevelsWithin P := placed.orders o order stored
        exact placed.setOrder same rfl rfl
  | atomicClosePosition args =>
    cases taken
    exact placed.writes (atomicClosePosition_writes before args) (records_close before args)
  | atomicReopenPosition p timestampMs =>
    cases taken
    exact placed.writes (atomicReopenPosition_writes before p timestampMs)
      (records_reopen before p timestampMs)
  | atomicReopenPositionWithParams p timestampMs params =>
    cases taken
    exact placed.writes (atomicReopenPositionWithParams_writes before p timestampMs params)
      (records_reopenWithParams before p timestampMs params)
  | atomicUpdatePositionParams p timestampMs params =>
    cases taken
    exact placed.writes (atomicUpdatePositionParams_writes before p timestampMs params)
      (records_updateParams before p timestampMs params)

end Store

end Scripts

end TradingPlatform
