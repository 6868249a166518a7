import TradingPlatform.Engine.FieldTexts
import TradingPlatform.Engine.FillAtomicity

namespace TradingPlatform

open SignificantDigits (HasDigits)

/-- Both parsers read the text as this decimal. -/
def DecimalReaders.Reads (readers : DecimalReaders) (text : String) (x : ℚ) : Prop :=
  readers.fromStr text = some x ∧ readers.fromStrExact text = some x

structure DecimalReaders.Documented (readers : DecimalReaders) : Prop where
  fromStr : DecimalParser readers.fromStr
  fromStrExact : DecimalParser readers.fromStrExact

/-- A text that was passed reads as the number, one of `tostring` was made from it. -/
def FieldText.Stands (readers : DecimalReaders) : FieldText → ℚ → Prop
  | .passed text, x => readers.Reads text x
  | .tostring y, x => y = x

/-- The texts stand for the numbers, field by field. -/
structure Tracks (readers : DecimalReaders) (texts : HashTexts) (fields : NumericFields ℚ) :
    Prop where
  size : Option.Rel (FieldText.Stands readers) texts.size fields.size
  entryPrice : Option.Rel (FieldText.Stands readers) texts.entryPrice fields.entryPrice
  avgPrice : Option.Rel (FieldText.Stands readers) texts.avgPrice fields.avgPrice
  leverage : Option.Rel (FieldText.Stands readers) texts.leverage fields.leverage
  margin : Option.Rel (FieldText.Stands readers) texts.margin fields.margin
  marginFromCash : Option.Rel (FieldText.Stands readers) texts.marginFromCash fields.marginFromCash
  marginFromBonus :
    Option.Rel (FieldText.Stands readers) texts.marginFromBonus fields.marginFromBonus
  realizedPnl : Option.Rel (FieldText.Stands readers) texts.realizedPnl fields.realizedPnl
  originalSize : Option.Rel (FieldText.Stands readers) texts.originalSize fields.originalSize

section Relation
variable {α β : Type} {R : α → β → Prop} {a a' : Option α} {b b' : Option β} {x : α} {y : β}

theorem rel_getD (related : Option.Rel R a b) (fallback : R x y) : R (a.getD x) (b.getD y) := by
  cases related with
  | some related => exact related
  | none => exact fallback

theorem rel_orElse (related : Option.Rel R a b) (other : Option.Rel R a' b') :
    Option.Rel R (a.orElse fun _ => a') (b.orElse fun _ => b') := by
  cases related with
  | some related => exact .some related
  | none => exact other

end Relation

section Texts
variable {readers : DecimalReaders} {texts : HashTexts} {h : PositionHash}

theorem DecimalReaders.Documented.zero (documented : readers.Documented) :
    FieldText.zero.Stands readers 0 := by
  have chars : "0".toList = ['0'] := by decide
  have decimal : SignificantDigits.Decimal "0".toList 0 := by
    rw [chars]
    exact SignificantDigits.decimal_zero
  exact ⟨documented.fromStr.plain "0" 0 decimal (by decide),
    documented.fromStrExact.plain "0" 0 decimal (by decide)⟩

theorem tracks_empty : Tracks readers {} ({} : PositionHash).numbers :=
  ⟨.none, .none, .none, .none, .none, .none, .none, .none, .none⟩

/-- An override that counts is read from its text. -/
def OverrideSent (readers : DecimalReaders) (override : Option ℚ) (text : String) : Prop :=
  ∀ x ∈ override, 0 < x → readers.Reads text x

theorem OverrideSent.stands {override : Option ℚ} {text : String} {existing : FieldText} {x : ℚ}
    (sent : OverrideSent readers override text) (stands : existing.Stands readers x) :
    (overrideText override text existing).Stands readers (positiveOr override x) := by
  unfold overrideText positiveOr
  cases kept : override.filter (0 < ·) with
  | none => exact stands
  | some y =>
    obtain ⟨given, positive⟩ := Option.filter_eq_some_iff.mp kept
    exact sent y given (of_decide_eq_true positive)

namespace Tracks
variable (tracks : Tracks readers texts h.numbers)
include tracks

theorem opened (fill : Fill) {sizeText : FieldText} {priceText : String} {size : ℚ}
    (documented : readers.Documented) (sized : sizeText.Stands readers size)
    (priced : readers.Reads priceText fill.fillPrice) (leverage : ℚ) :
    Tracks readers (texts.opened fill sizeText priceText size leverage)
      (fill.openHash size leverage h).numbers :=
  ⟨.some sized, .some priced, .some priced, .some rfl, .some rfl, .some rfl, .some rfl,
    .some documented.zero, tracks.originalSize⟩

theorem merged (fill : Fill) : Tracks readers (texts.merged fill h)
    (fill.mergeHash (h.size.getD 0) (h.entryPrice.getD 0) h.leverage h).numbers :=
  ⟨.some rfl, .some rfl, .some rfl, tracks.leverage, .some rfl, tracks.marginFromCash,
    tracks.marginFromBonus, tracks.realizedPnl, tracks.originalSize⟩

theorem reduced (fill : Fill) (newSize posEntry posLeverage newRealized : ℚ) :
    Tracks readers (texts.reduced newSize (newSize * posEntry / posLeverage) newRealized)
      (fill.reducedHash newSize posEntry posLeverage newRealized h).numbers :=
  ⟨.some rfl, tracks.entryPrice, tracks.avgPrice, tracks.leverage, .some rfl,
    tracks.marginFromCash, tracks.marginFromBonus, .some rfl, tracks.originalSize⟩

theorem closedNetted (documented : readers.Documented) (fill : Fill) (newRealized : ℚ) :
    Tracks readers (texts.closedNetted newRealized) (fill.closedHash newRealized h).numbers :=
  ⟨.some documented.zero, tracks.entryPrice, tracks.avgPrice, tracks.leverage, tracks.margin,
    tracks.marginFromCash, tracks.marginFromBonus, .some rfl, tracks.originalSize⟩

theorem closed (documented : readers.Documented) (args : CloseArgs) :
    Tracks readers (texts.closed args h) (args.fullHash h).numbers :=
  ⟨.some documented.zero, tracks.entryPrice, tracks.avgPrice, tracks.leverage, tracks.margin,
    tracks.marginFromCash, tracks.marginFromBonus, .some rfl, .some rfl⟩

theorem partlyClosed (args : CloseArgs) :
    Tracks readers (texts.partlyClosed args h) (args.partialHash h).numbers :=
  ⟨.some rfl, tracks.entryPrice, tracks.avgPrice, tracks.leverage, tracks.margin, .some rfl,
    .some rfl, .some rfl, tracks.originalSize⟩

theorem restoreSize (documented : readers.Documented) :
    texts.restoreSize.Stands readers h.restoreSize :=
  rel_getD (rel_orElse tracks.originalSize tracks.size) documented.zero

theorem reopened (documented : readers.Documented) (timestampMs : Millis) :
    Tracks readers texts.reopened (h.reopened timestampMs).numbers :=
  ⟨.some (tracks.restoreSize documented), tracks.entryPrice,
    .some (rel_getD tracks.entryPrice documented.zero), tracks.leverage, tracks.margin,
    tracks.marginFromCash, tracks.marginFromBonus, tracks.realizedPnl, tracks.originalSize⟩

theorem reopenedWith (documented : readers.Documented) {params : ParamOverrides}
    {sizeText priceText : String} (sized : OverrideSent readers params.size sizeText)
    (priced : OverrideSent readers params.entryPrice priceText) (timestampMs : Millis) :
    Tracks readers (texts.reopenedWith params sizeText priceText)
      ((h.reopenedWith timestampMs params).withLevels params).numbers := by
  have size := sized.stands (tracks.restoreSize documented)
  have entry := priced.stands (rel_getD tracks.entryPrice documented.zero)
  exact ⟨.some size, .some entry, .some entry, tracks.leverage, tracks.margin,
    tracks.marginFromCash, tracks.marginFromBonus, tracks.realizedPnl, tracks.originalSize⟩

theorem resized (documented : readers.Documented) {params : ParamOverrides}
    {sizeText priceText : String} (sized : OverrideSent readers params.size sizeText)
    (priced : OverrideSent readers params.entryPrice priceText) (timestampMs : Millis) :
    Tracks readers (texts.resized params sizeText priceText)
      (h.resized timestampMs (h.updatedSize params) (h.updatedEntry params)).numbers := by
  have size := sized.stands (rel_getD tracks.size documented.zero)
  have entry :=
    priced.stands (rel_getD (rel_orElse tracks.entryPrice tracks.avgPrice) documented.zero)
  exact ⟨.some size, .some entry, .some entry, tracks.leverage, tracks.margin,
    tracks.marginFromCash, tracks.marginFromBonus, tracks.realizedPnl, tracks.originalSize⟩

end Tracks

end Texts

section Writes
variable {readers : DecimalReaders} {texts : PositionId → HashTexts} {st after : Store}
  {p : PositionId} {text : HashTexts} {g : PositionHash}

/-- The texts of every hash stand for its numbers, a missing hash having neither. -/
def TextsTrack (readers : DecimalReaders) (texts : PositionId → HashTexts) (st : Store) : Prop :=
  ∀ p, Tracks readers (texts p) ((st.hash p).getD {}).numbers

theorem TextsTrack.of_stored {h : PositionHash} (track : TextsTrack readers texts st)
    (stored : st.hash p = some h) : Tracks readers (texts p) h.numbers := by
  have tracks := track p
  rwa [stored] at tracks

theorem TextsTrack.congr (track : TextsTrack readers texts st)
    (same : ∀ q, after.hash q = st.hash q) : TextsTrack readers texts after := by
  intro q
  rw [same q]
  exact track q

theorem TextsTrack.update (track : TextsTrack readers texts st)
    (written : Tracks readers text g.numbers) (read : after.hash p = some g)
    (others : ∀ q, q ≠ p → after.hash q = st.hash q) :
    TextsTrack readers (Function.update texts p text) after := by
  intro q
  by_cases same : q = p
  · subst same
    rw [Function.update_self, read]
    exact written
  · rw [Function.update_of_ne same, others q same]
    exact track q

namespace Fill
variable {fill : Fill} {h : PositionHash} {priceText : String}

theorem addTo_track (track : TextsTrack readers texts st) (stored : st.hash p = some h) :
    TextsTrack readers (Function.update texts p ((texts p).merged fill h))
      (storeLeft Prod.fst (addTo st fill p h)) := by
  have frame := addTo_sameButIndex st fill p h
  refine track.update ((track.of_stored stored).merged fill) ?_ fun q differ => ?_
  · rw [frame.hash_eq, merged, Store.hash_hset_self, stored, Option.getD_some]
  · rw [frame.hash_eq, merged, Store.hash_hset_ne _ _ _ _ differ]

theorem openPosition_track {sizeText : FieldText} {size leverage : ℚ}
    (documented : readers.Documented) (sized : sizeText.Stands readers size)
    (priced : readers.Reads priceText fill.fillPrice) (track : TextsTrack readers texts st) :
    TextsTrack readers (Function.update texts fill.positionUuid
      ((texts fill.positionUuid).opened fill sizeText priceText size leverage))
      (storeLeft id (openPosition st fill size leverage)) := by
  have hash := openPosition_hash st fill size leverage (openPosition_sameButIndex ..)
  refine track.update ((track fill.positionUuid).opened fill documented sized priced leverage) ?_
    fun q differ => ?_
  · rw [hash, if_pos rfl]
  · rw [hash, if_neg differ]

theorem closeNetted_track (documented : readers.Documented) (track : TextsTrack readers texts st)
    (stored : st.hash p = some h) (newRealized : ℚ) :
    TextsTrack readers (Function.update texts p ((texts p).closedNetted newRealized))
      (closeNetted st fill p newRealized) := by
  refine track.update ((track.of_stored stored).closedNetted documented fill newRealized) ?_
    fun q differ => ?_
  · rw [closeNetted, Store.hash_unindex, Store.hash_srem, Store.hash_hset_self, stored,
      Option.getD_some]
  · rw [closeNetted, Store.hash_unindex, Store.hash_srem, Store.hash_hset_ne _ _ _ _ differ]

/-- The branch that a fill takes writes the texts of the numbers it writes. -/
theorem writeTexts_track (documented : readers.Documented) (hashes : st.HashesOnly)
    {sizeText : String} (sized : readers.Reads sizeText fill.fillSize)
    (priced : readers.Reads priceText fill.fillPrice) (track : TextsTrack readers texts st)
    (existing old : List PositionId) :
    TextsTrack readers (fill.writeTexts st texts existing sizeText priceText)
      (storeLeft Prod.fst (applyToPositions st fill existing old)) := by
  rw [applyToPositions_eq hashes]
  unfold writeTexts
  cases target : fill.order.target st existing with
  | merge p h =>
    obtain ⟨_, stored, _⟩ := Order.target_merge target
    exact addTo_track track stored
  | net p h =>
    obtain ⟨_, stored, _⟩ := Order.target_net target
    have tracks := track.of_stored stored
    unfold netAgainst
    dsimp only
    split_ifs with remains exact
    · refine track.update (tracks.reduced fill _ _ _ _) ?_ fun q differ => ?_
      · rw [storeLeft, Store.hash_zadd, Store.hash_hset_self, stored, Option.getD_some]
      · rw [storeLeft, Store.hash_zadd, Store.hash_hset_ne _ _ _ _ differ]
    · exact closeNetted_track documented track stored _
    · refine (congrArg (TextsTrack readers _) (storeLeft_paired _ _)).mpr ?_
      exact openPosition_track documented rfl priced
        (closeNetted_track documented track stored _)
  | fresh =>
    refine (congrArg (TextsTrack readers _) (storeLeft_paired _ _)).mpr ?_
    exact openPosition_track documented sized priced track

end Fill

/-- A refused fill writes neither numbers nor texts, an accepted one both. -/
theorem fillTexts_cases (st : Store) (texts : PositionId → HashTexts) (args : FillArgs)
    (existing old : List PositionId) (sizeText priceText : String) :
    (fillTexts st texts args existing sizeText priceText = texts ∧
      (atomicFillOrder st args existing old).store = st) ∨
    ∃ order el, ∃ accepted : FillAccepted st args order el,
      fillTexts st texts args existing sizeText priceText =
        (Fill.ofArgs args order el accepted.leverage_pos).writeTexts (st.markFilled args order)
          texts existing sizeText priceText ∧
      (atomicFillOrder st args existing old).store = storeLeft Prod.fst
        (Fill.applyToPositions (st.markFilled args order)
          (Fill.ofArgs args order el accepted.leverage_pos) existing old) := by
  by_cases accepts : ∃ order el, FillAccepted st args order el
  · obtain ⟨order, el, accepted⟩ := accepts
    refine .inr ⟨order, el, accepted, ?_, ?_⟩
    · simp [fillTexts, accepted.leverage, accepted.leverage_pos, accepted.stored,
        accepted.pending, accepted.priceMet]
    · rw [accepted.outcome]
      generalize Fill.applyToPositions _ _ _ _ = done
      cases done with
      | error after => rfl
      | ok done => rfl
  · refine .inl ⟨?_, ?_⟩
    · unfold fillTexts
      split
      next => rfl
      next el leverage =>
        split_ifs with leverage_pos
        · split
          next => rfl
          next order stored =>
            split_ifs with passes
            · exact absurd ⟨order, el, leverage, leverage_pos, stored, passes.1, passes.2⟩ accepts
            · rfl
        · rfl
    · rcases atomicFillOrder_left st args existing old with same | ⟨order, el, accepted, _⟩
      · exact same
      · exact absurd ⟨order, el, accepted⟩ accepts

theorem closeTexts_track (documented : readers.Documented) (track : TextsTrack readers texts st)
    (args : CloseArgs) :
    TextsTrack readers (closeTexts st texts args) (atomicClosePosition st args).store := by
  unfold closeTexts atomicClosePosition
  dsimp only
  cases stored : st.hash args.positionId with
  | none => exact track
  | some h =>
    have tracks := track.of_stored stored
    dsimp only
    rw [if_neg (not_lt.mpr (args.actualCloseSize_le _))]
    split_ifs with shut full
    · exact track
    · have closes : TextsTrack readers (Function.update texts args.positionId
          ((texts args.positionId).closed args h)) (st.hset args.positionId args.fullHash) := by
        refine track.update (tracks.closed documented args) ?_ fun q differ => ?_
        · rw [Store.hash_hset_self, stored, Option.getD_some]
        · rw [Store.hash_hset_ne _ _ _ _ differ]
      cases h.symbol with
      | none => exact closes
      | some symbol => exact closes.congr fun q => rfl
    · refine track.update (tracks.partlyClosed args) ?_ fun q differ => ?_
      · rw [ScriptOutcome.store, Store.hash_hset_self, stored, Option.getD_some]
      · rw [ScriptOutcome.store, Store.hash_hset_ne _ _ _ _ differ]

/-- A reopen script that restores the size writes the hash, else nothing. -/
theorem reopenTexts_track {restores : PositionHash → ℚ} {write : HashTexts → HashTexts}
    (track : TextsTrack readers texts st)
    (wrote : ∀ h, st.hash p = some h → (∃ status ∈ h.status, status.Closed) → restores h ≠ 0 →
      h.symbol.isSome → h.userId.isSome → ∃ g, after.hash p = some g ∧
        (∀ q, q ≠ p → after.hash q = st.hash q) ∧
        (Tracks readers (texts p) h.numbers → Tracks readers (write (texts p)) g.numbers))
    (refused : (∀ h, st.hash p = some h → ¬ ((∃ status ∈ h.status, status.Closed) ∧
      restores h ≠ 0 ∧ h.symbol.isSome ∧ h.userId.isSome)) → after = st) :
    TextsTrack readers (reopenTexts st texts p restores write) after := by
  unfold reopenTexts
  cases stored : st.hash p with
  | none =>
    rw [refused fun h other => by rw [stored] at other; cases other]
    exact track
  | some h =>
    dsimp only
    split_ifs with passes
    · obtain ⟨closed, restored, symbol, userId⟩ := passes
      obtain ⟨g, read, others, tracks⟩ := wrote h stored closed restored symbol userId
      exact track.update (tracks (track.of_stored stored)) read others
    · rw [refused fun g other => by
        cases Option.some.inj (stored.symm.trans other)
        exact passes]
      exact track

theorem atomicReopenPosition_track (documented : readers.Documented)
    (track : TextsTrack readers texts st) (p : PositionId) (timestampMs : Millis) :
    TextsTrack readers (reopenTexts st texts p PositionHash.restoreSize HashTexts.reopened)
      (atomicReopenPosition st p timestampMs).store := by
  refine reopenTexts_track track (fun h stored closed restored symbol userId => ?_) fun refused => ?_
  · obtain ⟨symbol, hasSymbol⟩ := Option.isSome_iff_exists.mp symbol
    obtain ⟨userId, hasUser⟩ := Option.isSome_iff_exists.mp userId
    have frame := (Store.sameButIndex_zadd (st.hset p (·.reopened timestampMs)) .posOpen symbol p
      (h.entryPrice.getD 0)).trans (Store.sameButIndex_zaddStoredLevels _ symbol p h.sl h.tp)
    have left : (atomicReopenPosition st p timestampMs).store = storeLeft id
        (((st.hset p (·.reopened timestampMs)).zadd .posOpen symbol p
          (h.entryPrice.getD 0)).zaddStoredLevels symbol p h.sl h.tp) := by
      unfold atomicReopenPosition
      rw [stored]
      dsimp only
      rw [if_neg (not_not.mpr closed), if_neg restored, hasSymbol, hasUser]
      dsimp only
      split <;> rename_i outcome <;> rw [outcome] <;> rfl
    refine ⟨h.reopened timestampMs, ?_, fun q differ => ?_,
      fun tracks => tracks.reopened documented timestampMs⟩
    · rw [left, frame.hash_eq, Store.hash_hset_self, stored, Option.getD_some]
    · rw [left, frame.hash_eq, Store.hash_hset_ne _ _ _ _ differ]
  · unfold atomicReopenPosition
    split
    next => rfl
    next h stored =>
      split_ifs with closed zero
      · rfl
      · split
        next hasSymbol hasUser =>
          exact absurd ⟨closed, zero, by simp [hasSymbol], by simp [hasUser]⟩ (refused h stored)
        next => rfl
      · rfl

theorem atomicReopenPositionWithParams_track (documented : readers.Documented)
    (track : TextsTrack readers texts st) (p : PositionId) (timestampMs : Millis)
    {params : ParamOverrides} {sizeText priceText : String}
    (sized : OverrideSent readers params.size sizeText)
    (priced : OverrideSent readers params.entryPrice priceText) :
    TextsTrack readers (reopenTexts st texts p (fun h => positiveOr params.size h.restoreSize)
      (·.reopenedWith params sizeText priceText))
      (atomicReopenPositionWithParams st p timestampMs params).store := by
  refine reopenTexts_track track (fun h stored closed restored symbol userId => ?_) fun refused => ?_
  · obtain ⟨symbol, hasSymbol⟩ := Option.isSome_iff_exists.mp symbol
    obtain ⟨userId, hasUser⟩ := Option.isSome_iff_exists.mp userId
    have left (q : PositionId) :
        (atomicReopenPositionWithParams st p timestampMs params).store.hash q =
        ((st.hset p (·.reopenedWith timestampMs params)).replaceLevels symbol p params.sl
          params.tp).hash q := by
      unfold atomicReopenPositionWithParams
      rw [stored]
      dsimp only
      rw [if_neg (not_not.mpr closed), if_neg restored, hasSymbol, hasUser]
      rfl
    refine ⟨(h.reopenedWith timestampMs params).withLevels params, ?_, fun q differ => ?_,
      fun tracks => tracks.reopenedWith documented sized priced timestampMs⟩
    · rw [left, Store.hash_replaceLevels_self, Store.hash_hset_self, stored]
      rfl
    · rw [left, Store.hash_replaceLevels_ne _ _ _ _ _ _ differ, Store.hash_hset_ne _ _ _ _ differ]
  · unfold atomicReopenPositionWithParams
    split
    next => rfl
    next h stored =>
      dsimp only
      split_ifs with closed zero
      · rfl
      · split
        next hasSymbol hasUser =>
          exact absurd ⟨closed, zero, by simp [hasSymbol], by simp [hasUser]⟩ (refused h stored)
        next => rfl
      · rfl

theorem updateTexts_track (documented : readers.Documented) (track : TextsTrack readers texts st)
    (p : PositionId) (timestampMs : Millis) {params : ParamOverrides}
    {sizeText priceText : String} (sized : OverrideSent readers params.size sizeText)
    (priced : OverrideSent readers params.entryPrice priceText) :
    TextsTrack readers (updateTexts st texts p params sizeText priceText)
      (atomicUpdatePositionParams st p timestampMs params).store := by
  unfold updateTexts atomicUpdatePositionParams
  cases stored : st.hash p with
  | none => exact track
  | some h =>
    have tracks := (track.of_stored stored).resized documented sized priced timestampMs
    dsimp only
    by_cases isOpen : h.status = some .OPEN
    · cases hasSymbol : h.symbol with
      | none => simpa [isOpen, ScriptOutcome.store] using track
      | some symbol =>
        cases hasUser : h.userId with
        | none => simpa [isOpen, ScriptOutcome.store] using track
        | some userId =>
          rw [if_pos ⟨isOpen, rfl, rfl⟩, if_neg (not_not.mpr isOpen)]
          dsimp only
          cases h.leverage.filter (0 < ·) with
          | none =>
            refine track.update tracks ?_ fun q differ => ?_
            · rw [ScriptOutcome.store, Store.hash_hset_self, stored, Option.getD_some]
              rfl
            · rw [ScriptOutcome.store, Store.hash_hset_ne _ _ _ _ differ]
          | some leverage =>
            refine track.update (g := { h.resized timestampMs (h.updatedSize params)
              (h.updatedEntry params) with
                margin := some (h.updatedSize params * h.updatedEntry params / leverage)
                sl := params.sl.map .num
                tp := params.tp.map .num }) ?_ ?_ fun q differ => ?_
            · exact { tracks with margin := .some rfl }
            · simp only [ScriptOutcome.store, Store.hash_zadd]
              rw [Store.hash_replaceLevels_self, Store.hash_hset_self, Store.hash_hset_self, stored]
              rfl
            · simp only [ScriptOutcome.store, Store.hash_zadd]
              rw [Store.hash_replaceLevels_ne _ _ _ _ _ _ differ,
                Store.hash_hset_ne _ _ _ _ differ, Store.hash_hset_ne _ _ _ _ differ]
    · rw [if_neg (fun passes => isOpen passes.1), if_pos isOpen]
      exact track

end Writes

/-- Every field that the services read has been written. -/
structure PositionHash.AllWritten (h : PositionHash) : Prop where
  size : h.size.isSome
  entryPrice : h.entryPrice.isSome
  avgPrice : h.avgPrice.isSome
  leverage : h.leverage.isSome
  margin : h.margin.isSome
  marginFromCash : h.marginFromCash.isSome
  marginFromBonus : h.marginFromBonus.isSome
  realizedPnl : h.realizedPnl.isSome

section AllWritten
variable {p q : PositionId} {timestampMs : Millis} {params : ParamOverrides}
  {stored : Option PositionHash} {h : PositionHash}

theorem FillWrite.allWritten {fill : Fill} (how : FillWrite fill q stored h)
    (before : ∀ g ∈ stored, g.AllWritten) : h.AllWritten := by
  cases how with
  | opened size leverage _ => exact ⟨rfl, rfl, rfl, rfl, rfl, rfl, rfl, rfl⟩
  | merged _ g _ _ =>
    exact { before g rfl with size := rfl, entryPrice := rfl, avgPrice := rfl, margin := rfl }
  | reduced _ g newSize newRealized _ =>
    exact { before g rfl with size := rfl, margin := rfl, realizedPnl := rfl }
  | closed _ g newRealized _ => exact { before g rfl with size := rfl, realizedPnl := rfl }

theorem CloseWrite.allWritten {args : CloseArgs} (how : CloseWrite args q stored h)
    (before : ∀ g ∈ stored, g.AllWritten) : h.AllWritten := by
  cases how with
  | full g _ => exact { before g rfl with size := rfl, realizedPnl := rfl }
  | part g _ _ =>
    exact { before g rfl with
      size := rfl, realizedPnl := rfl, marginFromCash := rfl, marginFromBonus := rfl }

theorem ReopenWrite.allWritten (how : ReopenWrite p timestampMs q stored h)
    (before : ∀ g ∈ stored, g.AllWritten) : h.AllWritten := by
  obtain ⟨g, _, _⟩ := how
  exact { before g rfl with size := rfl, avgPrice := rfl }

theorem ReopenWithWrite.allWritten (how : ReopenWithWrite p timestampMs params q stored h)
    (before : ∀ g ∈ stored, g.AllWritten) : h.AllWritten := by
  obtain ⟨g, _, _⟩ := how
  exact { before g rfl with size := rfl, entryPrice := rfl, avgPrice := rfl }

theorem UpdateWrite.allWritten (how : UpdateWrite p timestampMs params q stored h)
    (before : ∀ g ∈ stored, g.AllWritten) : h.AllWritten := by
  cases how with
  | resized g _ _ _ _ =>
    exact { before g rfl with size := rfl, entryPrice := rfl, avgPrice := rfl }
  | updated g _ _ _ _ _ =>
    exact { before g rfl with size := rfl, entryPrice := rfl, avgPrice := rfl, margin := rfl }

end AllWritten

/-- The engine sends its decimals as texts that read back. -/
def SentCall.Sent (readers : DecimalReaders) (sent : SentCall) : Prop :=
  match sent.call with
  | .atomicFillOrder args _ _ =>
    readers.Reads sent.sizeText args.fillSize ∧ readers.Reads sent.priceText args.fillPrice
  | .atomicReopenPositionWithParams _ _ params =>
    OverrideSent readers params.size sent.sizeText ∧
      OverrideSent readers params.entryPrice sent.priceText
  | .atomicUpdatePositionParams _ _ params =>
    OverrideSent readers params.size sent.sizeText ∧
      OverrideSent readers params.entryPrice sent.priceText
  | _ => True

namespace TextStore

/-- Every number in the hashes and in the reply is a decimal of at most 14
significant digits. -/
structure Decimals (ts : TextStore) : Prop where
  hash : ∀ p, ∀ h ∈ ts.store.hash p, ∀ field ∈ h.numbers.read, ∀ x ∈ field, HasDigits 14 x
  reply : ∀ reply ∈ ts.reply, ∀ field ∈ reply.numbers, ∀ x ∈ field, HasDigits 14 x

/-- The call is sent with readable texts and leaves decimals only. -/
def Exact (readers : DecimalReaders) (ts : TextStore) (sent : SentCall) : Prop :=
  sent.Sent readers ∧ ∀ after ∈ ts.step sent, after.Decimals

structure Consistent (readers : DecimalReaders) (ts : TextStore) : Prop where
  hashes : ts.store.HashesOnly
  track : TextsTrack readers ts.texts ts.store
  written : ∀ p, ∀ h ∈ ts.store.hash p, h.AllWritten
  decimals : ts.Decimals

variable {readers : DecimalReaders}

theorem consistent_empty : ({} : TextStore).Consistent readers where
  hashes := fun _ => rfl
  track := fun _ => tracks_empty
  written := fun _ _ stored => by cases stored
  decimals := ⟨fun _ _ stored => (by cases stored), fun _ replied => by cases replied⟩

/-- What a call writes keeps the positions hashes with all their fields. -/
theorem call_allWritten {st after : Store} {call : ScriptCall} (hashes : st.HashesOnly)
    (written : ∀ p, ∀ h ∈ st.hash p, h.AllWritten) (taken : st.call call = some after) :
    after.HashesOnly ∧ ∀ p, ∀ h ∈ after.hash p, h.AllWritten := by
  cases call with
  | placeOrder o order =>
    cases taken
    exact ⟨hashes, written⟩
  | atomicFillOrder args existing old =>
    simp only [Store.call] at taken
    split_ifs at taken with reads
    cases taken
    rcases atomicFillOrder_writes existing old hashes reads.1 with
      same | ⟨order, el, accepted, writes⟩
    · rw [same]
      exact ⟨hashes, written⟩
    · exact ⟨hashes.of_writes writes, writes.all (fun _ _ how => how.allWritten) written⟩
  | atomicCancelOrder o timestampMs =>
    cases taken
    unfold atomicCancelOrder
    split
    next => exact ⟨hashes, written⟩
    next =>
      split_ifs
      · exact ⟨hashes, written⟩
      · exact ⟨hashes, written⟩
  | atomicClosePosition args =>
    cases taken
    have writes := atomicClosePosition_writes st args
    exact ⟨hashes.of_writes writes, writes.all (fun _ _ how => how.allWritten) written⟩
  | atomicReopenPosition p timestampMs =>
    cases taken
    have writes := atomicReopenPosition_writes st p timestampMs
    exact ⟨hashes.of_writes writes, writes.all (fun _ _ how => how.allWritten) written⟩
  | atomicReopenPositionWithParams p timestampMs params =>
    cases taken
    have writes := atomicReopenPositionWithParams_writes st p timestampMs params
    exact ⟨hashes.of_writes writes, writes.all (fun _ _ how => how.allWritten) written⟩
  | atomicUpdatePositionParams p timestampMs params =>
    cases taken
    have writes := atomicUpdatePositionParams_writes st p timestampMs params
    exact ⟨hashes.of_writes writes, writes.all (fun _ _ how => how.allWritten) written⟩

/-- What a call writes as text stands for what it writes as numbers. -/
theorem writeTexts_track {ts : TextStore} {sent : SentCall} {after : Store}
    (documented : readers.Documented) (hashes : ts.store.HashesOnly)
    (track : TextsTrack readers ts.texts ts.store) (isSent : sent.Sent readers)
    (taken : ts.store.call sent.call = some after) :
    TextsTrack readers (ts.writeTexts sent) after := by
  obtain ⟨call, sizeText, priceText⟩ := sent
  cases call with
  | placeOrder o order =>
    cases taken
    exact track
  | atomicFillOrder args existing old =>
    obtain ⟨sized, priced⟩ := isSent
    simp only [Store.call] at taken
    split_ifs at taken with reads
    cases taken
    change TextsTrack readers (fillTexts ts.store ts.texts args existing sizeText priceText) _
    rcases fillTexts_cases ts.store ts.texts args existing old sizeText priceText with
      ⟨sameTexts, sameStore⟩ | ⟨order, el, accepted, texts, left⟩
    · rw [sameTexts, sameStore]
      exact track
    · have marked : (ts.store.markFilled args order).HashesOnly := hashes
      have stillTrack : TextsTrack readers ts.texts (ts.store.markFilled args order) := track
      rw [texts, left]
      exact Fill.writeTexts_track documented marked sized priced stillTrack existing old
  | atomicCancelOrder o timestampMs =>
    cases taken
    refine TextsTrack.congr track fun q => ?_
    unfold atomicCancelOrder
    split
    next => rfl
    next => split_ifs <;> rfl
  | atomicClosePosition args =>
    cases taken
    exact closeTexts_track documented track args
  | atomicReopenPosition p timestampMs =>
    cases taken
    exact atomicReopenPosition_track documented track p timestampMs
  | atomicReopenPositionWithParams p timestampMs params =>
    cases taken
    exact atomicReopenPositionWithParams_track documented track p timestampMs isSent.1 isSent.2
  | atomicUpdatePositionParams p timestampMs params =>
    cases taken
    exact updateTexts_track documented track p timestampMs isSent.1 isSent.2

theorem Consistent.step {before after : TextStore} {sent : SentCall}
    (documented : readers.Documented) (exact : before.Exact readers sent)
    (taken : before.step sent = some after) (consistent : before.Consistent readers) :
    after.Consistent readers := by
  have decimals := exact.2 after taken
  obtain ⟨store, called, rfl⟩ := Option.map_eq_some_iff.mp taken
  obtain ⟨hashes, written⟩ := call_allWritten consistent.hashes consistent.written called
  exact ⟨hashes, writeTexts_track documented consistent.hashes consistent.track exact.1 called,
    written, decimals⟩

end TextStore

end TradingPlatform
