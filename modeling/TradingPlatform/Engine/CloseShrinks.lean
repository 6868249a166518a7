import Mathlib.Tactic.Positivity
import TradingPlatform.Engine.CloseRequests

namespace TradingPlatform

open StepRuns

/-- What a position's fields keep while the engine works on it: an open one has
a positive size, none a negative size or a negative margin. -/
structure PositionHash.Solid (h : PositionHash) : Prop where
  size_open : h.status = some .OPEN → 0 < h.size.getD 0
  size : 0 ≤ h.size.getD 0
  original : ∀ x ∈ h.originalSize, 0 ≤ x
  cash : 0 ≤ h.marginFromCash.getD 0
  bonus : 0 ≤ h.marginFromBonus.getD 0

namespace PositionHash.Solid
variable {h : PositionHash} {args : CloseArgs} {fill : Fill} {timestampMs : Millis}
  {params : ParamOverrides}

theorem restoreSize_nonneg (solid : h.Solid) : 0 ≤ h.restoreSize := by
  unfold PositionHash.restoreSize
  cases original : h.originalSize with
  | none => exact solid.size
  | some x => exact solid.original x original

/-- With the sign the size had before, whatever was asked for. -/
theorem part (solid : h.Solid) (isOpen : h.status = some .OPEN)
    (part : args.actualCloseSize (h.size.getD 0) < h.size.getD 0) : (args.partialHash h).Solid := by
  have sized := solid.size_open isOpen
  have left : 0 < h.size.getD 0 - args.actualCloseSize (h.size.getD 0) := sub_pos.mpr part
  have ratio : args.ratio (h.size.getD 0) ≤ 1 := by
    rw [CloseArgs.ratio, if_pos sized, div_le_one sized]
    exact part.le
  have kept : ∀ {margin : ℚ}, 0 ≤ margin → 0 ≤ margin - margin * args.ratio (h.size.getD 0) :=
    fun nonneg => sub_nonneg.mpr (mul_le_of_le_one_right nonneg ratio)
  exact ⟨fun _ => left, left.le, solid.original, kept solid.cash, kept solid.bonus⟩

theorem full (solid : h.Solid) : (args.fullHash h).Solid := by
  refine ⟨fun isOpen => ?_, le_rfl, fun x original => ?_, solid.cash, solid.bonus⟩
  · change some args.fullCloseStatus = some .OPEN at isOpen
    unfold CloseArgs.fullCloseStatus at isOpen
    split_ifs at isOpen <;> cases isOpen
  · cases original
    exact solid.size

theorem positiveOr_nonneg {override : Option ℚ} {existing : ℚ} (nonneg : 0 ≤ existing) :
    0 ≤ positiveOr override existing := by
  unfold positiveOr
  cases kept : override.filter (0 < ·) with
  | none => exact nonneg
  | some x => exact (of_decide_eq_true (Option.filter_eq_some_iff.mp kept).2).le

theorem positiveOr_pos {override : Option ℚ} {existing : ℚ} (positive : 0 < existing) :
    0 < positiveOr override existing := by
  unfold positiveOr
  cases kept : override.filter (0 < ·) with
  | none => exact positive
  | some x => exact of_decide_eq_true (Option.filter_eq_some_iff.mp kept).2

theorem reopened (solid : h.Solid) (restores : h.restoreSize ≠ 0) :
    (h.reopened timestampMs).Solid := by
  have positive : 0 < h.restoreSize := lt_of_le_of_ne solid.restoreSize_nonneg restores.symm
  exact ⟨fun _ => positive, positive.le, solid.original, solid.cash, solid.bonus⟩

theorem reopenedWith (solid : h.Solid) (restores : positiveOr params.size h.restoreSize ≠ 0) :
    ((h.reopenedWith timestampMs params).withLevels params).Solid := by
  have positive : 0 < positiveOr params.size h.restoreSize :=
    lt_of_le_of_ne (positiveOr_nonneg solid.restoreSize_nonneg) restores.symm
  exact ⟨fun _ => positive, positive.le, solid.original, solid.cash, solid.bonus⟩

theorem resized (solid : h.Solid) (isOpen : h.status = some .OPEN) (entryPrice : ℚ) :
    (h.resized timestampMs (positiveOr params.size (h.size.getD 0)) entryPrice).Solid := by
  have positive : 0 < positiveOr params.size (h.size.getD 0) := positiveOr_pos (solid.size_open isOpen)
  exact ⟨fun _ => positive, positive.le, solid.original, solid.cash, solid.bonus⟩

end PositionHash.Solid

/-- What the services that place orders keep to: a positive size at a price
that is not negative, and margins that are not negative. -/
structure Fill.Collateralised (fill : Fill) : Prop where
  size : 0 < fill.fillSize
  price : 0 ≤ fill.fillPrice
  cash : ∀ x ∈ fill.order.marginFromCash.tonumber, 0 ≤ x
  bonus : ∀ x ∈ fill.order.marginFromBonus.tonumber, 0 ≤ x

/-- The writes that leave a solid hash where there was one or none. -/
def KeepsSolid (_ : PositionId) (stored : Option PositionHash) (h : PositionHash) : Prop :=
  (∀ g ∈ stored, g.Solid) → h.Solid

theorem Fill.Collateralised.ways {fill : Fill} (collateral : fill.Collateralised) :
    FillWays fill KeepsSolid where
  opened size leverage leverage_pos sized _ := by
    have positive : 0 < size := by
      rcases sized with rfl | positive
      · exact collateral.size
      · exact positive
    have margin : 0 ≤ size * fill.fillPrice / leverage :=
      div_nonneg (mul_nonneg positive.le collateral.price) leverage_pos.le
    refine ⟨fun _ => positive, positive.le, fun x original => (by cases original), ?_, ?_⟩
    · change 0 ≤ fill.order.marginFromCash.tonumber.getD _
      cases cash : fill.order.marginFromCash.tonumber with
      | none => exact margin
      | some x => exact collateral.cash x cash
    · change 0 ≤ fill.order.marginFromBonus.tonumber.getD 0
      cases bonus : fill.order.marginFromBonus.tonumber with
      | none => exact le_rfl
      | some x => exact collateral.bonus x bonus
  merged p h isOpen _ before := by
    have solid := before h rfl
    have positive : 0 < h.size.getD 0 + fill.fillSize :=
      add_pos (solid.size_open isOpen.2) collateral.size
    exact ⟨fun _ => positive, positive.le, solid.original, solid.cash, solid.bonus⟩
  reduced p h newSize newRealized remains _ before := by
    have solid := before h rfl
    exact ⟨fun _ => remains, remains.le, solid.original, solid.cash, solid.bonus⟩
  closed p h newRealized _ before := by
    have solid := before h rfl
    exact ⟨fun isOpen => (by cases isOpen), le_rfl, solid.original, solid.cash, solid.bonus⟩

structure Store.Solid (st : Store) : Prop where
  hashesOnly : st.HashesOnly
  hashes : ∀ p, ∀ h ∈ st.hash p, h.Solid

section Scripts
variable {before after : Store}

theorem Store.Solid.of_writes (solid : before.Solid) (writes : HashWrites KeepsSolid before after) :
    after.Solid :=
  ⟨solid.hashesOnly.of_writes writes, writes.all (fun _ _ how => how) solid.hashes⟩

/-- A fill keeps to what the services promise about the orders they place. -/
def Collateralised (st : Store) : ScriptCall → Prop
  | .atomicFillOrder args _ _ => 0 < args.fillSize ∧ 0 ≤ args.fillPrice ∧
      ∀ order ∈ st.orders args.orderId, (∀ x ∈ order.marginFromCash.tonumber, 0 ≤ x) ∧
        ∀ x ∈ order.marginFromBonus.tonumber, 0 ≤ x
  | .placeOrder _ _ => True
  | .atomicCancelOrder _ _ => True
  | .atomicClosePosition _ => True
  | .atomicReopenPosition _ _ => True
  | .atomicReopenPositionWithParams _ _ _ => True
  | .atomicUpdatePositionParams _ _ _ => True

instance (st : Store) : DecidablePred (Collateralised st)
  | .atomicFillOrder _ _ _ => inferInstanceAs (Decidable (_ ∧ _ ∧ _))
  | .placeOrder _ _ => inferInstanceAs (Decidable True)
  | .atomicCancelOrder _ _ => inferInstanceAs (Decidable True)
  | .atomicClosePosition _ => inferInstanceAs (Decidable True)
  | .atomicReopenPosition _ _ => inferInstanceAs (Decidable True)
  | .atomicReopenPositionWithParams _ _ _ => inferInstanceAs (Decidable True)
  | .atomicUpdatePositionParams _ _ _ => inferInstanceAs (Decidable True)

theorem Store.Solid.close (solid : before.Solid) (args : CloseArgs) :
    (atomicClosePosition before args).store.Solid := by
  refine ⟨solid.hashesOnly.of_writes (atomicClosePosition_writes before args),
    (atomicClosePosition_writes before args).all (fun q h how initially => ?_) solid.hashes⟩
  generalize before.hash q = stored at how initially
  cases how with
  | full g _ => exact (initially g rfl).full
  | part g isOpen part => exact (initially g rfl).part isOpen part

theorem Store.Solid.call {call : ScriptCall} (solid : before.Solid)
    (promised : Collateralised before call) (taken : before.call call = some after) :
    after.Solid := by
  cases call with
  | placeOrder o order =>
    cases taken
    exact ⟨solid.hashesOnly, solid.hashes⟩
  | atomicFillOrder args existing old =>
    simp only [Store.call] at taken
    split_ifs at taken with reads
    cases taken
    have collateral : ∀ order el, ∀ accepted : FillAccepted before args order el,
        FillWays (Fill.ofArgs args order el accepted.leverage_pos) KeepsSolid := by
      intro order el accepted
      obtain ⟨size, price, margins⟩ := promised
      obtain ⟨cash, bonus⟩ := margins order accepted.stored
      exact Fill.Collateralised.ways ⟨size, price, cash, bonus⟩
    rcases atomicFillOrder_ways existing old solid.hashesOnly reads.1 (fun _ => KeepsSolid)
      (fun order el accepted => collateral order el accepted) with same | ⟨_, _, _, writes⟩
    · rw [same]
      exact solid
    · exact solid.of_writes writes
  | atomicCancelOrder o timestampMs =>
    cases taken
    unfold atomicCancelOrder
    split
    next => exact solid
    next =>
      split_ifs
      · exact solid
      · exact ⟨solid.hashesOnly, solid.hashes⟩
  | atomicClosePosition args =>
    cases taken
    exact solid.close args
  | atomicReopenPosition p timestampMs =>
    cases taken
    have writes := atomicReopenPosition_writes before p timestampMs
    refine ⟨solid.hashesOnly.of_writes writes, writes.all (fun q h how initially => ?_) solid.hashes⟩
    obtain ⟨g, read, _, restores, rfl⟩ : ∃ g, before.hash q = some g ∧
        (∃ status ∈ g.status, status.Closed) ∧ g.restoreSize ≠ 0 ∧ h = g.reopened timestampMs := by
      generalize before.hash q = stored at how
      cases how with
      | reopened g closed restores => exact ⟨g, rfl, closed, restores, rfl⟩
    exact (initially g read).reopened restores
  | atomicReopenPositionWithParams p timestampMs params =>
    cases taken
    have writes := atomicReopenPositionWithParams_writes before p timestampMs params
    refine ⟨solid.hashesOnly.of_writes writes, writes.all (fun q h how initially => ?_) solid.hashes⟩
    generalize before.hash q = stored at how initially
    cases how with
    | reopened g closed restores => exact (initially g rfl).reopenedWith restores
  | atomicUpdatePositionParams p timestampMs params =>
    cases taken
    refine solid.of_writes (atomicUpdatePositionParams_ways before p timestampMs params
      (fun h isOpen _ initially => (initially h rfl).resized isOpen _)
      fun h leverage isOpen _ initially => ?_)
    have resized :
        (h.resized timestampMs (h.updatedSize params) (h.updatedEntry params)).Solid :=
      (initially h rfl).resized isOpen _
    exact ⟨resized.size_open, resized.size, resized.original, resized.cash, resized.bonus⟩

end Scripts

section Close
variable {st : Store} {h : PositionHash} {symbol : Symbol} {args : CloseArgs}

/-- The script goes through on an open position with a symbol, and what it
writes has the size that it did not close. -/
theorem atomicClosePosition_open (stored : st.hash args.positionId = some h)
    (isOpen : h.status = some .OPEN) (hasSymbol : h.symbol = some symbol) :
    ∃ after g, atomicClosePosition st args = .success after (args.result h) ∧
      after.hash args.positionId = some g ∧
      g.size = some (h.size.getD 0 - args.actualCloseSize (h.size.getD 0)) := by
  unfold atomicClosePosition
  simp only [stored, isOpen, hasSymbol, ne_eq, not_true, if_false,
    (args.actualCloseSize_le (h.size.getD 0)).not_gt]
  split_ifs with whole
  · refine ⟨_, args.fullHash h, rfl, ?_, ?_⟩
    · rw [Store.hash_unindex, Store.hash_hset_self, stored]
      rfl
    · have same := le_antisymm (args.actualCloseSize_le _) whole
      rw [same, sub_self]
      rfl
  · refine ⟨_, args.partialHash h, rfl, ?_, rfl⟩
    rw [Store.hash_hset_self, stored]
    rfl

theorem actualCloseSize_ne_zero {size : ℚ} (sized : 0 < size) : args.actualCloseSize size ≠ 0 := by
  unfold CloseArgs.actualCloseSize
  split_ifs with whole
  · exact sized.ne'
  · exact (not_or.mp whole).1

theorem released_bounds {size held : ℚ} (sized : 0 < size) (nonneg : 0 ≤ held)
    (positive : 0 < args.actualCloseSize size) :
    0 ≤ held * args.ratio size ∧ held * args.ratio size ≤ held := by
  rw [CloseArgs.ratio, if_pos sized]
  have share : args.actualCloseSize size / size ≤ 1 :=
    (div_le_one sized).mpr (args.actualCloseSize_le size)
  exact ⟨mul_nonneg nonneg (div_nonneg positive.le sized.le), mul_le_of_le_one_right nonneg share⟩

end Close

/-- The close took a part of the position, as much as was asked for where a
size was, and released no more margin than was held. -/
structure CloseResult.Shrinks (asked : Option String) (before after : PositionHash)
    (result : CloseResult) : Prop where
  positive : 0 < result.closedSize
  atMost : result.closedSize ≤ before.size.getD 0
  left : after.size = some (before.size.getD 0 - result.closedSize)
  cash : 0 ≤ result.marginFromCash ∧ result.marginFromCash ≤ before.marginFromCash.getD 0
  bonus : 0 ≤ result.marginFromBonus ∧ result.marginFromBonus ≤ before.marginFromBonus.getD 0
  asAsked : ∀ text ∈ asked, ∃ x ∈ SizeText.number text,
    0 < x ∧ result.closedSize = min x (before.size.getD 0)

/-- Handling the command changed nothing or shrank the position. -/
def OnlyShrinks (asked : Option String) (p : PositionId) (before : Store)
    (done : Store × Option CloseResult) : Prop :=
  done.1 = before ∨ ∃ h g result, before.hash p = some h ∧ done.1.hash p = some g ∧
    done.2 = some result ∧ result.Shrinks asked h g

namespace CloseBody
variable {F64 : Type} (texts : DecimalTexts F64)

/-- A size that is asked for is a positive number; it is read as itself, or it
is at least the position's size and is read as at least that, as 0 or not at all. -/
def ReadsSize (body : CloseBody F64) (size : ℚ) : Prop :=
  ∀ text ∈ body.askedText texts, ∃ x ∈ SizeText.number text, 0 < x ∧
    if (body.reading texts).getD 0 = 0 ∨ size ≤ (body.reading texts).getD 0 then size ≤ x
    else (body.reading texts).getD 0 = x

theorem reading_none {body : CloseBody F64} (unasked : body.askedText texts = none) :
    body.reading texts = none := by
  cases body with
  | user size =>
    change size = none at unasked
    rw [unasked]
    rfl
  | admin size =>
    cases size with
    | none => rfl
    | some x => cases unasked

variable {texts} {body : CloseBody F64} {st : Store} {h : PositionHash} {args : CloseArgs}

/-- On an open position the script shrinks it for the sizes that are read right,
and for no others. -/
theorem shrinks_iff {g : PositionHash} (solid : h.Solid) (isOpen : h.status = some .OPEN)
    (size : args.closeSize = (body.reading texts).getD 0)
    (left : g.size = some (h.size.getD 0 - args.actualCloseSize (h.size.getD 0))) :
    (args.result h).Shrinks (body.askedText texts) h g ↔ body.ReadsSize texts (h.size.getD 0) := by
  have sized := solid.size_open isOpen
  have actual : args.actualCloseSize (h.size.getD 0) =
      if (body.reading texts).getD 0 = 0 ∨ h.size.getD 0 ≤ (body.reading texts).getD 0 then
        h.size.getD 0
      else (body.reading texts).getD 0 := by rw [CloseArgs.actualCloseSize, size]
  constructor
  · intro shrinks text asked
    obtain ⟨x, isNumber, positive, closed⟩ := shrinks.asAsked text asked
    change args.actualCloseSize (h.size.getD 0) = _ at closed
    refine ⟨x, isNumber, positive, ?_⟩
    rw [actual] at closed
    split_ifs at closed ⊢ with whole
    · exact min_eq_right_iff.mp closed.symm
    · have below := not_le.mp (not_or.mp whole).2
      rcases min_choice x (h.size.getD 0) with first | second
      · exact closed.trans first
      · exact absurd (closed.trans second) below.ne
  · intro reads
    have positive : 0 < args.actualCloseSize (h.size.getD 0) := by
      rw [actual]
      split_ifs with whole
      · exact sized
      · cases asked : body.askedText texts with
        | none =>
          rw [reading_none texts asked] at whole
          exact absurd (.inl rfl) whole
        | some text =>
          obtain ⟨x, _, xPositive, same⟩ := reads text asked
          rw [if_neg whole] at same
          rw [same]
          exact xPositive
    refine ⟨positive, args.actualCloseSize_le _, left, released_bounds sized solid.cash positive,
      released_bounds sized solid.bonus positive, fun text asked => ?_⟩
    obtain ⟨x, isNumber, xPositive, same⟩ := reads text asked
    refine ⟨x, isNumber, xPositive, ?_⟩
    change args.actualCloseSize (h.size.getD 0) = _
    rw [actual]
    split_ifs at same ⊢ with whole
    · exact (min_eq_right same).symm
    · rw [same]
      rw [same] at whole
      exact (min_eq_left (not_le.mp (not_or.mp whole).2).le).symm

end CloseBody

/-- The command comes to the script and finds the position open: it is its
user's, has a symbol and a side, and there is a price. -/
structure CloseCommand.Reaches (cmd : CloseCommand) (price : Option (ℚ × ℚ)) (h : PositionHash) :
    Prop where
  owner : h.userId = some cmd.userId
  isOpen : h.status = some .OPEN
  symbol : ∃ symbol, h.symbol = some symbol
  side : ∃ side, h.side = some side
  price : ∃ bid ask, price = some (bid, ask)

section Handling
variable {F64 : Type} {texts : DecimalTexts F64} {st : Store} {cmd : CloseCommand} {h : PositionHash}
  {price : Option (ℚ × ℚ)} {now : Millis}

theorem CloseCommand.Reaches.closeArgs (reaches : cmd.Reaches price h)
    (stored : st.hash cmd.positionId = some h) : ∃ args, cmd.closeArgs texts st price now = some args ∧
      args.positionId = cmd.positionId ∧
      args.closeSize = (cmd.size.bind texts.fromStrExact).getD 0 := by
  obtain ⟨owner, isOpen, ⟨symbol, hasSymbol⟩, ⟨side, hasSide⟩, bid, ask, rfl⟩ := reaches
  unfold CloseCommand.closeArgs
  rw [stored]
  simp only [owner, ne_eq, not_true, if_false, hasSymbol, hasSide]
  exact ⟨_, rfl, rfl, rfl⟩

/-- A command that does not come so far changes nothing. -/
theorem handleClosePosition_unreached
    (unreached : ∀ h ∈ st.hash cmd.positionId, ¬ cmd.Reaches price h) :
    (handleClosePosition texts st cmd price now).1 = st := by
  unfold handleClosePosition CloseCommand.closeArgs
  cases stored : st.hash cmd.positionId with
  | none => rfl
  | some h =>
    by_cases owner : h.userId = some cmd.userId
    · cases hasSymbol : h.symbol with
      | none => simp only [owner, ne_eq, not_true, if_false, hasSymbol]
      | some symbol =>
        cases hasSide : h.side with
        | none => simp only [owner, ne_eq, not_true, if_false, hasSymbol, hasSide]
        | some side =>
          cases price with
          | none => simp only [owner, ne_eq, not_true, if_false, hasSymbol, hasSide]
          | some quote =>
            have shut : h.status ≠ some .OPEN := fun isOpen => unreached h stored
              ⟨owner, isOpen, ⟨symbol, hasSymbol⟩, ⟨side, hasSide⟩, quote.1, quote.2, rfl⟩
            simp only [owner, ne_eq, not_true, if_false, hasSymbol, hasSide, atomicClosePosition,
              stored, shut, not_false_eq_true, if_true]
    · simp only [owner, ne_eq, not_false_eq_true, if_true]

/-- Handling a command shrinks its position, or changes nothing, exactly when
the body's size is read right, unless the command does not come so far. -/
theorem handleClosePosition_onlyShrinks_iff {body : CloseBody F64}
    (size : cmd.size = body.commandSize texts) (solid : st.Solid) :
    OnlyShrinks (body.askedText texts) cmd.positionId st
        (handleClosePosition texts st cmd price now) ↔
      ∀ h ∈ st.hash cmd.positionId, cmd.Reaches price h → body.ReadsSize texts (h.size.getD 0) := by
  by_cases reached : ∃ h ∈ st.hash cmd.positionId, cmd.Reaches price h
  · obtain ⟨h, stored, reaches⟩ := reached
    obtain ⟨args, called, sameId, closeSize⟩ :
        ∃ args, cmd.closeArgs texts st price now = some args ∧
          args.positionId = cmd.positionId ∧
          args.closeSize = (cmd.size.bind texts.fromStrExact).getD 0 := reaches.closeArgs stored
    rw [size, body.commandSize_reads texts] at closeSize
    obtain ⟨symbol, hasSymbol⟩ := reaches.symbol
    obtain ⟨after, g, closed, written, left⟩ :=
      atomicClosePosition_open (sameId.symm ▸ stored) reaches.isOpen hasSymbol
    have done : handleClosePosition texts st cmd price now = (after, some (args.result h)) := by
      unfold handleClosePosition
      rw [called]
      simp only [closed]
    have solidHash := solid.hashes _ h stored
    have same := CloseBody.shrinks_iff solidHash reaches.isOpen closeSize left
    rw [sameId] at written
    rw [done]
    constructor
    · rintro (unchanged | ⟨h', g', result, stored', written', reply, shrinks⟩)
      · change after = st at unchanged
        subst unchanged
        cases Option.some.inj (written.symm.trans stored)
        have kept : h.size.getD 0 = h.size.getD 0 - args.actualCloseSize (h.size.getD 0) :=
          congrArg (Option.getD · 0) left
        have nothing : args.actualCloseSize (h.size.getD 0) = 0 := by linarith
        exact absurd nothing (actualCloseSize_ne_zero (solidHash.size_open reaches.isOpen))
      · cases Option.some.inj (stored'.symm.trans stored)
        cases Option.some.inj (written'.symm.trans written)
        cases Option.some.inj reply
        intro h' stored' _
        cases Option.some.inj (stored'.symm.trans stored)
        exact same.mp shrinks
    · intro reads
      exact .inr ⟨h, g, args.result h, stored, written, rfl, same.mpr (reads h stored reaches)⟩
  · have unreached : ∀ h ∈ st.hash cmd.positionId, ¬ cmd.Reaches price h :=
      fun h stored reaches => reached ⟨h, stored, reaches⟩
    exact iff_of_true (.inl (handleClosePosition_unreached unreached))
      fun h stored reaches => absurd reaches (unreached h stored)

end Handling

namespace CloseDesk
variable {F64 : Type} {texts : DecimalTexts F64} {before after desk : CloseDesk F64}

/-- Fills keep to what the services promise about the orders they place;
nothing is asked of the close requests or of the other scripts. -/
def Promised (desk : CloseDesk F64) : CloseAction F64 → Prop
  | .script call => Collateralised desk.store call
  | .closePosition _ _ _ _ => True
  | .closeAdminPosition _ _ _ => True
  | .handle _ _ _ => True

instance (desk : CloseDesk F64) : DecidablePred desk.Promised
  | .script call => inferInstanceAs (Decidable (Collateralised desk.store call))
  | .closePosition _ _ _ _ => inferInstanceAs (Decidable True)
  | .closeAdminPosition _ _ _ => inferInstanceAs (Decidable True)
  | .handle _ _ _ => inferInstanceAs (Decidable True)

structure Sound (texts : DecimalTexts F64) (desk : CloseDesk F64) : Prop where
  solid : desk.store.Solid
  commands : ∀ entry ∈ desk.published, entry.command.size = entry.body.commandSize texts

theorem Sound.publish (sound : before.Sound texts) {body : CloseBody F64}
    {done : Except CloseRefusal CloseCommand}
    (size : ∀ cmd, done = .ok cmd → cmd.size = body.commandSize texts) :
    (before.publish body done).Sound texts := by
  cases done with
  | error _ => exact sound
  | ok cmd =>
    refine ⟨sound.solid, fun entry isPublished => ?_⟩
    rcases List.mem_append.mp isPublished with earlier | new
    · exact sound.commands entry earlier
    · cases List.mem_singleton.mp new
      exact size cmd rfl

theorem closePosition_size {st : Store} {caller : CloseCaller} {userId : UserId}
    {positionId : PositionId} {size : Option String} {cmd : CloseCommand}
    (accepted : TradingPlatform.closePosition texts st caller userId positionId size = .ok cmd) :
    cmd.size = (CloseBody.user size).commandSize texts := by
  unfold TradingPlatform.closePosition at accepted
  split_ifs at accepted
  cases stored : st.hash positionId with
  | none => rw [stored] at accepted; cases accepted
  | some h =>
    rw [stored] at accepted
    dsimp only at accepted
    split_ifs at accepted
    cases accepted
    rfl

theorem closeAdminPosition_size {st : Store} {mayClosePositions : Bool} {positionId : PositionId}
    {size : Option F64} {cmd : CloseCommand}
    (accepted : TradingPlatform.closeAdminPosition texts st mayClosePositions positionId size = .ok cmd) :
    cmd.size = (CloseBody.admin size).commandSize texts := by
  unfold TradingPlatform.closeAdminPosition at accepted
  split_ifs at accepted
  cases stored : st.hash positionId with
  | none => rw [stored] at accepted; cases accepted
  | some h =>
    rw [stored] at accepted
    cases owner : h.userId with
    | none => simp only [owner] at accepted; cases accepted
    | some userId =>
      simp only [owner] at accepted
      split_ifs at accepted
      cases accepted
      rfl

theorem handleClosePosition_solid {st : Store} (solid : st.Solid) (cmd : CloseCommand)
    (price : Option (ℚ × ℚ)) (now : Millis) :
    (handleClosePosition texts st cmd price now).1.Solid := by
  unfold handleClosePosition
  cases called : cmd.closeArgs texts st price now with
  | none => exact solid
  | some args =>
    have left := solid.close args
    dsimp only
    cases closed : atomicClosePosition st args with
    | success after result => rw [closed] at left; exact left
    | error after e => rw [closed] at left; exact left
    | raised after => rw [closed] at left; exact left

theorem step_sound {action : CloseAction F64} (promised : before.Promised action)
    (taken : step texts before action = some after) (sound : before.Sound texts) :
    after.Sound texts := by
  cases action with
  | closePosition caller userId positionId size =>
    cases taken
    exact sound.publish fun _ => closePosition_size
  | closeAdminPosition mayClosePositions positionId size =>
    cases taken
    exact sound.publish fun _ => closeAdminPosition_size
  | handle place price now =>
    obtain ⟨entry, _, rfl⟩ := Option.map_eq_some_iff.mp taken
    exact ⟨handleClosePosition_solid sound.solid _ _ _,
      fun other isPublished => sound.commands other (List.mem_of_mem_eraseIdx isPublished)⟩
  | script call =>
    obtain ⟨st, called, rfl⟩ := Option.map_eq_some_iff.mp taken
    exact ⟨sound.solid.call promised called, sound.commands⟩

end CloseDesk

section Requests

/-- Decimals as far as the texts below need them. -/
def sampleTexts : DecimalTexts ℚ where
  fromStr s := if s = "1" then some 1 else if s = "-1" then some (-1) else none
  fromStrExact s := if s = "1" then some 1 else if s = "-1" then some (-1) else none
  decimalText d := if d = 1 then "1" else "-1"
  floatText d := if d = 1 then "1" else "-1"
  readsBack s d parsed := by
    change (if s = "1" then some (1 : ℚ) else if s = "-1" then some (-1) else none) = some d at parsed
    split_ifs at parsed <;> cases parsed <;> decide +kernel

/-- A position of 2 is opened and a close of the given size requested. -/
def requestedClose (size : String) : List (CloseAction ℚ) :=
  [.script (.placeOrder 1 { nettingBuy 1 2 8 20 with marginFromCash := .num 1, marginFromBonus := .num 0 }),
   .script (.atomicFillOrder ⟨1, 10, 2, 1000, .uuid 1, some 100⟩ [] []),
   .closePosition ⟨true, false, "full"⟩ 7 (.uuid 1) (some size)]

end Requests

end TradingPlatform
