import TradingPlatform.Engine.FillEffect
import TradingPlatform.Engine.PositionEvents

namespace TradingPlatform

/-- The event reports a full close of the position at this price: its whole
size, the PnL of that size, and the margins it held. -/
structure PositionClosedEvent.ReportsFullClose (e : PositionClosedEvent) (h : PositionHash)
    (exitPrice : ℚ) : Prop where
  closedSize : e.closedSize = h.size.getD 0
  realizedPnl : e.realizedPnl =
    Fill.pnlClose h.side (h.entryPrice.getD 0) exitPrice (h.size.getD 0)
  marginFromCash : e.marginFromCash = h.marginFromCash.getD 0
  marginFromBonus : e.marginFromBonus = h.marginFromBonus.getD 0

/-- The event of `handle_close_position` and of an iteration of
`handle_close_all_positions`. -/
def closeEvent (st : Store) (userId : UserId) (args : CloseArgs) : Option PositionClosedEvent :=
  match atomicClosePosition st args with
  | .success _ result => some (closedEventOfReply userId result)
  | .error _ _ => none
  | .raised _ => none

/-- The event of `trigger_closure`. -/
def triggerEvent (st : Store) (p : PositionId) (exitPrice : ℚ) (timestampMs : Millis) :
    Option PositionClosedEvent :=
  match atomicClosePosition st
    { positionId := p, exitPrice := exitPrice, closeSize := 0, timestampMs := timestampMs } with
  | .success after _ => (after.hash p).bind (closedEventOfTrigger p exitPrice)
  | .error _ _ => none
  | .raised _ => none

/-- The event that `execute_fill` and `handle_place_order` publish after a fill
that closed a position. -/
def nettingEvent (st : Store) (userId : UserId) (args : FillArgs) (existing old : List PositionId) :
    Option PositionClosedEvent :=
  match atomicFillOrder st args existing old with
  | .success after result => closedEventOfFill after userId args result
  | .error _ _ => none
  | .raised _ => none

/-- Every way of closing the position in full at this price reports it: a close
command for all of it, `close_all`, a trigger, and a netting fill of its size. -/
structure ReportedAlike (st : Store) (p : PositionId) (h : PositionHash) (exitPrice : ℚ) :
    Prop where
  command : ∀ (userId : UserId) (args : CloseArgs), args.positionId = p →
    args.exitPrice = exitPrice → args.closeSize = 0 ∨ args.closeSize = h.size.getD 0 →
    ∃ e, closeEvent st userId args = some e ∧ e.ReportsFullClose h exitPrice
  trigger : ∀ timestampMs, ∃ e, triggerEvent st p exitPrice timestampMs = some e ∧
    e.ReportsFullClose h exitPrice
  netting : ∀ (userId : UserId) (args : FillArgs) (existing old : List PositionId)
    (e : PositionClosedEvent), args.fillPrice = exitPrice → args.fillSize = h.size.getD 0 →
    nettingEvent st userId args existing old = some e → e.positionId = p →
    e.ReportsFullClose h exitPrice

section Netting
variable {st after : Store} {fill : Fill} {existing old : List PositionId} {result : FillResult}
  {p : PositionId}

namespace Fill

theorem addTo_added {q : PositionId} {g : PositionHash}
    (merged : addTo st fill q g = .ok (after, result)) : ∃ p, result = added p := by
  unfold addTo at merged
  dsimp only at merged
  split at merged <;> cases merged
  exact ⟨q, rfl⟩

theorem migrate_added {pos : OldPosition} {leaveSet : Store → Store}
    (migrated : migrate st fill pos leaveSet = .ok (after, result)) : ∃ p, result = added p := by
  unfold migrate at migrated
  dsimp only at migrated
  split at migrated <;> cases migrated
  exact ⟨_, rfl⟩

theorem updateOld_added {q : PositionId} {pos : OldPosition}
    (updated : updateOld st fill q pos = .ok (after, result)) : ∃ p, result = added p := by
  unfold updateOld at updated
  dsimp only at updated
  split at updated <;> cases updated
  exact ⟨q, rfl⟩

/-- The two same-side loops only ever add to a position. -/
theorem existingLoop_added (taken : existingLoop st fill existing = some (.ok (after, result))) :
    ∃ p, result = added p := by
  induction existing with
  | nil => cases taken
  | cons q rest ih =>
    simp only [existingLoop] at taken
    split at taken
    next =>
      split_ifs at taken
      · exact addTo_added (Option.some.inj taken)
      · exact ih taken
    next =>
      split at taken
      next =>
        split_ifs at taken
        · split at taken
          · exact migrate_added (Option.some.inj taken)
          · exact updateOld_added (Option.some.inj taken)
        · exact ih taken
      next => exact ih taken

theorem oldLoop_added (taken : oldLoop st fill existing old = some (.ok (after, result))) :
    ∃ p, result = added p := by
  induction old with
  | nil => cases taken
  | cons q rest ih =>
    simp only [oldLoop] at taken
    split at taken
    next => exact ih taken
    next =>
      split at taken
      next =>
        split_ifs at taken
        · exact migrate_added (Option.some.inj taken)
        · exact ih taken
      next => exact ih taken

/-- Where a fill's reply comes from. -/
theorem applyToPositions_reply
    (applied : applyToPositions st fill existing old = .ok (after, result)) :
    (∃ q, result = added q) ∨
      (∃ q g, st.hash q = some g ∧ netAgainst st fill q g = .ok (after, result)) ∨
      create st fill = .ok (after, result) := by
  unfold applyToPositions at applied
  split at applied
  next merged =>
    rw [applied] at merged
    exact .inl (existingLoop_added merged)
  next =>
    split at applied
    next migrated =>
      rw [applied] at migrated
      exact .inl (oldLoop_added migrated)
    next =>
      split at applied
      next netted =>
        split_ifs at netted
        rw [oppositeLoop_eq] at netted
        obtain ⟨⟨q, g⟩, found, outcome⟩ := Option.map_eq_some_iff.mp netted
        exact .inr (.inl ⟨q, g, (Order.openOn_some found).2.1, outcome.trans applied⟩)
      next => exact .inr (.inr applied)

/-- Only netting reports a closed position. -/
theorem applyToPositions_closes
    (applied : applyToPositions st fill existing old = .ok (after, result))
    (closed : result.closedPositionId = some p) :
    ∃ q g, st.hash q = some g ∧ netAgainst st fill q g = .ok (after, result) := by
  rcases applyToPositions_reply applied with ⟨q, rfl⟩ | netted | created
  · cases closed
  · exact netted
  · unfold create at created
    split at created <;> cases created
    cases closed

/-- A fill of exactly the position's size zeroes its hash and reports its size and PnL. -/
theorem netAgainst_exact {h : PositionHash} (stored : st.hash p = some h)
    (whole : fill.fillSize = h.size.getD 0)
    (netted : netAgainst st fill p h = .ok (after, result)) :
    (∃ newRealized, after.hash p = some (fill.closedHash newRealized h)) ∧
      result.closedPositionSize = some (h.size.getD 0) ∧
      result.realizedPnl.getD 0 =
        pnlClose h.side (h.entryPrice.getD 0) fill.fillPrice (h.size.getD 0) := by
  unfold netAgainst at netted
  simp only [whole, sub_self, lt_self_iff_false, if_false, min_self, if_true] at netted
  generalize pnlClose h.side (h.entryPrice.getD 0) fill.fillPrice (h.size.getD 0) = pnl at netted ⊢
  cases netted
  refine ⟨⟨h.realizedPnl.getD 0 + pnl, ?_⟩, rfl, pnlField_getD pnl⟩
  rw [closeNetted_hash stored, if_pos rfl]

end Fill

/-- A netting fill of the position's size always reports the close as it is. -/
theorem nettingEvent_reports {h : PositionHash} {userId : UserId} {args : FillArgs}
    {e : PositionClosedEvent} (stored : st.hash p = some h) (whole : args.fillSize = h.size.getD 0)
    (event : nettingEvent st userId args existing old = some e) (ofPosition : e.positionId = p) :
    e.ReportsFullClose h args.fillPrice := by
  unfold nettingEvent at event
  split at event <;> rename_i outcome
  · rename_i after result
    obtain ⟨q, closed, same⟩ := Option.map_eq_some_iff.mp event
    obtain ⟨order, el, accepted, applied⟩ := atomicFillOrder_success outcome
    obtain ⟨r, g, other, netted⟩ := Fill.applyToPositions_closes applied closed
    obtain ⟨sameClosed, -⟩ := Fill.netAgainst_closes netted closed
    subst sameClosed
    have isPosition : r = p := (congrArg PositionClosedEvent.positionId same).trans ofPosition
    subst isPosition
    cases Option.some.inj (stored.symm.trans other)
    obtain ⟨⟨newRealized, read⟩, size, pnl⟩ := Fill.netAgainst_exact other whole netted
    subst same
    rw [read, size]
    exact ⟨rfl, pnl, rfl, rfl⟩
  · cases event
  · cases event

end Netting

section FullClose
variable {st : Store} {p : PositionId} {h : PositionHash} {symbol : Symbol} {exitPrice : ℚ}

/-- A close of all of an open position goes through. -/
theorem atomicClosePosition_whole {args : CloseArgs} (stored : st.hash args.positionId = some h)
    (isOpen : h.status = some .OPEN) (hasSymbol : h.symbol = some symbol)
    (whole : args.closeSize = 0 ∨ args.closeSize = h.size.getD 0) :
    args.actualCloseSize (h.size.getD 0) = h.size.getD 0 ∧ atomicClosePosition st args =
      .success ((st.hset args.positionId args.fullHash).unindex symbol args.positionId)
        (args.result h) := by
  have actual : args.actualCloseSize (h.size.getD 0) = h.size.getD 0 :=
    if_pos (whole.imp_right fun same => same.ge)
  refine ⟨actual, ?_⟩
  unfold atomicClosePosition
  simp only [stored, isOpen, actual, lt_irrefl, le_refl, hasSymbol, ne_eq, not_true, if_false,
    if_true]

/-- The script's reply scales the margins by the closed share, which is 0 for
a position without a size. -/
theorem closedEventOfReply_reports_iff {userId : UserId} {args : CloseArgs}
    (whole : args.actualCloseSize (h.size.getD 0) = h.size.getD 0) :
    (closedEventOfReply userId (args.result h)).ReportsFullClose h args.exitPrice ↔
      0 < h.size.getD 0 ∨ h.marginFromCash.getD 0 = 0 ∧ h.marginFromBonus.getD 0 = 0 := by
  have pnl : args.pnl h = Fill.pnlClose h.side (h.entryPrice.getD 0) args.exitPrice
      (h.size.getD 0) := by
    rw [CloseArgs.pnl, whole]
  by_cases sized : 0 < h.size.getD 0
  · have ratio : args.ratio (h.size.getD 0) = 1 := by
      rw [CloseArgs.ratio, if_pos sized, whole, div_self sized.ne']
    refine iff_of_true ⟨whole, pnl, ?_, ?_⟩ (.inl sized)
    · change h.marginFromCash.getD 0 * args.ratio (h.size.getD 0) = _
      rw [ratio, mul_one]
    · change h.marginFromBonus.getD 0 * args.ratio (h.size.getD 0) = _
      rw [ratio, mul_one]
  · have ratio : args.ratio (h.size.getD 0) = 0 := if_neg sized
    constructor
    · rintro ⟨-, -, cash, bonus⟩
      change h.marginFromCash.getD 0 * args.ratio (h.size.getD 0) = _ at cash
      change h.marginFromBonus.getD 0 * args.ratio (h.size.getD 0) = _ at bonus
      rw [ratio, mul_zero] at cash bonus
      exact .inr ⟨cash.symm, bonus.symm⟩
    · intro either
      obtain ⟨cash, bonus⟩ := either.resolve_left sized
      refine ⟨whole, pnl, ?_, ?_⟩
      · change h.marginFromCash.getD 0 * args.ratio (h.size.getD 0) = _
        rw [cash, zero_mul]
      · change h.marginFromBonus.getD 0 * args.ratio (h.size.getD 0) = _
        rw [bonus, zero_mul]

theorem closeEvent_whole {userId : UserId} {args : CloseArgs}
    (stored : st.hash args.positionId = some h) (isOpen : h.status = some .OPEN)
    (hasSymbol : h.symbol = some symbol)
    (whole : args.closeSize = 0 ∨ args.closeSize = h.size.getD 0) :
    closeEvent st userId args = some (closedEventOfReply userId (args.result h)) := by
  unfold closeEvent
  rw [(atomicClosePosition_whole stored isOpen hasSymbol whole).2]

/-- The hash that a trigger's event is read from has size 0 and all PnL that
was ever realised. -/
theorem triggerEvent_whole (stored : st.hash p = some h) (isOpen : h.status = some .OPEN)
    (hasSymbol : h.symbol = some symbol) {userId : UserId} (hasUser : h.userId = some userId)
    (timestampMs : Millis) : triggerEvent st p exitPrice timestampMs = some
      { positionId := p, userId := userId, closedSize := 0, exitPrice := exitPrice
        realizedPnl := h.realizedPnl.getD 0 +
          Fill.pnlClose h.side (h.entryPrice.getD 0) exitPrice (h.size.getD 0)
        marginFromCash := h.marginFromCash.getD 0
        marginFromBonus := h.marginFromBonus.getD 0 } := by
  let args : CloseArgs :=
    { positionId := p, exitPrice := exitPrice, closeSize := 0, timestampMs := timestampMs }
  have found : st.hash args.positionId = some h := stored
  obtain ⟨whole, closes⟩ := atomicClosePosition_whole found isOpen hasSymbol (.inl rfl)
  have pnl : args.pnl h = Fill.pnlClose h.side (h.entryPrice.getD 0) exitPrice (h.size.getD 0) := by
    rw [CloseArgs.pnl, whole]
  unfold triggerEvent
  rw [closes]
  dsimp only
  rw [Store.hash_unindex, Store.hash_hset_self, stored, Option.getD_some, Option.bind_some,
    closedEventOfTrigger]
  change Option.map _ h.userId = _
  rw [hasUser, ← pnl]
  rfl

theorem triggerEvent_reports_iff (stored : st.hash p = some h) (isOpen : h.status = some .OPEN)
    (hasSymbol : h.symbol = some symbol) {userId : UserId} (hasUser : h.userId = some userId)
    (timestampMs : Millis) : (∃ e, triggerEvent st p exitPrice timestampMs = some e ∧
      e.ReportsFullClose h exitPrice) ↔ h.size.getD 0 = 0 ∧ h.realizedPnl.getD 0 = 0 := by
  rw [triggerEvent_whole stored isOpen hasSymbol hasUser timestampMs]
  constructor
  · rintro ⟨e, same, reports⟩
    cases same
    exact ⟨reports.closedSize.symm, add_eq_right.mp reports.realizedPnl⟩
  · rintro ⟨noSize, nothing⟩
    refine ⟨_, rfl, noSize.symm, ?_, rfl, rfl⟩
    rw [nothing, zero_add]

/-- All ways of closing report alike only where there is nothing to report. -/
theorem reportedAlike_iff (stored : st.hash p = some h) (isOpen : h.status = some .OPEN)
    (hasSymbol : h.symbol = some symbol) {userId : UserId} (hasUser : h.userId = some userId) :
    ReportedAlike st p h exitPrice ↔ h.size.getD 0 = 0 ∧ h.realizedPnl.getD 0 = 0 ∧
      h.marginFromCash.getD 0 = 0 ∧ h.marginFromBonus.getD 0 = 0 := by
  constructor
  · intro alike
    obtain ⟨noSize, nothing⟩ :=
      (triggerEvent_reports_iff stored isOpen hasSymbol hasUser 0).mp (alike.trigger 0)
    let args : CloseArgs :=
      { positionId := p, exitPrice := exitPrice, closeSize := 0, timestampMs := 0 }
    obtain ⟨e, event, reports⟩ := alike.command userId args rfl rfl (.inl rfl)
    have found : st.hash args.positionId = some h := stored
    rw [closeEvent_whole found isOpen hasSymbol (.inl rfl)] at event
    cases event
    have whole := (atomicClosePosition_whole found isOpen hasSymbol (.inl rfl)).1
    rcases (closedEventOfReply_reports_iff whole).mp reports with sized | margins
    · exact absurd noSize sized.ne'
    · exact ⟨noSize, nothing, margins⟩
  · rintro ⟨noSize, nothing, margins⟩
    constructor
    · rintro userId args rfl rfl whole
      have actual := (atomicClosePosition_whole stored isOpen hasSymbol whole).1
      exact ⟨_, closeEvent_whole stored isOpen hasSymbol whole,
        (closedEventOfReply_reports_iff actual).mpr (.inr margins)⟩
    · exact fun timestampMs => (triggerEvent_reports_iff stored isOpen hasSymbol hasUser
        timestampMs).mpr ⟨noSize, nothing⟩
    · rintro userId args existing old e rfl whole event ofPosition
      exact nettingEvent_reports stored whole event ofPosition

end FullClose

/-- A long of 2 at 10 of which a part has been closed with a PnL of 3. -/
def partlyClosed : PositionHash :=
  { userId := some 7, symbol := some "EURUSD", side := some .LONG, size := some 2
    entryPrice := some 10, avgPrice := some 10, leverage := some 1, marginFromCash := some 20
    marginFromBonus := some 0, realizedPnl := some 3, status := some .OPEN }

def partlyClosedStore : Store := Store.empty.hset (.uuid 1) fun _ => partlyClosed

theorem hash_partlyClosedStore : partlyClosedStore.hash (.uuid 1) = some partlyClosed :=
  Store.hash_hset_self ..

/-- Its stop loss at 12 reports a size of 0 and a PnL of 7. -/
theorem not_reportedAlike_partlyClosed :
    ¬ ReportedAlike partlyClosedStore (.uuid 1) partlyClosed 12 := fun alike =>
  absurd ((triggerEvent_reports_iff hash_partlyClosedStore rfl rfl rfl 0).mp (alike.trigger 0))
    (by decide +kernel)

theorem reportedAlike_iff_partlyClosed :
    ReportedAlike partlyClosedStore (.uuid 1) partlyClosed 12 ↔
      (2 : ℚ) = 0 ∧ (3 : ℚ) = 0 ∧ (20 : ℚ) = 0 ∧ (0 : ℚ) = 0 :=
  reportedAlike_iff hash_partlyClosedStore rfl rfl rfl

end TradingPlatform
