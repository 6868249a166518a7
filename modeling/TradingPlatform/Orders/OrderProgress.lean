import TradingPlatform.Engine.OrderFinality
import TradingPlatform.Orders.OrderMessages

namespace TradingPlatform

/-- What concerns one order: its row and its record, whether its place command
is still on its way, whether a slippage rejection is about to be written,
whether a cancel command is on its way, and the statuses of the updates that
have not been handled yet. -/
structure OrderProgress where
  row : Option RowStatus
  record : Option OrderStatus
  placing : Prop
  rejecting : Prop
  cancelling : Prop
  updates : Set EventStatus

/-- The text in Redis of an order with this update. -/
def EventStatus.recorded : EventStatus → OrderStatus
  | .pending => .PENDING
  | .partiallyFilled => .PARTIALLYFILLED
  | .filled => .FILLED
  | .cancelled => .CANCELED
  | .rejected => .REJECTED

namespace OrderProgress

/-- Nothing has happened to the order except that its user may want to cancel it. -/
structure Waiting (v : OrderProgress) : Prop where
  row : v.row = some .pending ∨ v.row = some .cancelling ∧ v.cancelling
  notRejecting : ¬ v.rejecting
  noUpdates : v.updates = ∅

/-- The row has this status or is about to get it. -/
structure Settling (v : OrderProgress) (status : EventStatus) : Prop where
  row : v.row = status.written ∨ v.row.isSome ∧ status ∈ v.updates
  only : ∀ other ∈ v.updates, other = status

/-- The order as its row, its record and the messages about it tell. -/
inductive Sound (v : OrderProgress) : Prop
  | unused (row : v.row = none) (record : v.record = none) (placing : ¬ v.placing)
      (noUpdates : v.updates = ∅)
  | underway (record : v.record = none) (placing : v.placing) (waiting : v.Waiting)
  | invalid (record : v.record = none) (placing : ¬ v.placing) (settling : v.Settling .rejected)
  | resting (record : v.record = some .PENDING) (placing : ¬ v.placing) (waiting : v.Waiting)
  | refused (record : v.record = some .PENDING) (placing : ¬ v.placing) (rejecting : v.rejecting)
      (settling : v.Settling .rejected)
  | ended (status : EventStatus) (written : RowStatus) (writes : status.written = some written)
      (record : v.record = some status.recorded) (placing : ¬ v.placing) (row : v.row.isSome)
      (settling : v.rejecting ∧ status ≠ .rejected ∨ v.Settling status)

/-- The messages about the order are on their way as before, a cancel command
possibly in addition. -/
structure SameMessages (v w : OrderProgress) : Prop where
  placing : w.placing ↔ v.placing
  rejecting : w.rejecting ↔ v.rejecting
  cancelling : v.cancelling → w.cancelling

variable {v w : OrderProgress} {status : EventStatus}

theorem SameMessages.refl (v : OrderProgress) : v.SameMessages v := ⟨Iff.rfl, Iff.rfl, id⟩

theorem Settling.congr (settling : v.Settling status) (row : w.row = v.row)
    (updates : w.updates = v.updates) : w.Settling status where
  row := by rw [row, updates]; exact settling.row
  only := by rw [updates]; exact settling.only

theorem Settling.isSome {written : RowStatus} (writes : status.written = some written)
    (settling : v.Settling status) : v.row.isSome := by
  rcases settling.row with told | ⟨isSome, _⟩
  · rw [told, writes]
    rfl
  · exact isSome

/-- One more update of the same status. -/
theorem Settling.insert {written : RowStatus} (writes : status.written = some written)
    (settling : v.Settling status) (row : w.row = v.row)
    (updates : w.updates = insert status v.updates) : w.Settling status where
  row := by
    rw [row, updates]
    exact .inr ⟨settling.isSome writes, Set.mem_insert _ _⟩
  only := by
    rw [updates]
    rintro other (same | earlier)
    · exact same
    · exact settling.only other earlier

theorem Waiting.isSome (waiting : v.Waiting) : v.row.isSome := by
  rcases waiting.row with pending | ⟨cancelling, _⟩
  · rw [pending]; rfl
  · rw [cancelling]; rfl

/-- The first update settles the order. -/
theorem Waiting.settle (waiting : v.Waiting) (row : w.row = v.row)
    (updates : w.updates = insert status v.updates) : w.Settling status where
  row := by
    rw [row, updates]
    exact .inr ⟨waiting.isSome, Set.mem_insert _ _⟩
  only := by
    rw [updates, waiting.noUpdates]
    rintro other (same | none)
    · exact same
    · exact none.elim

theorem Waiting.congr (waiting : v.Waiting) (messages : v.SameMessages w) (row : w.row = v.row)
    (updates : w.updates = v.updates) : w.Waiting where
  row := by
    rw [row]
    exact waiting.row.imp_right fun ⟨isRow, sent⟩ => ⟨isRow, messages.cancelling sent⟩
  notRejecting := fun rejecting => waiting.notRejecting (messages.rejecting.mp rejecting)
  noUpdates := updates.trans waiting.noUpdates

theorem Sound.congr (sound : v.Sound) (messages : v.SameMessages w) (row : w.row = v.row)
    (record : w.record = v.record) (updates : w.updates = v.updates) : w.Sound := by
  have stays : ¬ v.placing → ¬ w.placing := fun notPlacing => mt messages.placing.mp notPlacing
  cases sound with
  | unused noRow noRecord notPlacing noUpdates =>
    exact .unused (row.trans noRow) (record.trans noRecord) (stays notPlacing)
      (updates.trans noUpdates)
  | underway noRecord placing waiting =>
    exact .underway (record.trans noRecord) (messages.placing.mpr placing)
      (waiting.congr messages row updates)
  | invalid noRecord notPlacing settling =>
    exact .invalid (record.trans noRecord) (stays notPlacing) (settling.congr row updates)
  | resting isPending notPlacing waiting =>
    exact .resting (record.trans isPending) (stays notPlacing)
      (waiting.congr messages row updates)
  | refused isPending notPlacing rejecting settling =>
    exact .refused (record.trans isPending) (stays notPlacing) (messages.rejecting.mpr rejecting)
      (settling.congr row updates)
  | ended status written writes isRecord notPlacing isSome settling =>
    refine .ended status written writes (record.trans isRecord) (stays notPlacing)
      (by rw [row]; exact isSome) ?_
    exact settling.imp (fun ⟨rejecting, other⟩ => ⟨messages.rejecting.mpr rejecting, other⟩)
      fun settling => settling.congr row updates

/-- `place_order` inserts a row that was not there. -/
theorem Sound.place (sound : v.Sound) (noRow : v.row = none) (row : w.row = some .pending)
    (record : w.record = v.record) (placing : w.placing) (stored : w.rejecting → w.record ≠ none)
    (updates : w.updates = v.updates) : w.Sound := by
  cases sound with
  | unused _ noRecord _ noUpdates =>
    have stillNone := record.trans noRecord
    exact .underway stillNone placing
      ⟨.inl row, fun rejecting => stored rejecting stillNone, updates.trans noUpdates⟩
  | underway _ _ waiting => simpa [noRow] using waiting.isSome
  | invalid _ _ settling => simpa [noRow] using settling.isSome rfl
  | resting _ _ waiting => simpa [noRow] using waiting.isSome
  | refused _ _ _ settling => simpa [noRow] using settling.isSome rfl
  | ended _ _ _ _ _ isSome => simp [noRow] at isSome

/-- `cancel_order` finds the row pending. -/
theorem Sound.cancel (sound : v.Sound) (isPending : v.row = some .pending)
    (row : w.row = some .cancelling) (record : w.record = v.record)
    (messages : v.SameMessages w) (cancelling : w.cancelling) (updates : w.updates = v.updates) :
    w.Sound := by
  have stays : ¬ v.placing → ¬ w.placing := fun notPlacing => mt messages.placing.mp notPlacing
  have sameRow (waiting : v.Waiting) : w.Waiting :=
    ⟨.inr ⟨row, cancelling⟩, fun rejecting => waiting.notRejecting (messages.rejecting.mp rejecting),
      updates.trans waiting.noUpdates⟩
  have settles {status : EventStatus} {written : RowStatus} (writes : status.written = some written)
      (settling : v.Settling status) : w.Settling status := by
    refine ⟨.inr ⟨by rw [row]; rfl, ?_⟩, by rw [updates]; exact settling.only⟩
    rcases settling.row with told | ⟨_, pendingUpdate⟩
    · exfalso
      rw [isPending] at told
      cases status <;> cases told
    · rw [updates]
      exact pendingUpdate
  cases sound with
  | unused noRow => rw [isPending] at noRow; cases noRow
  | underway noRecord placing waiting =>
    exact .underway (record.trans noRecord) (messages.placing.mpr placing) (sameRow waiting)
  | invalid noRecord notPlacing settling =>
    exact .invalid (record.trans noRecord) (stays notPlacing) (settles rfl settling)
  | resting isRecord notPlacing waiting =>
    exact .resting (record.trans isRecord) (stays notPlacing) (sameRow waiting)
  | refused isRecord notPlacing rejecting settling =>
    exact .refused (record.trans isRecord) (stays notPlacing) (messages.rejecting.mpr rejecting)
      (settles rfl settling)
  | ended status written writes isRecord notPlacing _ settling =>
    refine .ended status written writes (record.trans isRecord) (stays notPlacing)
      (by rw [row]; rfl) ?_
    exact settling.imp (fun ⟨rejecting, other⟩ => ⟨messages.rejecting.mpr rejecting, other⟩)
      (settles writes)

theorem Sound.record_of_placing (sound : v.Sound) (placing : v.placing) : v.record = none := by
  cases sound with
  | underway noRecord => exact noRecord
  | unused _ _ notPlacing => exact absurd placing notPlacing
  | invalid _ notPlacing => exact absurd placing notPlacing
  | resting _ notPlacing => exact absurd placing notPlacing
  | refused _ notPlacing => exact absurd placing notPlacing
  | ended _ _ _ _ notPlacing => exact absurd placing notPlacing

/-- The statuses that records have. -/
theorem Sound.pending_or_terminal {stored : OrderStatus} (sound : v.Sound)
    (record : v.record = some stored) : stored = .PENDING ∨ stored.Terminal := by
  cases sound with
  | unused _ noRecord => rw [noRecord] at record; cases record
  | underway noRecord => rw [noRecord] at record; cases record
  | invalid noRecord => rw [noRecord] at record; cases record
  | resting isPending => exact .inl (Option.some.inj (record.symm.trans isPending))
  | refused isPending => exact .inl (Option.some.inj (record.symm.trans isPending))
  | ended status written writes isRecord =>
    cases Option.some.inj (record.symm.trans isRecord)
    cases status with
    | pending => cases writes
    | partiallyFilled => cases writes
    | filled => exact .inr trivial
    | cancelled => exact .inr trivial
    | rejected => exact .inr trivial

/-- A cancel command is dropped, for an order that is not pending. -/
theorem Sound.drop (sound : v.Sound) (placing : w.placing ↔ v.placing)
    (rejecting : w.rejecting ↔ v.rejecting) (row : w.row = v.row) (record : w.record = v.record)
    (updates : w.updates = v.updates) (notPending : v.record ≠ some .PENDING)
    (arrived : v.record = none → ¬ v.placing) : w.Sound := by
  have stays : ¬ v.placing → ¬ w.placing := fun notPlacing => mt placing.mp notPlacing
  cases sound with
  | unused noRow noRecord notPlacing noUpdates =>
    exact .unused (row.trans noRow) (record.trans noRecord) (stays notPlacing)
      (updates.trans noUpdates)
  | underway noRecord onItsWay => exact absurd onItsWay (arrived noRecord)
  | invalid noRecord notPlacing settling =>
    exact .invalid (record.trans noRecord) (stays notPlacing) (settling.congr row updates)
  | resting isPending => exact absurd isPending notPending
  | refused isPending => exact absurd isPending notPending
  | ended status written writes isRecord notPlacing isSome settling =>
    refine .ended status written writes (record.trans isRecord) (stays notPlacing)
      (by rw [row]; exact isSome) ?_
    exact settling.imp (fun ⟨isRejecting, other⟩ => ⟨rejecting.mpr isRejecting, other⟩)
      fun settling => settling.congr row updates

/-- The place command's SET. -/
theorem Sound.store (sound : v.Sound) (placing : v.placing) (messages : v.cancelling → w.cancelling)
    (notRejecting : ¬ w.rejecting) (stored : ¬ w.placing) (row : w.row = v.row)
    (record : w.record = some .PENDING) (updates : w.updates = v.updates) : w.Sound := by
  cases sound with
  | underway _ _ waiting =>
    refine .resting record stored ⟨?_, notRejecting, updates.trans waiting.noUpdates⟩
    rw [row]
    exact waiting.row.imp_right fun ⟨isRow, sent⟩ => ⟨isRow, messages sent⟩
  | unused _ _ notPlacing => exact absurd placing notPlacing
  | invalid _ notPlacing => exact absurd placing notPlacing
  | resting _ notPlacing => exact absurd placing notPlacing
  | refused _ notPlacing => exact absurd placing notPlacing
  | ended _ _ _ _ notPlacing => exact absurd placing notPlacing

/-- The validator rejects the place command. -/
theorem Sound.invalidate (sound : v.Sound) (placing : v.placing) (stored : ¬ w.placing)
    (row : w.row = v.row) (record : w.record = v.record)
    (updates : w.updates = insert .rejected v.updates) : w.Sound := by
  cases sound with
  | underway noRecord _ waiting =>
    exact .invalid (record.trans noRecord) stored (waiting.settle row updates)
  | unused _ _ notPlacing => exact absurd placing notPlacing
  | invalid _ notPlacing => exact absurd placing notPlacing
  | resting _ notPlacing => exact absurd placing notPlacing
  | refused _ notPlacing => exact absurd placing notPlacing
  | ended _ _ _ _ notPlacing => exact absurd placing notPlacing

/-- A slippage rejection of a stored order is about to be published. -/
theorem Sound.reject (sound : v.Sound) (stored : v.record ≠ none) (placing : w.placing ↔ v.placing)
    (rejecting : w.rejecting) (row : w.row = v.row) (record : w.record = v.record)
    (updates : w.updates = insert .rejected v.updates) : w.Sound := by
  have stays : ¬ v.placing → ¬ w.placing := fun notPlacing => mt placing.mp notPlacing
  cases sound with
  | unused _ noRecord => exact absurd noRecord stored
  | underway noRecord => exact absurd noRecord stored
  | invalid noRecord => exact absurd noRecord stored
  | resting isPending notPlacing waiting =>
    exact .refused (record.trans isPending) (stays notPlacing) rejecting
      (waiting.settle row updates)
  | refused isPending notPlacing _ settling =>
    exact .refused (record.trans isPending) (stays notPlacing) rejecting
      (settling.insert rfl row updates)
  | ended status written writes isRecord notPlacing isSome settling =>
    refine .ended status written writes (record.trans isRecord) (stays notPlacing)
      (by rw [row]; exact isSome) ?_
    by_cases isRejected : status = .rejected
    · subst isRejected
      refine .inr ?_
      rcases settling with ⟨_, other⟩ | settling
      · exact absurd rfl other
      · exact settling.insert rfl row updates
    · exact .inl ⟨rejecting, isRejected⟩

/-- The slippage rejection writes its record, over none that ended otherwise. -/
theorem Sound.rejected (sound : v.Sound) (rejecting : v.rejecting)
    (before : v.record = some .PENDING ∨ v.record = some .REJECTED)
    (placing : w.placing ↔ v.placing) (row : w.row = v.row) (record : w.record = some .REJECTED)
    (updates : w.updates = v.updates) : w.Sound := by
  have stored : v.record ≠ none := by rcases before with same | same <;> rw [same] <;> simp
  have stays : ¬ v.placing → ¬ w.placing := fun notPlacing => mt placing.mp notPlacing
  have settles (notPlacing : ¬ v.placing) (settling : v.Settling .rejected) : w.Sound := by
    have after : w.Settling .rejected := settling.congr row updates
    exact .ended .rejected .rejected rfl record (stays notPlacing) (after.isSome rfl) (.inr after)
  cases sound with
  | unused _ noRecord => exact absurd noRecord stored
  | underway noRecord => exact absurd noRecord stored
  | invalid noRecord => exact absurd noRecord stored
  | resting _ _ waiting => exact absurd rejecting waiting.notRejecting
  | refused _ notPlacing _ settling => exact settles notPlacing settling
  | ended status written writes isRecord notPlacing isSome settling =>
    have isRejected : status = .rejected := by
      rw [isRecord] at before
      cases status with
      | rejected => rfl
      | pending => cases writes
      | partiallyFilled => cases writes
      | filled => rcases before with same | same <;> cases same
      | cancelled => rcases before with same | same <;> cases same
    subst isRejected
    rcases settling with ⟨_, other⟩ | settling
    · exact absurd rfl other
    · exact settles notPlacing settling

/-- The fill script or the cancel script ends a pending order. -/
theorem Sound.finish {written : RowStatus} (sound : v.Sound)
    (writes : status.written = some written) (notRejected : status ≠ .rejected)
    (before : v.record = some .PENDING) (placing : w.placing ↔ v.placing)
    (rejecting : w.rejecting ↔ v.rejecting) (row : w.row = v.row)
    (record : w.record = some status.recorded)
    (updates : w.updates = insert status v.updates) : w.Sound := by
  have stored : v.record ≠ none := by rw [before]; simp
  have stays : ¬ v.placing → ¬ w.placing := fun notPlacing => mt placing.mp notPlacing
  cases sound with
  | unused _ noRecord => exact absurd noRecord stored
  | underway noRecord => exact absurd noRecord stored
  | invalid noRecord => exact absurd noRecord stored
  | resting _ notPlacing waiting =>
    have settling : w.Settling status := waiting.settle row updates
    exact .ended status written writes record (stays notPlacing) (settling.isSome writes)
      (.inr settling)
  | refused _ notPlacing isRejecting settling =>
    exact .ended status written writes record (stays notPlacing)
      (by rw [row]; exact settling.isSome rfl) (.inl ⟨rejecting.mpr isRejecting, notRejected⟩)
  | ended ended _ isWritten isRecord =>
    rw [before] at isRecord
    cases ended with
    | pending => cases isWritten
    | partiallyFilled => cases isWritten
    | filled => cases isRecord
    | cancelled => cases isRecord
    | rejected => cases isRecord

/-- The listener takes an update into the row. -/
theorem Settling.deliver {taken : EventStatus} {written : RowStatus}
    (writes : status.written = some written) (settling : v.Settling status)
    (taken_mem : taken ∈ v.updates)
    (row : (∃ current, taken.written = some current ∧ w.row = some current) ∨
      taken.written = none ∧ w.row = v.row)
    (fewer : w.updates ⊆ v.updates) : w.Settling status where
  row := by
    cases settling.only taken taken_mem
    rcases row with ⟨current, same, isRow⟩ | ⟨none, _⟩
    · exact .inl (isRow.trans same.symm)
    · rw [writes] at none
      cases none
  only := fun other later => settling.only other (fewer later)

theorem Sound.deliver {taken : EventStatus} (sound : v.Sound) (messages : v.SameMessages w)
    (taken_mem : taken ∈ v.updates)
    (row : (∃ current, taken.written = some current ∧ w.row = some current) ∨
      taken.written = none ∧ w.row = v.row)
    (record : w.record = v.record) (fewer : w.updates ⊆ v.updates) : w.Sound := by
  have stays : ¬ v.placing → ¬ w.placing := fun notPlacing => mt messages.placing.mp notPlacing
  have some_updates : v.updates ≠ ∅ := fun empty => by
    rw [empty] at taken_mem
    exact taken_mem
  cases sound with
  | unused _ _ _ noUpdates => exact absurd noUpdates some_updates
  | underway _ _ waiting => exact absurd waiting.noUpdates some_updates
  | resting _ _ waiting => exact absurd waiting.noUpdates some_updates
  | invalid noRecord notPlacing settling =>
    exact .invalid (record.trans noRecord) (stays notPlacing)
      (settling.deliver rfl taken_mem row fewer)
  | refused isPending notPlacing rejecting settling =>
    exact .refused (record.trans isPending) (stays notPlacing) (messages.rejecting.mpr rejecting)
      (settling.deliver rfl taken_mem row fewer)
  | ended status written writes isRecord notPlacing isSome settling =>
    have stillRow : w.row.isSome := by
      rcases row with ⟨current, _, isRow⟩ | ⟨_, same⟩
      · rw [isRow]; rfl
      · rw [same]; exact isSome
    refine .ended status written writes (record.trans isRecord) (stays notPlacing) stillRow ?_
    exact settling.imp (fun ⟨rejecting, other⟩ => ⟨messages.rejecting.mpr rejecting, other⟩)
      fun settling => settling.deliver writes taken_mem row fewer

/-- With no message left the row corresponds to the record. -/
theorem Sound.agrees {row : RowStatus} (sound : v.Sound) (isRow : v.row = some row)
    (notPlacing : ¬ v.placing) (notRejecting : ¬ v.rejecting) (notCancelling : ¬ v.cancelling)
    (noUpdates : v.updates = ∅) : row = correspondingStatus v.record := by
  have told {status : EventStatus} (settling : v.Settling status) : v.row = status.written := by
    rcases settling.row with told | ⟨_, unhandled⟩
    · exact told
    · rw [noUpdates] at unhandled
      exact unhandled.elim
  cases sound with
  | unused noRow => rw [noRow] at isRow; cases isRow
  | underway _ placing => exact absurd placing notPlacing
  | invalid noRecord _ settling =>
    rw [noRecord]
    exact Option.some.inj (isRow.symm.trans (told settling))
  | resting isPending _ waiting =>
    rw [isPending]
    rcases waiting.row with pending | ⟨_, cancelling⟩
    · exact Option.some.inj (isRow.symm.trans pending)
    · exact absurd cancelling notCancelling
  | refused _ _ rejecting => exact absurd rejecting notRejecting
  | ended status written writes isRecord _ _ settling =>
    rcases settling with ⟨rejecting, _⟩ | settling
    · exact absurd rejecting notRejecting
    · have same := isRow.symm.trans (told settling)
      rw [isRecord]
      cases status <;> cases same <;> rfl

end OrderProgress

end TradingPlatform
