import TradingPlatform.Library.StepRuns
import TradingPlatform.Orders.OrderRows

namespace TradingPlatform

open StepRuns

/-- The UPDATE of `force_cancel_admin_order`. -/
def forceCancelRow (row : Option RowStatus) : Option RowStatus := (markUnless .cancelled row).or row

/-- `needs_engine_cancel` -/
def needsEngineCancel (row : Option RowStatus) : Bool :=
  decide (row = some .pending ∨ row = some .cancelling)

/-- One order that was placed with a margin lock: its row; the force cancels that
have read the row, with what they have read; the cancel handlers that have yet to
publish; the cancel commands and the handlers of them in the engine that are past
their checks; whether the place command is on its way; the engine's record; the
updates that the engine is about to publish and those that are published; whether
the listener is about to undo the lock, and how often it has. The last three tell
whether a force cancel has overwritten a pending or cancelling row, whether one
has overwritten a filled row, and whether a fill was not reported. -/
structure CancelRace where
  row : Option RowStatus
  forcing : List Bool
  publishing : ℕ
  commands : ℕ
  cancels : ℕ
  placing : Bool
  record : Option OrderStatus
  outbox : List EventStatus
  events : List EventStatus
  rollingBack : Bool
  rollbacks : ℕ
  forced : Bool
  overridden : Bool
  unreported : Bool
  deriving DecidableEq, Repr

inductive CancelRaceAction
  | cancelOrder
  | cancelAdminOrder
  | forceRead
  | forceUpdate (needsCancel : Bool)
  | publishCancel (succeeds : Bool)
  | place (arrives : Bool)
  | takeCancel (pending : Bool)
  | cancelScript
  | fill (finishes : Bool)
  | publishUpdate (succeeds : Bool)
  | listen (recreates : Bool)
  | rollBack
  deriving DecidableEq, Repr

namespace CancelRace

def placed : CancelRace where
  row := some .pending
  forcing := []
  publishing := 0
  commands := 0
  cancels := 0
  placing := true
  record := none
  outbox := []
  events := []
  rollingBack := false
  rollbacks := 0
  forced := false
  overridden := false
  unreported := false

/-- `cancel_order` and `cancel_admin_order`: only a pending row is cancelled. -/
def requestCancel (s : CancelRace) : CancelRace :=
  match cancelOrderRow s.row with
  | some row => { s with row := some row, publishing := s.publishing + 1 }
  | none => s

def step (s : CancelRace) : CancelRaceAction → Option CancelRace
  | .cancelOrder => some s.requestCancel
  | .cancelAdminOrder => some s.requestCancel
  | .forceRead => some { s with forcing := needsEngineCancel s.row :: s.forcing }
  | .forceUpdate needsCancel =>
    if needsCancel ∈ s.forcing then
      some { s with
        forcing := s.forcing.erase needsCancel
        row := forceCancelRow s.row
        publishing := s.publishing + needsCancel.toNat
        forced := s.forced || needsEngineCancel s.row
        overridden := s.overridden || decide (s.row = some .filled) }
    else none
  | .publishCancel succeeds =>
    if 0 < s.publishing then
      some { s with publishing := s.publishing - 1, commands := s.commands + succeeds.toNat }
    else none
  | .place arrives =>
    if s.placing then
      some { s with placing := false, record := if arrives then some .PENDING else s.record }
    else none
  | .takeCancel pending =>
    if 0 < s.commands then
      some { s with commands := s.commands - 1, cancels := s.cancels + pending.toNat }
    else none
  | .cancelScript =>
    if 0 < s.cancels then
      if s.record = some .PENDING then
        some { s with
          cancels := s.cancels - 1, record := some .CANCELED, outbox := s.outbox ++ [.cancelled] }
      else some { s with cancels := s.cancels - 1 }
    else none
  | .fill finishes =>
    if s.record = some .PENDING then
      -- a script that raises has written the order as filled, and nothing is published
      some { s with
        record := some .FILLED
        outbox := s.outbox ++ if finishes then [.filled] else []
        unreported := !finishes }
    else none
  | .publishUpdate succeeds =>
    match s.outbox with
    | [] => none
    | event :: rest =>
      some { s with
        outbox := rest
        events := s.events ++ if succeeds then [event] else []
        unreported := s.unreported || (!succeeds && decide (event = .filled)) }
  | .listen recreates =>
    match s.events with
    | [] => none
    | event :: rest =>
      if s.rollingBack then none
      else
        some { s with
          events := rest
          row := (handleOrderUpdate recreates s.row event).1
          rollingBack :=
            (handleOrderUpdate recreates s.row event).2 && decide event.RollsBack }
  | .rollBack =>
    if s.rollingBack then some { s with rollingBack := false, rollbacks := s.rollbacks + 1 } else none

/-- No request, command or event is on its way. -/
structure Quiet (s : CancelRace) : Prop where
  forcing : s.forcing = []
  publishing : s.publishing = 0
  commands : s.commands = 0
  cancels : s.cancels = 0
  placing : s.placing = false
  outbox : s.outbox = []
  events : s.events = []
  rollingBack : s.rollingBack = false

/-- What the claim on the lock and on the row comes to: the lock of an order that
was cancelled and never filled is undone once, that of a filled one never, and its
row says so. -/
structure Settled (s : CancelRace) : Prop where
  cancelled : s.row = some .cancelled → s.record ≠ some .FILLED → s.rollbacks = 1
  filled : s.record = some .FILLED → s.row = some .filled ∧ s.rollbacks = 0

/-- The row is as it was before the engine decided, or a force cancel has written it. -/
def Held (s : CancelRace) : Prop :=
  needsEngineCancel s.row = true ∨ s.row = some .cancelled ∧ s.forced = true

/-- How far the order has come. -/
inductive Stage (s : CancelRace) : Prop
  | waiting (record : s.record = none ∨ s.record = some .PENDING) (held : s.Held)
      (outbox : s.outbox = []) (events : s.events = []) (idle : s.rollingBack = false)
      (rollbacks : s.rollbacks = 0)
  | cancelled (record : s.record = some .CANCELED) (held : s.Held)
      (underway : s.events ++ s.outbox = [] ∨ s.events ++ s.outbox = [.cancelled])
      (idle : s.rollingBack = false) (rollbacks : s.rollbacks = 0)
  | undone (record : s.record = some .CANCELED) (row : s.row = some .cancelled)
      (outbox : s.outbox = []) (events : s.events = [])
      (once : s.rollbacks + s.rollingBack.toNat = 1)
  | filled (record : s.record = some .FILLED) (row : s.row ≠ some .filled)
      (underway : s.events ++ s.outbox = [.filled])
      (idle : s.rollingBack = false) (rollbacks : s.rollbacks = 0)
  | unreported (record : s.record = some .FILLED) (unreported : s.unreported = true)
      (outbox : s.outbox = []) (events : s.events = []) (idle : s.rollingBack = false)
      (rollbacks : s.rollbacks = 0)
  | recorded (record : s.record = some .FILLED)
      (row : s.row = some .filled ∨ s.overridden = true)
      (outbox : s.outbox = []) (events : s.events = []) (idle : s.rollingBack = false)
      (rollbacks : s.rollbacks = 0)

structure Sound (s : CancelRace) : Prop where
  stage : s.Stage
  placing : s.placing = true → s.record = none
  row : s.row.isSome = true

variable {s after : CancelRace}

theorem sound_placed : placed.Sound :=
  ⟨.waiting (.inl rfl) (.inl rfl) rfl rfl rfl rfl, fun _ => rfl, rfl⟩

/-- A step that leaves the record, the updates and the undoing alone, and writes the
row in a way that each stage permits. -/
theorem Stage.write (stage : s.Stage) (record : after.record = s.record)
    (outbox : after.outbox = s.outbox) (events : after.events = s.events)
    (rollingBack : after.rollingBack = s.rollingBack) (rollbacks : after.rollbacks = s.rollbacks)
    (unreported : after.unreported = s.unreported) (held : s.Held → after.Held)
    (notFilled : s.row ≠ some .filled → after.row ≠ some .filled)
    (cancelled : s.row = some .cancelled → after.row = some .cancelled)
    (filled : s.row = some .filled ∨ s.overridden = true →
      after.row = some .filled ∨ after.overridden = true) : after.Stage := by
  cases stage with
  | waiting isRecord isHeld noneOut noneIn idle none =>
    exact .waiting (record ▸ isRecord) (held isHeld) (outbox.trans noneOut) (events.trans noneIn)
      (rollingBack.trans idle) (rollbacks.trans none)
  | cancelled isRecord isHeld underway idle none =>
    exact .cancelled (record.trans isRecord) (held isHeld) (by rw [outbox, events]; exact underway)
      (rollingBack.trans idle) (rollbacks.trans none)
  | undone isRecord row noneOut noneIn once =>
    exact .undone (record.trans isRecord) (cancelled row) (outbox.trans noneOut) (events.trans noneIn)
      (by rw [rollbacks, rollingBack]; exact once)
  | filled isRecord row underway idle none =>
    exact .filled (record.trans isRecord) (notFilled row) (by rw [outbox, events]; exact underway)
      (rollingBack.trans idle) (rollbacks.trans none)
  | unreported isRecord lost noneOut noneIn idle none =>
    exact .unreported (record.trans isRecord) (unreported.trans lost) (outbox.trans noneOut)
      (events.trans noneIn) (rollingBack.trans idle) (rollbacks.trans none)
  | recorded isRecord row noneOut noneIn idle none =>
    exact .recorded (record.trans isRecord) (filled row) (outbox.trans noneOut) (events.trans noneIn)
      (rollingBack.trans idle) (rollbacks.trans none)

theorem Sound.requestCancel (sound : s.Sound) : s.requestCancel.Sound := by
  unfold CancelRace.requestCancel cancelOrderRow
  by_cases isPending : s.row = some .pending
  · rw [if_pos isPending]
    refine ⟨sound.stage.write rfl rfl rfl rfl rfl rfl (fun _ => .inl rfl) (fun _ => nofun) ?_ ?_,
      sound.placing, rfl⟩
    · intro row
      exact nomatch isPending.symm.trans row
    · rintro (row | overridden)
      · exact nomatch isPending.symm.trans row
      · exact .inr overridden
  · rw [if_neg isPending]
    exact sound

/-- A force cancel leaves the row cancelled, or as it was if there is none. -/
theorem forceCancelRow_cases (row : Option RowStatus) :
    forceCancelRow row = some .cancelled ∨ row = none ∧ forceCancelRow row = none := by
  cases row with
  | none => exact .inr ⟨rfl, rfl⟩
  | some status => cases status <;> exact .inl rfl

theorem Stage.force (stage : s.Stage) {forcing : List Bool} {publishing : ℕ} :
    Stage { s with
      forcing := forcing
      row := forceCancelRow s.row
      publishing := publishing
      forced := s.forced || needsEngineCancel s.row
      overridden := s.overridden || decide (s.row = some .filled) } := by
  refine stage.write rfl rfl rfl rfl rfl rfl ?_ ?_ ?_ ?_
  · rintro (needs | ⟨row, forced⟩)
    · refine .inr ⟨?_, ?_⟩
      · rcases forceCancelRow_cases s.row with cancelled | ⟨none, _⟩
        · exact cancelled
        · rw [none] at needs
          exact nomatch needs
      · change (s.forced || needsEngineCancel s.row) = true
        rw [needs, Bool.or_true]
    · refine .inr ⟨?_, ?_⟩
      · change forceCancelRow s.row = some .cancelled
        rw [row]
        rfl
      · change (s.forced || needsEngineCancel s.row) = true
        rw [forced, Bool.true_or]
  · intro _ filled
    change forceCancelRow s.row = some .filled at filled
    rcases forceCancelRow_cases s.row with cancelled | ⟨_, none⟩
    · exact nomatch cancelled.symm.trans filled
    · exact nomatch none.symm.trans filled
  · intro row
    change forceCancelRow s.row = some .cancelled
    rw [row]
    rfl
  · rintro (row | overridden)
    · right
      change (s.overridden || decide (s.row = some .filled)) = true
      rw [row, decide_eq_true rfl, Bool.or_true]
    · right
      change (s.overridden || decide (s.row = some .filled)) = true
      rw [overridden, Bool.true_or]

/-- Only the first stage has a pending order in the engine. -/
theorem Stage.of_pending (stage : s.Stage) (pending : s.record = some .PENDING) : s.Held ∧
    s.outbox = [] ∧ s.events = [] ∧ s.rollingBack = false ∧ s.rollbacks = 0 := by
  cases stage with
  | waiting _ held outbox events idle rollbacks => exact ⟨held, outbox, events, idle, rollbacks⟩
  | cancelled record => exact nomatch pending.symm.trans record
  | undone record => exact nomatch pending.symm.trans record
  | filled record => exact nomatch pending.symm.trans record
  | unreported record => exact nomatch pending.symm.trans record
  | recorded record => exact nomatch pending.symm.trans record

theorem Held.not_filled (held : s.Held) : s.row ≠ some .filled := by
  rintro row
  rcases held with needs | ⟨cancelled, _⟩
  · rw [row] at needs
    exact nomatch needs
  · exact nomatch cancelled.symm.trans row

theorem Sound.place {arrives : Bool} (sound : s.Sound) (placing : s.placing = true) :
    Sound { s with placing := false, record := if arrives then some .PENDING else s.record } := by
  have noRecord := sound.placing placing
  refine ⟨?_, nofun, sound.row⟩
  cases sound.stage with
  | waiting _ held outbox events idle rollbacks =>
    refine .waiting ?_ held outbox events idle rollbacks
    cases arrives
    · exact .inl noRecord
    · exact .inr rfl
  | cancelled record => exact nomatch noRecord.symm.trans record
  | undone record => exact nomatch noRecord.symm.trans record
  | filled record => exact nomatch noRecord.symm.trans record
  | unreported record => exact nomatch noRecord.symm.trans record
  | recorded record => exact nomatch noRecord.symm.trans record

theorem Sound.cancelScript (sound : s.Sound) (pending : s.record = some .PENDING) : Sound { s with
    cancels := s.cancels - 1, record := some .CANCELED, outbox := s.outbox ++ [.cancelled] } := by
  obtain ⟨held, outbox, events, idle, rollbacks⟩ := sound.stage.of_pending pending
  refine ⟨.cancelled rfl held (.inr ?_) idle rollbacks, fun placing => ?_, sound.row⟩
  · change s.events ++ (s.outbox ++ [.cancelled]) = [.cancelled]
    rw [outbox, events]
    rfl
  · exact nomatch pending.symm.trans (sound.placing placing)

theorem Sound.fill {finishes : Bool} (sound : s.Sound) (pending : s.record = some .PENDING) :
    Sound { s with
      record := some .FILLED
      outbox := s.outbox ++ if finishes then [.filled] else []
      unreported := !finishes } := by
  obtain ⟨held, outbox, events, idle, rollbacks⟩ := sound.stage.of_pending pending
  refine ⟨?_, fun placing => (nomatch pending.symm.trans (sound.placing placing)), sound.row⟩
  cases finishes with
  | true =>
    refine .filled rfl held.not_filled ?_ idle rollbacks
    change s.events ++ (s.outbox ++ [.filled]) = [.filled]
    rw [outbox, events]
    rfl
  | false =>
    refine .unreported rfl rfl ?_ events idle rollbacks
    change s.outbox ++ [] = []
    rw [outbox]
    rfl

theorem Sound.publishUpdate {succeeds : Bool} {event : EventStatus} {rest : List EventStatus}
    (sound : s.Sound) (first : s.outbox = event :: rest) : Sound { s with
      outbox := rest
      events := s.events ++ if succeeds then [event] else []
      unreported := s.unreported || (!succeeds && decide (event = .filled)) } := by
  refine ⟨?_, sound.placing, sound.row⟩
  have only {status : EventStatus} (underway : s.events ++ s.outbox = [status]) :
      s.events = [] ∧ event = status ∧ rest = [] := by
    rw [first] at underway
    obtain ⟨events, outbox⟩ | ⟨events, outbox⟩ := List.append_eq_singleton_iff.mp underway
    · cases outbox
      exact ⟨events, rfl, rfl⟩
    · cases outbox
  cases sound.stage with
  | waiting _ _ outbox => exact nomatch first.symm.trans outbox
  | undone _ _ outbox => exact nomatch first.symm.trans outbox
  | unreported _ _ outbox => exact nomatch first.symm.trans outbox
  | recorded _ _ outbox => exact nomatch first.symm.trans outbox
  | cancelled record held underway idle rollbacks =>
    rcases underway with none | one
    · rw [first] at none
      exact nomatch (List.append_eq_nil_iff.mp none).2
    · obtain ⟨events, rfl, rfl⟩ := only one
      refine .cancelled record held ?_ idle rollbacks
      rw [events]
      cases succeeds
      · exact .inl rfl
      · exact .inr rfl
  | filled record row underway idle rollbacks =>
    obtain ⟨events, rfl, rfl⟩ := only underway
    cases succeeds with
    | true =>
      refine .filled record row ?_ idle rollbacks
      rw [events]
      rfl
    | false =>
      refine .unreported record ?_ rfl ?_ idle rollbacks
      · exact Bool.or_true _
      · change s.events ++ [] = []
        rw [events]
        rfl

/-- A fill is recorded whatever other status the row has. -/
theorem handleOrderUpdate_filled {recreates : Bool} {row : Option RowStatus} (isRow : row.isSome)
    (notFilled : row ≠ some .filled) :
    handleOrderUpdate recreates row .filled = (some .filled, true) := by
  obtain ⟨status, rfl⟩ := Option.isSome_iff_exists.mp isRow
  cases status <;> first | rfl | exact absurd rfl notFilled

theorem Sound.listen {recreates : Bool} {event : EventStatus} {rest : List EventStatus}
    (sound : s.Sound) (first : s.events = event :: rest) : Sound { s with
      events := rest
      row := (handleOrderUpdate recreates s.row event).1
      rollingBack := (handleOrderUpdate recreates s.row event).2 && decide event.RollsBack } := by
  have stillRow : (handleOrderUpdate recreates s.row event).1.isSome = true := by
    rcases handleOrderUpdate_cases recreates s.row event with ⟨written, _, accepted⟩ | refused
    · rw [accepted]
      rfl
    · rw [refused]
      exact sound.row
  refine ⟨?_, sound.placing, stillRow⟩
  have only {status : EventStatus} (underway : s.events ++ s.outbox = [status]) :
      event = status ∧ rest = [] ∧ s.outbox = [] := by
    rw [first, List.cons_append] at underway
    obtain ⟨rfl, none⟩ := List.cons.inj underway
    exact ⟨rfl, List.append_eq_nil_iff.mp none⟩
  cases sound.stage with
  | waiting _ _ _ events => exact nomatch first.symm.trans events
  | undone _ _ _ events => exact nomatch first.symm.trans events
  | unreported _ _ _ events => exact nomatch first.symm.trans events
  | recorded _ _ _ events => exact nomatch first.symm.trans events
  | cancelled record held underway idle rollbacks =>
    rcases underway with none | one
    · rw [first] at none
      exact nomatch none
    · obtain ⟨rfl, rfl, outbox⟩ := only one
      rcases held with needs | ⟨row, forced⟩
      · -- the row is still open, so the event is accepted
        have accepted : handleOrderUpdate recreates s.row .cancelled = (some .cancelled, true) := by
          rcases of_decide_eq_true needs with row | row <;> rw [row] <;> rfl
        rw [accepted]
        exact .undone record rfl outbox rfl (by rw [rollbacks]; rfl)
      · -- a force cancel was there before, and the event is taken for an old one
        rw [handleOrderUpdate_again (.inl rfl) row]
        exact .cancelled record (.inr ⟨row, forced⟩) (.inl outbox) rfl rollbacks
  | filled record row underway idle rollbacks =>
    obtain ⟨rfl, rfl, outbox⟩ := only underway
    rw [handleOrderUpdate_filled sound.row row]
    exact .recorded record (.inl rfl) outbox rfl rfl rollbacks

theorem Sound.rollBack (sound : s.Sound) (busy : s.rollingBack = true) :
    Sound { s with rollingBack := false, rollbacks := s.rollbacks + 1 } := by
  refine ⟨?_, sound.placing, sound.row⟩
  cases sound.stage with
  | waiting _ _ _ _ idle => exact nomatch idle.symm.trans busy
  | cancelled _ _ _ idle => exact nomatch idle.symm.trans busy
  | filled _ _ _ idle => exact nomatch idle.symm.trans busy
  | unreported _ _ _ _ idle => exact nomatch idle.symm.trans busy
  | recorded _ _ _ _ idle => exact nomatch idle.symm.trans busy
  | undone record row outbox events once =>
    rw [busy] at once
    exact .undone record row outbox events once

theorem Sound.step {action : CancelRaceAction} (sound : s.Sound) (taken : s.step action = some after) :
    after.Sound := by
  cases action with
  | cancelOrder => cases taken; exact sound.requestCancel
  | cancelAdminOrder => cases taken; exact sound.requestCancel
  | forceRead =>
    cases taken
    exact ⟨sound.stage.write rfl rfl rfl rfl rfl rfl id id id id, sound.placing, sound.row⟩
  | forceUpdate needsCancel =>
    simp only [CancelRace.step] at taken
    split_ifs at taken
    cases taken
    refine ⟨sound.stage.force, sound.placing, ?_⟩
    rcases forceCancelRow_cases s.row with cancelled | ⟨none, _⟩
    · exact Option.isSome_of_eq_some cancelled
    · have isRow := sound.row
      rw [none] at isRow
      cases isRow
  | publishCancel succeeds =>
    simp only [CancelRace.step] at taken
    split_ifs at taken
    cases taken
    exact ⟨sound.stage.write rfl rfl rfl rfl rfl rfl id id id id, sound.placing, sound.row⟩
  | place arrives =>
    simp only [CancelRace.step] at taken
    by_cases placing : s.placing = true
    · rw [if_pos placing] at taken
      cases taken
      exact sound.place placing
    · rw [if_neg placing] at taken
      cases taken
  | takeCancel pending =>
    simp only [CancelRace.step] at taken
    split_ifs at taken
    cases taken
    exact ⟨sound.stage.write rfl rfl rfl rfl rfl rfl id id id id, sound.placing, sound.row⟩
  | cancelScript =>
    simp only [CancelRace.step] at taken
    split_ifs at taken with _ pending
    · cases taken
      exact sound.cancelScript pending
    · cases taken
      exact ⟨sound.stage.write rfl rfl rfl rfl rfl rfl id id id id, sound.placing, sound.row⟩
  | fill finishes =>
    simp only [CancelRace.step] at taken
    by_cases pending : s.record = some .PENDING
    · rw [if_pos pending] at taken
      cases taken
      exact sound.fill pending
    · rw [if_neg pending] at taken
      cases taken
  | publishUpdate succeeds =>
    simp only [CancelRace.step] at taken
    cases first : s.outbox with
    | nil => rw [first] at taken; cases taken
    | cons event rest =>
      rw [first] at taken
      cases taken
      exact sound.publishUpdate first
  | listen recreates =>
    simp only [CancelRace.step] at taken
    cases first : s.events with
    | nil => rw [first] at taken; cases taken
    | cons event rest =>
      rw [first] at taken
      dsimp only at taken
      split_ifs at taken
      cases taken
      exact sound.listen first
  | rollBack =>
    simp only [CancelRace.step] at taken
    split_ifs at taken with busy
    cases taken
    exact sound.rollBack busy

/-- The engine fills the order, the listener records it, and a force cancel follows. -/
def overriddenFill : List CancelRaceAction :=
  [.place true, .fill true, .publishUpdate true, .listen false, .forceRead, .forceUpdate false]

/-- A force cancel is there before the engine's cancellation is recorded. -/
def forcedFirst : List CancelRaceAction :=
  [.place true, .forceRead, .forceUpdate true, .publishCancel true, .takeCancel true, .cancelScript,
    .publishUpdate true, .listen false]

/-- A user's cancellation of a pending order. -/
def plainCancel : List CancelRaceAction :=
  [.place true, .cancelOrder, .publishCancel true, .takeCancel true, .cancelScript,
    .publishUpdate true, .listen false, .rollBack]

/-- The engine fills the order and fails to publish that it has. -/
def unreportedFill : List CancelRaceAction := [.place true, .fill true, .publishUpdate false]

/-- The lock of an order that is force cancelled while it is pending stays. -/
theorem force_strands : ∃ s, Run CancelRace.step placed forcedFirst s ∧ s.Quiet ∧
    s.row = some .cancelled ∧ s.record = some .CANCELED ∧ s.rollbacks = 0 :=
  ⟨{ placed with row := some .cancelled, placing := false, record := some .CANCELED, forced := true },
    .of_eval (by decide +kernel), ⟨rfl, rfl, rfl, rfl, rfl, rfl, rfl, rfl⟩, rfl, rfl, rfl⟩

end CancelRace

end TradingPlatform
