import TradingPlatform.Library.StepRuns
import TradingPlatform.Orders.OrderRows

namespace TradingPlatform

open StepRuns

/-- One order that was placed with a margin lock: its row, the statuses the
row has had, the events that `handle_order_update` accepted, whether it is
about to call `rollback_order_margin_lock`, and how often it has. -/
structure OrderLock where
  row : Option RowStatus
  statuses : List RowStatus
  accepted : List EventStatus
  rollingBack : Bool
  rollbacks : ℕ

inductive LockAction
  | deliver (status : EventStatus) (recreates : Bool)
  | rollBack
  | cancelOrder
  | reconcile (redis : OrderStatus)

namespace OrderLock

def placed : OrderLock where
  row := some .pending
  statuses := [.pending]
  accepted := []
  rollingBack := false
  rollbacks := 0

def setRow (s : OrderLock) (row : Option RowStatus) : OrderLock :=
  { s with row := row, statuses := s.statuses ++ row.toList }

/-- The listener takes an event once it is done with the one before. -/
def deliver (s : OrderLock) (status : EventStatus) (recreates : Bool) : Option OrderLock :=
  if s.rollingBack then none
  else
    match handleOrderUpdate recreates s.row status with
    | (row, true) => some { s.setRow row with
        accepted := s.accepted ++ [status], rollingBack := decide status.RollsBack }
    | (_, false) => some s

def step (s : OrderLock) : LockAction → Option OrderLock
  | .deliver status recreates => s.deliver status recreates
  | .rollBack =>
    if s.rollingBack then some { s with rollingBack := false, rollbacks := s.rollbacks + 1 }
    else none
  | .cancelOrder =>
    match cancelOrderRow s.row with
    | some row => some (s.setRow (some row))
    | none => some s
  | .reconcile redis => some (s.setRow (reconcileRow redis s.row))

/-- No event finds the row in a terminal status other than its own. -/
def FirstTerminal (s : OrderLock) : LockAction → Prop
  | .deliver status _ =>
    ∀ written ∈ status.written, ∀ current ∈ s.row, current.Terminal → current = written
  | .rollBack => True
  | .cancelOrder => True
  | .reconcile _ => True

instance (s : OrderLock) : DecidablePred s.FirstTerminal
  | .deliver status _ => inferInstanceAs (Decidable (∀ written ∈ status.written, _))
  | .rollBack => inferInstanceAs (Decidable True)
  | .cancelOrder => inferInstanceAs (Decidable True)
  | .reconcile _ => inferInstanceAs (Decidable True)

/-- The lock is undone at most once, never if a fill is accepted, and once if
the first accepted event undoes it; a terminal status is not replaced. -/
structure UndoneOnce (s : OrderLock) : Prop where
  atMostOnce : s.rollbacks ≤ 1
  neverFilled : .filled ∈ s.accepted → s.rollbacks = 0
  exactlyOnce : ∀ first ∈ s.accepted.head?, first.RollsBack → s.rollingBack = false →
    s.rollbacks = 1
  final : s.statuses.Pairwise fun earlier later => earlier.Terminal → later = earlier

/-- What has been accepted, and what that has done. -/
inductive Stage (s : OrderLock) : Prop
  | waiting (accepted : s.accepted = []) (idle : s.rollingBack = false) (rollbacks : s.rollbacks = 0)
  | filled (accepted : ∀ status ∈ s.accepted, status = .filled) (row : s.row = some .filled)
      (idle : s.rollingBack = false) (rollbacks : s.rollbacks = 0)
  | undone (status : EventStatus) (accepted : s.accepted = [status]) (row : s.row = status.written)
      (rollsBack : status.RollsBack) (once : s.rollbacks + s.rollingBack.toNat = 1)

/-- A terminal status among those so far is still the row's. -/
structure TerminalStays (row : Option RowStatus) (statuses : List RowStatus) : Prop where
  last : ∀ earlier ∈ statuses, earlier.Terminal → row = some earlier
  final : statuses.Pairwise fun earlier later => earlier.Terminal → later = earlier

structure Sound (s : OrderLock) : Prop where
  stage : s.Stage
  stays : TerminalStays s.row s.statuses

variable {s after : OrderLock}

theorem TerminalStays.append {row next : Option RowStatus} {statuses : List RowStatus}
    (stays : TerminalStays row statuses)
    (keeps : ∀ current ∈ row, current.Terminal → next = some current) :
    TerminalStays next (statuses ++ next.toList) where
  last earlier member terminal := by
    rcases List.mem_append.mp member with old | new
    · exact keeps earlier (stays.last earlier old terminal) terminal
    · exact Option.mem_toList.mp new
  final := by
    refine List.pairwise_append.mpr ⟨stays.final, ?_, ?_⟩
    · cases next with
      | none => exact List.Pairwise.nil
      | some status => exact List.pairwise_singleton _ _
    · intro earlier old later new terminal
      have kept := keeps earlier (stays.last earlier old terminal) terminal
      exact Option.some.inj ((Option.mem_toList.mp new).symm.trans kept)

/-- Another status of a row that nothing terminal has happened to. -/
theorem Sound.moveFrom {current : RowStatus} {row : Option RowStatus} (sound : s.Sound)
    (isRow : s.row = some current) (notTerminal : ¬ current.Terminal) :
    (s.setRow row).Sound where
  stage := by
    cases sound.stage with
    | waiting accepted idle rollbacks => exact .waiting accepted idle rollbacks
    | filled _ row =>
      cases Option.some.inj (isRow.symm.trans row)
      exact absurd trivial notTerminal
    | undone status _ row rollsBack =>
      obtain ⟨written, writes, terminal, _⟩ := rollsBack.terminal
      cases Option.some.inj (isRow.symm.trans (row.trans writes))
      exact absurd terminal notTerminal
  stays := by
    refine sound.stays.append fun status same terminal => ?_
    cases Option.some.inj (isRow.symm.trans same)
    exact absurd terminal notTerminal

theorem Sound.sameRow (sound : s.Sound) : (s.setRow s.row).Sound where
  stage := by
    cases sound.stage with
    | waiting accepted idle rollbacks => exact .waiting accepted idle rollbacks
    | filled accepted row idle rollbacks => exact .filled accepted row idle rollbacks
    | undone status accepted row rollsBack once => exact .undone status accepted row rollsBack once
  stays := sound.stays.append fun _ isRow _ => isRow

/-- What an accepted event does: the first one decides, and only further fills
are accepted after a fill. -/
theorem Stage.accept {status : EventStatus} {written : RowStatus} {recreates : Bool}
    (stage : s.Stage) (writes : status.written = some written)
    (keeps : ∀ current ∈ s.row, current.Terminal → current = written)
    (accepted : handleOrderUpdate recreates s.row status = (some written, true)) :
    Stage { s.setRow (some written) with
      accepted := s.accepted ++ [status], rollingBack := decide status.RollsBack } := by
  by_cases rollsBack : status.RollsBack
  · obtain ⟨_, same, _, notFilled⟩ := rollsBack.terminal
    cases Option.some.inj (writes.symm.trans same)
    cases stage with
    | waiting noneYet _ rollbacks =>
      refine .undone status (congrArg (· ++ [status]) noneYet) writes.symm rollsBack ?_
      change s.rollbacks + (decide status.RollsBack).toNat = 1
      rw [rollbacks, decide_eq_true rollsBack]
      rfl
    | filled _ row => exact absurd (keeps .filled row trivial).symm notFilled
    | undone earlier _ row before =>
      obtain ⟨current, isCurrent, terminal, _⟩ := before.terminal
      have same := keeps current (row.trans isCurrent) terminal
      rw [handleOrderUpdate_again rollsBack (by rw [row, isCurrent, same, writes])] at accepted
      exact absurd (congrArg Prod.snd accepted) Bool.false_ne_true
  · have isFilled : status = .filled := by
      cases status with
      | filled => rfl
      | cancelled => exact absurd (.inl rfl) rollsBack
      | rejected => exact absurd (.inr rfl) rollsBack
      | pending => cases writes
      | partiallyFilled => cases writes
    subst isFilled
    cases writes
    cases stage with
    | waiting noneYet _ rollbacks =>
      refine .filled (fun status member => ?_) rfl rfl rollbacks
      change status ∈ s.accepted ++ [.filled] at member
      rw [noneYet] at member
      exact List.mem_singleton.mp member
    | filled fills _ _ rollbacks =>
      refine .filled (fun status member => ?_) rfl rfl rollbacks
      rcases List.mem_append.mp member with earlier | new
      · exact fills status earlier
      · exact List.mem_singleton.mp new
    | undone earlier _ row before =>
      obtain ⟨current, isCurrent, terminal, notFilled⟩ := before.terminal
      exact absurd (keeps current (row.trans isCurrent) terminal) notFilled

theorem Sound.deliver {status : EventStatus} {recreates : Bool} (sound : s.Sound)
    (first : s.FirstTerminal (.deliver status recreates))
    (taken : s.deliver status recreates = some after) : after.Sound := by
  unfold OrderLock.deliver at taken
  split_ifs at taken
  rcases handleOrderUpdate_cases recreates s.row status with
    ⟨written, writes, accepted⟩ | refused
  · rw [accepted] at taken
    cases taken
    have keeps := first written writes
    exact ⟨sound.stage.accept writes keeps accepted,
      sound.stays.append fun current isRow terminal =>
        congrArg some (keeps current isRow terminal).symm⟩
  · rw [refused] at taken
    cases taken
    exact sound

theorem Sound.step {action : LockAction} (sound : s.Sound) (first : s.FirstTerminal action)
    (taken : s.step action = some after) : after.Sound := by
  cases action with
  | deliver status recreates => exact sound.deliver first taken
  | rollBack =>
    simp only [OrderLock.step] at taken
    split_ifs at taken with busy
    cases taken
    refine ⟨?_, sound.stays⟩
    cases sound.stage with
    | waiting _ idle => rw [idle] at busy; cases busy
    | filled _ _ idle => rw [idle] at busy; cases busy
    | undone status accepted row rollsBack once =>
      rw [busy] at once
      exact .undone status accepted row rollsBack once
  | cancelOrder =>
    simp only [OrderLock.step, cancelOrderRow] at taken
    split_ifs at taken with isPending
    · cases taken
      exact sound.moveFrom isPending (by decide)
    · cases taken
      exact sound
  | reconcile redis =>
    cases taken
    unfold reconcileRow
    split
    next status _ =>
      split_ifs with isPending
      · exact sound.moveFrom isPending (by decide)
      · exact sound.sameRow
    next => exact sound.sameRow

theorem sound_placed : placed.Sound where
  stage := .waiting rfl rfl rfl
  stays := by
    refine ⟨fun earlier member terminal => ?_, List.pairwise_singleton _ _⟩
    cases List.mem_singleton.mp member
    exact absurd terminal (by decide)

/-- When every event finds the row without a terminal status or with its own,
the lock is undone at most once, and only if the order is not filled. -/
theorem undoneOnce_of_run {actions : List LockAction}
    (run : GuardedRun step FirstTerminal placed actions s) : s.UndoneOnce := by
  have sound : s.Sound :=
    run.invariant sound_placed fun _ _ _ first taken sound => sound.step first taken
  have final := sound.stays.final
  cases sound.stage with
  | waiting accepted _ rollbacks =>
    refine ⟨rollbacks.le.trans zero_le_one, fun _ => rollbacks, fun first isFirst => ?_, final⟩
    rw [accepted] at isFirst
    cases isFirst
  | filled accepted _ _ rollbacks =>
    refine ⟨rollbacks.le.trans zero_le_one, fun _ => rollbacks, fun first isFirst => ?_, final⟩
    rw [accepted first (List.mem_of_mem_head? isFirst)]
    rintro (cancels | rejects)
    · cases cancels
    · cases rejects
  | undone status accepted _ rollsBack once =>
    refine ⟨?_, fun filled => ?_, fun _ _ _ idle => ?_, final⟩
    · rw [← once]
      exact Nat.le_add_right _ _
    · rw [accepted] at filled
      cases List.mem_singleton.mp filled
      rcases rollsBack with cancels | rejects
      · cases cancels
      · cases rejects
    · rw [idle] at once
      exact once

/-- A cancellation, and then a rejection of the same order. -/
def cancelledThenRejectedActions : List LockAction :=
  [.cancelOrder, .deliver .cancelled false, .rollBack, .deliver .rejected false, .rollBack]

/-- The lock is undone twice. -/
theorem not_undoneOnce_cancelledThenRejectedActions :
    ∃ s, Run step placed cancelledThenRejectedActions s ∧ ¬ s.UndoneOnce := by
  have evaluates : (runGuarded step (fun _ _ => True) placed cancelledThenRejectedActions).map
      (·.rollbacks) = some 2 := by decide +kernel
  obtain ⟨s, reached, rollbacks⟩ := Option.map_eq_some_iff.mp evaluates
  refine ⟨s, .of_eval reached, fun once => ?_⟩
  have atMostOnce := once.atMostOnce
  rw [rollbacks] at atMostOnce
  exact absurd atMostOnce (by decide)

/-- A cancellation whose event comes twice, with listings in between. -/
def cancelledTwiceActions : List LockAction :=
  [.reconcile .PENDING, .cancelOrder, .deliver .cancelled false, .reconcile .CANCELED, .rollBack,
   .deliver .cancelled false]

theorem undoneOnce_cancelledTwiceActions :
    ∃ s, GuardedRun step FirstTerminal placed cancelledTwiceActions s ∧ s.rollbacks = 1 ∧
      s.UndoneOnce := by
  have evaluates : (runGuarded step FirstTerminal placed cancelledTwiceActions).map
      (·.rollbacks) = some 1 := by decide +kernel
  obtain ⟨s, reached, rollbacks⟩ := Option.map_eq_some_iff.mp evaluates
  have run : GuardedRun step FirstTerminal placed cancelledTwiceActions s := .of_eval reached
  exact ⟨s, run, rollbacks, undoneOnce_of_run run⟩

end OrderLock

end TradingPlatform
