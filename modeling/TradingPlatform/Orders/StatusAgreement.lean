import TradingPlatform.Library.StepRuns
import TradingPlatform.Orders.OrderEffects

namespace TradingPlatform

open StepRuns

namespace OrderDesk

/-- The order's place command has not been stored or refused yet. -/
def PlaceUnderway (s : OrderDesk) (o : OrderId) : Prop :=
  (s.placing o).isSome ∨ (∃ cmd ∈ s.placeCommands, cmd.orderId = o) ∨ (s.running .place).Places o

/-- A cancel command of the order has not been dropped or carried out yet. -/
def CancelUnderway (s : OrderDesk) (o : OrderId) : Prop :=
  (s.cancelling o).isSome ∨ (∃ cmd ∈ s.cancelCommands, cmd.orderId = o) ∨
    ∃ t, (s.engine.tasks t).cancelling = some o

def Unhandled (s : OrderDesk) (event : OrderUpdatedEvent) : Prop :=
  event ∈ s.updates ∨ ∃ loop, event ∈ s.outbox loop

def Owns (s : OrderDesk) (o : OrderId) (userId : UserId) : Prop :=
  ∃ row ∈ s.rows o, row.userId = userId

def progress (s : OrderDesk) (o : OrderId) : OrderProgress where
  row := (s.rows o).map (·.status)
  record := (s.engine.store.orders o).map (·.status)
  placing := s.PlaceUnderway o
  rejecting := ∃ t, (s.engine.tasks t).rejecting = some o
  cancelling := s.CancelUnderway o
  updates := {status | ∃ event, s.Unhandled event ∧ event.orderId = o ∧ event.status = status}

instance (task : Task) : DecidablePred task.Places :=
  fun o => inferInstanceAs (Decidable (∃ cmd ∈ task.placing, cmd.orderId = o))

instance (s : OrderDesk) : DecidablePred s.PlaceUnderway :=
  fun _ => inferInstanceAs (Decidable (_ ∨ _ ∨ _))

/-- The engine's next command finds what it needs. -/
def Orderly (s : OrderDesk) : DeskAction → Prop
  | .advance loop input => (s.running loop).Orderly s.engine input s.PlaceUnderway
  | _ => True

/-- Each place command is in one place, in front of the others of its order's
cancel commands, and every command comes from the order's owner. -/
structure Path (s : OrderDesk) : Prop where
  desk : ∀ o, ∀ cmd ∈ s.placing o, cmd.orderId = o ∧ s.Owns o cmd.userId
  queued : ∀ cmd ∈ s.placeCommands, s.Owns cmd.orderId cmd.userId ∧ s.placing cmd.orderId = none
  once : (s.placeCommands.map (·.orderId)).Nodup
  taken : ∀ cmd ∈ (s.running .place).placing, s.placing cmd.orderId = none ∧
    ∀ other ∈ s.placeCommands, other.orderId ≠ cmd.orderId
  placeOnly : ∀ t, ∀ cmd ∈ (s.engine.tasks t).placing, t = Subscription.place.task
  cancelDesk : ∀ o, ∀ cmd ∈ s.cancelling o, cmd.orderId = o ∧ s.Owns o cmd.userId
  cancelQueued : ∀ cmd ∈ s.cancelCommands, s.Owns cmd.orderId cmd.userId

structure Sound (s : OrderDesk) : Prop where
  knows : s.engine.Knows s.Owns
  tasks : ∀ t, (s.engine.tasks t).Knows s.Owns s.engine.store
  unused : ∀ t, (∀ loop : Subscription, loop.task ≠ t) → s.engine.tasks t = .done
  path : s.Path
  orders : ∀ o, (s.progress o).Sound

variable {s after : OrderDesk}

theorem record_eq {o : OrderId} {order : Order} (stored : s.engine.store.orders o = some order) :
    (s.progress o).record = some order.status := by
  unfold progress
  rw [stored]
  rfl

theorem owns_single (s : OrderDesk) (o : OrderId) (user other : UserId) (first : s.Owns o user)
    (second : s.Owns o other) : user = other := by
  obtain ⟨row, isRow, rfl⟩ := first
  obtain ⟨same, isSame, rfl⟩ := second
  cases Option.some.inj (isRow.symm.trans isSame)
  rfl

/-- An order that a slippage rejection is about to be written for is stored. -/
theorem Sound.stored_of_rejecting {o : OrderId} (sound : s.Sound)
    (rejecting : (s.progress o).rejecting) : (s.engine.store.orders o).isSome := by
  obtain ⟨t, isRejecting⟩ := rejecting
  have knows := sound.tasks t
  revert isRejecting knows
  cases s.engine.tasks t with
  | rejectSetOrder order rest =>
    intro isRejecting knows
    cases isRejecting
    exact (knows.order order rfl).stored
  | _ => intro isRejecting; cases isRejecting

/-! Owners of more rows. -/

theorem Knows.owners {e : Engine} {owns more : OrderId → UserId → Prop}
    (gains : ∀ o user, owns o user → more o user) (knows : e.Knows owns) : e.Knows more where
  hashesOnly := knows.hashesOnly
  stored := fun o order isStored => gains o _ (knows.stored o order isStored)
  cached := fun o order isCached => by
    obtain ⟨id, known, status⟩ := knows.cached o order isCached
    exact ⟨id, ⟨known.stored, gains _ _ known.owner⟩, status⟩

theorem taskKnows_owners {task : Task} {st : Store} {owns more : OrderId → UserId → Prop}
    (gains : ∀ o user, owns o user → more o user) (knows : task.Knows owns st) :
    task.Knows more st where
  placing := fun cmd isCmd => gains _ _ (knows.placing cmd isCmd)
  order := fun order isOrder =>
    ⟨(knows.order order isOrder).stored, gains _ _ (knows.order order isOrder).owner⟩
  ended := knows.ended
  cancelCommand := fun cancel isCancel => gains _ _ (knows.cancelCommand cancel isCancel)
  found := knows.found

theorem Sound.placeOrder {cmd : PlaceOrderCommand} (sound : s.Sound)
    (taken : s.step (.placeOrder cmd) = some after) : after.Sound := by
  simp only [step] at taken
  split_ifs at taken with noRow
  cases taken
  have gains : ∀ o user, s.Owns o user → Owns { s with
      rows := Function.update s.rows cmd.orderId (some ⟨cmd.userId, .pending⟩)
      placing := Function.update s.placing cmd.orderId (some cmd) } o user := by
    rintro o user ⟨row, isRow, same⟩
    have other : o ≠ cmd.orderId := by
      rintro rfl
      rw [noRow] at isRow
      cases isRow
    exact ⟨row, (Function.update_of_ne other ..).trans isRow, same⟩
  have other {o : OrderId} {user : UserId} (owned : s.Owns o user) : o ≠ cmd.orderId := by
    rintro rfl
    obtain ⟨row, isRow, _⟩ := owned
    rw [noRow] at isRow
    cases isRow
  refine ⟨Knows.owners gains sound.knows, fun t => taskKnows_owners gains (sound.tasks t),
    sound.unused, ?_, ?_⟩
  · have path := sound.path
    refine ⟨fun o placed isPlaced => ?_, fun queued isQueued => ?_, path.once,
      fun running isRunning => ?_, path.placeOnly, fun o cancel isCancel => ?_,
      fun cancel isCancel => gains _ _ (path.cancelQueued cancel isCancel)⟩
    · by_cases same : o = cmd.orderId
      · subst same
        have isCmd : some cmd = some placed := by simpa using isPlaced
        cases isCmd
        exact ⟨rfl, ⟨_, Function.update_self .., rfl⟩⟩
      · have before : s.placing o = some placed := by
          simpa [Function.update_of_ne same] using isPlaced
        obtain ⟨id, owner⟩ := path.desk o placed before
        exact ⟨id, gains _ _ owner⟩
    · obtain ⟨owner, notPlacing⟩ := path.queued queued isQueued
      exact ⟨gains _ _ owner, (Function.update_of_ne (other owner) ..).trans notPlacing⟩
    · obtain ⟨notPlacing, notQueued⟩ := path.taken running isRunning
      have owner := (sound.tasks _).placing running isRunning
      exact ⟨(Function.update_of_ne (other owner) ..).trans notPlacing, notQueued⟩
    · obtain ⟨id, owner⟩ := path.cancelDesk o cancel isCancel
      exact ⟨id, gains _ _ owner⟩
  · intro o
    by_cases same : o = cmd.orderId
    · subst same
      refine (sound.orders cmd.orderId).place ?_ ?_ rfl ?_ ?_ rfl
      · simp [progress, noRow]
      · simp [progress]
      · simp [progress, PlaceUnderway]
      · intro rejecting noRecord
        have stored := sound.stored_of_rejecting rejecting
        rw [Option.map_eq_none_iff.mp noRecord] at stored
        cases stored
    · refine (sound.orders o).congr ⟨?_, Iff.rfl, id⟩ ?_ rfl rfl
      · simp [progress, PlaceUnderway, Function.update_of_ne same, running]
      · simp [progress, Function.update_of_ne same]

theorem Sound.publishPlace {r : OrderId} (sound : s.Sound)
    (taken : s.step (.publishPlace r) = some after) : after.Sound := by
  obtain ⟨cmd, isPlacing, rfl⟩ := Option.map_eq_some_iff.mp taken
  have path := sound.path
  obtain ⟨id, owner⟩ := path.desk r cmd isPlacing
  subst id
  have notQueued : ∀ other ∈ s.placeCommands, other.orderId ≠ cmd.orderId := by
    intro other isQueued same
    rw [(congrArg s.placing same).symm.trans (path.queued other isQueued).2] at isPlacing
    cases isPlacing
  have cleared {o : OrderId} (unset : s.placing o = none) :
      Function.update s.placing cmd.orderId none o = none := by
    by_cases same : o = cmd.orderId
    · rw [same, Function.update_self]
    · rw [Function.update_of_ne same, unset]
  refine ⟨sound.knows, sound.tasks, sound.unused, ⟨fun o placed isPlaced => ?_, fun queued isQueued => ?_, ?_,
    fun running isRunning => ?_, path.placeOnly, path.cancelDesk, path.cancelQueued⟩, fun o => ?_⟩
  · by_cases same : o = cmd.orderId
    · subst same
      simp at isPlaced
    · have before : s.placing o = some placed := by
        simpa [Function.update_of_ne same] using isPlaced
      exact path.desk o placed before
  · rcases List.mem_append.mp isQueued with earlier | new
    · exact ⟨(path.queued queued earlier).1, cleared (path.queued queued earlier).2⟩
    · cases List.mem_singleton.mp new
      exact ⟨owner, Function.update_self ..⟩
  · rw [List.map_append]
    refine path.once.append (List.nodup_singleton _) ?_
    rintro o earlier new
    obtain ⟨other, isQueued, rfl⟩ := List.mem_map.mp earlier
    exact notQueued other isQueued (List.mem_singleton.mp new)
  · obtain ⟨notPlacing, others⟩ := path.taken running isRunning
    refine ⟨cleared notPlacing, fun other isQueued => ?_⟩
    rcases List.mem_append.mp isQueued with earlier | new
    · exact others other earlier
    · cases List.mem_singleton.mp new
      intro same
      rw [congrArg s.placing same, notPlacing] at isPlacing
      cases isPlacing
  · refine (sound.orders o).congr ⟨?_, Iff.rfl, id⟩ rfl rfl rfl
    by_cases same : o = cmd.orderId
    · subst same
      simp [progress, PlaceUnderway, isPlacing]
    · simp [progress, PlaceUnderway, Function.update_of_ne same, Ne.symm same, running, or_and_right,
        exists_or]

/-- A step that leaves the engine and the place commands as they are. -/
theorem Sound.desk (sound : s.Sound) (gains : ∀ o user, s.Owns o user → after.Owns o user)
    (engine : after.engine = s.engine) (placing : after.placing = s.placing)
    (placeCommands : after.placeCommands = s.placeCommands)
    (cancelDesk : ∀ o, ∀ cmd ∈ after.cancelling o, cmd.orderId = o ∧ after.Owns o cmd.userId)
    (cancelQueued : ∀ cmd ∈ after.cancelCommands, after.Owns cmd.orderId cmd.userId)
    (orders : ∀ o, (after.progress o).Sound) : after.Sound where
  knows := engine ▸ Knows.owners gains sound.knows
  tasks t := engine ▸ taskKnows_owners gains (sound.tasks t)
  unused := engine ▸ sound.unused
  path := by
    have path := sound.path
    have same : after.running .place = s.running .place := by unfold running; rw [engine]
    refine ⟨?_, ?_, ?_, ?_, ?_, cancelDesk, cancelQueued⟩
    · rw [placing]
      exact fun o cmd isCmd => ⟨(path.desk o cmd isCmd).1, gains _ _ (path.desk o cmd isCmd).2⟩
    · rw [placing, placeCommands]
      exact fun cmd isCmd => ⟨gains _ _ (path.queued cmd isCmd).1, (path.queued cmd isCmd).2⟩
    · rw [placeCommands]
      exact path.once
    · rw [same, placing, placeCommands]
      exact path.taken
    · rw [engine]
      exact path.placeOnly
  orders := orders

theorem Sound.cancelOrder {r : OrderId} {user : UserId} (sound : s.Sound)
    (taken : s.step (.cancelOrder r user) = some after) : after.Sound := by
  simp only [step] at taken
  split_ifs at taken with isPending
  · cases taken
    have gains : ∀ o other, s.Owns o other → Owns { s with
        rows := Function.update s.rows r (some ⟨user, .cancelling⟩)
        cancelling := Function.update s.cancelling r (some ⟨r, user⟩) } o other := by
      rintro o other ⟨row, isRow, rfl⟩
      by_cases same : o = r
      · subst same
        cases Option.some.inj (isPending.symm.trans isRow)
        exact ⟨_, Function.update_self .., rfl⟩
      · exact ⟨row, (Function.update_of_ne same ..).trans isRow, rfl⟩
    refine sound.desk gains rfl rfl rfl (fun o cmd isCancel => ?_)
      (fun cmd isCancel => gains _ _ (sound.path.cancelQueued cmd isCancel)) (fun o => ?_)
    · by_cases same : o = r
      · subst same
        have isCmd : some (⟨o, user⟩ : CancelOrderCommand) = some cmd := by simpa using isCancel
        cases isCmd
        exact ⟨rfl, gains _ _ ⟨_, isPending, rfl⟩⟩
      · have before : s.cancelling o = some cmd := by
          simpa [Function.update_of_ne same] using isCancel
        obtain ⟨id, owner⟩ := sound.path.cancelDesk o cmd before
        exact ⟨id, gains _ _ owner⟩
    · by_cases same : o = r
      · subst same
        refine (sound.orders o).cancel ?_ ?_ rfl ⟨Iff.rfl, Iff.rfl, ?_⟩ ?_ rfl
        · simp [progress, isPending]
        · simp [progress]
        · exact fun _ => .inl (by simp)
        · exact .inl (by simp)
      · refine (sound.orders o).congr ⟨Iff.rfl, Iff.rfl, ?_⟩ ?_ rfl rfl
        · simp [progress, CancelUnderway, Function.update_of_ne same]
        · simp [progress, Function.update_of_ne same]
  · cases taken
    exact sound

theorem Sound.publishCancel {r : OrderId} (sound : s.Sound)
    (taken : s.step (.publishCancel r) = some after) : after.Sound := by
  obtain ⟨cmd, isCancelling, rfl⟩ := Option.map_eq_some_iff.mp taken
  obtain ⟨id, owner⟩ := sound.path.cancelDesk r cmd isCancelling
  subst id
  refine sound.desk (fun _ _ => id) rfl rfl rfl (fun o other isCancel => ?_)
    (fun other isCancel => ?_) (fun o => ?_)
  · by_cases same : o = cmd.orderId
    · subst same
      simp at isCancel
    · have before : s.cancelling o = some other := by
        simpa [Function.update_of_ne same] using isCancel
      exact sound.path.cancelDesk o other before
  · rcases List.mem_append.mp isCancel with earlier | new
    · exact sound.path.cancelQueued other earlier
    · cases List.mem_singleton.mp new
      exact owner
  · refine (sound.orders o).congr ⟨Iff.rfl, Iff.rfl, ?_⟩ rfl rfl rfl
    rintro (desk | ⟨other, isQueued, same⟩ | running)
    · by_cases same : o = cmd.orderId
      · exact .inr (.inl ⟨cmd, List.mem_append_right _ (List.mem_singleton_self _), same.symm⟩)
      · exact .inl (by simpa [Function.update_of_ne same] using desk)
    · exact .inr (.inl ⟨other, List.mem_append_left _ isQueued, same⟩)
    · exact .inr (.inr running)

theorem Sound.publish {loop : Subscription} (sound : s.Sound)
    (taken : s.step (.publish loop) = some after) : after.Sound := by
  simp only [step] at taken
  cases told : s.outbox loop with
  | nil =>
    rw [told] at taken
    cases taken
  | cons event rest =>
    rw [told] at taken
    cases taken
    refine sound.desk (fun _ _ => id) rfl rfl rfl sound.path.cancelDesk sound.path.cancelQueued
      fun o => ?_
    refine (sound.orders o).congr ⟨Iff.rfl, Iff.rfl, id⟩ rfl rfl ?_
    have same (other : OrderUpdatedEvent) : Unhandled { s with
        outbox := Function.update s.outbox loop rest, updates := s.updates ++ [event] } other ↔
        s.Unhandled other := by
      unfold Unhandled
      dsimp only
      rw [Function.exists_update_iff s.outbox fun _ events => other ∈ events, List.mem_append,
        List.mem_singleton]
      constructor
      · rintro ((earlier | new) | later | ⟨other, _, told⟩)
        · exact .inl earlier
        · exact .inr ⟨loop, by rw [told, new]; exact List.mem_cons_self⟩
        · exact .inr ⟨loop, by rw [told]; exact List.mem_cons_of_mem _ later⟩
        · exact .inr ⟨other, told⟩
      · rintro (earlier | ⟨from_, unpublished⟩)
        · exact .inl (.inl earlier)
        · by_cases isLoop : from_ = loop
          · subst isLoop
            rw [told] at unpublished
            rcases List.mem_cons.mp unpublished with new | later
            · exact .inl (.inr new)
            · exact .inr (.inl later)
          · exact .inr (.inr ⟨from_, isLoop, unpublished⟩)
    unfold progress
    simp only [same]

/-- The listener leaves the event's status in the row, and its owner as it was. -/
theorem handle_cases (event : OrderUpdatedEvent) (recreates : Bool) (row : OrderRow) :
    ∃ status, event.handle recreates (some row) = some ⟨row.userId, status⟩ ∧
      ((∃ current, event.status.written = some current ∧ status = current) ∨
        event.status.written = none ∧ status = row.status) := by
  unfold OrderUpdatedEvent.handle
  dsimp only [Option.map_some, Option.getD_some]
  rcases handleOrderUpdate_cases recreates (some row.status) event.status with
    ⟨written, writes, accepted⟩ | refused
  · rw [accepted]
    exact ⟨written, rfl, .inl ⟨written, writes, rfl⟩⟩
  · rw [refused]
    refine ⟨row.status, rfl, ?_⟩
    cases written : event.status.written with
    | none => exact .inr ⟨rfl, rfl⟩
    | some current =>
      refine .inl ⟨current, rfl, ?_⟩
      by_contra other
      have accepts : handleOrderUpdate recreates (some row.status) event.status =
          (some current, true) := by
        have marks : markUnless current (some row.status) = some current := by
          rw [markUnless, Option.bind_some, if_neg other]
        cases status : event.status <;> rw [status] at written <;> cases written <;>
          simp only [handleOrderUpdate, updateOrderInDatabase, updateOrderStatusInDatabase, marks]
      rw [accepts] at refused
      cases refused

theorem Sound.row_of_update (sound : s.Sound) {o : OrderId} {status : EventStatus}
    (unhandled : status ∈ (s.progress o).updates) : ∃ row, s.rows o = some row := by
  have notEmpty : (s.progress o).updates ≠ ∅ := Set.nonempty_iff_ne_empty.mp ⟨status, unhandled⟩
  have isSome : (s.progress o).row.isSome := by
    cases sound.orders o with
    | unused _ _ _ noUpdates => exact absurd noUpdates notEmpty
    | underway _ _ waiting => exact waiting.isSome
    | invalid _ _ settling => exact settling.isSome rfl
    | resting _ _ waiting => exact waiting.isSome
    | refused _ _ _ settling => exact settling.isSome rfl
    | ended _ _ _ _ _ isSome => exact isSome
  obtain ⟨current, isRow⟩ := Option.isSome_iff_exists.mp isSome
  obtain ⟨row, isRow, _⟩ := Option.map_eq_some_iff.mp isRow
  exact ⟨row, isRow⟩

theorem Sound.listen {recreates : Bool} (sound : s.Sound)
    (taken : s.step (.listen recreates) = some after) : after.Sound := by
  simp only [step] at taken
  cases told : s.updates with
  | nil =>
    rw [told] at taken
    cases taken
  | cons event rest =>
    rw [told] at taken
    cases taken
    have unhandled : event.status ∈ (s.progress event.orderId).updates :=
      ⟨event, .inl (by rw [told]; exact List.mem_cons_self), rfl, rfl⟩
    obtain ⟨row, isRow⟩ := sound.row_of_update unhandled
    obtain ⟨status, handled, writes⟩ := handle_cases event recreates row
    rw [isRow, handled]
    have gains : ∀ o user, s.Owns o user → Owns { s with
        updates := rest
        rows := Function.update s.rows event.orderId (some ⟨row.userId, status⟩) } o user := by
      rintro o user ⟨other, isOther, rfl⟩
      by_cases same : o = event.orderId
      · subst same
        cases Option.some.inj (isRow.symm.trans isOther)
        exact ⟨_, Function.update_self .., rfl⟩
      · exact ⟨other, (Function.update_of_ne same ..).trans isOther, rfl⟩
    refine sound.desk gains rfl rfl rfl
      (fun o cmd isCancel => ⟨(sound.path.cancelDesk o cmd isCancel).1,
        gains _ _ (sound.path.cancelDesk o cmd isCancel).2⟩)
      (fun cmd isCancel => gains _ _ (sound.path.cancelQueued cmd isCancel)) fun o => ?_
    by_cases same : o = event.orderId
    · subst same
      refine (sound.orders event.orderId).deliver ⟨Iff.rfl, Iff.rfl, id⟩ unhandled ?_ rfl ?_
      · refine writes.imp ?_ ?_
        · rintro ⟨current, isWritten, rfl⟩
          exact ⟨status, isWritten, by simp [progress]⟩
        · rintro ⟨notWritten, rfl⟩
          exact ⟨notWritten, by simp [progress, isRow]⟩
      · rintro _ ⟨other, later | unpublished, about, rfl⟩
        · exact ⟨other, .inl (by rw [told]; exact List.mem_cons_of_mem _ later), about, rfl⟩
        · exact ⟨other, .inr unpublished, about, rfl⟩
    · refine (sound.orders o).congr ⟨Iff.rfl, Iff.rfl, id⟩ ?_ rfl ?_
      · simp [progress, Function.update_of_ne same]
      · ext current
        constructor
        · rintro ⟨other, later | unpublished, about, rfl⟩
          · exact ⟨other, .inl (by rw [told]; exact List.mem_cons_of_mem _ later), about, rfl⟩
          · exact ⟨other, .inr unpublished, about, rfl⟩
        · rintro ⟨other, earlier | unpublished, about, rfl⟩
          · rw [told] at earlier
            rcases List.mem_cons.mp earlier with rfl | later
            · exact absurd about.symm same
            · exact ⟨other, .inl later, about, rfl⟩
          · exact ⟨other, .inr unpublished, about, rfl⟩

theorem Sound.expireKey {key : String} (sound : s.Sound)
    (taken : s.step (.expireKey key) = some after) : after.Sound := by
  cases taken
  exact ⟨⟨sound.knows.hashesOnly, sound.knows.stored, sound.knows.cached⟩, sound.tasks,
    sound.unused, ⟨sound.path.desk, sound.path.queued, sound.path.once, sound.path.taken, sound.path.placeOnly,
      sound.path.cancelDesk, sound.path.cancelQueued⟩, sound.orders⟩

theorem Subscription.task_injective : Function.Injective Subscription.task := by
  intro loop other same
  cases loop <;> cases other <;> first | rfl | cases same

section Tasks
variable {loop : Subscription} {next : Task}

/-- What holds of some task holds of some task after a loop's task has moved
on, if it makes no difference to that task. -/
theorem exists_task (is : Task → Prop)
    (tasks : after.engine.tasks = Function.update s.engine.tasks loop.task next)
    (same : is next ↔ is (s.running loop)) :
    (∃ t, is (after.engine.tasks t)) ↔ ∃ t, is (s.engine.tasks t) := by
  rw [tasks, Function.exists_update_iff s.engine.tasks fun _ task => is task, same]
  constructor
  · rintro (this | ⟨t, _, other⟩)
    · exact ⟨_, this⟩
    · exact ⟨t, other⟩
  · rintro ⟨t, isTask⟩
    by_cases here : t = loop.task
    · subst here
      exact .inl isTask
    · exact .inr ⟨t, here, isTask⟩

theorem running_eq (tasks : after.engine.tasks = Function.update s.engine.tasks loop.task next)
    (other : Subscription) : after.running other = if other = loop then next else s.running other := by
  unfold running
  rw [tasks]
  split_ifs with same
  · rw [same, Function.update_self]
  · exact Function.update_of_ne (fun equal => same (Subscription.task_injective equal)) ..

theorem forall_task (holds : ℕ → Task → Prop)
    (tasks : after.engine.tasks = Function.update s.engine.tasks loop.task next)
    (this : holds loop.task next) (others : ∀ t, holds t (s.engine.tasks t)) :
    ∀ t, holds t (after.engine.tasks t) := by
  rw [tasks]
  exact (Function.forall_update_iff s.engine.tasks holds).mpr ⟨this, fun t _ => others t⟩

theorem unused_task (tasks : after.engine.tasks = Function.update s.engine.tasks loop.task next)
    (unused : ∀ t, (∀ other : Subscription, other.task ≠ t) → s.engine.tasks t = .done) :
    ∀ t, (∀ other : Subscription, other.task ≠ t) → after.engine.tasks t = .done :=
  forall_task (fun t task => (∀ other : Subscription, other.task ≠ t) → task = .done) tasks
    (fun notUsed => absurd rfl (notUsed loop)) unused

/-- An idle loop starts on a message; the messages about each order stay on
their way. -/
theorem Sound.take (sound : s.Sound) (idle : s.running loop = .done)
    (tasks : after.engine.tasks = Function.update s.engine.tasks loop.task next)
    (rows : after.rows = s.rows) (store : after.engine.store = s.engine.store)
    (cache : after.engine.cache = s.engine.cache) (outbox : after.outbox = s.outbox)
    (updates : after.updates = s.updates) (notRejecting : next.rejecting = none)
    (nextKnows : next.Knows s.Owns s.engine.store) (path : after.Path)
    (placing : ∀ o, after.PlaceUnderway o ↔ s.PlaceUnderway o)
    (cancelling : ∀ o, s.CancelUnderway o → after.CancelUnderway o) : after.Sound := by
  have owns : after.Owns = s.Owns := by unfold Owns; rw [rows]
  have unhandled : after.Unhandled = s.Unhandled := by unfold Unhandled; rw [outbox, updates]
  refine ⟨⟨store ▸ sound.knows.hashesOnly, ?_, ?_⟩, ?_, unused_task tasks sound.unused, path,
    fun o => ?_⟩
  · rw [store, owns]
    exact sound.knows.stored
  · rw [store, cache, owns]
    exact sound.knows.cached
  · rw [store, owns]
    exact forall_task (fun _ task => task.Knows s.Owns s.engine.store) tasks nextKnows sound.tasks
  · refine (sound.orders o).congr ⟨placing o, ?_, cancelling o⟩ ?_ ?_ ?_
    · refine exists_task (fun task => task.rejecting = some o) tasks ?_
      rw [idle, notRejecting]
      exact Iff.rfl
    · unfold progress; rw [rows]
    · unfold progress; rw [store]
    · unfold progress; rw [unhandled]

theorem Sound.takeTick {tick : Tick} {groupId : Option GroupId} (sound : s.Sound)
    (taken : s.step (.takeTick tick groupId) = some after) : after.Sound := by
  simp only [step] at taken
  split_ifs at taken with idle
  cases taken
  have path := sound.path
  have tasks : (s.run .tick (.tickPending tick groupId)).engine.tasks =
    Function.update s.engine.tasks Subscription.tick.task (.tickPending tick groupId) := rfl
  refine sound.take idle.1 tasks rfl rfl rfl rfl rfl rfl (Task.knows_of_none rfl rfl rfl rfl rfl)
    ⟨path.desk, path.queued, path.once, path.taken, ?_, path.cancelDesk, path.cancelQueued⟩
    (fun _ => Iff.rfl) fun o => Or.imp_right (Or.imp_right ?_)
  · have noCommand : ∀ cmd ∈ (Task.tickPending tick groupId).placing,
      Subscription.tick.task = Subscription.place.task := fun _ isCmd => by cases isCmd
    exact forall_task (fun t task => ∀ cmd ∈ task.placing, t = Subscription.place.task)
      tasks noCommand path.placeOnly
  · refine (exists_task (fun task => task.cancelling = some o) tasks ?_).mpr
    rw [idle.1]
    exact Iff.rfl

theorem Sound.takeCancel (sound : s.Sound) (taken : s.step .takeCancel = some after) :
    after.Sound := by
  simp only [step] at taken
  cases queue : s.cancelCommands with
  | nil =>
    rw [queue] at taken
    cases taken
  | cons cmd rest =>
    rw [queue] at taken
    dsimp only at taken
    split_ifs at taken with idle
    cases taken
    have path := sound.path
    have owner : s.Owns cmd.orderId cmd.userId :=
      path.cancelQueued cmd (by rw [queue]; exact List.mem_cons_self)
    have tasks : (run { s with cancelCommands := rest } .cancel
        (.cancelRead cmd.orderId cmd.userId)).engine.tasks =
      Function.update s.engine.tasks Subscription.cancel.task
        (.cancelRead cmd.orderId cmd.userId) := rfl
    refine sound.take idle.1 tasks rfl rfl rfl rfl rfl rfl ?_
      ⟨path.desk, path.queued, path.once, path.taken, ?_, path.cancelDesk, fun other isQueued => ?_⟩
      (fun _ => Iff.rfl) fun o => ?_
    · refine ⟨(fun _ isCmd => by cases isCmd), (fun _ isOrder => by cases isOrder),
        (fun _ isEnded => by cases isEnded), fun cancel isCancel => ?_,
        (fun _ isFound => by cases isFound)⟩
      cases isCancel
      exact owner
    · have noCommand : ∀ other ∈ (Task.cancelRead cmd.orderId cmd.userId).placing,
        Subscription.cancel.task = Subscription.place.task := fun _ isCmd => by cases isCmd
      exact forall_task (fun t task => ∀ cmd ∈ task.placing, t = Subscription.place.task)
        tasks noCommand path.placeOnly
    · exact path.cancelQueued other (by rw [queue]; exact List.mem_cons_of_mem _ isQueued)
    · rintro (desk | ⟨other, isQueued, same⟩ | ⟨t, isTask⟩)
      · exact .inl desk
      · rw [queue] at isQueued
        rcases List.mem_cons.mp isQueued with rfl | later
        · exact .inr (.inr ⟨Subscription.cancel.task, by rw [tasks, Function.update_self, ← same]; rfl⟩)
        · exact .inr (.inl ⟨other, later, same⟩)
      · refine .inr (.inr ⟨t, ?_⟩)
        rw [tasks, Function.update_of_ne, isTask]
        rintro rfl
        have noTask := (congrArg Task.cancelling idle.1).symm.trans isTask
        cases noTask

theorem Sound.takePlace (sound : s.Sound) (taken : s.step .takePlace = some after) :
    after.Sound := by
  simp only [step] at taken
  cases queue : s.placeCommands with
  | nil =>
    rw [queue] at taken
    cases taken
  | cons cmd rest =>
    rw [queue] at taken
    dsimp only at taken
    split_ifs at taken with idle
    cases taken
    have path := sound.path
    have isQueued : cmd ∈ s.placeCommands := by rw [queue]; exact List.mem_cons_self
    have later : ∀ other ∈ rest, other ∈ s.placeCommands := fun other isLater => by
      rw [queue]
      exact List.mem_cons_of_mem _ isLater
    obtain ⟨owner, notPlacing⟩ := path.queued cmd isQueued
    have once := path.once
    rw [queue, List.map_cons, List.nodup_cons] at once
    have tasks : (run { s with placeCommands := rest } .place (.placeGetKey cmd)).engine.tasks =
      Function.update s.engine.tasks Subscription.place.task (.placeGetKey cmd) := rfl
    have runs : (run { s with placeCommands := rest } .place (.placeGetKey cmd)).running .place =
      .placeGetKey cmd := by rw [running_eq tasks, if_pos rfl]
    refine sound.take idle.1 tasks rfl rfl rfl rfl rfl rfl ?_
      ⟨path.desk, fun other isLater => path.queued other (later other isLater), once.2, ?_, ?_,
        path.cancelDesk, path.cancelQueued⟩ (fun o => ?_) fun o => Or.imp_right (Or.imp_right ?_)
    · refine ⟨fun other isCmd => ?_, (fun _ isOrder => by cases isOrder),
        (fun _ isEnded => by cases isEnded), (fun _ isCancel => by cases isCancel),
        (fun _ isFound => by cases isFound)⟩
      cases isCmd
      exact owner
    · rw [runs]
      intro other isCmd
      cases isCmd
      exact ⟨notPlacing, fun other isLater same =>
        once.1 (List.mem_map.mpr ⟨other, isLater, same⟩)⟩
    · exact forall_task (fun t task => ∀ cmd ∈ task.placing, t = Subscription.place.task)
        tasks (fun _ _ => rfl) path.placeOnly
    · unfold PlaceUnderway
      rw [runs, idle.1, queue, places_iff rfl]
      have noCommand : ¬ Task.done.Places o := not_places rfl
      simp only [run, List.mem_cons, exists_eq_or_imp, noCommand, or_false]
      rw [or_comm (a := cmd.orderId = o)]
    · refine (exists_task (fun task => task.cancelling = some o) tasks ?_).mpr
      rw [idle.1]
      exact Iff.rfl

/-- What an engine command leaves alone, and where its updates go. -/
structure Advances (s after : OrderDesk) (loop : Subscription) (next : Task)
    (told : List OrderUpdatedEvent) : Prop where
  rows : after.rows = s.rows
  placing : after.placing = s.placing
  cancelling : after.cancelling = s.cancelling
  placeCommands : after.placeCommands = s.placeCommands
  cancelCommands : after.cancelCommands = s.cancelCommands
  updates : after.updates = s.updates
  outbox : after.outbox = Function.update s.outbox loop told
  silent : s.outbox loop = []
  tasks : after.engine.tasks = Function.update s.engine.tasks loop.task next

variable {told : List OrderUpdatedEvent} {o : OrderId}

theorem Advances.placing_iff (advances : s.Advances after loop next told)
    (same : next.Places o ↔ (s.running loop).Places o) :
    (after.progress o).placing ↔ (s.progress o).placing := by
  change after.PlaceUnderway o ↔ s.PlaceUnderway o
  unfold PlaceUnderway
  rw [advances.placing, advances.placeCommands, running_eq advances.tasks]
  split_ifs with isPlace
  · subst isPlace
    rw [same]
  · exact Iff.rfl

/-- A loop that has a place command is the only place of that command. -/
theorem Advances.placed (advances : s.Advances after loop next told) (path : s.Path)
    (places : (s.running loop).Places o) (done : ¬ next.Places o) :
    (s.progress o).placing ∧ ¬ (after.progress o).placing := by
  obtain ⟨cmd, isCmd, rfl⟩ := places
  cases Subscription.task_injective (path.placeOnly loop.task cmd isCmd)
  obtain ⟨notPlacing, notQueued⟩ := path.taken cmd isCmd
  refine ⟨.inr (.inr ⟨cmd, isCmd, rfl⟩), ?_⟩
  change ¬ after.PlaceUnderway cmd.orderId
  unfold PlaceUnderway
  rw [advances.placing, notPlacing, advances.placeCommands, running_eq advances.tasks, if_pos rfl]
  rintro (desk | ⟨other, isQueued, same⟩ | still)
  · cases desk
  · exact notQueued other isQueued same
  · exact done still

theorem Advances.rejecting_iff (advances : s.Advances after loop next told)
    (same : next.rejecting = some o ↔ (s.running loop).rejecting = some o) :
    (after.progress o).rejecting ↔ (s.progress o).rejecting :=
  exists_task (fun task => task.rejecting = some o) advances.tasks same

theorem Advances.keeps_cancelling (advances : s.Advances after loop next told)
    (keeps : (s.running loop).cancelling = some o → next.cancelling = some o) :
    (s.progress o).cancelling → (after.progress o).cancelling := by
  change s.CancelUnderway o → after.CancelUnderway o
  unfold CancelUnderway
  rw [advances.cancelling, advances.cancelCommands]
  refine Or.imp_right (Or.imp_right ?_)
  rintro ⟨t, isTask⟩
  rw [advances.tasks]
  by_cases same : t = loop.task
  · subst same
    exact ⟨loop.task, by rw [Function.update_self]; exact keeps isTask⟩
  · exact ⟨t, by rw [Function.update_of_ne same]; exact isTask⟩

theorem Advances.updates_eq (advances : s.Advances after loop next told) :
    (after.progress o).updates = (s.progress o).updates ∪ statusesOf told o := by
  have unhandled (event : OrderUpdatedEvent) :
      after.Unhandled event ↔ s.Unhandled event ∨ event ∈ told := by
    unfold Unhandled
    rw [advances.updates, advances.outbox,
      Function.exists_update_iff s.outbox fun _ events => event ∈ events, or_assoc]
    refine or_congr_right ⟨?_, ?_⟩
    · rintro (new | ⟨other, _, earlier⟩)
      · exact .inr new
      · exact .inl ⟨other, earlier⟩
    · rintro (⟨other, earlier⟩ | new)
      · refine .inr ⟨other, ?_, earlier⟩
        rintro rfl
        rw [advances.silent] at earlier
        cases earlier
      · exact .inl new
  ext status
  constructor
  · rintro ⟨event, sent, about, same⟩
    rcases (unhandled event).mp sent with earlier | new
    · exact .inl ⟨event, earlier, about, same⟩
    · exact .inr ⟨event, new, about, same⟩
  · rintro (⟨event, sent, about, same⟩ | ⟨event, sent, about, same⟩)
    · exact ⟨event, (unhandled event).mpr (.inl sent), about, same⟩
    · exact ⟨event, (unhandled event).mpr (.inr sent), about, same⟩

theorem Advances.silent_updates (advances : s.Advances after loop next told)
    (silent : statusesOf told o = ∅) : (after.progress o).updates = (s.progress o).updates := by
  rw [advances.updates_eq, silent, Set.union_empty]

theorem Advances.told_updates {status : EventStatus} (advances : s.Advances after loop next told)
    (tells : statusesOf told o = {status}) :
    (after.progress o).updates = insert status (s.progress o).updates := by
  rw [advances.updates_eq, tells, Set.union_singleton]

/-- The order's progress follows what the command does about it. -/
theorem Advances.sound_progress (advances : s.Advances after loop next told) (sound : s.Sound)
    (arrived : (s.running loop).cancelling = some o → s.engine.store.orders o = none →
      ¬ s.PlaceUnderway o)
    (effect : OrderEffect (s.engine.store.orders o) (after.engine.store.orders o) (s.running loop)
      next told o) : (after.progress o).Sound := by
  have row : (after.progress o).row = (s.progress o).row := by unfold progress; rw [advances.rows]
  have sameRecord (same : after.engine.store.orders o = s.engine.store.orders o) :
      (after.progress o).record = (s.progress o).record := by
    unfold progress
    rw [same]
  have before := sound.orders o
  cases effect with
  | quiet record placing rejecting cancelling silent =>
    exact before.congr ⟨advances.placing_iff placing, advances.rejecting_iff rejecting,
      advances.keeps_cancelling cancelling⟩ row (sameRecord record)
      (advances.silent_updates silent)
  | stored order places fresh record pending done notRejecting notCancelling silent =>
    obtain ⟨placing, placed⟩ := advances.placed sound.path places done
    have wasNotRejecting : ¬ (s.progress o).rejecting := fun rejecting => by
      have stored := sound.stored_of_rejecting rejecting
      rw [fresh] at stored
      cases stored
    have taskNotRejecting : (s.running loop).rejecting ≠ some o := fun isTask =>
      wasNotRejecting ⟨loop.task, isTask⟩
    refine before.store placing (advances.keeps_cancelling fun isTask => absurd isTask notCancelling)
      (fun rejecting => wasNotRejecting ((advances.rejecting_iff ?_).mp rejecting)) placed row ?_
      (advances.silent_updates silent)
    · exact iff_of_false notRejecting taskNotRejecting
    · rw [record_eq record, pending]
  | invalid places record done tells =>
    obtain ⟨placing, placed⟩ := advances.placed sound.path places done
    exact before.invalidate placing placed row (sameRecord record) (advances.told_updates tells)
  | rejects stored record placing nextPlacing rejecting tells =>
    refine before.reject ?_ (advances.placing_iff (iff_of_false nextPlacing placing)) ?_ row
      (sameRecord record) (advances.told_updates tells)
    · intro none
      rw [Option.map_eq_none_iff.mp none] at stored
      cases stored
    · exact ⟨loop.task, by rw [advances.tasks, Function.update_self]; exact rejecting⟩
  | rejected order rejecting orderly record status placing nextPlacing silent =>
    have isRejecting : (s.progress o).rejecting := ⟨loop.task, rejecting⟩
    obtain ⟨stored, isStored⟩ := Option.isSome_iff_exists.mp (sound.stored_of_rejecting isRejecting)
    have wasRecord := record_eq isStored
    refine before.rejected isRejecting ?_
      (advances.placing_iff (iff_of_false nextPlacing placing)) row ?_
      (advances.silent_updates silent)
    · rw [wasRecord]
      rcases before.pending_or_terminal wasRecord with pending | terminal
      · exact .inl (congrArg some pending)
      · exact .inr (congrArg some (orderly stored isStored terminal))
    · rw [record_eq record, status]
  | finished status earlier later was pending record is ends placing nextPlacing rejecting
      nextRejecting tells =>
    have writes : ∃ written, status.written = some written := by
      rcases ends with rfl | rfl <;> exact ⟨_, rfl⟩
    obtain ⟨written, writes⟩ := writes
    refine before.finish writes ?_ ?_ (advances.placing_iff (iff_of_false nextPlacing placing))
      (advances.rejecting_iff (iff_of_false nextRejecting rejecting)) row ?_
      (advances.told_updates tells)
    · rcases ends with rfl | rfl <;> exact fun same => by cases same
    · rw [record_eq was, pending]
    · rw [record_eq record, is]
  | dropped record placing rejecting notPending cancels silent =>
    refine before.drop (advances.placing_iff placing) (advances.rejecting_iff rejecting) row
      (sameRecord record) (advances.silent_updates silent) (fun isPending => ?_) fun none => ?_
    · obtain ⟨stored, isStored, status⟩ := Option.map_eq_some_iff.mp isPending
      exact notPending stored isStored status
    · exact arrived cancels (Option.map_eq_none_iff.mp none)

theorem Sound.advance {input : Input} (sound : s.Sound) (orderly : s.Orderly (.advance loop input))
    (taken : s.step (.advance loop input) = some after) : after.Sound := by
  simp only [step, OrderDesk.advance] at taken
  split_ifs at taken with ready
  obtain ⟨silent, fresh⟩ := ready
  obtain ⟨⟨engine, next⟩, advanced, rfl⟩ := Option.map_eq_some_iff.mp taken
  have unstored : ∀ cmd ∈ (s.running loop).placing, s.engine.store.orders cmd.orderId = none := by
    intro cmd isCmd
    cases Subscription.task_injective (sound.path.placeOnly loop.task cmd isCmd)
    have placing : (s.progress cmd.orderId).placing := .inr (.inr ⟨cmd, isCmd, rfl⟩)
    exact Option.map_eq_none_iff.mp ((sound.orders cmd.orderId).record_of_placing placing)
  have isAdvanced := Engine.advance_advanced sound.knows s.owns_single (sound.tasks loop.task)
    unstored orderly fresh advanced
  have grows : s.engine.store.Grows engine.store := .of_effects isAdvanced.effects
  have tasks : (engine.setTask loop.task next).tasks =
      Function.update s.engine.tasks loop.task next := by
    rw [← isAdvanced.tasks]
    rfl
  have arrived (o : OrderId) (cancels : (s.running loop).cancelling = some o)
      (unknown : s.engine.store.orders o = none) : ¬ s.PlaceUnderway o := by
    have knows := sound.tasks loop.task
    change (s.running loop).Knows _ _ at knows
    change (s.running loop).Orderly _ _ _ at orderly
    revert cancels knows orderly
    cases s.running loop with
    | cancelRead r user =>
      intro cancels _ orderly
      cases cancels
      rcases orderly with stored | notUnderway
      · rw [unknown] at stored
        cases stored
      · exact notUnderway
    | cancelScript r order =>
      intro cancels knows _
      cases cancels
      have stored := knows.found o rfl
      rw [unknown] at stored
      cases stored
    | _ => intro cancels; cases cancels
  have path := sound.path
  have advances : s.Advances { s with
      engine := engine.setTask loop.task next
      outbox := Function.update s.outbox loop ((s.running loop).updates s.engine input next) }
      loop next ((s.running loop).updates s.engine input next) :=
    ⟨rfl, rfl, rfl, rfl, rfl, rfl, rfl, silent, tasks⟩
  refine ⟨⟨isAdvanced.knows.hashesOnly, isAdvanced.knows.stored, isAdvanced.knows.cached⟩,
    forall_task (fun _ task => task.Knows s.Owns engine.store) tasks isAdvanced.nextKnows
      fun t => (sound.tasks t).mono grows,
    unused_task tasks sound.unused, ⟨path.desk, path.queued, path.once, ?_, ?_, path.cancelDesk, path.cancelQueued⟩,
    fun o => advances.sound_progress sound (arrived o) (isAdvanced.effects o)⟩
  · rw [running_eq tasks]
    split_ifs with isPlace
    · subst isPlace
      exact fun cmd isCmd => path.taken cmd (isAdvanced.placing cmd isCmd)
    · exact path.taken
  · exact forall_task (fun t task => ∀ cmd ∈ task.placing, t = Subscription.place.task) tasks
      (fun cmd isCmd => path.placeOnly loop.task cmd (isAdvanced.placing cmd isCmd)) path.placeOnly

end Tasks

theorem Sound.step {action : DeskAction} (sound : s.Sound) (orderly : s.Orderly action)
    (taken : s.step action = some after) : after.Sound := by
  cases action with
  | placeOrder cmd => exact sound.placeOrder taken
  | publishPlace o => exact sound.publishPlace taken
  | cancelOrder o userId => exact sound.cancelOrder taken
  | publishCancel o => exact sound.publishCancel taken
  | takePlace => exact sound.takePlace taken
  | takeCancel => exact sound.takeCancel taken
  | takeTick tick groupId => exact sound.takeTick taken
  | advance loop input => exact sound.advance orderly taken
  | publish loop => exact sound.publish taken
  | listen recreates => exact sound.listen taken
  | expireKey key => exact sound.expireKey taken

theorem sound_start : start.Sound where
  knows := ⟨fun _ => rfl, (fun _ _ isStored => by cases isStored),
    (fun _ _ isCached => by cases isCached)⟩
  tasks _ := Task.knows_done
  unused _ _ := rfl
  path := ⟨(fun _ _ isCmd => by cases isCmd), (fun _ isCmd => by cases isCmd), List.nodup_nil,
    (fun _ isCmd => by cases isCmd), (fun _ _ isCmd => by cases isCmd),
    (fun _ _ isCmd => by cases isCmd), (fun _ isCmd => by cases isCmd)⟩
  orders o := by
    refine .unused rfl rfl ?_ ?_
    · rintro (desk | ⟨_, isQueued, _⟩ | ⟨_, isCmd, _⟩)
      · cases desk
      · cases isQueued
      · cases isCmd
    · refine Set.eq_empty_of_forall_notMem ?_
      rintro _ ⟨_, unhandled | ⟨_, unpublished⟩, _⟩
      · cases unhandled
      · cases unpublished

theorem Sound.agree (sound : s.Sound) : s.StatusesAgree := by
  intro quiescent o row isRow
  have done (t : ℕ) : s.engine.tasks t = .done := by
    by_cases used : ∃ loop : Subscription, loop.task = t
    · obtain ⟨loop, rfl⟩ := used
      exact quiescent.loops loop
    · exact sound.unused t fun loop same => used ⟨loop, same⟩
  refine (sound.orders o).agrees ?_ ?_ ?_ ?_ ?_
  · unfold progress
    rw [isRow]
    rfl
  · rintro (desk | ⟨_, isQueued, _⟩ | places)
    · rw [quiescent.placing] at desk
      cases desk
    · rw [quiescent.placeCommands] at isQueued
      cases isQueued
    · rw [quiescent.loops] at places
      exact not_places rfl places
  · rintro ⟨t, rejecting⟩
    rw [done t] at rejecting
    cases rejecting
  · rintro (desk | ⟨_, isQueued, _⟩ | ⟨t, cancelling⟩)
    · rw [quiescent.cancelling] at desk
      cases desk
    · rw [quiescent.cancelCommands] at isQueued
      cases isQueued
    · rw [done t] at cancelling
      cases cancelling
  · refine Set.eq_empty_of_forall_notMem ?_
    rintro _ ⟨_, unhandled | ⟨loop, unpublished⟩, _⟩
    · rw [quiescent.updates] at unhandled
      cases unhandled
    · rw [quiescent.outbox] at unpublished
      cases unpublished

instance (e : Engine) (input : Input) (underway : OrderId → Prop) [DecidablePred underway] :
    DecidablePred (Task.Orderly e input underway)
  | .placeGetKey cmd => inferInstanceAs (Decidable (e.keys cmd.idempotencyKey = none))
  | .rejectSetOrder order _ =>
    inferInstanceAs (Decidable (∀ stored ∈ e.store.orders order.id, _ → stored.status = .REJECTED))
  | .fillScript order fillPrice eff _ =>
    inferInstanceAs (Decidable ((Engine.fillArgs order fillPrice eff input).WritesLevels e.store
      input.existing))
  | .cancelRead o _ => inferInstanceAs (Decidable ((e.store.orders o).isSome ∨ ¬ underway o))
  | .done | .placeSetKey _ | .placeSetOrder _ | .placeAddPending _ | .placeAddCache _
  | .placeResolvePrice _ | .filledUpdateCache _ _ _ | .filledRemovePending _ _
  | .rejectUpdateCache _ _ | .rejectRemovePending _ _ | .rejectZrem _ _ | .tickPending _ _
  | .tickOrders _ | .cancelScript _ _ | .cancelRemovePending _ _ => inferInstanceAs (Decidable True)

instance (s : OrderDesk) : DecidablePred s.Orderly
  | .advance loop input =>
    inferInstanceAs (Decidable ((s.running loop).Orderly s.engine input s.PlaceUnderway))
  | .placeOrder _ | .publishPlace _ | .cancelOrder _ _ | .publishCancel _ | .takePlace | .takeCancel
  | .takeTick _ _ | .publish _ | .listen _ | .expireKey _ => inferInstanceAs (Decidable True)

/-- Only requests about an order put its commands on the desk. -/
def Elsewhere (o : OrderId) (action : DeskAction) : Prop :=
  (∀ cmd, action = .placeOrder cmd → cmd.orderId ≠ o) ∧ ∀ user, action ≠ .cancelOrder o user

theorem noCommand_of_run {actions : List DeskAction} {o : OrderId} (run : Run step start actions s)
    (elsewhere : ∀ action ∈ actions, Elsewhere o action) :
    s.placing o = none ∧ s.cancelling o = none := by
  let Inv (actions : List DeskAction) (s : OrderDesk) : Prop :=
    (∀ action ∈ actions, Elsewhere o action) → s.placing o = none ∧ s.cancelling o = none
  have initially : Inv [] start := fun _ => ⟨rfl, rfl⟩
  suffices holds : Inv actions s from holds elsewhere
  refine run.invariant_labels initially ?_
  intro actions before action after _ taken earlier elsewhere
  obtain ⟨placing, cancelling⟩ := earlier fun other isOther =>
    elsewhere other (List.mem_append_left _ isOther)
  obtain ⟨notPlaced, notCancelled⟩ :=
    elsewhere action (List.mem_append_right _ (List.mem_singleton_self _))
  cases action with
  | placeOrder cmd =>
    simp only [step] at taken
    split_ifs at taken
    cases taken
    exact ⟨(Function.update_of_ne (notPlaced cmd rfl).symm ..).trans placing, cancelling⟩
  | cancelOrder r user =>
    simp only [step] at taken
    split_ifs at taken
    · cases taken
      refine ⟨placing, (Function.update_of_ne (fun same => ?_) ..).trans cancelling⟩
      exact notCancelled user (by rw [same])
    · cases taken
      exact ⟨placing, cancelling⟩
  | publishPlace r =>
    obtain ⟨cmd, _, rfl⟩ := Option.map_eq_some_iff.mp taken
    refine ⟨?_, cancelling⟩
    change Function.update before.placing r none o = none
    by_cases same : o = r
    · rw [same, Function.update_self]
    · rw [Function.update_of_ne same, placing]
  | publishCancel r =>
    obtain ⟨cmd, _, rfl⟩ := Option.map_eq_some_iff.mp taken
    refine ⟨placing, ?_⟩
    change Function.update before.cancelling r none o = none
    by_cases same : o = r
    · rw [same, Function.update_self]
    · rw [Function.update_of_ne same, cancelling]
  | takePlace =>
    simp only [step] at taken
    cases queue : before.placeCommands with
    | nil => rw [queue] at taken; cases taken
    | cons cmd rest =>
      rw [queue] at taken
      dsimp only at taken
      split_ifs at taken
      cases taken
      exact ⟨placing, cancelling⟩
  | takeCancel =>
    simp only [step] at taken
    cases queue : before.cancelCommands with
    | nil => rw [queue] at taken; cases taken
    | cons cmd rest =>
      rw [queue] at taken
      dsimp only at taken
      split_ifs at taken
      cases taken
      exact ⟨placing, cancelling⟩
  | takeTick tick groupId =>
    simp only [step] at taken
    split_ifs at taken
    cases taken
    exact ⟨placing, cancelling⟩
  | advance loop input =>
    simp only [step, OrderDesk.advance] at taken
    split_ifs at taken
    obtain ⟨_, _, rfl⟩ := Option.map_eq_some_iff.mp taken
    exact ⟨placing, cancelling⟩
  | publish loop =>
    simp only [step] at taken
    cases told : before.outbox loop with
    | nil => rw [told] at taken; cases taken
    | cons event rest => rw [told] at taken; cases taken; exact ⟨placing, cancelling⟩
  | listen recreates =>
    simp only [step] at taken
    cases told : before.updates with
    | nil => rw [told] at taken; cases taken
    | cons event rest => rw [told] at taken; cases taken; exact ⟨placing, cancelling⟩
  | expireKey key =>
    cases taken
    exact ⟨placing, cancelling⟩

def limitBuy : PlaceOrderCommand :=
  { orderId := 1, userId := 7, symbol := "EURUSD", side := .BUY, orderType := .LIMIT, size := 2
    limitPrice := some 9, sl := some 8, tp := some 20, idempotencyKey := "k1" }

/-- A limit order that its user cancels while its place command is on its way;
the engine takes the cancel command first. -/
def cancelledFirst : List DeskAction :=
  [.placeOrder limitBuy, .cancelOrder 1 7, .publishPlace 1, .publishCancel 1, .takeCancel,
   .advance .cancel {}, .takePlace, .advance .place {}, .advance .place {}, .advance .place {},
   .advance .place {}, .advance .place {}]

/-- Whether nothing is going on, except for commands on the desk. -/
def Rests (s : OrderDesk) : Prop :=
  s.placing 1 = none ∧ s.cancelling 1 = none ∧ s.placeCommands = [] ∧ s.cancelCommands = [] ∧
    (s.running .place = .done ∧ s.running .cancel = .done ∧ s.running .tick = .done) ∧
    (s.outbox .place = [] ∧ s.outbox .cancel = [] ∧ s.outbox .tick = []) ∧ s.updates = []

instance (s : OrderDesk) : Decidable s.Rests := inferInstanceAs (Decidable (_ ∧ _))

theorem Rests.quiescent (rests : s.Rests)
    (elsewhere : ∀ o ≠ 1, s.placing o = none ∧ s.cancelling o = none) : s.Quiescent := by
  obtain ⟨placing, cancelling, places, cancels, ⟨place, cancel, tick⟩,
    ⟨placeOutbox, cancelOutbox, tickOutbox⟩, updates⟩ := rests
  refine ⟨fun o => ?_, fun o => ?_, places, cancels, fun loop => ?_, fun loop => ?_, updates⟩
  · by_cases same : o = 1
    · rw [same, placing]
    · exact (elsewhere o same).1
  · by_cases same : o = 1
    · rw [same, cancelling]
    · exact (elsewhere o same).2
  · cases loop with
    | place => exact place
    | cancel => exact cancel
    | tick => exact tick
  · cases loop with
    | place => exact placeOutbox
    | cancel => exact cancelOutbox
    | tick => exact tickOutbox

/-- The same requests, with the place command stored before the cancel command
is taken. -/
def storedFirst : List DeskAction :=
  [.placeOrder limitBuy, .publishPlace 1, .takePlace, .advance .place {}, .advance .place {},
   .advance .place {}, .cancelOrder 1 7, .publishCancel 1, .takeCancel, .advance .cancel {},
   .advance .cancel { timestampMs := 5 }, .publish .cancel, .listen false, .advance .cancel {},
   .advance .place {}, .advance .place {}]

end OrderDesk

end TradingPlatform
