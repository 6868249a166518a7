import TradingPlatform.Gateway.CallOutcomes

namespace TradingPlatform

namespace CallDesk
variable {s after : CallDesk} {t : CallTask} {id : CallId} {phase : CallPhase} {state : CallState}
  {next : Option CallPhase} {c : ConnId} {action : CallDeskAction}

theorem lookup_setTask (s : CallDesk) (t t' : CallTask) (next : Option CallPhase) :
    (s.setTask t next).tasks.lookup t' = Function.update (s.tasks.lookup ·) t next t' := by
  by_cases same : t' = t
  · subst same
    cases next <;> simp [setTask]
  · cases next <;> simp [setTask, same, AList.lookup_insert_ne, AList.lookup_erase_ne]

theorem view_setTask (s : CallDesk) (t : CallTask) (next : Option CallPhase) (id : CallId) :
    (s.setTask t next).view id =
      (s.view id).goes t (next.filter fun phase => phase.about = id) := by
  have runs : ((s.setTask t next).view id).runs =
      Function.update (s.view id).runs t (next.filter fun phase => phase.about = id) := by
    funext t'
    change ((s.setTask t next).tasks.lookup t').filter _ = _
    rw [lookup_setTask]
    by_cases same : t' = t
    · subst same
      simp
    · simp [view, same]
  rw [CallView.goes, ← runs]
  cases next <;> rfl

theorem view_insert (s : CallDesk) (state : CallState) (id : CallId) :
    (s.insert state).view id =
      { s.view id with entry := if id = state.callId then some state else (s.view id).entry } := by
  have found : (s.insert state).calls.lookup id =
      if id = state.callId then some state else s.calls.lookup id := by
    split_ifs with same
    · subst same
      exact AList.lookup_insert _
    · exact AList.lookup_insert_ne same
  unfold view
  rw [found]
  rfl

theorem view_remove (s : CallDesk) (id' id : CallId) :
    (s.remove id').view id =
      { s.view id with entry := if id = id' then none else (s.view id).entry } := by
  have found : (s.remove id').calls.lookup id = if id = id' then none else s.calls.lookup id := by
    split_ifs with same
    · subst same
      exact AList.lookup_erase _ _
    · exact AList.lookup_erase_ne same
  unfold view
  rw [found]
  rfl

theorem view_announced (s : CallDesk) (id' id : CallId) (what : Announcement) :
    ({ s with announced := s.announced ++ [(id', what)] } : CallDesk).view id =
      { s.view id with
        outcomes := (s.view id).outcomes ++ if id' = id then [what] else [] } := by
  have told : ({ s with announced := s.announced ++ [(id', what)] } : CallDesk).outcomes id =
      s.outcomes id ++ if id' = id then [what] else [] := by
    unfold outcomes
    rw [List.filterMap_append]
    split_ifs with same <;> simp [same]
  unfold view
  rw [told]
  rfl

theorem view_runs_none (about : ∀ phase, s.tasks.lookup t = some phase → phase.about ≠ id) :
    (s.view id).runs t = none := by
  cases found : s.tasks.lookup t with
  | none => simp [view, found]
  | some phase => simp [view, found, about phase found]

theorem view_runs (running : s.tasks.lookup t = some phase) :
    (s.view phase.about).runs t = some phase := by
  simp [view, running]

theorem goes_none {v : CallView} (idle : v.runs t = none) : v.goes t none = v := by
  rw [CallView.goes, ← idle, Function.update_eq_self]

theorem all_tasks {p : (_ : CallTask) × CallPhase → Bool} (all : s.tasks.entries.all p = true)
    (running : s.tasks.lookup t = some phase) : p ⟨t, phase⟩ = true :=
  List.all_eq_true.mp all _ (AList.mem_lookup_iff.mp running)

theorem lookup_of_view {v : CallPhase} (runs : (s.view id).runs t = some v) :
    s.tasks.lookup t = some v ∧ v.about = id := by
  obtain ⟨running, about⟩ := Option.filter_eq_some_iff.mp runs
  exact ⟨running, of_decide_eq_true about⟩

theorem noHolder_of_unheld (unheld : s.unheld id = true) : (s.view id).NoHolder := by
  intro t phase runs
  obtain ⟨running, about⟩ := lookup_of_view runs
  have free := all_tasks unheld running
  cases phase with
  | reinsert user state => exact absurd about (by simpa [CallPhase.about] using free)
  | _ => rfl

theorem not_accepting_of_unaccepted (unaccepted : s.unaccepted id = true) (t : CallTask) :
    (s.view id).runs t ≠ some (.announce id .accepted) := by
  intro runs
  have free := all_tasks unaccepted (lookup_of_view runs).1
  simp at free

theorem fresh_iff : s.fresh id = true ↔
    s.parties.lookup id = none ∧ ∀ t phase, s.tasks.lookup t = some phase → phase.about ≠ id := by
  unfold fresh
  rw [Bool.and_eq_true, Option.isNone_iff_eq_none, List.all_eq_true]
  refine and_congr_right fun _ => ⟨fun all t phase running => ?_, fun all task member => ?_⟩
  · simpa using all _ (AList.mem_lookup_iff.mp running)
  · simpa using all task.1 task.2 (AList.mem_lookup_iff.mpr member)

/-- What is known of a call, and what has become of it once it was created. -/
def Followed (s : CallDesk) (id : CallId) : Prop :=
  (s.view id).Known id ∧ ((s.view id).parties ≠ none → (s.view id).Track id)

theorem view_setTask_ne {s' : CallDesk} (same : s'.view id = s.view id)
    (idle : (s.view id).runs t = none) (others : ∀ phase ∈ next, phase.about ≠ id) :
    (s'.setTask t next).view id = s.view id := by
  have none : next.filter (fun phase => phase.about = id) = none := by
    cases next with
    | none => rfl
    | some phase => simp [others phase rfl]
  rw [view_setTask, none, same, goes_none idle]

theorem view_perform_ne (known : ∀ id, (s.view id).Known id) (running : s.tasks.lookup t = some phase)
    (apart : phase.about ≠ id) : (s.perform t phase).view id = s.view id := by
  have idle : (s.view id).runs t = none := by
    refine view_runs_none fun other runs => ?_
    rw [running] at runs
    cases runs
    exact apart
  have removed : (s.remove phase.about).view id = s.view id := by
    rw [view_remove, if_neg apart.symm]
  have inserted : ∀ state : CallState, state.callId ≠ id → (s.insert state).view id = s.view id := by
    intro state other
    rw [view_insert, if_neg other.symm]
  cases phase with
  | ring state =>
    simp only [perform]
    split_ifs with absent
    · exact view_setTask_ne removed idle (by simp)
    · have untimed : (s.view id).runs (.timer state.callId) = none := by
        by_contra timed
        obtain ⟨other, timed⟩ := Option.ne_none_iff_exists'.mp timed
        exact apart ((known id).timer _ other timed).1
      have told : ({ s with incoming := s.incoming ++
          (s.userConnections state.targetUserId).map (·, state.callId) } : CallDesk).view id =
          s.view id := by
        have rang : ({ s with incoming := s.incoming ++
            (s.userConnections state.targetUserId).map (·, state.callId) } : CallDesk).Rang id =
            s.Rang id := by
          have other : state.callId ≠ id := apart
          simp [Rang, other]
        unfold view
        rw [rang]
        rfl
      refine view_setTask_ne (view_setTask_ne told idle (by simp)) untimed ?_
      simpa [CallPhase.about] using apart
  | get user id' =>
    simp only [perform]
    split
    next state found =>
      split_ifs with allowed
      · refine view_setTask_ne rfl idle ?_
        simpa [CallPhase.about, ((known id').entry state found).1] using apart
      · exact view_setTask_ne rfl idle (by simp)
    next => exact view_setTask_ne rfl idle (by simp)
  | accept state =>
    simp only [perform]
    refine view_setTask_ne ?_ idle (by simpa [CallPhase.about] using apart)
    split
    next entry found =>
      have belongs : entry.callId = state.callId := ((known _).entry entry found).1
      exact inserted _ (belongs.trans_ne apart)
    next => rfl
  | remove user id' ends =>
    simp only [perform]
    split
    next state found =>
      by_cases allowed : (if ends then state.canEnd user else state.canReject user) = true
      · rw [if_pos allowed]
        exact view_setTask_ne removed idle (by simpa [CallPhase.about] using apart)
      · rw [if_neg allowed]
        refine view_setTask_ne removed idle ?_
        simpa [CallPhase.about, ((known id').entry state found).1] using apart
    next => exact view_setTask_ne rfl idle (by simp)
  | reinsert user state =>
    exact view_setTask_ne (inserted state apart) idle (by simp)
  | expire id' =>
    simp only [perform]
    split
    next state found =>
      split_ifs with ringing
      · exact view_setTask_ne removed idle (by simpa [CallPhase.about] using apart)
      · exact view_setTask_ne rfl idle (by simp)
    next => exact view_setTask_ne rfl idle (by simp)
  | announce id' what =>
    refine view_setTask_ne ?_ idle (by simp)
    have other : id' ≠ id := apart
    rw [view_announced, if_neg other, List.append_nil]

theorem view_setTask_self {s' : CallDesk} (about : ∀ phase ∈ next, phase.about = id) :
    (s'.setTask t next).view id = (s'.view id).goes t next := by
  have all : next.filter (fun phase => phase.about = id) = next := by
    cases next with
    | none => rfl
    | some phase => simp [about phase rfl]
  rw [view_setTask, all]

/-- A call that something was found out about was created. -/
theorem Followed.born (followed : s.Followed id) (found : s.calls.lookup id = some state) :
    state.callId = id ∧ (s.view id).parties = some (state.adminUserId, state.targetUserId) ∧
      (s.view id).Track id := by
  obtain ⟨belongs, parties⟩ := followed.1.entry state found
  exact ⟨belongs, parties, followed.2 (by simp [parties])⟩

/-- A message about the call was looked into, without consequences. -/
theorem Followed.ends (followed : s.Followed phase.about)
    (running : s.tasks.lookup t = some phase) (looks : phase.reinserts = false ∧ phase.announces = false)
    (due : ∀ state, (s.view phase.about).Located state → state.status = .ringing →
      (s.view phase.about).Due phase.about →
        ((s.view phase.about).goes t none).Due phase.about) :
    (s.setTask t none).Followed phase.about := by
  have own := view_runs running
  unfold Followed
  rw [view_setTask_self (by simp)]
  refine ⟨?_, fun born => (followed.2 born).goes (fun other runs => ?_) (by simp) due⟩
  · exact followed.1.goes followed.1.entry (by simp) (by simp) (by simp)
      fun missing => ⟨(followed.1.unborn missing).1, by simp⟩
  · rw [own] at runs
    cases runs
    exact looks

theorem Followed.ends_looking (followed : s.Followed phase.about)
    (running : s.tasks.lookup t = some phase)
    (looks : CallView.Looks phase ∧ phase ≠ .expire phase.about) :
    (s.setTask t none).Followed phase.about := by
  refine followed.ends running ⟨looks.1.1, looks.1.2.1⟩ fun _ _ _ due => due.goes fun other runs => ?_
  rw [view_runs running] at runs
  cases runs
  exact ⟨looks.1.2.2, looks.2⟩

theorem followed_ring (followed : s.Followed state.callId)
    (running : s.tasks.lookup t = some (.ring state)) (unheld : s.unheld state.callId = true) :
    (s.perform t (.ring state)).Followed state.callId := by
  have own : (s.view state.callId).runs t = some (.ring state) := view_runs running
  obtain ⟨silent, untimed, parties, alone⟩ := followed.1.ring t state own
  have track := followed.2 (by simp [parties])
  simp only [perform]
  split_ifs with absent
  · unfold Followed
    rw [view_setTask_self (by simp), view_remove, if_pos rfl]
    refine ⟨?_, fun _ => track.offline (noHolder_of_unheld unheld) own silent alone⟩
    exact followed.1.goes (by simp) (by simp) (by simp) (by simp)
      fun missing => ⟨(followed.1.unborn missing).1, by simp⟩
  · have told : ({ s with incoming := s.incoming ++
        (s.userConnections state.targetUserId).map (·, state.callId) } : CallDesk).view state.callId =
        { s.view state.callId with rang := True } := by
      have rang : ({ s with incoming := s.incoming ++
          (s.userConnections state.targetUserId).map (·, state.callId) } : CallDesk).Rang
          state.callId = True := by
        obtain ⟨c, online⟩ := List.exists_mem_of_ne_nil _ absent
        refine eq_true ⟨c, List.mem_append_right _ ?_⟩
        exact List.mem_map_of_mem online
      unfold view
      rw [rang]
      rfl
    unfold Followed
    rw [view_setTask_self (by simp [CallPhase.about]), view_setTask_self (by simp), told]
    exact ⟨followed.1.rings own, fun _ => track.ring own untimed⟩

theorem followed_get {user : String} (followed : s.Followed id)
    (running : s.tasks.lookup t = some (.get user id)) :
    (s.perform t (.get user id)).Followed id := by
  have own : (s.view id).runs t = some (.get user id) := view_runs running
  have ended : (s.setTask t none).Followed id :=
    followed.ends_looking running ⟨⟨rfl, rfl, rfl⟩, by simp⟩
  simp only [perform]
  split
  next state found =>
    split_ifs with allowed
    · obtain ⟨belongs, parties, track⟩ := followed.born found
      unfold Followed
      rw [view_setTask_self (by simp [CallPhase.about, belongs])]
      refine ⟨followed.1.goes followed.1.entry ?_ ?_ (by simp) ?_, fun _ =>
        track.goes (fun other runs => ?_) ?_ fun _ _ _ due => due.goes fun other runs => ?_⟩
      · intro _ _ j same
        exact absurd same (followed.1.not_timer own (by simp) j)
      · simp [CallPhase.about, CallPhase.rings, belongs]
      · intro missing
        rw [parties] at missing
        cases missing
      · rw [own] at runs
        cases runs
        exact ⟨rfl, rfl⟩
      · intro _ given
        cases given
        exact ⟨rfl, rfl, rfl⟩
      · rw [own] at runs
        cases runs
        exact ⟨rfl, by simp⟩
    · exact ended
  next => exact ended

theorem followed_accept (followed : s.Followed state.callId)
    (running : s.tasks.lookup t = some (.accept state))
    (ringing : (s.calls.lookup state.callId).map (·.status) = some .ringing) :
    (s.perform t (.accept state)).Followed state.callId := by
  have own : (s.view state.callId).runs t = some (.accept state) := view_runs running
  obtain ⟨entry, found, status⟩ := Option.map_eq_some_iff.mp ringing
  obtain ⟨belongs, parties, track⟩ := followed.born found
  simp only [perform, found]
  unfold Followed
  rw [view_setTask_self (by simp [CallPhase.about]), view_insert, if_pos belongs.symm]
  refine ⟨followed.1.goes ?_ ?_ (by simp [CallPhase.about, CallPhase.rings]) (by simp) ?_,
    fun _ => track.accept found status⟩
  · intro _ given
    cases given
    exact ⟨belongs, parties⟩
  · intro _ _ j same
    exact absurd same (followed.1.not_timer own (by simp) j)
  · intro missing
    rw [parties] at missing
    cases missing

theorem followed_remove {user : String} {ends : Bool} (followed : s.Followed id)
    (running : s.tasks.lookup t = some (.remove user id ends))
    (timely : s.Timely (.remove user id ends)) :
    (s.perform t (.remove user id ends)).Followed id := by
  obtain ⟨unheld, announced⟩ := timely
  have own : (s.view id).runs t = some (.remove user id ends) := view_runs running
  simp only [perform]
  split
  next state found =>
    obtain ⟨belongs, parties, track⟩ := followed.born found
    have timed : ∀ next : Option CallPhase, ∀ phase ∈ next, ∀ j, t = .timer j →
        (s.view id).runs t ≠ none ∧ phase = .announce id .timeout := by
      intro _ _ _ j same
      exact absurd same (followed.1.not_timer own (by simp) j)
    have created : (s.view id).parties ≠ none := by simp [parties]
    by_cases allowed : (if ends then state.canEnd user else state.canReject user) = true
    · rw [if_pos allowed]
      unfold Followed
      rw [view_setTask_self (by simp [CallPhase.about]), view_remove, if_pos rfl]
      refine ⟨followed.1.goes (by simp) (timed _) (by simp [CallPhase.about, CallPhase.rings])
        (by simp) fun missing => absurd missing created, fun _ => ?_⟩
      refine track.remove found ?_ (fun _ => ?_) fun isTimeout => ?_
      · cases ends <;> rfl
      · exact not_accepting_of_unaccepted (announced state found allowed)
      · cases ends <;> cases isTimeout
    · rw [if_neg allowed]
      unfold Followed
      rw [view_setTask_self (by simp [CallPhase.about, belongs]), view_remove, if_pos rfl]
      refine ⟨followed.1.goes (by simp) (timed _) (by simp [CallPhase.about, CallPhase.rings, belongs])
        ?_ fun missing => absurd missing created, fun _ => track.hold found user fun other runs => ?_⟩
      · rintro _ _ given
        cases given
        exact parties
      · rw [own] at runs
        cases runs
        exact ⟨⟨rfl, rfl, rfl⟩, by simp⟩
  next => exact followed.ends_looking running ⟨⟨rfl, rfl, rfl⟩, by simp⟩

theorem followed_reinsert {user : String} (followed : s.Followed state.callId)
    (running : s.tasks.lookup t = some (.reinsert user state)) :
    (s.perform t (.reinsert user state)).Followed state.callId := by
  have own : (s.view state.callId).runs t = some (.reinsert user state) := view_runs running
  have parties := followed.1.held t user state own
  simp only [perform]
  unfold Followed
  rw [view_setTask_self (by simp), view_insert, if_pos rfl]
  refine ⟨followed.1.goes ?_ (by simp) (by simp) (by simp) ?_,
    fun _ => (followed.2 (by simp [parties])).reinsert own⟩
  · intro _ given
    cases given
    exact ⟨rfl, parties⟩
  · intro missing
    rw [parties] at missing
    cases missing

theorem followed_expire (followed : s.Followed id) (running : s.tasks.lookup t = some (.expire id))
    (unheld : s.unheld id = true) : (s.perform t (.expire id)).Followed id := by
  have own : (s.view id).runs t = some (.expire id) := view_runs running
  have free := noHolder_of_unheld unheld
  simp only [perform]
  split
  next state found =>
    obtain ⟨belongs, parties, track⟩ := followed.born found
    split_ifs with ringing
    · unfold Followed
      rw [view_setTask_self (by simp [CallPhase.about]), view_remove, if_pos rfl]
      refine ⟨followed.1.goes (by simp) (fun _ given _ _ => ?_)
        (by simp [CallPhase.about, CallPhase.rings]) (by simp) fun missing => ?_,
        fun _ => track.remove found rfl (fun accepted => ?_) fun _ => ringing⟩
      · cases given
        exact ⟨by simp [own], rfl⟩
      · rw [parties] at missing
        cases missing
      · rw [ringing] at accepted
        cases accepted
    · refine followed.ends running ⟨rfl, rfl⟩ fun other located status _ => ?_
      obtain ⟨rfl, -⟩ := located.of_entry found
      exact absurd status ringing
  next missing =>
    refine followed.ends running ⟨rfl, rfl⟩ fun other located _ _ => ?_
    obtain ⟨there, -⟩ | ⟨-, t', ⟨user, held⟩, -⟩ := located
    · exact absurd (there.symm.trans missing) (by simp)
    · exact absurd (free t' _ held) (by simp [CallPhase.reinserts])

theorem followed_announce {what : Announcement} (followed : s.Followed id)
    (running : s.tasks.lookup t = some (.announce id what)) :
    (s.perform t (.announce id what)).Followed id := by
  have own : (s.view id).runs t = some (.announce id what) := view_runs running
  simp only [perform]
  unfold Followed
  rw [view_setTask_self (by simp), view_announced, if_pos rfl]
  refine ⟨followed.1.goes followed.1.entry (by simp) (by simp) (by simp) fun missing => ?_,
    fun created => (followed.2 created).announce own⟩
  have arrived := (followed.1.unborn missing).2.2 t _ own
  cases arrived

theorem followed_perform (followed : ∀ id, s.Followed id)
    (running : s.tasks.lookup t = some phase) (timely : s.Timely phase) (id : CallId) :
    (s.perform t phase).Followed id := by
  by_cases apart : phase.about = id
  · subst apart
    cases phase with
    | ring state => exact followed_ring (followed _) running timely.1
    | get user id => exact followed_get (followed _) running
    | accept state => exact followed_accept (followed _) running timely
    | remove user id ends => exact followed_remove (followed _) running timely
    | reinsert user state => exact followed_reinsert (followed _) running
    | expire id => exact followed_expire (followed _) running timely
    | announce id what => exact followed_announce (followed _) running
  · unfold Followed
    rw [view_perform_ne (fun id => (followed id).1) running apart]
    exact followed id

end CallDesk

end TradingPlatform
