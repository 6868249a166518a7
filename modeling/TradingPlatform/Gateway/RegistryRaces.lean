import TradingPlatform.Gateway.ConnectionStanding

namespace TradingPlatform

open StepRuns

namespace RegistryCalls
variable {s after : RegistryCalls} {c d : ConnId} {t : TaskId} {op : MapStep}
  {next : Option MapStep} {session : SessionTask}

theorem standing_setCall_self (s : RegistryCalls) (t : TaskId) (c : ConnId)
    (next : Option MapStep) : (s.setCall t c next).standing c =
      { s.standing c with runs := Function.update (s.standing c).runs t next } := by
  have runs : ((s.setCall t c next).standing c).runs =
      Function.update (s.standing c).runs t next := by
    funext t'
    by_cases same : t' = t
    · subst same
      cases next <;> simp [standing, setCall]
    · cases next <;> simp [standing, setCall, AList.lookup_insert_ne same,
        AList.lookup_erase_ne same, Function.update_of_ne same]
  rw [← runs]
  cases next <;> rfl

theorem standing_setCall_ne (apart : d ≠ c)
    (was : ∀ call, s.calls.lookup t = some call → call.conn ≠ d) :
    (s.setCall t c next).standing d = s.standing d := by
  have runs : ((s.setCall t c next).standing d).runs = (s.standing d).runs := by
    funext t'
    by_cases same : t' = t
    · subst same
      have before : (s.standing d).runs t' = none := by
        cases found : s.calls.lookup t' with
        | none => simp [standing, found]
        | some call => simp [standing, found, was call found]
      rw [before]
      cases next <;> simp [standing, setCall, apart.symm]
    · cases next <;> simp [standing, setCall, AList.lookup_insert_ne same,
        AList.lookup_erase_ne same]
  have whole : (s.setCall t c next).standing d =
      { s.standing d with runs := ((s.setCall t c next).standing d).runs } := by
    cases next <;> rfl
  rw [whole, runs]

theorem runs_eq_some_iff : (s.standing c).runs t = some op ↔ s.calls.lookup t = some ⟨c, op⟩ := by
  cases found : s.calls.lookup t with
  | none => simp [standing, found]
  | some call =>
    obtain ⟨conn, next⟩ := call
    by_cases same : conn = c <;> simp [standing, found, same]

theorem operate_others (taken : s.operate c op = some (after, next)) :
    after.calls = s.calls ∧ after.sessions = s.sessions ∧ after.connectionTxs = s.connectionTxs := by
  cases op <;> simp only [operate, Option.some.injEq, Prod.mk.injEq] at taken
  case removeConnection =>
    split at taken
    next => cases taken
    next =>
      cases taken
      exact ⟨rfl, rfl, rfl⟩
  all_goals
    obtain ⟨rfl, -⟩ := taken
    exact ⟨rfl, rfl, rfl⟩

theorem operate_absent (taken : s.operate c op = some (after, next)) (absent : s.connections c = none)
    (notInsert : ∀ conn, op ≠ .insertConnection conn) : after.connections c = none := by
  cases op <;> simp only [operate, Option.some.injEq, Prod.mk.injEq] at taken
  case insertConnection conn => exact absurd rfl (notInsert conn)
  case removeConnection =>
    split at taken
    next => cases taken
    next =>
      cases taken
      exact Function.update_self ..
  all_goals
    obtain ⟨rfl, -⟩ := taken
    simp [setConnection, absent]

theorem retainNext_kind {symbols : List String} {n : MapStep}
    (given : n ∈ MapStep.retainNext symbols) :
    n.cleaning = true ∧ ∀ conn, n ≠ .insertConnection conn := by
  cases symbols with
  | nil => cases given
  | cons symbol rest =>
    cases given
    exact ⟨rfl, by simp⟩

theorem retainNext_fits {v : ConnStanding} {symbols : List String} {n : MapStep} (gone : v.Gone)
    (given : n ∈ MapStep.retainNext symbols) : v.Fits n := by
  cases symbols with
  | nil => cases given
  | cons symbol rest =>
    cases given
    exact gone

theorem retainNext_owes {symbol : String} {symbols : List String} (member : symbol ∈ symbols) :
    ∃ n ∈ MapStep.retainNext symbols, n.OwesSymbol symbol := by
  cases symbols with
  | nil => cases member
  | cons first rest => exact ⟨_, rfl, List.mem_cons.mp member⟩

theorem operate_next (taken : s.operate c op = some (after, next)) : ∀ n ∈ next,
    n.cleaning = op.cleaning ∧ (∀ conn, n ≠ .insertConnection conn) ∧
      (s.connections c = none → op.hasSeen = false → n.hasSeen = false) := by
  intro n given
  cases op <;> simp only [operate, Option.some.injEq, Prod.mk.injEq] at taken
  case removeConnection =>
    split at taken
    next => cases taken
    next =>
      cases taken
      obtain ⟨conn, live, rfl⟩ := Option.map_eq_some_iff.mp given
      exact ⟨rfl, by simp, by simp [live]⟩
  case retainUser key symbols =>
    obtain ⟨-, rfl⟩ := taken
    split at given
    next =>
      cases given
      exact ⟨rfl, by simp, by simp [MapStep.hasSeen, MapStep.cleaning]⟩
    next =>
      obtain ⟨cleaning, other⟩ := retainNext_kind given
      exact ⟨cleaning, other, by simp [MapStep.hasSeen, MapStep.cleaning]⟩
  case removeUser key symbols =>
    obtain ⟨-, rfl⟩ := taken
    obtain ⟨cleaning, other⟩ := retainNext_kind given
    exact ⟨cleaning, other, by simp [MapStep.hasSeen, MapStep.cleaning]⟩
  case retainSymbol symbol rest =>
    obtain ⟨-, rfl⟩ := taken
    split at given
    next =>
      cases given
      exact ⟨rfl, by simp, by simp [MapStep.hasSeen, MapStep.cleaning]⟩
    next =>
      obtain ⟨cleaning, other⟩ := retainNext_kind given
      exact ⟨cleaning, other, by simp [MapStep.hasSeen, MapStep.cleaning]⟩
  case removeSymbol symbol rest =>
    obtain ⟨-, rfl⟩ := taken
    obtain ⟨cleaning, other⟩ := retainNext_kind given
    exact ⟨cleaning, other, by simp [MapStep.hasSeen, MapStep.cleaning]⟩
  case getToSubscribe symbol channels =>
    obtain ⟨-, rfl⟩ := taken
    obtain ⟨_, _, rfl⟩ := Option.map_eq_some_iff.mp given
    exact ⟨rfl, by simp, by simp [MapStep.hasSeen, MapStep.cleaning]⟩
  case getToUnsubscribe symbol =>
    obtain ⟨-, rfl⟩ := taken
    obtain ⟨_, _, rfl⟩ := Option.map_eq_some_iff.mp given
    exact ⟨rfl, by simp, by simp [MapStep.hasSeen, MapStep.cleaning]⟩
  case retainSubscribers symbol =>
    obtain ⟨-, rfl⟩ := taken
    split at given <;> cases given
    all_goals exact ⟨rfl, by simp, by simp [MapStep.hasSeen, MapStep.cleaning]⟩
  case insertConnection conn =>
    obtain ⟨-, rfl⟩ := taken
    cases given
    exact ⟨rfl, by simp, by simp [MapStep.hasSeen, MapStep.cleaning]⟩
  case pushUser key =>
    obtain ⟨-, rfl⟩ := taken
    cases given
  case dropGuard =>
    obtain ⟨-, rfl⟩ := taken
    cases given
  all_goals
    obtain ⟨-, rfl⟩ := taken
    cases given
    exact ⟨rfl, by simp, by simp [MapStep.hasSeen, MapStep.cleaning]⟩

theorem performs_operate (kept : (s.standing c).Kept c)
    (running : s.calls.lookup t = some ⟨c, op⟩) (undisturbed : s.Undisturbed (.operate t))
    (taken : s.operate c op = some (after, next)) :
    (s.standing c).Performs ((after.setCall t c next).standing c) c t op next := by
  obtain ⟨calls, sessions, txs⟩ := operate_others taken
  have own : (s.standing c).runs t = some op := runs_eq_some_iff.mpr running
  have runs : ((after.setCall t c next).standing c).runs =
      Function.update (s.standing c).runs t next := by
    rw [standing_setCall_self]
    change Function.update (after.standing c).runs t next = _
    congr 1
    unfold standing
    rw [calls]
  have absent : (s.standing c).conn = none → (∀ conn, op ≠ .insertConnection conn) →
      ((after.setCall t c next).standing c).conn = none := by
    intro absent notInsert
    rw [standing_setCall_self]
    exact operate_absent taken absent notInsert
  have registers := fun n given => (operate_next taken n given).2.1
  refine ⟨own, runs, ?_, ?_, absent, fun n given => (operate_next taken n given).1, registers,
    fun missing seen n given => (operate_next taken n given).2.2 missing seen, ?_⟩
  · rw [standing_setCall_self]
    exact congrFun sessions c
  · rw [standing_setCall_self]
    exact congrFun txs c
  · rintro rfl rfl
    have removed : ((after.setCall (.session c) c next).standing c).conn = none := by
      rw [standing_setCall_self]
      simp only [operate] at taken
      split at taken
      next => cases taken
      next =>
        cases taken
        exact Function.update_self ..
    refine ⟨removed, fun t' conn starts => ?_⟩
    rw [runs] at starts
    by_cases same : t' = .session c
    · subst same
      rw [Function.update_self] at starts
      exact registers _ starts conn rfl
    · rw [Function.update_of_ne same] at starts
      have owns := kept.owns t' _ starts
      cases t' with
      | receive e =>
        obtain ⟨rfl, -⟩ := owns
        have other := undisturbed _ running _ (runs_eq_some_iff.mp starts)
        simp [MapStep.allowsRemoval] at other
      | session e => exact absurd owns.2 Bool.false_ne_true
      | other n => exact absurd owns Bool.false_ne_true

theorem standing_operated (calls : after.calls = s.calls) (sessions : after.sessions = s.sessions)
    (txs : after.connectionTxs = s.connectionTxs) :
    (after.setCall t c next).standing c = { s.standing c with
      conn := after.connections c
      user := fun key => after.userConnections.Lists key c
      symbol := fun symbol => after.symbolSubscribers.Lists symbol c
      runs := Function.update (s.standing c).runs t next } := by
  rw [standing_setCall_self]
  unfold standing
  rw [calls, sessions, txs]

/-- An operation on a connection keeps what belongs to it. -/
theorem kept_operate (kept : (s.standing c).Kept c)
    (running : s.calls.lookup t = some ⟨c, op⟩) (undisturbed : s.Undisturbed (.operate t))
    (taken : s.operate c op = some (after, next)) :
    ((after.setCall t c next).standing c).Kept c := by
  have performs := performs_operate kept running undisturbed taken
  have own : (s.standing c).runs t = some op := runs_eq_some_iff.mpr running
  have owns := kept.owns t op own
  have fits := kept.fits t op own
  have uncleaning : op.cleaning = false → t = .receive c := by
    intro cleaning
    cases t with
    | receive d => exact congrArg TaskId.receive owns.1
    | session d => exact absurd (owns.2.symm.trans cleaning) (by decide)
    | other n => exact absurd (Eq.trans (Eq.symm owns) cleaning) (by decide)
  obtain ⟨calls, sessions, txs⟩ := operate_others taken
  rw [standing_operated calls sessions txs] at performs ⊢
  have undisturbed' := undisturbed _ running
  cases op with
  | insertConnection conn =>
    cases uncleaning rfl
    cases taken
    have same : (s.setConnection c (some conn)).connections c = some conn :=
      Function.update_self ..
    rw [same] at performs ⊢
    refine performs.kept kept (performs.fits_own kept ?_)
      (kept.indexed.insertConnection own fits.1 fits.2)
    intro n given
    cases given
    exact ⟨conn, rfl, rfl⟩
  | pushUser key =>
    cases uncleaning rfl
    cases taken
    have same : (fun k => (s.userConnections.push key c).Lists k c) =
        fun k => k = key ∨ (s.standing c).user k := by
      funext k
      simp [ConnIndex.lists_push, standing]
    rw [same] at performs ⊢
    refine performs.kept kept (performs.fits_same kept rfl ?_) (kept.indexed.pushUser own fits)
    intro n given
    cases given
  | getToSubscribe symbol channels =>
    cases uncleaning rfl
    cases taken
    refine performs.kept kept (performs.fits_same kept rfl ?_)
      (kept.indexed.hand_on own (by simp) (by simp) (by simp [MapStep.OwesUser])
        (by simp [MapStep.OwesSymbol]))
    intro n given
    obtain ⟨conn, live, rfl⟩ := Option.map_eq_some_iff.mp given
    exact ⟨conn, live⟩
  | insertSubscription symbol channels =>
    cases uncleaning rfl
    cases taken
    obtain ⟨conn, live⟩ := fits
    have registered : s.connections c = some conn := live
    have same : (s.setConnection c ((s.connections c).map fun conn =>
        { conn with subscriptions := conn.subscriptions.insert symbol channels })).connections c =
        some { conn with subscriptions := conn.subscriptions.insert symbol channels } := by
      rw [registered]
      exact Function.update_self ..
    rw [same] at performs ⊢
    refine performs.kept kept (performs.fits_own kept ?_)
      (kept.indexed.insertSubscription own live)
    intro n given
    cases given
    exact ⟨_, rfl, (AList.mem_insert _).mpr (.inl rfl)⟩
  | pushSymbol symbol =>
    cases uncleaning rfl
    cases taken
    have same : (fun k => (s.symbolSubscribers.push symbol c).Lists k c) =
        fun k => k = symbol ∨ (s.standing c).symbol k := by
      funext k
      simp [ConnIndex.lists_push, standing]
    rw [same] at performs ⊢
    refine performs.kept kept (performs.fits_same kept rfl ?_) (kept.indexed.pushSymbol own fits)
    intro n given
    cases given
    trivial
  | getToUnsubscribe symbol =>
    cases uncleaning rfl
    cases taken
    refine performs.kept kept (performs.fits_same kept rfl ?_)
      (kept.indexed.hand_on own (by simp) (by simp) (by simp [MapStep.OwesUser])
        (by simp [MapStep.OwesSymbol]))
    intro n given
    obtain ⟨conn, live, rfl⟩ := Option.map_eq_some_iff.mp given
    trivial
  | removeSubscription symbol =>
    cases uncleaning rfl
    cases taken
    have same : (s.setConnection c ((s.connections c).map fun conn =>
        { conn with subscriptions := conn.subscriptions.erase symbol })).connections c =
        (s.standing c).conn.map fun conn =>
          { conn with subscriptions := conn.subscriptions.erase symbol } :=
      Function.update_self ..
    rw [same] at performs ⊢
    refine performs.kept kept (performs.fits_own kept ?_)
      (kept.indexed.removeSubscription own)
    intro n given
    cases given
    intro after live subscribed
    obtain ⟨conn, _, rfl⟩ := Option.map_eq_some_iff.mp live
    exact (AList.mem_erase.mp subscribed).1 rfl
  | retainSubscribers symbol =>
    cases uncleaning rfl
    cases taken
    have same : (fun k => (s.symbolSubscribers.retain symbol c).1.Lists k c) =
        fun k => (s.standing c).symbol k ∧ k ≠ symbol := by
      funext k
      simp [ConnIndex.lists_retain, standing]
    rw [same] at performs ⊢
    refine performs.kept kept (performs.fits_same kept rfl ?_)
      (kept.indexed.retainSubscribers own fits)
    intro n given
    split at given <;> cases given <;> trivial
  | removeSubscribers symbol =>
    cases uncleaning rfl
    cases taken
    have same : (fun k => (s.symbolSubscribers.remove symbol).Lists k c) = (s.standing c).symbol := by
      funext k
      simp [ConnIndex.lists_remove undisturbed', standing]
    rw [same] at performs ⊢
    refine performs.kept kept (performs.fits_same kept rfl ?_)
      (kept.indexed.hand_on own (by simp) (by simp) (by simp [MapStep.OwesUser])
        (by simp [MapStep.OwesSymbol]))
    intro n given
    cases given
    trivial
  | dropGuard =>
    cases uncleaning rfl
    cases taken
    refine performs.kept kept (performs.fits_same kept rfl ?_)
      (kept.indexed.hand_on own (by simp) (by simp) (by simp [MapStep.OwesUser])
        (by simp [MapStep.OwesSymbol]))
    intro n given
    cases given
  | removeConnection =>
    simp only [operate] at taken
    split at taken
    next => cases taken
    next unguarded =>
      cases taken
      have same : (s.setConnection c none).connections c = none := Function.update_self ..
      rw [same] at performs ⊢
      refine performs.kept kept (performs.fits (fun n given => ?_) fun t' other apart runs => ?_)
        (kept.indexed.removeConnection own)
      · obtain ⟨conn, live, rfl⟩ := Option.map_eq_some_iff.mp given
        refine ⟨rfl, fun t' conn' starts => ?_⟩
        rw [performs.runs] at starts
        by_cases same : t' = t
        · subst same
          rw [Function.update_self] at starts
          exact performs.registers _ starts conn' rfl
        · rw [Function.update_of_ne same] at starts
          have absent : s.connections c = none := (kept.fits t' _ starts).1
          rw [live] at absent
          cases absent
      · have ownsOther := kept.owns t' other runs
        have fitsOther := kept.fits t' other runs
        cases t' with
        | receive d =>
          obtain ⟨rfl, uncleaningOther⟩ := ownsOther
          have known := runs_eq_some_iff.mp runs
          have fine := undisturbed' _ known
          have free : other.guarded = false := by
            simpa [guarded, known] using unguarded
          cases other <;> first
            | exact absurd free (by decide)
            | exact absurd uncleaningOther (by decide)
            | exact absurd fine Bool.false_ne_true
            | exact ⟨rfl, fitsOther.2⟩
            | trivial
        | session d => exact ConnStanding.fits_of_cleaning performs.gone ownsOther.2 fitsOther
        | other n => exact ConnStanding.fits_of_cleaning performs.gone ownsOther fitsOther
  | retainUser key symbols =>
    cases taken
    have same : (fun k => (s.userConnections.retain key c).1.Lists k c) =
        fun k => (s.standing c).user k ∧ k ≠ key := by
      funext k
      simp [ConnIndex.lists_retain, standing]
    rw [same] at performs ⊢
    refine performs.kept kept (performs.fits_same kept rfl ?_)
      (kept.indexed.retainUser own fits.1 ?_)
    · intro n given
      split at given
      next =>
        cases given
        exact performs.gone fits
      next => exact retainNext_fits (performs.gone fits) given
    · intro symbol member
      split
      next => exact ⟨_, rfl, member⟩
      next => exact retainNext_owes member
  | removeUser key symbols =>
    cases taken
    have same : (fun k => (s.userConnections.remove key).Lists k c) = (s.standing c).user := by
      funext k
      simp [ConnIndex.lists_remove undisturbed', standing]
    rw [same] at performs ⊢
    refine performs.kept kept (performs.fits_same kept rfl ?_)
      (kept.indexed.hand_on own (by simp) (by simp) (by simp [MapStep.OwesUser])
        fun symbol member => retainNext_owes member)
    exact fun n given => retainNext_fits (performs.gone fits) given
  | retainSymbol symbol rest =>
    cases taken
    have same : (fun k => (s.symbolSubscribers.retain symbol c).1.Lists k c) =
        fun k => (s.standing c).symbol k ∧ k ≠ symbol := by
      funext k
      simp [ConnIndex.lists_retain, standing]
    rw [same] at performs ⊢
    refine performs.kept kept (performs.fits_same kept rfl ?_)
      (kept.indexed.retainSymbol own fits.1 ?_)
    · intro n given
      split at given
      next =>
        cases given
        exact performs.gone fits
      next => exact retainNext_fits (performs.gone fits) given
    · intro name member
      split
      next => exact ⟨_, rfl, member⟩
      next => exact retainNext_owes member
  | removeSymbol symbol rest =>
    cases taken
    have same : (fun k => (s.symbolSubscribers.remove symbol).Lists k c) = (s.standing c).symbol := by
      funext k
      simp [ConnIndex.lists_remove undisturbed', standing]
    rw [same] at performs ⊢
    refine performs.kept kept (performs.fits_same kept rfl ?_)
      (kept.indexed.hand_on own (by simp) (by simp) (by simp [MapStep.OwesUser])
        fun symbol member => retainNext_owes member)
    exact fun n given => retainNext_fits (performs.gone fits) given

theorem standing_operate_ne (apart : d ≠ c) (running : s.calls.lookup t = some ⟨c, op⟩)
    (undisturbed : s.Undisturbed (.operate t)) (taken : s.operate c op = some (after, next)) :
    (after.setCall t c next).standing d = s.standing d := by
  obtain ⟨calls, sessions, txs⟩ := operate_others taken
  have kept : (after.setCall t c next).standing d = after.standing d := by
    apply standing_setCall_ne apart
    intro call known
    rw [calls, running] at known
    cases known
    exact apart.symm
  have undisturbed' := undisturbed _ running
  have conn : after.connections d = s.connections d := by
    cases op <;> simp only [operate, Option.some.injEq, Prod.mk.injEq] at taken
    case removeConnection =>
      split at taken
      next => cases taken
      next =>
        cases taken
        exact Function.update_of_ne apart ..
    all_goals
      obtain ⟨rfl, -⟩ := taken
      simp [setConnection, apart]
  have lists : (∀ key, after.userConnections.Lists key d ↔ s.userConnections.Lists key d) ∧
      ∀ symbol, after.symbolSubscribers.Lists symbol d ↔ s.symbolSubscribers.Lists symbol d := by
    cases op <;> simp only [operate, Option.some.injEq, Prod.mk.injEq] at taken
    case removeConnection =>
      split at taken
      next => cases taken
      next =>
        cases taken
        exact ⟨fun _ => .rfl, fun _ => .rfl⟩
    case removeUser key symbols =>
      obtain ⟨rfl, -⟩ := taken
      exact ⟨fun _ => ConnIndex.lists_remove undisturbed', fun _ => .rfl⟩
    case removeSymbol symbol rest =>
      obtain ⟨rfl, -⟩ := taken
      exact ⟨fun _ => .rfl, fun _ => ConnIndex.lists_remove undisturbed'⟩
    case removeSubscribers symbol =>
      obtain ⟨rfl, -⟩ := taken
      exact ⟨fun _ => .rfl, fun _ => ConnIndex.lists_remove undisturbed'⟩
    all_goals
      obtain ⟨rfl, -⟩ := taken
      simp [setConnection, ConnIndex.lists_push, ConnIndex.lists_retain, apart]
  rw [kept]
  unfold standing
  simp only [conn, lists, calls, sessions, txs]

theorem standing_setSession_self (s : RegistryCalls) (c : ConnId) (session : SessionTask) :
    (s.setSession c session).standing c = { s.standing c with session := some session } := by
  simp [standing, setSession]

theorem standing_setSession_ne (apart : d ≠ c) :
    (s.setSession c session).standing d = s.standing d := by
  simp [standing, setSession, apart]

/-- A step on one connection: what it leaves there, and that it leaves the others. -/
theorem kept_of_self (kept : ∀ d, (s.standing d).Kept d) (self : (after.standing c).Kept c)
    (others : ∀ d, d ≠ c → after.standing d = s.standing d) : ∀ d, (after.standing d).Kept d := by
  intro d
  by_cases same : d = c
  · subst same
    exact self
  · rw [others d same]
    exact kept d

/-- A task in the table works for the connection that its call is on. -/
theorem owns_of_lookup (kept : ∀ d, (s.standing d).Kept d) {call : RegistryCall}
    (known : s.calls.lookup t = some call) : t.Owns call.conn call.next :=
  (kept call.conn).owns t call.next (runs_eq_some_iff.mpr known)

theorem runs_eq_none (idle : s.calls.lookup t = none) : (s.standing c).runs t = none := by
  simp [standing, idle]

theorem awaits_iff : s.awaits c session = true ↔
    session.pending = [] ∧ s.calls.lookup (.receive c) = none ∧ session.stopped = false := by
  simp [awaits, and_assoc]

theorem kept_resume {tx : Bool} (kept : ∀ d, (s.standing d).Kept d)
    (phase : ConnStanding.InPhase { s.standing c with session := some session, tx := tx } c
      session) : ∀ d, (RegistryCalls.standing { s.setSession c session with
        connectionTxs := Function.update s.connectionTxs c tx } d).Kept d := by
  refine kept_of_self (c := c) kept ?_ fun d apart => ?_
  · have same : RegistryCalls.standing { s.setSession c session with
        connectionTxs := Function.update s.connectionTxs c tx } c =
        { s.standing c with session := some session, tx := tx } := by
      simp [standing, setSession]
    rw [same]
    exact (kept c).resume phase
  · simp [standing, setSession, apart]

theorem kept_setSession (kept : ∀ d, (s.standing d).Kept d)
    (phase : ConnStanding.InPhase { s.standing c with session := some session } c session) :
    ∀ d, ((s.setSession c session).standing d).Kept d := by
  have same : { s.setSession c session with
      connectionTxs := Function.update s.connectionTxs c (s.connectionTxs c) } =
      s.setSession c session := by
    rw [Function.update_eq_self]
    rfl
  rw [← same]
  exact kept_resume kept phase

theorem kept_start (kept : ∀ d, (s.standing d).Kept d) (idle : s.calls.lookup t = none)
    (owns : t.Owns c op) (fits : (s.standing c).Fits op) (unseen : op.hasSeen = false)
    (quiet : t = .receive c → ∀ session ∈ s.sessions c, session.stopped = false)
    (ended : t = .session c → ∃ session ∈ s.sessions c, session.phase = .ended)
    (removing : t = .session c → op = .removeConnection) :
    ∀ d, ((s.setCall t c (some op)).standing d).Kept d := by
  refine kept_of_self (c := c) kept ?_ fun d apart => ?_
  · rw [standing_setCall_self]
    exact (kept c).start (runs_eq_none idle) owns fits unseen quiet ended removing
  · apply standing_setCall_ne apart
    intro call known
    rw [idle] at known
    cases known

theorem kept_receive {m : ClientMessage} (kept : ∀ d, (s.standing d).Kept d)
    (known : s.sessions c = some session) (awaits : s.awaits c session = true)
    (live : session.aborted = false) : ∀ d, ((s.receive c session m).standing d).Kept d := by
  obtain ⟨nothing, idle, listening⟩ := awaits_iff.mp awaits
  have phase := (kept c).inPhase session known
  have pending : ∀ calls, ∀ d, ((s.setSession c { session with pending := calls }).standing d).Kept d := by
    intro calls
    apply kept_setSession kept
    refine ⟨phase.stops, fun stopped => ?_, phase.ended, phase.dropped, phase.cleans, phase.known⟩
    exact absurd (listening.symm.trans stopped) Bool.false_ne_true
  cases m with
  | auth token =>
    simp only [receive]
    split
    next => exact kept
    next new =>
      split
      next => exact kept
      next claims =>
        have running : session.phase = .running := by
          by_contra left
          rcases phase.stops left with aborted | stopped
          · exact absurd (live.symm.trans aborted) Bool.false_ne_true
          · exact absurd (listening.symm.trans stopped) Bool.false_ne_true
        refine kept_of_self (c := c) kept ?_ fun d apart => ?_
        · rw [standing_setCall_self, standing_setSession_self]
          exact (kept c).register (runs_eq_none idle) known (by simpa using new) running listening
            rfl
        · rw [standing_setCall_ne apart, standing_setSession_ne apart]
          intro call busy
          exact absurd (idle.symm.trans busy) (by simp)
  | subscribe symbols channels =>
    simp only [receive]
    split
    next => exact pending _
    next => exact kept
  | unsubscribe symbols => exact pending _
  | ping => exact kept
  | pong => exact kept
  | other => exact kept

theorem kept_step {action : CallAction} (kept : ∀ d, (s.standing d).Kept d)
    (undisturbed : s.Undisturbed action) (taken : s.step action = some after) :
    ∀ d, (after.standing d).Kept d := by
  cases action with
  | connect c =>
    simp only [step] at taken
    split at taken
    next missing =>
      cases taken
      obtain ⟨-, silent, unknown⟩ := (kept c).unknown missing
      apply kept_resume kept
      refine ⟨fun changed => absurd rfl changed, fun stopped => ?_, fun finished => ?_,
        fun _ => .inl rfl, fun cleaning => absurd silent cleaning, fun _ => unknown⟩
      · cases stopped
      · cases finished
    next => cases taken
  | receive c m =>
    simp only [step] at taken
    split at taken
    next session known =>
      split_ifs at taken with ready
      cases taken
      exact kept_receive kept known ready.1 ready.2
    next => cases taken
  | beginNext c =>
    simp only [step] at taken
    split at taken
    next session known =>
      split at taken
      next call rest pending =>
        split_ifs at taken with idle
        cases taken
        have phase := (kept c).inPhase session known
        have listening : session.stopped = false := by
          by_contra stopped
          obtain ⟨nothing, -⟩ := phase.quiet (by simpa using stopped)
          rw [pending] at nothing
          cases nothing
        have resumed : ∀ d,
            ((s.setSession c { session with pending := rest }).standing d).Kept d := by
          apply kept_setSession kept
          refine ⟨phase.stops, fun stopped => ?_, phase.ended, phase.dropped, phase.cleans,
            phase.known⟩
          exact absurd (listening.symm.trans stopped) Bool.false_ne_true
        refine kept_start resumed idle ?_ ?_ ?_ (fun _ other same => ?_) (by simp) (by simp)
        · cases call <;> exact ⟨rfl, rfl⟩
        · cases call <;> trivial
        · cases call <;> rfl
        · cases (Function.update_self ..).symm.trans same
          exact listening
      next => cases taken
    next => cases taken
  | sendEnds c =>
    simp only [step] at taken
    split at taken
    next session known =>
      split_ifs at taken with running
      cases taken
      have phase := (kept c).inPhase session known
      apply kept_setSession kept
      refine ⟨fun _ => .inl rfl, phase.quiet, fun finished => ?_, fun _ => .inr rfl,
        fun cleaning => ?_, phase.known⟩
      · cases finished
      · exact absurd (running.symm.trans (phase.cleans cleaning)) (by decide)
    next => cases taken
  | receiveEnds c =>
    simp only [step] at taken
    split at taken
    next session known =>
      split_ifs at taken with ready
      cases taken
      obtain ⟨running, awaits⟩ := ready
      obtain ⟨nothing, idle, -⟩ := awaits_iff.mp awaits
      have phase := (kept c).inPhase session known
      apply kept_setSession kept
      refine ⟨fun _ => .inr rfl, fun _ => ⟨nothing, runs_eq_none idle⟩, fun finished => ?_,
        fun _ => .inr rfl, fun cleaning => ?_, phase.known⟩
      · cases finished
      · exact absurd (running.symm.trans (phase.cleans cleaning)) (by decide)
    next => cases taken
  | receiveStops c =>
    simp only [step] at taken
    split at taken
    next session known =>
      split_ifs at taken with ready
      cases taken
      obtain ⟨nothing, idle, -⟩ := awaits_iff.mp ready.2
      have phase := (kept c).inPhase session known
      apply kept_setSession kept
      exact ⟨fun _ => .inr rfl, fun _ => ⟨nothing, runs_eq_none idle⟩, phase.ended, phase.dropped,
        phase.cleans, phase.known⟩
    next => cases taken
  | dropSender c =>
    simp only [step] at taken
    split at taken
    next session known =>
      split_ifs at taken with ending
      cases taken
      have phase := (kept c).inPhase session known
      apply kept_resume kept
      refine ⟨fun _ => phase.stops (by simp [ending]), phase.quiet, fun finished => ?_,
        fun open' => ?_, fun cleaning => ?_, phase.known⟩
      · cases finished
      · cases open'
      · exact absurd (ending.symm.trans (phase.cleans cleaning)) (by decide)
    next => cases taken
  | cleanUp c =>
    simp only [step] at taken
    split at taken
    next session known =>
      split_ifs at taken with unregistering
      cases taken
      have idle : s.calls.lookup (.session c) = none := by
        by_contra busy
        obtain ⟨call, cleaning⟩ := Option.ne_none_iff_exists'.mp busy
        obtain ⟨own, -⟩ := owns_of_lookup kept cleaning
        have finished := ((kept c).inPhase session known).cleans (by simp [standing, own.symm, cleaning])
        exact absurd (unregistering.symm.trans finished) (by decide)
      refine kept_of_self (c := c) kept ?_ fun d apart => ?_
      · rw [standing_setCall_self, standing_setSession_self]
        exact (kept c).cleanUp known unregistering (runs_eq_none idle)
      · rw [standing_setCall_ne apart, standing_setSession_ne apart]
        intro call busy
        exact absurd (idle.symm.trans busy) (by simp)
    next => cases taken
  | removeStale n c =>
    simp only [step] at taken
    split_ifs at taken with idle
    cases taken
    exact kept_start kept idle rfl trivial rfl (by simp) (by simp) (by simp)
  | dispatchClosed n c =>
    simp only [step] at taken
    split at taken
    next session known =>
      split_ifs at taken with ready
      cases taken
      obtain ⟨left, held, idle⟩ := ready
      have phase := (kept c).inPhase session known
      have dropped : ∀ d, (RegistryCalls.standing { s with
          connectionTxs := Function.update s.connectionTxs c false } d).Kept d := by
        have same : s.setSession c session = s := by
          unfold setSession
          rw [← known, Function.update_eq_self]
        have resumed : ∀ d, (RegistryCalls.standing { s.setSession c session with
            connectionTxs := Function.update s.connectionTxs c false } d).Kept d :=
          kept_resume kept ⟨phase.stops, phase.quiet, phase.ended, fun held => (by cases held),
            phase.cleans, phase.known⟩
        rwa [same] at resumed
      exact kept_start dropped idle rfl trivial rfl (by simp) (by simp) (by simp)
    next => cases taken
  | operate t =>
    simp only [step] at taken
    split at taken
    next call running =>
      obtain ⟨⟨middle, next⟩, performed, rfl⟩ := Option.map_eq_some_iff.mp taken
      obtain ⟨c, op⟩ := call
      exact kept_of_self (c := c) kept (kept_operate (kept c) running undisturbed performed)
        fun d apart => standing_operate_ne apart running undisturbed performed
    next => cases taken

theorem kept_started (c : ConnId) : (started.standing c).Kept c := by
  have runs : ∀ t op, (started.standing c).runs t ≠ some op := by
    intro t op busy
    rw [runs_eq_some_iff] at busy
    cases busy
  refine ⟨fun t op busy => absurd busy (runs t op), fun t op busy => absurd busy (runs t op),
    ⟨fun conn live => ?_, fun conn live => ?_, fun key listed => ?_, fun symbol listed => ?_⟩,
    fun session known => ?_, fun _ => ⟨rfl, rfl, rfl, fun t op busy => absurd busy (runs t op)⟩⟩
  · cases live
  · cases live
  · cases listed
  · cases listed
  · cases known

end RegistryCalls

end TradingPlatform
