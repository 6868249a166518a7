import TradingPlatform.Gateway.RegistryCalls

namespace TradingPlatform

namespace ConnIndex
variable {t : ConnIndex} {key key' : String} {c d : ConnId}

theorem lists_push : (t.push key c).Lists key' d ↔ (key' = key ∧ d = c) ∨ t.Lists key' d := by
  unfold Lists push
  by_cases same : key' = key
  · subst same
    simp [or_comm]
  · simp [same]

theorem lists_retain : (t.retain key c).1.Lists key' d ↔ t.Lists key' d ∧ ¬(key' = key ∧ d = c) := by
  unfold Lists retain
  cases found : t key with
  | none =>
    by_cases same : key' = key
    · subst same
      simp [found]
    · simp [same]
  | some ids =>
    by_cases same : key' = key
    · subst same
      simp [found]
    · simp [same]

theorem lists_remove (empty : (t key).getD [] = []) :
    (t.remove key).Lists key' d ↔ t.Lists key' d := by
  unfold Lists remove
  by_cases same : key' = key
  · subst same
    simp [empty]
  · simp [same]

end ConnIndex

/-- The operations of `unregister`. -/
def MapStep.cleaning : MapStep → Bool
  | .removeConnection => true
  | .retainUser _ _ => true
  | .removeUser _ _ => true
  | .retainSymbol _ _ => true
  | .removeSymbol _ _ => true
  | _ => false

/-- The operations that a call can only come to once `connections` had the connection. -/
def MapStep.hasSeen : MapStep → Bool
  | .insertConnection _ => true
  | .removeConnection => false
  | op => op.cleaning

/-- The call has still to take the connection out of the user's list. -/
def MapStep.OwesUser (key : String) : MapStep → Prop
  | .retainUser key' _ => key = key'
  | _ => False

/-- The call has still to take the connection out of the symbol's list. -/
def MapStep.OwesSymbol (symbol : String) : MapStep → Prop
  | .retainSubscribers symbol' => symbol = symbol'
  | .retainUser _ symbols => symbol ∈ symbols
  | .removeUser _ symbols => symbol ∈ symbols
  | .retainSymbol symbol' rest => symbol = symbol' ∨ symbol ∈ rest
  | .removeSymbol _ rest => symbol ∈ rest
  | _ => False

def TaskId.Owns (c : ConnId) (op : MapStep) : TaskId → Prop
  | .receive d => d = c ∧ op.cleaning = false
  | .session d => d = c ∧ op.cleaning = true
  | .other _ => op.cleaning = true

/-- What the registry and the tasks hold of one connection: the calls are those on it. -/
structure ConnStanding where
  conn : Option LiveConnection
  user : String → Prop
  symbol : String → Prop
  tx : Bool
  runs : TaskId → Option MapStep
  session : Option SessionTask

def RegistryCalls.standing (s : RegistryCalls) (c : ConnId) : ConnStanding where
  conn := s.connections c
  user := fun key => s.userConnections.Lists key c
  symbol := fun symbol => s.symbolSubscribers.Lists symbol c
  tx := s.connectionTxs c
  runs := fun t => (s.calls.lookup t).bind fun call => if call.conn = c then some call.next else none
  session := s.sessions c

namespace ConnStanding

/-- The connection is not registered and not about to be. -/
def Gone (v : ConnStanding) : Prop :=
  v.conn = none ∧ ∀ t conn, v.runs t ≠ some (.insertConnection conn)

/-- An operation fits what is known of its connection. -/
def Fits (v : ConnStanding) : MapStep → Prop
  | .insertConnection conn => v.conn = none ∧ conn.subscriptions.keys = []
  | .pushUser key => ∃ conn ∈ v.conn, normalizeId conn.userId = key
  | .getToSubscribe _ _ => True
  | .insertSubscription _ _ => ∃ conn, v.conn = some conn
  | .pushSymbol symbol => ∃ conn ∈ v.conn, symbol ∈ conn.subscriptions.keys
  | .getToUnsubscribe _ => True
  | .removeSubscription _ => True
  | .retainSubscribers symbol => ∀ conn ∈ v.conn, symbol ∉ conn.subscriptions.keys
  | .removeSubscribers _ => True
  | .dropGuard => True
  | .removeConnection => True
  | .retainUser _ _ => v.Gone
  | .removeUser _ _ => v.Gone
  | .retainSymbol _ _ => v.Gone
  | .removeSymbol _ _ => v.Gone

/-- The session of a connection agrees with its tasks. -/
structure InPhase (v : ConnStanding) (c : ConnId) (session : SessionTask) : Prop where
  stops : session.phase ≠ .running → session.aborted = true ∨ session.stopped = true
  quiet : session.stopped = true → session.pending = [] ∧ v.runs (.receive c) = none
  ended : session.phase = .ended → v.runs (.session c) = some .removeConnection ∨ v.Gone
  dropped : v.tx = true → session.phase = .running ∨ session.phase = .ending
  cleans : v.runs (.session c) ≠ none → session.phase = .ended
  known : session.isAuthenticated = false →
    v.conn = none ∧ ∀ t op, v.runs t = some op → op.hasSeen = false

/-- Each entry of the indexes is due or about to go, and each missing one about
to come. -/
structure Indexed (v : ConnStanding) (c : ConnId) : Prop where
  userListed : ∀ conn ∈ v.conn, v.user (normalizeId conn.userId) ∨
    v.runs (.receive c) = some (.pushUser (normalizeId conn.userId))
  symbolListed : ∀ conn ∈ v.conn, ∀ symbol ∈ conn.subscriptions.keys, v.symbol symbol ∨
    v.runs (.receive c) = some (.pushSymbol symbol)
  userOwed : ∀ key, v.user key → (∃ conn ∈ v.conn, normalizeId conn.userId = key) ∨
    ∃ t, ∃ op ∈ v.runs t, op.OwesUser key
  symbolOwed : ∀ symbol, v.symbol symbol →
    (∃ conn ∈ v.conn, symbol ∈ conn.subscriptions.keys) ∨
      ∃ t, ∃ op ∈ v.runs t, op.OwesSymbol symbol

/-- A connection's calls, indexes and session agree with one another. -/
structure Kept (v : ConnStanding) (c : ConnId) : Prop where
  owns : ∀ t op, v.runs t = some op → t.Owns c op
  fits : ∀ t op, v.runs t = some op → v.Fits op
  indexed : v.Indexed c
  inPhase : ∀ session ∈ v.session, v.InPhase c session
  unknown : v.session = none → v.tx = false ∧ v.runs (.session c) = none ∧ v.conn = none ∧
    ∀ t op, v.runs t = some op → op.hasSeen = false

variable {v v' : ConnStanding} {c : ConnId} {t : TaskId} {op : MapStep} {next : Option MapStep}
  {key symbol : String} {symbols rest channels : List String} {conn : LiveConnection}

theorem owed_update {runs : TaskId → Option MapStep} {Owes : MapStep → Prop}
    (owed : ∃ t', ∃ other ∈ runs t', Owes other) (running : runs t = some op)
    (still : Owes op → ∃ n ∈ next, Owes n) :
    ∃ t', ∃ other ∈ Function.update runs t next t', Owes other := by
  obtain ⟨t', other, runs', owes⟩ := owed
  by_cases same : t' = t
  · subst same
    cases running.symm.trans runs'
    obtain ⟨n, given, stillOwes⟩ := still owes
    exact ⟨t', n, by rw [Function.update_self]; exact given, stillOwes⟩
  · exact ⟨t', other, by rw [Function.update_of_ne same]; exact runs', owes⟩

/-- A task performs an operation of its call: the facts of the connection that
do not name the indexes follow from what the operation does to `connections`. -/
structure Performs (v v' : ConnStanding) (c : ConnId) (t : TaskId) (op : MapStep)
    (next : Option MapStep) : Prop where
  running : v.runs t = some op
  runs : v'.runs = Function.update v.runs t next
  session : v'.session = v.session
  tx : v'.tx = v.tx
  absent : v.conn = none → (∀ conn, op ≠ .insertConnection conn) → v'.conn = none
  cleaning : ∀ n ∈ next, n.cleaning = op.cleaning
  registers : ∀ n ∈ next, ∀ conn, n ≠ .insertConnection conn
  hasSeen : v.conn = none → op.hasSeen = false → ∀ n ∈ next, n.hasSeen = false
  removes : op = .removeConnection → t = .session c → v'.Gone

theorem Performs.gone (performs : v.Performs v' c t op next) (gone : v.Gone) : v'.Gone := by
  obtain ⟨absent, unregistering⟩ := gone
  refine ⟨performs.absent absent fun conn same => ?_, fun t' conn runs => ?_⟩
  · subst same
    exact unregistering t conn performs.running
  · rw [performs.runs] at runs
    by_cases same : t' = t
    · subst same
      rw [Function.update_self] at runs
      exact performs.registers _ runs conn rfl
    · rw [Function.update_of_ne same] at runs
      exact unregistering t' conn runs

theorem Performs.owns (performs : v.Performs v' c t op next) (kept : v.Kept c) :
    ∀ t' other, v'.runs t' = some other → t'.Owns c other := by
  intro t' other runs
  rw [performs.runs] at runs
  by_cases same : t' = t
  · subst same
    rw [Function.update_self] at runs
    have own := kept.owns t' op performs.running
    have kind := performs.cleaning other runs
    cases t' <;> simpa [TaskId.Owns, kind] using own
  · rw [Function.update_of_ne same] at runs
    exact kept.owns t' other runs

theorem Performs.sees (performs : v.Performs v' c t op next)
    (unknown : v.conn = none ∧ ∀ t op, v.runs t = some op → op.hasSeen = false) :
    v'.conn = none ∧ ∀ t op, v'.runs t = some op → op.hasSeen = false := by
  obtain ⟨absent, unseen⟩ := unknown
  have opUnseen := unseen t op performs.running
  refine ⟨performs.absent absent fun conn same => ?_, fun t' other runs => ?_⟩
  · subst same
    cases opUnseen
  · rw [performs.runs] at runs
    by_cases same : t' = t
    · subst same
      rw [Function.update_self] at runs
      exact performs.hasSeen absent opUnseen other runs
    · rw [Function.update_of_ne same] at runs
      exact unseen t' other runs

theorem Performs.inPhase {session : SessionTask} (performs : v.Performs v' c t op next)
    (phase : v.InPhase c session) : v'.InPhase c session where
  stops := phase.stops
  quiet := by
    intro stopped
    obtain ⟨nothing, silent⟩ := phase.quiet stopped
    have other : .receive c ≠ t := by
      intro same
      rw [same, performs.running] at silent
      cases silent
    refine ⟨nothing, ?_⟩
    rw [performs.runs, Function.update_of_ne other]
    exact silent
  ended := by
    intro ended
    rcases phase.ended ended with removing | gone
    · by_cases same : .session c = t
      · rw [same, performs.running] at removing
        exact .inr (performs.removes (Option.some.inj removing) same.symm)
      · rw [performs.runs, Function.update_of_ne same]
        exact .inl removing
    · exact .inr (performs.gone gone)
  dropped := by
    rw [performs.tx]
    exact phase.dropped
  cleans := by
    intro cleaning
    apply phase.cleans
    by_cases same : .session c = t
    · rw [same, performs.running]
      simp
    · rwa [performs.runs, Function.update_of_ne same] at cleaning
  known := fun unauthenticated => performs.sees (phase.known unauthenticated)

theorem fits_of_conn_eq (conn : v'.conn = v.conn) (gone : v.Gone → v'.Gone) (fits : v.Fits op) :
    v'.Fits op := by
  cases op <;> simp only [Fits, conn] at fits ⊢ <;> first | exact fits | exact gone fits

theorem fits_of_cleaning (gone : v.Gone → v'.Gone) (cleaning : op.cleaning = true)
    (fits : v.Fits op) : v'.Fits op := by
  cases op <;> first | exact absurd cleaning Bool.false_ne_true | exact fits | exact gone fits

theorem Performs.fits (performs : v.Performs v' c t op next) (own : ∀ n ∈ next, v'.Fits n)
    (others : ∀ t' other, t' ≠ t → v.runs t' = some other → v'.Fits other) :
    ∀ t' other, v'.runs t' = some other → v'.Fits other := by
  intro t' other runs
  rw [performs.runs] at runs
  by_cases same : t' = t
  · subst same
    rw [Function.update_self] at runs
    exact own other runs
  · rw [Function.update_of_ne same] at runs
    exact others t' other same runs

/-- What an operation that leaves `connections` alone leaves fitting. -/
theorem Performs.fits_same (performs : v.Performs v' c t op next) (kept : v.Kept c)
    (conn : v'.conn = v.conn) (own : ∀ n ∈ next, v'.Fits n) :
    ∀ t' other, v'.runs t' = some other → v'.Fits other :=
  performs.fits own fun t' other _ runs =>
    fits_of_conn_eq conn performs.gone (kept.fits t' other runs)

/-- The receive task may change its connection: the other calls only clean up. -/
theorem Performs.fits_own (performs : v.Performs v' c (.receive c) op next) (kept : v.Kept c)
    (own : ∀ n ∈ next, v'.Fits n) : ∀ t' other, v'.runs t' = some other → v'.Fits other := by
  refine performs.fits own fun t' other apart runs => ?_
  have owns := kept.owns t' other runs
  have cleaning : other.cleaning = true := by
    cases t' with
    | receive d => exact absurd (congrArg TaskId.receive owns.1) apart
    | session d => exact owns.2
    | other n => exact owns
  exact fits_of_cleaning performs.gone cleaning (kept.fits t' other runs)

theorem Performs.unknown (performs : v.Performs v' c t op next) (kept : v.Kept c)
    (missing : v'.session = none) : v'.tx = false ∧ v'.runs (.session c) = none ∧ v'.conn = none ∧
      ∀ t op, v'.runs t = some op → op.hasSeen = false := by
  rw [performs.session] at missing
  obtain ⟨closed, silent, unknown⟩ := kept.unknown missing
  have other : .session c ≠ t := by
    intro same
    rw [same, performs.running] at silent
    cases silent
  refine ⟨performs.tx.trans closed, ?_, performs.sees unknown⟩
  rw [performs.runs, Function.update_of_ne other]
  exact silent

theorem Performs.kept (performs : v.Performs v' c t op next) (kept : v.Kept c)
    (fits : ∀ t' other, v'.runs t' = some other → v'.Fits other) (indexed : v'.Indexed c) :
    v'.Kept c where
  owns := performs.owns kept
  fits := fits
  indexed := indexed
  inPhase := by
    intro session known
    rw [performs.session] at known
    exact performs.inPhase (kept.inPhase session known)
  unknown := performs.unknown kept

/-- An operation that changes neither `connections` nor a list hands on what its call owes. -/
theorem Indexed.hand_on (indexed : v.Indexed c) (running : v.runs t = some op)
    (user : ∀ key, op ≠ .pushUser key) (symbol : ∀ symbol, op ≠ .pushSymbol symbol)
    (owesUser : ∀ key, op.OwesUser key → ∃ n ∈ next, n.OwesUser key)
    (owesSymbol : ∀ symbol, op.OwesSymbol symbol → ∃ n ∈ next, n.OwesSymbol symbol) :
    Indexed { v with runs := Function.update v.runs t next } c where
  userListed := by
    intro conn registered
    refine (indexed.userListed conn registered).imp_right fun pushing => ?_
    have other : .receive c ≠ t := by
      intro same
      rw [same, running] at pushing
      exact user _ (Option.some.inj pushing)
    exact (Function.update_of_ne other ..).trans pushing
  symbolListed := by
    intro conn registered name subscribed
    refine (indexed.symbolListed conn registered name subscribed).imp_right fun pushing => ?_
    have other : .receive c ≠ t := by
      intro same
      rw [same, running] at pushing
      exact symbol _ (Option.some.inj pushing)
    exact (Function.update_of_ne other ..).trans pushing
  userOwed := fun key listed =>
    (indexed.userOwed key listed).imp_right fun owed => owed_update owed running (owesUser key)
  symbolOwed := fun symbol listed =>
    (indexed.symbolOwed symbol listed).imp_right fun owed =>
      owed_update owed running (owesSymbol symbol)

theorem Indexed.insertConnection (indexed : v.Indexed c)
    (running : v.runs (.receive c) = some (.insertConnection conn))
    (absent : v.conn = none) (fresh : conn.subscriptions.keys = []) :
    Indexed { v with
      conn := some conn
      runs := Function.update v.runs (.receive c)
        (some (.pushUser (normalizeId conn.userId))) } c where
  userListed := by
    intro live same
    cases same
    exact .inr (Function.update_self ..)
  symbolListed := by
    intro live same symbol subscribed
    cases same
    rw [fresh] at subscribed
    cases subscribed
  userOwed := by
    intro key listed
    rcases indexed.userOwed key listed with ⟨live, registered, _⟩ | owed
    · rw [absent] at registered
      cases registered
    · exact .inr (owed_update owed running fun owes => owes.elim)
  symbolOwed := by
    intro symbol listed
    rcases indexed.symbolOwed symbol listed with ⟨live, registered, _⟩ | owed
    · rw [absent] at registered
      cases registered
    · exact .inr (owed_update owed running fun owes => owes.elim)

theorem Indexed.pushUser (indexed : v.Indexed c)
    (running : v.runs (.receive c) = some (.pushUser key))
    (fits : ∃ conn ∈ v.conn, normalizeId conn.userId = key) :
    Indexed { v with
      user := fun k => k = key ∨ v.user k
      runs := Function.update v.runs (.receive c) none } c where
  userListed := by
    intro live registered
    obtain ⟨conn, same, rfl⟩ := fits
    cases registered.symm.trans same
    exact .inl (.inl rfl)
  symbolListed := by
    intro live registered symbol subscribed
    rcases indexed.symbolListed live registered symbol subscribed with listed | pushing
    · exact .inl listed
    · rw [running] at pushing
      cases pushing
  userOwed := by
    intro k listed
    rcases listed with rfl | listed
    · exact .inl fits
    · exact (indexed.userOwed k listed).imp_right fun owed =>
        owed_update owed running fun owes => owes.elim
  symbolOwed := by
    intro symbol listed
    exact (indexed.symbolOwed symbol listed).imp_right fun owed =>
        owed_update owed running fun owes => owes.elim

theorem Indexed.insertSubscription (indexed : v.Indexed c)
    (running : v.runs (.receive c) = some (.insertSubscription symbol channels))
    (live : v.conn = some conn) :
    Indexed { v with
      conn := some { conn with subscriptions := conn.subscriptions.insert symbol channels }
      runs := Function.update v.runs (.receive c) (some (.pushSymbol symbol)) } c where
  userListed := by
    intro after same
    cases same
    rcases indexed.userListed conn live with listed | pushing
    · exact .inl listed
    · rw [running] at pushing
      cases pushing
  symbolListed := by
    intro after same name subscribed
    cases same
    rcases (AList.mem_insert _).mp subscribed with rfl | old
    · exact .inr (Function.update_self ..)
    · rcases indexed.symbolListed conn live name old with listed | pushing
      · exact .inl listed
      · rw [running] at pushing
        cases pushing
  userOwed := by
    intro key listed
    rcases indexed.userOwed key listed with ⟨before, registered, same⟩ | owed
    · cases live.symm.trans registered
      exact .inl ⟨_, rfl, same⟩
    · exact .inr (owed_update owed running fun owes => owes.elim)
  symbolOwed := by
    intro name listed
    rcases indexed.symbolOwed name listed with ⟨before, registered, subscribed⟩ | owed
    · cases live.symm.trans registered
      refine .inl ⟨_, rfl, ?_⟩
      exact (AList.mem_insert _).mpr (.inr subscribed)
    · exact .inr (owed_update owed running fun owes => owes.elim)

theorem Indexed.pushSymbol (indexed : v.Indexed c)
    (running : v.runs (.receive c) = some (.pushSymbol symbol))
    (fits : ∃ conn ∈ v.conn, symbol ∈ conn.subscriptions.keys) :
    Indexed { v with
      symbol := fun name => name = symbol ∨ v.symbol name
      runs := Function.update v.runs (.receive c) (some .dropGuard) } c where
  userListed := by
    intro live registered
    rcases indexed.userListed live registered with listed | pushing
    · exact .inl listed
    · rw [running] at pushing
      cases pushing
  symbolListed := by
    intro live registered name subscribed
    rcases indexed.symbolListed live registered name subscribed with listed | pushing
    · exact .inl (.inr listed)
    · rw [running] at pushing
      cases pushing
      exact .inl (.inl rfl)
  userOwed := by
    intro key listed
    exact (indexed.userOwed key listed).imp_right fun owed =>
        owed_update owed running fun owes => owes.elim
  symbolOwed := by
    intro name listed
    rcases listed with rfl | listed
    · exact .inl fits
    · exact (indexed.symbolOwed name listed).imp_right fun owed =>
        owed_update owed running fun owes => owes.elim

theorem Indexed.removeSubscription (indexed : v.Indexed c)
    (running : v.runs (.receive c) = some (.removeSubscription symbol)) :
    Indexed { v with
      conn := v.conn.map fun conn =>
        { conn with subscriptions := conn.subscriptions.erase symbol }
      runs := Function.update v.runs (.receive c) (some (.retainSubscribers symbol)) } c where
  userListed := by
    intro after same
    obtain ⟨conn, live, rfl⟩ := Option.map_eq_some_iff.mp same
    rcases indexed.userListed conn live with listed | pushing
    · exact .inl listed
    · rw [running] at pushing
      cases pushing
  symbolListed := by
    intro after same name subscribed
    obtain ⟨conn, live, rfl⟩ := Option.map_eq_some_iff.mp same
    have old : name ∈ conn.subscriptions.keys := (AList.mem_erase.mp subscribed).2
    rcases indexed.symbolListed conn live name old with listed | pushing
    · exact .inl listed
    · rw [running] at pushing
      cases pushing
  userOwed := by
    intro key listed
    rcases indexed.userOwed key listed with ⟨conn, live, same⟩ | owed
    · exact .inl ⟨_, Option.map_eq_some_iff.mpr ⟨conn, live, rfl⟩, same⟩
    · exact .inr (owed_update owed running fun owes => owes.elim)
  symbolOwed := by
    intro name listed
    rcases indexed.symbolOwed name listed with ⟨conn, live, subscribed⟩ | owed
    · by_cases same : name = symbol
      · exact .inr ⟨.receive c, _, Function.update_self .., same⟩
      · exact .inl ⟨_, Option.map_eq_some_iff.mpr ⟨conn, live, rfl⟩,
          AList.mem_erase.mpr ⟨same, subscribed⟩⟩
    · exact .inr (owed_update owed running fun owes => owes.elim)

theorem Indexed.retainSubscribers (indexed : v.Indexed c)
    (running : v.runs (.receive c) = some (.retainSubscribers symbol))
    (fits : ∀ conn ∈ v.conn, symbol ∉ conn.subscriptions.keys) :
    Indexed { v with
      symbol := fun name => v.symbol name ∧ name ≠ symbol
      runs := Function.update v.runs (.receive c) next } c where
  userListed := by
    intro live registered
    rcases indexed.userListed live registered with listed | pushing
    · exact .inl listed
    · rw [running] at pushing
      cases pushing
  symbolListed := by
    intro live registered name subscribed
    rcases indexed.symbolListed live registered name subscribed with listed | pushing
    · refine .inl ⟨listed, ?_⟩
      rintro rfl
      exact fits live registered subscribed
    · rw [running] at pushing
      cases pushing
  userOwed := by
    intro key listed
    exact (indexed.userOwed key listed).imp_right fun owed =>
        owed_update owed running fun owes => owes.elim
  symbolOwed := by
    intro name listed
    exact (indexed.symbolOwed name listed.1).imp_right fun owed =>
        owed_update owed running fun owes => absurd owes listed.2

/-- A connection leaves `connections`, and its call owes all that it had. -/
theorem Indexed.removeConnection (indexed : v.Indexed c)
    (running : v.runs t = some .removeConnection) : Indexed { v with
      conn := none
      runs := Function.update v.runs t (v.conn.map fun conn =>
        .retainUser (normalizeId conn.userId) conn.subscriptions.keys) } c where
  userListed := by
    intro live absent
    cases absent
  symbolListed := by
    intro live absent
    cases absent
  userOwed := by
    intro key listed
    rcases indexed.userOwed key listed with ⟨conn, live, same⟩ | owed
    · refine .inr ⟨t, .retainUser (normalizeId conn.userId) conn.subscriptions.keys, ?_, same.symm⟩
      change Function.update v.runs t _ t = _
      rw [Function.update_self, live]
      rfl
    · exact .inr (owed_update owed running fun owes => owes.elim)
  symbolOwed := by
    intro name listed
    rcases indexed.symbolOwed name listed with ⟨conn, live, subscribed⟩ | owed
    · refine .inr ⟨t, .retainUser (normalizeId conn.userId) conn.subscriptions.keys, ?_, subscribed⟩
      change Function.update v.runs t _ t = _
      rw [Function.update_self, live]
      rfl
    · exact .inr (owed_update owed running fun owes => owes.elim)

theorem Indexed.retainUser (indexed : v.Indexed c)
    (running : v.runs t = some (.retainUser key symbols)) (absent : v.conn = none)
    (rest : ∀ symbol ∈ symbols, ∃ n ∈ next, n.OwesSymbol symbol) :
    Indexed { v with
      user := fun k => v.user k ∧ k ≠ key
      runs := Function.update v.runs t next } c where
  userListed := by
    intro live registered
    cases absent.symm.trans registered
  symbolListed := by
    intro live registered
    cases absent.symm.trans registered
  userOwed := by
    intro k listed
    exact (indexed.userOwed k listed.1).imp_right fun owed =>
      owed_update owed running fun owes => absurd owes listed.2
  symbolOwed := by
    intro symbol listed
    exact (indexed.symbolOwed symbol listed).imp_right fun owed =>
      owed_update owed running fun owes => rest symbol owes

theorem Indexed.retainSymbol (indexed : v.Indexed c)
    (running : v.runs t = some (.retainSymbol symbol rest)) (absent : v.conn = none)
    (others : ∀ name ∈ rest, ∃ n ∈ next, n.OwesSymbol name) :
    Indexed { v with
      symbol := fun name => v.symbol name ∧ name ≠ symbol
      runs := Function.update v.runs t next } c where
  userListed := by
    intro live registered
    cases absent.symm.trans registered
  symbolListed := by
    intro live registered
    cases absent.symm.trans registered
  userOwed := by
    intro key listed
    exact (indexed.userOwed key listed).imp_right fun owed =>
      owed_update owed running fun owes => owes.elim
  symbolOwed := by
    intro name listed
    refine (indexed.symbolOwed name listed.1).imp_right fun owed =>
      owed_update owed running fun owes => ?_
    exact others name (owes.resolve_left listed.2)

/-- A task that was idle begins a call. -/
theorem Indexed.start (indexed : v.Indexed c) (idle : v.runs t = none) :
    Indexed { v with runs := Function.update v.runs t (some op) } c := by
  have others : ∀ t' other, v.runs t' = some other →
      Function.update v.runs t (some op) t' = some other := by
    intro t' other runs
    have apart : t' ≠ t := by
      rintro rfl
      rw [idle] at runs
      cases runs
    rwa [Function.update_of_ne apart]
  refine ⟨fun live registered => ?_, fun live registered symbol subscribed => ?_,
    fun key listed => ?_, fun symbol listed => ?_⟩
  · exact (indexed.userListed live registered).imp_right (others _ _)
  · exact (indexed.symbolListed live registered symbol subscribed).imp_right (others _ _)
  · refine (indexed.userOwed key listed).imp_right ?_
    rintro ⟨t', other, runs, owes⟩
    exact ⟨t', other, others _ _ runs, owes⟩
  · refine (indexed.symbolOwed symbol listed).imp_right ?_
    rintro ⟨t', other, runs, owes⟩
    exact ⟨t', other, others _ _ runs, owes⟩

theorem gone_start (registers : ∀ conn, op ≠ .insertConnection conn) (gone : v.Gone) :
    Gone { v with runs := Function.update v.runs t (some op) } := by
  refine ⟨gone.1, fun t' conn starts => ?_⟩
  change Function.update v.runs t (some op) t' = _ at starts
  by_cases same : t' = t
  · subst same
    rw [Function.update_self] at starts
    exact registers conn (Option.some.inj starts)
  · rw [Function.update_of_ne same] at starts
    exact gone.2 t' conn starts

theorem runs_start {P : TaskId → MapStep → Prop}
    (before : ∀ t' other, v.runs t' = some other → P t' other) (own : P t op) :
    ∀ t' other, Function.update v.runs t (some op) t' = some other → P t' other := by
  intro t' other starts
  by_cases same : t' = t
  · subst same
    rw [Function.update_self] at starts
    cases starts
    exact own
  · rw [Function.update_of_ne same] at starts
    exact before t' other starts

/-- A session goes on by itself. -/
theorem Kept.resume {session : SessionTask} {tx : Bool} (kept : v.Kept c)
    (phase : InPhase { v with session := some session, tx := tx } c session) :
    Kept { v with session := some session, tx := tx } c where
  owns := kept.owns
  fits := fun t op runs => fits_of_conn_eq rfl id (kept.fits t op runs)
  indexed := ⟨kept.indexed.userListed, kept.indexed.symbolListed, kept.indexed.userOwed,
    kept.indexed.symbolOwed⟩
  inPhase := by
    intro other same
    cases same
    exact phase
  unknown := by
    intro missing
    cases missing

/-- A task begins a call that does not register. -/
theorem Kept.start (kept : v.Kept c) (idle : v.runs t = none) (owns : t.Owns c op)
    (fits : v.Fits op) (unseen : op.hasSeen = false) (quiet : t = .receive c →
      ∀ session ∈ v.session, session.stopped = false)
    (ended : t = .session c → ∃ session ∈ v.session, session.phase = .ended)
    (removing : t = .session c → op = .removeConnection) :
    Kept { v with runs := Function.update v.runs t (some op) } c := by
  have registers : ∀ conn, op ≠ .insertConnection conn := by
    rintro conn rfl
    cases unseen
  have gone : v.Gone → Gone { v with runs := Function.update v.runs t (some op) } :=
    gone_start registers
  refine ⟨runs_start kept.owns owns, runs_start (fun t' other runs => ?_) ?_,
    kept.indexed.start idle, fun session known => ?_, fun missing => ?_⟩
  · exact fits_of_conn_eq (v := v) rfl gone (kept.fits t' other runs)
  · exact fits_of_conn_eq (v := v) rfl gone fits
  · have phase := kept.inPhase session known
    refine ⟨phase.stops, fun stopped => ?_, fun finished => ?_, phase.dropped, fun cleaning => ?_,
      fun unauthenticated => ?_⟩
    · obtain ⟨nothing, silent⟩ := phase.quiet stopped
      refine ⟨nothing, ?_⟩
      have apart : .receive c ≠ t := by
        intro same
        have running := quiet same.symm session known
        rw [stopped] at running
        cases running
      exact (Function.update_of_ne apart ..).trans silent
    · by_cases same : .session c = t
      · subst same
        rw [removing rfl]
        exact .inl (Function.update_self ..)
      · refine (phase.ended finished).imp (fun removes => ?_) gone
        exact (Function.update_of_ne same ..).trans removes
    · by_cases same : .session c = t
      · obtain ⟨other, found, finished⟩ := ended same.symm
        cases known.symm.trans found
        exact finished
      · apply phase.cleans
        intro silent
        exact cleaning ((Function.update_of_ne same ..).trans silent)
    · obtain ⟨absent, before⟩ := phase.known unauthenticated
      exact ⟨absent, runs_start before unseen⟩
  · obtain ⟨closed, silent, absent, before⟩ := kept.unknown missing
    have apart : .session c ≠ t := by
      intro same
      obtain ⟨other, found, _⟩ := ended same.symm
      cases missing.symm.trans found
    exact ⟨closed, (Function.update_of_ne apart ..).trans silent, absent, runs_start before unseen⟩

/-- The first valid `auth` of a session begins to register. -/
theorem Kept.register {session : SessionTask} (kept : v.Kept c) (idle : v.runs (.receive c) = none)
    (known : v.session = some session) (unauthenticated : session.isAuthenticated = false)
    (running : session.phase = .running) (listening : session.stopped = false)
    (fresh : conn.subscriptions.keys = []) :
    Kept { v with
      session := some { session with isAuthenticated := true }
      runs := Function.update v.runs (.receive c) (some (.insertConnection conn)) } c := by
  have phase := kept.inPhase session known
  obtain ⟨absent, unseen⟩ := phase.known unauthenticated
  have fits : ∀ t op, v.runs t = some op → v.Fits op ∧ op.hasSeen = false :=
    fun t op runs => ⟨kept.fits t op runs, unseen t op runs⟩
  have indexed : Indexed { v with
      runs := Function.update v.runs (.receive c) (some (.insertConnection conn)) } c :=
    kept.indexed.start idle
  refine ⟨runs_start kept.owns ⟨rfl, rfl⟩, runs_start (fun t' other runs => ?_) ⟨absent, fresh⟩,
    ⟨indexed.userListed, indexed.symbolListed, indexed.userOwed, indexed.symbolOwed⟩,
    fun other same => ?_, fun missing => ?_⟩
  · obtain ⟨before, past⟩ := fits t' other runs
    cases other <;> first | exact before | cases past
  · cases same
    refine ⟨fun changed => absurd running changed, fun stopped => ?_, fun finished => ?_,
      phase.dropped, fun cleaning => ?_, fun unknown => ?_⟩
    · exact absurd (listening.symm.trans stopped) Bool.false_ne_true
    · exact absurd (running.symm.trans finished) (by decide)
    · have apart : TaskId.session c ≠ .receive c := by simp
      change Function.update v.runs (.receive c) (some (.insertConnection conn)) (.session c) ≠
        none at cleaning
      rw [Function.update_of_ne apart] at cleaning
      exact phase.cleans cleaning
    · cases unknown
  · cases missing

/-- The cleanup of a session begins. -/
theorem Kept.cleanUp {session : SessionTask} (kept : v.Kept c) (known : v.session = some session)
    (unregistering : session.phase = .unregistering) (idle : v.runs (.session c) = none) :
    Kept { v with
      session := some { session with phase := .ended }
      runs := Function.update v.runs (.session c) (some .removeConnection) } c := by
  have phase := kept.inPhase session known
  have gone : v.Gone → Gone { v with
      runs := Function.update v.runs (.session c) (some .removeConnection) } :=
    gone_start (by simp)
  have indexed : Indexed { v with
      runs := Function.update v.runs (.session c) (some .removeConnection) } c :=
    kept.indexed.start idle
  refine ⟨runs_start kept.owns ⟨rfl, rfl⟩, runs_start (fun t' other runs => ?_) trivial,
    ⟨indexed.userListed, indexed.symbolListed, indexed.userOwed, indexed.symbolOwed⟩,
    fun other same => ?_, fun missing => ?_⟩
  · exact fits_of_conn_eq (v := v) rfl gone (kept.fits t' other runs)
  · cases same
    refine ⟨fun _ => phase.stops (by simp [unregistering]), fun stopped => ?_,
      fun _ => .inl (Function.update_self ..), fun kept => ?_, fun _ => rfl, fun unknown => ?_⟩
    · obtain ⟨nothing, silent⟩ := phase.quiet stopped
      have apart : TaskId.receive c ≠ .session c := by simp
      refine ⟨nothing, ?_⟩
      change Function.update v.runs (.session c) (some .removeConnection) (.receive c) = none
      rw [Function.update_of_ne apart, silent]
    · have before := phase.dropped kept
      simp [unregistering] at before
    · obtain ⟨absent, before⟩ := phase.known unknown
      exact ⟨absent, runs_start before rfl⟩
  · cases missing

end ConnStanding

end TradingPlatform
