import Mathlib.Data.List.Sort
import Mathlib.Data.List.Dedup
import Mathlib.Data.Finset.Basic
import Mathlib.Data.Rat.Defs
import Mathlib.Data.String.Basic
import TradingPlatform.Library.StepRuns

namespace TradingPlatform.MmdpsSockets
open StepRuns

/-- `CHUNK` -/
def chunk : ℕ := 200

structure PriceState where
  bid : ℚ
  ask : ℚ
  ts : ℕ
  deriving DecidableEq, Repr

/-- Where `mmdps_connection_loop` is. -/
inductive Phase
  | notStarted
  | connecting
  /-- The set is being copied; it held `started` when this began. -/
  | iterating (started : Finset String)
  /-- The chunks of `all` are being sent; the symbols `rest` are still to come. -/
  | sending (all rest : List String)
  | waiting
  /-- Before the next connection. -/
  | delaying
  deriving DecidableEq

/-- `inProgress` are the symbols of the calls of `subscribe_symbol` that have
inserted and not yet sent, `channel` counts the queued resyncs, `frames` are the
subscribe messages of the current socket, each with its success. -/
structure State where
  priceStates : String → Option PriceState
  subscribed : Finset String
  inProgress : List String
  channel : ℕ
  phase : Phase
  frames : List (Bool × List String)

def initial : State := ⟨fun _ => none, ∅, [], 0, .notStarted, []⟩

/-- `connects` and `sendsChunk` say whether they succeed, `collects` what the
iteration over the set has come across. -/
inductive Action
  | inserts (symbol : String)
  | sends (call : ℕ)
  | forceResync
  | connects (succeeds : Bool)
  | collects (seen : List String)
  | sendsChunk (succeeds : Bool)
  | receives
  | ticks (symbol : String) (state : PriceState)
  /-- The socket ends or a pong fails. -/
  | ends
  | wakes
  deriving DecidableEq

namespace State

/-- The first half of `subscribe_symbol`. -/
def inserted (toUppercase : String → String) (s : State) (symbol : String) : State :=
  let u := toUppercase symbol
  if u ∈ s.subscribed then s
  else { s with subscribed := insert u s.subscribed, inProgress := s.inProgress ++ [u] }

/-- The second half, under the mutex: the first call also starts the loop. -/
def resyncSent (s : State) (call : ℕ) : State :=
  { s with
    inProgress := s.inProgress.eraseIdx call
    channel := s.channel + 1
    phase := if s.phase = .notStarted then .connecting else s.phase }

/-- `sort` and `dedup` -/
def sorted (symbols : List String) : List String := (symbols.insertionSort (· ≤ ·)).dedup

/-- Once all chunks are sent the inner loop goes on. -/
def continued (s : State) (all rest : List String) : State :=
  { s with phase := if rest = [] then .waiting else .sending all rest }

def chunkSent (s : State) (succeeds : Bool) (all rest : List String) : State :=
  let s := { s with frames := s.frames ++ [(succeeds, rest.take chunk)] }
  if succeeds then s.continued all (rest.drop chunk) else { s with phase := .delaying }

/-- `apply_mmdps_message` of a tick. -/
def ticked (toUppercase : String → String) (s : State) (symbol : String) (state : PriceState) :
    State :=
  if state.ask ≤ state.bid then s
  else { s with priceStates := Function.update s.priceStates (toUppercase symbol) (some state) }

def step (toUppercase : String → String) (s : State) : Action → Option State
  | .inserts symbol => some (s.inserted toUppercase symbol)
  | .sends call => if call < s.inProgress.length then some (s.resyncSent call) else none
  | .forceResync => some (if s.phase = .notStarted then s else { s with channel := s.channel + 1 })
  | .connects succeeds =>
    if s.phase = .connecting then
      some (if succeeds then { s with phase := .iterating s.subscribed, frames := [] }
        else { s with phase := .delaying })
    else none
  | .collects seen =>
    match s.phase with
    | .iterating started =>
      if seen.Nodup ∧ (∀ u ∈ started, u ∈ seen) ∧ ∀ u ∈ seen, u ∈ s.subscribed then
        some (s.continued (sorted seen) (sorted seen))
      else none
    | _ => none
  | .sendsChunk succeeds =>
    match s.phase with
    | .sending all rest => some (s.chunkSent succeeds all rest)
    | _ => none
  | .receives =>
    if s.phase = .waiting ∧ 0 < s.channel then
      some { s with channel := s.channel - 1, phase := .iterating s.subscribed }
    else none
  | .ticks symbol state =>
    if s.phase = .waiting then some (s.ticked toUppercase symbol state) else none
  | .ends => if s.phase = .waiting then some { s with phase := .delaying } else none
  | .wakes => if s.phase = .delaying then some { s with phase := .connecting } else none

/-- The symbols of the messages that were sent on the current socket. -/
def sent (s : State) : List String := (s.frames.filter (·.1)).flatMap (·.2)

/-- The inner loop waits, no resync is queued and no call is in progress. -/
structure Quiescent (s : State) : Prop where
  waiting : s.phase = .waiting
  channel : s.channel = 0
  inProgress : s.inProgress = []

/-- The symbols that the loop has read or will send without another resync. -/
def covered (s : State) : Finset String :=
  match s.phase with
  | .iterating started => started
  | .sending all _ => all.toFinset
  | .waiting => s.sent.toFinset
  | .notStarted | .connecting | .delaying => s.subscribed

end State

variable {toUppercase : String → String} {s after : State}

/-- Chunks are small and sorted and hold only symbols asked for, and prices have
a spread. -/
structure Sound (s : State) : Prop where
  small : ∀ frame ∈ s.frames, frame.2.length ≤ chunk ∧ frame.2.Pairwise (· < ·)
  asked : ∀ frame ∈ s.frames, ∀ u ∈ frame.2, u ∈ s.subscribed
  prices : ∀ u, ∀ state ∈ s.priceStates u, state.bid < state.ask

/-- Wherever the loop is, a symbol that it does not know of is announced. -/
structure Facts (s : State) : Prop extends Sound s where
  remaining : ∀ all rest, s.phase = .sending all rest → all.Pairwise (· < ·) ∧ rest <:+ all ∧
    (∀ u ∈ all, u ∈ s.subscribed) ∧ ∀ u ∈ all, u ∈ s.sent ∨ u ∈ rest
  announced : ∀ u ∈ s.subscribed, u ∈ s.covered ∨ u ∈ s.inProgress ∨ 0 < s.channel

theorem pairwise_sorted (symbols : List String) : (State.sorted symbols).Pairwise (· < ·) := by
  have ascending : (State.sorted symbols).Pairwise (· ≤ ·) :=
    (List.pairwise_insertionSort (· ≤ ·) symbols).sublist (List.dedup_sublist _)
  have distinct : (State.sorted symbols).Pairwise (· ≠ ·) := List.nodup_dedup _
  exact (ascending.and distinct).imp fun both => lt_of_le_of_ne both.1 both.2

theorem mem_sorted {symbols : List String} {u : String} : u ∈ State.sorted symbols ↔ u ∈ symbols := by
  rw [State.sorted, List.mem_dedup, List.mem_insertionSort]

theorem mem_sent {u : String} : u ∈ s.sent ↔ ∃ frame ∈ s.frames, frame.1 = true ∧ u ∈ frame.2 := by
  simp [State.sent, and_assoc]

theorem facts_initial : Facts initial where
  small _ member := by cases member
  asked _ member := by cases member
  remaining _ _ sending := by cases sending
  announced u member := by simp [initial] at member
  prices _ _ stored := by cases stored

/-- A phase in which everything is known, with the frames of the old socket. -/
theorem Facts.disconnected (facts : Facts s) {phase : Phase}
    (isDown : phase = .connecting ∨ phase = .delaying) : Facts { s with phase := phase } where
  small := facts.small
  asked := facts.asked
  remaining all rest sending := by
    have sending : phase = .sending all rest := sending
    rcases isDown with isDown | isDown <;> cases isDown.symm.trans sending
  announced u member := by
    rcases isDown with isDown | isDown <;> exact .inl (by simpa [State.covered, isDown] using member)
  prices := facts.prices

theorem Facts.iterating (facts : Facts s) (channel : ℕ) (frames : List (Bool × List String))
    (fewer : ∀ frame ∈ frames, frame ∈ s.frames) :
    Facts { s with channel := channel, phase := .iterating s.subscribed, frames := frames } where
  small frame member := facts.small frame (fewer frame member)
  asked frame member := facts.asked frame (fewer frame member)
  remaining _ _ sending := by cases sending
  announced u member := .inl member
  prices := facts.prices

/-- What was sent of `all` and what remains of it make up `all`. -/
theorem Sound.continued (sound : Sound s) {all rest : List String} (sorted : all.Pairwise (· < ·))
    (suffix : rest <:+ all) (asked : ∀ u ∈ all, u ∈ s.subscribed)
    (parts : ∀ u ∈ all, u ∈ s.sent ∨ u ∈ rest)
    (known : ∀ u ∈ s.subscribed, u ∈ all ∨ u ∈ s.inProgress ∨ 0 < s.channel) :
    Facts (s.continued all rest) where
  small := sound.small
  asked := sound.asked
  prices := sound.prices
  remaining all' rest' sending := by
    simp only [State.continued] at sending
    split_ifs at sending
    cases sending
    exact ⟨sorted, suffix, asked, parts⟩
  announced u member := by
    rcases known u member with inAll | later
    · refine .inl ?_
      unfold State.continued State.covered
      by_cases done : rest = []
      · have isSent := (parts u inAll).resolve_right (by simp [done])
        simpa [done, State.sent] using isSent
      · simpa [done] using inAll
    · exact .inr later

theorem Facts.chunkSent (facts : Facts s) {all rest : List String}
    (sending : s.phase = .sending all rest) (succeeds : Bool) :
    Facts (s.chunkSent succeeds all rest) := by
  obtain ⟨sorted, suffix, asked, parts⟩ := facts.remaining all rest sending
  have framed : Sound { s with frames := s.frames ++ [(succeeds, rest.take chunk)] } := by
    refine ⟨fun frame member => ?_, fun frame member u inFrame => ?_, facts.prices⟩
    · rcases List.mem_append.mp member with old | new
      · exact facts.small frame old
      · rw [List.mem_singleton.mp new]
        refine ⟨List.length_take_le _ _, ?_⟩
        exact sorted.sublist ((List.take_sublist _ _).trans suffix.sublist)
    · rcases List.mem_append.mp member with old | new
      · exact facts.asked frame old u inFrame
      · rw [List.mem_singleton.mp new] at inFrame
        exact asked u (suffix.subset (List.mem_of_mem_take inFrame))
  unfold State.chunkSent
  cases succeeds with
  | false => exact ⟨⟨framed.small, framed.asked, framed.prices⟩, nofun, fun u member => .inl member⟩
  | true =>
    have suffix' : rest.drop chunk <:+ all := (List.drop_suffix _ _).trans suffix
    have nowSent (u : String) (member : u ∈ all) :
        u ∈ ({ s with frames := s.frames ++ [(true, rest.take chunk)] } : State).sent ∨
          u ∈ rest.drop chunk := by
      rw [mem_sent]
      rcases parts u member with before | remains
      · obtain ⟨frame, old, ok, inFrame⟩ := mem_sent.mp before
        exact .inl ⟨frame, List.mem_append_left _ old, ok, inFrame⟩
      · rw [← List.take_append_drop chunk rest, List.mem_append] at remains
        refine remains.imp_left fun now => ⟨(true, rest.take chunk), ?_, rfl, now⟩
        exact List.mem_append_right _ (List.mem_singleton_self _)
    have known : ∀ u ∈ s.subscribed, u ∈ all ∨ u ∈ s.inProgress ∨ 0 < s.channel := by
      intro u member
      rcases facts.announced u member with covered | later
      · rw [State.covered, sending] at covered
        exact .inl (List.mem_toFinset.mp covered)
      · exact .inr later
    exact framed.continued sorted suffix' asked nowSent known

/-- A call that inserts a new symbol is in progress until it has sent. -/
theorem Facts.inserted (facts : Facts s) (symbol : String) :
    Facts (s.inserted toUppercase symbol) := by
  unfold State.inserted
  dsimp only
  split_ifs with old
  · exact facts
  · refine ⟨⟨facts.small, fun frame member u inFrame => ?_, facts.prices⟩,
      fun all rest sending => ?_, fun u member => ?_⟩
    · exact Finset.mem_insert_of_mem (facts.asked frame member u inFrame)
    · obtain ⟨sorted, suffix, asked, parts⟩ := facts.remaining all rest sending
      exact ⟨sorted, suffix, fun u inAll => Finset.mem_insert_of_mem (asked u inAll), parts⟩
    · rcases Finset.mem_insert.mp member with new | before
      · exact .inr (.inl (by simp [new]))
      · rcases facts.announced u before with covered | inProgress | queued
        · refine .inl ?_
          unfold State.covered at covered ⊢
          dsimp only
          split at covered <;> simp_all [State.sent]
        · exact .inr (.inl (List.mem_append_left _ inProgress))
        · exact .inr (.inr queued)

theorem Facts.step {a : Action} (facts : Facts s) (taken : s.step toUppercase a = some after) :
    Facts after := by
  have queuedAnyway (channel : ℕ) (positive : 0 < channel) (inProgress : List String)
      (phase : Phase) (same : phase = s.phase ∨ phase = .connecting) :
      Facts { s with channel := channel, inProgress := inProgress, phase := phase } := by
    refine ⟨⟨facts.small, facts.asked, facts.prices⟩, fun all rest sending => ?_,
      fun u member => .inr (.inr positive)⟩
    have sending : phase = .sending all rest := sending
    rcases same with same | same
    · exact facts.remaining all rest (same.symm.trans sending)
    · cases same.symm.trans sending
  cases a with
  | inserts symbol =>
    cases taken
    exact facts.inserted symbol
  | sends call =>
    obtain ⟨-, eq⟩ := Option.ite_none_right_eq_some.mp taken
    cases eq
    refine queuedAnyway _ (Nat.succ_pos _) _ _ ?_
    split_ifs
    · exact .inr rfl
    · exact .inl rfl
  | forceResync =>
    cases taken
    split_ifs
    · exact facts
    · exact queuedAnyway _ (Nat.succ_pos _) _ _ (.inl rfl)
  | connects succeeds =>
    obtain ⟨-, eq⟩ := Option.ite_none_right_eq_some.mp taken
    cases eq
    cases succeeds with
    | false => exact facts.disconnected (.inr rfl)
    | true => exact facts.iterating s.channel [] nofun
  | collects seen =>
    simp only [State.step] at taken
    split at taken
    next started iterating =>
      obtain ⟨⟨-, whole, asked⟩, eq⟩ := Option.ite_none_right_eq_some.mp taken
      cases eq
      refine facts.toSound.continued (pairwise_sorted seen) (List.suffix_refl _)
        (fun u member => asked u (mem_sorted.mp member)) (fun u member => .inr member)
        fun u member => ?_
      rcases facts.announced u member with covered | later
      · rw [State.covered, iterating] at covered
        exact .inl (mem_sorted.mpr (whole u covered))
      · exact .inr later
    next => cases taken
  | sendsChunk succeeds =>
    simp only [State.step] at taken
    split at taken
    next all rest sending =>
      cases taken
      exact facts.chunkSent sending succeeds
    next => cases taken
  | receives =>
    obtain ⟨-, eq⟩ := Option.ite_none_right_eq_some.mp taken
    cases eq
    exact facts.iterating _ s.frames fun _ => id
  | ticks symbol state =>
    obtain ⟨-, eq⟩ := Option.ite_none_right_eq_some.mp taken
    cases eq
    unfold State.ticked
    split_ifs with spread
    · exact facts
    · refine ⟨⟨facts.small, facts.asked, fun u stored read => ?_⟩, facts.remaining,
        facts.announced⟩
      dsimp only at read
      by_cases here : u = toUppercase symbol
      · subst here
        rw [Function.update_self] at read
        cases read
        exact Rat.not_le.mp spread
      · rw [Function.update_of_ne here] at read
        exact facts.prices u stored read
  | ends =>
    obtain ⟨-, eq⟩ := Option.ite_none_right_eq_some.mp taken
    cases eq
    exact facts.disconnected (.inr rfl)
  | wakes =>
    obtain ⟨-, eq⟩ := Option.ite_none_right_eq_some.mp taken
    cases eq
    exact facts.disconnected (.inl rfl)

/-- Only `subscribe_symbol` adds to the set. -/
theorem subscribed_step {a : Action} (taken : s.step toUppercase a = some after) (u : String) :
    u ∈ after.subscribed ↔
      u ∈ s.subscribed ∨ ∃ symbol, a = .inserts symbol ∧ toUppercase symbol = u := by
  by_cases insertion : ∃ symbol, a = .inserts symbol
  · obtain ⟨symbol, rfl⟩ := insertion
    cases taken
    have only : (∃ other, Action.inserts symbol = .inserts other ∧ toUppercase other = u) ↔
        u = toUppercase symbol := by
      simp [eq_comm]
    rw [only]
    unfold State.inserted
    dsimp only
    split_ifs with old
    · constructor
      · exact .inl
      · rintro (member | rfl)
        · exact member
        · exact old
    · rw [Finset.mem_insert, or_comm]
  · have same : after.subscribed = s.subscribed := by
      cases a with
      | inserts symbol => exact absurd ⟨symbol, rfl⟩ insertion
      | sends | connects | receives | ends | wakes =>
        obtain ⟨-, eq⟩ := Option.ite_none_right_eq_some.mp taken
        cases eq
        first | rfl | (split_ifs <;> rfl)
      | forceResync =>
        cases taken
        split_ifs <;> rfl
      | collects | sendsChunk =>
        simp only [State.step] at taken
        split at taken
        · first
            | (obtain ⟨-, eq⟩ := Option.ite_none_right_eq_some.mp taken
               cases eq
               rfl)
            | (cases taken
               unfold State.chunkSent
               dsimp only
               split_ifs <;> rfl)
        · cases taken
      | ticks symbol state =>
        obtain ⟨-, eq⟩ := Option.ite_none_right_eq_some.mp taken
        cases eq
        unfold State.ticked
        split_ifs <;> rfl
    rw [same]
    refine ⟨.inl, fun either => either.resolve_right ?_⟩
    rintro ⟨symbol, isInsert, -⟩
    exact insertion ⟨symbol, isInsert⟩

/-- Over any drops and reconnects, messages hold at most 200 symbols, sorted and
asked for, whatever has been asked for is subscribed to on the current socket once
nothing is under way, and no stored price is crossed. -/
theorem symbolsSent_of_run {actions : List Action}
    (run : Run (State.step toUppercase) initial actions s) :
    (∀ frame ∈ s.frames, frame.2.length ≤ chunk ∧ frame.2.Pairwise (· < ·) ∧
      ∀ u ∈ frame.2, ∃ symbol, .inserts symbol ∈ actions ∧ toUppercase symbol = u) ∧
    (s.Quiescent → ∀ symbol, .inserts symbol ∈ actions → toUppercase symbol ∈ s.sent) ∧
    ∀ u, ∀ state ∈ s.priceStates u, state.bid < state.ask := by
  have facts : Facts s :=
    run.invariant facts_initial fun _ _ _ _ taken held => held.step taken
  have asked : ∀ u, u ∈ s.subscribed ↔
      ∃ symbol, .inserts symbol ∈ actions ∧ toUppercase symbol = u := by
    clear facts
    induction run with
    | nil => simp [initial]
    | snoc _ _ taken held =>
      intro u
      rw [subscribed_step taken u, held u]
      constructor
      · rintro (⟨symbol, member, key⟩ | ⟨symbol, rfl, key⟩)
        · exact ⟨symbol, List.mem_append_left _ member, key⟩
        · exact ⟨symbol, List.mem_append_right _ (List.mem_singleton_self _), key⟩
      · rintro ⟨symbol, member, key⟩
        rcases List.mem_append.mp member with earlier | last
        · exact .inl ⟨symbol, earlier, key⟩
        · exact .inr ⟨symbol, (List.mem_singleton.mp last).symm, key⟩
  refine ⟨fun frame member => ?_, fun quiet symbol called => ?_, facts.prices⟩
  · obtain ⟨few, sorted⟩ := facts.small frame member
    exact ⟨few, sorted, fun u inFrame => (asked u).mp (facts.asked frame member u inFrame)⟩
  · have subscribed := (asked (toUppercase symbol)).mpr ⟨symbol, called, rfl⟩
    rcases facts.announced _ subscribed with covered | inProgress | queued
    · rw [State.covered, quiet.waiting] at covered
      exact List.mem_toFinset.mp covered
    · rw [quiet.inProgress] at inProgress
      cases inProgress
    · rw [quiet.channel] at queued
      cases queued

/-- A second symbol is asked for while the first connection is being set up,
which then drops. -/
def droppedOnce : List Action :=
  [.inserts "eurusd", .sends 0, .connects true, .inserts "xauusd", .collects ["EURUSD"],
   .sendsChunk true, .sends 0, .receives, .collects ["XAUUSD", "EURUSD"], .sendsChunk false,
   .wakes, .connects false, .wakes, .connects true, .collects ["XAUUSD", "EURUSD"],
   .sendsChunk true, .ticks "EURUSD" ⟨1, 2, 7⟩, .receives, .collects ["EURUSD", "XAUUSD"],
   .sendsChunk true]

theorem symbolsSent_droppedOnce :
    ∃ s, Run (State.step String.toUpper) initial droppedOnce s ∧ s.Quiescent ∧
      String.toUpper "xauusd" ∈ s.sent := by
  have evaluates : (runGuarded (State.step String.toUpper) (fun _ _ => True) initial
      droppedOnce).map (fun s => (s.phase, s.channel, s.inProgress)) = some (.waiting, 0, []) := by
    decide +kernel
  obtain ⟨s, run, shown⟩ := GuardedRun.of_eval_map evaluates
  simp only [Prod.mk.injEq] at shown
  have quiet : s.Quiescent := ⟨shown.1, shown.2.1, shown.2.2⟩
  have called : Action.inserts "xauusd" ∈ droppedOnce := by decide
  exact ⟨s, run, quiet, (symbolsSent_of_run run).2.1 quiet "xauusd" called⟩

end TradingPlatform.MmdpsSockets
