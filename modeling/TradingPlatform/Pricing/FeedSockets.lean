import Mathlib.Data.Finset.Card
import Mathlib.Data.List.Sort
import Mathlib.Data.String.Basic
import TradingPlatform.Library.StepRuns

namespace TradingPlatform.FeedSockets
open StepRuns

def maxStreamsPerSocket : ℕ := 1020

def subscribeBatch : ℕ := 200

/-- `str::to_uppercase` and `str::to_lowercase` -/
structure Casing where
  toUppercase : String → String
  toLowercase : String → String

def streamName (casing : Casing) (symbolUpper : String) : String :=
  casing.toLowercase symbolUpper ++ "@bookTicker"

/-- Where `multiplex_connection_loop` is. -/
inductive Phase
  | notStarted
  | connecting
  /-- The set is being copied; it held `started` when this began. -/
  | iterating (started : Finset String)
  | draining (all : List String)
  /-- The batches are being sent; the streams `rest` are still to come. -/
  | sending (all rest : List String)
  | waiting
  /-- Before the next connection. -/
  | delaying
  deriving DecidableEq

/-- `inProgress` are the symbols of the calls of `subscribe_symbol` that have
inserted and not yet sent, `frames` the SUBSCRIBE frames of the current socket,
each with its success and its streams. -/
structure State where
  subscribed : Finset String
  inProgress : List String
  channel : List String
  phase : Phase
  sessionActive : Finset String
  frames : List (Bool × List String)

def initial : State := ⟨∅, [], [], .notStarted, ∅, []⟩

/-- `connects`, `sendsBatch` and `receives` say whether they succeed, `collects`
what the iteration over the set has come across. -/
inductive Action
  | inserts (symbol : String)
  | starts
  | sends (call : ℕ)
  | connects (succeeds : Bool)
  | collects (seen : List String)
  | drains
  | sendsBatch (succeeds : Bool)
  | receives (succeeds : Bool)
  /-- The socket ends, a pong fails or a reconnect is forced. -/
  | ends
  | wakes

namespace State

/-- The first half of `subscribe_symbol`. -/
def inserted (casing : Casing) (s : State) (symbol : String) : State :=
  let u := casing.toUppercase symbol
  if u ∈ s.subscribed then s
  else { s with subscribed := insert u s.subscribed, inProgress := s.inProgress ++ [u] }

def connected (s : State) : State :=
  { s with phase := .iterating s.subscribed, sessionActive := ∅, frames := [] }

/-- The copy of the set, as far as a socket can take it. -/
def firstSymbols (seen : List String) : List String :=
  (seen.insertionSort (· ≤ ·)).take maxStreamsPerSocket

/-- The second `sort`, `dedup` and `truncate`. -/
def arranged (all : List String) : List String :=
  (all.insertionSort (· ≤ ·)).dedup.take maxStreamsPerSocket

/-- Once all batches are sent the inner loop begins. -/
def continued (s : State) (all rest : List String) : State :=
  if rest = [] then { s with phase := .waiting, sessionActive := all.toFinset }
  else { s with phase := .sending all rest }

@[simp] theorem continued_subscribed (s : State) (all rest : List String) :
    (s.continued all rest).subscribed = s.subscribed := by
  unfold continued
  split <;> rfl

@[simp] theorem continued_inProgress (s : State) (all rest : List String) :
    (s.continued all rest).inProgress = s.inProgress := by
  unfold continued
  split <;> rfl

@[simp] theorem continued_channel (s : State) (all rest : List String) :
    (s.continued all rest).channel = s.channel := by
  unfold continued
  split <;> rfl

def drained (casing : Casing) (s : State) (all : List String) : State :=
  match s.channel with
  | [] => s.continued (arranged all) ((arranged all).map (streamName casing))
  | more :: rest =>
    let all := if all.length < maxStreamsPerSocket ∧ more ∉ all then all ++ [more] else all
    { s with channel := rest, phase := .draining all }

def batchSent (s : State) (succeeds : Bool) (all rest : List String) : State :=
  let s := { s with frames := s.frames ++ [(succeeds, rest.take subscribeBatch)] }
  if succeeds then s.continued all (rest.drop subscribeBatch) else { s with phase := .delaying }

/-- A command arrives in the inner loop. -/
def received (casing : Casing) (s : State) (succeeds : Bool) (u : String) (rest : List String) :
    State :=
  let s := { s with channel := rest }
  if maxStreamsPerSocket ≤ s.sessionActive.card then s
  else if u ∈ s.sessionActive then s
  else { s with
    sessionActive := insert u s.sessionActive
    frames := s.frames ++ [(succeeds, [streamName casing u])]
    phase := if succeeds then .waiting else .delaying }

def step (casing : Casing) (s : State) : Action → Option State
  | .inserts symbol => some (s.inserted casing symbol)
  | .starts =>
    if s.phase = .notStarted ∧ s.inProgress ≠ [] then some { s with phase := .connecting } else none
  | .sends call =>
    if s.phase = .notStarted then none
    else s.inProgress[call]?.map fun u =>
      { s with inProgress := s.inProgress.eraseIdx call, channel := s.channel ++ [u] }
  | .connects succeeds =>
    if s.phase = .connecting then
      some (if succeeds then s.connected else { s with phase := .delaying })
    else none
  | .collects seen =>
    match s.phase with
    | .iterating started =>
      if seen.Nodup ∧ (∀ u ∈ started, u ∈ seen) ∧ ∀ u ∈ seen, u ∈ s.subscribed then
        some { s with phase := .draining (firstSymbols seen) }
      else none
    | _ => none
  | .drains =>
    match s.phase with
    | .draining all => some (s.drained casing all)
    | _ => none
  | .sendsBatch succeeds =>
    match s.phase with
    | .sending all rest => some (s.batchSent succeeds all rest)
    | _ => none
  | .receives succeeds =>
    match s.phase, s.channel with
    | .waiting, u :: rest => some (s.received casing succeeds u rest)
    | _, _ => none
  | .ends => if s.phase = .waiting then some { s with phase := .delaying } else none
  | .wakes => if s.phase = .delaying then some { s with phase := .connecting } else none

/-- The streams of all frames of the current socket. -/
def requested (s : State) : List String := s.frames.flatMap (·.2)

/-- The streams of the frames that were sent. -/
def sent (s : State) : List String := (s.frames.filter (·.1)).flatMap (·.2)

/-- The inner loop waits, no command is queued and no call is in progress. -/
structure Quiescent (s : State) : Prop where
  waiting : s.phase = .waiting
  channel : s.channel = []
  inProgress : s.inProgress = []

/-- The symbols that the loop knows of. -/
def known (s : State) : Option (Finset String) :=
  match s.phase with
  | .iterating started => some started
  | .draining all | .sending all _ => some all.toFinset
  | .waiting => some s.sessionActive
  | .notStarted | .connecting | .delaying => none

end State

section Limit
variable {casing : Casing} {s : State}

/-- What the frames of the current socket hold, wherever the loop is. -/
def PhaseFacts (casing : Casing) (s : State) : Prop :=
  match s.phase with
  | .notStarted | .iterating _ => s.frames = []
  | .connecting | .delaying => s.requested.length ≤ maxStreamsPerSocket
  | .draining all => s.frames = [] ∧ all.Nodup ∧ all.length ≤ maxStreamsPerSocket
  | .sending all rest => all.Nodup ∧ all.length ≤ maxStreamsPerSocket ∧
      s.requested ++ rest = all.map (streamName casing) ∧ ∀ frame ∈ s.frames, frame.1
  | .waiting => s.sessionActive.card ≤ maxStreamsPerSocket ∧
      (s.requested : Multiset String) = s.sessionActive.val.map (streamName casing) ∧
      ∀ frame ∈ s.frames, frame.1

theorem length_requested_le (facts : PhaseFacts casing s) :
    s.requested.length ≤ maxStreamsPerSocket := by
  unfold PhaseFacts at facts
  cases at_ : s.phase with
  | notStarted => simp_all [State.requested]
  | iterating started => simp_all [State.requested]
  | connecting => simpa [at_] using facts
  | delaying => simpa [at_] using facts
  | draining all => simp_all [State.requested]
  | sending all rest =>
    rw [at_] at facts
    obtain ⟨-, few, parts, -⟩ := facts
    have lengths := congrArg List.length parts
    rw [List.length_append, List.length_map] at lengths
    omega
  | waiting =>
    rw [at_] at facts
    obtain ⟨few, same, -⟩ := facts
    have cards := congrArg Multiset.card same
    rw [Multiset.coe_card, Multiset.card_map] at cards
    exact cards.trans_le few

/-- Without a failed frame the streams sent are those requested. -/
theorem sent_eq_requested (all : ∀ frame ∈ s.frames, frame.1) : s.sent = s.requested := by
  unfold State.sent State.requested
  rw [List.filter_eq_self.mpr all]

theorem nodup_firstSymbols {seen : List String} (distinct : seen.Nodup) :
    (State.firstSymbols seen).Nodup :=
  ((List.perm_insertionSort _ seen).nodup_iff.mpr distinct).sublist (List.take_sublist _ _)

theorem nodup_arranged (all : List String) : (State.arranged all).Nodup :=
  (List.nodup_dedup _).sublist (List.take_sublist _ _)

theorem PhaseFacts.continued {all rest : List String} (distinct : all.Nodup)
    (few : all.length ≤ maxStreamsPerSocket)
    (parts : s.requested ++ rest = all.map (streamName casing))
    (succeeded : ∀ frame ∈ s.frames, frame.1) : PhaseFacts casing (s.continued all rest) := by
  unfold State.continued
  split_ifs with done
  · subst done
    rw [List.append_nil] at parts
    refine ⟨?_, ?_, succeeded⟩
    · rwa [List.toFinset_card_of_nodup distinct]
    · have val : all.toFinset.val = (all : Multiset String) := by
        rw [List.toFinset_val, distinct.dedup]
      calc (s.requested : Multiset String)
          = ((all.map (streamName casing) : List String) : Multiset String) := by rw [parts]
        _ = all.toFinset.val.map (streamName casing) := by rw [val, Multiset.map_coe]
  · exact ⟨distinct, few, parts, succeeded⟩

theorem received_of_known {succeeds : Bool} {u : String} {rest : List String}
    (known : maxStreamsPerSocket ≤ s.sessionActive.card ∨ u ∈ s.sessionActive) :
    s.received casing succeeds u rest = { s with channel := rest } := by
  unfold State.received
  rcases known with full | active
  · exact if_pos full
  · by_cases full : maxStreamsPerSocket ≤ s.sessionActive.card
    · exact if_pos full
    · exact (if_neg full).trans (if_pos active)

theorem received_of_new {succeeds : Bool} {u : String} {rest : List String}
    (room : s.sessionActive.card < maxStreamsPerSocket) (new : u ∉ s.sessionActive) :
    s.received casing succeeds u rest = { s with
      channel := rest
      sessionActive := insert u s.sessionActive
      frames := s.frames ++ [(succeeds, [streamName casing u])]
      phase := if succeeds then .waiting else .delaying } :=
  (if_neg (Nat.not_le.mpr room)).trans (if_neg new)

theorem PhaseFacts.received (facts : PhaseFacts casing s) (waiting : s.phase = .waiting)
    (succeeds : Bool) (u : String) (rest : List String) :
    PhaseFacts casing (s.received casing succeeds u rest) := by
  have start := facts
  unfold PhaseFacts at facts
  rw [waiting] at facts
  obtain ⟨few, same, succeeded⟩ := facts
  by_cases known : maxStreamsPerSocket ≤ s.sessionActive.card ∨ u ∈ s.sessionActive
  · rw [received_of_known known]
    exact start
  rw [not_or, Nat.not_le] at known
  obtain ⟨room, new⟩ := known
  rw [received_of_new room new]
  have cards := congrArg Multiset.card same
  rw [Multiset.coe_card, Multiset.card_map, Finset.card_val] at cards
  have more : (s.frames ++ [(succeeds, [streamName casing u])]).flatMap (·.2) =
      s.requested ++ [streamName casing u] := by
    simp [State.requested]
  cases succeeds with
  | false =>
    have length := congrArg List.length more
    rw [List.length_append, List.length_singleton] at length
    have fits : s.requested.length + 1 ≤ maxStreamsPerSocket := by omega
    exact length.trans_le fits
  | true =>
    refine ⟨?_, ?_, ?_⟩
    · rw [Finset.card_insert_of_notMem new]
      omega
    · rw [Finset.insert_val_of_notMem new, Multiset.map_cons, ← same]
      have split : ((s.frames ++ [(true, [streamName casing u])]).flatMap (·.2) :
          Multiset String) = streamName casing u ::ₘ (s.requested : Multiset String) := by
        rw [more, ← Multiset.coe_add, Multiset.add_comm]
        rfl
      exact split
    · intro frame member
      rcases List.mem_append.mp member with old | new
      · exact succeeded frame old
      · rw [List.mem_singleton.mp new]

/-- A batch is sent, or its failure ends the session. -/
theorem PhaseFacts.batchSent {all rest : List String} (facts : PhaseFacts casing s)
    (sending : s.phase = .sending all rest) (succeeds : Bool) :
    PhaseFacts casing (s.batchSent succeeds all rest) := by
  unfold PhaseFacts at facts
  rw [sending] at facts
  obtain ⟨distinct, few, parts, succeeded⟩ := facts
  have more : (s.frames ++ [(succeeds, rest.take subscribeBatch)]).flatMap (·.2) =
      s.requested ++ rest.take subscribeBatch := by
    simp [State.requested]
  have whole : (s.requested ++ rest.take subscribeBatch) ++ rest.drop subscribeBatch =
      all.map (streamName casing) := by
    rw [List.append_assoc, List.take_append_drop, parts]
  unfold State.batchSent
  cases succeeds with
  | false =>
    have lengths := congrArg List.length whole
    rw [List.length_append, List.length_map, ← more] at lengths
    have fits : ((s.frames ++ [(false, rest.take subscribeBatch)]).flatMap (·.2)).length ≤
        maxStreamsPerSocket := by omega
    exact fits
  | true =>
    rw [← more] at whole
    refine PhaseFacts.continued distinct few whole ?_
    intro frame member
    rcases List.mem_append.mp member with old | new
    · exact succeeded frame old
    · rw [List.mem_singleton.mp new]

theorem PhaseFacts.drained {all : List String} (facts : PhaseFacts casing s)
    (draining : s.phase = .draining all) : PhaseFacts casing (s.drained casing all) := by
  unfold PhaseFacts at facts
  rw [draining] at facts
  obtain ⟨fresh, distinct, few⟩ := facts
  unfold State.drained
  split
  · refine PhaseFacts.continued (nodup_arranged all) (List.length_take_le _ _) ?_ ?_
    · simp [State.requested, fresh]
    · simp [fresh]
  next more rest queued =>
    refine ⟨fresh, ?_⟩
    split_ifs with adds
    · have longer : (all ++ [more]).Nodup := by
        rw [← List.concat_eq_append]
        exact List.Nodup.concat adds.2 distinct
      refine ⟨longer, ?_⟩
      rw [List.length_append, List.length_singleton]
      omega
    · exact ⟨distinct, few⟩

theorem PhaseFacts.step {after : State} {a : Action} (facts : PhaseFacts casing s)
    (taken : s.step casing a = some after) : PhaseFacts casing after := by
  cases a with
  | inserts symbol =>
    obtain rfl := Option.some.inj taken
    unfold State.inserted
    dsimp only
    split <;> exact facts
  | starts =>
    obtain ⟨⟨notStarted, -⟩, eq⟩ := Option.ite_none_right_eq_some.mp taken
    obtain rfl := Option.some.inj eq
    have fits := length_requested_le facts
    exact fits
  | sends call =>
    simp only [State.step] at taken
    split at taken
    · cases taken
    · obtain ⟨u, -, rfl⟩ := Option.map_eq_some_iff.mp taken
      exact facts
  | connects succeeds =>
    obtain ⟨-, eq⟩ := Option.ite_none_right_eq_some.mp taken
    obtain rfl := Option.some.inj eq
    cases succeeds with
    | false =>
      have fits := length_requested_le facts
      exact fits
    | true =>
      have fresh : s.connected.frames = [] := rfl
      exact fresh
  | collects seen =>
    simp only [State.step] at taken
    split at taken
    next started iterating =>
      obtain ⟨⟨distinct, -⟩, eq⟩ := Option.ite_none_right_eq_some.mp taken
      obtain rfl := Option.some.inj eq
      unfold PhaseFacts at facts
      rw [iterating] at facts
      exact ⟨facts, nodup_firstSymbols distinct, List.length_take_le _ _⟩
    next => cases taken
  | drains =>
    simp only [State.step] at taken
    split at taken
    next all draining =>
      obtain rfl := Option.some.inj taken
      exact facts.drained draining
    next => cases taken
  | sendsBatch succeeds =>
    simp only [State.step] at taken
    split at taken
    next all rest sending =>
      obtain rfl := Option.some.inj taken
      exact facts.batchSent sending succeeds
    next => cases taken
  | receives succeeds =>
    simp only [State.step] at taken
    split at taken
    next u rest waiting queued =>
      obtain rfl := Option.some.inj taken
      exact facts.received waiting succeeds u rest
    next => cases taken
  | ends =>
    obtain ⟨-, eq⟩ := Option.ite_none_right_eq_some.mp taken
    obtain rfl := Option.some.inj eq
    have fits := length_requested_le facts
    exact fits
  | wakes =>
    obtain ⟨-, eq⟩ := Option.ite_none_right_eq_some.mp taken
    obtain rfl := Option.some.inj eq
    have fits := length_requested_le facts
    exact fits

end Limit

end TradingPlatform.FeedSockets
