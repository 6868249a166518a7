import Mathlib.Data.Fintype.Pi
import TradingPlatform.Library.StepRuns

namespace TradingPlatform.CircuitBreaker
open StepRuns

inductive CircuitState
  | closed
  /-- `Open { until }` -/
  | opened (expires : ℕ)
  | halfOpen
  deriving DecidableEq, Repr

def failureThreshold : ℕ := 3

/-- `COOLDOWN_SECS`, in the clock's nanoseconds. -/
def cooldown : ℕ := 30 * 1000000000

/-- What `allow_request` does while it holds the lock. -/
def allowRequest (state : CircuitState) (now : ℕ) : CircuitState × Bool :=
  match state with
  | .closed => (.closed, true)
  | .opened expires => if expires ≤ now then (.halfOpen, true) else (.opened expires, false)
  | .halfOpen => (.halfOpen, true)

/-- What `record_success` does while it holds the lock. -/
def recordSuccess (state : CircuitState) : CircuitState :=
  if state = .halfOpen then .closed else state

/-- What `record_failure` does while it holds the lock. -/
def recordFailure (now : ℕ) : CircuitState := .opened (now + cooldown)

/-- A call ends, as its callers see it. -/
inductive Event
  | asked (now : ℕ) (allowed : Bool)
  | succeeded
  | failed (now : ℕ)
  deriving DecidableEq, Repr

section Documented

/-- The documented machine: opens after so many failures in a row, stays open
for the cooldown, and lets one trial pass in half-open. -/
structure Documented where
  state : CircuitState
  failures : ℕ
  deriving DecidableEq, Repr

namespace Documented

def new : Documented := ⟨.closed, 0⟩

/-- Undefined if the machine would not have given the answer. -/
def step (d : Documented) : Event → Option Documented
  | .asked now allowed =>
    match d.state with
    | .closed => if allowed then some d else none
    | .opened expires =>
      if expires ≤ now then if allowed then some { d with state := .halfOpen } else none
      else if allowed then none else some d
    | .halfOpen => if allowed then none else some d
  | .succeeded => some ⟨if d.state = .halfOpen then .closed else d.state, 0⟩
  | .failed now =>
    if d.state = .halfOpen ∨ failureThreshold ≤ d.failures + 1 then
      some ⟨.opened (now + cooldown), 0⟩
    else some { d with failures := d.failures + 1 }

def replay (d : Documented) (history : List Event) : Option Documented :=
  history.foldlM step d

theorem replay_snoc (d : Documented) (history : List Event) (event : Event) :
    d.replay (history ++ [event]) = (d.replay history).bind (·.step event) := by
  simp [replay, List.foldlM_append]

theorem replay_cons (d : Documented) (event : Event) (history : List Event) :
    d.replay (event :: history) = (d.step event).bind (·.replay history) :=
  List.foldlM_cons ..

/-- Open, the machine refuses until the cooldown is over. -/
theorem refuses {d after : Documented} {expires now : ℕ} {allowed : Bool}
    (isOpen : d.state = .opened expires) (early : now < expires)
    (taken : d.step (.asked now allowed) = some after) : allowed = false ∧ after = d := by
  have notYet : ¬expires ≤ now := by omega
  simp only [step, isOpen, if_neg notYet] at taken
  cases allowed <;> simp_all

/-- Between a half-open transition and the next outcome every request is
refused. -/
theorem trial_once {d after : Documented} {history : List Event} (half : d.state = .halfOpen)
    (pending : ∀ event ∈ history, ∃ now allowed, event = .asked now allowed)
    (replayed : d.replay history = some after) :
    after = d ∧ ∀ event ∈ history, ∃ now, event = .asked now false := by
  induction history with
  | nil => simp_all [replay]
  | cons event rest ih =>
    obtain ⟨now, allowed, rfl⟩ := pending event List.mem_cons_self
    rw [replay_cons] at replayed
    have refused : allowed = false := by
      cases allowed <;> simp_all [step]
    subst refused
    have stays : d.step (.asked now false) = some d := by simp [step, half]
    rw [stays] at replayed
    obtain ⟨same, others⟩ := ih (fun e member => pending e (List.mem_cons_of_mem _ member)) replayed
    refine ⟨same, fun e member => ?_⟩
    rcases List.mem_cons.mp member with rfl | later
    · exact ⟨now, rfl⟩
    · exact others e later

/-- After as many failures as the threshold with no success between them the
machine is open for a full cooldown. -/
theorem opens {d after : Documented} {history : List Event} {now : ℕ}
    (noSuccess : ∀ event ∈ history, event ≠ .succeeded)
    (isClosed : d.state = .closed) (clean : d.failures = 0)
    (enough : (history.filter fun event => event matches .failed _).length + 1 = failureThreshold)
    (replayed : d.replay (history ++ [.failed now]) = some after) :
    after = ⟨.opened (now + cooldown), 0⟩ := by
  suffices counts : ∀ (history : List Event) (middle : Documented),
      (∀ event ∈ history, event ≠ .succeeded) →
      (history.filter fun event => event matches .failed _).length < failureThreshold →
      d.replay history = some middle → middle.state = .closed ∧
        middle.failures = (history.filter fun event => event matches .failed _).length by
    rw [replay_snoc] at replayed
    obtain ⟨middle, reached, last⟩ := Option.bind_eq_some_iff.mp replayed
    obtain ⟨-, failures⟩ := counts history middle noSuccess (by omega) reached
    have full : failureThreshold ≤ middle.failures + 1 := by omega
    simpa [step, full] using last.symm
  intro history
  induction history using List.reverseRecOn with
  | nil =>
    intro middle _ _ reached
    simp_all [replay]
  | append_singleton history event ih =>
    intro middle noSuccess few reached
    rw [replay_snoc] at reached
    obtain ⟨earlier, before, last⟩ := Option.bind_eq_some_iff.mp reached
    rw [List.filter_append, List.length_append] at few ⊢
    obtain ⟨shut, failures⟩ := ih earlier
      (fun e member => noSuccess e (List.mem_append_left _ member)) (by omega) before
    cases event with
    | asked at_ allowed => cases allowed <;> simp_all [step]
    | succeeded => exact absurd rfl (noSuccess .succeeded (by simp))
    | failed at_ =>
      have below : ¬failureThreshold ≤ earlier.failures + 1 := by
        simp at few
        omega
      simp [step, shut, below] at last
      simp [← last, failures]

end Documented

end Documented

/-- What a task is doing. The lock is held while deciding, closing or
opening. -/
inductive Caller
  | idle
  /-- `allow_request` waits for the lock. -/
  | asking
  | deciding
  /-- `record_success` has reset the counter and has not tried the lock. -/
  | cleared
  | closing
  /-- `record_failure` has reached the threshold and has not tried the lock. -/
  | counted
  | opening
  deriving DecidableEq, Repr

namespace Caller

def holdsLock : Caller → Bool
  | deciding | closing | opening => true
  | _ => false

def recordsSuccess : Caller → Bool
  | cleared | closing => true
  | _ => false

def recordsFailure : Caller → Bool
  | counted | opening => true
  | _ => false

end Caller

/-- The breaker and `n` tasks. `history` lists the calls at the steps that
count: an answer when it is given, a success when it resets the counter, a
failure when its call ends. -/
structure State (n : ℕ) where
  state : CircuitState
  failureCount : ℕ
  callers : Fin n → Caller
  clock : ℕ
  history : List Event

variable {n : ℕ}

def initial (n : ℕ) : State n := ⟨.closed, 0, fun _ => .idle, 0, []⟩

inductive Action (n : ℕ)
  | passes (duration : ℕ)
  | asks (i : Fin n)
  | abandons (i : Fin n)
  | locks (i : Fin n)
  | decides (i : Fin n)
  | clears (i : Fin n)
  | counts (i : Fin n)
  | tries (i : Fin n)
  | finishes (i : Fin n)

namespace State

def lockFree (s : State n) : Prop := ∀ i, (s.callers i).holdsLock = false

def successUnderway (s : State n) : Prop := ∃ i, (s.callers i).recordsSuccess

def failureUnderway (s : State n) : Prop := ∃ i, (s.callers i).recordsFailure

instance (s : State n) : Decidable s.lockFree := inferInstanceAs (Decidable (∀ _, _))

instance (s : State n) : Decidable s.successUnderway := inferInstanceAs (Decidable (∃ _, _))

instance (s : State n) : Decidable s.failureUnderway := inferInstanceAs (Decidable (∃ _, _))

def moved (s : State n) (i : Fin n) (caller : Caller) : State n :=
  { s with callers := Function.update s.callers i caller }

def logged (s : State n) (event : Event) : State n :=
  { s with history := s.history ++ [event] }

@[simp] theorem moved_state (s : State n) (i : Fin n) (caller : Caller) :
    (s.moved i caller).state = s.state := rfl

@[simp] theorem moved_failureCount (s : State n) (i : Fin n) (caller : Caller) :
    (s.moved i caller).failureCount = s.failureCount := rfl

@[simp] theorem moved_history (s : State n) (i : Fin n) (caller : Caller) :
    (s.moved i caller).history = s.history := rfl

@[simp] theorem logged_history (s : State n) (event : Event) :
    (s.logged event).history = s.history ++ [event] := rfl

def decided (s : State n) (i : Fin n) : State n :=
  let (state, allowed) := allowRequest s.state s.clock
  ({ s with state := state }.moved i .idle).logged (.asked s.clock allowed)

def cleared (s : State n) (i : Fin n) : State n :=
  ({ s with failureCount := 0 }.moved i .cleared).logged .succeeded

/-- `fetch_add`, which wraps around. -/
def counted (s : State n) (i : Fin n) : State n :=
  let count := (s.failureCount + 1) % 2 ^ 32
  if failureThreshold ≤ count then { s with failureCount := count }.moved i .counted
  else { s with failureCount := count }.logged (.failed s.clock)

/-- `try_write`; a failed one ends the call. -/
def tried (s : State n) (i : Fin n) : Option (State n) :=
  match s.callers i with
  | .cleared => some (s.moved i (if s.lockFree then .closing else .idle))
  | .counted =>
    some (if s.lockFree then s.moved i .opening else (s.moved i .idle).logged (.failed s.clock))
  | _ => none

def finished (s : State n) (i : Fin n) : Option (State n) :=
  match s.callers i with
  | .closing => some ({ s with state := recordSuccess s.state }.moved i .idle)
  | .opening =>
    some (({ s with state := recordFailure s.clock, failureCount := 0 }.moved i .idle).logged
      (.failed s.clock))
  | _ => none

def step (s : State n) : Action n → Option (State n)
  | .passes duration => some { s with clock := s.clock + duration }
  | .asks i => if s.callers i = .idle then some (s.moved i .asking) else none
  | .abandons i => if s.callers i = .asking then some (s.moved i .idle) else none
  | .locks i => if s.callers i = .asking ∧ s.lockFree then some (s.moved i .deciding) else none
  | .decides i => if s.callers i = .deciding then some (s.decided i) else none
  | .clears i => if s.callers i = .idle then some (s.cleared i) else none
  | .counts i => if s.callers i = .idle then some (s.counted i) else none
  | .tries i => s.tried i
  | .finishes i => s.finished i

/-- The cooldown is over and no request has come since. -/
def elapsed (s : State n) : Bool :=
  match s.state with
  | .opened expires => expires ≤ s.clock
  | _ => false

end State

/-- The steps at which the code does what is documented. -/
def Faithful (s : State n) : Action n → Prop
  | .decides _ =>
    (s.state = .halfOpen → s.successUnderway) ∧ (s.elapsed → ¬s.successUnderway)
  | .clears _ => ¬s.failureUnderway
  | .counts _ =>
    ¬s.failureUnderway ∧
      (s.state = .halfOpen → s.successUnderway ∨ failureThreshold ≤ s.failureCount + 1)
  | .tries i =>
    s.lockFree ∨ (s.callers i = .cleared ∧
      (s.state = .halfOpen → ∃ j, j ≠ i ∧ (s.callers j).recordsSuccess))
  | _ => True

instance (s : State n) : (a : Action n) → Decidable (Faithful s a)
  | .passes _ | .asks _ | .abandons _ | .locks _ | .finishes _ => inferInstanceAs (Decidable True)
  | .decides _ => inferInstanceAs (Decidable (_ ∧ _))
  | .clears _ => inferInstanceAs (Decidable (¬_))
  | .counts _ => inferInstanceAs (Decidable (_ ∧ _))
  | .tries _ => inferInstanceAs (Decidable (_ ∨ _))

section Underway
variable {callers : Fin n → Caller} {i : Fin n} {caller : Caller} {p : Caller → Bool}

theorem exists_update_of_eq (same : p (callers i) = p caller) :
    (∃ j, p (Function.update callers i caller j)) ↔ ∃ j, p (callers j) := by
  rw [Function.exists_update_iff callers fun _ c => p c = true]
  constructor
  · rintro (here | ⟨j, -, other⟩)
    · exact ⟨i, same.trans here⟩
    · exact ⟨j, other⟩
  · rintro ⟨j, holds⟩
    by_cases here : j = i
    · exact .inl (same.symm.trans (here ▸ holds))
    · exact .inr ⟨j, here, holds⟩

theorem exists_update_of_true (holds : p caller = true) :
    ∃ j, p (Function.update callers i caller j) :=
  ⟨i, by simpa using holds⟩

theorem exists_update_of_false (fails : p caller = false) :
    (∃ j, p (Function.update callers i caller j)) ↔ ∃ j, j ≠ i ∧ p (callers j) := by
  rw [Function.exists_update_iff callers fun _ c => p c = true]
  simp [fails]

end Underway

/-- The documented machine as it stands when the breaker does: a success under
way has already closed it, and a failure under way has not been counted. -/
structure Explains (s : State n) (d : Documented) : Prop where
  state : d.state = if s.state = .halfOpen ∧ s.successUnderway then .closed else s.state
  failures : s.failureCount = d.failures + if s.failureUnderway then 1 else 0
  below : d.failures < failureThreshold
  reached : s.failureUnderway → failureThreshold ≤ s.failureCount
  alone : ∀ i j, (s.callers i).recordsFailure → (s.callers j).recordsFailure → i = j

/-- A task that records nothing, before or after, moves on. -/
theorem Explains.moved {s : State n} {d : Documented} (explains : Explains s d) {i : Fin n}
    {caller : Caller} (success : (s.callers i).recordsSuccess = caller.recordsSuccess)
    (failure : (s.callers i).recordsFailure = caller.recordsFailure) :
    Explains (s.moved i caller) d := by
  have successes : (s.moved i caller).successUnderway ↔ s.successUnderway :=
    exists_update_of_eq success
  have failing : (s.moved i caller).failureUnderway ↔ s.failureUnderway :=
    exists_update_of_eq failure
  have each : ∀ j, ((s.moved i caller).callers j).recordsFailure =
      (s.callers j).recordsFailure := by
    intro j
    by_cases here : j = i
    · subst here
      simp [State.moved, failure]
    · simp [State.moved, here]
  refine ⟨?_, ?_, explains.below, fun underway => explains.reached (failing.mp underway), ?_⟩
  · simpa only [State.moved_state, successes] using explains.state
  · simpa only [State.moved_failureCount, failing] using explains.failures
  · intro j k
    rw [each, each]
    exact explains.alone j k

theorem Explains.logged {s : State n} {d : Documented} (explains : Explains s d) (event : Event) :
    Explains (s.logged event) d :=
  ⟨explains.state, explains.failures, explains.below, explains.reached, explains.alone⟩

theorem Explains.restated {s : State n} {d : Documented} (explains : Explains s d)
    (state seen : CircuitState)
    (view : seen = if state = .halfOpen ∧ s.successUnderway then .closed else state) :
    Explains { s with state := state } { d with state := seen } :=
  ⟨view, explains.failures, explains.below, explains.reached, explains.alone⟩

theorem Explains.decided {s : State n} {d : Documented} (explains : Explains s d) {i : Fin n}
    (deciding : s.callers i = .deciding) (faithful : Faithful s (.decides i)) :
    ∃ event next, (s.decided i).history = s.history ++ [event] ∧ d.step event = some next ∧
      Explains (s.decided i) next := by
  obtain ⟨trial, transition⟩ := faithful
  have idles : ∀ {t : State n} {e : Documented}, Explains t e → t.callers = s.callers →
      Explains (t.moved i .idle) e := by
    intro t e related same
    refine related.moved ?_ ?_ <;> rw [same, deciding] <;> rfl
  refine ⟨.asked s.clock (allowRequest s.state s.clock).2, ?_⟩
  have view := explains.state
  cases current : s.state with
  | closed =>
    rw [current] at view
    refine ⟨d, ?_, by simp_all [allowRequest, Documented.step], ?_⟩
    · simp [State.decided, current, allowRequest]
    · have kept := (idles explains rfl).logged (.asked s.clock true)
      simpa [State.decided, current, allowRequest, State.moved, State.logged] using kept
  | opened expires =>
    rw [current] at view
    have shut : d.state = .opened expires := by simpa using view
    by_cases cooled : expires ≤ s.clock
    · have none_underway : ¬s.successUnderway := transition (by simp [State.elapsed, current, cooled])
      refine ⟨{ d with state := .halfOpen }, ?_, ?_, ?_⟩
      · simp [State.decided, current, allowRequest, cooled]
      · simp [allowRequest, Documented.step, shut, cooled]
      · have half := explains.restated .halfOpen .halfOpen (by simp [none_underway])
        have kept := (idles half rfl).logged (.asked s.clock true)
        simpa [State.decided, current, allowRequest, cooled] using kept
    · refine ⟨d, ?_, by simp [allowRequest, Documented.step, shut, cooled], ?_⟩
      · simp [State.decided, current, allowRequest, cooled]
      · have kept := (idles explains rfl).logged (.asked s.clock false)
        simpa [State.decided, current, allowRequest, cooled, State.moved, State.logged] using kept
  | halfOpen =>
    have closing : s.successUnderway := trial current
    have shut : d.state = .closed := by simpa [current, closing] using view
    refine ⟨d, ?_, by simp [allowRequest, Documented.step, shut], ?_⟩
    · simp [State.decided, current, allowRequest]
    · have kept := (idles explains rfl).logged (.asked s.clock true)
      simpa [State.decided, current, allowRequest, State.moved, State.logged] using kept

theorem Explains.cleared {s : State n} {d : Documented} (explains : Explains s d) {i : Fin n}
    (faithful : Faithful s (.clears i)) :
    ∃ event next, (s.cleared i).history = s.history ++ [event] ∧ d.step event = some next ∧
      Explains (s.cleared i) next := by
  have no_failure : ¬s.failureUnderway := faithful
  have none_failing : ∀ j, (s.callers j).recordsFailure = false := by
    simpa [State.failureUnderway] using no_failure
  have still : ∀ j, ((s.cleared i).callers j).recordsFailure = false := by
    intro j
    by_cases here : j = i
    · subst here
      simp [State.cleared, State.logged, State.moved, Caller.recordsFailure]
    · simpa [State.cleared, State.logged, State.moved, here] using none_failing j
  have underway : (s.cleared i).successUnderway := exists_update_of_true rfl
  have no_failure_after : ¬(s.cleared i).failureUnderway := by
    simp [State.failureUnderway, still]
  refine ⟨.succeeded, _, rfl, rfl, ?_, ?_, ?_, ?_, ?_⟩
  · have view := explains.state
    have same : (s.cleared i).state = s.state := rfl
    rw [same]
    by_cases half : s.state = .halfOpen
    · by_cases closing : s.successUnderway <;> simp_all
    · simp_all
  · rw [if_neg no_failure_after]
    rfl
  · simp [failureThreshold]
  · exact fun failing => absurd failing no_failure_after
  · intro j k failing
    simp [still] at failing

theorem Explains.counted {s : State n} {d : Documented} (explains : Explains s d) {i : Fin n}
    (idle : s.callers i = .idle) (faithful : Faithful s (.counts i)) :
    (∃ event next, (s.counted i).history = s.history ++ [event] ∧ d.step event = some next ∧
      Explains (s.counted i) next) ∨
    ((s.counted i).history = s.history ∧ Explains (s.counted i) d) := by
  obtain ⟨no_failure, half⟩ := faithful
  have none_failing : ∀ j, (s.callers j).recordsFailure = false := by
    simpa [State.failureUnderway] using no_failure
  have count : s.failureCount = d.failures := by simpa [no_failure] using explains.failures
  have below : d.failures < failureThreshold := explains.below
  have small : (s.failureCount + 1) % 2 ^ 32 = d.failures + 1 := by
    rw [count]
    refine Nat.mod_eq_of_lt ?_
    simp only [failureThreshold] at below
    omega
  by_cases enough : failureThreshold ≤ d.failures + 1
  · right
    have counts : s.counted i = { s with failureCount := d.failures + 1 }.moved i .counted := by
      simp only [State.counted, small, if_pos enough]
    rw [counts]
    have failing : ({ s with failureCount := d.failures + 1 }.moved i .counted).failureUnderway :=
      exists_update_of_true rfl
    have successes : ({ s with failureCount := d.failures + 1 }.moved i .counted).successUnderway ↔
        s.successUnderway := exists_update_of_eq (p := Caller.recordsSuccess) (by rw [idle]; rfl)
    refine ⟨rfl, ?_, ?_, below, fun _ => enough, ?_⟩
    · simpa only [State.moved_state, successes] using explains.state
    · simp [failing]
    · intro j k first second
      have only : ∀ m, (({ s with failureCount := d.failures + 1 }.moved i .counted).callers
          m).recordsFailure → m = i := by
        intro m fails
        by_contra other
        simp [State.moved, other, none_failing] at fails
      rw [only j first, only k second]
  · left
    have notHalf : d.state ≠ .halfOpen := by
      intro trial
      have view := explains.state
      by_cases closing : s.state = .halfOpen ∧ s.successUnderway
      · simp [trial, closing] at view
      · rw [if_neg closing, trial] at view
        rcases half view.symm with underway | reaches
        · exact closing ⟨view.symm, underway⟩
        · exact enough (count ▸ reaches)
    have counts : s.counted i =
        { s with failureCount := d.failures + 1 }.logged (.failed s.clock) := by
      simp only [State.counted, small, if_neg enough]
    rw [counts]
    refine ⟨.failed s.clock, { d with failures := d.failures + 1 }, rfl, ?_, ?_⟩
    · simp [Documented.step, notHalf, enough]
    · have more : d.failures + 1 < failureThreshold := Nat.lt_of_not_le enough
      have kept : Explains { s with failureCount := d.failures + 1 }
          { d with failures := d.failures + 1 } := by
        refine ⟨explains.state, ?_, more, fun failing => absurd failing no_failure, explains.alone⟩
        have still : ¬({ s with failureCount := d.failures + 1 } : State n).failureUnderway :=
          no_failure
        simp [still]
      exact kept.logged _

/-- A success leaves, having closed the breaker or leaving it to another one. -/
theorem Explains.leaves {s : State n} {d : Documented} (explains : Explains s d) {i : Fin n}
    {state : CircuitState} (success : (s.callers i).recordsSuccess)
    (closes : state = s.state ∧ (s.state = .halfOpen → ∃ j, j ≠ i ∧ (s.callers j).recordsSuccess) ∨
      state = recordSuccess s.state) :
    Explains ({ s with state := state }.moved i .idle) d := by
  have underway : s.successUnderway := ⟨i, success⟩
  have failure : (s.callers i).recordsFailure = Caller.idle.recordsFailure := by
    cases here : s.callers i <;> simp_all [Caller.recordsSuccess, Caller.recordsFailure]
  have failing : ({ s with state := state }.moved i .idle).failureUnderway ↔ s.failureUnderway :=
    exists_update_of_eq failure
  have others : ({ s with state := state }.moved i .idle).successUnderway ↔
      ∃ j, j ≠ i ∧ (s.callers j).recordsSuccess :=
    exists_update_of_false (p := Caller.recordsSuccess) rfl
  have view := explains.state
  refine ⟨?_, ?_, explains.below, fun underway => explains.reached (failing.mp underway), ?_⟩
  · rw [State.moved_state]
    by_cases half : s.state = .halfOpen
    · rcases closes with ⟨rfl, remains⟩ | rfl
      · have another := others.mpr (remains half)
        simp_all
      · simp_all [recordSuccess]
    · rcases closes with ⟨rfl, -⟩ | rfl <;> simp_all [recordSuccess]
  · simpa only [State.moved_failureCount, failing] using explains.failures
  · have each : ∀ j, (({ s with state := state }.moved i .idle).callers j).recordsFailure =
        (s.callers j).recordsFailure := by
      intro j
      by_cases here : j = i
      · subst here
        simp [State.moved, failure]
      · simp [State.moved, here]
    intro j k
    rw [each, each]
    exact explains.alone j k

theorem Explains.finished {s after : State n} {d : Documented} (explains : Explains s d)
    {i : Fin n} (taken : s.finished i = some after) :
    (∃ event next, after.history = s.history ++ [event] ∧ d.step event = some next ∧
      Explains after next) ∨ (after.history = s.history ∧ Explains after d) := by
  unfold State.finished at taken
  split at taken
  next closing =>
    obtain rfl := Option.some.inj taken
    exact .inr ⟨rfl, explains.leaves (by rw [closing]; rfl) (.inr rfl)⟩
  next opening =>
    obtain rfl := Option.some.inj taken
    have failing : s.failureUnderway := ⟨i, by rw [opening]; rfl⟩
    have count : s.failureCount = d.failures + 1 := by simpa [failing] using explains.failures
    have reached : failureThreshold ≤ d.failures + 1 := count ▸ explains.reached failing
    have others : ∀ j, j ≠ i → (s.callers j).recordsFailure = false := by
      intro j other
      by_contra fails
      exact other (explains.alone j i (by simpa using fails) (by rw [opening]; rfl))
    left
    refine ⟨.failed s.clock, ⟨recordFailure s.clock, 0⟩, rfl, ?_, ?_⟩
    · simp [Documented.step, reached, recordFailure]
    · refine Explains.logged ?_ _
      have none_failing : ∀ j, (({ s with
          state := recordFailure s.clock, failureCount := 0 }.moved i .idle).callers
            j).recordsFailure = false := by
        intro j
        by_cases here : j = i
        · subst here
          simp [State.moved, Caller.recordsFailure]
        · simpa [State.moved, here] using others j here
      have no_failure : ¬({ s with
          state := recordFailure s.clock, failureCount := 0 }.moved i .idle).failureUnderway := by
        simp [State.failureUnderway, none_failing]
      refine ⟨?_, ?_, by simp [failureThreshold], fun fails => absurd fails no_failure, ?_⟩
      · simp [recordFailure]
      · simp [no_failure]
      · intro j k fails
        simp [none_failing] at fails
  next => cases taken

theorem Explains.tried {s after : State n} {d : Documented} (explains : Explains s d) {i : Fin n}
    (faithful : Faithful s (.tries i)) (taken : s.tried i = some after) :
    after.history = s.history ∧ Explains after d := by
  unfold State.tried at taken
  split at taken
  next cleared =>
    obtain rfl := Option.some.inj taken
    refine ⟨rfl, ?_⟩
    by_cases free : s.lockFree
    · rw [if_pos free]
      refine explains.moved ?_ ?_ <;> rw [cleared] <;> rfl
    · rw [if_neg free]
      obtain ⟨-, remains⟩ := faithful.resolve_left free
      exact explains.leaves (by rw [cleared]; rfl) (.inl ⟨rfl, remains⟩)
  next counted =>
    obtain rfl := Option.some.inj taken
    have free : s.lockFree := by
      rcases faithful with free | ⟨cleared, -⟩
      · exact free
      · rw [counted] at cleared
        cases cleared
    rw [if_pos free]
    refine ⟨rfl, explains.moved ?_ ?_⟩ <;> rw [counted] <;> rfl
  next => cases taken

/-- What the history says and where the breaker stands. -/
def Conforms (s : State n) : Prop :=
  ∃ d, Documented.new.replay s.history = some d ∧ Explains s d

theorem Conforms.of_step {s after : State n} {a : Action n} (conforms : Conforms s)
    (faithful : Faithful s a) (taken : s.step a = some after) : Conforms after := by
  obtain ⟨d, replayed, explains⟩ := conforms
  have silent : after.history = s.history ∧ Explains after d → Conforms after := by
    rintro ⟨same, still⟩
    exact ⟨d, by rwa [same], still⟩
  have told : (∃ event next, after.history = s.history ++ [event] ∧ d.step event = some next ∧
      Explains after next) → Conforms after := by
    rintro ⟨event, next, longer, follows, still⟩
    refine ⟨next, ?_, still⟩
    rw [longer, Documented.replay_snoc, replayed]
    exact follows
  cases a with
  | passes duration =>
    obtain rfl := Option.some.inj taken
    exact silent ⟨rfl, ⟨explains.state, explains.failures, explains.below, explains.reached,
      explains.alone⟩⟩
  | asks i =>
    obtain ⟨idle, eq⟩ := Option.ite_none_right_eq_some.mp taken
    obtain rfl := Option.some.inj eq
    refine silent ⟨rfl, explains.moved ?_ ?_⟩ <;> rw [idle] <;> rfl
  | abandons i =>
    obtain ⟨asking, eq⟩ := Option.ite_none_right_eq_some.mp taken
    obtain rfl := Option.some.inj eq
    refine silent ⟨rfl, explains.moved ?_ ?_⟩ <;> rw [asking] <;> rfl
  | locks i =>
    obtain ⟨⟨asking, -⟩, eq⟩ := Option.ite_none_right_eq_some.mp taken
    obtain rfl := Option.some.inj eq
    refine silent ⟨rfl, explains.moved ?_ ?_⟩ <;> rw [asking] <;> rfl
  | decides i =>
    obtain ⟨deciding, eq⟩ := Option.ite_none_right_eq_some.mp taken
    obtain rfl := Option.some.inj eq
    exact told (explains.decided deciding faithful)
  | clears i =>
    obtain ⟨-, eq⟩ := Option.ite_none_right_eq_some.mp taken
    obtain rfl := Option.some.inj eq
    exact told (explains.cleared faithful)
  | counts i =>
    obtain ⟨idle, eq⟩ := Option.ite_none_right_eq_some.mp taken
    obtain rfl := Option.some.inj eq
    exact (explains.counted idle faithful).elim told silent
  | tries i => exact silent (explains.tried faithful taken)
  | finishes i => exact (explains.finished taken).elim told silent

theorem Conforms.initial : Conforms (initial n) := by
  refine ⟨.new, rfl, ?_, ?_, by decide, ?_, ?_⟩
  · simp [CircuitBreaker.initial, Documented.new]
  · simp [CircuitBreaker.initial, Documented.new, State.failureUnderway, Caller.recordsFailure]
  · simp [CircuitBreaker.initial, State.failureUnderway, Caller.recordsFailure]
  · simp [CircuitBreaker.initial, Caller.recordsFailure]

/-- A run of faithful steps is one of the documented machine. -/
theorem replay_isSome {labels : List (Action n)} {s : State n}
    (run : GuardedRun State.step Faithful (initial n) labels s) :
    (Documented.new.replay s.history).isSome := by
  obtain ⟨d, replayed, -⟩ := run.invariant Conforms.initial
    fun _ _ _ faithful taken conforms => conforms.of_step faithful taken
  exact Option.isSome_of_eq_some replayed

/-- Two trials: the first fails and the second succeeds. -/
def twoTrials : List (Action 2) :=
  [.counts 0, .counts 0, .counts 0, .tries 0, .finishes 0, .counts 0, .counts 0, .asks 1,
    .passes cooldown, .locks 1, .decides 1, .asks 1, .counts 0, .tries 0, .finishes 0, .locks 1,
    .decides 1, .passes cooldown, .asks 1, .locks 1, .decides 1, .clears 0, .tries 0, .finishes 0]

theorem replay_isSome_twoTrials :
    ∃ s, GuardedRun State.step Faithful (initial 2) twoTrials s ∧
      s.history = [.failed 0, .failed 0, .failed 0, .failed 0, .failed 0, .asked cooldown true,
        .failed cooldown, .asked cooldown false, .asked (2 * cooldown) true, .succeeded] ∧
      (Documented.new.replay s.history).isSome := by
  have evaluates : (runGuarded State.step Faithful (initial 2) twoTrials).map State.history =
      some [.failed 0, .failed 0, .failed 0, .failed 0, .failed 0, .asked cooldown true,
        .failed cooldown, .asked cooldown false, .asked (2 * cooldown) true, .succeeded] := by
    decide +kernel
  obtain ⟨s, run, history⟩ := GuardedRun.of_eval_map evaluates
  exact ⟨s, run, history, replay_isSome run⟩

/-- Half-open lets a second request pass before the first one's outcome. -/
def secondTrial : List (Action 1) :=
  [.counts 0, .counts 0, .counts 0, .tries 0, .finishes 0, .passes cooldown, .asks 0, .locks 0,
    .decides 0, .asks 0, .locks 0, .decides 0]

theorem not_replay_isSome_secondTrial :
    ¬∀ (n : ℕ) (labels : List (Action n)) (s : State n),
      Run State.step (initial n) labels s → (Documented.new.replay s.history).isSome := by
  intro all
  have evaluates : (runGuarded State.step (fun _ _ => True) (initial 1) secondTrial).map
      State.history = some [.failed 0, .failed 0, .failed 0, .asked cooldown true,
        .asked cooldown true] := by
    decide +kernel
  obtain ⟨s, run, history⟩ := GuardedRun.of_eval_map evaluates
  have explained := all 1 secondTrial s run
  rw [history] at explained
  exact absurd explained (by decide)

end TradingPlatform.CircuitBreaker
