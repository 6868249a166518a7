import Mathlib.Data.Finset.Card
import Mathlib.Data.String.Basic
import TradingPlatform.Library.BroadcastQueues
import TradingPlatform.Library.StepRuns

namespace TradingPlatform.StreamRooms
open StepRuns BroadcastQueues

def roomName (group : Option String) (symbol : String) : String :=
  match group with
  | some grp => "group:" ++ grp ++ ":symbol:" ++ symbol
  | none => "symbol:" ++ symbol

/-- `str::to_uppercase` and the limit of the symbol validator. -/
structure Server where
  toUppercase : String → String
  maxSymbolsPerConnection : ℕ

/-- `SubscribeMessage` -/
structure Message where
  action : String
  symbols : List String
  group : Option String

/-- What the client is sent; the ticks are numbered as they are published. -/
inductive Frame
  | welcome
  | tick (number : ℕ)
  | pong
  | subscribed (symbols : List String)
  | error (error code : String)
  deriving DecidableEq

/-- Where the connection's task is. -/
inductive Phase
  /-- The receiver at `position` is tried next, or the pause after the last one ends. -/
  | polling (position : ℕ)
  /-- `tick` is taken from its receiver and the sink has not accepted it. -/
  | sending (tick position : ℕ)
  /-- A subscribe message is handled; the symbols `rest` are still to come. -/
  | subscribing (group : Option String) (symbols rest : List String)
  deriving DecidableEq

/-- A connection. `wanted` are the groups and symbols that its messages have
asked for and not given up, and `published` says of each tick so far whether its
group and symbol were wanted then. -/
structure State where
  subscribedSymbols : Finset String
  receivers : List (Receiver String ℕ)
  defaultGroup : Option String
  phase : Phase
  frames : List Frame
  wanted : Finset (Option String × String)
  published : List Bool

def initial : State := ⟨∅, [], none, .polling 0, [.welcome], ∅, []⟩

/-- `publishes` is a tick that reaches the rooms, `receives` a text with the rate
limiter's answer and the parsed text or the parser's complaint. -/
inductive Action
  | publishes (group : Option String) (symbol : String)
  | polls
  | sends
  | receives (allowed : Bool) (parsed : Except String Message)
  | pings
  | receivesOther
  | enters
  | responds

/-- What the task does by itself. -/
def Action.Own (a : Action) : Prop := a = .polls ∨ a = .sends ∨ a = .enters ∨ a = .responds

def Phase.taken : Phase → Option ℕ
  | .sending tick _ => some tick
  | .polling _ | .subscribing .. => none

@[simp] theorem Phase.taken_polling (position : ℕ) : (polling position).taken = none := rfl

@[simp] theorem Phase.taken_sending (tick position : ℕ) :
    (sending tick position).taken = some tick := rfl

@[simp] theorem Phase.taken_subscribing (group : Option String) (symbols rest : List String) :
    (subscribing group symbols rest).taken = none := rfl

/-- The task waits in `select!`, where a message may come first. -/
def Phase.AtSelect : Phase → Prop
  | .polling _ | .sending .. => True
  | .subscribing .. => False

instance (phase : Phase) : Decidable phase.AtSelect :=
  match phase with
  | .polling _ => .isTrue trivial
  | .sending .. => .isTrue trivial
  | .subscribing .. => .isFalse id

namespace State

/-- A tick with the next number is sent to a room. -/
def broadcast (s : State) (group : Option String) (symbol : String) : State :=
  { s with
    receivers := publish (roomName group symbol) s.published.length s.receivers
    published := s.published ++ [decide ((group, symbol) ∈ s.wanted)] }

/-- One round of the loop over the receivers, or the end of the loop. -/
def polled (s : State) (position : ℕ) : State :=
  match s.receivers[position]? with
  | none => { s with phase := .polling 0 }
  | some ⟨_, []⟩ => { s with phase := .polling (position + 1) }
  | some ⟨room, tick :: rest⟩ =>
    { s with
      receivers := s.receivers.set position ⟨room, rest⟩
      phase := .sending tick (position + 1) }

/-- The message's branch is done: `select!` starts the other one anew. -/
def answered (s : State) (frames : List Frame) : State :=
  { s with phase := .polling 0, frames := s.frames ++ frames }

def rejected (s : State) (error : String) : State :=
  s.answered [.error error "INVALID_MESSAGE"]

/-- The symbols are removed as the message has them. -/
def unsubscribed (server : Server) (s : State) (symbols : List String) : State :=
  { s with
    subscribedSymbols := s.subscribedSymbols \ symbols.toFinset
    phase := .polling 0
    wanted := s.wanted.filter fun pair => pair.2 ∉ symbols.map server.toUppercase }

/-- `handle_message`, in a subscribe message up to its first symbol. -/
def handled (server : Server) (s : State) (allowed : Bool) (msg : Message) : State :=
  if msg.action = "subscribe" then
    if allowed = false then s.rejected "Rate limit exceeded"
    else if server.maxSymbolsPerConnection < msg.symbols.length then
      s.rejected ("Too many symbols: " ++ toString msg.symbols.length ++ " (max: " ++
        toString server.maxSymbolsPerConnection ++ ")")
    else
      let group := msg.group.or s.defaultGroup
      { s with defaultGroup := group, phase := .subscribing group msg.symbols msg.symbols }
  else if msg.action = "unsubscribe" then s.unsubscribed server msg.symbols
  else s.rejected "Unknown action"

def entered (server : Server) (s : State) (group : Option String) (symbols : List String)
    (symbol : String) (rest : List String) : State :=
  let u := server.toUppercase symbol
  { s with
    subscribedSymbols := insert u s.subscribedSymbols
    receivers := s.receivers ++ [⟨roomName group u, []⟩]
    phase := .subscribing group symbols rest
    wanted := insert (group, u) s.wanted }

def step (server : Server) (s : State) : Action → Option State
  | .publishes group symbol => some (s.broadcast group symbol)
  | .polls =>
    match s.phase with
    | .polling position => some (s.polled position)
    | _ => none
  | .sends =>
    match s.phase with
    | .sending tick position =>
      some { s with phase := .polling position, frames := s.frames ++ [.tick tick] }
    | _ => none
  | .receives allowed parsed =>
    if s.phase.AtSelect then
      match parsed with
      | .ok msg => some (s.handled server allowed msg)
      | .error e => some (s.rejected ("Invalid message format: " ++ e))
    else none
  | .pings => if s.phase.AtSelect then some (s.answered [.pong]) else none
  | .receivesOther => if s.phase.AtSelect then some (s.answered []) else none
  | .enters =>
    match s.phase with
    | .subscribing group symbols (symbol :: rest) =>
      some (s.entered server group symbols symbol rest)
    | _ => none
  | .responds =>
    match s.phase with
    | .subscribing _ symbols [] => some (s.answered [.subscribed symbols])
    | _ => none

/-- How often the client is to be sent a tick. -/
def due (s : State) (tick : ℕ) : ℕ := if s.published[tick]? = some true then 1 else 0

end State

/-- Runs of the task by itself. -/
abbrev OwnRun (server : Server) (s : State) : List Action → State → Prop :=
  GuardedRun (State.step server) (fun _ a => a.Own) s

/-- Each tick is sent once, as soon as the task gets to it, if it was wanted when
it was published, and otherwise never; and the set of symbols holds the wanted
ones, within the limit. -/
structure ExactlyOnce (server : Server) (s : State) : Prop where
  neverMore : ∀ tick, s.frames.count (.tick tick) ≤ s.due tick
  delivered : ∃ labels later, OwnRun server s labels later ∧
    ∀ tick, later.frames.count (.tick tick) = s.due tick
  withinLimit : s.subscribedSymbols.card ≤ server.maxSymbolsPerConnection
  undone : s.subscribedSymbols = s.wanted.image Prod.snd

/-- An unsubscribe message means the same symbols of the set as it has them and
in upper case. -/
def SameSymbols (server : Server) (s : State) (symbols : List String) : Prop :=
  ∀ u ∈ s.subscribedSymbols, u ∈ symbols ↔ u ∈ symbols.map server.toUppercase

/-- A symbol is entered for the first time in its group and there is room for it. -/
def Admissible (server : Server) (s : State) : Phase → Prop
  | .subscribing group _ (symbol :: _) =>
    let u := server.toUppercase symbol
    roomName group u ∉ rooms s.receivers ∧
      (u ∈ s.subscribedSymbols ∨ s.subscribedSymbols.card < server.maxSymbolsPerConnection)
  | _ => True

/-- No tick is published to a room that is left from a subscription given up; no
message comes while a tick is taken; what is unsubscribed is in upper case if the
set has it; and what is subscribed is not held yet and fits. -/
def Orderly (server : Server) (s : State) : Action → Prop
  | .publishes group symbol => roomName group symbol ∈ rooms s.receivers → (group, symbol) ∈ s.wanted
  | .receives _ parsed =>
    s.phase.taken = none ∧ ∀ msg ∈ parsed.toOption, msg.action = "unsubscribe" →
      SameSymbols server s msg.symbols
  | .pings | .receivesOther => s.phase.taken = none
  | .enters => Admissible server s s.phase
  | .polls | .sends | .responds => True

section Copies
variable {server : Server} {s after : State} {tick : ℕ}

/-- The copies of a tick that are sent, taken or queued. -/
def State.copies (s : State) (tick : ℕ) : ℕ :=
  s.frames.count (.tick tick) + (if s.phase.taken = some tick then 1 else 0) +
    queued tick s.receivers

theorem due_broadcast (s : State) (group : Option String) (symbol : String) (tick : ℕ) :
    (s.broadcast group symbol).due tick =
      s.due tick + if tick = s.published.length ∧ (group, symbol) ∈ s.wanted then 1 else 0 := by
  have later : (s.broadcast group symbol).published =
      s.published ++ [decide ((group, symbol) ∈ s.wanted)] := rfl
  unfold State.due
  rw [later]
  rcases Nat.lt_trichotomy tick s.published.length with old | rfl | beyond
  · have different : tick ≠ s.published.length := by omega
    rw [List.getElem?_append_left old]
    simp [different]
  · simp
  · have different : tick ≠ s.published.length := by omega
    have nothing : (s.published ++ [decide ((group, symbol) ∈ s.wanted)])[tick]? = none := by
      simp
      omega
    have nothing_before : s.published[tick]? = none := by
      simp
      omega
    rw [nothing, nothing_before]
    simp [different]

theorem copies_broadcast (s : State) (group : Option String) (symbol : String) (tick : ℕ) :
    (s.broadcast group symbol).copies tick = s.copies tick +
      if tick = s.published.length then (rooms s.receivers).count (roomName group symbol)
      else 0 := by
  have queues : queued tick (s.broadcast group symbol).receivers = _ :=
    queued_publish tick (roomName group symbol) s.published.length s.receivers
  have rest : (s.broadcast group symbol).frames = s.frames ∧
      (s.broadcast group symbol).phase = s.phase := ⟨rfl, rfl⟩
  unfold State.copies
  rw [queues, rest.1, rest.2]
  omega

/-- Sending, answering and skipping move no copy of a tick from one place to
another but by the one that is taken. -/
theorem copies_polled (s : State) {position : ℕ} (polling : s.phase = .polling position)
    (tick : ℕ) : (s.polled position).copies tick = s.copies tick := by
  have free : s.phase.taken = none := by simp [polling]
  unfold State.polled
  split
  · simp [State.copies, free]
  · simp [State.copies, free]
  next room number rest front =>
    have counted := queued_set front tick
    simp only [State.copies, free, Phase.taken_sending, Option.some.injEq, reduceCtorEq, if_false]
    omega

theorem copies_answered (s : State) (free : s.phase.taken = none) {frames : List Frame}
    (notTick : Frame.tick tick ∉ frames) : (s.answered frames).copies tick = s.copies tick := by
  simp [State.copies, State.answered, free, List.count_eq_zero_of_not_mem notTick]

/-- The task by itself neither loses nor adds a copy. -/
theorem copies_of_own {a : Action} (own : a.Own) (taken : s.step server a = some after)
    (tick : ℕ) : after.copies tick = s.copies tick := by
  rcases own with rfl | rfl | rfl | rfl
  · simp only [State.step] at taken
    split at taken
    next position polling =>
      obtain rfl := Option.some.inj taken
      exact copies_polled s polling tick
    next => cases taken
  · simp only [State.step] at taken
    split at taken
    next number position sending =>
      obtain rfl := Option.some.inj taken
      by_cases same : number = tick <;>
        simp [State.copies, sending, same]
    next => cases taken
  · simp only [State.step] at taken
    split at taken
    next group symbols symbol rest subscribing =>
      obtain rfl := Option.some.inj taken
      simp [State.copies, State.entered, subscribing, queued_append_new]
    next => cases taken
  · simp only [State.step] at taken
    split at taken
    next group symbols subscribing =>
      obtain rfl := Option.some.inj taken
      exact copies_answered s (by simp [subscribing]) (by simp)
    next => cases taken

theorem copies_of_ownRun {labels : List Action}
    (run : OwnRun server s labels after) (tick : ℕ) :
    after.copies tick = s.copies tick := by
  induction run with
  | nil => rfl
  | snoc _ own taken ih => exact (copies_of_own own taken tick).trans ih

end Copies

section Draining
variable {server : Server} {s : State}

/-- From any position the loop comes to a tick, or to its end with nothing in
the receivers from there on. -/
theorem exists_scan (server : Server) (remaining : ℕ) (s : State) (position : ℕ)
    (polling : s.phase = .polling position) (left : s.receivers.length - position = remaining) :
    ∃ labels later, OwnRun server s labels later ∧
      ((∃ tick next, later.phase = .sending tick next ∧
          backlog later.receivers < backlog s.receivers) ∨
        (later.phase = .polling 0 ∧ later.receivers = s.receivers ∧
          ∀ r ∈ s.receivers.drop position, r.queue = [])) := by
  have step : s.step server .polls = some (s.polled position) := by simp [State.step, polling]
  have own : Action.polls.Own := .inl rfl
  induction remaining generalizing s position with
  | zero =>
    have beyond : s.receivers.length ≤ position := by omega
    have ends : s.polled position = { s with phase := .polling 0 } := by
      simp [State.polled, List.getElem?_eq_none beyond]
    refine ⟨_, _, .cons own step .nil, .inr ?_⟩
    rw [ends, List.drop_eq_nil_of_le beyond]
    exact ⟨rfl, rfl, fun _ member => absurd member List.not_mem_nil⟩
  | succ remaining ih =>
    have inside : position < s.receivers.length := by omega
    obtain ⟨r, here⟩ : ∃ r, s.receivers[position]? = some r := ⟨_, List.getElem?_eq_getElem inside⟩
    obtain ⟨room, queue⟩ := r
    cases queue with
    | nil =>
      have skips : s.polled position = { s with phase := .polling (position + 1) } := by
        simp [State.polled, here]
      have shorter : s.receivers.length - (position + 1) = remaining := by omega
      obtain ⟨labels, later, run, found⟩ := ih { s with phase := .polling (position + 1) }
        (position + 1) rfl shorter rfl
      refine ⟨_, later, .cons own (step.trans (congrArg some skips)) run, ?_⟩
      refine found.imp_right fun ⟨back, same, empty⟩ => ⟨back, same, fun r member => ?_⟩
      rw [List.drop_eq_getElem_cons inside] at member
      rcases List.mem_cons.mp member with rfl | member
      · obtain ⟨_, at_⟩ := List.getElem?_eq_some_iff.mp here
        rw [at_]
      · exact empty r member
    | cons tick rest =>
      have takes : s.polled position = { s with
          receivers := s.receivers.set position ⟨room, rest⟩
          phase := .sending tick (position + 1) } := by
        simp [State.polled, here]
      refine ⟨_, _, .cons own step .nil, .inl ⟨tick, position + 1, ?_, ?_⟩⟩
      · rw [takes]
      · rw [takes]
        exact backlog_set_lt here

/-- All queues empty and no tick taken. -/
def State.Drained (s : State) : Prop := s.phase.taken = none ∧ ∀ r ∈ s.receivers, r.queue = []

theorem exists_drained_of_polling (server : Server) (bound : ℕ) (s : State) (position : ℕ)
    (polling : s.phase = .polling position) (bounded : backlog s.receivers ≤ bound) :
    ∃ labels later, OwnRun server s labels later ∧ later.Drained := by
  induction bound using Nat.strong_induction_on generalizing s position with
  | _ bound ih =>
    have resume : ∀ middle labels tick next, OwnRun server s labels middle →
        middle.phase = .sending tick next → backlog middle.receivers < backlog s.receivers →
        ∃ labels later, OwnRun server s labels later ∧ later.Drained := by
      intro middle labels tick next run sending fewer
      let sent : State :=
        { middle with phase := .polling next, frames := middle.frames ++ [.tick tick] }
      have sends : middle.step server .sends = some sent := by simp [State.step, sending, sent]
      obtain ⟨rest, later, drains, drained⟩ :=
        ih (backlog middle.receivers) (by omega) sent next rfl le_rfl
      exact ⟨_, later, run.append (.cons (.inr (.inl rfl)) sends drains), drained⟩
    obtain ⟨labels, middle, run, found⟩ := exists_scan server _ s position polling rfl
    rcases found with ⟨tick, next, sending, fewer⟩ | ⟨back, same, -⟩
    · exact resume middle labels tick next run sending fewer
    obtain ⟨again, last, run', found⟩ := exists_scan server _ middle 0 back rfl
    have whole := run.append run'
    rcases found with ⟨tick, next, sending, fewer⟩ | ⟨back', same', empty⟩
    · exact resume last _ tick next whole sending (same ▸ fewer)
    · refine ⟨_, last, whole, by rw [back', Phase.taken_polling], ?_⟩
      rw [same']
      exact empty

/-- Whatever the task is doing, it can come to the end of all ticks. -/
theorem exists_drained (server : Server) (s : State) :
    ∃ labels later, OwnRun server s labels later ∧ later.Drained := by
  cases at_ : s.phase with
  | polling position => exact exists_drained_of_polling server _ s position at_ le_rfl
  | sending tick position =>
    let sent : State :=
      { s with phase := .polling position, frames := s.frames ++ [.tick tick] }
    have sends : s.step server .sends = some sent := by simp [State.step, at_, sent]
    obtain ⟨labels, later, drains, drained⟩ :=
      exists_drained_of_polling server _ sent position rfl le_rfl
    exact ⟨_, later, .cons (.inr (.inl rfl)) sends drains, drained⟩
  | subscribing group symbols rest =>
    induction rest generalizing s with
    | nil =>
      have responds : s.step server .responds = some (s.answered [.subscribed symbols]) := by
        simp [State.step, at_]
      obtain ⟨labels, later, drains, drained⟩ := exists_drained_of_polling server _
        (s.answered [.subscribed symbols]) 0 rfl le_rfl
      exact ⟨_, later, .cons (.inr (.inr (.inr rfl))) responds drains, drained⟩
    | cons symbol rest ih =>
      have enters : s.step server .enters =
          some (s.entered server group symbols symbol rest) := by simp [State.step, at_]
      obtain ⟨labels, later, drains, drained⟩ := ih (s.entered server group symbols symbol rest) rfl
      exact ⟨_, later, .cons (.inr (.inr (.inl rfl))) enters drains, drained⟩

/-- A drained connection has sent every copy. -/
theorem State.Drained.copies (drained : s.Drained) (tick : ℕ) :
    s.copies tick = s.frames.count (.tick tick) := by
  obtain ⟨free, empty⟩ := drained
  simp [State.copies, free, queued_eq_zero empty]

end Draining

section Invariant
variable {server : Server} {s after : State}

/-- What an orderly connection keeps: every due copy is somewhere, each room has
one receiver, and every wanted room has one. -/
structure Inv (server : Server) (s : State) : Prop where
  copies : ∀ tick, s.copies tick = s.due tick
  distinct : (rooms s.receivers).Nodup
  held : ∀ pair ∈ s.wanted, roomName pair.1 pair.2 ∈ rooms s.receivers
  withinLimit : s.subscribedSymbols.card ≤ server.maxSymbolsPerConnection
  undone : s.subscribedSymbols = s.wanted.image Prod.snd

theorem Inv.initial (server : Server) : Inv server initial :=
  ⟨fun tick => by simp [State.copies, State.due, StreamRooms.initial], List.nodup_nil,
    fun _ none => absurd none (Finset.notMem_empty _), Nat.zero_le _, rfl⟩

/-- A tick is queued once if it is wanted, and not at all otherwise. -/
theorem Inv.broadcast {group : Option String} {symbol : String} (holds : Inv server s)
    (orderly : roomName group symbol ∈ rooms s.receivers → (group, symbol) ∈ s.wanted) :
    Inv server (s.broadcast group symbol) := by
  have heard : (rooms s.receivers).count (roomName group symbol) =
      if (group, symbol) ∈ s.wanted then 1 else 0 := by
    split
    next wanted => exact List.count_eq_one_of_mem holds.distinct (holds.held (group, symbol) wanted)
    next unwanted => exact List.count_eq_zero_of_not_mem (mt orderly unwanted)
  have listens : rooms (s.broadcast group symbol).receivers = rooms s.receivers :=
    rooms_publish (roomName group symbol) s.published.length s.receivers
  refine ⟨fun tick => ?_, listens ▸ holds.distinct, fun pair wanted => ?_, holds.withinLimit,
    holds.undone⟩
  · rw [copies_broadcast, due_broadcast, holds.copies tick, heard]
    by_cases new : tick = s.published.length <;> simp [new]
  · rw [listens]
    exact holds.held pair wanted

theorem Inv.polled {position : ℕ} (holds : Inv server s) (polling : s.phase = .polling position) :
    Inv server (s.polled position) := by
  have listens : rooms (s.polled position).receivers = rooms s.receivers := by
    unfold State.polled
    split
    · rfl
    · rfl
    next room tick rest front => exact rooms_set front
  have rest : (s.polled position).published = s.published ∧
      (s.polled position).wanted = s.wanted ∧
        (s.polled position).subscribedSymbols = s.subscribedSymbols := by
    unfold State.polled
    split <;> exact ⟨rfl, rfl, rfl⟩
  obtain ⟨published, wanted, symbols⟩ := rest
  refine ⟨fun tick => ?_, listens ▸ holds.distinct, ?_, ?_, ?_⟩
  · rw [copies_polled s polling, holds.copies tick, State.due, State.due, published]
  · rw [wanted, listens]
    exact holds.held
  · rw [symbols]
    exact holds.withinLimit
  · rw [symbols, wanted]
    exact holds.undone

theorem Inv.answered (holds : Inv server s) (free : s.phase.taken = none) {frames : List Frame}
    (noTick : ∀ tick, Frame.tick tick ∉ frames) : Inv server (s.answered frames) :=
  ⟨fun tick => (copies_answered s free (noTick tick)).trans (holds.copies tick), holds.distinct,
    holds.held, holds.withinLimit, holds.undone⟩

theorem Inv.rejected (holds : Inv server s) (free : s.phase.taken = none) (error : String) :
    Inv server (s.rejected error) :=
  holds.answered free (by simp)

/-- The set gives up exactly what the message means. -/
theorem Inv.unsubscribed {symbols : List String} (holds : Inv server s)
    (free : s.phase.taken = none) (same : SameSymbols server s symbols) :
    Inv server (s.unsubscribed server symbols) := by
  refine ⟨fun tick => ?_, holds.distinct, fun pair wanted => ?_, ?_, ?_⟩
  · have copies := holds.copies tick
    simp only [State.copies, free] at copies
    simpa [State.copies, State.unsubscribed, State.due] using copies
  · exact holds.held pair (Finset.mem_filter.mp wanted).1
  · exact (Finset.card_le_card Finset.sdiff_subset).trans holds.withinLimit
  · ext u
    have listed : u ∈ s.subscribedSymbols ↔ ∃ pair ∈ s.wanted, pair.2 = u := by
      rw [holds.undone, Finset.mem_image]
    simp only [State.unsubscribed, Finset.mem_sdiff, List.mem_toFinset, Finset.mem_image,
      Finset.mem_filter]
    constructor
    · rintro ⟨member, kept⟩
      obtain ⟨pair, wanted, rfl⟩ := listed.mp member
      exact ⟨pair, ⟨wanted, mt (same _ member).mpr kept⟩, rfl⟩
    · rintro ⟨pair, ⟨wanted, kept⟩, rfl⟩
      have member := listed.mpr ⟨pair, wanted, rfl⟩
      exact ⟨member, mt (same _ member).mp kept⟩

theorem Inv.handled {msg : Message} (holds : Inv server s) (free : s.phase.taken = none)
    (allowed : Bool)
    (same : msg.action = "unsubscribe" → SameSymbols server s msg.symbols) :
    Inv server (s.handled server allowed msg) := by
  unfold State.handled
  split_ifs with subscribes refused tooMany unsubscribes
  · exact holds.rejected free _
  · exact holds.rejected free _
  · refine ⟨fun tick => ?_, holds.distinct, holds.held, holds.withinLimit, holds.undone⟩
    have copies := holds.copies tick
    simp only [State.copies, free] at copies
    simpa [State.copies, State.due] using copies
  · exact holds.unsubscribed free (same unsubscribes)
  · exact holds.rejected free _

/-- A new room is listened to by the one receiver that is made for it. -/
theorem Inv.entered {group : Option String} {symbols rest : List String} {symbol : String}
    (holds : Inv server s) (subscribing : s.phase = .subscribing group symbols (symbol :: rest))
    (admissible : Admissible server s s.phase) :
    Inv server (s.entered server group symbols symbol rest) := by
  rw [subscribing] at admissible
  obtain ⟨new, fits⟩ := admissible
  have taken : s.step server .enters = some (s.entered server group symbols symbol rest) := by
    simp [State.step, subscribing]
  have listens : rooms (s.entered server group symbols symbol rest).receivers =
      rooms s.receivers ++ [roomName group (server.toUppercase symbol)] := rooms_append _ _
  have copies := copies_of_own (.inr (.inr (.inl rfl))) taken
  refine ⟨fun tick => (copies tick).trans (holds.copies tick), ?_, fun pair wanted => ?_, ?_, ?_⟩
  · rw [listens, ← List.concat_eq_append]
    exact List.Nodup.concat new holds.distinct
  · rw [listens]
    rcases Finset.mem_insert.mp wanted with rfl | old
    · simp
    · exact List.mem_append_left _ (holds.held pair old)
  · rcases fits with member | room
    · have same : (s.entered server group symbols symbol rest).subscribedSymbols =
          s.subscribedSymbols := Finset.insert_eq_of_mem member
      rw [same]
      exact holds.withinLimit
    · exact (Finset.card_insert_le _ _).trans room
  · simp only [State.entered, Finset.image_insert, holds.undone]

theorem Inv.step {a : Action} (holds : Inv server s) (orderly : Orderly server s a)
    (taken : s.step server a = some after) : Inv server after := by
  cases a with
  | publishes group symbol =>
    obtain rfl := Option.some.inj taken
    exact holds.broadcast orderly
  | polls =>
    simp only [State.step] at taken
    split at taken
    next position polling =>
      obtain rfl := Option.some.inj taken
      exact holds.polled polling
    next => cases taken
  | sends =>
    have copies := copies_of_own (.inr (.inl rfl)) taken
    simp only [State.step] at taken
    split at taken
    next tick position sending =>
      obtain rfl := Option.some.inj taken
      exact ⟨fun tick => (copies tick).trans (holds.copies tick), holds.distinct, holds.held,
        holds.withinLimit, holds.undone⟩
    next => cases taken
  | receives allowed parsed =>
    obtain ⟨free, same⟩ := orderly
    obtain ⟨-, taken⟩ := Option.ite_none_right_eq_some.mp taken
    cases parsed with
    | ok msg =>
      obtain rfl := Option.some.inj taken
      exact holds.handled free allowed (same msg rfl)
    | error e =>
      obtain rfl := Option.some.inj taken
      exact holds.rejected free _
  | pings =>
    obtain ⟨-, taken⟩ := Option.ite_none_right_eq_some.mp taken
    obtain rfl := Option.some.inj taken
    exact holds.answered orderly (by simp)
  | receivesOther =>
    obtain ⟨-, taken⟩ := Option.ite_none_right_eq_some.mp taken
    obtain rfl := Option.some.inj taken
    exact holds.answered orderly (by simp)
  | enters =>
    simp only [State.step] at taken
    split at taken
    next group symbols symbol rest subscribing =>
      obtain rfl := Option.some.inj taken
      exact holds.entered subscribing orderly
    next => cases taken
  | responds =>
    simp only [State.step] at taken
    split at taken
    next group symbols subscribing =>
      obtain rfl := Option.some.inj taken
      exact holds.answered (by simp [subscribing]) (by simp)
    next => cases taken

theorem Inv.exactlyOnce (holds : Inv server s) : ExactlyOnce server s := by
  refine ⟨fun tick => ?_, ?_, holds.withinLimit, holds.undone⟩
  · rw [← holds.copies tick, State.copies, Nat.add_assoc]
    exact Nat.le_add_right _ _
  · obtain ⟨labels, later, run, drained⟩ := exists_drained server s
    refine ⟨labels, later, run, fun tick => ?_⟩
    rw [← drained.copies, copies_of_ownRun run, holds.copies]

end Invariant

section Connections

instance (server : Server) (s : State) (phase : Phase) : Decidable (Admissible server s phase) :=
  match phase with
  | .subscribing _ _ (_ :: _) => inferInstanceAs (Decidable (_ ∧ _))
  | .subscribing _ _ [] => .isTrue trivial
  | .polling _ => .isTrue trivial
  | .sending .. => .isTrue trivial

instance (server : Server) (s : State) (symbols : List String) :
    Decidable (SameSymbols server s symbols) :=
  inferInstanceAs (Decidable (∀ u ∈ s.subscribedSymbols, _))

instance (server : Server) (s : State) (a : Action) : Decidable (Orderly server s a) :=
  match a with
  | .publishes .. => inferInstanceAs (Decidable (_ → _))
  | .receives _ (.ok msg) =>
    decidable_of_iff (s.phase.taken = none ∧
        (msg.action = "unsubscribe" → SameSymbols server s msg.symbols))
      ⟨fun ⟨free, same⟩ => ⟨free, fun _ listed => Option.some.inj listed ▸ same⟩,
        fun ⟨free, same⟩ => ⟨free, same msg rfl⟩⟩
  | .receives _ (.error _) =>
    decidable_of_iff (s.phase.taken = none)
      ⟨fun free => ⟨free, fun _ none => nomatch none⟩, And.left⟩
  | .pings => inferInstanceAs (Decidable (s.phase.taken = none))
  | .receivesOther => inferInstanceAs (Decidable (s.phase.taken = none))
  | .enters => inferInstanceAs (Decidable (Admissible server s s.phase))
  | .polls => .isTrue trivial
  | .sends => .isTrue trivial
  | .responds => .isTrue trivial

/-- An orderly connection gets every wanted tick once and no other. -/
theorem exactlyOnce_of_orderly (server : Server) (labels : List Action) (s : State)
    (run : GuardedRun (State.step server) (Orderly server) initial labels s) :
    ExactlyOnce server s := by
  have holds : Inv server s := run.invariant (.initial server)
    fun _ _ _ orderly taken holds => holds.step orderly taken
  exact holds.exactlyOnce

def upperServer : Server := ⟨fun s => String.ofList (s.toList.map Char.toUpper), 2⟩

/-- A symbol is subscribed for a group, hears a tick and is given up again. -/
def orderlyLabels : List Action :=
  [.receives true (.ok ⟨"subscribe", ["eurusd", "BTCUSD"], some "gold"⟩), .enters, .enters,
    .responds, .publishes (some "gold") "BTCUSD", .publishes none "BTCUSD", .pings, .polls,
    .polls, .sends, .polls, .receives true (.ok ⟨"unsubscribe", ["EURUSD"], none⟩),
    .publishes (some "gold") "BTCUSD"]

theorem exactlyOnce_of_orderly_gold :
    ∃ s, GuardedRun (State.step upperServer) (Orderly upperServer) initial orderlyLabels s ∧
      s.frames.count (.tick 0) = 1 ∧ s.published = [true, false, true] ∧
      ExactlyOnce upperServer s := by
  have evaluates : (runGuarded (State.step upperServer) (Orderly upperServer) initial
      orderlyLabels).map (fun s => (s.frames.count (.tick 0), s.published)) =
      some (1, [true, false, true]) := by
    decide +kernel
  obtain ⟨s, run, shown⟩ := GuardedRun.of_eval_map evaluates
  rw [Prod.mk.injEq] at shown
  obtain ⟨count, published⟩ := shown
  exact ⟨s, run, count, published, exactlyOnce_of_orderly upperServer orderlyLabels s run⟩

/-- A symbol is subscribed twice, and a tick of it is published. -/
def repeatedLabels : List Action :=
  [.receives true (.ok ⟨"subscribe", ["BTCUSD"], none⟩), .enters, .responds,
    .receives true (.ok ⟨"subscribe", ["btcusd"], none⟩), .enters, .responds,
    .publishes none "BTCUSD", .polls, .sends, .polls, .sends]

theorem not_exactlyOnce_repeated :
    ∃ s, Run (State.step upperServer) initial repeatedLabels s ∧ ¬ExactlyOnce upperServer s := by
  have evaluates : (runGuarded (State.step upperServer) (fun _ _ => True) initial
      repeatedLabels).map (fun s => (s.frames.count (.tick 0), s.published)) =
      some (2, [true]) := by
    decide +kernel
  obtain ⟨s, run, shown⟩ := GuardedRun.of_eval_map evaluates
  rw [Prod.mk.injEq] at shown
  obtain ⟨count, published⟩ := shown
  refine ⟨s, run, fun once => ?_⟩
  have bound := once.neverMore 0
  rw [count, State.due, published] at bound
  revert bound
  decide

end Connections

end TradingPlatform.StreamRooms
