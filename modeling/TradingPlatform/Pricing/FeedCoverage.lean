import TradingPlatform.Pricing.FeedSockets

namespace TradingPlatform.FeedSockets
open StepRuns

section Coverage
variable {casing : Casing} {s after : State}

/-- The set, the channel and what the loop knows of together cover every
request. -/
structure Covered (s : State) : Prop where
  inProgress : ∀ u ∈ s.inProgress, u ∈ s.subscribed
  channel : ∀ u ∈ s.channel, u ∈ s.subscribed
  within : ∀ known, s.known = some known → known ⊆ s.subscribed
  covers : s.subscribed.card ≤ maxStreamsPerSocket → ∀ known, s.known = some known →
    ∀ u ∈ s.subscribed, u ∈ known ∨ u ∈ s.inProgress ∨ u ∈ s.channel

theorem Covered.initial : Covered initial := by
  refine ⟨?_, ?_, ?_, ?_⟩ <;> simp [FeedSockets.initial, State.known]

/-- Where the loop knows of nothing, nothing is left to show. -/
theorem Covered.forgets (covered : Covered s) {phase : Phase}
    (unknown : ({ s with phase := phase } : State).known = none) :
    Covered { s with phase := phase } := by
  refine ⟨covered.inProgress, covered.channel, ?_, ?_⟩
  · intro known same
    rw [unknown] at same
    cases same
  · intro _ known same
    rw [unknown] at same
    cases same

theorem Covered.inserted (covered : Covered s) (symbol : String) :
    Covered (s.inserted casing symbol) := by
  unfold State.inserted
  dsimp only
  split
  · exact covered
  next new =>
    refine ⟨?_, ?_, ?_, ?_⟩
    · intro u member
      rcases List.mem_append.mp member with old | own
      · exact Finset.mem_insert_of_mem (covered.inProgress u old)
      · rw [List.mem_singleton.mp own]
        exact Finset.mem_insert_self _ _
    · exact fun u member => Finset.mem_insert_of_mem (covered.channel u member)
    · exact fun known same => (covered.within known same).trans (Finset.subset_insert _ _)
    · intro few known same u member
      rw [Finset.card_insert_of_notMem new] at few
      rcases Finset.mem_insert.mp member with rfl | old
      · exact .inr (.inl (by simp))
      · rcases covered.covers (by omega) known same u old with inKnown | waiting | queued
        · exact .inl inKnown
        · exact .inr (.inl (List.mem_append_left _ waiting))
        · exact .inr (.inr queued)

theorem Covered.sends (covered : Covered s) {call : ℕ} {u : String}
    (ofCall : s.inProgress[call]? = some u) :
    Covered { s with
      inProgress := s.inProgress.eraseIdx call
      channel := s.channel ++ [u] } := by
  have member := List.mem_of_getElem? ofCall
  refine ⟨?_, ?_, covered.within, ?_⟩
  · exact fun other left => covered.inProgress other (List.mem_of_mem_eraseIdx left)
  · intro other queued
    rcases List.mem_append.mp queued with old | own
    · exact covered.channel other old
    · rw [List.mem_singleton.mp own]
      exact covered.inProgress u member
  · intro few known same other requested
    rcases covered.covers few known same other requested with inKnown | waiting | queued
    · exact .inl inKnown
    · by_cases own : other = u
      · exact .inr (.inr (by simp [own]))
      · obtain ⟨i, at_⟩ := List.mem_iff_getElem?.mp waiting
        have elsewhere : i ≠ call := by
          rintro rfl
          exact own (Option.some.inj (at_.symm.trans ofCall))
        exact .inr (.inl (List.mem_eraseIdx_iff_getElem?.mpr ⟨i, elsewhere, at_⟩))
    · exact .inr (.inr (List.mem_append_left _ queued))

/-- A set that holds what is left out of what the loop knew of. -/
theorem Covered.knows (covered : Covered s) {known : Finset String} (same : after.known = some known)
    (subscribed : after.subscribed = s.subscribed) (inProgress : after.inProgress = s.inProgress)
    (channel : ∀ u ∈ after.channel, u ∈ s.channel) (within : known ⊆ s.subscribed)
    (covers : s.subscribed.card ≤ maxStreamsPerSocket → ∀ u ∈ s.subscribed, u ∈ known ∨
      u ∈ s.inProgress ∨ u ∈ after.channel) : Covered after := by
  refine ⟨?_, ?_, ?_, ?_⟩
  · rw [subscribed, inProgress]
    exact covered.inProgress
  · rw [subscribed]
    exact fun u member => covered.channel u (channel u member)
  · intro other otherSame
    rw [same] at otherSame
    obtain rfl := Option.some.inj otherSame
    rw [subscribed]
    exact within
  · intro few other otherSame
    rw [same] at otherSame
    obtain rfl := Option.some.inj otherSame
    rw [subscribed, inProgress]
    rw [subscribed] at few
    exact covers few

theorem mem_firstSymbols {seen : List String} (few : seen.length ≤ maxStreamsPerSocket)
    {u : String} : u ∈ State.firstSymbols seen ↔ u ∈ seen := by
  have whole : State.firstSymbols seen = seen.insertionSort (· ≤ ·) := by
    refine List.take_of_length_le ?_
    rwa [List.length_insertionSort]
  rw [whole, List.mem_insertionSort]

theorem mem_of_mem_firstSymbols {seen : List String} {u : String}
    (member : u ∈ State.firstSymbols seen) : u ∈ seen :=
  (List.mem_insertionSort _).mp (List.mem_of_mem_take member)

theorem mem_arranged {all : List String} (few : all.length ≤ maxStreamsPerSocket) {u : String} :
    u ∈ State.arranged all ↔ u ∈ all := by
  have whole : State.arranged all = (all.insertionSort (· ≤ ·)).dedup := by
    refine List.take_of_length_le ?_
    have shorter := (List.dedup_sublist (all.insertionSort (· ≤ ·))).length_le
    rw [List.length_insertionSort] at shorter
    omega
  rw [whole, List.mem_dedup, List.mem_insertionSort]

theorem mem_of_mem_arranged {all : List String} {u : String} (member : u ∈ State.arranged all) :
    u ∈ all :=
  (List.mem_insertionSort _).mp (List.mem_dedup.mp (List.mem_of_mem_take member))

theorem known_continued (s : State) (all rest : List String) :
    (s.continued all rest).known = some all.toFinset := by
  unfold State.continued
  split <;> rfl

/-- Room is left for every symbol that is not among so many others. -/
theorem card_lt_of_notMem {known subscribed : Finset String} {u : String}
    (within : known ⊆ subscribed) (few : subscribed.card ≤ maxStreamsPerSocket)
    (member : u ∈ subscribed) (new : u ∉ known) : known.card < maxStreamsPerSocket := by
  have more := Finset.card_le_card (Finset.insert_subset member within)
  rw [Finset.card_insert_of_notMem new] at more
  omega

theorem Covered.drained (covered : Covered s) (facts : PhaseFacts casing s) {all : List String}
    (draining : s.phase = .draining all) : Covered (s.drained casing all) := by
  have same : s.known = some all.toFinset := by simp [State.known, draining]
  have within := covered.within _ same
  unfold PhaseFacts at facts
  rw [draining] at facts
  obtain ⟨-, distinct, length⟩ := facts
  unfold State.drained
  split
  next empty =>
    refine covered.knows (known_continued ..) (State.continued_subscribed ..)
      (State.continued_inProgress ..) ?_ ?_ ?_
    · rw [State.continued_channel]
      exact fun _ member => member
    · intro u member
      exact within (List.mem_toFinset.mpr (mem_of_mem_arranged (List.mem_toFinset.mp member)))
    · intro few u requested
      rw [State.continued_channel]
      refine (covered.covers few _ same u requested).imp_left fun member => ?_
      exact List.mem_toFinset.mpr ((mem_arranged length).mpr (List.mem_toFinset.mp member))
  next more rest queued =>
    have moreSubscribed : more ∈ s.subscribed := covered.channel more (by simp [queued])
    refine covered.knows rfl rfl rfl ?_ ?_ ?_
    · intro u member
      rw [queued]
      exact List.mem_cons_of_mem _ member
    · intro u member
      split_ifs at member with adds
      · rw [List.toFinset_append, Finset.mem_union] at member
        rcases member with old | new
        · exact within old
        · have own : u = more := by simpa using new
          exact own ▸ moreSubscribed
      · exact within member
    · intro few u requested
      have before := covered.covers few _ same u requested
      split_ifs with adds
      · rcases before with known | waiting | inChannel
        · exact .inl (by simp [List.mem_toFinset.mp known])
        · exact .inr (.inl waiting)
        · rw [queued] at inChannel
          rcases List.mem_cons.mp inChannel with rfl | later
          · exact .inl (by simp)
          · exact .inr (.inr later)
      · have drawn : more ∈ all := by
          by_contra new
          have room := card_lt_of_notMem within few moreSubscribed
            (fun member => new (List.mem_toFinset.mp member))
          rw [List.toFinset_card_of_nodup distinct] at room
          exact adds ⟨room, new⟩
        rcases before with known | waiting | inChannel
        · exact .inl known
        · exact .inr (.inl waiting)
        · rw [queued] at inChannel
          rcases List.mem_cons.mp inChannel with rfl | later
          · exact .inl (List.mem_toFinset.mpr drawn)
          · exact .inr (.inr later)

theorem Covered.batchSent (covered : Covered s) {all rest : List String}
    (sending : s.phase = .sending all rest) (succeeds : Bool) :
    Covered (s.batchSent succeeds all rest) := by
  have same : s.known = some all.toFinset := by simp [State.known, sending]
  unfold State.batchSent
  cases succeeds with
  | false =>
    exact ⟨covered.inProgress, covered.channel, fun _ none_known => (nomatch none_known),
      fun _ _ none_known => (nomatch none_known)⟩
  | true =>
    refine covered.knows (known_continued ..) (State.continued_subscribed ..)
      (State.continued_inProgress ..) ?_ (covered.within _ same) ?_
    · simp only [if_true, State.continued_channel]
      exact fun _ member => member
    · simp only [if_true, State.continued_channel]
      exact fun few => covered.covers few _ same

theorem Covered.received (covered : Covered s) (waiting : s.phase = .waiting) {u : String}
    {rest : List String} (queued : s.channel = u :: rest) (succeeds : Bool) :
    Covered (s.received casing succeeds u rest) := by
  have same : s.known = some s.sessionActive := by simp [State.known, waiting]
  have within := covered.within _ same
  have requested : u ∈ s.subscribed := covered.channel u (by simp [queued])
  have left : ∀ other ∈ rest, other ∈ s.channel := fun other member => by
    rw [queued]
    exact List.mem_cons_of_mem _ member
  by_cases known : maxStreamsPerSocket ≤ s.sessionActive.card ∨ u ∈ s.sessionActive
  · rw [received_of_known known]
    refine covered.knows (same : ({ s with channel := rest } : State).known = _) rfl rfl left
      within ?_
    intro few other member
    have active : u ∈ s.sessionActive := by
      by_contra new
      have room := card_lt_of_notMem within few requested new
      exact known.elim (Nat.not_le.mpr room) new
    rcases covered.covers few _ same other member with inKnown | inProgress | inChannel
    · exact .inl inKnown
    · exact .inr (.inl inProgress)
    · rw [queued] at inChannel
      rcases List.mem_cons.mp inChannel with rfl | later
      · exact .inl active
      · exact .inr (.inr later)
  · rw [not_or, Nat.not_le] at known
    obtain ⟨room, new⟩ := known
    rw [received_of_new room new]
    cases succeeds with
    | false =>
      exact ⟨covered.inProgress, fun other member => covered.channel other (left other member),
        fun _ none_known => (nomatch none_known), fun _ _ none_known => (nomatch none_known)⟩
    | true =>
      refine covered.knows rfl rfl rfl left (Finset.insert_subset requested within) ?_
      intro few other member
      rcases covered.covers few _ same other member with inKnown | inProgress | inChannel
      · exact .inl (Finset.mem_insert_of_mem inKnown)
      · exact .inr (.inl inProgress)
      · rw [queued] at inChannel
        rcases List.mem_cons.mp inChannel with rfl | later
        · exact .inl (Finset.mem_insert_self _ _)
        · exact .inr (.inr later)

theorem Covered.step {a : Action} (covered : Covered s) (facts : PhaseFacts casing s)
    (taken : s.step casing a = some after) : Covered after := by
  cases a with
  | inserts symbol =>
    obtain rfl := Option.some.inj taken
    exact covered.inserted symbol
  | starts =>
    obtain ⟨-, eq⟩ := Option.ite_none_right_eq_some.mp taken
    obtain rfl := Option.some.inj eq
    exact covered.forgets rfl
  | sends call =>
    simp only [State.step] at taken
    split at taken
    · cases taken
    · obtain ⟨u, ofCall, rfl⟩ := Option.map_eq_some_iff.mp taken
      exact covered.sends ofCall
  | connects succeeds =>
    obtain ⟨-, eq⟩ := Option.ite_none_right_eq_some.mp taken
    obtain rfl := Option.some.inj eq
    cases succeeds with
    | false => exact covered.forgets rfl
    | true =>
      exact covered.knows rfl rfl rfl (fun _ member => member) (Finset.Subset.refl _)
        fun _ _ member => .inl member
  | collects seen =>
    simp only [State.step] at taken
    split at taken
    next started iterating =>
      obtain ⟨⟨distinct, more, within⟩, eq⟩ := Option.ite_none_right_eq_some.mp taken
      obtain rfl := Option.some.inj eq
      have same : s.known = some started := by simp [State.known, iterating]
      refine covered.knows rfl rfl rfl (fun _ member => member) ?_ ?_
      · exact fun u member => within u (mem_of_mem_firstSymbols (List.mem_toFinset.mp member))
      · intro few u member
        refine (covered.covers few _ same u member).imp_left fun inStarted => ?_
        have fewSeen : seen.toFinset.card ≤ s.subscribed.card :=
          Finset.card_le_card fun v inSeen => within v (List.mem_toFinset.mp inSeen)
        rw [List.toFinset_card_of_nodup distinct] at fewSeen
        exact List.mem_toFinset.mpr
          ((mem_firstSymbols (fewSeen.trans few)).mpr (more u inStarted))
    next => cases taken
  | drains =>
    simp only [State.step] at taken
    split at taken
    next all draining =>
      obtain rfl := Option.some.inj taken
      exact covered.drained facts draining
    next => cases taken
  | sendsBatch succeeds =>
    simp only [State.step] at taken
    split at taken
    next all rest sending =>
      obtain rfl := Option.some.inj taken
      exact covered.batchSent sending succeeds
    next => cases taken
  | receives succeeds =>
    simp only [State.step] at taken
    split at taken
    next u rest waiting queued =>
      obtain rfl := Option.some.inj taken
      exact covered.received waiting queued succeeds
    next => cases taken
  | ends =>
    obtain ⟨-, eq⟩ := Option.ite_none_right_eq_some.mp taken
    obtain rfl := Option.some.inj eq
    exact covered.forgets rfl
  | wakes =>
    obtain ⟨-, eq⟩ := Option.ite_none_right_eq_some.mp taken
    obtain rfl := Option.some.inj eq
    exact covered.forgets rfl

end Coverage

section Feeds
variable {casing : Casing} {labels : List Action} {s : State}

structure Inv (casing : Casing) (s : State) : Prop where
  facts : PhaseFacts casing s
  covered : Covered s

theorem Inv.of_run (run : Run (State.step casing) initial labels s) : Inv casing s :=
  run.invariant ⟨rfl, .initial⟩ fun _ _ _ _ taken holds =>
    ⟨holds.facts.step taken, holds.covered.step holds.facts taken⟩

/-- No requested symbol is lost and none is sent twice, in every order of the
steps; and no socket is asked for more streams than the limit. -/
theorem feeds_requested (casing : Casing) (labels : List Action) (s : State)
    (run : Run (State.step casing) initial labels s) :
    s.requested.length ≤ maxStreamsPerSocket ∧
      (s.Quiescent → s.subscribed.card ≤ maxStreamsPerSocket →
        s.sessionActive = s.subscribed ∧
          (s.sent : Multiset String) = s.subscribed.val.map (streamName casing)) := by
  obtain ⟨facts, covered⟩ := Inv.of_run run
  refine ⟨length_requested_le facts, fun quiet few => ?_⟩
  have same : s.known = some s.sessionActive := by simp [State.known, quiet.waiting]
  have all : s.sessionActive = s.subscribed := by
    refine Finset.Subset.antisymm (covered.within _ same) fun u requested => ?_
    rcases covered.covers few _ same u requested with active | inProgress | queued
    · exact active
    · rw [quiet.inProgress] at inProgress
      cases inProgress
    · rw [quiet.channel] at queued
      cases queued
  unfold PhaseFacts at facts
  rw [quiet.waiting] at facts
  obtain ⟨-, streams, succeeded⟩ := facts
  refine ⟨all, ?_⟩
  rw [sent_eq_requested succeeded, streams, all]

def asciiCasing : Casing where
  toUppercase s := String.ofList (s.toList.map Char.toUpper)
  toLowercase s := String.ofList (s.toList.map Char.toLower)

/-- The second symbol is inserted before the loop starts and commanded while
the first socket takes up, which then ends. -/
def reconnecting : List Action :=
  [.inserts "btcusdt", .inserts "EthUsdt", .starts, .connects true, .sends 0,
    .collects ["ETHUSDT", "BTCUSDT"], .drains, .drains, .inserts "BtcUsdt", .sendsBatch true,
    .sends 0, .receives true, .ends, .wakes, .connects false, .wakes, .connects true,
    .collects ["ETHUSDT", "BTCUSDT"], .drains, .sendsBatch true]

theorem feeds_requested_reconnecting :
    ∃ s, Run (State.step asciiCasing) initial reconnecting s ∧
      s.sent = ["btcusdt@bookTicker", "ethusdt@bookTicker"] ∧ s.sessionActive = s.subscribed ∧
      (s.sent : Multiset String) = s.subscribed.val.map (streamName asciiCasing) := by
  have evaluates : (runGuarded (State.step asciiCasing) (fun _ _ => True) initial
      reconnecting).map (fun s => (s.phase, s.channel, s.inProgress, s.subscribed.card, s.sent)) =
      some (.waiting, [], [], 2, ["btcusdt@bookTicker", "ethusdt@bookTicker"]) := by
    decide +kernel
  obtain ⟨s, run, shown⟩ := GuardedRun.of_eval_map evaluates
  obtain ⟨waiting, channel, inProgress, card, sent⟩ := by simpa using shown
  have few : s.subscribed.card ≤ maxStreamsPerSocket := by
    rw [card]
    decide
  have complete := (feeds_requested asciiCasing reconnecting s run).2
    ⟨waiting, channel, inProgress⟩ few
  exact ⟨s, run, sent, complete⟩

end Feeds

end TradingPlatform.FeedSockets
