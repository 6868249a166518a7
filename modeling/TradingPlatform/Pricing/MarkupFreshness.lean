import TradingPlatform.Library.StepRuns
import TradingPlatform.Pricing.PriceLoop

namespace TradingPlatform

open StepRuns

namespace LoopPhase

/-- The groups that the pass works with. -/
def captured : LoopPhase → Option (List String)
  | .waiting => none
  | .symbolsRead _ => none
  | .groupsRead ids _ => some ids
  | .clearing ids _ => some ids
  | .scanning ids _ => some ids
  | .quoted ids _ _ _ => some ids
  | .marking ids _ _ _ _ _ => some ids
  | .published ids _ _ _ => some ids

/-- The pass has compared its groups with those of the pass before. -/
def compared : LoopPhase → Bool
  | .waiting => false
  | .symbolsRead _ => false
  | .groupsRead _ _ => false
  | _ => true

def isClearing : LoopPhase → Bool
  | .clearing _ _ => true
  | _ => false

/-- The symbol that is published but not in the dedup map yet. -/
def justPublished : LoopPhase → Option String
  | .published _ symbol _ _ => some symbol
  | _ => none

end LoopPhase

namespace PriceTasks
variable {s after : PriceTasks} {symbol : String} {raw : Quote}

/-- The groups with the prices that their current markups give. -/
def priced (s : PriceTasks) (symbol : String) (raw : Quote) (ids : List String) :
    List (String × Quote) :=
  ids.map fun g => (g, groupPrice (getMarkup s.markups symbol) g raw)

/-- The last message of a symbol has been computed from a quote with the
current markups of some groups. -/
def CurrentFor (s : PriceTasks) (groups : Finset String) (symbol : String) (raw : Quote) : Prop :=
  ∃ listing : List String, listing.toFinset = groups ∧
    s.lastTick symbol = some ⟨raw, tickPrices raw (s.priced symbol raw listing)⟩

/-- The last message of a symbol has been computed from the current markups and
the current groups. -/
def Current (s : PriceTasks) (symbol : String) : Prop :=
  ∃ raw, s.CurrentFor s.redisGroups symbol raw

/-- After a full pass that began with no change pending, the last messages of
all symbols that it had a quote of are current. -/
def UpToDate (s : PriceTasks) : Prop :=
  ∀ seen, s.settled = some seen → ∀ symbol ∈ seen, s.Current symbol

/-- The loop holds no price that was computed with an outdated markup. -/
def HeldIn (s : PriceTasks) : LoopPhase → Prop
  | .marking _ symbol raw done _ _ => done = s.priced symbol raw (done.map Prod.fst)
  | .published ids symbol raw _ =>
    s.lastTick symbol = some ⟨raw, tickPrices raw (s.priced symbol raw ids)⟩
  | _ => True

instance (s : PriceTasks) : DecidablePred s.HeldIn
  | .marking _ symbol raw done _ _ =>
    inferInstanceAs (Decidable (done = s.priced symbol raw (done.map Prod.fst)))
  | .published ids symbol raw _ => inferInstanceAs (Decidable
      (s.lastTick symbol = some ⟨raw, tickPrices raw (s.priced symbol raw ids)⟩))
  | .waiting => .isTrue trivial
  | .symbolsRead _ => .isTrue trivial
  | .groupsRead _ _ => .isTrue trivial
  | .clearing _ _ => .isTrue trivial
  | .scanning _ _ => .isTrue trivial
  | .quoted _ _ _ _ => .isTrue trivial

/-- The listener will still write the current groups. -/
def WillRefresh (s : PriceTasks) : Prop :=
  s.unannounced = true ∨ 0 < s.messages ∨ s.listener = .taken ∨
    s.listener ≠ .idle ∧ s.listener ≠ .refreshed ∧ s.listener ≠ .read none

instance (s : PriceTasks) : Decidable s.WillRefresh :=
  inferInstanceAs (Decidable (_ ∨ _ ∨ _ ∨ _ ∧ _ ∧ _))

/-- The read of a markup succeeds, or its failure makes no difference. -/
def ReadHarmless (s : PriceTasks) (ok : Bool) : LoopPhase → Prop
  | .marking _ symbol raw _ (g :: _) _ =>
    ok = true ∨ s.Pending ∨ groupPrice (getMarkup s.markups symbol) g raw = raw
  | _ => True

instance (s : PriceTasks) (ok : Bool) : DecidablePred (s.ReadHarmless ok)
  | .marking _ symbol raw _ (g :: _) _ => inferInstanceAs (Decidable
      (ok = true ∨ s.Pending ∨ groupPrice (getMarkup s.markups symbol) g raw = raw))
  | .marking _ _ _ _ [] _ => .isTrue trivial
  | .published _ _ _ _ => .isTrue trivial
  | .waiting => .isTrue trivial
  | .symbolsRead _ => .isTrue trivial
  | .groupsRead _ _ => .isTrue trivial
  | .clearing _ _ => .isTrue trivial
  | .scanning _ _ => .isTrue trivial
  | .quoted _ _ _ _ => .isTrue trivial

/-- No read that matters fails, the listener does not clear the dedup map while
the loop holds an outdated price, and the periodic refresh does not put an
outdated set of groups in the place of the current one. -/
def Undisturbed (s : PriceTasks) : PriceAction → Prop
  | .readMarkup ok => s.ReadHarmless ok s.loop
  | .listenerReads ok =>
    ok = true ∨ s.unannounced = true ∨ 0 < s.messages ∨ s.groups = s.redisGroups
  | .listenerClears => s.unannounced = true ∨ 0 < s.messages ∨ s.HeldIn s.loop
  | .periodicWrites => s.periodic = some s.redisGroups ∨ s.WillRefresh
  | _ => True

instance (s : PriceTasks) : DecidablePred s.Undisturbed
  | .readMarkup ok => inferInstanceAs (Decidable (s.ReadHarmless ok s.loop))
  | .listenerReads ok => inferInstanceAs (Decidable
      (ok = true ∨ s.unannounced = true ∨ 0 < s.messages ∨ s.groups = s.redisGroups))
  | .listenerClears => inferInstanceAs (Decidable
      (s.unannounced = true ∨ 0 < s.messages ∨ s.HeldIn s.loop))
  | .periodicWrites => inferInstanceAs (Decidable
      (s.periodic = some s.redisGroups ∨ s.WillRefresh))
  | .setMarkup _ _ => .isTrue trivial
  | .setGroups _ => .isTrue trivial
  | .announce => .isTrue trivial
  | .quote _ _ => .isTrue trivial
  | .listenerTakes => .isTrue trivial
  | .listenerWrites => .isTrue trivial
  | .periodicReads => .isTrue trivial
  | .readSymbols _ => .isTrue trivial
  | .readGroups _ => .isTrue trivial
  | .checkFingerprint => .isTrue trivial
  | .clearDedup => .isTrue trivial
  | .nextSymbol => .isTrue trivial
  | .readDedup => .isTrue trivial
  | .publish => .isTrue trivial
  | .insertDedup => .isTrue trivial
  | .endPass => .isTrue trivial

/-- What the tasks keep true as long as nothing disturbs them. -/
structure Fresh (s : PriceTasks) : Prop where
  groupsCurrent : ¬s.WillRefresh → s.groups = s.redisGroups
  idsCurrent : s.unannounced = false → s.messages = 0 →
    ∀ ids, s.listener = .read (some ids) → ids = s.redisGroups
  cleanQuiet : s.passClean = true → ¬s.Pending
  settledQuiet : s.settled.isSome = true → ¬s.Pending ∧ (s.passClean = true ∨ s.loop = .waiting)
  captured : s.passClean = true → ∀ ids ∈ s.loop.captured, ids.toFinset = s.redisGroups
  compared : s.loop.compared = true → ∀ ids ∈ s.loop.captured, s.lastGroupFp = ids.toFinset
  inOrder : ∀ ids symbol raw done todo rest, s.loop = .marking ids symbol raw done todo rest →
    done.map Prod.fst ++ todo = ids
  held : ¬s.Pending → s.HeldIn s.loop
  dedupCurrent : ¬s.Pending → s.loop.isClearing = false → ∀ symbol raw,
    s.dedup symbol = some raw → s.loop.justPublished ≠ some symbol →
    s.CurrentFor s.lastGroupFp symbol raw
  seenCurrent : s.passClean = true → ∀ symbol ∈ s.seen, s.Current symbol
  upToDate : s.UpToDate

theorem fresh_started (markups redisGroups feed) : Fresh (started markups redisGroups feed) where
  groupsCurrent _ := rfl
  idsCurrent _ _ _ reading := by cases reading
  cleanQuiet clean := by cases clean
  settledQuiet settled := by cases settled
  captured clean := by cases clean
  compared done := by cases done
  inOrder _ _ _ _ _ _ marking := by cases marking
  held _ := trivial
  dedupCurrent _ _ _ _ stored := by cases stored
  seenCurrent clean := by cases clean
  upToDate _ settled := by cases settled

/-- A change in Redis, or its announcement. -/
theorem Fresh.changes (fresh : Fresh s) (loop : after.loop = s.loop)
    (fp : after.lastGroupFp = s.lastGroupFp) (unclean : after.passClean = false)
    (unsettled : after.settled = none) (pending : after.unannounced = true ∨ 0 < after.messages) :
    Fresh after where
  groupsCurrent quiet := absurd (pending.imp_right .inl) quiet
  idsCurrent announced handled := by
    rcases pending with unannounced | messages
    · rw [announced] at unannounced
      cases unannounced
    · exact absurd handled messages.ne'
  cleanQuiet clean := by rw [unclean] at clean; cases clean
  settledQuiet settled := by rw [unsettled] at settled; cases settled
  captured clean := by rw [unclean] at clean; cases clean
  compared := by rw [loop, fp]; exact fresh.compared
  inOrder := by rw [loop]; exact fresh.inOrder
  held quiet := absurd (pending.imp_right .inl) quiet
  dedupCurrent quiet := absurd (pending.imp_right .inl) quiet
  seenCurrent clean := by rw [unclean] at clean; cases clean
  upToDate _ settled := by rw [unsettled] at settled; cases settled

section Pending

theorem WillRefresh.pending (refresh : s.WillRefresh) : s.Pending := by
  rcases refresh with unannounced | messages | taken | ⟨busy, _⟩
  · exact .inl unannounced
  · exact .inr (.inl messages)
  · exact .inr (.inr (taken ▸ nofun))
  · exact .inr (.inr busy)

theorem Fresh.unclean (fresh : Fresh s) (pending : s.Pending) : s.passClean = false :=
  Bool.eq_false_iff.mpr fun clean => fresh.cleanQuiet clean pending

theorem Fresh.unsettled (fresh : Fresh s) (pending : s.Pending) : s.settled = none := by
  cases settled : s.settled with
  | none => rfl
  | some seen => exact absurd pending (fresh.settledQuiet (by rw [settled]; rfl)).1

/-- The listener goes on with a message. -/
theorem Fresh.listens (fresh : Fresh s) (before : s.Pending) (loop : after.loop = s.loop)
    (fp : after.lastGroupFp = s.lastGroupFp) (clean : after.passClean = s.passClean)
    (settled : after.settled = s.settled) (pending : after.Pending)
    (groupsCurrent : ¬after.WillRefresh → after.groups = after.redisGroups)
    (idsCurrent : after.unannounced = false → after.messages = 0 →
      ∀ ids, after.listener = .read (some ids) → ids = after.redisGroups) : Fresh after where
  groupsCurrent := groupsCurrent
  idsCurrent := idsCurrent
  cleanQuiet isClean := by rw [clean, fresh.unclean before] at isClean; cases isClean
  settledQuiet isSettled := by rw [settled, fresh.unsettled before] at isSettled; cases isSettled
  captured isClean := by rw [clean, fresh.unclean before] at isClean; cases isClean
  compared := by rw [loop, fp]; exact fresh.compared
  inOrder := by rw [loop]; exact fresh.inOrder
  held quiet := absurd pending quiet
  dedupCurrent quiet := absurd pending quiet
  seenCurrent isClean := by rw [clean, fresh.unclean before] at isClean; cases isClean
  upToDate _ isSettled := by rw [settled, fresh.unsettled before] at isSettled; cases isSettled

theorem Fresh.listenerClears (fresh : Fresh s) (refreshed : s.listener = .refreshed)
    (held : s.unannounced = true ∨ 0 < s.messages ∨ s.HeldIn s.loop) :
    Fresh { s with dedup := fun _ => none, listener := .idle } := by
  have before : s.Pending := .inr (.inr (refreshed ▸ nofun))
  have unclean := fresh.unclean before
  have unsettled := fresh.unsettled before
  refine ⟨fun quiet => fresh.groupsCurrent fun refresh => ?_, nofun, ?_, ?_, ?_, fresh.compared,
    fresh.inOrder, fun quiet => ?_, nofun, ?_, ?_⟩
  · rcases refresh with unannounced | messages | taken | ⟨_, other, _⟩
    · exact quiet (.inl unannounced)
    · exact quiet (.inr (.inl messages))
    · rw [refreshed] at taken
      cases taken
    · exact other refreshed
  · intro clean
    rw [unclean] at clean
    cases clean
  · intro settled
    rw [unsettled] at settled
    cases settled
  · intro clean
    rw [unclean] at clean
    cases clean
  · rcases held with unannounced | messages | held
    · exact absurd (.inl unannounced) quiet
    · exact absurd (.inr (.inl messages)) quiet
    · exact held
  · intro clean
    rw [unclean] at clean
    cases clean
  · intro seen settled
    rw [unsettled] at settled
    cases settled

end Pending

section Pass

/-- What a pass that runs says about the last settled one. -/
theorem Fresh.cleanPass (fresh : Fresh s) (running : s.loop ≠ .waiting)
    (settled : s.settled.isSome = true) : ¬s.Pending ∧ s.passClean = true :=
  ⟨(fresh.settledQuiet settled).1, (fresh.settledQuiet settled).2.resolve_right running⟩

/-- The loop goes on and changes nothing but where it is. -/
theorem Fresh.moves (fresh : Fresh s) {l : LoopPhase} (running : s.loop ≠ .waiting)
    (steady : s.loop.isClearing = false ∧ s.loop.justPublished = none)
    (captured : s.passClean = true → ∀ ids ∈ l.captured, ids.toFinset = s.redisGroups)
    (compared : l.compared = true → ∀ ids ∈ l.captured, s.lastGroupFp = ids.toFinset)
    (inOrder : ∀ ids symbol raw done todo rest, l = .marking ids symbol raw done todo rest →
      done.map Prod.fst ++ todo = ids)
    (held : ¬s.Pending → s.HeldIn l) : Fresh { s with loop := l } where
  groupsCurrent := fresh.groupsCurrent
  idsCurrent := fresh.idsCurrent
  cleanQuiet := fresh.cleanQuiet
  settledQuiet settled := (fresh.cleanPass running settled).imp_right .inl
  captured := captured
  compared := compared
  inOrder := inOrder
  held := held
  dedupCurrent quiet _ symbol raw stored _ := by
    refine fresh.dedupCurrent quiet steady.1 symbol raw stored ?_
    rw [steady.2]
    nofun
  seenCurrent := fresh.seenCurrent
  upToDate := fresh.upToDate

theorem Fresh.startsPass (fresh : Fresh s) (waiting : s.loop = .waiting) (symbols : List String) :
    Fresh { s with
      loop := .symbolsRead symbols
      passClean := !decide s.Pending
      seen := [] } where
  groupsCurrent := fresh.groupsCurrent
  idsCurrent := fresh.idsCurrent
  cleanQuiet clean := by
    have quiet : decide s.Pending = false := by simpa using clean
    exact of_decide_eq_false quiet
  settledQuiet settled := by
    have quiet := (fresh.settledQuiet settled).1
    exact ⟨quiet, .inl (by simpa using quiet)⟩
  captured _ _ none := by cases none
  compared done := by cases done
  inOrder _ _ _ _ _ _ marking := by cases marking
  held _ := trivial
  dedupCurrent quiet _ symbol raw stored _ := by
    refine fresh.dedupCurrent quiet ?_ symbol raw stored ?_
    · rw [waiting]
      rfl
    · rw [waiting]
      nofun
  seenCurrent _ _ none := by cases none
  upToDate := fresh.upToDate

theorem Fresh.newGroups (fresh : Fresh s) {ids symbols : List String}
    (reading : s.loop = .groupsRead ids symbols) :
    Fresh { s with lastGroupFp := ids.toFinset, loop := .clearing ids symbols } where
  groupsCurrent := fresh.groupsCurrent
  idsCurrent := fresh.idsCurrent
  cleanQuiet := fresh.cleanQuiet
  settledQuiet settled := (fresh.cleanPass (reading ▸ nofun) settled).imp_right .inl
  captured clean := by
    have before := fresh.captured clean
    rw [reading] at before
    exact before
  compared _ found same := by
    cases same
    rfl
  inOrder _ _ _ _ _ _ marking := by cases marking
  held _ := trivial
  dedupCurrent _ clearing := by cases clearing
  seenCurrent := fresh.seenCurrent
  upToDate := fresh.upToDate

theorem Fresh.clears (fresh : Fresh s) {ids symbols : List String}
    (clearing : s.loop = .clearing ids symbols) :
    Fresh { s with dedup := fun _ => none, loop := .scanning ids symbols } where
  groupsCurrent := fresh.groupsCurrent
  idsCurrent := fresh.idsCurrent
  cleanQuiet := fresh.cleanQuiet
  settledQuiet settled := (fresh.cleanPass (clearing ▸ nofun) settled).imp_right .inl
  captured clean := by
    have before := fresh.captured clean
    rw [clearing] at before
    exact before
  compared _ := by
    have before := fresh.compared (by rw [clearing]; rfl)
    rw [clearing] at before
    exact before
  inOrder _ _ _ _ _ _ marking := by cases marking
  held _ := trivial
  dedupCurrent _ _ _ _ stored := by cases stored
  seenCurrent := fresh.seenCurrent
  upToDate := fresh.upToDate

/-- The dedup map has the quote already. -/
theorem Fresh.skips (fresh : Fresh s) {ids rest : List String}
    (quoted : s.loop = .quoted ids symbol raw rest) (stored : s.dedup symbol = some raw) :
    Fresh { s with loop := .scanning ids rest, seen := symbol :: s.seen } where
  groupsCurrent := fresh.groupsCurrent
  idsCurrent := fresh.idsCurrent
  cleanQuiet := fresh.cleanQuiet
  settledQuiet settled := (fresh.cleanPass (quoted ▸ nofun) settled).imp_right .inl
  captured clean := by
    have before := fresh.captured clean
    rw [quoted] at before
    exact before
  compared _ := by
    have before := fresh.compared (by rw [quoted]; rfl)
    rw [quoted] at before
    exact before
  inOrder _ _ _ _ _ _ marking := by cases marking
  held _ := trivial
  dedupCurrent quiet _ other found held _ := by
    refine fresh.dedupCurrent quiet ?_ other found held ?_
    · rw [quoted]
      rfl
    · rw [quoted]
      nofun
  seenCurrent clean other member := by
    rcases List.mem_cons.mp member with same | before
    · subst same
      have current := fresh.dedupCurrent (fresh.cleanQuiet clean) (by rw [quoted]; rfl) other raw
        stored (by rw [quoted]; nofun)
      rw [fresh.compared (by rw [quoted]; rfl) ids (by rw [quoted]; rfl),
        fresh.captured clean ids (by rw [quoted]; rfl)] at current
      exact ⟨raw, current⟩
    · exact fresh.seenCurrent clean other before
  upToDate := fresh.upToDate

theorem CurrentFor.other {other : String} {groups : Finset String} {found : Quote}
    {message : Option TickMessage} {l : LoopPhase} (differ : other ≠ symbol)
    (current : s.CurrentFor groups other found) :
    CurrentFor { s with lastTick := Function.update s.lastTick symbol message, loop := l } groups
      other found := by
  obtain ⟨listing, same, last⟩ := current
  refine ⟨listing, same, ?_⟩
  dsimp only
  rw [Function.update_of_ne differ, last]
  rfl

theorem Fresh.publishes (fresh : Fresh s) {ids rest : List String} {done : List (String × Quote)}
    (marking : s.loop = .marking ids symbol raw done [] rest) :
    Fresh { s with
      lastTick := Function.update s.lastTick symbol (some ⟨raw, tickPrices raw done⟩)
      loop := .published ids symbol raw rest } := by
  have names : done.map Prod.fst = ids := by
    have order := fresh.inOrder _ _ _ _ _ _ marking
    rw [List.append_nil] at order
    exact order
  have held : ¬s.Pending → done = s.priced symbol raw ids := by
    intro quiet
    have before := fresh.held quiet
    rw [marking, HeldIn, names] at before
    exact before
  have groups : s.passClean = true → ids.toFinset = s.redisGroups := fun clean =>
    fresh.captured clean ids (by rw [marking]; rfl)
  have renewed : s.passClean = true → ∀ other, s.Current other → Current { s with
      lastTick := Function.update s.lastTick symbol (some ⟨raw, tickPrices raw done⟩)
      loop := .published ids symbol raw rest } other := by
    rintro clean other ⟨found, current⟩
    by_cases same : other = symbol
    · subst same
      refine ⟨raw, ids, groups clean, ?_⟩
      dsimp only
      rw [Function.update_self, held (fresh.cleanQuiet clean)]
      rfl
    · exact ⟨found, current.other same⟩
  refine ⟨fresh.groupsCurrent, fresh.idsCurrent, fresh.cleanQuiet,
    fun settled => (fresh.cleanPass (marking ▸ nofun) settled).imp_right .inl, ?_, ?_, nofun, ?_, ?_,
    fun clean other member => renewed clean other (fresh.seenCurrent clean other member), ?_⟩
  · intro clean found same
    cases same
    exact groups clean
  · intro _ found same
    cases same
    exact fresh.compared (by rw [marking]; rfl) ids (by rw [marking]; rfl)
  · intro quiet
    dsimp only [HeldIn]
    rw [Function.update_self, held quiet]
    rfl
  · intro quiet _ other found stored notThis
    have differ : other ≠ symbol := fun same => notThis (same ▸ rfl)
    have before := fresh.dedupCurrent quiet (by rw [marking]; rfl) other found stored
      (by rw [marking]; nofun)
    exact before.other differ
  · intro seen settled other member
    exact renewed (fresh.cleanPass (marking ▸ nofun) (by rw [settled]; rfl)).2 other
      (fresh.upToDate seen settled other member)

theorem Fresh.records (fresh : Fresh s) {ids rest : List String}
    (published : s.loop = .published ids symbol raw rest) :
    Fresh { s with
      dedup := Function.update s.dedup symbol (some raw)
      loop := .scanning ids rest
      seen := symbol :: s.seen } := by
  have current : ¬s.Pending → s.CurrentFor ids.toFinset symbol raw := by
    intro quiet
    have held := fresh.held quiet
    rw [published, HeldIn] at held
    exact ⟨ids, rfl, held⟩
  have fp : s.lastGroupFp = ids.toFinset :=
    fresh.compared (by rw [published]; rfl) ids (by rw [published]; rfl)
  have groups : s.passClean = true → ids.toFinset = s.redisGroups := fun clean =>
    fresh.captured clean ids (by rw [published]; rfl)
  refine ⟨fresh.groupsCurrent, fresh.idsCurrent, fresh.cleanQuiet,
    fun settled => (fresh.cleanPass (published ▸ nofun) settled).imp_right .inl, ?_, ?_, nofun,
    fun _ => trivial, ?_, ?_, fresh.upToDate⟩
  · intro clean found same
    cases same
    exact groups clean
  · intro _ found same
    cases same
    exact fp
  · intro quiet _ other found stored _
    dsimp only at stored ⊢
    by_cases same : other = symbol
    · subst same
      rw [Function.update_self] at stored
      cases stored
      rw [fp]
      exact current quiet
    · rw [Function.update_of_ne same] at stored
      refine fresh.dedupCurrent quiet (by rw [published]; rfl) other found stored ?_
      rw [published]
      exact fun this => same (Option.some.inj this).symm
  · intro clean other member
    rcases List.mem_cons.mp member with same | before
    · subst same
      exact ⟨raw, groups clean ▸ current (fresh.cleanQuiet clean)⟩
    · exact fresh.seenCurrent clean other before

theorem Fresh.endsPass (fresh : Fresh s) {ids : List String}
    (scanning : s.loop = .scanning ids []) :
    Fresh { s with
      loop := .waiting
      settled := if s.passClean = true then some s.seen else s.settled } where
  groupsCurrent := fresh.groupsCurrent
  idsCurrent := fresh.idsCurrent
  cleanQuiet := fresh.cleanQuiet
  settledQuiet settled := by
    refine ⟨?_, .inr rfl⟩
    by_cases clean : s.passClean = true
    · exact fresh.cleanQuiet clean
    · dsimp only at settled
      rw [if_neg clean] at settled
      exact (fresh.settledQuiet settled).1
  captured _ _ none := by cases none
  compared done := by cases done
  inOrder _ _ _ _ _ _ marking := by cases marking
  held _ := trivial
  dedupCurrent quiet _ symbol raw stored _ :=
    fresh.dedupCurrent quiet (by rw [scanning]; rfl) symbol raw stored (by rw [scanning]; nofun)
  seenCurrent := fresh.seenCurrent
  upToDate seen settled symbol member := by
    dsimp only at settled
    by_cases clean : s.passClean = true
    · rw [if_pos clean] at settled
      cases settled
      exact fresh.seenCurrent clean symbol member
    · rw [if_neg clean] at settled
      exact fresh.upToDate seen settled symbol member

end Pass

/-- A read that does not fail, or does no harm, gives the current price. -/
theorem readFor_current {ok : Bool} {g : String}
    (harmless : ok = true ∨ groupPrice (getMarkup s.markups symbol) g raw = raw) :
    groupPrice (s.readFor ok symbol) g raw = groupPrice (getMarkup s.markups symbol) g raw := by
  cases ok with
  | true => rfl
  | false => exact (harmless.resolve_left nofun).symm

theorem Fresh.marks (fresh : Fresh s) {ids todo rest : List String} {g : String} {ok : Bool}
    {done : List (String × Quote)} (marking : s.loop = .marking ids symbol raw done (g :: todo) rest)
    (harmless : s.ReadHarmless ok s.loop) :
    Fresh { s with
      loop := .marking ids symbol raw (done ++ [(g, groupPrice (s.readFor ok symbol) g raw)])
        todo rest } := by
  refine fresh.moves (marking ▸ nofun) (by rw [marking]; exact ⟨rfl, rfl⟩) ?_ ?_ ?_ ?_
  · have before := fresh.captured
    rw [marking] at before
    exact before
  · have before := fresh.compared
    rw [marking] at before
    exact before
  · intro _ _ _ _ _ _ same
    cases same
    have order := fresh.inOrder _ _ _ _ _ _ marking
    rw [List.map_append, List.append_assoc]
    exact order
  · intro quiet
    have held := fresh.held quiet
    rw [marking, HeldIn] at held
    rw [marking, ReadHarmless] at harmless
    have current : groupPrice (s.readFor ok symbol) g raw =
        groupPrice (getMarkup s.markups symbol) g raw :=
      readFor_current (harmless.imp_right fun rest => rest.resolve_left quiet)
    rw [HeldIn, List.map_append, current]
    unfold priced at held ⊢
    rw [List.map_append, ← held]
    rfl

theorem Fresh.step (fresh : Fresh s) {action : PriceAction} (undisturbed : s.Undisturbed action)
    (taken : s.step action = some after) : Fresh after := by
  cases action with
  | setMarkup key markup =>
    cases taken
    exact fresh.changes rfl rfl rfl rfl (.inl rfl)
  | setGroups ids =>
    cases taken
    exact fresh.changes rfl rfl rfl rfl (.inl rfl)
  | announce =>
    cases taken
    exact fresh.changes rfl rfl rfl rfl (.inr (Nat.succ_pos _))
  | quote other quote =>
    cases taken
    exact ⟨fresh.groupsCurrent, fresh.idsCurrent, fresh.cleanQuiet, fresh.settledQuiet,
      fresh.captured, fresh.compared, fresh.inOrder, fresh.held, fresh.dedupCurrent,
      fresh.seenCurrent, fresh.upToDate⟩
  | listenerTakes =>
    simp only [PriceTasks.step] at taken
    split_ifs at taken with ready
    cases taken
    exact fresh.listens (.inr (.inl ready.2)) rfl rfl rfl rfl (.inr (.inr nofun))
      (fun quiet => absurd (.inr (.inr (.inl rfl))) quiet) nofun
  | listenerReads ok =>
    simp only [PriceTasks.step] at taken
    by_cases reading : s.listener = .taken
    swap
    · rw [if_neg reading] at taken
      cases taken
    rw [if_pos reading] at taken
    cases taken
    refine fresh.listens (.inr (.inr (reading ▸ nofun))) rfl rfl rfl rfl (.inr (.inr nofun)) ?_ ?_
    · intro quiet
      rcases undisturbed with rfl | unannounced | messages | current
      · exact absurd (.inr (.inr (.inr ⟨nofun, nofun, nofun⟩))) quiet
      · exact absurd (.inl unannounced) quiet
      · exact absurd (.inr (.inl messages)) quiet
      · exact current
    · intro _ _ ids read
      cases ok with
      | true =>
        cases read
        rfl
      | false => cases read
  | listenerWrites =>
    simp only [PriceTasks.step] at taken
    split at taken
    next ids reading =>
      cases taken
      refine fresh.listens (.inr (.inr (reading ▸ nofun))) rfl rfl rfl rfl (.inr (.inr nofun)) ?_
        nofun
      intro quiet
      have announced : s.unannounced = false := by
        rw [Bool.eq_false_iff]
        exact fun unannounced => quiet (.inl unannounced)
      have handled : s.messages = 0 :=
        Nat.eq_zero_of_not_pos fun messages => quiet (.inr (.inl messages))
      exact fresh.idsCurrent announced handled ids reading
    next reading =>
      cases taken
      refine fresh.listens (.inr (.inr (reading ▸ nofun))) rfl rfl rfl rfl (.inr (.inr nofun)) ?_
        nofun
      intro quiet
      refine fresh.groupsCurrent fun refresh => ?_
      rcases refresh with unannounced | messages | taken | ⟨_, _, other⟩
      · exact quiet (.inl unannounced)
      · exact quiet (.inr (.inl messages))
      · rw [reading] at taken
        cases taken
      · exact other reading
    next => cases taken
  | listenerClears =>
    simp only [PriceTasks.step] at taken
    split_ifs at taken with refreshed
    cases taken
    exact fresh.listenerClears refreshed undisturbed
  | periodicReads =>
    cases taken
    exact ⟨fresh.groupsCurrent, fresh.idsCurrent, fresh.cleanQuiet, fresh.settledQuiet,
      fresh.captured, fresh.compared, fresh.inOrder, fresh.held, fresh.dedupCurrent,
      fresh.seenCurrent, fresh.upToDate⟩
  | periodicWrites =>
    simp only [PriceTasks.step] at taken
    split at taken
    next ids read =>
      cases taken
      refine ⟨fun quiet => ?_, fresh.idsCurrent, fresh.cleanQuiet, fresh.settledQuiet,
        fresh.captured, fresh.compared, fresh.inOrder, fresh.held, fresh.dedupCurrent,
        fresh.seenCurrent, fresh.upToDate⟩
      have current : s.periodic = some s.redisGroups := undisturbed.resolve_right quiet
      rw [read] at current
      exact Option.some.inj current
    next => cases taken
  | readSymbols symbols =>
    simp only [PriceTasks.step] at taken
    split_ifs at taken with waiting
    cases taken
    exact fresh.startsPass waiting symbols
  | readGroups ids =>
    simp only [PriceTasks.step] at taken
    split at taken
    next symbols reading =>
      split_ifs at taken with listing
      cases taken
      refine fresh.moves (reading ▸ nofun) (by rw [reading]; exact ⟨rfl, rfl⟩) ?_ nofun nofun
        fun _ => trivial
      intro clean found same
      cases same
      rw [listing]
      exact fresh.groupsCurrent fun refresh => fresh.cleanQuiet clean refresh.pending
    next => cases taken
  | checkFingerprint =>
    simp only [PriceTasks.step] at taken
    split at taken
    next ids symbols reading =>
      split_ifs at taken with same
      · cases taken
        refine fresh.moves (reading ▸ nofun) (by rw [reading]; exact ⟨rfl, rfl⟩) ?_ ?_ nofun
          fun _ => trivial
        · have before := fresh.captured
          rw [reading] at before
          exact before
        · intro _ found isFound
          cases isFound
          exact same
      · cases taken
        exact fresh.newGroups reading
    next => cases taken
  | clearDedup =>
    simp only [PriceTasks.step] at taken
    split at taken
    next ids symbols clearing =>
      cases taken
      exact fresh.clears clearing
    next => cases taken
  | nextSymbol =>
    simp only [PriceTasks.step] at taken
    split at taken
    next ids symbol rest scanning =>
      have captured := fresh.captured
      have compared := fresh.compared
      rw [scanning] at captured compared
      split at taken
      next raw _ =>
        cases taken
        exact fresh.moves (scanning ▸ nofun) (by rw [scanning]; exact ⟨rfl, rfl⟩) captured compared
          nofun fun _ => trivial
      next =>
        cases taken
        exact fresh.moves (scanning ▸ nofun) (by rw [scanning]; exact ⟨rfl, rfl⟩) captured compared
          nofun fun _ => trivial
    next => cases taken
  | readDedup =>
    simp only [PriceTasks.step] at taken
    split at taken
    next ids symbol raw rest quoted =>
      split_ifs at taken with stored
      · cases taken
        exact fresh.skips quoted stored
      · cases taken
        have captured := fresh.captured
        have compared := fresh.compared
        rw [quoted] at captured compared
        refine fresh.moves (quoted ▸ nofun) (by rw [quoted]; exact ⟨rfl, rfl⟩) captured compared ?_
          fun _ => rfl
        intro _ _ _ _ _ _ same
        cases same
        rfl
    next => cases taken
  | readMarkup ok =>
    simp only [PriceTasks.step] at taken
    split at taken
    next ids symbol raw done g todo rest marking =>
      cases taken
      exact fresh.marks marking undisturbed
    next => cases taken
  | publish =>
    simp only [PriceTasks.step] at taken
    split at taken
    next ids symbol raw done rest marking =>
      cases taken
      exact fresh.publishes marking
    next => cases taken
  | insertDedup =>
    simp only [PriceTasks.step] at taken
    split at taken
    next ids symbol raw rest published =>
      cases taken
      exact fresh.records published
    next => cases taken
  | endPass =>
    simp only [PriceTasks.step] at taken
    split at taken
    next ids scanning =>
      cases taken
      exact fresh.endsPass scanning
    next => cases taken

/-- As long as nothing disturbs the tasks, a full pass that began with no change
pending leaves every symbol with prices from the current markups and groups. -/
theorem upToDate_of_run {markups redisGroups feed} {actions : List PriceAction}
    (run : GuardedRun step Undisturbed (started markups redisGroups feed) actions s) :
    s.UpToDate := by
  have fresh : Fresh s := run.invariant (fresh_started markups redisGroups feed)
    fun _ _ _ undisturbed taken held => held.step undisturbed taken
  exact fresh.upToDate

section Runs

/-- One pass over the symbol with one group. -/
def onePass (symbol group : String) : List PriceAction :=
  [.readSymbols [symbol], .readGroups [group], .checkFingerprint, .clearDedup, .nextSymbol,
    .readDedup, .readMarkup true, .publish, .insertDedup, .endPass]

/-- A pass that finds the quote in the dedup map. -/
def skippingPass (symbol group : String) : List PriceAction :=
  [.readSymbols [symbol], .readGroups [group], .checkFingerprint, .nextSymbol, .readDedup, .endPass]

/-- A quote for EURUSD, and one group without a markup. -/
def quoted : PriceTasks :=
  started (fun _ => none) {"gold"} (Function.update (fun _ => none) "EURUSD" (some ⟨100, 101⟩))

theorem upToDate_of_onePass : ∃ s, GuardedRun step Undisturbed quoted
    (onePass "EURUSD" "gold" ++ skippingPass "EURUSD" "gold") s ∧ s.UpToDate ∧
    s.settled = some ["EURUSD"] := by
  have evaluates : (runGuarded step Undisturbed quoted
      (onePass "EURUSD" "gold" ++ skippingPass "EURUSD" "gold")).map (·.settled) =
      some (some ["EURUSD"]) := by decide +kernel
  obtain ⟨s, reached, settled⟩ := Option.map_eq_some_iff.mp evaluates
  exact ⟨s, .of_eval reached, upToDate_of_run (.of_eval reached), settled⟩

/-- The markup changes between its read and the insert into the dedup map, and
the listener clears the map in between. -/
def clearedTooEarly : List PriceAction :=
  [.readSymbols ["EURUSD"], .readGroups ["gold"], .checkFingerprint, .clearDedup, .nextSymbol,
    .readDedup, .readMarkup true,
    .setMarkup (markupKey "EURUSD" "gold") (some ⟨1, 1⟩), .announce, .listenerTakes,
    .listenerReads true, .listenerWrites, .listenerClears, .publish, .insertDedup, .endPass] ++
  skippingPass "EURUSD" "gold"

/-- The full pass after the change publishes nothing, and the old price stays
in force. -/
theorem clearedTooEarly_outdated :
    ∃ s, Run step quoted clearedTooEarly s ∧ ¬s.Pending ∧ ¬s.UpToDate := by
  have evaluates : (runGuarded step (fun _ _ => True) quoted clearedTooEarly).map (fun s =>
      (s.settled, decide s.Pending, s.markups (markupKey "EURUSD" "gold"),
        s.lastTick "EURUSD")) =
      some (some ["EURUSD"], false, some ⟨1, 1⟩,
        some ⟨⟨100, 101⟩, [("gold", ⟨100, 101⟩)]⟩) := by decide +kernel
  obtain ⟨s, reached, reads⟩ := Option.map_eq_some_iff.mp evaluates
  simp only [Prod.mk.injEq, decide_eq_false_iff_not] at reads
  obtain ⟨settled, quiet, markup, last⟩ := reads
  refine ⟨s, .of_eval reached, quiet, fun upToDate => ?_⟩
  obtain ⟨raw, listing, groups, current⟩ := upToDate _ settled "EURUSD" List.mem_cons_self
  rw [last] at current
  cases listing with
  | nil =>
    have names := congrArg (fun m => m.map fun m => m.prices.map Prod.fst) current
    simp [priced, tickPrices] at names
  | cons g rest =>
    have prices := congrArg (fun m => m.map TickMessage.prices) current
    have raws := congrArg (fun m => m.map TickMessage.raw) current
    simp only [Option.map_some, Option.some.injEq] at prices raws
    subst raws
    simp only [priced, tickPrices, List.map_cons, reduceCtorEq, if_false, List.cons.injEq,
      Prod.mk.injEq] at prices
    obtain ⟨⟨rfl, price⟩, _⟩ := prices
    rw [groupPrice, getMarkup, markup] at price
    revert price
    decide +kernel

end Runs

end PriceTasks

end TradingPlatform
