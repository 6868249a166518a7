import TradingPlatform.Engine.CloseReports
import TradingPlatform.Engine.PricedEngine
import TradingPlatform.Engine.SltpEdits

namespace TradingPlatform
open StepRuns

namespace GroupTick

/-- What the SL/TP script gets for the group. -/
def filterGroupId (tick : GroupTick) : GroupId := tick.2.getD ""

def cacheKey (tick : GroupTick) : String := tickKey tick.1.symbol tick.2

/-- A tick that `handle_tick` can hand on. -/
def Heard (tick : GroupTick) : Prop := ∃ subject bid ask, handleTick subject bid ask = some tick

end GroupTick

namespace Store
variable (st : Store)

/-- One of the loops of `check_sltp_triggers.lua`, without its grace period. -/
def crossedBy (symbol : Symbol) (filterGroupId : GroupId) (side : PositionSide)
    (reason : TriggerReason) (inRange : ℚ → Bool) : List PositionId :=
  (st.zrangeByScore reason.index symbol inRange).filterMap fun row =>
    (st.hash row.1).bind fun h =>
      if h.side = some side ∧ (filterGroupId = "" ∨ h.groupId = some filterGroupId) ∧
        h.status = some .OPEN then some row.1 else none

/-- The open positions whose indexed stop loss or take profit the prices have
reached. -/
def crossed (symbol : Symbol) (currentBid currentAsk : ℚ) (filterGroupId : GroupId) :
    List PositionId :=
  st.crossedBy symbol filterGroupId .LONG .SL (fun level => currentBid ≤ level) ++
  st.crossedBy symbol filterGroupId .LONG .TP (fun level => level ≤ currentBid) ++
  st.crossedBy symbol filterGroupId .SHORT .SL (fun level => level ≤ currentAsk) ++
  st.crossedBy symbol filterGroupId .SHORT .TP (fun level => currentAsk ≤ level)

/-- The triggers that `check_and_trigger` handles. -/
def triggersFor (tick : GroupTick) (now : Millis) : List SltpTrigger :=
  if (st.index .posOpen tick.1.symbol).keys = [] then []
  else st.checkSltpTriggers tick.1.symbol tick.1.bid tick.1.ask tick.filterGroupId now

/-- `determine_exit_price` -/
def exitPrice (tick : GroupTick) (p : PositionId) : ℚ :=
  match (st.hash p).bind (·.side) with
  | some .SHORT => tick.1.ask
  | some .LONG | none => tick.1.bid

def closureArgs (tick : GroupTick) (now : Millis) (p : PositionId) : CloseArgs where
  positionId := p
  exitPrice := st.exitPrice tick p
  closeSize := 0
  timestampMs := now

end Store

/-- Where the loop over the tick subscription is. -/
inductive TickPass
  | idle
  /-- The tick is cached and the SL/TP check is to come. -/
  | checking (tick : GroupTick)
  /-- The triggers `rest` are to be handled. -/
  | closing (tick : GroupTick) (rest : List SltpTrigger)
  deriving DecidableEq

/-- Redis, the cache of the engine, the locks `pos:closing:{id}`, and the one
task that ticks are handled in. -/
structure TickedEngine where
  desk : SltpDesk
  cache : OrderCache
  locks : Finset PositionId
  pass : TickPass

inductive TickedAction
  | desk (a : SltpAction)
  | addPendingOrder (symbol : Symbol) (o : OrderId) (order : Order)
  | removePendingOrder (symbol : Symbol) (o : OrderId)
  | updateOrder (order : Order)
  | receives (subject : String) (bid ask : ℚ)
  | checks (now : Millis)
  | closes (now : Millis)
  | finishes
  | expireLock (p : PositionId)
  /-- The engine starts again with these pending orders. -/
  | restart (pendingOrders : Symbol → Finset OrderId) (orders : OrderId → Option Order)

namespace TickedEngine

/-- The early return of `process_tick`. -/
def skips (cache : OrderCache) (tick : GroupTick) : Bool :=
  cache.getPendingOrders tick.1.symbol = ∅ ∧
    (cache.lastTicks tick.cacheKey).any fun prev => prev.bid = tick.1.bid ∧ prev.ask = tick.1.ask

/-- `trigger_closure`: a close that raises leaves the lock. -/
def triggerClosure (s : TickedEngine) (tick : GroupTick) (now : Millis) (p : PositionId) :
    TickedEngine :=
  if p ∈ s.locks then s
  else
    let outcome := atomicClosePosition s.desk.store (s.desk.store.closureArgs tick now p)
    { s with
      desk := s.desk.afterScript outcome.store
      locks := match outcome with
        | .raised _ => insert p s.locks
        | .success .. | .error .. => s.locks }

/-- `process_tick` up to the orders it fills, which are scripts of their own. -/
def received (s : TickedEngine) (tick : GroupTick) : TickedEngine :=
  if skips s.cache tick then s
  else { s with cache := s.cache.updateTick tick.1 tick.2, pass := .checking tick }

def step (parse : String → Option ParsedF64) (s : TickedEngine) : TickedAction → Option TickedEngine
  | .desk a => (s.desk.step parse a).map fun desk => { s with desk := desk }
  | .addPendingOrder symbol o order =>
    some { s with cache := s.cache.addPendingOrder symbol o order }
  | .removePendingOrder symbol o => some { s with cache := s.cache.removePendingOrder symbol o }
  | .updateOrder order => some { s with cache := s.cache.updateOrder order }
  | .receives subject bid ask =>
    if s.pass = .idle then
      match handleTick subject bid ask with
      | some tick => some (s.received tick)
      | none => some s
    else none
  | .checks now =>
    match s.pass with
    | .checking tick => some { s with pass := .closing tick (s.desk.store.triggersFor tick now) }
    | _ => none
  | .closes now =>
    match s.pass with
    | .closing tick (trigger :: rest) =>
      match trigger.positionId with
      | .uuid _ =>
        some { s.triggerClosure tick now trigger.positionId with pass := .closing tick rest }
      -- the text is no UUID, and the rest is given up
      | .legacy _ => some { s with pass := .idle }
    | _ => none
  | .finishes =>
    match s.pass with
    | .closing _ [] => some { s with pass := .idle }
    | _ => none
  | .expireLock p => some { s with locks := s.locks.erase p }
  | .restart pendingOrders orders =>
    some { s with cache := ⟨pendingOrders, orders, fun _ => none⟩, pass := .idle }

/-- A platform without positions. -/
def start : TickedEngine := ⟨.start, .new, ∅, .idle⟩

/-- The positions after the rest of `process_tick`, uninterrupted. -/
def restOfTick (s : TickedEngine) (tick : GroupTick) (now : Millis) : Store :=
  ((s.desk.store.triggersFor tick now).foldl
    (fun s trigger => s.triggerClosure tick now trigger.positionId) s).desk.store

/-- Whatever tick is skipped, and whenever, the rest of `process_tick` would
close no position. -/
def SkipsUnobservable (s : TickedEngine) : Prop :=
  s.pass = .idle → ∀ tick : GroupTick, tick.Heard → skips s.cache tick = true →
    ∀ now p h, s.desk.store.hash p = some h → h.status = some .OPEN →
      ((s.restOfTick tick now).hash p).bind (·.status) = some .OPEN

/-- The position is reached by the price that the cache has under the key, as
the price of a tick with that key. -/
def Standing (st : Store) (cache : OrderCache) (key : String) (p : PositionId) : Prop :=
  ∃ tick : GroupTick, tick.Heard ∧ tick.cacheKey = key ∧ ∃ prev ∈ cache.lastTicks key,
    p ∈ st.crossed tick.1.symbol prev.bid prev.ask tick.filterGroupId

/-- No order, parameter or edit puts a level in force that the last cached price
has reached, unless the check of that price is still to come; a check finds all
positions that its price has reached, none of them in the grace period; and no
position is locked when it is to be closed. -/
def Prompt (parse : String → Option ParsedF64) (s : TickedEngine) : TickedAction → Prop
  | .desk a => ∀ after ∈ s.desk.step parse a, ∀ key p, Standing after.store s.cache key p →
      Standing s.desk.store s.cache key p ∨ ∃ tick, s.pass = .checking tick ∧ tick.cacheKey = key
  | .checks now => ∀ tick, s.pass = .checking tick →
      ∀ p, Standing s.desk.store s.cache tick.cacheKey p →
        p ∈ s.desk.store.crossed tick.1.symbol tick.1.bid tick.1.ask tick.filterGroupId ∧
          (s.desk.store.index .posOpen tick.1.symbol).keys ≠ [] ∧
            ∀ h ∈ s.desk.store.hash p, h.inGrace now = false
  | .closes _ => ∀ tick trigger rest, s.pass = .closing tick (trigger :: rest) →
      trigger.positionId ∉ s.locks ∧ ∃ n, trigger.positionId = .uuid n
  | .addPendingOrder .. | .removePendingOrder .. | .updateOrder _ | .receives .. | .finishes
  | .expireLock _ | .restart .. => True

end TickedEngine

namespace Store
variable {st after : Store} {symbol : Symbol} {bid ask : ℚ} {g : GroupId} {now : Millis}
  {p : PositionId} {reason : TriggerReason} {side : PositionSide} {inRange : ℚ → Bool}

theorem mem_crossedBy : p ∈ st.crossedBy symbol g side reason inRange ↔
    ∃ h level, st.hash p = some h ∧ st.score reason.index symbol p = some level ∧
      h.side = some side ∧ inRange level = true ∧ (g = "" ∨ h.groupId = some g) ∧
        h.status = some .OPEN := by
  unfold crossedBy
  rw [List.mem_filterMap]
  constructor
  · rintro ⟨⟨p', level⟩, found, kept⟩
    obtain ⟨scored, within⟩ := mem_zrangeByScore.mp found
    obtain ⟨h, stored, passes⟩ := Option.bind_eq_some_iff.mp kept
    split_ifs at passes with all
    obtain rfl := Option.some.inj passes
    exact ⟨h, level, stored, scored, all.1, within, all.2⟩
  · rintro ⟨h, level, stored, scored, ofSide, within, ofGroup, isOpen⟩
    refine ⟨(p, level), mem_zrangeByScore.mpr ⟨scored, within⟩, ?_⟩
    simp [stored, ofSide, ofGroup, isOpen]

theorem mem_crossed : p ∈ st.crossed symbol bid ask g ↔
    ∃ h side reason level, st.hash p = some h ∧ st.score reason.index symbol p = some level ∧
      h.side = some side ∧ TriggerReason.reached reason side bid ask level = true ∧
        (g = "" ∨ h.groupId = some g) ∧ h.status = some .OPEN := by
  simp only [crossed, List.mem_append, mem_crossedBy]
  constructor
  · rintro (((⟨h, level, found⟩ | ⟨h, level, found⟩) | ⟨h, level, found⟩) | ⟨h, level, found⟩)
    · exact ⟨h, .LONG, .SL, level, found⟩
    · exact ⟨h, .LONG, .TP, level, found⟩
    · exact ⟨h, .SHORT, .SL, level, found⟩
    · exact ⟨h, .SHORT, .TP, level, found⟩
  · rintro ⟨h, side, reason, level, found⟩
    cases side <;> cases reason
    · exact .inl (.inl (.inl ⟨h, level, found⟩))
    · exact .inl (.inl (.inr ⟨h, level, found⟩))
    · exact .inl (.inr ⟨h, level, found⟩)
    · exact .inr ⟨h, level, found⟩

/-- The script returns the reached positions that are past their grace period. -/
theorem exists_trigger_iff_mem_crossed :
    (∃ trigger ∈ st.checkSltpTriggers symbol bid ask g now, trigger.positionId = p) ↔
      p ∈ st.crossed symbol bid ask g ∧ ∀ h ∈ st.hash p, h.inGrace now = false := by
  simp only [checkSltpTriggers, List.mem_append, mem_scanTriggers_iff, mem_crossed]
  constructor
  · rintro ⟨trigger, ((⟨h, stored, scored, ofSide, within, qualifies, -⟩ |
      ⟨h, stored, scored, ofSide, within, qualifies, -⟩) |
      ⟨h, stored, scored, ofSide, within, qualifies, -⟩) |
      ⟨h, stored, scored, ofSide, within, qualifies, -⟩, rfl⟩
    all_goals
      refine ⟨⟨h, _, _, _, stored, scored, ofSide, within, qualifies.group, qualifies.status⟩, ?_⟩
      intro h' stored'
      obtain rfl := Option.some.inj (stored.symm.trans stored')
      exact qualifies.grace
  · rintro ⟨⟨h, side, reason, level, stored, scored, ofSide, reached, ofGroup, isOpen⟩, past⟩
    have qualifies : Qualifies h g now := ⟨ofGroup, isOpen, past h stored⟩
    refine ⟨⟨p, reason, level⟩, ?_, rfl⟩
    cases side <;> cases reason
    · exact .inl (.inl (.inl ⟨h, stored, scored, ofSide, reached, qualifies, rfl⟩))
    · exact .inl (.inl (.inr ⟨h, stored, scored, ofSide, reached, qualifies, rfl⟩))
    · exact .inl (.inr ⟨h, stored, scored, ofSide, reached, qualifies, rfl⟩)
    · exact .inr ⟨h, stored, scored, ofSide, reached, qualifies, rfl⟩

theorem triggersFor_eq_nil (now : Millis) {tick : GroupTick}
    (uncrossed : st.crossed tick.1.symbol tick.1.bid tick.1.ask tick.filterGroupId = []) :
    st.triggersFor tick now = [] := by
  unfold triggersFor
  split
  · rfl
  · rw [List.eq_nil_iff_forall_not_mem]
    intro trigger found
    have reached := (exists_trigger_iff_mem_crossed.mp ⟨trigger, found, rfl⟩).1
    rw [uncrossed] at reached
    exact absurd reached List.not_mem_nil

/-- A close of all leaves the position not open, and all others alone. -/
theorem shut_of_close (st : Store) {args : CloseArgs} (whole : args.closeSize = 0) :
    OnlyPosition args.positionId st (atomicClosePosition st args).store ∧
      ∀ h, (atomicClosePosition st args).store.hash args.positionId = some h →
        h.status ≠ some .OPEN := by
  have shuts (h : PositionHash) : (args.fullHash h).status ≠ some .OPEN := by
    unfold CloseArgs.fullHash CloseArgs.fullCloseStatus
    dsimp only
    split <;> simp
  unfold atomicClosePosition
  dsimp only
  cases stored : st.hash args.positionId with
  | none =>
    refine ⟨.refl _ _, fun h found => ?_⟩
    cases stored.symm.trans found
  | some h =>
    have actual : args.actualCloseSize (h.size.getD 0) = h.size.getD 0 := if_pos (.inl whole)
    dsimp only
    rw [actual, if_neg (lt_irrefl _), if_pos le_rfl]
    split_ifs with shut
    · refine ⟨.refl _ _, fun h' found => ?_⟩
      obtain rfl := Option.some.inj (stored.symm.trans found)
      exact shut
    · have closed (h' : PositionHash)
          (found : (st.hset args.positionId args.fullHash).hash args.positionId = some h') :
          h'.status ≠ some .OPEN := by
        rw [hash_hset_self] at found
        obtain rfl := Option.some.inj found
        exact shuts _
      cases h.symbol with
      | none => exact ⟨.hset _ _ _, closed⟩
      | some symbol => exact ⟨(OnlyPosition.hset _ _ _).trans (.unindex _ _ _), closed⟩

/-- After a close of all the same positions are reached, but for this one. -/
theorem crossed_close {args : CloseArgs} (whole : args.closeSize = 0)
    (reached : p ∈ (atomicClosePosition st args).store.crossed symbol bid ask g) :
    p ≠ args.positionId ∧ p ∈ st.crossed symbol bid ask g := by
  obtain ⟨only, shut⟩ := shut_of_close st whole
  rw [mem_crossed] at reached ⊢
  obtain ⟨h, side, reason, level, stored, scored, rest⟩ := reached
  have other : p ≠ args.positionId := by
    rintro rfl
    exact shut h stored rest.2.2.2
  rw [only.hash p other] at stored
  rw [only.score _ _ p other] at scored
  exact ⟨other, h, side, reason, level, stored, scored, rest⟩

end Store

namespace TickPass

/-- The pass is going to deal with the position for ticks with the key. -/
def Awaits (pass : TickPass) (key : String) (p : PositionId) : Prop :=
  match pass with
  | .idle => False
  | .checking tick => tick.cacheKey = key
  | .closing tick rest => tick.cacheKey = key ∧ p ∈ rest.map (·.positionId)

end TickPass

namespace TickedEngine
variable {parse : String → Option ParsedF64} {s after : TickedEngine}

/-- A position that a cached price has reached is about to be closed. -/
def Watched (s : TickedEngine) : Prop :=
  ∀ key p, Standing s.desk.store s.cache key p → s.pass.Awaits key p

theorem not_standing_new {st : Store} {cache : OrderCache} {key : String} {p : PositionId}
    (unheard : cache.lastTicks key = none) : ¬Standing st cache key p := by
  rintro ⟨tick, -, -, prev, cached, -⟩
  rw [unheard] at cached
  cases cached

theorem Watched.start : start.Watched := fun _ _ standing => absurd standing (not_standing_new rfl)

/-- What stands at a cached price depends on the store and the last ticks. -/
theorem Watched.of_eq (watched : s.Watched) (store : after.desk.store = s.desk.store)
    (ticks : after.cache.lastTicks = s.cache.lastTicks) (pass : after.pass = s.pass) :
    after.Watched := by
  intro key p standing
  rw [pass]
  refine watched key p ?_
  unfold Standing at standing ⊢
  rwa [store, ticks] at standing

theorem Watched.desk {desk : SltpDesk} (watched : s.Watched)
    (prompt : ∀ key p, Standing desk.store s.cache key p → Standing s.desk.store s.cache key p ∨
      ∃ tick, s.pass = .checking tick ∧ tick.cacheKey = key) :
    ({ s with desk := desk } : TickedEngine).Watched := by
  intro key p standing
  rcases prompt key p standing with before | ⟨tick, checking, same⟩
  · exact watched key p before
  · simp only [checking]
    exact same

/-- A new price is cached while nothing stands at the other ones. -/
theorem Watched.received (watched : s.Watched) (idle : s.pass = .idle) (tick : GroupTick) :
    (s.received tick).Watched := by
  unfold TickedEngine.received
  split
  · exact watched
  have ticks : (s.cache.updateTick tick.1 tick.2).lastTicks =
      Function.update s.cache.lastTicks tick.cacheKey (some tick.1) := rfl
  intro key p standing
  by_cases own : tick.cacheKey = key
  · exact own
  · obtain ⟨other, heard, keyed, prev, cached, reached⟩ := standing
    rw [ticks, Function.update_of_ne (Ne.symm own)] at cached
    have awaited := watched key p ⟨other, heard, keyed, prev, cached, reached⟩
    rw [idle] at awaited
    exact awaited.elim

/-- The check finds what stands at the price of its tick. -/
theorem Watched.checked (watched : s.Watched) {tick : GroupTick} {now : Millis}
    (checking : s.pass = .checking tick) (prompt : Prompt parse s (.checks now)) :
    ({ s with pass := .closing tick (s.desk.store.triggersFor tick now) } :
      TickedEngine).Watched := by
  intro key p standing
  have keyed : tick.cacheKey = key := by
    have awaited := watched key p standing
    rwa [checking] at awaited
  subst keyed
  obtain ⟨reached, listed, past⟩ := prompt tick checking p standing
  obtain ⟨trigger, found, same⟩ := Store.exists_trigger_iff_mem_crossed.mpr ⟨reached, past⟩
  refine ⟨rfl, List.mem_map.mpr ⟨trigger, ?_, same⟩⟩
  unfold Store.triggersFor
  rwa [if_neg listed]

/-- The first of the triggers is dealt with. -/
theorem Watched.closed (watched : s.Watched) {tick : GroupTick} {trigger : SltpTrigger}
    {rest : List SltpTrigger} (now : Millis) (closing : s.pass = .closing tick (trigger :: rest))
    (free : trigger.positionId ∉ s.locks) :
    ({ s.triggerClosure tick now trigger.positionId with pass := .closing tick rest } :
      TickedEngine).Watched := by
  unfold triggerClosure
  rw [if_neg free]
  rintro key p ⟨other, heard, keyed, prev, cached, reached⟩
  obtain ⟨differ, before⟩ := Store.crossed_close rfl reached
  have awaited := watched key p ⟨other, heard, keyed, prev, cached, before⟩
  rw [closing] at awaited
  obtain ⟨same, member⟩ := awaited
  exact ⟨same, (List.mem_cons.mp member).resolve_left differ⟩

theorem Watched.step {a : TickedAction} (watched : s.Watched) (prompt : Prompt parse s a)
    (taken : s.step parse a = some after) : after.Watched := by
  cases a with
  | desk a =>
    obtain ⟨desk, stepped, rfl⟩ := Option.map_eq_some_iff.mp taken
    exact watched.desk (prompt desk stepped)
  | addPendingOrder symbol o order =>
    obtain rfl := Option.some.inj taken
    exact watched.of_eq rfl rfl rfl
  | removePendingOrder symbol o =>
    obtain rfl := Option.some.inj taken
    exact watched.of_eq rfl rfl rfl
  | updateOrder order =>
    obtain rfl := Option.some.inj taken
    exact watched.of_eq rfl rfl rfl
  | receives subject bid ask =>
    obtain ⟨idle, taken⟩ := Option.ite_none_right_eq_some.mp taken
    split at taken
    next tick handed =>
      obtain rfl := Option.some.inj taken
      exact watched.received idle tick
    next =>
      obtain rfl := Option.some.inj taken
      exact watched
  | checks now =>
    simp only [TickedEngine.step] at taken
    split at taken
    next tick checking =>
      obtain rfl := Option.some.inj taken
      exact watched.checked checking prompt
    next => cases taken
  | closes now =>
    simp only [TickedEngine.step] at taken
    split at taken
    next tick trigger rest closing =>
      obtain ⟨free, n, isUuid⟩ := prompt tick trigger rest closing
      split at taken
      next =>
        obtain rfl := Option.some.inj taken
        exact watched.closed now closing free
      next m isLegacy => cases isUuid.symm.trans isLegacy
    next => cases taken
  | finishes =>
    simp only [TickedEngine.step] at taken
    split at taken
    next tick closing =>
      obtain rfl := Option.some.inj taken
      intro key p standing
      have awaited := watched key p standing
      rw [closing] at awaited
      exact absurd awaited.2 List.not_mem_nil
    next => cases taken
  | expireLock p =>
    obtain rfl := Option.some.inj taken
    exact watched.of_eq rfl rfl rfl
  | restart pendingOrders orders =>
    obtain rfl := Option.some.inj taken
    exact fun _ _ standing => absurd standing (not_standing_new rfl)

/-- While no tick is processed nothing stands at a cached price. -/
theorem Watched.uncrossed (watched : s.Watched) (idle : s.pass = .idle) {tick : GroupTick}
    (heard : tick.Heard) (skipped : skips s.cache tick = true) :
    s.desk.store.crossed tick.1.symbol tick.1.bid tick.1.ask tick.filterGroupId = [] := by
  obtain ⟨-, same⟩ := of_decide_eq_true skipped
  cases cached : s.cache.lastTicks tick.cacheKey with
  | none =>
    rw [cached] at same
    cases same
  | some prev =>
    rw [cached] at same
    obtain ⟨bid, ask⟩ := of_decide_eq_true same
    rw [List.eq_nil_iff_forall_not_mem]
    intro p reached
    rw [← bid, ← ask] at reached
    have awaited := watched tick.cacheKey p ⟨tick, heard, rfl, prev, cached, reached⟩
    rwa [idle] at awaited

theorem Watched.unobservable (watched : s.Watched) : s.SkipsUnobservable := by
  intro idle tick heard skipped now p h stored isOpen
  have none_found := Store.triggersFor_eq_nil now (watched.uncrossed idle heard skipped)
  unfold restOfTick
  rw [none_found, List.foldl_nil, stored]
  exact isOpen

section Examples

/-- A key with one colon is the key of one symbol and group. -/
theorem append_colon_inj {a b c : List Char} (free : ':' ∉ c)
    (same : a ++ ':' :: b = c ++ [':']) : a = c ∧ b = [] := by
  rcases List.append_eq_append_iff.mp same with ⟨t, isC, ends⟩ | ⟨t, isA, ends⟩
  · cases t with
    | nil => exact ⟨by simpa using isC.symm, by simpa using ends⟩
    | cons x t =>
      obtain ⟨rfl, -⟩ := List.cons.inj ends
      exact absurd (by simp [isC]) free
  · cases t with
    | nil => exact ⟨by simpa using isA, by simpa using ends⟩
    | cons x t => simp at ends

theorem normalizeSymbol_of_heard {tick : GroupTick} (heard : tick.Heard) :
    normalizeSymbol tick.1.symbol = tick.1.symbol := by
  obtain ⟨subject, bid, ask, handled⟩ := heard
  unfold handleTick at handled
  obtain ⟨⟨symbol, groupId⟩, -, handled⟩ := Option.bind_eq_some_iff.mp handled
  dsimp only at handled
  split_ifs at handled
  · cases handled
    exact normalizeSymbol_normalizeSymbol symbol
  · cases handled
    exact normalizeSymbol_normalizeSymbol symbol

theorem eq_of_cacheKey {tick : GroupTick} (heard : tick.Heard) (same : tick.cacheKey = "EURUSD:") :
    tick.1.symbol = "EURUSD" ∧ tick.filterGroupId = "" := by
  unfold GroupTick.cacheKey tickKey at same
  rw [normalizeSymbol_of_heard heard] at same
  have letters := congrArg String.toList same
  simp only [String.toList_append] at letters
  have parts : tick.1.symbol.toList ++ ':' :: tick.filterGroupId.toList =
      "EURUSD".toList ++ [':'] := by
    simpa [GroupTick.filterGroupId] using letters
  obtain ⟨symbol, group⟩ := append_colon_inj (by decide) parts
  exact ⟨String.toList_injective symbol, String.toList_injective group⟩

def noNumbers : String → Option ParsedF64 := fun _ => none

/-- A long position with a stop loss at 8. -/
def opensLong : List TickedAction :=
  [.desk (.script (.placeOrder 1 (nettingBuy 1 2 8 20))),
    .desk (.script (.atomicFillOrder ⟨1, 10, 2, 1000, .uuid 1, some 100⟩ [] []))]

/-- A tick between the levels is followed by the same tick. -/
def repeatedTick : List TickedAction :=
  opensLong ++ [.receives "ticks.EURUSD" 10 11, .checks 5000, .finishes] ++
    [.receives "ticks.EURUSD" 10 11]

def quietTick : GroupTick := (⟨"EURUSD", 10, 11⟩, none)

theorem quietTick_handed : handleTick "ticks.EURUSD" 10 11 = some quietTick := by decide +kernel

def isDesk : TickedAction → Bool
  | .desk _ => true
  | _ => false

/-- No order and no tick has come. -/
def Unheard (s : TickedEngine) : Prop := s.cache = .new

theorem Unheard.desk {before after : TickedEngine} {a : TickedAction} (new : before.Unheard)
    (desk : isDesk a = true) (taken : before.step noNumbers a = some after) : after.Unheard := by
  cases a with
  | desk a =>
    obtain ⟨desk, -, rfl⟩ := Option.map_eq_some_iff.mp taken
    exact new
  | _ => cases desk

/-- Without a cached price all steps of the desk are prompt. -/
theorem Unheard.prompt {s : TickedEngine} {a : TickedAction} (new : s.Unheard)
    (desk : isDesk a = true) : Prompt noNumbers s a := by
  cases a with
  | desk a =>
    intro _ _ key _ standing
    have unheard : s.cache.lastTicks key = none := congrArg (OrderCache.lastTicks · key) new
    exact absurd standing (not_standing_new unheard)
  | _ => cases desk

/-- After the long is opened none of its levels is reached. -/
theorem exists_opened : ∃ s,
    GuardedRun (TickedEngine.step noNumbers) (Prompt noNumbers) start opensLong s ∧
      s.cache = .new ∧ s.pass = .idle ∧ s.desk.store.crossed "EURUSD" 10 11 "" = [] := by
  have evaluates : (runGuarded (TickedEngine.step noNumbers) (fun _ a => isDesk a = true) start
      opensLong).map (fun s => (s.pass, s.desk.store.crossed "EURUSD" 10 11 "")) =
      some (.idle, []) := by
    decide +kernel
  obtain ⟨s, run, shown⟩ := GuardedRun.of_eval_map evaluates
  simp only [Prod.mk.injEq] at shown
  have initially : start.Unheard := rfl
  have new : s.Unheard := run.invariant initially fun _ _ _ desk taken new => new.desk desk taken
  have prompt := run.weaken_of_invariant initially
    (fun _ _ _ desk taken new => new.desk desk taken) fun _ _ new desk => new.prompt desk
  exact ⟨s, prompt, new, shown⟩

/-- Its price falls below the stop loss while the position is one second old. -/
def fallsInGrace : List TickedAction :=
  opensLong ++ [.receives "ticks.EURUSD" 7 8, .checks 2000, .finishes]

end Examples

end TickedEngine

end TradingPlatform
