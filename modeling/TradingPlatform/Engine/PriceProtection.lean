import TradingPlatform.Engine.OrderOrigins
import TradingPlatform.Pricing.PlainSymbols

namespace TradingPlatform

open StepRuns

namespace FillTerms

/-- A limit order fills at its limit or better. -/
def LimitKept (terms : FillTerms) (price : ℚ) : Prop :=
  terms.orderType = .LIMIT → ∃ limit ∈ terms.limitPrice.tonumber,
    match terms.side with
    | .BUY => price ≤ limit
    | .SELL => limit ≤ price

/-- A market order with a snapshot fills within its slippage. -/
def SlippageKept (terms : FillTerms) (price : ℚ) : Prop :=
  terms.orderType = .MARKET → ∀ bid ∈ terms.requestedBid, ∀ ask ∈ terms.requestedAsk,
    ∀ maxBps ∈ terms.maxSlippageBps,
      let reference := match terms.side with
        | .BUY => ask
        | .SELL => bid
      0 < reference → ⌈|price - reference| / reference * 10000⌉ ≤ max 0 maxBps

/-- The price is that of a tick for the order's symbol, of its group or of none. -/
def PriceOf (terms : FillTerms) (price : ℚ) (tick : GroupTick) : Prop :=
  tick.1.symbol = terms.symbol ∧ (∀ g ∈ terms.groupId, ∀ h ∈ tick.2, h = g) ∧
    price = tick.1.fillPrice terms.side

structure Protected (received : List GroupTick) (terms : FillTerms) (price : ℚ) : Prop where
  limit : terms.LimitKept price
  slippage : terms.SlippageKept price
  tick : ∃ tick ∈ received, terms.PriceOf price tick

end FillTerms

section Keys

/-- The first colon tells where the symbol ends. -/
theorem split_at_colon {a b x y : List Char} (plainA : ':' ∉ a) (plainB : ':' ∉ b)
    (same : a ++ ':' :: x = b ++ ':' :: y) : a = b ∧ x = y := by
  induction a generalizing b with
  | nil =>
    cases b with
    | nil => exact ⟨rfl, List.tail_eq_of_cons_eq same⟩
    | cons c b =>
      rw [List.nil_append, List.cons_append, List.cons.injEq] at same
      exact absurd (same.1 ▸ List.mem_cons_self) plainB
  | cons c a ih =>
    cases b with
    | nil =>
      rw [List.nil_append, List.cons_append, List.cons.injEq] at same
      exact absurd (same.1 ▸ List.mem_cons_self) plainA
    | cons d b =>
      rw [List.cons_append, List.cons_append, List.cons.injEq] at same
      rw [List.mem_cons, not_or] at plainA plainB
      obtain ⟨rest, same'⟩ := ih plainA.2 plainB.2 same.2
      exact ⟨by rw [same.1, rest], same'⟩

theorem keyed_inj (front : String) {a b : Symbol} {x y : String} (plainA : ':' ∉ a.toList)
    (plainB : ':' ∉ b.toList) (same : front ++ a ++ ":" ++ x = front ++ b ++ ":" ++ y) :
    a = b ∧ x = y := by
  have lists := congrArg String.toList same
  have colon : ":".toList = [':'] := rfl
  simp only [String.toList_append, colon, List.append_assoc, List.cons_append, List.nil_append,
    List.append_cancel_left_eq] at lists
  obtain ⟨first, second⟩ := split_at_colon plainA plainB lists
  exact ⟨String.ext first, String.ext second⟩

theorem colon_normalizeSymbol {s : Symbol} (plain : ':' ∉ s.toList) :
    ':' ∉ (normalizeSymbol s).toList := by
  rw [toList_normalizeSymbol]
  intro member
  obtain ⟨c, inStripped, upper⟩ := List.mem_map.mp member
  have isColon : c = ':' := by
    by_cases lower : c.isLower
    · have letter : c.toUpper.isAlpha := by
        rw [Char.isAlpha_toUpper_eq_isAlpha]
        simp [Char.isAlpha, lower]
      rw [upper] at letter
      exact absurd letter (by decide)
    · rwa [Char.toUpper_eq_of_not_isLower lower] at upper
  subst isColon
  obtain ⟨before, after, padded, -, -⟩ := exists_strip Char.isWhitespace s.toList
  apply plain
  rw [padded]
  simp [inStripped]

end Keys

/-- A command that the protection can rely on: no colon in its symbol and a
slippage below the greatest `i32`. -/
structure PlaceOrderCommand.Guarded (cmd : PlaceOrderCommand) : Prop where
  symbol : ':' ∉ cmd.symbol.toList
  slippage : ∀ maxBps ∈ cmd.maxSlippageBps, maxBps < 2147483647

/-- Below the greatest `i32` the clamped slippage is the slippage. -/
theorem ceil_le_of_bpsCeiling {d : ℚ} {maxBps : ℤ} (bound : maxBps < 2147483647)
    (within : bpsCeiling d ≤ max maxBps 0) : ⌈d⌉ ≤ max 0 maxBps := by
  unfold bpsCeiling at within
  split_ifs at within with large
  · omega
  · omega

theorem slippageKept_of_passed {order : Order} {price : ℚ}
    (bounded : ∀ maxBps ∈ order.maxSlippageBps, maxBps < 2147483647)
    (passed : ¬ (order.orderType = .MARKET ∧ slippageExceeded order price = true)) :
    order.fillTerms.SlippageKept price := by
  intro isMarket bid hasBid ask hasAsk maxBps hasMax reference positive
  have hasBid' : order.requestedBid = some bid := hasBid
  have hasAsk' : order.requestedAsk = some ask := hasAsk
  have hasMax' : order.maxSlippageBps = some maxBps := hasMax
  have within : slippageExceeded order price = false := by
    by_contra exceeded
    exact passed ⟨isMarket, by simpa using exceeded⟩
  unfold slippageExceeded at within
  refine ceil_le_of_bpsCeiling (bounded maxBps hasMax) ?_
  cases isSide : order.side with
  | BUY =>
    have same : reference = ask := by simp [reference, Order.fillTerms, isSide]
    rw [same] at positive ⊢
    simp only [hasBid', hasAsk', hasMax', isSide, not_le.mpr positive, if_false,
      decide_eq_false_iff_not, not_lt] at within
    exact within
  | SELL =>
    have same : reference = bid := by simp [reference, Order.fillTerms, isSide]
    rw [same] at positive ⊢
    simp only [hasBid', hasAsk', hasMax', isSide, not_le.mpr positive, if_false,
      decide_eq_false_iff_not, not_lt] at within
    exact within

theorem limitKept_of_shouldFill {order : Order} {tick : GroupTick}
    (fills : shouldFill tick.1 tick.2 order = true) :
    order.fillTerms.LimitKept (tick.1.fillPrice order.side) := by
  intro isLimit
  have limitOrder : order.orderType = .LIMIT := isLimit
  unfold shouldFill at fills
  cases limit : order.limitPrice.tonumber with
  | none => simp [limitOrder, limit] at fills
  | some limit' =>
    refine ⟨limit', limit, ?_⟩
    cases isSide : order.side with
    | BUY =>
      simp only [limitOrder, limit, isSide, Bool.and_eq_true, decide_eq_true_eq] at fills
      simpa [Order.fillTerms, isSide, Tick.fillPrice] using fills.2
    | SELL =>
      simp only [limitOrder, limit, isSide, Bool.and_eq_true, decide_eq_true_eq] at fills
      simpa [Order.fillTerms, isSide, Tick.fillPrice] using fills.2

theorem group_of_shouldFill {order : Order} {tick : GroupTick}
    (fills : shouldFill tick.1 tick.2 order = true) : ∀ g ∈ order.groupId, ∀ h ∈ tick.2, h = g := by
  intro g hasGroup h tickGroup
  have ofOrder : order.groupId = some g := hasGroup
  have ofTick : tick.2 = some h := tickGroup
  unfold shouldFill at fills
  simp only [ofOrder, ofTick, Bool.and_eq_true, decide_eq_true_eq] at fills
  exact fills.1.2.symm

namespace PricedEngine

/-- The terms are those of a command. -/
def Known (s : PricedEngine) (terms : FillTerms) : Prop :=
  ∃ cmd ∈ s.commands, cmd.toOrder.fillTerms = terms

/-- The id was sent in a command for the symbol. -/
def SentFor (s : PricedEngine) (o : OrderId) (symbol : Symbol) : Prop :=
  ∃ cmd ∈ s.commands, cmd.orderId = o ∧ normalizeSymbol cmd.symbol = symbol

/-- What the records say of commands, orders, ticks and prices. -/
def facts (s : PricedEngine) : Facts where
  command := (· ∈ s.commands)
  terms := s.Known
  tick := (· ∈ s.received)
  symbol := s.SentFor
  price := FillTerms.Protected s.received

def PriceTaskCarries (s : PricedEngine) : PriceTask → Prop
  | .resolveCached cmd keys =>
    cmd ∈ s.commands ∧ cmd.orderType = .MARKET ∧ ∀ key ∈ keys, key ∈ cmd.tickKeys
  | .resolveQuoted cmd keys =>
    cmd ∈ s.commands ∧ cmd.orderType = .MARKET ∧ ∀ key ∈ keys, key ∈ cmd.quoteKeys
  | .compareTick tick => tick ∈ s.received
  | .setPrice tick ids | .updateTick tick ids => TickRest.Within s.facts ⟨tick.1, tick.2, ids⟩

/-- A tick whose keys tell its symbol and its group. -/
structure TellingTick (tick : GroupTick) : Prop where
  symbol : ':' ∉ tick.1.symbol.toList
  normalized : normalizeSymbol tick.1.symbol = tick.1.symbol
  group : tick.2 ≠ some ""

/-- What is known of every price and every order in the engine. -/
structure Sound (s : PricedEngine) : Prop where
  guarded : ∀ cmd ∈ s.commands, cmd.Guarded
  unique : ∀ cmd ∈ s.commands, ∀ cmd' ∈ s.commands, cmd.orderId = cmd'.orderId →
    cmd.toOrder.fillTerms = cmd'.toOrder.fillTerms
  telling : ∀ tick ∈ s.received, TellingTick tick
  copied : s.engine.Copied s.facts
  tasks : ∀ t, (s.engine.tasks t).Carries s.facts
  priceTasks : ∀ t, ∀ task ∈ s.priceTasks t, s.PriceTaskCarries task
  lastTicks : ∀ key, ∀ tick ∈ s.engine.cache.lastTicks key,
    ∃ groupId, (tick, groupId) ∈ s.received ∧ key = tickKey tick.symbol groupId
  prices : ∀ key, ∀ price ∈ s.prices key, ∃ tick ∈ s.received,
    key = priceKey tick.1.symbol tick.2 ∧ price = (tick.1.bid, tick.1.ask)
  filled : ∀ fill ∈ s.filled,
    s.Known fill.1.fillTerms ∧ fill.1.fillTerms.Protected s.received fill.2

/-- The steps that the protection relies on: guarded commands that repeat no
order id under other terms, and ticks without a colon in their symbol. -/
def Clear (s : PricedEngine) : PricedAction → Prop
  | .place _ cmd => cmd.Guarded ∧ ∀ earlier ∈ s.commands, earlier.orderId = cmd.orderId →
    earlier.toOrder.fillTerms = cmd.toOrder.fillTerms
  | .tick _ subject bid ask => ∀ tick ∈ handleTick subject bid ask, ':' ∉ tick.1.symbol.toList
  | _ => True

variable {s : PricedEngine} {cmd : PlaceOrderCommand} {tick : GroupTick} {key : String}

theorem fillPrice_quote (side : Side) :
    quote (tick.1.bid, tick.1.ask) side = tick.1.fillPrice side := by
  cases side <;> rfl

/-- The group that a looked-up key names is that of the command, or none. -/
theorem group_of_key {groupId : Option GroupId} (telling : TellingTick tick)
    (asked : groupId = cmd.groupId ∨ groupId = none)
    (same : groupId.getD "" = tick.2.getD "") : ∀ g ∈ cmd.groupId, ∀ h ∈ tick.2, h = g := by
  intro g hasGroup h tickGroup
  have ofTick : tick.2 = some h := tickGroup
  rw [ofTick, Option.getD_some] at same
  rcases asked with ofCommand | anyGroup
  · rw [ofCommand, show cmd.groupId = some g from hasGroup, Option.getD_some] at same
    exact same.symm
  · rw [anyGroup, Option.getD_none] at same
    exact absurd (ofTick.trans (by rw [← same])) telling.group

/-- A tick found in the cache under a key of the command is one for its order. -/
theorem priceOf_cached (guarded : cmd.Guarded) (telling : TellingTick tick)
    (asked : key ∈ cmd.tickKeys) (found : key = tickKey tick.1.symbol tick.2) :
    cmd.toOrder.fillTerms.PriceOf (tick.1.fillPrice cmd.side) tick := by
  obtain ⟨groupId, isAsked, keyed⟩ : ∃ groupId,
      (groupId = cmd.groupId ∨ groupId = none) ∧ key = tickKey cmd.symbol groupId := by
    rcases List.mem_cons.mp asked with ofGroup | ofAll
    · exact ⟨cmd.groupId, .inl rfl, ofGroup⟩
    · exact ⟨none, .inr rfl, List.mem_singleton.mp ofAll⟩
  have same : "" ++ normalizeSymbol cmd.symbol ++ ":" ++ groupId.getD "" =
      "" ++ normalizeSymbol tick.1.symbol ++ ":" ++ tick.2.getD "" := by
    simpa [tickKey] using keyed.symm.trans found
  have plain : ':' ∉ (normalizeSymbol tick.1.symbol).toList := by
    rw [telling.normalized]
    exact telling.symbol
  obtain ⟨sameSymbol, sameGroup⟩ := keyed_inj "" (colon_normalizeSymbol guarded.symbol) plain same
  refine ⟨?_, group_of_key telling isAsked sameGroup, rfl⟩
  rw [telling.normalized] at sameSymbol
  exact sameSymbol.symm

/-- A quote found in Redis under a key of the command is that of such a tick. -/
theorem priceOf_quoted (guarded : cmd.Guarded) (telling : TellingTick tick)
    (asked : key ∈ cmd.quoteKeys) (found : key = priceKey tick.1.symbol tick.2) :
    cmd.toOrder.fillTerms.PriceOf (tick.1.fillPrice cmd.side) tick := by
  obtain ⟨groupId, isAsked, keyed⟩ : ∃ groupId,
      (groupId = cmd.groupId ∨ groupId = none) ∧ key = priceKey cmd.symbol groupId := by
    unfold PlaceOrderCommand.quoteKeys at asked
    rcases List.mem_append.mp asked with ofGroup | ofAll
    · rw [Option.mem_toList, Option.map_eq_some_iff] at ofGroup
      obtain ⟨g, hasGroup, isKey⟩ := ofGroup
      exact ⟨some g, .inl hasGroup.symm, isKey.symm⟩
    · exact ⟨none, .inr rfl, List.mem_singleton.mp ofAll⟩
  have same : "prices:" ++ cmd.symbol ++ ":" ++ groupId.getD "" =
    "prices:" ++ tick.1.symbol ++ ":" ++ tick.2.getD "" := keyed.symm.trans found
  obtain ⟨sameSymbol, sameGroup⟩ := keyed_inj "prices:" guarded.symbol telling.symbol same
  refine ⟨?_, group_of_key telling isAsked sameGroup, rfl⟩
  change tick.1.symbol = normalizeSymbol cmd.symbol
  rw [sameSymbol, telling.normalized]

/-- The fill that follows a price found for a market order is protected. -/
theorem carries_executeMarket (sound : s.Sound) (placed : cmd ∈ s.commands)
    (isMarket : cmd.orderType = .MARKET) (received : tick ∈ s.received)
    (priced : cmd.toOrder.fillTerms.PriceOf (tick.1.fillPrice cmd.side) tick) (eff : Option ℚ) :
    (Task.execute cmd.toOrder (tick.1.fillPrice cmd.side) eff none).Carries s.facts := by
  have noRest : Resumes s.facts none := by simp [Resumes]
  refine carries_execute ⟨cmd, placed, rfl⟩ noRest ?_
  intro passed
  refine ⟨?_, slippageKept_of_passed (sound.guarded cmd placed).slippage passed, tick, received,
    priced⟩
  intro isLimit
  have other : cmd.orderType = .LIMIT := isLimit
  rw [isMarket] at other
  cases other

/-- Steps of the tasks keep all of it as long as the records stay. -/
structure Grows (s after : PricedEngine) : Prop where
  commands : ∀ cmd ∈ s.commands, cmd ∈ after.commands
  received : ∀ tick ∈ s.received, tick ∈ after.received

theorem Grows.known {after : PricedEngine} (grows : Grows s after) (terms : FillTerms)
    (known : s.Known terms) : after.Known terms := by
  obtain ⟨cmd, placed, same⟩ := known
  exact ⟨cmd, grows.commands cmd placed, same⟩

theorem Grows.protected {after : PricedEngine} (grows : Grows s after) {terms : FillTerms}
    {price : ℚ} (kept : terms.Protected s.received price) :
    terms.Protected after.received price := by
  obtain ⟨tick, received, priced⟩ := kept.tick
  exact ⟨kept.limit, kept.slippage, tick, grows.received tick received, priced⟩

theorem Grows.facts {after : PricedEngine} (grows : Grows s after) :
    s.facts.Within after.facts where
  command := grows.commands
  terms := grows.known
  tick := grows.received
  symbol o symbol sent := by
    obtain ⟨cmd, placed, isFor⟩ := sent
    exact ⟨cmd, grows.commands cmd placed, isFor⟩
  price _ _ kept := grows.protected kept

theorem Grows.priceTaskCarries {after : PricedEngine} (grows : Grows s after) {task : PriceTask}
    (carries : s.PriceTaskCarries task) : after.PriceTaskCarries task := by
  cases task with
  | resolveCached cmd keys => exact ⟨grows.commands cmd carries.1, carries.2⟩
  | resolveQuoted cmd keys => exact ⟨grows.commands cmd carries.1, carries.2⟩
  | compareTick tick => exact grows.received tick carries
  | setPrice tick ids => exact TickRest.Within.mono grows.facts carries
  | updateTick tick ids => exact TickRest.Within.mono grows.facts carries

section Steps
variable {t : ℕ} {input : Input} {after : PricedEngine}

theorem Sound.goOn (sound : s.Sound) {task : Task} (carries : task.Carries s.facts) :
    (s.goOn t task).Sound where
  guarded := sound.guarded
  unique := sound.unique
  telling := sound.telling
  copied := ⟨sound.copied.stored, sound.copied.cached, sound.copied.listed, sound.copied.pending⟩
  tasks u := by
    change (Function.update s.engine.tasks t task u).Carries s.facts
    by_cases own : u = t
    · subst own
      rw [Function.update_self]
      exact carries
    · rw [Function.update_of_ne own]
      exact sound.tasks u
  priceTasks u task isTask := by
    by_cases own : u = t
    · subst own
      simp [PricedEngine.goOn] at isTask
    · have kept : task ∈ s.priceTasks u := by simpa [PricedEngine.goOn, own] using isTask
      exact sound.priceTasks u task kept
  lastTicks := sound.lastTicks
  prices := sound.prices
  filled := sound.filled

theorem Sound.wait (sound : s.Sound) {task : PriceTask} (carries : s.PriceTaskCarries task) :
    (s.wait t task).Sound where
  guarded := sound.guarded
  unique := sound.unique
  telling := sound.telling
  copied := sound.copied
  tasks := sound.tasks
  priceTasks u other isTask := by
    by_cases own : u = t
    · subst own
      have same : task = other := by simpa [PricedEngine.wait] using isTask
      subst same
      exact carries
    · have kept : other ∈ s.priceTasks u := by simpa [PricedEngine.wait, own] using isTask
      exact sound.priceTasks u other kept
  lastTicks := sound.lastTicks
  prices := sound.prices
  filled := sound.filled

theorem advancePrice_sound {task : PriceTask} (sound : s.Sound) (carries : s.PriceTaskCarries task)
    (taken : s.advancePrice t input task = some after) : after.Sound := by
  cases task with
  | resolveCached cmd keys =>
    obtain ⟨placed, isMarket, asked⟩ := carries
    cases keys with
    | nil =>
      cases taken
      exact sound.wait ⟨placed, isMarket, fun _ => id⟩
    | cons key keys =>
      simp only [advancePrice] at taken
      cases found : s.engine.cache.lastTicks key with
      | none =>
        simp only [found] at taken
        cases taken
        exact sound.wait ⟨placed, isMarket, fun k later => asked k (List.mem_cons_of_mem _ later)⟩
      | some tick =>
        simp only [found] at taken
        cases taken
        obtain ⟨groupId, received, keyed⟩ := sound.lastTicks key tick found
        have priced := priceOf_cached (sound.guarded cmd placed) (sound.telling _ received)
          (asked key List.mem_cons_self) keyed
        exact sound.goOn (carries_executeMarket sound placed isMarket received priced _)
  | resolveQuoted cmd keys =>
    obtain ⟨placed, isMarket, asked⟩ := carries
    cases keys with
    | nil =>
      cases taken
      exact sound.goOn (trivial : Task.Carries s.facts .done)
    | cons key keys =>
      simp only [advancePrice] at taken
      cases found : s.prices key with
      | none =>
        simp only [found] at taken
        cases taken
        exact sound.wait ⟨placed, isMarket, fun k later => asked k (List.mem_cons_of_mem _ later)⟩
      | some price =>
        simp only [found] at taken
        cases taken
        obtain ⟨tick, received, keyed, rfl⟩ := sound.prices key price found
        have priced := priceOf_quoted (sound.guarded cmd placed) (sound.telling _ received)
          (asked key List.mem_cons_self) keyed
        rw [fillPrice_quote]
        exact sound.goOn (carries_executeMarket sound placed isMarket received priced _)
  | compareTick tick =>
    simp only [advancePrice] at taken
    split_ifs at taken
    · cases taken
      exact sound.goOn (trivial : Task.Carries s.facts .done)
    · cases taken
      exact sound.wait (⟨carries, by simp⟩ : s.PriceTaskCarries (.setPrice tick []))
  | setPrice tick ids =>
    cases taken
    refine Sound.wait ?_ carries
    refine ⟨sound.guarded, sound.unique, sound.telling, sound.copied, sound.tasks,
      sound.priceTasks, sound.lastTicks, ?_, sound.filled⟩
    intro key price isPrice
    by_cases own : key = priceKey tick.1.symbol tick.2
    · subst own
      have same : (tick.1.bid, tick.1.ask) = price := by simpa using isPrice
      exact ⟨tick, carries.1, rfl, same.symm⟩
    · have kept : price ∈ s.prices key := by simpa [own] using isPrice
      exact sound.prices key price kept
  | updateTick tick ids =>
    cases taken
    refine Sound.goOn ?_ carries
    refine ⟨sound.guarded, sound.unique, sound.telling,
      ⟨sound.copied.stored, sound.copied.cached, sound.copied.listed, sound.copied.pending⟩,
      sound.tasks, sound.priceTasks, ?_,
      sound.prices, sound.filled⟩
    intro key other isTick
    by_cases own : key = tickKey tick.1.symbol tick.2
    · subst own
      have same : tick.1 = other := by simpa [OrderCache.updateTick] using isTick
      subst same
      exact ⟨tick.2, carries.1, rfl⟩
    · have kept : other ∈ s.engine.cache.lastTicks key := by
        simpa [OrderCache.updateTick, own] using isTick
      exact sound.lastTicks key other kept

/-- The fill script fills the stored order, whose terms are those that the task
has checked. -/
theorem newlyFilled_protected {task : Task} {e : Engine} (sound : s.Sound)
    (carries : task.Carries s.facts) : ∀ fill ∈ s.newlyFilled task e,
      s.Known fill.1.fillTerms ∧ fill.1.fillTerms.Protected s.received fill.2 := by
  intro fill isNew
  cases task with
  | fillScript order price eff rest =>
    simp only [newlyFilled] at isNew
    split_ifs at isNew
    · cases isNew
    · rw [Option.mem_toList, Option.map_eq_some_iff] at isNew
      obtain ⟨stored, isStored, rfl⟩ := isNew
      obtain ⟨⟨cmd, placed, terms⟩, kept, -⟩ := carries
      obtain ⟨id, cmd', placed', terms'⟩ := sound.copied.stored _ stored isStored
      have sameId : cmd.orderId = cmd'.orderId := by
        have first : cmd.orderId = order.id := congrArg FillTerms.id terms
        have second : cmd'.orderId = stored.id := congrArg FillTerms.id terms'
        rw [first, second, id]
      have same : order.fillTerms = stored.fillTerms := by
        rw [← terms, ← terms', sound.unique cmd placed cmd' placed' sameId]
      exact ⟨⟨cmd', placed', terms'⟩, same ▸ kept⟩
  | _ => cases isNew

theorem Sound.closed (sound : s.Sound) : s.facts.Closed where
  terms cmd placed := ⟨cmd, placed, rfl⟩
  symbol cmd placed := ⟨cmd, placed, rfl, rfl⟩
  price order tick known received sent fills passed := by
    obtain ⟨cmd, placed, terms⟩ := known
    obtain ⟨cmd', placed', id, symbol⟩ := sent
    have sameId : cmd.orderId = order.id := congrArg FillTerms.id terms
    have same := sound.unique cmd placed cmd' placed' (sameId.trans id.symm)
    have ofOrder : normalizeSymbol cmd.symbol = order.symbol := congrArg FillTerms.symbol terms
    have ofTick : normalizeSymbol cmd.symbol = normalizeSymbol cmd'.symbol :=
      congrArg FillTerms.symbol same
    have bound : order.maxSlippageBps = cmd.maxSlippageBps :=
      (congrArg FillTerms.maxSlippageBps terms).symm
    refine ⟨limitKept_of_shouldFill fills, slippageKept_of_passed ?_ passed, tick, received, ?_,
      group_of_shouldFill fills, rfl⟩
    · rw [bound]
      exact (sound.guarded cmd placed).slippage
    · exact symbol.symm.trans (ofTick.symm.trans ofOrder)

theorem Sound.advance (t : ℕ) (input : Input) {task : Task} (sound : s.Sound) (carries : task.Carries s.facts)
    (unpriced : ∀ cmd, task ≠ .placeResolvePrice cmd)
    (noTick : ∀ tick groupId, task ≠ .tickPending tick groupId)
    (taken : (s.engine.advance input task).map (fun (e, next) =>
      { s with engine := e.setTask t next, filled := s.newlyFilled task e ++ s.filled }) =
        some after) : after.Sound := by
  obtain ⟨⟨e, next⟩, isNext, rfl⟩ := Option.map_eq_some_iff.mp taken
  obtain ⟨copied, goesOn, ticks⟩ :=
    Engine.advance_copied sound.copied sound.closed carries unpriced noTick isNext
  have filled := newlyFilled_protected (e := e) sound carries
  refine ⟨sound.guarded, sound.unique, sound.telling,
    ⟨copied.stored, copied.cached, copied.listed, copied.pending⟩, ?_, sound.priceTasks, ?_,
    sound.prices, ?_⟩
  · intro u
    change (Function.update e.tasks t next u).Carries s.facts
    by_cases own : u = t
    · rw [own, Function.update_self]
      exact goesOn
    · rw [Function.update_of_ne own, Engine.advance_tasks isNext]
      exact sound.tasks u
  · intro key tick isTick
    have kept : tick ∈ s.engine.cache.lastTicks key := ticks ▸ isTick
    exact sound.lastTicks key tick kept
  · intro fill isFilled
    rcases List.mem_append.mp isFilled with isNew | before
    · exact filled fill isNew
    · exact sound.filled fill before

theorem advanceTask_sound {task : Task} (sound : s.Sound) (carries : task.Carries s.facts)
    (taken : s.advanceTask t input task = some after) : after.Sound := by
  cases task with
  | placeResolvePrice cmd =>
    cases taken
    exact sound.wait ⟨carries.1, carries.2, fun _ => id⟩
  | tickPending tick groupId =>
    simp only [advanceTask] at taken
    split_ifs at taken with lists isEmpty
    · cases taken
      exact sound.wait (carries : s.PriceTaskCarries (.compareTick (tick, groupId)))
    · cases taken
      refine sound.wait (⟨carries, ?_⟩ : s.PriceTaskCarries (.setPrice (tick, groupId) input.ids))
      have normalized : normalizeSymbol tick.symbol = tick.symbol :=
        (sound.telling _ carries).normalized
      intro o isListed
      have isPending : o ∈ s.engine.cache.getPendingOrders tick.symbol := by
        rw [← lists.2]
        exact List.mem_toFinset.mpr isListed
      unfold OrderCache.getPendingOrders at isPending
      rw [normalized] at isPending
      exact sound.copied.pending _ o isPending
  | _ => exact sound.advance t input carries (by simp) (by simp) taken

/-- The records only grow. -/
theorem Sound.grow (sound : s.Sound) (grows : Grows s after) (engine : after.engine = s.engine)
    (priceTasks : after.priceTasks = s.priceTasks) (prices : after.prices = s.prices)
    (filled : after.filled = s.filled) (guarded : ∀ cmd ∈ after.commands, cmd.Guarded)
    (unique : ∀ cmd ∈ after.commands, ∀ cmd' ∈ after.commands, cmd.orderId = cmd'.orderId →
      cmd.toOrder.fillTerms = cmd'.toOrder.fillTerms)
    (telling : ∀ tick ∈ after.received, TellingTick tick) : after.Sound where
  guarded := guarded
  unique := unique
  telling := telling
  copied := engine ▸ sound.copied.mono grows.facts
  tasks t := engine ▸ (sound.tasks t).mono grows.facts
  priceTasks t task isTask := grows.priceTaskCarries (sound.priceTasks t task (priceTasks ▸ isTask))
  lastTicks key tick isTick := by
    rw [engine] at isTick
    obtain ⟨groupId, received, keyed⟩ := sound.lastTicks key tick isTick
    exact ⟨groupId, grows.received _ received, keyed⟩
  prices key price isPrice := by
    rw [prices] at isPrice
    obtain ⟨tick, received, found⟩ := sound.prices key price isPrice
    exact ⟨tick, grows.received _ received, found⟩
  filled fill isFilled := by
    rw [filled] at isFilled
    obtain ⟨known, kept⟩ := sound.filled fill isFilled
    exact ⟨grows.known _ known, grows.protected kept⟩

/-- A message starts a task with what it brings. -/
theorem Sound.startTask (sound : s.Sound) {task : Task} (carries : task.Carries s.facts) :
    Sound { s with engine := s.engine.setTask t task } where
  guarded := sound.guarded
  unique := sound.unique
  telling := sound.telling
  copied := ⟨sound.copied.stored, sound.copied.cached, sound.copied.listed, sound.copied.pending⟩
  tasks u := by
    change (Function.update s.engine.tasks t task u).Carries s.facts
    by_cases own : u = t
    · subst own
      rw [Function.update_self]
      exact carries
    · rw [Function.update_of_ne own]
      exact sound.tasks u
  priceTasks := sound.priceTasks
  lastTicks := sound.lastTicks
  prices := sound.prices
  filled := sound.filled

theorem parseTickSubject_group {subject : String} {symbol : Symbol} {groupId : Option GroupId}
    (parsed : parseTickSubject subject = some (symbol, groupId)) : groupId ≠ some "" := by
  unfold parseTickSubject at parsed
  by_cases isTick : "ticks.".toList <+: subject.toList
  · rw [if_pos isTick] at parsed
    dsimp only at parsed
    generalize (subject.toList.drop 6).dropWhile (· ≠ '.') = tail at parsed
    rcases tail with _ | ⟨dot, _ | ⟨c, group⟩⟩
    · cases parsed
      simp
    · cases parsed
      simp
    · cases parsed
      intro isEmpty
      have letters := congrArg String.toList (Option.some.inj isEmpty)
      simp at letters
  · rw [if_neg isTick] at parsed
    cases parsed

/-- What `handle_tick` lets through tells its symbol and its group. -/
theorem tellingTick_of_handleTick {subject : String} {bid ask : ℚ}
    (handled : handleTick subject bid ask = some tick) (plain : ':' ∉ tick.1.symbol.toList) :
    TellingTick tick := by
  unfold handleTick at handled
  obtain ⟨⟨symbol, groupId⟩, parsed, handled⟩ := Option.bind_eq_some_iff.mp handled
  have group := parseTickSubject_group parsed
  dsimp only at handled
  split_ifs at handled
  · cases handled
    exact ⟨plain, normalizeSymbol_normalizeSymbol symbol, group⟩
  · cases handled
    exact ⟨plain, normalizeSymbol_normalizeSymbol symbol, group⟩

theorem lastTicks_warmOrderCache (st : Store) (listing : List (Symbol × List OrderId))
    (key : String) : (warmOrderCache st listing).lastTicks key = none := by
  have inner (symbol : Symbol) (ids : List OrderId) (c : OrderCache) :
      (ids.foldl (.warm st symbol) c).lastTicks = c.lastTicks := by
    induction ids generalizing c with
    | nil => rfl
    | cons r rest ih =>
      rw [List.foldl_cons, ih]
      unfold OrderCache.warm
      cases st.orders r with
      | none => rfl
      | some order =>
        dsimp only
        split_ifs
        · exact lastTicks_addPendingOrder ..
        · rfl
  have outer (c : OrderCache) : (listing.foldl
      (fun c reply => reply.2.foldl (.warm st reply.1) c) c).lastTicks = c.lastTicks := by
    induction listing generalizing c with
    | nil => rfl
    | cons reply rest ih => rw [List.foldl_cons, ih, inner]
  unfold warmOrderCache
  rw [outer]
  rfl

theorem step_sound {action : PricedAction} (sound : s.Sound) (clear : s.Clear action)
    (taken : s.step action = some after) : after.Sound := by
  cases action with
  | place t cmd =>
    obtain ⟨e, started, rfl⟩ := Option.map_eq_some_iff.mp taken
    simp only [Engine.step] at started
    split_ifs at started
    cases started
    obtain ⟨guarded, fresh⟩ := clear
    have grown : Sound { s with commands := cmd :: s.commands } := by
      refine sound.grow ⟨fun _ => List.mem_cons_of_mem _, fun _ => id⟩ rfl rfl rfl rfl ?_ ?_
        sound.telling
      · intro other placed
        rcases List.mem_cons.mp placed with rfl | before
        · exact guarded
        · exact sound.guarded other before
      · intro other placed other' placed' same
        rcases List.mem_cons.mp placed with rfl | before
        · rcases List.mem_cons.mp placed' with rfl | before'
          · rfl
          · exact (fresh other' before' same.symm).symm
        · rcases List.mem_cons.mp placed' with rfl | before'
          · exact fresh other before same
          · exact sound.unique other before other' before' same
    exact grown.startTask (List.mem_cons_self : cmd ∈ cmd :: s.commands)
  | tick t subject bid ask =>
    simp only [PricedEngine.step] at taken
    cases handled : handleTick subject bid ask with
    | none =>
      simp only [handled] at taken
      cases taken
      exact sound
    | some tick =>
      simp only [handled] at taken
      obtain ⟨e, started, rfl⟩ := Option.map_eq_some_iff.mp taken
      simp only [Engine.step] at started
      split_ifs at started
      cases started
      have tells := tellingTick_of_handleTick handled (clear tick handled)
      have grown : Sound { s with received := tick :: s.received } := by
        refine sound.grow ⟨fun _ => id, fun _ => List.mem_cons_of_mem _⟩ rfl rfl rfl rfl
          sound.guarded sound.unique ?_
        intro other received
        rcases List.mem_cons.mp received with rfl | before
        · exact tells
        · exact sound.telling other before
      exact grown.startTask (List.mem_cons_self : tick ∈ tick :: s.received)
  | cancel t o userId =>
    obtain ⟨e, started, rfl⟩ := Option.map_eq_some_iff.mp taken
    simp only [Engine.step] at started
    split_ifs at started
    cases started
    exact sound.startTask (trivial : Task.Carries s.facts (.cancelRead o userId))
  | advance t input =>
    simp only [PricedEngine.step] at taken
    cases waiting : s.priceTasks t with
    | none =>
      simp only [waiting] at taken
      exact advanceTask_sound sound (sound.tasks t) taken
    | some task =>
      simp only [waiting] at taken
      exact advancePrice_sound sound (sound.priceTasks t task waiting) taken
  | abort t =>
    cases taken
    exact sound.goOn (trivial : Task.Carries s.facts .done)
  | expireKey key =>
    cases taken
    exact ⟨sound.guarded, sound.unique, sound.telling,
      ⟨sound.copied.stored, sound.copied.cached, sound.copied.listed, sound.copied.pending⟩,
      sound.tasks, sound.priceTasks, sound.lastTicks, sound.prices, sound.filled⟩
  | restart listing =>
    simp only [PricedEngine.step] at taken
    split_ifs at taken with lists
    cases taken
    refine ⟨sound.guarded, sound.unique, sound.telling,
      ⟨sound.copied.stored, ?_, sound.copied.listed, ?_⟩, fun _ => trivial, by simp, ?_,
      sound.prices, sound.filled⟩
    · intro o order isCached
      exact sound.copied.stored o order (Engine.copies_warmOrderCache o order isCached)
    · intro symbol o isPending
      obtain ⟨reply, isReply, listed, rfl, -⟩ := Engine.mem_warmOrderCache.mp isPending
      rw [← List.mem_toFinset, lists reply isReply] at listed
      obtain ⟨cmd, placed, id, symbol⟩ := sound.copied.listed reply.1 o listed
      have twice : normalizeSymbol reply.1 = reply.1 := by
        rw [← symbol]
        exact normalizeSymbol_normalizeSymbol cmd.symbol
      exact ⟨cmd, placed, id, symbol.trans twice.symm⟩
    · intro key tick isTick
      change tick ∈ (warmOrderCache s.engine.store listing).lastTicks key at isTick
      rw [lastTicks_warmOrderCache] at isTick
      cases isTick

theorem copied_start (k : Facts) : Engine.start.Copied k where
  stored o order isStored := by
    have unstored : Engine.start.store.orders o = none := rfl
    rw [unstored] at isStored
    cases isStored
  cached o order isCached := by simp [Engine.start, OrderCache.new] at isCached
  listed symbol o isListed := by simp [Engine.start, Store.empty] at isListed
  pending symbol o isPending := by simp [Engine.start, OrderCache.new] at isPending

theorem sound_start : start.Sound where
  guarded := by simp [start]
  unique := by simp [start]
  telling := by simp [start]
  copied := copied_start start.facts
  tasks _ := trivial
  priceTasks := by simp [start]
  lastTicks := by simp [start, Engine.start, OrderCache.new]
  prices := by simp [start]
  filled := by simp [start]

theorem sound_of_run {actions : List PricedAction}
    (run : GuardedRun step Clear start actions s) : s.Sound :=
  run.invariant sound_start fun _ _ _ clear taken sound => step_sound sound clear taken

end Steps

theorem fills_protected {actions : List PricedAction}
    (run : GuardedRun step Clear start actions s) : ∀ fill ∈ s.filled,
      s.Known fill.1.fillTerms ∧ fill.1.fillTerms.Protected s.received fill.2 :=
  (sound_of_run run).filled

/-- A market order of at most `maxBps` from the quote `bid`, `ask`. -/
def marketWithin (bid ask : ℚ) (maxBps : ℤ) : PlaceOrderCommand :=
  { Engine.marketBuy "k1" with
    requestedBid := some bid, requestedAsk := some ask, maxSlippageBps := some maxBps }

/-- A tick of 9 to 10, then a market order that fills at it. -/
def tickThenMarket (cmd : PlaceOrderCommand) : List PricedAction :=
  .tick 1 "ticks.EURUSD" 9 10 :: List.replicate 5 (.advance 1 {}) ++
    .place 2 cmd :: ([{}, {}, {}, {}, {}, {}, { effectiveLeverage := some 100 },
      { timestampMs := 1000, positionUuid := .uuid 1 }] : List Input).map (.advance 2)

instance decidableGuarded (cmd : PlaceOrderCommand) : Decidable cmd.Guarded :=
  decidable_of_iff (':' ∉ cmd.symbol.toList ∧ ∀ maxBps ∈ cmd.maxSlippageBps, maxBps < 2147483647)
    ⟨fun both => ⟨both.1, both.2⟩, fun guarded => ⟨guarded.symbol, guarded.slippage⟩⟩

instance decidableClear (s : PricedEngine) : (action : PricedAction) → Decidable (s.Clear action)
  | .place _ cmd => inferInstanceAs (Decidable (cmd.Guarded ∧ ∀ earlier ∈ s.commands,
      earlier.orderId = cmd.orderId → earlier.toOrder.fillTerms = cmd.toOrder.fillTerms))
  | .tick _ subject bid ask => inferInstanceAs (Decidable (∀ tick ∈ handleTick subject bid ask,
      ':' ∉ tick.1.symbol.toList))
  | .cancel _ _ _ => .isTrue trivial
  | .advance _ _ => .isTrue trivial
  | .abort _ => .isTrue trivial
  | .expireKey _ => .isTrue trivial
  | .restart _ => .isTrue trivial

theorem fills_protected_tickThenMarket : ∃ s,
    GuardedRun step Clear start (tickThenMarket (marketWithin 9 10 50)) s ∧
    s.filled.map Prod.snd = [10] ∧ ∀ fill ∈ s.filled,
      s.Known fill.1.fillTerms ∧ fill.1.fillTerms.Protected s.received fill.2 := by
  have evaluates : (runGuarded step Clear start (tickThenMarket (marketWithin 9 10 50))).map
      (fun s => s.filled.map Prod.snd) = some [10] := by
    decide +kernel
  obtain ⟨s, reached, fills⟩ := Option.map_eq_some_iff.mp evaluates
  have run : GuardedRun step Clear start (tickThenMarket (marketWithin 9 10 50)) s :=
    .of_eval reached
  exact ⟨s, run, fills, fills_protected run⟩

/-- The slippage is clamped to the greatest `i32`, so under that bound every
price passes. -/
theorem not_fills_protected_saturated : ∃ s,
    Run step start (tickThenMarket (marketWithin (1 / 1000000) (1 / 1000000) 2147483647)) s ∧
    ∃ fill ∈ s.filled, ¬ fill.1.fillTerms.SlippageKept fill.2 := by
  have evaluates : (runGuarded step (fun _ _ => True) start
      (tickThenMarket (marketWithin (1 / 1000000) (1 / 1000000) 2147483647))).map
        (fun s => s.filled.map fun fill => (fill.1.fillTerms, fill.2)) =
      some [((marketWithin (1 / 1000000) (1 / 1000000) 2147483647).toOrder.fillTerms, 10)] := by
    decide +kernel
  obtain ⟨s, reached, fills⟩ := Option.map_eq_some_iff.mp evaluates
  obtain ⟨fill, filled, same⟩ := List.map_eq_singleton_iff.mp fills
  obtain ⟨terms, price⟩ := Prod.mk.inj same
  refine ⟨s, .of_eval reached, fill, by simp [filled], ?_⟩
  rw [terms, price]
  intro kept
  have within := kept rfl _ rfl _ rfl _ rfl (by decide +kernel)
  revert within
  decide +kernel


end PricedEngine

end TradingPlatform
