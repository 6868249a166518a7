import TradingPlatform.Engine.PendingAgreement

namespace TradingPlatform

/-- The symbol and the group of a tick subject: `parse_tick_subject_per_group`,
else `parse_symbol_from_tick_subject`. -/
def parseTickSubject (subject : String) : Option (Symbol × Option GroupId) :=
  if "ticks.".toList <+: subject.toList then
    let rest := subject.toList.drop 6
    match rest.dropWhile (· ≠ '.') with
    | _ :: c :: group =>
      some (String.ofList (rest.takeWhile (· ≠ '.')), some (String.ofList (c :: group)))
    | _ => some (String.ofList rest, none)
  else none

/-- A tick together with the group it was published for. -/
abbrev GroupTick := Tick × Option GroupId

/-- The tick that `handle_tick` goes on with: positive prices, the ask not below
the bid. -/
def handleTick (subject : String) (bid ask : ℚ) : Option GroupTick :=
  (parseTickSubject subject).bind fun (symbol, groupId) =>
    if bid ≤ 0 ∨ ask ≤ 0 then none
    else if ask < bid then some (⟨normalizeSymbol symbol, bid, bid + bid * (1 / 10000)⟩, groupId)
    else some (⟨normalizeSymbol symbol, bid, ask⟩, groupId)

def priceKey (symbol : Symbol) (groupId : Option GroupId) : String :=
  "prices:" ++ symbol ++ ":" ++ groupId.getD ""

namespace PlaceOrderCommand

/-- The ticks that `resolve_market_fill_price` looks up in the cache. -/
def tickKeys (cmd : PlaceOrderCommand) : List String :=
  [tickKey cmd.symbol cmd.groupId, tickKey cmd.symbol none]

/-- The quotes that it falls back to. -/
def quoteKeys (cmd : PlaceOrderCommand) : List String :=
  (cmd.groupId.map fun g => priceKey cmd.symbol (some g)).toList ++ [priceKey cmd.symbol none]

end PlaceOrderCommand

/-- What a task does one command at a time where it reads or writes prices. -/
inductive PriceTask
  | resolveCached (cmd : PlaceOrderCommand) (keys : List String)
  | resolveQuoted (cmd : PlaceOrderCommand) (keys : List String)
  | compareTick (tick : GroupTick)
  | setPrice (tick : GroupTick) (ids : List OrderId)
  | updateTick (tick : GroupTick) (ids : List OrderId)
  deriving DecidableEq, Repr

/-- The order engine with the quotes it keeps in Redis. The last three fields
record what it was sent and what it filled. -/
structure PricedEngine where
  engine : Engine
  /-- `prices:{symbol}:{group_id}` -/
  prices : String → Option (ℚ × ℚ)
  priceTasks : ℕ → Option PriceTask
  received : List GroupTick
  commands : List PlaceOrderCommand
  /-- the stored orders that the fill script has filled, with the prices it was given -/
  filled : List (Order × ℚ)

inductive PricedAction
  | place (t : ℕ) (cmd : PlaceOrderCommand)
  | tick (t : ℕ) (subject : String) (bid ask : ℚ)
  | cancel (t : ℕ) (o : OrderId) (userId : UserId)
  | advance (t : ℕ) (input : Input)
  | abort (t : ℕ)
  | expireKey (key : String)
  | restart (listing : List (Symbol × List OrderId))

namespace PricedEngine

def quote (price : ℚ × ℚ) : Side → ℚ
  | .BUY => price.2
  | .SELL => price.1

section Tasks
variable (s : PricedEngine) (t : ℕ) (input : Input)

/-- The task goes on with commands that have nothing to do with prices. -/
def goOn (task : Task) : PricedEngine :=
  { s with engine := s.engine.setTask t task, priceTasks := Function.update s.priceTasks t none }

def wait (task : PriceTask) : PricedEngine :=
  { s with priceTasks := Function.update s.priceTasks t (some task) }

/-- The next command of a task that reads or writes prices. -/
def advancePrice : PriceTask → Option PricedEngine
  | .resolveCached cmd [] => some (s.wait t (.resolveQuoted cmd cmd.quoteKeys))
  | .resolveCached cmd (key :: keys) =>
    match s.engine.cache.lastTicks key with
    | some tick =>
      some (s.goOn t (.execute cmd.toOrder (tick.fillPrice cmd.side) input.effectiveLeverage none))
    | none => some (s.wait t (.resolveCached cmd keys))
  | .resolveQuoted _ [] => some (s.goOn t .done)
  | .resolveQuoted cmd (key :: keys) =>
    match s.prices key with
    | some price =>
      some (s.goOn t (.execute cmd.toOrder (quote price cmd.side) input.effectiveLeverage none))
    | none => some (s.wait t (.resolveQuoted cmd keys))
  | .compareTick tick =>
    if (s.engine.cache.getLastTick tick.1.symbol tick.2).any
        fun prev => prev.bid = tick.1.bid ∧ prev.ask = tick.1.ask then
      some (s.goOn t .done)
    else some (s.wait t (.setPrice tick []))
  | .setPrice tick ids =>
    let key := priceKey tick.1.symbol tick.2
    let set := { s with prices := Function.update s.prices key (some (tick.1.bid, tick.1.ask)) }
    some (set.wait t (.updateTick tick ids))
  | .updateTick tick ids =>
    let engine := { s.engine with cache := s.engine.cache.updateTick tick.1 tick.2 }
    some ({ s with engine := engine }.goOn t (.tickOrders ⟨tick.1, tick.2, ids⟩))

/-- What the fill script has filled, if this command was a successful call of it. -/
def newlyFilled (task : Task) (after : Engine) : List (Order × ℚ) :=
  match task with
  | .fillScript order fillPrice _ _ =>
    if after.fills order.id = s.engine.fills order.id then []
    else ((s.engine.store.orders order.id).map (·, fillPrice)).toList
  | _ => []

def advanceTask : Task → Option PricedEngine
  | .placeResolvePrice cmd => some (s.wait t (.resolveCached cmd cmd.tickKeys))
  | .tickPending tick groupId =>
    if input.ids.Nodup ∧ input.ids.toFinset = s.engine.cache.getPendingOrders tick.symbol then
      some (s.wait t (if input.ids = [] then .compareTick (tick, groupId)
        else .setPrice (tick, groupId) input.ids))
    else none
  | task => (s.engine.advance input task).map fun (e, next) =>
    { s with
      engine := e.setTask t next
      filled := s.newlyFilled task e ++ s.filled }

end Tasks

def step (s : PricedEngine) : PricedAction → Option PricedEngine
  | .place t cmd => (s.engine.step (.place t cmd)).map fun e =>
    { s with engine := e, commands := cmd :: s.commands }
  | .tick t subject bid ask =>
    match handleTick subject bid ask with
    | none => some s
    | some tick => (s.engine.step (.tick t tick.1 tick.2)).map fun e =>
      { s with engine := e, received := tick :: s.received }
  | .cancel t o userId => (s.engine.step (.cancel t o userId)).map fun e => { s with engine := e }
  | .advance t input =>
    match s.priceTasks t with
    | some task => s.advancePrice t input task
    | none => s.advanceTask t input (s.engine.tasks t)
  | .abort t => some (s.goOn t .done)
  | .expireKey key => (s.engine.step (.expireKey key)).map fun e => { s with engine := e }
  | .restart listing =>
    if ∀ reply ∈ listing, reply.2.toFinset = s.engine.store.pending reply.1 then
      some { s with
        engine := { s.engine with
          cache := warmOrderCache s.engine.store listing, tasks := fun _ => .done }
        priceTasks := fun _ => none }
    else none

/-- A platform without orders or quotes. -/
def start : PricedEngine where
  engine := .start
  prices := fun _ => none
  priceTasks := fun _ => none
  received := []
  commands := []
  filled := []

end PricedEngine

end TradingPlatform
