import TradingPlatform.Pricing.Markup
import Mathlib.Data.Finset.Basic
import Mathlib.Data.Finset.Dedup

namespace TradingPlatform

/-- A message on `price:ticks`: the quote of the feed that it was made from and
the prices of the groups. -/
structure TickMessage where
  raw : Quote
  prices : List (String × Quote)
  deriving DecidableEq, Repr

/-- Where the price loop is between two of its awaits. -/
inductive LoopPhase
  | waiting
  | symbolsRead (symbols : List String)
  | groupsRead (groups symbols : List String)
  | clearing (groups symbols : List String)
  | scanning (groups symbols : List String)
  | quoted (groups : List String) (symbol : String) (raw : Quote) (symbols : List String)
  | marking (groups : List String) (symbol : String) (raw : Quote) (done : List (String × Quote))
      (todo symbols : List String)
  | published (groups : List String) (symbol : String) (raw : Quote) (symbols : List String)
  deriving DecidableEq, Repr

/-- Where the listener of `markup:update` is with a message. -/
inductive ListenerPhase
  | idle
  | taken
  | read (ids : Option (Finset String))
  | refreshed
  deriving DecidableEq

/-- Redis, the tasks of the data-provider and what they share. The last four
fields record the last message of each symbol, whether the pass that runs began
with no change pending, the symbols it has seen a quote of, and those of the
last full pass that did. -/
structure PriceTasks where
  markups : String → Option MarkupConfig
  redisGroups : Finset String
  unannounced : Bool
  messages : ℕ
  feed : String → Option Quote
  groups : Finset String
  dedup : String → Option Quote
  lastGroupFp : Finset String
  loop : LoopPhase
  listener : ListenerPhase
  periodic : Option (Finset String)
  lastTick : String → Option TickMessage
  passClean : Bool
  seen : List String
  settled : Option (List String)

inductive PriceAction
  | setMarkup (key : String) (markup : Option MarkupConfig)
  | setGroups (ids : Finset String)
  | announce
  | quote (symbol : String) (quote : Option Quote)
  | listenerTakes
  | listenerReads (ok : Bool)
  | listenerWrites
  | listenerClears
  | periodicReads
  | periodicWrites
  | readSymbols (symbols : List String)
  | readGroups (ids : List String)
  | checkFingerprint
  | clearDedup
  | nextSymbol
  | readDedup
  | readMarkup (ok : Bool)
  | publish
  | insertDedup
  | endPass

/-- The entries of `prices` when the groups have been priced. -/
def tickPrices (raw : Quote) (priced : List (String × Quote)) : List (String × Quote) :=
  if priced = [] then [("", raw)] else priced

namespace PriceTasks

/-- Everything as the data-provider finds it when it starts. -/
def started (markups : String → Option MarkupConfig) (redisGroups : Finset String)
    (feed : String → Option Quote) : PriceTasks where
  markups := markups
  redisGroups := redisGroups
  unannounced := false
  messages := 0
  feed := feed
  groups := redisGroups
  dedup := fun _ => none
  lastGroupFp := ∅
  loop := .waiting
  listener := .idle
  periodic := none
  lastTick := fun _ => none
  passClean := false
  seen := []
  settled := none

/-- A change in Redis or its announcement has not been handled yet. -/
def Pending (s : PriceTasks) : Prop := s.unannounced = true ∨ 0 < s.messages ∨ s.listener ≠ .idle

instance (s : PriceTasks) : Decidable s.Pending := inferInstanceAs (Decidable (_ ∨ _ ∨ _))

/-- Nothing that has been settled before holds for sure after a change. -/
def changed (s : PriceTasks) : PriceTasks := { s with passClean := false, settled := none }

/-- The read that `apply_markup` makes for a group. -/
def readFor (s : PriceTasks) (ok : Bool) (symbol g : String) : MarkupRead :=
  if ok then getMarkup s.markups symbol g else .failed

/-- A step of somebody who changes Redis, of the feed or of one of the tasks. A
clear of the dedup map, like each read and write, is one step. The fingerprint
of the groups is taken as their set. -/
def step (s : PriceTasks) : PriceAction → Option PriceTasks
  | .setMarkup key markup =>
    some { s.changed with markups := Function.update s.markups key markup, unannounced := true }
  | .setGroups ids => some { s.changed with redisGroups := ids, unannounced := true }
  | .announce => some { s.changed with unannounced := false, messages := s.messages + 1 }
  | .quote symbol quote => some { s with feed := Function.update s.feed symbol quote }
  | .listenerTakes =>
    if s.listener = .idle ∧ 0 < s.messages then
      some { s with listener := .taken, messages := s.messages - 1 }
    else none
  | .listenerReads ok =>
    if s.listener = .taken then
      some { s with listener := .read (if ok then some s.redisGroups else none) }
    else none
  | .listenerWrites =>
    match s.listener with
    | .read (some ids) => some { s with groups := ids, listener := .refreshed }
    | .read none => some { s with listener := .refreshed }
    | _ => none
  | .listenerClears =>
    if s.listener = .refreshed then
      some { s with dedup := fun _ => none, listener := .idle }
    else none
  | .periodicReads => some { s with periodic := some s.redisGroups }
  | .periodicWrites =>
    match s.periodic with
    | some ids => some { s with groups := ids, periodic := none }
    | none => none
  | .readSymbols symbols =>
    if s.loop = .waiting then
      some { s with loop := .symbolsRead symbols, passClean := !decide s.Pending, seen := [] }
    else none
  | .readGroups ids =>
    match s.loop with
    | .symbolsRead symbols =>
      if ids.toFinset = s.groups then some { s with loop := .groupsRead ids symbols } else none
    | _ => none
  | .checkFingerprint =>
    match s.loop with
    | .groupsRead ids symbols =>
      if s.lastGroupFp = ids.toFinset then some { s with loop := .scanning ids symbols }
      else some { s with lastGroupFp := ids.toFinset, loop := .clearing ids symbols }
    | _ => none
  | .clearDedup =>
    match s.loop with
    | .clearing ids symbols =>
      some { s with dedup := fun _ => none, loop := .scanning ids symbols }
    | _ => none
  | .nextSymbol =>
    match s.loop with
    | .scanning ids (symbol :: rest) =>
      match s.feed symbol with
      | some raw => some { s with loop := .quoted ids symbol raw rest }
      | none => some { s with loop := .scanning ids rest }
    | _ => none
  | .readDedup =>
    match s.loop with
    | .quoted ids symbol raw rest =>
      if s.dedup symbol = some raw then
        some { s with loop := .scanning ids rest, seen := symbol :: s.seen }
      else some { s with loop := .marking ids symbol raw [] ids rest }
    | _ => none
  | .readMarkup ok =>
    match s.loop with
    | .marking ids symbol raw done (g :: todo) rest =>
      some { s with
        loop := .marking ids symbol raw (done ++ [(g, groupPrice (s.readFor ok symbol) g raw)])
          todo rest }
    | _ => none
  | .publish =>
    match s.loop with
    | .marking ids symbol raw done [] rest =>
      some { s with
        lastTick := Function.update s.lastTick symbol (some ⟨raw, tickPrices raw done⟩)
        loop := .published ids symbol raw rest }
    | _ => none
  | .insertDedup =>
    match s.loop with
    | .published ids symbol raw rest =>
      some { s with
        dedup := Function.update s.dedup symbol (some raw)
        loop := .scanning ids rest
        seen := symbol :: s.seen }
    | _ => none
  | .endPass =>
    match s.loop with
    | .scanning _ [] =>
      some { s with
        loop := .waiting
        settled := if s.passClean = true then some s.seen else s.settled }
    | _ => none

end PriceTasks

end TradingPlatform
