import TradingPlatform.Engine.LevelMoves

namespace TradingPlatform

/-- The numbers that an `f64` holds without being infinite. -/
def FiniteF64 (x : ℚ) : Prop := |x| < 2 ^ 1024

instance (x : ℚ) : Decidable (FiniteF64 x) := inferInstanceAs (Decidable (_ < _))

/-- What `str::parse::<f64>` accepts. -/
inductive ParsedF64
  | finite (q : ℚ) (bounded : FiniteF64 q)
  | infinite (negative : Bool)
  | nan

/-- The text as Lua and Redis read it. An infinity stands at the bound of the
finite numbers, and NaN is a text that no ZADD accepts. -/
def ParsedF64.text : ParsedF64 → LevelText
  | .finite q _ => .num q
  | .infinite false => .num (2 ^ 1024)
  | .infinite true => .num (-2 ^ 1024)
  | .nan => .userdata

structure UpdatePositionSltpRequest where
  stopLoss : Option String := none
  takeProfit : Option String := none
  deriving DecidableEq, Repr

def UpdatePositionSltpRequest.level (req : UpdatePositionSltpRequest) : LevelField → Option String
  | .sl => req.stopLoss
  | .tp => req.takeProfit

/-- A call of `update_position_sltp` for the user's own position or, with the
permission, for one of any user. -/
structure SltpCall where
  userId : UserId
  isOwnPosition : Bool
  positionId : PositionId
  req : UpdatePositionSltpRequest
  deriving DecidableEq, Repr

/-- The next Redis command of a call. -/
inductive SltpStage
  | getUserId
  | getSymbol
  | setField (f : LevelField) (symbol : Symbol)
  | setIndex (f : LevelField) (symbol : Symbol) (text : LevelText)
  | setUpdatedAt
  deriving DecidableEq, Repr

namespace SltpStage

/-- What follows when the level is dealt with. -/
def next : LevelField → Symbol → SltpStage
  | .sl, symbol => .setField .tp symbol
  | .tp, _ => .setUpdatedAt

/-- The levels that are dealt with. -/
def past : SltpStage → LevelField → Bool
  | .setField .tp _, .sl => true
  | .setIndex .tp _ _, .sl => true
  | .setUpdatedAt, _ => true
  | _, _ => false

end SltpStage

/-- A running call, with a record of whether it has written and whether
another one has written the position's levels or status since it began. -/
structure RunningSltp where
  call : SltpCall
  stage : SltpStage := .getUserId
  wrote : Bool := false
  disturbed : Bool := false
  deriving DecidableEq, Repr

structure SltpAnswer where
  success : Bool
  wrote : Bool
  deriving DecidableEq, Repr

/-- Redis with the edits that are running. `accepted` records the levels of
the last edits that succeeded and were not followed by another write. -/
structure SltpDesk where
  store : Store
  calls : ℕ → Option RunningSltp
  answers : List SltpAnswer
  accepted : PositionId → LevelField → Option LevelText

inductive SltpAction
  | edit (t : ℕ) (call : SltpCall) (permitted : Bool)
  | advance (t : ℕ) (now : Millis)
  /-- a Redis command of the call fails -/
  | fail (t : ℕ)
  | script (call : ScriptCall)
  | modifyPositionSltp (permitted : Bool) (p : PositionId) (stopLoss takeProfit : Option ℚ)

def PositionHash.setText (text : LevelText) (h : PositionHash) : LevelField → PositionHash
  | .sl => { h with sl := some text }
  | .tp => { h with tp := some text }

/-- ZADD with the number of the text, ZREM for `null`. -/
def Store.setIndex (st : Store) (f : LevelField) (s : Symbol) (p : PositionId) :
    LevelText → Option Store
  | .null => some (st.zrem f.index s p)
  | .num x => some (st.zadd f.index s p x)
  | .userdata => none

def Store.view (st : Store) (f : LevelField) (p : PositionId) : Option LevelView :=
  (st.hash p).map (·.view f)

/-- The orders and parameters of the scripts bring finite numbers: `Decimal`s,
and numbers of a JSON text. -/
instance (call : ScriptCall) : Decidable (Store.CallWithin FiniteF64 call) :=
  match call with
  | .placeOrder _ order => inferInstanceAs (Decidable
      ((∀ x ∈ order.stopLoss.tonumber, FiniteF64 x) ∧ ∀ x ∈ order.takeProfit.tonumber, FiniteF64 x))
  | .atomicReopenPositionWithParams _ _ params => inferInstanceAs (Decidable
      ((∀ x ∈ params.sl, FiniteF64 x) ∧ ∀ x ∈ params.tp, FiniteF64 x))
  | .atomicUpdatePositionParams _ _ params => inferInstanceAs (Decidable
      ((∀ x ∈ params.sl, FiniteF64 x) ∧ ∀ x ∈ params.tp, FiniteF64 x))
  | .atomicFillOrder .. => .isTrue trivial
  | .atomicCancelOrder .. => .isTrue trivial
  | .atomicClosePosition .. => .isTrue trivial
  | .atomicReopenPosition .. => .isTrue trivial

namespace SltpDesk
variable (parse : String → Option ParsedF64)

/-- The text of the level that the call asks for, if it can be read. -/
def requested (call : SltpCall) (f : LevelField) : Option LevelText :=
  (call.req.level f).bind fun text =>
    if text = "" ∨ text = "null" then some .null else (parse text).map ParsedF64.text

section Step
variable (s : SltpDesk) (t : ℕ) (r : RunningSltp)

def goOn (stage : SltpStage) : SltpDesk :=
  { s with calls := Function.update s.calls t (some { r with stage := stage }) }

def answer (success : Bool) : SltpDesk :=
  { s with calls := Function.update s.calls t none, answers := ⟨success, r.wrote⟩ :: s.answers }

/-- A level of the position is written. -/
def setField (f : LevelField) (symbol : Symbol) (text : LevelText) : SltpDesk :=
  let p := r.call.positionId
  { s with
    store := s.store.hset p (·.setText text f)
    calls := Function.update
      (fun u => (s.calls u).map fun other =>
        { other with disturbed := other.disturbed || decide (other.call.positionId = p) }) t
      (some { r with stage := .setIndex f symbol text, wrote := true })
    accepted := Function.update s.accepted p (Function.update (s.accepted p) f none) }

/-- The next command of `update_position_sltp`. -/
def advanceCall (now : Millis) : SltpStage → SltpDesk
  | .getUserId =>
    match (s.store.hash r.call.positionId).bind (·.userId) with
    | none => s.answer t r false
    | some owner =>
      if owner ≠ r.call.userId ∧ r.call.isOwnPosition then s.answer t r false
      else s.goOn t r .getSymbol
  | .getSymbol =>
    match (s.store.hash r.call.positionId).bind (·.symbol) with
    | none => s.answer t r false
    | some symbol => s.goOn t r (.setField .sl symbol)
  | .setField f symbol =>
    match r.call.req.level f, requested parse r.call f with
    | none, _ => s.goOn t r (.next f symbol)
    | some _, none => s.answer t r false
    | some _, some text => s.setField t r f symbol text
  | .setIndex f symbol text =>
    match s.store.setIndex f symbol r.call.positionId text with
    | none => s.answer t r false
    | some store => { s with store := store }.goOn t r (.next f symbol)
  | .setUpdatedAt =>
    let p := r.call.positionId
    { s with
      store := s.store.hset p fun h => { h with updatedAt := some now }
      accepted := if r.disturbed then s.accepted else
        Function.update s.accepted p fun f => (requested parse r.call f).or (s.accepted p f)
    }.answer t r true

/-- A script ran: what it did to levels and status is not an edit's any more. -/
def afterScript (store : Store) : SltpDesk where
  store := store
  calls := fun t => (s.calls t).map fun r =>
    { r with disturbed := r.disturbed || decide (¬ (store.view .sl r.call.positionId =
        s.store.view .sl r.call.positionId ∧
      store.view .tp r.call.positionId = s.store.view .tp r.call.positionId)) }
  answers := s.answers
  accepted := fun p f => if store.view f p = s.store.view f p then s.accepted p f else none

end Step

def step (s : SltpDesk) : SltpAction → Option SltpDesk
  | .edit t call permitted =>
    if s.calls t = none then
      if call.isOwnPosition ∨ permitted then
        some { s with calls := Function.update s.calls t (some { call := call }) }
      else some { s with answers := ⟨false, false⟩ :: s.answers }
    else none
  | .advance t now => (s.calls t).map fun r => s.advanceCall parse t r now r.stage
  | .fail t => (s.calls t).map fun r => s.answer t r false
  | .script call =>
    if Store.CallWithin FiniteF64 call then (s.store.call call).map s.afterScript else none
  -- the event `admin.position.sltp.modified` has no consumer
  | .modifyPositionSltp permitted p stopLoss takeProfit =>
    if permitted then
      let level : LevelField → Option ℚ
        | .sl => stopLoss
        | .tp => takeProfit
      some { s with
        accepted := Function.update s.accepted p fun f =>
          ((level f).map LevelText.num).or (s.accepted p f) }
    else some s

/-- A platform without positions. -/
def start : SltpDesk where
  store := .empty
  calls := fun _ => none
  answers := []
  accepted := fun _ _ => none

end SltpDesk

end TradingPlatform
