import TradingPlatform.Engine.CloseScript

namespace TradingPlatform

/-- The fields the reopen and update scripts reply with. -/
structure ReopenResult where
  positionId : PositionId
  symbol : Symbol
  size : ℚ
  entryPrice : ℚ
  side : Option PositionSide := none
  deriving DecidableEq, Repr

inductive ReopenError
  | positionNotFound
  | positionNotClosed (status : Option PositionStatus)
  | cannotReopen
  | invalidPosition
  deriving DecidableEq, Repr

inductive UpdateError
  | positionNotFound
  | positionNotOpen (status : Option PositionStatus)
  | invalidPosition
  | positionMissingLeverage
  deriving DecidableEq, Repr

def PositionStatus.Closed : PositionStatus → Prop
  | .OPEN => False
  | .CLOSED => True
  | .LIQUIDATED => True

instance : DecidablePred PositionStatus.Closed
  | .OPEN => inferInstanceAs (Decidable False)
  | .CLOSED => inferInstanceAs (Decidable True)
  | .LIQUIDATED => inferInstanceAs (Decidable True)

namespace Store

/-- `if sl and sl ~= '' and sl ~= 'null' then ZADD tonumber(sl)` on the hash's
own level field. -/
def zaddStored (st : Store) (k : PriceIndex) (s : Symbol) (p : PositionId) :
    Option LevelText → Except Store Store
  | none => .ok st
  | some .null => .ok st
  | some .userdata => .error st
  | some (.num x) => .ok (st.zadd k s p x)

def zaddStoredLevels (st : Store) (s : Symbol) (p : PositionId) (sl tp : Option LevelText) :
    Except Store Store :=
  match st.zaddStored .posSl s p sl with
  | .error st => .error st
  | .ok st => st.zaddStored .posTp s p tp

/-- HSET and ZADD of an override for a level, if one was given. -/
def setLevel (st : Store) (k : PriceIndex) (s : Symbol) (p : PositionId)
    (write : LevelText → PositionHash → PositionHash) : Option ℚ → Store
  | none => st
  | some x => (st.hset p (write (.num x))).zadd k s p x

/-- Both levels taken off the hash and the indexes, then set to the overrides. -/
def replaceLevels (st : Store) (s : Symbol) (p : PositionId) (sl tp : Option ℚ) : Store :=
  let st := (st.zrem .posSl s p).zrem .posTp s p
  let st := st.hset p fun h => { h with sl := none, tp := none }
  let st := st.setLevel .posSl s p (fun level h => { h with sl := some level }) sl
  st.setLevel .posTp s p (fun level h => { h with tp := some level }) tp

end Store

/-- An override counts only when it is a positive number. -/
def positiveOr (override : Option ℚ) (existing : ℚ) : ℚ :=
  (override.filter (0 < ·)).getD existing

def PositionHash.restoreSize (h : PositionHash) : ℚ :=
  (h.originalSize.orElse fun _ => h.size).getD 0

/-- The HSETs and HDELs of `atomic_reopen_position.lua`. -/
def PositionHash.reopened (timestampMs : Millis) (h : PositionHash) : PositionHash :=
  { h with
    status := some .OPEN
    size := some h.restoreSize
    avgPrice := some (h.entryPrice.getD 0)
    updatedAt := some timestampMs
    exitPrice := none
    closedAt := none }

/-- `atomic_reopen_position.lua` -/
def atomicReopenPosition (st : Store) (p : PositionId) (timestampMs : Millis) :
    ScriptOutcome ReopenError ReopenResult :=
  match st.hash p with
  | none => .error st .positionNotFound
  | some h =>
    if ¬ ∃ status ∈ h.status, status.Closed then .error st (.positionNotClosed h.status)
    else if h.restoreSize = 0 then .error st .cannotReopen
    else
      match h.symbol, h.userId with
      | some symbol, some _ =>
        let entry := h.entryPrice.getD 0
        let st := (st.hset p (·.reopened timestampMs)).zadd .posOpen symbol p entry
        match st.zaddStoredLevels symbol p h.sl h.tp with
        | .error st => .raised st
        | .ok st =>
          .success st
            { positionId := p, symbol := symbol, size := h.restoreSize, entryPrice := entry }
      | _, _ => .error st .invalidPosition

/-- The overrides of the two parameter scripts; the side one is used when
reopening. An empty or non-numeric argument is `none`. -/
structure ParamOverrides where
  size : Option ℚ := none
  entryPrice : Option ℚ := none
  side : Option PositionSide := none
  sl : Option ℚ := none
  tp : Option ℚ := none
  deriving DecidableEq, Repr

/-- The first HSETs and HDELs of `atomic_reopen_position_with_params.lua`. -/
def PositionHash.reopenedWith (timestampMs : Millis) (params : ParamOverrides)
    (h : PositionHash) : PositionHash :=
  let restoreEntry := positiveOr params.entryPrice (h.entryPrice.getD 0)
  { h with
    status := some .OPEN
    size := some (positiveOr params.size h.restoreSize)
    entryPrice := some restoreEntry
    avgPrice := some restoreEntry
    side := some (params.side.getD (h.side.getD .LONG))
    updatedAt := some timestampMs
    exitPrice := none
    closedAt := none }

/-- `atomic_reopen_position_with_params.lua` -/
def atomicReopenPositionWithParams (st : Store) (p : PositionId) (timestampMs : Millis)
    (params : ParamOverrides) : ScriptOutcome ReopenError ReopenResult :=
  match st.hash p with
  | none => .error st .positionNotFound
  | some h =>
    let restoreSize := positiveOr params.size h.restoreSize
    let restoreEntry := positiveOr params.entryPrice (h.entryPrice.getD 0)
    if ¬ ∃ status ∈ h.status, status.Closed then .error st (.positionNotClosed h.status)
    else if restoreSize = 0 then .error st .cannotReopen
    else
      match h.symbol, h.userId with
      | some symbol, some _ =>
        let st := st.hset p (·.reopenedWith timestampMs params)
        let st := st.replaceLevels symbol p params.sl params.tp
        .success (st.zadd .posOpen symbol p restoreEntry)
          { positionId := p, symbol := symbol, size := restoreSize, entryPrice := restoreEntry
            side := some (params.side.getD (h.side.getD .LONG)) }
      | _, _ => .error st .invalidPosition

/-- The entry price the update script starts from. -/
def PositionHash.entryOrAvg (h : PositionHash) : ℚ :=
  (h.entryPrice.orElse fun _ => h.avgPrice).getD 0

/-- The HSETs of `atomic_update_position_params.lua` before its leverage check. -/
def PositionHash.resized (timestampMs : Millis) (size entryPrice : ℚ) (h : PositionHash) :
    PositionHash :=
  { h with
    size := some size
    entryPrice := some entryPrice
    avgPrice := some entryPrice
    updatedAt := some timestampMs }

/-- `atomic_update_position_params.lua`. A missing leverage is reported after
size and entry price have been written. -/
def atomicUpdatePositionParams (st : Store) (p : PositionId) (timestampMs : Millis)
    (params : ParamOverrides) : ScriptOutcome UpdateError ReopenResult :=
  match st.hash p with
  | none => .error st .positionNotFound
  | some h =>
    if h.status ≠ some .OPEN then .error st (.positionNotOpen h.status)
    else
      match h.symbol, h.userId with
      | some symbol, some _ =>
        let newSize := positiveOr params.size (h.size.getD 0)
        let newEntry := positiveOr params.entryPrice h.entryOrAvg
        let st := st.hset p (·.resized timestampMs newSize newEntry)
        match h.leverage.filter (0 < ·) with
        | none => .error st .positionMissingLeverage
        | some leverage =>
          let st := st.hset p fun h => { h with margin := some (newSize * newEntry / leverage) }
          let st := st.replaceLevels symbol p params.sl params.tp
          .success (st.zadd .posOpen symbol p newEntry)
            { positionId := p, symbol := symbol, size := newSize, entryPrice := newEntry }
      | _, _ => .error st .invalidPosition

def Order.canceled (order : Order) (timestampMs : Millis) : Order :=
  { order with status := .CANCELED, updatedAt := timestampMs, canceledAt := some timestampMs }

/-- The record `reject_market_order_slippage_exceeded` writes. -/
def Order.rejected (order : Order) (reason : String) (timestampMs : Millis) : Order :=
  { order with status := .REJECTED, rejectionReason := some reason, updatedAt := timestampMs }

/-- `atomic_cancel_order.lua`: whether the reply is `1`, and the store. -/
def atomicCancelOrder (st : Store) (o : OrderId) (timestampMs : Millis) : Bool × Store :=
  match st.orders o with
  | none => (false, st)
  | some order =>
    if order.status ≠ .PENDING then (false, st)
    else (true, (st.setOrder o (order.canceled timestampMs)).zremPending order.symbol o)

end TradingPlatform
