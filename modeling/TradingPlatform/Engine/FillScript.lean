import TradingPlatform.Engine.RedisStore

namespace TradingPlatform

def luaSpace (c : Char) : Bool :=
  c = ' ' || ('\t' ≤ c && c ≤ '\r')

/-- `string.lower(at_raw:match("^%s*(.-)%s*$")) == "netting"`. -/
def isNetting (accountType : Option String) : Bool :=
  match accountType with
  | none => false
  | some raw =>
    let trimmed := (((raw.toList.dropWhile luaSpace).reverse.dropWhile luaSpace).reverse)
    trimmed.map Char.toLower = "netting".toList

/-- The arguments of `atomic_fill_order.lua`; the leverage is `tonumber(ARGV[6])`. -/
structure FillArgs where
  orderId : OrderId
  fillPrice : ℚ
  fillSize : ℚ
  timestampMs : Millis
  positionUuid : PositionId
  effectiveLeverage : Option ℚ
  deriving DecidableEq, Repr

inductive FillAction
  | created | addedTo | reduced | closed | flipped
  deriving DecidableEq, Repr

/-- The JSON reply of a successful fill. `realizedPnl` is left out when it
is the text `0`. -/
structure FillResult where
  positionId : Option PositionId
  fillAction : FillAction
  closedPositionId : Option PositionId := none
  closedPositionSize : Option ℚ := none
  closedPositionSide : Option PositionSide := none
  realizedPnl : Option ℚ := none
  closedSize : Option ℚ := none
  deriving DecidableEq, Repr

inductive FillError
  | missingEffectiveLeverage
  | orderNotFound
  | orderNotPending (status : OrderStatus)
  | limitPriceNotMet
  deriving DecidableEq, Repr

/-- What the script works with once its checks have passed. -/
structure Fill where
  order : Order
  fillPrice : ℚ
  fillSize : ℚ
  timestampMs : Millis
  positionUuid : PositionId
  effectiveLeverage : ℚ
  leverage_pos : 0 < effectiveLeverage

def Store.zaddLevels (st : Store) (s : Symbol) (p : PositionId) (sl tp : JsonNum) :
    Except Store Store :=
  match st.zaddLevel .posSl s p sl with
  | .error st => .error st
  | .ok st => st.zaddLevel .posTp s p tp

/-- The hash is an open position on this symbol. -/
def PositionHash.IsOpenOn (h : PositionHash) (s : Symbol) : Prop :=
  h.symbol = some s ∧ h.status = some .OPEN

instance (h : PositionHash) (s : Symbol) : Decidable (h.IsOpenOn s) :=
  inferInstanceAs (Decidable (_ ∧ _))

def OldPosition.IsOpenOn (pos : OldPosition) (s : Symbol) : Prop :=
  pos.symbol = s ∧ pos.status = .OPEN

instance (pos : OldPosition) (s : Symbol) : Decidable (pos.IsOpenOn s) :=
  inferInstanceAs (Decidable (_ ∧ _))

def PositionSide.opposite : PositionSide → PositionSide
  | .LONG => .SHORT
  | .SHORT => .LONG

namespace Fill

/-- `(order_side == "BUY") and "LONG" or "SHORT"`. -/
def newSide (fill : Fill) : PositionSide := fill.order.side.opens

def netting (fill : Fill) : Bool := isNetting fill.order.accountType

def posLevOrFill (fill : Fill) (hgetVal : Option ℚ) (jsonLev : JsonNum) : ℚ :=
  match hgetVal.filter (0 < ·), jsonLev.tonumber.filter (0 < ·) with
  | some v, _ => v
  | none, some v => v
  | none, none => fill.effectiveLeverage

def totalSize (fill : Fill) (posSize : ℚ) : ℚ := posSize + fill.fillSize

/-- `total_notional / total_size`. -/
def newEntryPrice (fill : Fill) (posSize posEntryPrice : ℚ) : ℚ :=
  (posEntryPrice * posSize + fill.fillPrice * fill.fillSize) / fill.totalSize posSize

/-- The HSETs of a same-side merge into a position with this size, entry
price and leverage field. -/
def mergeHash (fill : Fill) (posSize posEntryPrice : ℚ) (leverage : Option ℚ)
    (h : PositionHash) : PositionHash :=
  let newEntry := fill.newEntryPrice posSize posEntryPrice
  { h with
    size := some (fill.totalSize posSize)
    entryPrice := some newEntry
    avgPrice := some newEntry
    margin := some (fill.totalSize posSize * newEntry / fill.posLevOrFill leverage .absent)
    updatedAt := some fill.timestampMs }

def added (p : PositionId) : FillResult := { positionId := some p, fillAction := .addedTo }

/-- Netting, same side, hash format: merge and let the order's levels
overwrite the index entries. -/
def addTo (st : Store) (fill : Fill) (p : PositionId) (h : PositionHash) :
    Except Store (Store × FillResult) :=
  let posSize := h.size.getD 0
  let posEntryPrice := h.entryPrice.getD 0
  let st := st.hset p (fill.mergeHash posSize posEntryPrice h.leverage)
  let st := st.zadd .posOpen fill.order.symbol p (fill.newEntryPrice posSize posEntryPrice)
  match st.zaddLevels fill.order.symbol p fill.order.stopLoss fill.order.takeProfit with
  | .error st => .error st
  | .ok st => .ok (st, added p)

/-- The HSETs that carry an old JSON position over to a hash. -/
def migratedHash (fill : Fill) (pos : OldPosition) (h : PositionHash) : PositionHash :=
  let posSize := pos.size.getD 0
  let newEntry := fill.newEntryPrice posSize (pos.entryPrice.getD 0)
  let posLeverage := fill.posLevOrFill none pos.leverage
  { h with
    userId := some fill.order.userId
    symbol := some fill.order.symbol
    groupId := some (fill.order.groupId.getD "")
    side := some fill.newSide
    size := some (fill.totalSize posSize)
    entryPrice := some newEntry
    avgPrice := some newEntry
    leverage := some posLeverage
    margin := some (fill.totalSize posSize * newEntry / posLeverage)
    unrealizedPnl := some (pos.unrealizedPnl.getD 0)
    realizedPnl := some (pos.realizedPnl.getD 0)
    status := some .OPEN
    openedAt := some (pos.openedAt.getD fill.timestampMs)
    updatedAt := some fill.timestampMs
    sl := some pos.stopLoss.levelText
    tp := some pos.takeProfit.levelText }

/-- Netting, same side, old format: the position moves to the fill's uuid;
`leaveSet` drops the old id from the set it was listed in. -/
def migrate (st : Store) (fill : Fill) (pos : OldPosition) (leaveSet : Store → Store) :
    Except Store (Store × FillResult) :=
  let p := fill.positionUuid
  let st := st.hset p (fill.migratedHash pos)
  let st := (leaveSet st).sadd fill.order.userId p
  let st := st.zadd .posOpen fill.order.symbol p
    (fill.newEntryPrice (pos.size.getD 0) (pos.entryPrice.getD 0))
  match st.zaddLevels fill.order.symbol p pos.stopLoss pos.takeProfit with
  | .error st => .error st
  | .ok st => .ok (st, added p)

/-- Netting, same side, old JSON under an id that is no `pos-N`: only the
merged numbers are written to the hash. -/
def updateOld (st : Store) (fill : Fill) (p : PositionId) (pos : OldPosition) :
    Except Store (Store × FillResult) :=
  let posSize := pos.size.getD 0
  let posEntryPrice := pos.entryPrice.getD 0
  let leverage := (st.hash p).bind (·.leverage)
  let st := st.hset p (fill.mergeHash posSize posEntryPrice leverage)
  let st := st.zadd .posOpen fill.order.symbol p (fill.newEntryPrice posSize posEntryPrice)
  match st.zaddLevels fill.order.symbol p fill.order.stopLoss fill.order.takeProfit with
  | .error st => .error st
  | .ok st => .ok (st, added p)

/-- The loop over `pos:{user_id}`. Every branch that writes also breaks, so
all reads see the store the loop started from. `none` when no branch was taken. -/
def existingLoop (st : Store) (fill : Fill) :
    List PositionId → Option (Except Store (Store × FillResult))
  | [] => none
  | p :: rest =>
    match st.hash p with
    | some h =>
      if h.IsOpenOn fill.order.symbol ∧ h.side = some fill.newSide then
        if fill.netting then some (addTo st fill p h) else none
      else existingLoop st fill rest
    | none =>
      match st.oldPositions p with
      | some pos =>
        if pos.IsOpenOn fill.order.symbol ∧ pos.side = fill.newSide then
          if fill.netting then
            match p with
            | .legacy _ => some (migrate st fill pos (·.srem fill.order.userId p))
            | .uuid _ => some (updateOld st fill p pos)
          else none
        else existingLoop st fill rest
      | none => existingLoop st fill rest

/-- The loop over `user:{user_id}:positions`, skipping the ids of the first loop. -/
def oldLoop (st : Store) (fill : Fill) (existing : List PositionId) :
    List PositionId → Option (Except Store (Store × FillResult))
  | [] => none
  | p :: rest =>
    if p ∈ existing then oldLoop st fill existing rest
    else
      match st.oldPositions p with
      | some pos =>
        if pos.IsOpenOn fill.order.symbol ∧ pos.side = fill.newSide then
          if fill.netting then some (migrate st fill pos (·.sremOld fill.order.userId p)) else none
        else oldLoop st fill existing rest
      | none => oldLoop st fill existing rest

/-- The HSETs of a newly opened position. -/
def openHash (fill : Fill) (size leverage : ℚ) (h : PositionHash) : PositionHash :=
  let margin := size * fill.fillPrice / leverage
  { h with
    userId := some fill.order.userId
    symbol := some fill.order.symbol
    groupId := some (fill.order.groupId.getD "")
    side := some fill.newSide
    size := some size
    entryPrice := some fill.fillPrice
    avgPrice := some fill.fillPrice
    leverage := some leverage
    margin := some margin
    marginFromCash := some (fill.order.marginFromCash.tonumber.getD margin)
    marginFromBonus := some (fill.order.marginFromBonus.tonumber.getD 0)
    unrealizedPnl := some 0
    realizedPnl := some 0
    status := some .OPEN
    openedAt := some fill.timestampMs
    updatedAt := some fill.timestampMs
    sl := some fill.order.stopLoss.levelText
    tp := some fill.order.takeProfit.levelText }

/-- Opens a position under the fill's uuid: the new position of a plain fill
and the residual one of a flip. -/
def openPosition (st : Store) (fill : Fill) (size leverage : ℚ) : Except Store Store :=
  let p := fill.positionUuid
  let st := st.hset p (fill.openHash size leverage)
  let st := st.sadd fill.order.userId p
  let st := st.zadd .posOpen fill.order.symbol p fill.fillPrice
  st.zaddLevels fill.order.symbol p fill.order.stopLoss fill.order.takeProfit

/-- PnL of closing `size` of a position at the given price. -/
def pnlClose (side : Option PositionSide) (entry exit size : ℚ) : ℚ :=
  if side = some .LONG then (exit - entry) * size else (entry - exit) * size

/-- `tostring(pnl)`, kept in the reply unless it is the text `0`. -/
def pnlField (pnl : ℚ) : Option ℚ := if pnl = 0 then none else some pnl

/-- The HSETs of a netting reduction. -/
def reducedHash (fill : Fill) (newSize posEntry posLeverage newRealized : ℚ)
    (h : PositionHash) : PositionHash :=
  { h with
    size := some newSize
    margin := some (newSize * posEntry / posLeverage)
    realizedPnl := some newRealized
    updatedAt := some fill.timestampMs }

/-- The HSETs of a netting close. -/
def closedHash (fill : Fill) (newRealized : ℚ) (h : PositionHash) : PositionHash :=
  { h with
    size := some 0
    realizedPnl := some newRealized
    status := some .CLOSED
    updatedAt := some fill.timestampMs }

/-- The writes that close a netted position, alone or before a flip. -/
def closeNetted (st : Store) (fill : Fill) (p : PositionId) (newRealized : ℚ) : Store :=
  let st := st.hset p (fill.closedHash newRealized)
  (st.srem fill.order.userId p).unindex fill.order.symbol p

/-- Netting against an open position of the opposite side: reduce, close or flip. -/
def netAgainst (st : Store) (fill : Fill) (p : PositionId) (h : PositionHash) :
    Except Store (Store × FillResult) :=
  let posSize := h.size.getD 0
  let posEntry := h.entryPrice.getD 0
  let posLeverage := fill.posLevOrFill h.leverage .absent
  let newSize := posSize - fill.fillSize
  let pnl := pnlClose h.side posEntry fill.fillPrice (min posSize fill.fillSize)
  let newRealized := h.realizedPnl.getD 0 + pnl
  if 0 < newSize then
    let st := st.hset p (fill.reducedHash newSize posEntry posLeverage newRealized)
    let st := st.zadd .posOpen fill.order.symbol p posEntry
    .ok (st, { positionId := some p, fillAction := .reduced, realizedPnl := pnlField pnl })
  else
    let st := closeNetted st fill p newRealized
    let result : FillResult :=
      { positionId := none, fillAction := .closed, closedPositionId := some p
        closedPositionSize := some posSize, closedPositionSide := h.side
        realizedPnl := pnlField pnl, closedSize := some posSize }
    if newSize = 0 then .ok (st, result)
    else
      match openPosition st fill (-newSize) posLeverage with
      | .error st => .error st
      | .ok st =>
        .ok (st, { result with positionId := some fill.positionUuid, fillAction := .flipped })

/-- The second loop over `pos:{user_id}`, for netting accounts only. -/
def oppositeLoop (st : Store) (fill : Fill) :
    List PositionId → Option (Except Store (Store × FillResult))
  | [] => none
  | p :: rest =>
    match st.hash p with
    | some h =>
      if h.IsOpenOn fill.order.symbol ∧ h.side = some fill.newSide.opposite then
        some (netAgainst st fill p h)
      else oppositeLoop st fill rest
    | none => oppositeLoop st fill rest

def create (st : Store) (fill : Fill) : Except Store (Store × FillResult) :=
  match openPosition st fill fill.fillSize fill.effectiveLeverage with
  | .error st => .error st
  | .ok st => .ok (st, { positionId := some fill.positionUuid, fillAction := .created })

/-- The position part of the script, after the order has been written. -/
def applyToPositions (st : Store) (fill : Fill) (existing old : List PositionId) :
    Except Store (Store × FillResult) :=
  match existingLoop st fill existing with
  | some done => done
  | none =>
    match oldLoop st fill existing old with
    | some done => done
    | none =>
      match if fill.netting then oppositeLoop st fill existing else none with
      | some done => done
      | none => create st fill

end Fill

/-- The LIMIT price condition; `none` when the comparison with a null limit
price raises. -/
def limitPriceMet (order : Order) (fillPrice : ℚ) : Option Bool :=
  match order.orderType, order.limitPrice with
  | .MARKET, _ => some true
  | .LIMIT, .absent => some true
  | .LIMIT, .null => none
  | .LIMIT, .num limit =>
    match order.side with
    | .BUY => some (decide (fillPrice ≤ limit))
    | .SELL => some (decide (limit ≤ fillPrice))

def Order.filled (order : Order) (args : FillArgs) : Order :=
  { order with
    status := .FILLED
    filledSize := args.fillSize
    averageFillPrice := .num args.fillPrice
    updatedAt := args.timestampMs
    filledAt := some args.timestampMs }

def Fill.ofArgs (args : FillArgs) (order : Order) (el : ℚ) (leverage_pos : 0 < el) : Fill where
  order := order.filled args
  fillPrice := args.fillPrice
  fillSize := args.fillSize
  timestampMs := args.timestampMs
  positionUuid := args.positionUuid
  effectiveLeverage := el
  leverage_pos := leverage_pos

/-- SET of the filled order and its ZREM from the pending set. -/
def Store.markFilled (st : Store) (args : FillArgs) (order : Order) : Store :=
  (st.setOrder args.orderId (order.filled args)).zremPending order.symbol args.orderId

/-- `atomic_fill_order.lua`. `existing` and `old` are the replies of the two
SMEMBERS calls. -/
def atomicFillOrder (st : Store) (args : FillArgs) (existing old : List PositionId) :
    ScriptOutcome FillError FillResult :=
  match args.effectiveLeverage with
  | none => .error st .missingEffectiveLeverage
  | some el =>
    if leverage_pos : 0 < el then
      match st.orders args.orderId with
      | none => .error st .orderNotFound
      | some order =>
        if order.status ≠ .PENDING then .error st (.orderNotPending order.status)
        else
          match limitPriceMet order args.fillPrice with
          | none => .raised st
          | some false => .error st .limitPriceNotMet
          | some true =>
            match Fill.applyToPositions (st.markFilled args order)
              (Fill.ofArgs args order el leverage_pos) existing old with
            | .error st => .raised st
            | .ok (st, result) => .success st result
    else .error st .missingEffectiveLeverage

end TradingPlatform
