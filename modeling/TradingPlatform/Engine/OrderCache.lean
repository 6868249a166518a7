import TradingPlatform.Engine.RedisStore

namespace TradingPlatform

/-- `s.trim().to_uppercase()` -/
def normalizeSymbol (s : Symbol) : Symbol :=
  let trimmed := ((s.toList.dropWhile Char.isWhitespace).reverse.dropWhile Char.isWhitespace).reverse
  String.ofList (trimmed.map Char.toUpper)

structure Tick where
  symbol : Symbol
  bid : ℚ
  ask : ℚ
  deriving DecidableEq, Repr

def tickKey (symbol : Symbol) (groupId : Option GroupId) : String :=
  normalizeSymbol symbol ++ ":" ++ groupId.getD ""

/-- The in-memory cache of the order engine. -/
structure OrderCache where
  pendingOrders : Symbol → Finset OrderId
  orders : OrderId → Option Order
  lastTicks : String → Option Tick

namespace OrderCache

def new : OrderCache where
  pendingOrders := fun _ => ∅
  orders := fun _ => none
  lastTicks := fun _ => none

def addPendingOrder (c : OrderCache) (symbol : Symbol) (o : OrderId) (order : Order) : OrderCache :=
  let key := normalizeSymbol symbol
  { c with
    pendingOrders := Function.update c.pendingOrders key (insert o (c.pendingOrders key))
    orders := Function.update c.orders o (some order) }

def removePendingOrder (c : OrderCache) (symbol : Symbol) (o : OrderId) : OrderCache :=
  let key := normalizeSymbol symbol
  { c with
    pendingOrders := Function.update c.pendingOrders key ((c.pendingOrders key).erase o)
    orders := Function.update c.orders o none }

def getPendingOrders (c : OrderCache) (symbol : Symbol) : Finset OrderId :=
  c.pendingOrders (normalizeSymbol symbol)

def updateOrder (c : OrderCache) (order : Order) : OrderCache :=
  { c with orders := Function.update c.orders order.id (some order) }

def updateTick (c : OrderCache) (tick : Tick) (groupId : Option GroupId) : OrderCache :=
  { c with lastTicks := Function.update c.lastTicks (tickKey tick.symbol groupId) (some tick) }

def getLastTick (c : OrderCache) (symbol : Symbol) (groupId : Option GroupId) : Option Tick :=
  c.lastTicks (tickKey symbol groupId)

end OrderCache

end TradingPlatform
