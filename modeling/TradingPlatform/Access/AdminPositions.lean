import TradingPlatform.Access.Scope
import TradingPlatform.Auth.RequestTexts
import TradingPlatform.Library.Pages
import TradingPlatform.Pricing.SymbolKeys

namespace TradingPlatform.Access
open Pages
open RequestTexts (eqIgnoreAsciiCase)

/-- A hash of Redis, whose fields and values are texts. -/
abbrev Hash := String → Option String

/-- The numbers of the listings: `f64`, whose arithmetic is the machine's, and
the `Decimal`s that are printed and read back as `f64`. -/
structure Numbers (F : Type) where
  parse : String → Option F
  zero : F
  positive : F → Bool
  add : F → F → F
  /-- `(pnl / margin) * 100.0` -/
  percent : F → F → F
  /-- `Decimal::from_str(&x.to_string()).unwrap_or(Decimal::ZERO)` -/
  decimal : F → ℚ
  /-- `d.to_string().parse().unwrap_or(0.0)` -/
  float : ℚ → F

/-- The texts of the libraries for UUIDs, letter case and dates. -/
structure Formats where
  parseUuid : String → Option Uuid
  showUuid : Uuid → String
  toLowercase : String → String
  toUppercase : String → String
  /-- Seconds and nanoseconds, as `%Y-%m-%d %H:%M:%S`. -/
  datetime : ℤ → ℤ → Option String

/-- `str::parse` to a signed integer of so many bits. -/
def parseInteger (bits : ℕ) (s : String) : Option ℤ :=
  let digits (u : List Char) : Option ℕ :=
    if u ≠ [] ∧ u.all Char.isDigit then some (Nat.ofDigitChars 10 u 0) else none
  let value : Option ℤ := match s.toList with
    | '+' :: rest => (digits rest).map (↑)
    | '-' :: rest => (digits rest).map fun n => -(n : ℤ)
    | all => (digits all).map (↑)
  value.filter fun n => -2 ^ (bits - 1) ≤ n ∧ n < 2 ^ (bits - 1)

/-- `str::trim_start_matches` of a text: as often as it stands there. -/
def trimStartMatches (pattern : List Char) : ℕ → List Char → List Char
  | 0, s => s
  | fuel + 1, s =>
    if pattern <+: s then trimStartMatches pattern fuel (s.drop pattern.length) else s

/-- `str::contains` -/
def contains (s part : String) : Bool := part.toList <:+: s.toList

structure AdminPosition (F : Type) where
  id : String
  userId : String
  userName : String
  userEmail : Option String
  groupId : String
  groupName : String
  symbolId : String
  symbol : String
  side : String
  size : F
  entryPrice : F
  markPrice : F
  leverage : ℤ
  marginUsed : F
  marginAvailable : Option F
  liquidationPrice : F
  pnl : F
  pnlPercent : F
  status : String
  stopLoss : Option F
  takeProfit : Option F
  openedAt : String
  closedAt : Option String
  lastUpdatedAt : String
  accumulatedSwapUsd : F
  accumulatedFeesUsd : F
  deriving DecidableEq, Repr

structure ListPositionsQuery where
  status : Option String := none
  symbol : Option String := none
  userId : Option String := none
  groupId : Option String := none
  search : Option String := none
  limit : Option ℤ := none
  cursor : Option String := none
  deriving DecidableEq, Repr

structure PaginatedResponse (F : Type) where
  items : List (AdminPosition F)
  cursor : Option String
  hasMore : Bool
  total : Option ℤ
  totalMarginUsed : Option F
  totalUnrealizedPnl : Option F
  totalRealizedPnl : Option F
  deriving DecidableEq, Repr

/-- What the listings find in Redis and Postgres. -/
structure Desk where
  tables : Tables
  /-- `KEYS pos:by_id:*` -/
  positionKeys : List String
  /-- `HGETALL`, which fails on a key of another type. -/
  hgetall : String → Option Hash
  /-- `KEYS pos:open:*`, each with its `ZRANGE`. -/
  openIndexes : List (String × List String)
  /-- A text under a price key, if it is one of two decimals. -/
  prices : String → Option (Option (ℚ × ℚ))
  /-- `accumulated_swap_usd` and `accumulated_fees_usd` of a row of `positions`. -/
  costs : Uuid → Option (ℚ × ℚ)

def posByIdPrefix : String := "pos:by_id:"

section Source
variable {F : Type} (numbers : Numbers F) (formats : Formats)

/-- `get_price_from_redis_conn` over the keys that are left to try. -/
def getPriceFromRedisConn (prices : String → Option (Option (ℚ × ℚ))) :
    List String → Option (ℚ × ℚ)
  | [] => none
  | key :: keys =>
    match prices key with
    | none => getPriceFromRedisConn prices keys
    | some none => none
    | some (some (bid, ask)) =>
      if bid ≤ 0 ∨ ask ≤ 0 then getPriceFromRedisConn prices keys else some (bid, ask)

def formatTsMs (ms : ℤ) : String :=
  if ms ≤ 0 then "—"
  else (formats.datetime (ms / 1000) (ms % 1000 * 1000000)).getD "—"

/-- The position's status is one of these, and it is of the symbol, of the user
and of an allowed user. -/
def selects (statuses : List String) (q : ListPositionsQuery) (allowed : Option (List Uuid))
    (m : Hash) : Bool :=
  statuses.any (eqIgnoreAsciiCase ((m "status").getD "")) &&
    q.symbol.all (fun symbol => m "symbol" = some symbol) &&
    q.userId.all (fun userId => m "user_id" = some userId) &&
    allowed.all fun ids => ((m "user_id").bind formats.parseUuid).any (· ∈ ids)

/-- A user's name, email, group and group name in `user_map`. -/
def userMap (t : Tables) (user : Uuid) : Option (String × Option String × Option Uuid × String) :=
  (t.users.lookup user).map fun row =>
    let name := match row.firstName, row.lastName with
      | some first, some last => sqlTrim (first ++ " " ++ last)
      | _, _ => ""
    (name, some row.email, row.groupId, (row.groupId.bind t.userGroups.lookup).getD "—")

/-- `(user_name, user_email, group_id, group_name)` of a row -/
def userInfo (t : Tables) (user : Uuid) : String × Option String × Option Uuid × String :=
  (userMap t user).getD ("—", none, none, "—")

def number (m : Hash) (field : String) : Option F := (m field).bind numbers.parse

def millis (m : Hash) (field : String) : Option ℤ := (m field).bind (parseInteger 64)

def percentOf (pnl margin : F) : F :=
  if numbers.positive margin then numbers.percent pnl margin else numbers.zero

/-- A closed position with the time it is sorted by. -/
def closedRow (t : Tables) (id : String) (m : Hash) : Option (ℤ × AdminPosition F) :=
  let userId := (m "user_id").getD ""
  (formats.parseUuid userId).map fun user =>
    let (userName, userEmail, groupId, groupName) := userInfo t user
    let symbol := (m "symbol").getD "—"
    let entryPrice := (number numbers m "entry_price").getD numbers.zero
    let avgPrice := (number numbers m "avg_price").getD entryPrice
    let marginUsed :=
      (((m "margin_used").or (m "margin")).bind numbers.parse).getD numbers.zero
    let pnl := (((m "realized_pnl").or (m "pnl")).bind numbers.parse).getD numbers.zero
    let updatedAt := (millis m "updated_at").getD 0
    let closedAt := (millis m "closed_at").getD updatedAt
    (max closedAt updatedAt,
      { id, userId, userName, userEmail
        groupId := (groupId.map formats.showUuid).getD "—"
        groupName
        symbolId := symbol
        symbol
        side := (m "side").getD "LONG"
        size := (((m "original_size").or (m "size")).bind numbers.parse).getD numbers.zero
        entryPrice
        markPrice := (((m "exit_price").or (m "mark_price")).bind numbers.parse).getD avgPrice
        leverage := ((m "leverage").bind (parseInteger 32)).getD 1
        marginUsed
        marginAvailable := none
        liquidationPrice := (number numbers m "liquidation_price").getD numbers.zero
        pnl
        pnlPercent := percentOf numbers pnl marginUsed
        status := ((m "status").map formats.toUppercase).getD "CLOSED"
        stopLoss := number numbers m "sl"
        takeProfit := number numbers m "tp"
        openedAt := formatTsMs formats ((millis m "opened_at").getD 0)
        closedAt := some (formatTsMs formats closedAt)
        lastUpdatedAt := formatTsMs formats updatedAt
        accumulatedSwapUsd := numbers.zero
        accumulatedFeesUsd := numbers.zero })

/-- An open position with the time it is sorted by. -/
def openRow (t : Tables) (id : String) (m : Hash) : Option (ℤ × AdminPosition F) :=
  let userId := (m "user_id").getD ""
  (formats.parseUuid userId).map fun user =>
    let (userName, userEmail, groupId, groupName) := userInfo t user
    let symbol := (m "symbol").getD "—"
    let entryPrice := (number numbers m "entry_price").getD numbers.zero
    let margin := (number numbers m "margin").getD numbers.zero
    let unrealizedPnl := (number numbers m "unrealized_pnl").getD numbers.zero
    let openedAt := (millis m "opened_at").getD 0
    (openedAt,
      { id, userId, userName, userEmail
        groupId := (groupId.map formats.showUuid).getD "—"
        groupName
        symbolId := symbol
        symbol
        side := (m "side").getD "LONG"
        size := (number numbers m "size").getD numbers.zero
        entryPrice
        markPrice := (number numbers m "avg_price").getD entryPrice
        leverage := ((m "leverage").bind (parseInteger 32)).getD 1
        marginUsed := margin
        marginAvailable := none
        liquidationPrice := numbers.zero
        pnl := unrealizedPnl
        pnlPercent := percentOf numbers unrealizedPnl margin
        status := "OPEN"
        stopLoss := number numbers m "sl"
        takeProfit := number numbers m "tp"
        openedAt := formatTsMs formats openedAt
        closedAt := none
        lastUpdatedAt := formatTsMs formats ((millis m "updated_at").getD 0)
        accumulatedSwapUsd := numbers.zero
        accumulatedFeesUsd := numbers.zero })

/-- What `retain` keeps: the rows of the group in which the text is found. -/
def retained (q : ListPositionsQuery) (p : AdminPosition F) : Bool :=
  q.groupId.all (p.groupId = ·) &&
    q.search.all fun search =>
      let s := formats.toLowercase search
      contains (formats.toLowercase p.id) s || contains (formats.toLowercase p.symbol) s ||
        contains (formats.toLowercase p.side) s || contains (formats.toLowercase p.status) s ||
        contains (formats.toLowercase p.groupName) s ||
        contains (formats.toLowercase p.userName) s ||
        p.userEmail.any fun email => contains (formats.toLowercase email) s

/-- The rows that are kept, from the latest. -/
def keyed (q : ListPositionsQuery) (rows : List (ℤ × AdminPosition F)) :
    List (ℤ × AdminPosition F) :=
  (rows.filter fun row => retained formats q row.2).insertionSort fun a b => b.1 ≤ a.1

def attachCosts (costs : Uuid → Option (ℚ × ℚ)) (p : AdminPosition F) : AdminPosition F :=
  match (formats.parseUuid p.id).bind costs with
  | none => p
  | some (swap, fees) =>
    { p with accumulatedSwapUsd := numbers.float swap, accumulatedFeesUsd := numbers.float fees }

/-- The page of the rows that the query asks for, with their costs. -/
def pageOf (costs : Uuid → Option (ℚ × ℚ)) (q : ListPositionsQuery)
    (rows : List (AdminPosition F)) : List (AdminPosition F) × Option String :=
  let limit := min (q.limit.getD 50) 500
  let offset := (q.cursor.bind (parseInteger 64)).getD 0
  let items := ((rows.drop (asUsize offset)).take (asUsize limit)).map (attachCosts numbers formats costs)
  (items, if offset + items.length < rows.length then some (toString (offset + limit)) else none)

/-- The hashes that a listing of closed positions goes through. -/
def closedCandidates (d : Desk) : List (String × Hash) :=
  (d.positionKeys.filter fun key => posByIdPrefix.toList <+: key.toList).filterMap fun key =>
    (d.hgetall key).map fun m =>
      (String.ofList (trimStartMatches posByIdPrefix.toList key.length key.toList), m)

def closedKeyed (d : Desk) (q : ListPositionsQuery) (allowed : Option (List Uuid)) :
    List (AdminPosition F) :=
  (keyed formats q (((closedCandidates d).filter fun row =>
    selects formats ["CLOSED", "LIQUIDATED"] q allowed row.2).filterMap fun row =>
      closedRow numbers formats d.tables row.1 row.2)).map (·.2)

def listClosedPositionsAdmin (d : Desk) (q : ListPositionsQuery) (allowed : Option (List Uuid)) :
    PaginatedResponse F :=
  let rows := closedKeyed numbers formats d q allowed
  let (items, cursor) := pageOf numbers formats d.costs q rows
  { items, cursor
    hasMore := cursor.isSome
    total := some rows.length
    totalMarginUsed := none
    totalUnrealizedPnl := none
    totalRealizedPnl := some ((rows.map (·.pnl)).foldl numbers.add numbers.zero) }

/-- `search` as the id of one position, which may be cut off by dots. -/
def exactPositionId (q : ListPositionsQuery) : Option Uuid :=
  (RequestTexts.nonblank q.search).bind fun s =>
    formats.parseUuid (String.ofList
      (trimStartMatches "...".toList s.length s.toList.reverse).reverse)

/-- The ids as they are seen for the first time. -/
def firstSeen : List String → List String
  | [] => []
  | id :: ids => id :: (firstSeen ids).filter (· ≠ id)

/-- The ids of the indexes that a listing of open positions reads. -/
def indexedIds (d : Desk) (symbol : Option String) : List String :=
  match symbol with
  | some symbol => (d.openIndexes.lookup ("pos:open:" ++ symbol)).getD []
  | none => d.openIndexes.flatMap (·.2)

def openIds (d : Desk) (q : ListPositionsQuery) : List String :=
  match exactPositionId formats q with
  | some id => [formats.showUuid id]
  | none => firstSeen (indexedIds d q.symbol)

/-- The hashes that a listing of open positions goes through. -/
def openCandidates (d : Desk) (q : ListPositionsQuery) : List (String × Hash) :=
  (openIds formats d q).filterMap fun id => (d.hgetall (posByIdPrefix ++ id)).map (id, ·)

/-- The profit at the current price, if there is one. -/
def currentPnl (prices : String → Option (Option (ℚ × ℚ))) (p : AdminPosition F) : Option F :=
  (getPriceFromRedisConn prices (priceRedisKeys p.symbol p.groupId)).map fun (bid, ask) =>
    let mark := (bid + ask) / 2
    let size := numbers.decimal p.size
    let entry := numbers.decimal p.entryPrice
    numbers.float
      (if p.side = "LONG" then (mark - entry) * size
      else if p.side = "SHORT" then (entry - mark) * size
      else 0)

def markPosition (prices : String → Option (Option (ℚ × ℚ))) (p : AdminPosition F) :
    AdminPosition F :=
  match currentPnl numbers prices p with
  | none => p
  | some pnl => { p with pnl, pnlPercent := percentOf numbers pnl p.marginUsed }

def openKeyed (d : Desk) (q : ListPositionsQuery) (allowed : Option (List Uuid)) :
    List (AdminPosition F) :=
  (keyed formats q (((openCandidates formats d q).filter fun row =>
    selects formats ["OPEN"] q allowed row.2).filterMap fun row =>
      openRow numbers formats d.tables row.1 row.2)).map (·.2)

def listOpenPositionsAdmin (d : Desk) (q : ListPositionsQuery) (allowed : Option (List Uuid)) :
    PaginatedResponse F :=
  let rows := openKeyed numbers formats d q allowed
  let (items, cursor) :=
    pageOf numbers formats d.costs q (rows.map (markPosition numbers d.prices))
  { items, cursor
    hasMore := cursor.isSome
    total := some rows.length
    totalMarginUsed := some ((rows.map (·.marginUsed)).foldl numbers.add numbers.zero)
    totalUnrealizedPnl :=
      some ((rows.filterMap (currentPnl numbers d.prices)).foldl numbers.add numbers.zero)
    totalRealizedPnl := none }

def listAdminPositions (d : Desk) (claims : Claims) (q : ListPositionsQuery) :
    Except Failure (PaginatedResponse F) := do
  checkPermission d.tables claims "trading:view"
  let allowed ← resolveAllowedUserIdsForTrading d.tables claims
  if q.status.any (eqIgnoreAsciiCase · "closed") then
    .ok (listClosedPositionsAdmin numbers formats d q allowed)
  else .ok (listOpenPositionsAdmin numbers formats d q allowed)

end Source
end TradingPlatform.Access
