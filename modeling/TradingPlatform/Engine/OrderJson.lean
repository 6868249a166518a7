import TradingPlatform.Engine.ReopenScripts
import TradingPlatform.Leverage.TierTexts
import TradingPlatform.Orders.OrderTerms

namespace TradingPlatform

/-- `contracts::enums::OrderStatus` -/
inductive EnumStatus
  | Pending | PartiallyFilled | Filled | Cancelled | Rejected
  deriving DecidableEq, Repr

/-- `models::Order`, with the uuids and the instants of two libraries. -/
structure OrderRecord (U T : Type) where
  id : U
  userId : U
  symbol : String
  groupId : Option String
  side : Side
  orderType : OrderType
  size : ℚ
  limitPrice : Option ℚ
  stopLoss : Option ℚ
  takeProfit : Option ℚ
  timeInForce : TimeInForce
  status : EnumStatus
  filledSize : ℚ
  averageFillPrice : Option ℚ
  clientOrderId : Option String
  idempotencyKey : String
  createdAt : T
  updatedAt : T
  filledAt : Option T
  canceledAt : Option T
  rejectionReason : Option String
  minLeverage : Option ℤ
  maxLeverage : Option ℤ
  leverageTiers : Option (List TierTexts)
  accountType : Option String
  marginFromCash : Option ℚ
  marginFromBonus : Option ℚ
  requestedBid : Option ℚ
  requestedAsk : Option ℚ
  maxSlippageBps : Option ℤ
  deriving DecidableEq

/-- The keys of the JSON object. -/
inductive OrderField
  | id | user_id | symbol | group_id | side | order_type | size | limit_price | stop_loss
  | take_profit | time_in_force | status | filled_size | average_fill_price | client_order_id
  | idempotency_key | created_at | updated_at | filled_at | canceled_at | rejection_reason
  | min_leverage | max_leverage | leverage_tiers | account_type | margin_from_cash
  | margin_from_bonus | requested_bid | requested_ask | max_slippage_bps
  deriving DecidableEq, Repr

/-- The values under them. The rows of `leverage_tiers` have no arrays in them
and are kept whole; `emptyObject` is `{}`. -/
inductive OrderValue
  | null
  | num (q : ℚ)
  | text (s : String)
  | tiers (rows : List TierTexts)
  | emptyObject
  deriving DecidableEq, Repr

abbrev OrderJson := OrderField → Option OrderValue

/-- What the record's types take from libraries: the texts of uuids and instants,
and decimals, which are written as `f64` numbers and read from numbers or texts. -/
structure Leaves (U T : Type) where
  uuidText : U → String
  parseUuid : String → Option U
  timeText : T → String
  parseTime : String → Option T
  decimalNum : ℚ → ℚ
  parseDecimal : String → Option ℚ
  parseNum : ℚ → Option ℚ

/-- Uuids and instants are read back as they were written. -/
structure Leaves.RoundTrips {U T : Type} (c : Leaves U T) : Prop where
  uuid : ∀ u, c.parseUuid (c.uuidText u) = some u
  time : ∀ t, c.parseTime (c.timeText t) = some t

/-- An RFC 3339 text has a colon between its hours and minutes. -/
def Leaves.TimesHaveColon {U T : Type} (c : Leaves U T) : Prop :=
  ∀ s t, c.parseTime s = some t → ':' ∈ s.toList

namespace EnumStatus

def text : EnumStatus → String
  | .Pending => "PENDING"
  | .PartiallyFilled => "PARTIALLYFILLED"
  | .Filled => "FILLED"
  | .Cancelled => "CANCELLED"
  | .Rejected => "REJECTED"

def parse (s : String) : Option EnumStatus :=
  [Pending, PartiallyFilled, Filled, Cancelled, Rejected].find? (·.text = s)

theorem parse_text (status : EnumStatus) : parse status.text = some status := by
  cases status <;> decide

end EnumStatus

def Side.text : Side → String
  | .BUY => "BUY"
  | .SELL => "SELL"

def Side.parse (s : String) : Option Side := [BUY, SELL].find? (·.text = s)

def OrderType.text : OrderType → String
  | .MARKET => "MARKET"
  | .LIMIT => "LIMIT"

def OrderType.parse (s : String) : Option OrderType := [MARKET, LIMIT].find? (·.text = s)

def TimeInForce.text : TimeInForce → String
  | .gtc => "GTC"
  | .ioc => "IOC"
  | .fok => "FOK"

def TimeInForce.parse (s : String) : Option TimeInForce := [gtc, ioc, fok].find? (·.text = s)

namespace OrderValue
variable {α : Type}

def asText : OrderValue → Option String
  | .text s => some s
  | _ => none

/-- An `i32`. -/
def asInt : OrderValue → Option ℤ
  | .num q => if q.den = 1 ∧ -2147483648 ≤ q.num ∧ q.num ≤ 2147483647 then some q.num else none
  | _ => none

def asTiers : OrderValue → Option (List TierTexts)
  | .tiers rows => some rows
  | _ => none

/-- An optional field that is always written. -/
def orNull (value : Option OrderValue) : Option OrderValue := some (value.getD .null)

/-- An optional field: missing and `null` are both `None`. -/
def maybe (read : OrderValue → Option α) : Option OrderValue → Option (Option α)
  | none => some none
  | some .null => some none
  | some value => (read value).map some

/-- cjson decodes and encodes the value; an empty array comes back as `{}`. -/
def reencode : OrderValue → OrderValue
  | .tiers [] => .emptyObject
  | value => value

end OrderValue

section Serde
open OrderValue
variable {U T : Type} (c : Leaves U T)

def Leaves.asUuid (value : OrderValue) : Option U := value.asText.bind c.parseUuid

def Leaves.asTime (value : OrderValue) : Option T := value.asText.bind c.parseTime

def Leaves.asDecimal : OrderValue → Option ℚ
  | .num q => c.parseNum q
  | .text s => c.parseDecimal s
  | _ => none

def Leaves.decimal (d : ℚ) : OrderValue := .num (c.decimalNum d)

/-- The derived `Serialize`. -/
def encodeOrder (o : OrderRecord U T) : OrderJson
  | .id => some (.text (c.uuidText o.id))
  | .user_id => some (.text (c.uuidText o.userId))
  | .symbol => some (.text o.symbol)
  | .group_id => o.groupId.map .text
  | .side => some (.text o.side.text)
  | .order_type => some (.text o.orderType.text)
  | .size => some (c.decimal o.size)
  | .limit_price => orNull (o.limitPrice.map c.decimal)
  | .stop_loss => orNull (o.stopLoss.map c.decimal)
  | .take_profit => orNull (o.takeProfit.map c.decimal)
  | .time_in_force => some (.text o.timeInForce.text)
  | .status => some (.text o.status.text)
  | .filled_size => some (c.decimal o.filledSize)
  | .average_fill_price => orNull (o.averageFillPrice.map c.decimal)
  | .client_order_id => orNull (o.clientOrderId.map .text)
  | .idempotency_key => some (.text o.idempotencyKey)
  | .created_at => some (.text (c.timeText o.createdAt))
  | .updated_at => some (.text (c.timeText o.updatedAt))
  | .filled_at => orNull (o.filledAt.map fun t => .text (c.timeText t))
  | .canceled_at => orNull (o.canceledAt.map fun t => .text (c.timeText t))
  | .rejection_reason => orNull (o.rejectionReason.map .text)
  | .min_leverage => o.minLeverage.map fun (n : ℤ) => .num n
  | .max_leverage => o.maxLeverage.map fun (n : ℤ) => .num n
  | .leverage_tiers => o.leverageTiers.map .tiers
  | .account_type => orNull (o.accountType.map .text)
  | .margin_from_cash => o.marginFromCash.map c.decimal
  | .margin_from_bonus => o.marginFromBonus.map c.decimal
  | .requested_bid => o.requestedBid.map c.decimal
  | .requested_ask => o.requestedAsk.map c.decimal
  | .max_slippage_bps => o.maxSlippageBps.map fun (n : ℤ) => .num n

/-- The derived `Deserialize`. -/
def decodeOrder (j : OrderJson) : Option (OrderRecord U T) := do
  let id ← (j .id).bind c.asUuid
  let userId ← (j .user_id).bind c.asUuid
  let symbol ← (j .symbol).bind asText
  let groupId ← maybe asText (j .group_id)
  let side ← ((j .side).bind asText).bind Side.parse
  let orderType ← ((j .order_type).bind asText).bind OrderType.parse
  let size ← (j .size).bind c.asDecimal
  let limitPrice ← maybe c.asDecimal (j .limit_price)
  let stopLoss ← maybe c.asDecimal (j .stop_loss)
  let takeProfit ← maybe c.asDecimal (j .take_profit)
  let timeInForce ← ((j .time_in_force).bind asText).bind TimeInForce.parse
  let status ← ((j .status).bind asText).bind EnumStatus.parse
  let filledSize ← (j .filled_size).bind c.asDecimal
  let averageFillPrice ← maybe c.asDecimal (j .average_fill_price)
  let clientOrderId ← maybe asText (j .client_order_id)
  let idempotencyKey ← (j .idempotency_key).bind asText
  let createdAt ← (j .created_at).bind c.asTime
  let updatedAt ← (j .updated_at).bind c.asTime
  let filledAt ← maybe c.asTime (j .filled_at)
  let canceledAt ← maybe c.asTime (j .canceled_at)
  let rejectionReason ← maybe asText (j .rejection_reason)
  let minLeverage ← maybe asInt (j .min_leverage)
  let maxLeverage ← maybe asInt (j .max_leverage)
  let leverageTiers ← maybe asTiers (j .leverage_tiers)
  let accountType ← maybe asText (j .account_type)
  let marginFromCash ← maybe c.asDecimal (j .margin_from_cash)
  let marginFromBonus ← maybe c.asDecimal (j .margin_from_bonus)
  let requestedBid ← maybe c.asDecimal (j .requested_bid)
  let requestedAsk ← maybe c.asDecimal (j .requested_ask)
  let maxSlippageBps ← maybe asInt (j .max_slippage_bps)
  return {
    id, userId, symbol, groupId, side, orderType, size, limitPrice, stopLoss, takeProfit
    timeInForce, status, filledSize, averageFillPrice, clientOrderId, idempotencyKey, createdAt
    updatedAt, filledAt, canceledAt, rejectionReason, minLeverage, maxLeverage, leverageTiers
    accountType, marginFromCash, marginFromBonus, requestedBid, requestedAsk, maxSlippageBps }

/-- A value that survives its encoding as a JSON number. -/
def Leaves.Exact (d : ℚ) : Prop := c.parseNum (c.decimalNum d) = some d

/-- The record's decimals, and its integers as `i32`s, survive their encoding. -/
structure OrderRecord.Exact (o : OrderRecord U T) : Prop where
  size : c.Exact o.size
  filledSize : c.Exact o.filledSize
  decimals : ∀ d ∈ [o.limitPrice, o.stopLoss, o.takeProfit, o.averageFillPrice, o.marginFromCash,
    o.marginFromBonus, o.requestedBid, o.requestedAsk], ∀ x ∈ d, c.Exact x
  integers : ∀ n ∈ [o.minLeverage, o.maxLeverage, o.maxSlippageBps], ∀ x ∈ n,
    -2147483648 ≤ x ∧ x ≤ 2147483647

theorem Side.parse_text (side : Side) : Side.parse side.text = some side := by
  cases side <;> decide

theorem OrderType.parse_text (orderType : OrderType) :
    OrderType.parse orderType.text = some orderType := by
  cases orderType <;> decide

theorem TimeInForce.parse_text (tif : TimeInForce) : TimeInForce.parse tif.text = some tif := by
  cases tif <;> decide

section Optional
variable {c}

theorem maybe_decimal {d : Option ℚ} (exact : ∀ x ∈ d, c.Exact x) :
    maybe c.asDecimal (d.map c.decimal) = some d := by
  cases d with
  | none => rfl
  | some x =>
    have read := exact x rfl
    simp only [Leaves.Exact] at read
    simp [maybe, Leaves.decimal, Leaves.asDecimal, read]

theorem maybe_orNull {α : Type} {read : OrderValue → Option α} (value : Option OrderValue) :
    maybe read (orNull value) = maybe read value := by
  cases value <;> rfl

theorem maybe_text (s : Option String) : maybe asText (s.map .text) = some s := by
  cases s <;> rfl

theorem maybe_int {n : Option ℤ} (bounded : ∀ x ∈ n, -2147483648 ≤ x ∧ x ≤ 2147483647) :
    maybe asInt (n.map fun (x : ℤ) => .num x) = some n := by
  cases n with
  | none => rfl
  | some x => simp [maybe, asInt, bounded x rfl]

theorem maybe_tiers (rows : Option (List TierTexts)) :
    maybe asTiers (rows.map .tiers) = some rows := by
  cases rows <;> rfl

theorem maybe_time (lawful : c.RoundTrips) (t : Option T) :
    maybe c.asTime (t.map fun t => .text (c.timeText t)) = some t := by
  cases t with
  | none => rfl
  | some t => simp [maybe, Leaves.asTime, asText, lawful.time]

end Optional

/-- What the engine writes itself, it reads back. -/
theorem decodeOrder_encodeOrder (lawful : c.RoundTrips) {o : OrderRecord U T} (exact : o.Exact c) :
    decodeOrder c (encodeOrder c o) = some o := by
  have size : c.asDecimal (c.decimal o.size) = some o.size := exact.size
  have filledSize : c.asDecimal (c.decimal o.filledSize) = some o.filledSize := exact.filledSize
  have decimals := exact.decimals
  have integers := exact.integers
  simp only [List.forall_mem_cons, List.not_mem_nil, false_implies, implies_true, and_true]
    at decimals integers
  obtain ⟨limitPrice, stopLoss, takeProfit, averageFillPrice, marginFromCash, marginFromBonus,
    requestedBid, requestedAsk⟩ := decimals
  obtain ⟨minLeverage, maxLeverage, maxSlippageBps⟩ := integers
  simp only [decodeOrder, encodeOrder, Option.bind_some, Option.bind_eq_bind, Leaves.asUuid,
    Leaves.asTime, asText, lawful.uuid, lawful.time, maybe_orNull, maybe_text,
    maybe_decimal limitPrice, maybe_decimal stopLoss, maybe_decimal takeProfit,
    maybe_decimal averageFillPrice, maybe_decimal marginFromCash,
    maybe_decimal marginFromBonus, maybe_decimal requestedBid, maybe_decimal requestedAsk,
    maybe_int minLeverage, maybe_int maxLeverage, maybe_int maxSlippageBps, maybe_tiers,
    maybe_time lawful, Side.parse_text, OrderType.parse_text, TimeInForce.parse_text,
    EnumStatus.parse_text, size, filledSize]
  rfl

end Serde

end TradingPlatform
