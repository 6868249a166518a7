import TradingPlatform.Engine.OrderJson

namespace TradingPlatform

open OrderValue

/-- `order.key = value` -/
def put (j : OrderJson) (key : OrderField) (value : OrderValue) : OrderJson :=
  Function.update j key (some value)

/-- `cjson.encode` of the decoded object. -/
def reencoded (j : OrderJson) : OrderJson := fun key => (j key).map reencode

/-- The arguments that `atomic_fill_order.lua` uses before it SETs the order,
as texts of the engine; `tonumber` is Lua's. -/
structure FillTexts where
  fillPrice : String
  fillSize : String
  timestampMs : ℤ
  effectiveLeverage : String

section Scripts
variable (tonumber : String → Option ℚ)

/-- `tonumber` of a decoded value; `cjson.null` is no number. -/
def luaNumber : OrderValue → Option ℚ
  | .num q => some q
  | .text s => tonumber s
  | _ => none

/-- The price condition of a LIMIT order; `none` when a comparison raises. -/
def limitMet (fillPrice : String) (j : OrderJson) : Option Bool :=
  let buys := j .side = some (.text "BUY") ∨ j .side = some (.text "Buy")
  let sells := j .side = some (.text "SELL") ∨ j .side = some (.text "Sell")
  if j .order_type = some (.text "LIMIT") ∧ (buys ∨ sells) then
    match j .limit_price with
    | none => some true
    | some value =>
      (tonumber fillPrice).bind fun price => (luaNumber tonumber value).map fun limit =>
        if buys then decide (price ≤ limit) else decide (limit ≤ price)
  else some true

/-- The JSON that `atomic_fill_order.lua` SETs, if it gets past its checks. -/
def luaFillOrder (args : FillTexts) (j : OrderJson) : Option OrderJson :=
  if ∃ el ∈ tonumber args.effectiveLeverage, 0 < el then
    if j .status = some (.text "PENDING") then
      if limitMet tonumber args.fillPrice j = some true then
        let j := put j .status (.text "FILLED")
        let j := put j .filled_size (.text args.fillSize)
        let j := put j .average_fill_price (.text args.fillPrice)
        let j := put j .updated_at (.text (toString args.timestampMs))
        let j := put j .filled_at (.text (toString args.timestampMs))
        some (reencoded j)
      else none
    else none
  else none

/-- The JSON that `atomic_cancel_order.lua` SETs; `none` for the reply `0`. -/
def luaCancelOrder (timestampMs : ℤ) (j : OrderJson) : Option OrderJson :=
  if j .status = some (.text "PENDING") then
    let j := put j .status (.text "CANCELED")
    let j := put j .updated_at (.text (toString timestampMs))
    let j := put j .canceled_at (.text (toString timestampMs))
    some (reencoded j)
  else none

end Scripts

/-- `list_orders` takes the stored order for a finished one. -/
def listedAsTerminal (j : OrderJson) : Bool :=
  match (j .status).bind asText with
  | none => false
  | some status =>
    let normalized := status.toLower
    normalized = "filled" || normalized = "cancelled" || normalized = "rejected"

section Readback
variable {U T : Type} (c : Leaves U T) (tonumber : String → Option ℚ) (o : OrderRecord U T)

/-- The two records differ at most in what a fill writes. -/
def OrderRecord.FilledFrom (o : OrderRecord U T) (filled : OrderRecord U T) : Prop :=
  filled = { o with
    status := .Filled
    filledSize := filled.filledSize
    averageFillPrice := filled.averageFillPrice
    updatedAt := filled.updatedAt
    filledAt := filled.filledAt }

/-- The two records differ at most in what a cancellation writes. -/
def OrderRecord.CancelledFrom (o : OrderRecord U T) (cancelled : OrderRecord U T) : Prop :=
  cancelled = { o with
    status := .Cancelled
    updatedAt := cancelled.updatedAt
    canceledAt := cancelled.canceledAt }

/-- What a fill stores is read back as the filled order, and listed as terminal. -/
def FillReadable (args : FillTexts) : Prop :=
  ∀ j, luaFillOrder tonumber args (encodeOrder c o) = some j →
    (∃ filled, decodeOrder c j = some filled ∧ o.FilledFrom filled) ∧ listedAsTerminal j

/-- What a cancellation stores is read back as the cancelled order, and listed
as terminal. -/
def CancelReadable (timestampMs : ℤ) : Prop :=
  ∀ j, luaCancelOrder timestampMs (encodeOrder c o) = some j →
    (∃ cancelled, decodeOrder c j = some cancelled ∧ o.CancelledFrom cancelled) ∧
      listedAsTerminal j

end Readback

/-- The digits of a time in milliseconds have no colon among them. -/
theorem colon_not_mem_toString (n : ℤ) : ':' ∉ (toString n).toList := by
  have digits (m : ℕ) : ':' ∉ Nat.toDigits 10 m := by
    intro member
    have isDigit : ':'.isDigit = true :=
      Nat.isDigit_of_mem_toDigits (by norm_num) (by norm_num) member
    simp at isDigit
  cases n with
  | ofNat m =>
    have text : toString (Int.ofNat m) = toString m := rfl
    rw [text]
    simpa using digits m
  | negSucc m =>
    have text : toString (Int.negSucc m) = "-" ++ toString (m + 1) := rfl
    rw [text]
    simpa using digits (m + 1)

section Failures
variable {U T : Type} {c : Leaves U T} {tonumber : String → Option ℚ} {o : OrderRecord U T}
  {j : OrderJson}

theorem decodeOrder_eq_none (unread : (j .updated_at).bind c.asTime = none) :
    decodeOrder c j = none := by
  simp [decodeOrder, unread]

/-- An instant in milliseconds is no RFC 3339 text. -/
theorem asTime_millis (colon : c.TimesHaveColon) (timestampMs : ℤ) :
    c.asTime (.text (toString timestampMs)) = none := by
  cases read : c.asTime (.text (toString timestampMs)) with
  | none => rfl
  | some t => exact absurd (colon _ _ read) (colon_not_mem_toString timestampMs)

theorem decodeOrder_luaFillOrder (colon : c.TimesHaveColon) {args : FillTexts} {stored : OrderJson}
    (filled : luaFillOrder tonumber args j = some stored) : decodeOrder c stored = none := by
  apply decodeOrder_eq_none
  unfold luaFillOrder at filled
  split_ifs at filled
  have read : stored .updated_at = some (.text (toString args.timestampMs)) := by
    rw [← Option.some.inj filled]
    rfl
  rw [read]
  exact asTime_millis colon _

theorem decodeOrder_luaCancelOrder (colon : c.TimesHaveColon) {timestampMs : ℤ}
    {stored : OrderJson} (cancelled : luaCancelOrder timestampMs j = some stored) :
    decodeOrder c stored = none := by
  apply decodeOrder_eq_none
  unfold luaCancelOrder at cancelled
  split_ifs at cancelled
  have read : stored .updated_at = some (.text (toString timestampMs)) := by
    rw [← Option.some.inj cancelled]
    rfl
  rw [read]
  exact asTime_millis colon _

theorem status_luaCancelOrder {timestampMs : ℤ} {stored : OrderJson}
    (cancelled : luaCancelOrder timestampMs j = some stored) :
    stored .status = some (.text "CANCELED") := by
  unfold luaCancelOrder at cancelled
  split_ifs at cancelled
  rw [← Option.some.inj cancelled]
  rfl

/-- The script's spelling is not the one that the reconciliation looks for. -/
theorem listedAsTerminal_luaCancelOrder {timestampMs : ℤ} {stored : OrderJson}
    (cancelled : luaCancelOrder timestampMs j = some stored) :
    listedAsTerminal stored = false := by
  unfold listedAsTerminal
  rw [status_luaCancelOrder cancelled]
  decide +kernel

/-- Every pending order can be cancelled by the script. -/
theorem exists_luaCancelOrder (pending : o.status = .Pending) (timestampMs : ℤ) :
    ∃ stored, luaCancelOrder timestampMs (encodeOrder c o) = some stored := by
  have status : encodeOrder c o .status = some (.text "PENDING") := by
    simp [encodeOrder, pending, EnumStatus.text]
  unfold luaCancelOrder
  rw [if_pos status]
  exact ⟨_, rfl⟩

end Failures

/-- No order that a script has stored can be read by the engine again. -/
theorem not_readable {U T : Type} {c : Leaves U T} {tonumber : String → Option ℚ}
    {o : OrderRecord U T} (colon : c.TimesHaveColon) (pending : o.status = .Pending)
    (args : FillTexts) (timestampMs : ℤ) :
    (luaFillOrder tonumber args (encodeOrder c o) ≠ none → ¬ FillReadable c tonumber o args) ∧
      ¬ CancelReadable c o timestampMs := by
  constructor
  · intro fills readable
    obtain ⟨stored, filled⟩ := Option.ne_none_iff_exists'.mp fills
    obtain ⟨⟨read, decoded, _⟩, _⟩ := readable stored filled
    rw [decodeOrder_luaFillOrder colon filled] at decoded
    cases decoded
  · intro readable
    obtain ⟨stored, cancelled⟩ := exists_luaCancelOrder (c := c) pending timestampMs
    have terminal := (readable stored cancelled).2
    rw [listedAsTerminal_luaCancelOrder cancelled] at terminal
    cases terminal

namespace OrderReadback

/-- One uuid and one instant, with their texts. -/
def sampleLeaves : Leaves Unit Unit where
  uuidText _ := "7f1c2a54-90f1-4b7e-8a35-0c8de1a6b001"
  parseUuid s := if s = "7f1c2a54-90f1-4b7e-8a35-0c8de1a6b001" then some () else none
  timeText _ := "2025-01-15T10:30:00Z"
  parseTime s := if s = "2025-01-15T10:30:00Z" then some () else none
  decimalNum d := d
  parseDecimal s := if s = "1" then some 1 else none
  parseNum q := some q

def marketBuy : OrderRecord Unit Unit where
  id := ()
  userId := ()
  symbol := "EURUSD"
  groupId := none
  side := .BUY
  orderType := .MARKET
  size := 1
  limitPrice := none
  stopLoss := some (1 / 2)
  takeProfit := some 2
  timeInForce := .gtc
  status := .Pending
  filledSize := 0
  averageFillPrice := none
  clientOrderId := none
  idempotencyKey := "k"
  createdAt := ()
  updatedAt := ()
  filledAt := none
  canceledAt := none
  rejectionReason := none
  minLeverage := none
  maxLeverage := none
  leverageTiers := none
  accountType := some "hedging"
  marginFromCash := none
  marginFromBonus := none
  requestedBid := none
  requestedAsk := none
  maxSlippageBps := none

theorem sampleLeaves_colon : sampleLeaves.TimesHaveColon := by
  intro s t read
  simp only [sampleLeaves] at read
  split_ifs at read with same
  subst same
  decide +kernel

def fillAtOne : FillTexts where
  fillPrice := "1"
  fillSize := "1"
  timestampMs := 1736937000000
  effectiveLeverage := "1"

theorem not_readable_marketBuy :
    luaFillOrder sampleLeaves.parseDecimal fillAtOne (encodeOrder sampleLeaves marketBuy) ≠ none ∧
      ¬ FillReadable sampleLeaves sampleLeaves.parseDecimal marketBuy fillAtOne ∧
      ¬ CancelReadable sampleLeaves marketBuy 1736937000000 := by
  have fills : luaFillOrder sampleLeaves.parseDecimal fillAtOne
      (encodeOrder sampleLeaves marketBuy) ≠ none := by
    have evaluates : (luaFillOrder sampleLeaves.parseDecimal fillAtOne
      (encodeOrder sampleLeaves marketBuy)).isSome = true := by decide +kernel
    exact Option.isSome_iff_ne_none.mp evaluates
  have pending : marketBuy.status = .Pending := rfl
  obtain ⟨filled, cancelled⟩ := not_readable sampleLeaves_colon pending fillAtOne 1736937000000
  exact ⟨fills, filled fills, cancelled⟩

/-- The cancelled order cannot be read, although the pending one could be. -/
theorem not_cancelReadable_marketBuy :
    decodeOrder sampleLeaves (encodeOrder sampleLeaves marketBuy) = some marketBuy ∧
      ¬ CancelReadable sampleLeaves marketBuy 1736937000000 := by
  refine ⟨by decide +kernel, fun readable => ?_⟩
  obtain ⟨stored, cancelled⟩ := exists_luaCancelOrder (c := sampleLeaves) (o := marketBuy) rfl
    1736937000000
  obtain ⟨⟨read, decoded, _⟩, _⟩ := readable stored cancelled
  rw [decodeOrder_luaCancelOrder sampleLeaves_colon cancelled] at decoded
  cases decoded

end OrderReadback

end TradingPlatform
