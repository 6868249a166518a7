import TradingPlatform.Engine.IndexInvariant
import TradingPlatform.Engine.PositionEvents
import TradingPlatform.Library.SignificantDigits

namespace TradingPlatform

/-- Lua's `tostring` of a number, `%.14g`. -/
def luaToString (x : ℚ) : String := String.ofList (SignificantDigits.general 14 x)

/-- The text of a numeric hash field: one that was passed to the script or stands
in it, or the one `tostring` makes of a number. -/
inductive FieldText
  | passed (text : String)
  | tostring (x : ℚ)
  deriving DecidableEq, Repr

def FieldText.text : FieldText → String
  | passed text => text
  | tostring x => luaToString x

/-- The literal `'0'` of the scripts, also their default for a missing field. -/
def FieldText.zero : FieldText := .passed "0"

/-- The numeric fields of a position hash that the scripts compute or copy. -/
structure NumericFields (α : Type) where
  size : Option α := none
  entryPrice : Option α := none
  avgPrice : Option α := none
  leverage : Option α := none
  margin : Option α := none
  marginFromCash : Option α := none
  marginFromBonus : Option α := none
  realizedPnl : Option α := none
  originalSize : Option α := none
  deriving DecidableEq, Repr

abbrev HashTexts := NumericFields FieldText

namespace NumericFields
variable {α β : Type}

/-- The fields that the services read as decimals; `original_size` is read by
the reopen scripts only. -/
def read (fields : NumericFields α) : List (Option α) :=
  [fields.size, fields.entryPrice, fields.avgPrice, fields.leverage, fields.margin,
    fields.marginFromCash, fields.marginFromBonus, fields.realizedPnl]

end NumericFields

def PositionHash.numbers (h : PositionHash) : NumericFields ℚ where
  size := h.size
  entryPrice := h.entryPrice
  avgPrice := h.avgPrice
  leverage := h.leverage
  margin := h.margin
  marginFromCash := h.marginFromCash
  marginFromBonus := h.marginFromBonus
  realizedPnl := h.realizedPnl
  originalSize := h.originalSize

namespace HashTexts

/-- The texts of a position that opens with this size. The price is written as
it was passed, `tostring` of a string being the string. -/
def opened (fill : Fill) (sizeText : FieldText) (priceText : String) (size leverage : ℚ)
    (texts : HashTexts) : HashTexts :=
  let margin := size * fill.fillPrice / leverage
  { texts with
    size := some sizeText
    entryPrice := some (.passed priceText)
    avgPrice := some (.passed priceText)
    leverage := some (.tostring leverage)
    margin := some (.tostring margin)
    marginFromCash := some (.tostring (fill.order.marginFromCash.tonumber.getD margin))
    marginFromBonus := some (.tostring (fill.order.marginFromBonus.tonumber.getD 0))
    realizedPnl := some .zero }

def merged (fill : Fill) (h : PositionHash) (texts : HashTexts) : HashTexts :=
  let posSize := h.size.getD 0
  let newEntry := fill.newEntryPrice posSize (h.entryPrice.getD 0)
  { texts with
    size := some (.tostring (fill.totalSize posSize))
    entryPrice := some (.tostring newEntry)
    avgPrice := some (.tostring newEntry)
    margin := some (.tostring
      (fill.totalSize posSize * newEntry / fill.posLevOrFill h.leverage .absent)) }

def reduced (newSize newMargin newRealized : ℚ) (texts : HashTexts) : HashTexts :=
  { texts with
    size := some (.tostring newSize)
    margin := some (.tostring newMargin)
    realizedPnl := some (.tostring newRealized) }

def closedNetted (newRealized : ℚ) (texts : HashTexts) : HashTexts :=
  { texts with size := some .zero, realizedPnl := some (.tostring newRealized) }

def closed (args : CloseArgs) (h : PositionHash) (texts : HashTexts) : HashTexts :=
  { texts with
    size := some .zero
    originalSize := some (.tostring (h.size.getD 0))
    realizedPnl := some (.tostring (h.realizedPnl.getD 0 + args.pnl h)) }

def partlyClosed (args : CloseArgs) (h : PositionHash) (texts : HashTexts) : HashTexts :=
  let cash := h.marginFromCash.getD 0
  let bonus := h.marginFromBonus.getD 0
  let currentSize := h.size.getD 0
  { texts with
    size := some (.tostring (currentSize - args.actualCloseSize currentSize))
    realizedPnl := some (.tostring (h.realizedPnl.getD 0 + args.pnl h))
    marginFromCash := some (.tostring (cash - cash * args.ratio currentSize))
    marginFromBonus := some (.tostring (bonus - bonus * args.ratio currentSize)) }

/-- `original_size or size_fallback or "0"` -/
def restoreSize (texts : HashTexts) : FieldText :=
  (texts.originalSize.orElse fun _ => texts.size).getD .zero

def reopened (texts : HashTexts) : HashTexts :=
  { texts with
    size := some texts.restoreSize
    avgPrice := some (texts.entryPrice.getD .zero) }

end HashTexts

/-- The text of an override that counts, or the one the field has. -/
def overrideText (override : Option ℚ) (text : String) (existing : FieldText) : FieldText :=
  if (override.filter (0 < ·)).isSome then .passed text else existing

namespace HashTexts

def reopenedWith (params : ParamOverrides) (sizeText priceText : String) (texts : HashTexts) :
    HashTexts :=
  let restoreEntry := overrideText params.entryPrice priceText (texts.entryPrice.getD .zero)
  { texts with
    size := some (overrideText params.size sizeText texts.restoreSize)
    entryPrice := some restoreEntry
    avgPrice := some restoreEntry }

def resized (params : ParamOverrides) (sizeText priceText : String) (texts : HashTexts) :
    HashTexts :=
  let entryCurrent := (texts.entryPrice.orElse fun _ => texts.avgPrice).getD .zero
  let newEntry := overrideText params.entryPrice priceText entryCurrent
  { texts with
    size := some (overrideText params.size sizeText (texts.size.getD .zero))
    entryPrice := some newEntry
    avgPrice := some newEntry }

end HashTexts

/-- A script call with the texts that its size and its price are passed as. -/
structure SentCall where
  call : ScriptCall
  sizeText : String := ""
  priceText : String := ""

/-- The reply of a successful fill or close. -/
inductive ScriptReply
  | filled (result : FillResult)
  | closed (result : CloseResult)
  deriving DecidableEq, Repr

/-- The numbers in a reply, each written with `tostring`. -/
def ScriptReply.numbers : ScriptReply → List (Option ℚ)
  | .filled result => [result.closedPositionSize, result.realizedPnl]
  | .closed result => [some result.closedSize, some result.realizedPnl,
      some result.marginFromCash, some result.marginFromBonus]

/-- The store with the texts of its numeric fields and the last call's reply. -/
structure TextStore where
  store : Store := .empty
  texts : PositionId → HashTexts := fun _ => {}
  reply : Option ScriptReply := none

section Writes
variable (st : Store) (texts : PositionId → HashTexts)

/-- The HSETs of numeric fields that a fill makes, by the branch it takes. -/
def Fill.writeTexts (fill : Fill) (existing : List PositionId) (sizeText priceText : String) :
    PositionId → HashTexts :=
  match fill.order.target st existing with
  | .merge p h => Function.update texts p ((texts p).merged fill h)
  | .net p h =>
    let posSize := h.size.getD 0
    let posEntry := h.entryPrice.getD 0
    let posLeverage := fill.posLevOrFill h.leverage .absent
    let newSize := posSize - fill.fillSize
    let newRealized := h.realizedPnl.getD 0 +
      Fill.pnlClose h.side posEntry fill.fillPrice (min posSize fill.fillSize)
    if 0 < newSize then
      Function.update texts p
        ((texts p).reduced newSize (newSize * posEntry / posLeverage) newRealized)
    else
      let texts := Function.update texts p ((texts p).closedNetted newRealized)
      if newSize = 0 then texts
      else
        Function.update texts fill.positionUuid ((texts fill.positionUuid).opened fill
          (.tostring (-newSize)) priceText (-newSize) posLeverage)
  | .fresh =>
    Function.update texts fill.positionUuid ((texts fill.positionUuid).opened fill
      (.passed sizeText) priceText fill.fillSize fill.effectiveLeverage)

def fillTexts (args : FillArgs) (existing : List PositionId) (sizeText priceText : String) :
    PositionId → HashTexts :=
  match args.effectiveLeverage with
  | none => texts
  | some el =>
    if leverage_pos : 0 < el then
      match st.orders args.orderId with
      | none => texts
      | some order =>
        if order.status = .PENDING ∧ limitPriceMet order args.fillPrice = some true then
          (Fill.ofArgs args order el leverage_pos).writeTexts (st.markFilled args order) texts
            existing sizeText priceText
        else texts
    else texts

def closeTexts (args : CloseArgs) : PositionId → HashTexts :=
  let p := args.positionId
  match st.hash p with
  | none => texts
  | some h =>
    let currentSize := h.size.getD 0
    if h.status ≠ some .OPEN then texts
    else if currentSize ≤ args.actualCloseSize currentSize then
      Function.update texts p ((texts p).closed args h)
    else Function.update texts p ((texts p).partlyClosed args h)

/-- The texts after a script that restores a closed hash to this size. -/
def reopenTexts (p : PositionId) (restores : PositionHash → ℚ) (write : HashTexts → HashTexts) :
    PositionId → HashTexts :=
  match st.hash p with
  | none => texts
  | some h =>
    if (∃ status ∈ h.status, status.Closed) ∧ restores h ≠ 0 ∧ h.symbol.isSome ∧ h.userId.isSome then
      Function.update texts p (write (texts p))
    else texts

def updateTexts (p : PositionId) (params : ParamOverrides) (sizeText priceText : String) :
    PositionId → HashTexts :=
  match st.hash p with
  | none => texts
  | some h =>
    if h.status = some .OPEN ∧ h.symbol.isSome ∧ h.userId.isSome then
      let resized := (texts p).resized params sizeText priceText
      match h.leverage.filter (0 < ·) with
      | none => Function.update texts p resized
      | some leverage =>
        Function.update texts p { resized with
          margin := some (.tostring (positiveOr params.size (h.size.getD 0) *
            positiveOr params.entryPrice h.entryOrAvg / leverage)) }
    else texts

end Writes

namespace TextStore

/-- The texts that a call leaves in the hashes. -/
def writeTexts (ts : TextStore) (sent : SentCall) : PositionId → HashTexts :=
  match sent.call with
  | .placeOrder .. => ts.texts
  | .atomicFillOrder args existing _ =>
    fillTexts ts.store ts.texts args existing sent.sizeText sent.priceText
  | .atomicCancelOrder .. => ts.texts
  | .atomicClosePosition args => closeTexts ts.store ts.texts args
  | .atomicReopenPosition p _ =>
    reopenTexts ts.store ts.texts p PositionHash.restoreSize HashTexts.reopened
  | .atomicReopenPositionWithParams p _ params =>
    reopenTexts ts.store ts.texts p (fun h => positiveOr params.size h.restoreSize)
      (·.reopenedWith params sent.sizeText sent.priceText)
  | .atomicUpdatePositionParams p _ params =>
    updateTexts ts.store ts.texts p params sent.sizeText sent.priceText

end TextStore

def Store.replyOf (st : Store) : ScriptCall → Option ScriptReply
  | .atomicFillOrder args existing old =>
    match atomicFillOrder st args existing old with
    | .success _ result => some (.filled result)
    | _ => none
  | .atomicClosePosition args =>
    match atomicClosePosition st args with
    | .success _ result => some (.closed result)
    | _ => none
  | _ => none

namespace TextStore

def step (ts : TextStore) (sent : SentCall) : Option TextStore :=
  (ts.store.call sent.call).map fun after =>
    { store := after, texts := ts.writeTexts sent, reply := ts.store.replyOf sent.call }

end TextStore

/-- `Decimal::from_str(s).ok()` and `Decimal::from_str_exact(s).ok()`. -/
structure DecimalReaders where
  fromStr : String → Option ℚ
  fromStrExact : String → Option ℚ

/-- Plain decimals of few characters are read exactly; neither parser reads an
exponent. -/
structure DecimalParser (parse : String → Option ℚ) : Prop where
  plain : ∀ text x, SignificantDigits.Decimal text.toList x → text.length ≤ 28 →
    parse text = some x
  exponent : ∀ text, 'e' ∈ text.toList → parse text = none

def FieldText.parsed (parse : String → Option ℚ) (text : FieldText) : Option ℚ := parse text.text

section Readers
variable (readers : DecimalReaders)

/-- `raw.get(field).and_then(|s| Decimal::from_str_exact(s).ok())` -/
def DecimalReaders.exact (text : Option FieldText) : Option ℚ :=
  text.bind (FieldText.parsed readers.fromStrExact)

/-- `publish_position_updated` from the texts of the hash. -/
def TextStore.publishPositionUpdated (ts : TextStore) (p : PositionId)
    (statusOverride : Option PositionStatus) : Option PositionUpdatedEvent :=
  match ts.store.hash p with
  | none => none
  | some h =>
    let raw := ts.texts p
    match h.userId, readers.exact raw.leverage with
    | some userId, some leverage => some
        { positionId := p
          userId := userId
          symbol := h.symbol.getD ""
          side := h.side.getD .LONG
          size := (readers.exact raw.size).getD 0
          avgPrice := (readers.exact (raw.avgPrice.orElse fun _ => raw.entryPrice)).getD 0
          leverage := leverage
          unrealizedPnl := h.unrealizedPnl.getD 0
          realizedPnl := (readers.exact raw.realizedPnl).getD 0
          sl := (h.sl.bind LevelText.tonumber).filter (· ≠ 0)
          tp := (h.tp.bind LevelText.tonumber).filter (· ≠ 0)
          status := (statusOverride.orElse fun _ => h.status).getD .OPEN
          marginFromCash := (readers.exact raw.marginFromCash).getD 0
          marginFromBonus := (readers.exact raw.marginFromBonus).getD 0 }
    | _, _ => none

/-- Margin, realised PnL and size as `fetch_position_aggregates_from_redis` reads them. -/
def DecimalReaders.positionAggregates (raw : HashTexts) : ℚ × ℚ × ℚ :=
  let read (text : Option FieldText) := (text.bind (FieldText.parsed readers.fromStr)).getD 0
  (read raw.margin, read raw.realizedPnl, read raw.size)

/-- The position that `execute_fill` reports as opened by a flip: size, entry
price, leverage and margin, each with the order's own value as the default. -/
def DecimalReaders.flippedPosition (raw : HashTexts) (orderSize fillPrice eff : ℚ) :
    ℚ × ℚ × ℚ × ℚ :=
  let size := (readers.exact raw.size).getD orderSize
  let entry := (readers.exact (raw.entryPrice.orElse fun _ => raw.avgPrice)).getD fillPrice
  let lev := (readers.exact raw.leverage).getD eff
  (size, entry, lev, (readers.exact raw.margin).getD (size * entry / lev))

/-- The closed event of `execute_fill`: size and PnL from the reply, margins from
the closed position's hash. -/
def TextStore.closedEventOfFill (ts : TextStore) (userId : UserId) (args : FillArgs)
    (result : FillResult) : Option PositionClosedEvent :=
  result.closedPositionId.map fun p =>
    let raw := ts.texts p
    { positionId := p
      userId := userId
      closedSize := (readers.exact (result.closedPositionSize.map .tostring)).getD args.fillSize
      exitPrice := args.fillPrice
      realizedPnl := (readers.exact (result.realizedPnl.map .tostring)).getD 0
      marginFromCash := (readers.exact raw.marginFromCash).getD 0
      marginFromBonus := (readers.exact raw.marginFromBonus).getD 0 }

/-- The closed event of `handle_close_position`, from the reply's texts. -/
def DecimalReaders.closedEventOfReply (userId : UserId) (result : CloseResult) :
    PositionClosedEvent where
  positionId := result.positionId
  userId := userId
  closedSize := (readers.exact (some (.tostring result.closedSize))).getD 0
  exitPrice := result.exitPrice
  realizedPnl := (readers.exact (some (.tostring result.realizedPnl))).getD 0
  marginFromCash := (readers.exact (some (.tostring result.marginFromCash))).getD 0
  marginFromBonus := (readers.exact (some (.tostring result.marginFromBonus))).getD 0

end Readers

end TradingPlatform
