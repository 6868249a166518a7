import TradingPlatform.Engine.CloseReports
import TradingPlatform.Orders.OrderMargin
import TradingPlatform.Summary.AccountSummary

namespace TradingPlatform

section Accepted
variable {ctx : PlacementContext} {req : MarginRequest} {details : OrderMarginDetails}
  {placement : Placement}

/-- What the margin of an order is computed as. -/
theorem computeOrderMarginDetails_ok {ctx : MarginContext}
    (computed : ctx.computeOrderMarginDetails req = .ok details) :
    details.notional = req.size * details.executionPrice ∧
      details.limits.effective details.notional = some details.effectiveLeverage ∧
      0 < details.effectiveLeverage ∧
      details.requiredMargin = details.notional / details.effectiveLeverage ∧
      details.estimatedFeeUsd = ctx.estimatedFee details.notional := by
  unfold MarginContext.computeOrderMarginDetails at computed
  cases hasProfile : ctx.profile with
  | none => rw [hasProfile] at computed; cases computed
  | some tiers =>
    rw [hasProfile] at computed
    dsimp only at computed
    split_ifs at computed
    cases hasPrice : ctx.executionPrice req with
    | none => rw [hasPrice] at computed; cases computed
    | some price =>
      rw [hasPrice] at computed
      dsimp only at computed
      cases band : (ctx.resolvedLimits tiers).effective (req.size * price) with
      | none => rw [band] at computed; cases computed
      | some leverage =>
        rw [band] at computed
        dsimp only at computed
        split_ifs at computed with positive
        cases computed
        exact ⟨rfl, band, not_le.mp positive, rfl, rfl⟩

/-- Either service locks the required margin, at least the minimum, for what it
computed. -/
structure Placement.Locks (ctx : MarginContext) (req : MarginRequest) (placement : Placement) :
    Prop where
  computed : ctx.computeOrderMarginDetails req = .ok placement.details
  minimum : minRequiredMarginUsd ≤ placement.details.requiredMargin
  locked : placement.allocation.1 + placement.allocation.2 = placement.details.requiredMargin

/-- What `place_order` has checked when it accepts. -/
theorem placeOrder_ok (accepted : placeOrder ctx req = .ok placement) :
    placement.Locks ctx.toMarginContext req ∧ 0 < req.size ∧
      (ctx.closeOnly = true ∨ ctx.allowNewOrders = false →
        isClosingIntent ctx.openPositionSide req.side = true) := by
  unfold placeOrder at accepted
  cases computed : ctx.computeOrderMarginDetails req with
  | error e =>
    simp only [computed] at accepted
    split_ifs at accepted
  | ok details =>
    simp only [computed] at accepted
    split_ifs at accepted with size _ _ _ closeOnly newOrders _ minimum
    cases locked : ctx.wallet.lockMargin details.requiredMargin with
    | none => rw [locked] at accepted; cases accepted
    | some lock =>
      rw [locked] at accepted
      dsimp only at accepted
      cases charged : lock.1.chargePlacementFee details.estimatedFeeUsd with
      | none => rw [charged] at accepted; cases accepted
      | some wallet =>
        rw [charged] at accepted
        cases accepted
        refine ⟨⟨computed, not_lt.mp minimum, Wallet.lockMargin_sum locked⟩, not_le.mp size, ?_⟩
        rintro (only | noNew)
        · by_contra opening
          exact closeOnly ⟨only, opening⟩
        · by_contra opening
          exact newOrders ⟨by rw [noNew]; decide, opening⟩

theorem createAdminOrder_locks (accepted : createAdminOrder ctx req = .ok placement) :
    placement.Locks ctx.toMarginContext req := by
  unfold createAdminOrder at accepted
  cases computed : ctx.computeOrderMarginDetails req with
  | error e =>
    simp only [computed] at accepted
    split_ifs at accepted
  | ok details =>
    simp only [computed] at accepted
    split_ifs at accepted with _ minimum
    cases locked : ctx.wallet.lockMargin details.requiredMargin with
    | none => rw [locked] at accepted; cases accepted
    | some lock =>
      rw [locked] at accepted
      cases accepted
      exact ⟨computed, not_lt.mp minimum, Wallet.lockMargin_sum locked⟩

end Accepted

/-- The engine fills an order of this size at the price it was placed at, with the
leverage that the order's limits give, and a position is created. -/
structure CreatedAsPlaced (details : OrderMarginDetails) (size : ℚ) (st : Store) (args : FillArgs)
    (existing old : List PositionId) (after : Store) : Prop where
  size : args.fillSize = size
  price : args.fillPrice = details.executionPrice
  leverage : args.effectiveLeverage = details.limits.effective (args.fillPrice * args.fillSize)
  created : ∃ result, atomicFillOrder st args existing old = .success after result ∧
    result.fillAction = .created

section Created
variable {st after : Store} {args : FillArgs} {existing old : List PositionId} {result : FillResult}

theorem Fill.create_hash {fill : Fill} (created : Fill.create st fill = .ok (after, result)) :
    after.hash fill.positionUuid = some (fill.openHash fill.fillSize fill.effectiveLeverage
      ((st.hash fill.positionUuid).getD {})) := by
  unfold Fill.create at created
  split at created
  next => cases created
  next opened written =>
    cases created
    have frame := openPosition_sameButIndex st fill fill.fillSize fill.effectiveLeverage
    rw [written] at frame
    exact (openPosition_hash _ _ _ _ frame fill.positionUuid).trans (if_pos rfl)

/-- The action that a successful fill reports. -/
def ScriptOutcome.fillAction {ε : Type} : ScriptOutcome ε FillResult → Option FillAction
  | .success _ result => some result.fillAction
  | .error _ _ => none
  | .raised _ => none

theorem ScriptOutcome.success_of_fillAction {ε : Type} {outcome : ScriptOutcome ε FillResult}
    {action : FillAction} (reported : outcome.fillAction = some action) :
    ∃ result, outcome = .success outcome.store result ∧ result.fillAction = action := by
  cases outcome with
  | success after result => exact ⟨result, rfl, Option.some.inj reported⟩
  | error after e => cases reported
  | raised after => cases reported

/-- A fill that reports a created position wrote the whole of its hash. -/
theorem atomicFillOrder_created
    (filled : atomicFillOrder st args existing old = .success after result)
    (created : result.fillAction = .created) : ∃ order el h, ∃ accepted : FillAccepted st args order el,
      after.hash args.positionUuid = some
        ((Fill.ofArgs args order el accepted.leverage_pos).openHash args.fillSize el h) := by
  obtain ⟨order, el, accepted, applied⟩ := atomicFillOrder_success filled
  refine ⟨order, el, ((st.markFilled args order).hash args.positionUuid).getD {}, accepted, ?_⟩
  rcases Fill.applyToPositions_reply applied with ⟨q, rfl⟩ | ⟨q, g, _, netted⟩ | opened
  · cases created
  · unfold Fill.netAgainst at netted
    dsimp only at netted
    split_ifs at netted
    · cases netted; cases created
    · cases netted; cases created
    · split at netted
      next => cases netted
      next => cases netted; cases created
  · exact Fill.create_hash opened

end Created

section Counted
variable {inp : SummaryInput} {h : PositionHash} {quote : String} {n : ℕ}

/-- In hedged mode an open position adds its margin, converted to USD. -/
theorem redisStep_hedged (hedged : inp.mode = .hedged) (stored : inp.store.hash (.uuid n) = some h)
    (isOpen : h.status = some .OPEN)
    (known : inp.symbolMap (normalizeSymbol (h.symbol.getD "")) = some quote)
    (supported : quoteCurrencySupported inp.rates quote) (totals : SummaryInput.RedisTotals) :
    (inp.redisStep totals (.uuid n)).marginUsed =
      totals.marginUsed + h.margin.getD 0 * usdFactor inp.rates quote := by
  unfold SummaryInput.redisStep SummaryInput.chargeMargin
  simp only [stored, Option.getD_some, known, supported, if_true, hedged, isOpen,
    convertWithRates_usd supported]

end Counted

/-- The amounts of a placement are the same in USD at the given factor: the
notional, the margin that its checks and its lock take, and the fee. -/
structure OrderMarginDetails.InUsd (ctx : MarginContext) (factor : ℚ) (details : OrderMarginDetails) :
    Prop where
  notional : details.notional * factor = details.notional
  requiredMargin : details.requiredMargin * factor = details.requiredMargin
  estimatedFeeUsd : details.estimatedFeeUsd = ctx.estimatedFee (details.notional * factor)

/-- The margin that is locked for an order is the one that the account summary
counts for its position, and is computed in the same unit, exactly for symbols
quoted in what is worth a USD. -/
theorem marginLocked_counted_iff {ctx : PlacementContext} {req : MarginRequest} {placement : Placement}
    (accepted : placeOrder ctx req = .ok placement ∨ createAdminOrder ctx req = .ok placement)
    {st after : Store} {args : FillArgs} {existing old : List PositionId}
    (created : CreatedAsPlaced placement.details req.size st args existing old after)
    {order : Order} (placed : st.orders args.orderId = some order) {n : ℕ}
    (uuid : args.positionUuid = .uuid n) {inp : SummaryInput} (hedged : inp.mode = .hedged)
    (store : inp.store = after) {quote : String}
    (known : inp.symbolMap (normalizeSymbol order.symbol) = some quote)
    (supported : quoteCurrencySupported inp.rates quote) :
    ((∀ totals, (inp.redisStep totals (.uuid n)).marginUsed =
        totals.marginUsed + (placement.allocation.1 + placement.allocation.2)) ∧
      placement.details.InUsd ctx.toMarginContext (usdFactor inp.rates quote)) ↔
    usdFactor inp.rates quote = 1 := by
  have locks : placement.Locks ctx.toMarginContext req := 
    accepted.elim (fun byUser => (placeOrder_ok byUser).1) createAdminOrder_locks
  obtain ⟨notional, leverage, leverage_pos, required, fee⟩ := computeOrderMarginDetails_ok locks.computed
  obtain ⟨result, filled, isCreated⟩ := created.created
  obtain ⟨order', el, h, fill, written⟩ := atomicFillOrder_created filled isCreated
  cases Option.some.inj (fill.stored.symm.trans placed)
  have sameNotional : args.fillPrice * args.fillSize = placement.details.notional := by
    rw [created.price, created.size, notional, mul_comm]
  have sameLeverage : el = placement.details.effectiveLeverage := by
    have given := fill.leverage.symm.trans created.leverage
    rw [sameNotional, leverage] at given
    exact Option.some.inj given
  have counted (totals : SummaryInput.RedisTotals) :
      (inp.redisStep totals (.uuid n)).marginUsed =
        totals.marginUsed + placement.details.requiredMargin * usdFactor inp.rates quote := by
    rw [uuid, ← store] at written
    rw [redisStep_hedged hedged written rfl known supported]
    change totals.marginUsed + args.fillSize * args.fillPrice / el * _ = _
    rw [mul_comm args.fillSize, sameNotional, sameLeverage, required]
  have positive : placement.details.requiredMargin ≠ 0 := by
    have minimum := locks.minimum
    unfold minRequiredMarginUsd at minimum
    linarith
  constructor
  · rintro ⟨-, usd⟩
    exact mul_left_cancel₀ positive (usd.requiredMargin.trans (mul_one _).symm)
  · intro one
    refine ⟨fun totals => ?_, ?_, ?_, ?_⟩
    · rw [counted, one, mul_one, locks.locked]
    · rw [one, mul_one]
    · rw [one, mul_one]
    · rw [one, mul_one, fee]

section Quotes

def sampleContext : PlacementContext where
  userMinLeverage := none
  userMaxLeverage := none
  accountType := none
  profile := some [⟨0, none, 100⟩]
  price := some (150, 150)
  feeRule := none
  tradingAccess := "full"
  tradingEnabled := true
  closeOnly := false
  allowNewOrders := true
  openPositionSide := none
  sessionOpen := true
  freeMargin := 5000
  wallet := .cash 5000 0

def sampleRequest : MarginRequest := ⟨.BUY, .MARKET, 1000, none⟩

def samplePlaced : Order :=
  { id := 1, userId := 7, symbol := "PAIR", side := .BUY, orderType := .MARKET, size := 1000
    stopLoss := .absent, takeProfit := .absent
    marginFromCash := .num 1500, marginFromBonus := .num 0 }

def sampleFill : FillArgs := ⟨1, 150, 1000, 1000, .uuid 1, some 100⟩

def sampleOutcome : ScriptOutcome FillError FillResult :=
  atomicFillOrder (Store.empty.setOrder 1 samplePlaced) sampleFill [] []

/-- The account after the fill, with the symbol quoted in this currency and a
dollar worth 150 yen. -/
def sampleAccount (quote : String) : SummaryInput where
  mode := .hedged
  rates code := if code = "JPY" then some 150 else if code = "USD" then some 1 else none
  symbols := AList.insert 1 ⟨"PAIR", quote⟩ ∅
  store := sampleOutcome.store
  ids := [.uuid 1]
  rows := []

theorem samplePlacement : ∃ placement, placeOrder sampleContext sampleRequest = .ok placement ∧
    placement.allocation = (1500, 0) ∧
    CreatedAsPlaced placement.details 1000 (Store.empty.setOrder 1 samplePlaced) sampleFill [] []
      sampleOutcome.store := by
  have evaluates : (placeOrder sampleContext sampleRequest).toOption.map
      (fun placement => (placement.allocation, placement.details.executionPrice,
        placement.details.limits.effective 150000)) = some ((1500, 0), 150, some 100) := by
    decide +kernel
  obtain ⟨placement, placed, reads⟩ := Option.map_eq_some_iff.mp evaluates
  simp only [Prod.mk.injEq] at reads
  obtain ⟨allocation, price, leverage⟩ := reads
  have accepted : placeOrder sampleContext sampleRequest = .ok placement := by
    cases outcome : placeOrder sampleContext sampleRequest with
    | error e => rw [outcome] at placed; cases placed
    | ok other => rw [outcome] at placed; cases placed; rfl
  have notional : sampleFill.fillPrice * sampleFill.fillSize = 150000 := by decide +kernel
  refine ⟨placement, accepted, allocation, rfl, price.symm, ?_,
    ScriptOutcome.success_of_fillAction (by decide +kernel)⟩
  rw [notional, leverage]
  rfl

/-- For a symbol quoted in yen, 1500 are locked and 10 counted. -/
theorem marginLocked_yen : ∃ placement, placeOrder sampleContext sampleRequest = .ok placement ∧
    CreatedAsPlaced placement.details 1000 (Store.empty.setOrder 1 samplePlaced) sampleFill [] []
      sampleOutcome.store ∧
    (sampleAccount "JPY").symbolMap (normalizeSymbol "PAIR") = some "JPY" ∧
    quoteCurrencySupported (sampleAccount "JPY").rates "JPY" ∧
    placement.allocation.1 + placement.allocation.2 = 1500 ∧
    ((sampleAccount "JPY").redisStep {} (.uuid 1)).marginUsed = 10 := by
  obtain ⟨placement, accepted, allocation, created⟩ := samplePlacement
  exact ⟨placement, accepted, created, by decide +kernel, by decide +kernel,
    by rw [allocation]; decide +kernel, by decide +kernel⟩

theorem marginLocked_counted_dollar : ∃ placement,
    placeOrder sampleContext sampleRequest = .ok placement ∧
    ∀ totals, ((sampleAccount "USD").redisStep totals (.uuid 1)).marginUsed =
      totals.marginUsed + (placement.allocation.1 + placement.allocation.2) := by
  obtain ⟨placement, accepted, _, created⟩ := samplePlacement
  have factor : usdFactor (sampleAccount "USD").rates "USD" = 1 := by decide +kernel
  have isPlaced : (Store.empty.setOrder 1 samplePlaced).orders sampleFill.orderId = some samplePlaced :=
    (Store.orders_setOrder ..).trans (if_pos rfl)
  have known : (sampleAccount "USD").symbolMap (normalizeSymbol samplePlaced.symbol) = some "USD" := by
    decide +kernel
  have counted := (marginLocked_counted_iff (.inl accepted) created isPlaced rfl rfl rfl known
    (by decide +kernel)).mpr factor
  exact ⟨placement, accepted, counted.1⟩

end Quotes

end TradingPlatform
