import TradingPlatform.Leverage.EffectiveLeverage
import TradingPlatform.Wallet.Charges

namespace TradingPlatform

inductive LeverageProblem
  | noProfile
  | noTiers
  | invalidLimits
  | noBand (notional : ℚ)
  | notPositive
  deriving DecidableEq, Repr

inductive PlaceOrderError
  | badRequest
  | tradingRestricted
  | leverageConfigurationInvalid (problem : LeverageProblem)
  | orderForbidden (code : String)
  | minimumMarginNotMet (requiredMargin minRequiredMargin : ℚ)
  | insufficientMargin (requiredMargin estimatedFeeUsd totalRequiredUsd freeMargin : ℚ)
  deriving DecidableEq, Repr

/-- `ResolvedFee`, a fee rule without its id. -/
structure FeeRule where
  feePercent : ℚ
  minFee : ℚ
  maxFee : Option ℚ
  deriving DecidableEq, Repr

/-- `compute_fee_amount` -/
def computeFeeAmount (notionalUsd : ℚ) (rule : FeeRule) : ℚ :=
  if notionalUsd ≤ 0 then 0
  else
    let withMin := max (notionalUsd * rule.feePercent) rule.minFee
    match rule.maxFee with
    | some most => min withMin most
    | none => withMin

/-- The leverage limits that an order carries: those of its user and the tiers
of its symbol's profile. -/
structure LeverageLimits where
  minLeverage : Option ℤ
  maxLeverage : Option ℤ
  leverageTiers : Option (List LeverageTier)
  deriving DecidableEq, Repr

def LeverageLimits.effective (limits : LeverageLimits) (notional : ℚ) : Option ℚ :=
  effectiveLeverage notional limits.minLeverage limits.maxLeverage limits.leverageTiers

structure MarginRequest where
  side : Side
  orderType : OrderType
  size : ℚ
  limitPrice : Option ℚ
  deriving DecidableEq, Repr

/-- What the margin is computed from, as the database and Redis have it: the
user's limits and account type, the tiers of the profile that applies, the price
of the symbol and the fee rule. -/
structure MarginContext where
  userMinLeverage : Option ℤ
  userMaxLeverage : Option ℤ
  accountType : Option String
  profile : Option (List LeverageTier)
  price : Option (ℚ × ℚ)
  feeRule : Option FeeRule
  deriving DecidableEq, Repr

structure OrderMarginDetails where
  notional : ℚ
  effectiveLeverage : ℚ
  requiredMargin : ℚ
  executionPrice : ℚ
  limits : LeverageLimits
  accountType : String
  estimatedFeeUsd : ℚ
  deriving DecidableEq, Repr

namespace MarginContext
variable (ctx : MarginContext)

def resolvedAccountType : String :=
  if (ctx.accountType.map String.toLower) = some "netting" then "netting" else "hedging"

/-- The limits with the defaults of a user that has none. -/
def resolvedLimits (tiers : List LeverageTier) : LeverageLimits :=
  ⟨some (ctx.userMinLeverage.getD 1), some (ctx.userMaxLeverage.getD 500), some tiers⟩

def executionPrice (req : MarginRequest) : Option ℚ :=
  match req.orderType, req.side with
  | .LIMIT, _ => req.limitPrice
  | .MARKET, .BUY => ctx.price.map Prod.snd
  | .MARKET, .SELL => ctx.price.map Prod.fst

def estimatedFee (notional : ℚ) : ℚ :=
  match ctx.feeRule with
  | some rule => computeFeeAmount notional rule
  | none => 0

/-- `compute_order_margin_details` -/
def computeOrderMarginDetails (req : MarginRequest) : Except PlaceOrderError OrderMarginDetails :=
  match ctx.profile with
  | none => .error (.leverageConfigurationInvalid .noProfile)
  | some tiers =>
    let userMin := ctx.userMinLeverage.getD 1
    let userMax := ctx.userMaxLeverage.getD 500
    if tiers = [] then .error (.leverageConfigurationInvalid .noTiers)
    else if userMin < 1 ∨ userMax < 1 ∨ userMax < userMin then
      .error (.leverageConfigurationInvalid .invalidLimits)
    else
      match ctx.executionPrice req with
      | none => .error .badRequest
      | some executionPrice =>
        let notional := req.size * executionPrice
        match (ctx.resolvedLimits tiers).effective notional with
        | none => .error (.leverageConfigurationInvalid (.noBand notional))
        | some leverage =>
          if leverage ≤ 0 then .error (.leverageConfigurationInvalid .notPositive)
          else .ok
            { notional := notional
              effectiveLeverage := leverage
              requiredMargin := notional / leverage
              executionPrice := executionPrice
              limits := ctx.resolvedLimits tiers
              accountType := ctx.resolvedAccountType
              estimatedFeeUsd := ctx.estimatedFee notional }

end MarginContext

def minRequiredMarginUsd : ℚ := 10

/-- An order that a service has accepted: its margin and what was locked for it. -/
structure Placement where
  details : OrderMarginDetails
  wallet : Wallet
  allocation : Margins

/-- What `place_order` reads besides: the user's access, the symbol's flags, the
side of the open position that the intent query returns, the session, the free
margin and the wallet. -/
structure PlacementContext extends MarginContext where
  tradingAccess : String
  tradingEnabled : Bool
  closeOnly : Bool
  allowNewOrders : Bool
  openPositionSide : Option PositionSide
  sessionOpen : Bool
  freeMargin : ℚ
  wallet : Wallet

/-- `check_is_closing_intent`, given the side of an open row if there is one. -/
def isClosingIntent (openPositionSide : Option PositionSide) (side : Side) : Bool :=
  match openPositionSide, side with
  | some .LONG, .SELL => true
  | some .SHORT, .BUY => true
  | _, _ => false

/-- `place_order` up to the commit of its transaction, for a request without an
earlier one under its idempotency key. -/
def placeOrder (ctx : PlacementContext) (req : MarginRequest) : Except PlaceOrderError Placement :=
  if req.size ≤ 0 then .error .badRequest
  else if req.orderType = .LIMIT ∧ req.limitPrice = none then .error .badRequest
  else if ctx.tradingAccess ≠ "full" then .error .tradingRestricted
  else
    match ctx.computeOrderMarginDetails req with
    | .error e => .error e
    | .ok details =>
      let closing := isClosingIntent ctx.openPositionSide req.side
      let total := details.requiredMargin + details.estimatedFeeUsd
      let insufficient := PlaceOrderError.insufficientMargin details.requiredMargin
        details.estimatedFeeUsd total ctx.freeMargin
      if ¬ ctx.tradingEnabled then .error (.orderForbidden "TRADING_DISABLED")
      else if ctx.closeOnly ∧ ¬ closing then .error (.orderForbidden "CLOSE_ONLY")
      else if ¬ ctx.allowNewOrders ∧ ¬ closing then .error (.orderForbidden "NEW_ORDERS_DISABLED")
      else if ¬ ctx.sessionOpen then .error (.orderForbidden "MARKET_CLOSED")
      else if details.requiredMargin < minRequiredMarginUsd then
        .error (.minimumMarginNotMet details.requiredMargin minRequiredMarginUsd)
      else if ctx.freeMargin < total then .error insufficient
      else
        match ctx.wallet.lockMargin details.requiredMargin with
        | none => .error insufficient
        | some (wallet, allocation) =>
          match wallet.chargePlacementFee details.estimatedFeeUsd with
          | none => .error insufficient
          | some wallet => .ok ⟨details, wallet, allocation⟩

/-- `create_admin_order` up to its commit: no symbol flags, no session, no fee. -/
def createAdminOrder (ctx : PlacementContext) (req : MarginRequest) :
    Except PlaceOrderError Placement :=
  if ctx.tradingAccess ≠ "full" then .error .tradingRestricted
  else
    match ctx.computeOrderMarginDetails req with
    | .error e => .error e
    | .ok details =>
      let insufficient := PlaceOrderError.insufficientMargin details.requiredMargin
        details.estimatedFeeUsd (details.requiredMargin + details.estimatedFeeUsd) ctx.freeMargin
      if details.requiredMargin < minRequiredMarginUsd then
        .error (.minimumMarginNotMet details.requiredMargin minRequiredMarginUsd)
      else if ctx.freeMargin < details.requiredMargin then .error insufficient
      else
        match ctx.wallet.lockMargin details.requiredMargin with
        | none => .error insufficient
        | some (wallet, allocation) => .ok ⟨details, wallet, allocation⟩

end TradingPlatform
