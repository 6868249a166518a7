import TradingPlatform.Orders.OrderMargin
import TradingPlatform.Summary.SummaryRuns
import TradingPlatform.Wallet.Charges

namespace TradingPlatform

/-- A pending order: the margin it reserves and the split of its lock. -/
structure ReservedOrder where
  requiredMargin : ℚ
  margins : Margins
  deriving DecidableEq

/-- The sums of `get_free_margin_from_db_fast`, each one query. -/
inductive FundsQuery
  | deposits
  | withdrawals
  | closedPnl
  | bonus
  deriving DecidableEq

/-- How far a call of `place_order` has come after its first checks. With the
cache cold it sums up the account; approved, it has compared a free margin. -/
inductive PlacementStage
  | checked
  | summing (money : ℚ) (queries : List FundsQuery)
  | approved (freeMargin : ℚ)
  deriving DecidableEq

structure PlacementRequest where
  requiredMargin : ℚ
  feeUsd : ℚ
  stage : PlacementStage
  deriving DecidableEq

/-- What the sums over the rows of Postgres give, which follow Redis. -/
structure MirroredSums where
  marginUsed : ℚ
  unrealizedPnl : ℚ
  closedPnl : ℚ
  deriving DecidableEq

/-- A committed placement with the account that its transaction found. -/
structure CommittedPlacement where
  equity : ℚ
  openMargin : ℚ
  reserved : ℚ
  requiredMargin : ℚ
  feeUsd : ℚ
  deriving DecidableEq

/-- A user's wallet, pending orders and open positions, the closes and the
cancelled orders whose margins are still locked, the sums that Postgres would
give, the summary's run and the free margin that it cached last, the calls of
`place_order` in flight and the placements that were committed. -/
structure MarginDesk where
  wallet : Wallet
  orders : FiniteTable OrderId ReservedOrder
  positions : FiniteTable PositionId MarkedPosition
  closes : List MarkedPosition
  cancels : List Margins
  deposits : ℚ
  withdrawals : ℚ
  mirrored : MirroredSums
  phase : SummaryPhase
  cached : Option ℚ
  requests : FiniteTable OrderId PlacementRequest
  placements : List CommittedPlacement

inductive MarginDeskAction
  | submit (o : OrderId) (requiredMargin feeUsd : ℚ)
  | readFreeMargin (o : OrderId)
  | query (o : OrderId)
  | readAggregates (o : OrderId)
  | commit (o : OrderId)
  | fail (o : OrderId)
  | summary
  | fill (o : OrderId) (p : PositionId) (written : Option MarkedPosition)
      (close : Option MarkedPosition)
  | move (p : PositionId) (written : Option MarkedPosition) (close : Option MarkedPosition)
  | settle (i : ℕ)
  | cancel (o : OrderId)
  | rollback (i : ℕ)
  | mirror (sums : MirroredSums)

/-- The transaction of `place_order` on the wallet; `none` rolls it back. -/
def Wallet.placeOrder (w : Wallet) (requiredMargin feeUsd : ℚ) : Option (Wallet × Margins) :=
  (w.lockMargin requiredMargin).bind fun (locked, m) =>
    (locked.chargePlacementFee feeUsd).map (·, m)

namespace MarginDesk

theorem nothingLocked : (0 : ℚ) ≤ 0 := le_rfl

/-- No orders, no positions and nothing locked. -/
def opened (availableBalance bonusBalance deposits withdrawals : ℚ) (nonneg : 0 ≤ bonusBalance) :
    MarginDesk where
  wallet := ⟨availableBalance, 0, bonusBalance, 0, nonneg, nothingLocked, nonneg⟩
  orders := ∅
  positions := ∅
  closes := []
  cancels := []
  deposits := deposits
  withdrawals := withdrawals
  mirrored := ⟨0, 0, 0⟩
  phase := .idle
  cached := none
  requests := ∅
  placements := []

def equity (s : MarginDesk) : ℚ := s.wallet.total + openPnl s.positions

/-- The margin that all pending orders reserve. -/
def reserved (s : MarginDesk) : ℚ :=
  FiniteTable.total (fun _ order => order.requiredMargin) s.orders

def setStage (s : MarginDesk) (o : OrderId) (request : PlacementRequest) (stage : PlacementStage) :
    MarginDesk :=
  { s with requests := s.requests.insert o { request with stage := stage } }

def drop (s : MarginDesk) (o : OrderId) : MarginDesk := { s with requests := s.requests.erase o }

/-- The free-margin check. -/
def compare (s : MarginDesk) (o : OrderId) (request : PlacementRequest) (freeMargin : ℚ) :
    MarginDesk :=
  if freeMargin < request.requiredMargin + request.feeUsd then s.drop o
  else s.setStage o request (.approved freeMargin)

def queried (s : MarginDesk) : FundsQuery → ℚ
  | .deposits => s.deposits
  | .withdrawals => -s.withdrawals
  | .closedPnl => s.mirrored.closedPnl
  | .bonus => s.wallet.bonusBalance

/-- One read of the run of `compute_account_summary_inner`, or its write. -/
def summaryStep (s : MarginDesk) : MarginDesk :=
  match s.phase with
  | .idle => { s with phase := .started }
  | .started => { s with phase := .aggregatesRead (hedgedMargin s.positions) (openPnl s.positions) }
  | .aggregatesRead margin pnl => { s with phase := .bonusRead margin pnl s.wallet.bonusBalance }
  | .bonusRead margin pnl bonus =>
    let balance := s.wallet.availableBalance + s.wallet.lockedBalance
    { s with phase := .cashRead ⟨balance, bonus, pnl, margin⟩ }
  | .cashRead figures => { s with phase := .idle, cached := some figures.freeMargin }
  | .thresholdsRead figures _ => { s with phase := .idle, cached := some figures.freeMargin }

/-- A script of the engine leaves any position under the id, or none, and
reports at most one close. -/
def written (s : MarginDesk) (p : PositionId) (position close : Option MarkedPosition) :
    MarginDesk :=
  { s with
    positions := match position with
      | some position => s.positions.insert p position
      | none => s.positions.erase p
    closes := s.closes ++ close.toList }

/-- The transaction of `place_order`. -/
def commit (s : MarginDesk) (o : OrderId) (request : PlacementRequest) : MarginDesk :=
  match s.wallet.placeOrder request.requiredMargin request.feeUsd with
  | some (wallet, m) =>
    { s with
      wallet := wallet
      orders := s.orders.insert o ⟨request.requiredMargin, m⟩
      requests := s.requests.erase o
      placements := s.placements ++ [⟨s.equity, hedgedMargin s.positions, s.reserved,
        request.requiredMargin, request.feeUsd⟩] }
  | none => s.drop o

/-- One step of a call of `place_order`, of the summary, of the engine or of a
listener. -/
def step (s : MarginDesk) : MarginDeskAction → Option MarginDesk
  | .submit o requiredMargin feeUsd =>
    if minRequiredMarginUsd ≤ requiredMargin ∧ 0 ≤ feeUsd ∧ s.requests.lookup o = none then
      some { s with requests := s.requests.insert o ⟨requiredMargin, feeUsd, .checked⟩ }
    else none
  | .readFreeMargin o =>
    match s.requests.lookup o with
    | some request =>
      if request.stage = .checked then
        match s.cached with
        | some freeMargin => some (s.compare o request freeMargin)
        | none => some (s.setStage o request
            (.summing 0 [.deposits, .withdrawals, .closedPnl, .bonus]))
      else none
    | none => none
  | .query o =>
    match s.requests.lookup o with
    | some request =>
      match request.stage with
      | .summing money (query :: queries) =>
        some (s.setStage o request (.summing (money + s.queried query) queries))
      | _ => none
    | none => none
  | .readAggregates o =>
    match s.requests.lookup o with
    | some request =>
      match request.stage with
      | .summing money [] =>
        let figures : SummaryFigures := ⟨money, 0, s.mirrored.unrealizedPnl, s.mirrored.marginUsed⟩
        some (s.compare o request figures.freeMargin)
      | _ => none
    | none => none
  | .commit o =>
    match s.requests.lookup o with
    | some request =>
      match request.stage with
      | .approved _ => if s.orders.lookup o = none then some (s.commit o request) else none
      | _ => none
    | none => none
  | .fail o => some (s.drop o)
  | .summary => some s.summaryStep
  | .fill o p position close =>
    match s.orders.lookup o with
    | some _ => some ({ s with orders := s.orders.erase o }.written p position close)
    | none => none
  | .move p position close =>
    match s.positions.lookup p with
    | some _ => some (s.written p position close)
    | none => none
  | .settle i =>
    match s.closes[i]? with
    | some close =>
      some { s with wallet := s.wallet.settleClose close, closes := s.closes.eraseIdx i }
    | none => none
  | .cancel o =>
    match s.orders.lookup o with
    | some order =>
      some { s with orders := s.orders.erase o, cancels := s.cancels ++ [order.margins] }
    | none => none
  | .rollback i =>
    match s.cancels[i]? with
    | some m =>
      some { s with
        wallet := (s.wallet.rollbackOrderMarginLock m).getD s.wallet
        cancels := s.cancels.eraseIdx i }
    | none => none
  | .mirror sums => some { s with mirrored := sums }

end MarginDesk

end TradingPlatform
