import TradingPlatform.Library.FiniteTable
import TradingPlatform.Summary.AccountSummary
import TradingPlatform.Wallet.BonusService

namespace TradingPlatform

/-- What an open position adds to the summary at the prices there are, in USD,
and the margins that its close releases. -/
structure MarkedPosition where
  marginUsd : ℚ
  pnlUsd : ℚ
  swapUsd : ℚ
  margins : Margins
  deriving DecidableEq

/-- Margin used in hedged mode: every position holds its own. -/
def hedgedMargin (positions : FiniteTable PositionId MarkedPosition) : ℚ :=
  FiniteTable.total (fun _ position => position.marginUsd) positions

/-- Unrealised PnL, less the swap that the open rows have accumulated. -/
def openPnl (positions : FiniteTable PositionId MarkedPosition) : ℚ :=
  FiniteTable.total (fun _ position => position.pnlUsd - position.swapUsd) positions

/-- The figures of a summary. -/
structure SummaryFigures where
  balance : ℚ
  bonus : ℚ
  unrealizedPnl : ℚ
  marginUsed : ℚ
  deriving DecidableEq, Repr

namespace SummaryFigures

def equity (f : SummaryFigures) : ℚ := f.balance + f.bonus + f.unrealizedPnl

def freeMargin (f : SummaryFigures) : ℚ :=
  if f.marginUsed ≤ f.equity then f.equity - f.marginUsed else 0

/-- `shown` is how the level is printed, with two decimals. -/
def marginLevel (shown : ℚ → ℚ) (f : SummaryFigures) : MarginLevel :=
  if 0 < f.marginUsed then .percent (shown (f.equity / f.marginUsed * 100)) else .inf

end SummaryFigures

/-- The level is a number below the threshold. -/
def MarginLevel.Below (threshold : ℚ) : MarginLevel → Prop
  | .inf => False
  | .percent q => q < threshold

instance (threshold : ℚ) : DecidablePred (MarginLevel.Below threshold)
  | .inf => .isFalse id
  | .percent q => inferInstanceAs (Decidable (q < threshold))

/-- How far a run of the summary has read. -/
inductive SummaryPhase
  | idle
  | started
  | aggregatesRead (marginUsed unrealizedPnl : ℚ)
  | bonusRead (marginUsed unrealizedPnl bonus : ℚ)
  | cashRead (figures : SummaryFigures)
  | thresholdsRead (figures : SummaryFigures) (stopOut : Option ℚ)
  deriving DecidableEq

/-- A published `cmd.position.close_all`, with the threshold that the level was
below and the true levels between the first and the last read of the run. -/
structure CloseAllCommand where
  threshold : ℚ
  trueLevels : List MarginLevel
  deriving DecidableEq

/-- The wallet and the open positions of a user, the closes whose script has
run and that are not settled, the run of the summary with the true levels since
its first read and what the wallet would have held at that read with all closes
settled, the runs that handlers still owe, the summary cached last and the
published commands. -/
structure SummaryRuns where
  wallet : Wallet
  positions : FiniteTable PositionId MarkedPosition
  closes : List MarkedPosition
  phase : SummaryPhase
  trueLevels : List MarginLevel
  settledTotal : ℚ
  due : ℕ
  cached : Option SummaryFigures
  commands : List CloseAllCommand

inductive SummaryRunAction
  | fill (p : PositionId) (position : MarkedPosition)
  | closeScript (p : PositionId)
  | settle (i : ℕ)
  | start (handler : Bool)
  | readAggregates
  | readBonus
  | readCash
  | readThresholds (stopOut : Option ℚ)
  | finish (stopOutFree liquidationFree : Bool)

/-- `settle_swap_on_closed_position` on the wallet. -/
def Wallet.debitSwap (w : Wallet) (swapUsd : ℚ) : Wallet :=
  if swapUsd ≠ 0 ∧ swapUsd ≤ w.availableBalance then
    { w with availableBalance := w.availableBalance - swapUsd }
  else w

/-- `release_and_apply_pnl` and, when it commits, the swap settlement. -/
def Wallet.settleClose (w : Wallet) (close : MarkedPosition) : Wallet :=
  match w.releaseAndApplyPnl (some false) close.margins close.pnlUsd with
  | some (released, _) => released.debitSwap close.swapUsd
  | none => w

namespace SummaryRuns

def opened (wallet : Wallet) : SummaryRuns :=
  ⟨wallet, ∅, [], .idle, [], 0, 0, none, []⟩

section Steps
variable (shown : ℚ → ℚ) (marginUsed : FiniteTable PositionId MarkedPosition → ℚ)

def unrealizedPnl (s : SummaryRuns) : ℚ := openPnl s.positions

/-- The wallet with every close settled whose script has run. -/
def trueWallet (s : SummaryRuns) : Wallet := s.closes.foldl Wallet.settleClose s.wallet

/-- The figures of this instant with every close settled whose script has run. -/
def trueFigures (s : SummaryRuns) : SummaryFigures where
  balance := s.trueWallet.availableBalance + s.trueWallet.lockedBalance
  bonus := s.trueWallet.bonusBalance
  unrealizedPnl := s.unrealizedPnl
  marginUsed := marginUsed s.positions

def trueLevel (s : SummaryRuns) : MarginLevel := (s.trueFigures marginUsed).marginLevel shown

/-- The run is between its first and its last read. -/
def reading (s : SummaryRuns) : Bool :=
  match s.phase with
  | .aggregatesRead _ _ => true
  | .bonusRead _ _ _ => true
  | .cashRead _ => true
  | _ => false

/-- Records the true level of an instant between the reads. -/
def observed (s : SummaryRuns) : SummaryRuns :=
  if s.reading then { s with trueLevels := s.trueLevels ++ [s.trueLevel shown marginUsed] } else s

/-- The thresholds that a level is below, with a free cooldown key. -/
def triggered (level : MarginLevel) (stopOut : Option ℚ) (stopOutFree liquidationFree : Bool) :
    List ℚ :=
  (match stopOut with
    | some threshold => if level.Below threshold ∧ stopOutFree = true then [threshold] else []
    | none => []) ++
  if level.Below 0 ∧ liquidationFree = true then [0] else []

/-- One step of the engine, of the listener of closes or of the run. The margin
of the open positions is a function of them, as each calculation type has it. -/
def step (s : SummaryRuns) : SummaryRunAction → Option SummaryRuns
  | .fill p position =>
    some ({ s with positions := s.positions.insert p position, due := s.due + 1 }.observed shown
      marginUsed)
  | .closeScript p =>
    match s.positions.lookup p with
    | some position =>
      some ({ s with
        positions := s.positions.erase p
        closes := s.closes ++ [position] }.observed shown marginUsed)
    | none => none
  | .settle i =>
    match s.closes[i]? with
    | some close =>
      some ({ s with
        wallet := s.wallet.settleClose close
        closes := s.closes.eraseIdx i
        due := s.due + 1 }.observed shown marginUsed)
    | none => none
  | .start handler =>
    if s.phase = .idle ∧ (handler = true → 0 < s.due) then
      some { s with phase := .started, due := if handler then s.due - 1 else s.due }
    else none
  | .readAggregates =>
    if s.phase = .started then
      some { s with
        phase := .aggregatesRead (marginUsed s.positions) s.unrealizedPnl
        trueLevels := [s.trueLevel shown marginUsed]
        settledTotal := s.trueWallet.total }
    else none
  | .readBonus =>
    match s.phase with
    | .aggregatesRead margin unrealized =>
      some { s with phase := .bonusRead margin unrealized s.wallet.bonusBalance }
    | _ => none
  | .readCash =>
    match s.phase with
    | .bonusRead margin unrealized bonus =>
      let balance := s.wallet.availableBalance + s.wallet.lockedBalance
      some { s with phase := .cashRead ⟨balance, bonus, unrealized, margin⟩ }
    | _ => none
  | .readThresholds stopOut =>
    match s.phase with
    | .cashRead figures => some { s with phase := .thresholdsRead figures stopOut }
    | _ => none
  | .finish stopOutFree liquidationFree =>
    match s.phase with
    | .thresholdsRead figures stopOut =>
      some { s with
        phase := .idle
        cached := some figures
        commands := s.commands ++
          (triggered (figures.marginLevel shown) stopOut stopOutFree liquidationFree).map
            fun threshold => ⟨threshold, s.trueLevels⟩ }
    | _ => none

end Steps

end SummaryRuns

end TradingPlatform
