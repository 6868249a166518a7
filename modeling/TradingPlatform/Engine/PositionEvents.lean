import TradingPlatform.Engine.CloseScript

namespace TradingPlatform

/-- `event.position.closed` -/
structure PositionClosedEvent where
  positionId : PositionId
  userId : UserId
  closedSize : ℚ
  exitPrice : ℚ
  realizedPnl : ℚ
  marginFromCash : ℚ
  marginFromBonus : ℚ
  deriving DecidableEq, Repr

/-- `evt.position.updated` -/
structure PositionUpdatedEvent where
  positionId : PositionId
  userId : UserId
  symbol : Symbol
  side : PositionSide
  size : ℚ
  avgPrice : ℚ
  leverage : ℚ
  unrealizedPnl : ℚ
  realizedPnl : ℚ
  sl : Option ℚ
  tp : Option ℚ
  status : PositionStatus
  marginFromCash : ℚ
  marginFromBonus : ℚ
  deriving DecidableEq, Repr

/-- The event of a close command and of `close_all`: built from the script's reply. -/
def closedEventOfReply (userId : UserId) (result : CloseResult) : PositionClosedEvent where
  positionId := result.positionId
  userId := userId
  closedSize := result.closedSize
  exitPrice := result.exitPrice
  realizedPnl := result.realizedPnl
  marginFromCash := result.marginFromCash
  marginFromBonus := result.marginFromBonus

/-- The event of `trigger_closure`: built from the hash as the close left it. -/
def closedEventOfTrigger (p : PositionId) (exitPrice : ℚ) (h : PositionHash) :
    Option PositionClosedEvent :=
  h.userId.map fun userId =>
    { positionId := p, userId := userId, closedSize := h.size.getD 0, exitPrice := exitPrice
      realizedPnl := h.realizedPnl.getD 0, marginFromCash := h.marginFromCash.getD 0
      marginFromBonus := h.marginFromBonus.getD 0 }

/-- The event of a netting close or flip: PnL from the fill's reply, margins
from the hash it closed. -/
def closedEventOfFill (st : Store) (userId : UserId) (args : FillArgs) (result : FillResult) :
    Option PositionClosedEvent :=
  result.closedPositionId.map fun p =>
    let h := (st.hash p).getD {}
    { positionId := p, userId := userId, closedSize := result.closedPositionSize.getD args.fillSize
      exitPrice := args.fillPrice, realizedPnl := result.realizedPnl.getD 0
      marginFromCash := h.marginFromCash.getD 0, marginFromBonus := h.marginFromBonus.getD 0 }

/-- `publish_position_updated`: nothing is published for a missing hash, nor
when the hash has no user or leverage. -/
def publishPositionUpdated (st : Store) (p : PositionId) (statusOverride : Option PositionStatus) :
    Option PositionUpdatedEvent :=
  match st.hash p with
  | none => none
  | some h =>
    match h.userId, h.leverage with
    | some userId, some leverage => some
        { positionId := p
          userId := userId
          symbol := h.symbol.getD ""
          side := h.side.getD .LONG
          size := h.size.getD 0
          avgPrice := (h.avgPrice.orElse fun _ => h.entryPrice).getD 0
          leverage := leverage
          unrealizedPnl := h.unrealizedPnl.getD 0
          realizedPnl := h.realizedPnl.getD 0
          sl := (h.sl.bind LevelText.tonumber).filter (· ≠ 0)
          tp := (h.tp.bind LevelText.tonumber).filter (· ≠ 0)
          status := (statusOverride.orElse fun _ => h.status).getD .OPEN
          marginFromCash := h.marginFromCash.getD 0
          marginFromBonus := h.marginFromBonus.getD 0 }
    | _, _ => none

end TradingPlatform
