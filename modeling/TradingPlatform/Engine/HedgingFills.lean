import TradingPlatform.Engine.FillAtomicity
import TradingPlatform.Engine.IndexInvariant

namespace TradingPlatform

/-- The score a fill adds for its new position to each index of the symbol. -/
def Order.openedScore (order : Order) (fillPrice : ℚ) : PriceIndex → Option ℚ
  | .posOpen => some fillPrice
  | .posSl => order.stopLoss.tonumber
  | .posTp => order.takeProfit.tonumber

/-- A hash that a fill of this order has opened. -/
structure PositionHash.OpenedBy (h : PositionHash) (args : FillArgs) (order : Order) : Prop where
  userId : h.userId = some order.userId
  symbol : h.symbol = some order.symbol
  side : h.side = some order.side.opens
  size : h.size = some args.fillSize
  entryPrice : h.entryPrice = some args.fillPrice
  avgPrice : h.avgPrice = some args.fillPrice
  status : h.status = some .OPEN

/-- The fill has opened one position, under its uuid, has filed its order and
has left everything else as it was. -/
structure OpensOnly (st after : Store) (args : FillArgs) (order : Order) : Prop where
  opened : ∃ h, after.hash args.positionUuid = some h ∧ h.OpenedBy args order
  otherHashes : ∀ q, q ≠ args.positionUuid → after.hash q = st.hash q
  oldRecords : after.oldPositions = st.oldPositions
  records : ∀ o, after.orders o = if o = args.orderId then some (order.filled args) else st.orders o
  pending : ∀ s o, o ∈ after.pending s ↔ o ∈ st.pending s ∧ ¬(s = order.symbol ∧ o = args.orderId)
  listed : ∀ u q, q ∈ after.userPositions u ↔
    u = order.userId ∧ q = args.positionUuid ∨ q ∈ st.userPositions u
  oldListed : after.oldUserPositions = st.oldUserPositions
  scores : ∀ k s q, after.score k s q =
    if s = order.symbol ∧ q = args.positionUuid then
      (order.openedScore args.fillPrice k).or (st.score k s q)
    else st.score k s q

theorem Store.mem_zremPending (st : Store) (s s' : Symbol) (o o' : OrderId) :
    o' ∈ (st.zremPending s o).pending s' ↔ o' ∈ st.pending s' ∧ ¬(s' = s ∧ o' = o) := by
  unfold zremPending
  by_cases same : s' = s
  · subst same
    simp [and_comm]
  · simp [same]

/-- Two levels that are no nulls are both added. -/
theorem Order.zaddedLevel_of_present {order : Order} (present : order.levels.Present)
    (fillPrice : ℚ) {k : PriceIndex} (level : k ≠ .posOpen) :
    Store.zaddedLevel order.stopLoss order.takeProfit k = order.openedScore fillPrice k := by
  have stopLoss : order.stopLoss ≠ .null := present.1
  cases k with
  | posOpen => exact absurd rfl level
  | posSl => rfl
  | posTp => simp [Store.zaddedLevel, openedScore, stopLoss]

namespace Fill
variable {st after : Store} {fill : Fill} {size leverage : ℚ}

theorem openPosition_score (present : fill.order.levels.Present) (k : PriceIndex) (s : Symbol)
    (q : PositionId) : (storeLeft id (openPosition st fill size leverage)).score k s q =
      if s = fill.order.symbol ∧ q = fill.positionUuid then
        (fill.order.openedScore fill.fillPrice k).or (st.score k s q)
      else st.score k s q := by
  rw [openPosition_left, Store.score_zaddLevels, Store.score_zadd, opened, Store.score_sadd,
    Store.score_hset]
  by_cases isNew : s = fill.order.symbol ∧ q = fill.positionUuid
  · obtain ⟨rfl, rfl⟩ := isNew
    cases k with
    | posOpen => simp [Store.zaddedLevel, Order.openedScore]
    | posSl => simp [Order.zaddedLevel_of_present present fill.fillPrice]
    | posTp => simp [Order.zaddedLevel_of_present present fill.fillPrice]
  · simp [isNew]

end Fill

/-- However the account's other positions stand, and in either format, the
search loops of a hedging fill take no branch that writes. -/
theorem FillAccepted.hedging_eq {st : Store} {args : FillArgs} {order : Order} {el : ℚ}
    (accepted : FillAccepted st args order el) (hedging : isNetting order.accountType = false)
    (existing old : List PositionId) :
    Fill.applyToPositions (st.markFilled args order)
      (Fill.ofArgs args order el accepted.leverage_pos) existing old =
    Fill.create (st.markFilled args order) (Fill.ofArgs args order el accepted.leverage_pos) := by
  have notNetting : (Fill.ofArgs args order el accepted.leverage_pos).netting = false := hedging
  unfold Fill.applyToPositions
  simp [Fill.existingLoop_hedging notNetting, Fill.oldLoop_hedging notNetting, notNetting]

theorem atomicFillOrder_hedging {st after : Store} {args : FillArgs} {order : Order}
    {existing old : List PositionId} {result : FillResult}
    (stored : st.orders args.orderId = some order) (hedging : isNetting order.accountType = false)
    (filled : atomicFillOrder st args existing old = .success after result) :
    result = { positionId := some args.positionUuid, fillAction := .created } ∧
      OpensOnly st after args order := by
  obtain ⟨found, el, accepted, applied⟩ := atomicFillOrder_success filled
  cases Option.some.inj (stored.symm.trans accepted.stored)
  rw [accepted.hedging_eq hedging] at applied
  have present : order.levels.Present := Fill.create_finishes.mp ⟨_, applied⟩
  generalize isFill : Fill.ofArgs args order el accepted.leverage_pos = fill at applied
  have levels : fill.order.levels.Present := by
    subst isFill
    exact present
  obtain ⟨left, frame, failed | created⟩ :=
    Fill.create_cases (st.markFilled args order) fill
  · rw [failed] at applied
    cases applied
  rw [created] at applied
  cases applied
  have scored : after.score = (storeLeft id (Fill.openPosition (st.markFilled args order) fill
      fill.fillSize fill.effectiveLeverage)).score := by
    unfold Fill.create at created
    cases opens : Fill.openPosition (st.markFilled args order) fill fill.fillSize
      fill.effectiveLeverage with
    | error failed => simp [opens] at created
    | ok done =>
      simp only [opens, Except.ok.injEq, Prod.mk.injEq, and_true] at created
      subst created
      rfl
  have hashes := Fill.openPosition_hash _ _ _ _ frame
  subst isFill
  refine ⟨rfl, ?_⟩
  constructor
  case opened =>
    refine ⟨_, (hashes args.positionUuid).trans (if_pos rfl), ?_⟩
    constructor <;> rfl
  case otherHashes =>
    intro q differ
    exact (hashes q).trans (if_neg differ)
  case oldRecords =>
    rw [frame]
    rfl
  case records =>
    intro o
    rw [frame]
    exact Store.orders_setOrder ..
  case pending =>
    intro s o
    rw [frame]
    exact Store.mem_zremPending ..
  case listed =>
    intro u q
    rw [frame]
    exact Store.mem_sadd ..
  case oldListed =>
    rw [frame]
    rfl
  case scores =>
    intro k s q
    rw [scored]
    exact Fill.openPosition_score levels k s q

namespace HedgingFills

/-- A hedging account's BUY with both levels. -/
def hedgingOrder : Order where
  id := 1
  userId := 7
  symbol := "EURUSD"
  side := .BUY
  orderType := .MARKET
  size := 2
  stopLoss := .num 90
  takeProfit := .num 120
  accountType := some " Hedging "

def hedgingArgs : FillArgs where
  orderId := 1
  fillPrice := 100
  fillSize := 2
  timestampMs := 5
  positionUuid := .uuid 3
  effectiveLeverage := some 10

def longHash : PositionHash where
  userId := some 7
  symbol := some "EURUSD"
  side := some .LONG
  size := some 1
  status := some .OPEN

def oldRecord (side : PositionSide) : OldPosition where
  symbol := "EURUSD"
  side := side
  status := .OPEN
  size := some 1

/-- Positions of both formats, on both sides, in both of the account's sets. -/
def mixedStore : Store :=
  let st := (Store.empty.setOrder 1 hedgingOrder).zaddPending "EURUSD" 1
  let st := ((st.hset (.uuid 8) fun _ => longHash).sadd 7 (.uuid 8)).sadd 7 (.legacy 2)
  { st with
    oldPositions := Function.update (Function.update (fun _ => none) (.legacy 2)
      (some (oldRecord .SHORT))) (.legacy 4) (some (oldRecord .LONG))
    oldUserPositions := fun u => if u = 7 then {.legacy 4} else ∅ }

theorem atomicFillOrder_hedging_mixed : ∃ after,
    atomicFillOrder mixedStore hedgingArgs [.legacy 2, .uuid 8] [.legacy 4] =
      .success after { positionId := some (.uuid 3), fillAction := .created } ∧
    OpensOnly mixedStore after hedgingArgs hedgingOrder := by
  have stored : mixedStore.orders hedgingArgs.orderId = some hedgingOrder := by decide +kernel
  have accepted : FillAccepted mixedStore hedgingArgs hedgingOrder 10 :=
    ⟨rfl, by norm_num, stored, rfl, rfl⟩
  have succeeds : ∃ after result, atomicFillOrder mixedStore hedgingArgs [.legacy 2, .uuid 8]
      [.legacy 4] = .success after result := accepted.succeeds_iff.mpr (by decide +kernel)
  obtain ⟨after, result, filled⟩ := succeeds
  obtain ⟨replied, opens⟩ := atomicFillOrder_hedging stored (by decide +kernel) filled
  exact ⟨after, replied ▸ filled, opens⟩

end HedgingFills

end TradingPlatform
