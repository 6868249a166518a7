import TradingPlatform.Engine.CloseScript
import TradingPlatform.Engine.FillBranches
import TradingPlatform.Library.StepRuns

namespace TradingPlatform

open StepRuns FiniteTable

def Side.sign : Side → ℚ
  | .BUY => 1
  | .SELL => -1

def PositionHash.sign (h : PositionHash) : ℚ := if h.side = some .LONG then 1 else -1

/-- Realised PnL plus, while the position is open, its PnL at the mark price. -/
def PositionHash.bookValue (mark : ℚ) (h : PositionHash) : ℚ :=
  h.realizedPnl.getD 0 +
    if h.status = some .OPEN then h.sign * h.size.getD 0 * (mark - h.entryPrice.getD 0) else 0

def Store.bookValue (st : Store) (mark : ℚ) : ℚ := st.sumPositions (·.bookValue mark)

/-- A signed quantity traded at a price. -/
structure Trade where
  quantity : ℚ
  price : ℚ
  deriving DecidableEq, Repr

def Trade.value (mark : ℚ) (trade : Trade) : ℚ := trade.quantity * (mark - trade.price)

/-- The store together with everything traded so far. -/
structure Book where
  store : Store
  trades : List Trade

inductive BookAction
  | order (o : OrderId) (order : Order)
  | fill (args : FillArgs) (existing old : List PositionId)
  | close (args : CloseArgs)

/-- One successful operation. A fill has a positive size and a fresh uuid; a
close counts as the opposite trade of the size it actually closed. -/
def Book.step (book : Book) : BookAction → Option Book
  | .order o order => some { book with store := book.store.setOrder o order }
  | .fill args existing old =>
    match book.store.orders args.orderId with
    | none => none
    | some order =>
      if Smembers existing (book.store.userPositions order.userId) ∧
          Smembers old (book.store.oldUserPositions order.userId) ∧
          book.store.hash args.positionUuid = none ∧ 0 < args.fillSize then
        match atomicFillOrder book.store args existing old with
        | .success store _ =>
          some ⟨store, book.trades ++ [⟨order.side.sign * args.fillSize, args.fillPrice⟩]⟩
        | _ => none
      else none
  | .close args =>
    match book.store.hash args.positionId with
    | none => none
    | some h =>
      match atomicClosePosition book.store args with
      | .success store result =>
        some ⟨store, book.trades ++ [⟨-(h.sign * result.closedSize), args.exitPrice⟩]⟩
      | _ => none

section Values
variable {mark : ℚ} {h : PositionHash} {st : Store} {p : PositionId}

theorem PositionHash.bookValue_open (isOpen : h.status = some .OPEN) : h.bookValue mark =
    h.realizedPnl.getD 0 + h.sign * h.size.getD 0 * (mark - h.entryPrice.getD 0) := by
  rw [bookValue, if_pos isOpen]

theorem Store.bookValue_hset_of_some (stored : st.hash p = some h)
    (write : PositionHash → PositionHash) : (st.hset p write).bookValue mark =
      st.bookValue mark - h.bookValue mark + (write h).bookValue mark :=
  st.sumPositions_hset_of_some _ stored write

theorem Store.bookValue_hset_of_none (fresh : st.hash p = none)
    (write : PositionHash → PositionHash) :
    (st.hset p write).bookValue mark = st.bookValue mark + (write {}).bookValue mark :=
  st.sumPositions_hset_of_none _ fresh write

theorem Fill.pnlClose_eq (h : PositionHash) (entry exit size : ℚ) :
    Fill.pnlClose h.side entry exit size = h.sign * size * (exit - entry) := by
  unfold Fill.pnlClose PositionHash.sign
  split <;> ring

theorem Fill.sign_of_same {fill : Fill} (same : h.side = some fill.newSide) :
    h.sign = fill.order.side.sign := by
  unfold PositionHash.sign
  rw [same]
  cases side : fill.order.side <;> simp [Fill.newSide, side, Side.opens, Side.sign]

theorem Fill.sign_of_opposite {fill : Fill} (opposite : h.side = some fill.newSide.opposite) :
    h.sign = -fill.order.side.sign := by
  unfold PositionHash.sign
  rw [opposite]
  cases side : fill.order.side <;>
    simp [Fill.newSide, side, Side.opens, Side.sign, PositionSide.opposite]

/-- Merging keeps the book value of both parts: the entry price is averaged
by size. -/
theorem Fill.bookValue_mergeHash {fill : Fill} (isOpen : h.status = some .OPEN)
    (same : h.side = some fill.newSide) (sized : 0 < h.size.getD 0) (positive : 0 < fill.fillSize)
    (leverage : Option ℚ) :
    (fill.mergeHash (h.size.getD 0) (h.entryPrice.getD 0) leverage h).bookValue mark =
      h.bookValue mark + fill.order.side.sign * fill.fillSize * (mark - fill.fillPrice) := by
  have nonzero : h.size.getD 0 + fill.fillSize ≠ 0 := (add_pos sized positive).ne'
  have stillOpen :
      (fill.mergeHash (h.size.getD 0) (h.entryPrice.getD 0) leverage h).status = some .OPEN := isOpen
  rw [PositionHash.bookValue_open stillOpen, PositionHash.bookValue_open isOpen,
    ← Fill.sign_of_same same]
  change h.realizedPnl.getD 0 + h.sign * (h.size.getD 0 + fill.fillSize) * (mark -
    (h.entryPrice.getD 0 * h.size.getD 0 + fill.fillPrice * fill.fillSize) /
      (h.size.getD 0 + fill.fillSize)) = _
  field_simp
  ring

theorem Fill.bookValue_openHash (fill : Fill) (size leverage : ℚ) :
    (fill.openHash size leverage h).bookValue mark =
      fill.order.side.sign * size * (mark - fill.fillPrice) := by
  have same : (fill.openHash size leverage h).side = some fill.newSide := rfl
  rw [PositionHash.bookValue_open rfl, Fill.sign_of_same same]
  exact zero_add _

theorem Fill.bookValue_reducedHash {fill : Fill} (isOpen : h.status = some .OPEN)
    (opposite : h.side = some fill.newSide.opposite) (posLeverage : ℚ) :
    (fill.reducedHash (h.size.getD 0 - fill.fillSize) (h.entryPrice.getD 0) posLeverage
        (h.realizedPnl.getD 0 + Fill.pnlClose h.side (h.entryPrice.getD 0) fill.fillPrice
          fill.fillSize) h).bookValue mark =
      h.bookValue mark + fill.order.side.sign * fill.fillSize * (mark - fill.fillPrice) := by
  have sign := Fill.sign_of_opposite opposite
  unfold PositionHash.bookValue
  rw [if_pos isOpen, Fill.pnlClose_eq]
  change h.realizedPnl.getD 0 + h.sign * fill.fillSize * (fill.fillPrice - h.entryPrice.getD 0) +
    (if h.status = some .OPEN then
      h.sign * (h.size.getD 0 - fill.fillSize) * (mark - h.entryPrice.getD 0) else 0) = _
  rw [if_pos isOpen, sign]
  ring

/-- A netted position closed at the fill price is worth what it was worth at
the mark, plus the closed size traded the other way. -/
theorem Fill.bookValue_closedHash {fill : Fill} (isOpen : h.status = some .OPEN)
    (opposite : h.side = some fill.newSide.opposite) :
    (fill.closedHash (h.realizedPnl.getD 0 + Fill.pnlClose h.side (h.entryPrice.getD 0)
        fill.fillPrice (h.size.getD 0)) h).bookValue mark =
      h.bookValue mark + fill.order.side.sign * h.size.getD 0 * (mark - fill.fillPrice) := by
  have sign := Fill.sign_of_opposite opposite
  rw [PositionHash.bookValue_open isOpen, Fill.pnlClose_eq]
  change h.realizedPnl.getD 0 + h.sign * h.size.getD 0 * (fill.fillPrice - h.entryPrice.getD 0) +
    0 = _
  rw [sign]
  ring

theorem CloseArgs.bookValue_fullHash {args : CloseArgs} (isOpen : h.status = some .OPEN)
    (full : args.actualCloseSize (h.size.getD 0) = h.size.getD 0) :
    (args.fullHash h).bookValue mark =
      h.bookValue mark + -(h.sign * (args.result h).closedSize) * (mark - args.exitPrice) := by
  have closed : (args.fullHash h).status ≠ some .OPEN := by
    unfold fullHash fullCloseStatus
    dsimp only
    split <;> decide
  rw [PositionHash.bookValue_open isOpen, PositionHash.bookValue, if_neg closed]
  change h.realizedPnl.getD 0 + Fill.pnlClose h.side (h.entryPrice.getD 0) args.exitPrice
    (args.actualCloseSize (h.size.getD 0)) + 0 = _ +
      -(h.sign * args.actualCloseSize (h.size.getD 0)) * _
  rw [Fill.pnlClose_eq, full]
  ring

theorem CloseArgs.bookValue_partialHash {args : CloseArgs} (isOpen : h.status = some .OPEN) :
    (args.partialHash h).bookValue mark =
      h.bookValue mark + -(h.sign * (args.result h).closedSize) * (mark - args.exitPrice) := by
  have stillOpen : (args.partialHash h).status = some .OPEN := isOpen
  rw [PositionHash.bookValue_open stillOpen, PositionHash.bookValue_open isOpen]
  change h.realizedPnl.getD 0 + Fill.pnlClose h.side (h.entryPrice.getD 0) args.exitPrice
      (args.actualCloseSize (h.size.getD 0)) + h.sign * (h.size.getD 0 -
        args.actualCloseSize (h.size.getD 0)) * (mark - h.entryPrice.getD 0) = _ +
      -(h.sign * args.actualCloseSize (h.size.getD 0)) * _
  rw [Fill.pnlClose_eq]
  ring

end Values

/-- Positions are hashes only, and open ones have a positive size. -/
structure Store.Sized (st : Store) : Prop where
  hashesOnly : st.HashesOnly
  sized : ∀ p h, st.hash p = some h → h.status = some .OPEN → 0 < h.size.getD 0

theorem Store.Sized.hset {st : Store} {p : PositionId} {write : PositionHash → PositionHash}
    (sound : st.Sized) (written : (write ((st.hash p).getD {})).status = some .OPEN →
      0 < (write ((st.hash p).getD {})).size.getD 0) : (st.hset p write).Sized where
  hashesOnly := sound.hashesOnly
  sized q h stored isOpen := by
    rw [Store.hash_hset] at stored
    split at stored
    next => cases stored; exact written isOpen
    next => exact sound.sized q h stored isOpen

theorem Store.SameButIndex.sized {before after : Store} (same : before.SameButIndex after)
    (sound : before.Sized) : after.Sized := by
  rw [same]
  exact ⟨sound.hashesOnly, sound.sized⟩

theorem Store.SameButIndex.bookValue_eq {before after : Store} (same : before.SameButIndex after)
    (mark : ℚ) : after.bookValue mark = before.bookValue mark := by
  rw [same]
  rfl

/-- `after` is sound and worth what `before` is worth plus one trade. -/
structure Trades (before after : Store) (quantity price : ℚ) : Prop where
  sized : after.Sized
  value : ∀ mark, after.bookValue mark = before.bookValue mark + quantity * (mark - price)

namespace Fill
variable {st after : Store} {fill : Fill} {p : PositionId} {h : PositionHash} {result : FillResult}

theorem addTo_trades (sound : st.Sized) (positive : 0 < fill.fillSize)
    (stored : st.hash p = some h) (isOpen : h.status = some .OPEN)
    (same : h.side = some fill.newSide) (done : addTo st fill p h = .ok (after, result)) :
    Trades st after (fill.order.side.sign * fill.fillSize) fill.fillPrice := by
  have frame : (merged st fill p h).SameButIndex after := by
    simpa only [done, storeLeft] using addTo_sameButIndex st fill p h
  have sized := sound.sized p h stored isOpen
  constructor
  · refine frame.sized (sound.hset fun _ => ?_)
    rw [stored]
    exact add_pos sized positive
  · intro mark
    rw [frame.bookValue_eq, merged, Store.bookValue_hset_of_some stored,
      bookValue_mergeHash isOpen same sized positive]
    ring

theorem openPosition_trades {size leverage : ℚ} (sound : st.Sized) (positive : 0 < size)
    (fresh : st.hash fill.positionUuid = none)
    (done : openPosition st fill size leverage = .ok after) :
    Trades st after (fill.order.side.sign * size) fill.fillPrice := by
  have frame : (opened st fill size leverage).SameButIndex after := by
    simpa only [done, storeLeft, id] using openPosition_sameButIndex st fill size leverage
  constructor
  · apply frame.sized
    have written : (st.hset fill.positionUuid (fill.openHash size leverage)).Sized :=
      sound.hset fun _ => positive
    exact ⟨written.hashesOnly, written.sized⟩
  · intro mark
    rw [frame.bookValue_eq]
    change (st.hset fill.positionUuid (fill.openHash size leverage)).bookValue mark = _
    rw [Store.bookValue_hset_of_none fresh, bookValue_openHash]

theorem closeNetted_trades (sound : st.Sized) (stored : st.hash p = some h)
    (isOpen : h.status = some .OPEN) (opposite : h.side = some fill.newSide.opposite) :
    Trades st (closeNetted st fill p (h.realizedPnl.getD 0 +
        pnlClose h.side (h.entryPrice.getD 0) fill.fillPrice (h.size.getD 0)))
      (fill.order.side.sign * h.size.getD 0) fill.fillPrice := by
  constructor
  · have written : (st.hset p (fill.closedHash (h.realizedPnl.getD 0 + pnlClose h.side
        (h.entryPrice.getD 0) fill.fillPrice (h.size.getD 0)))).Sized :=
      sound.hset fun isOpen => by cases isOpen
    exact ⟨written.hashesOnly, written.sized⟩
  · intro mark
    change (st.hset p (fill.closedHash (h.realizedPnl.getD 0 + pnlClose h.side
      (h.entryPrice.getD 0) fill.fillPrice (h.size.getD 0)))).bookValue mark = _
    rw [Store.bookValue_hset_of_some stored, bookValue_closedHash isOpen opposite]
    ring

theorem netAgainst_trades (sound : st.Sized) (fresh : st.hash fill.positionUuid = none)
    (stored : st.hash p = some h) (isOpen : h.status = some .OPEN)
    (opposite : h.side = some fill.newSide.opposite)
    (netted : netAgainst st fill p h = .ok (after, result)) :
    Trades st after (fill.order.side.sign * fill.fillSize) fill.fillPrice := by
  unfold netAgainst at netted
  dsimp only at netted
  split_ifs at netted with remains exact
  · cases netted
    have smaller : min (h.size.getD 0) fill.fillSize = fill.fillSize := min_eq_right (by linarith)
    rw [smaller]
    constructor
    · have written : (st.hset p (fill.reducedHash (h.size.getD 0 - fill.fillSize)
          (h.entryPrice.getD 0) (fill.posLevOrFill h.leverage .absent) (h.realizedPnl.getD 0 +
            pnlClose h.side (h.entryPrice.getD 0) fill.fillPrice fill.fillSize))).Sized :=
        sound.hset fun _ => remains
      exact ⟨written.hashesOnly, written.sized⟩
    · intro mark
      rw [(Store.sameButIndex_zadd ..).bookValue_eq, Store.bookValue_hset_of_some stored,
        bookValue_reducedHash isOpen opposite]
      ring
  · cases netted
    have covered : h.size.getD 0 = fill.fillSize := sub_eq_zero.mp exact
    have smaller : min (h.size.getD 0) fill.fillSize = h.size.getD 0 := min_eq_left covered.le
    rw [smaller, ← covered]
    exact closeNetted_trades sound stored isOpen opposite
  · have exceeds : 0 < -(h.size.getD 0 - fill.fillSize) :=
      neg_pos.mpr (lt_of_le_of_ne (not_lt.mp remains) exact)
    have smaller : min (h.size.getD 0) fill.fillSize = h.size.getD 0 := min_eq_left (by linarith)
    rw [smaller] at netted
    have closed := closeNetted_trades sound stored isOpen opposite
    have stillFresh : (closeNetted st fill p (h.realizedPnl.getD 0 + pnlClose h.side
        (h.entryPrice.getD 0) fill.fillPrice (h.size.getD 0))).hash fill.positionUuid = none := by
      have differ : fill.positionUuid ≠ p := by
        rintro same
        rw [same, stored] at fresh
        cases fresh
      simp only [closeNetted, Store.hash_unindex, Store.hash_srem]
      rw [Store.hash_hset_ne _ _ _ _ differ, fresh]
    split at netted
    next => cases netted
    next opened =>
      cases netted
      have residual := openPosition_trades closed.sized exceeds stillFresh opened
      refine ⟨residual.sized, fun mark => ?_⟩
      rw [residual.value, closed.value]
      ring

theorem applyToPositions_trades {existing old : List PositionId} (sound : st.Sized)
    (positive : 0 < fill.fillSize) (fresh : st.hash fill.positionUuid = none)
    (applied : applyToPositions st fill existing old = .ok (after, result)) :
    Trades st after (fill.order.side.sign * fill.fillSize) fill.fillPrice := by
  rw [applyToPositions_eq sound.hashesOnly] at applied
  split at applied
  next p h merges =>
    obtain ⟨_, stored, isOpen, same⟩ := Order.target_merge merges
    exact addTo_trades sound positive stored isOpen.2 same applied
  next p h nets =>
    obtain ⟨_, stored, isOpen, opposite⟩ := Order.target_net nets
    exact netAgainst_trades sound fresh stored isOpen.2 opposite applied
  next =>
    unfold create at applied
    split at applied
    next => cases applied
    next done =>
      cases applied
      exact openPosition_trades sound positive fresh done

end Fill

theorem atomicFillOrder_trades {st after : Store} {args : FillArgs} {existing old : List PositionId}
    {result : FillResult} {order : Order} (sound : st.Sized) (positive : 0 < args.fillSize)
    (fresh : st.hash args.positionUuid = none) (stored : st.orders args.orderId = some order)
    (filled : atomicFillOrder st args existing old = .success after result) :
    Trades st after (order.side.sign * args.fillSize) args.fillPrice := by
  obtain ⟨_, el, accepted, applied⟩ := atomicFillOrder_success filled
  cases Option.some.inj (stored.symm.trans accepted.stored)
  have marked : (st.markFilled args order).Sized := ⟨sound.hashesOnly, sound.sized⟩
  have unused : (st.markFilled args order).hash
      (Fill.ofArgs args order el accepted.leverage_pos).positionUuid = none := fresh
  have traded := Fill.applyToPositions_trades marked positive unused applied
  exact ⟨traded.sized, traded.value⟩

theorem atomicClosePosition_trades {st after : Store} {args : CloseArgs} {result : CloseResult}
    {h : PositionHash} (sound : st.Sized)
    (stored : st.hash args.positionId = some h)
    (closed : atomicClosePosition st args = .success after result) :
    Trades st after (-(h.sign * result.closedSize)) args.exitPrice := by
  obtain ⟨g, read, isOpen, rfl, ⟨full, symbol, _, rfl⟩ | ⟨part, rfl⟩⟩ :=
    atomicClosePosition_success closed
  · cases Option.some.inj (stored.symm.trans read)
    have written : (st.hset args.positionId args.fullHash).Sized := by
      apply sound.hset
      intro isOpen
      unfold CloseArgs.fullHash CloseArgs.fullCloseStatus at isOpen
      dsimp only at isOpen
      split at isOpen <;> cases isOpen
    refine ⟨⟨written.hashesOnly, written.sized⟩, fun mark => ?_⟩
    rw [(Store.sameButIndex_unindex ..).bookValue_eq, Store.bookValue_hset_of_some read,
      CloseArgs.bookValue_fullHash isOpen full]
    ring
  · cases Option.some.inj (stored.symm.trans read)
    refine ⟨sound.hset fun _ => ?_, fun mark => ?_⟩
    · rw [read]
      exact sub_pos.mpr part
    · rw [Store.bookValue_hset_of_some read, CloseArgs.bookValue_partialHash isOpen]
      ring

/-- The accounting identity: the store is worth its trades at every mark. -/
structure Book.Balanced (book : Book) : Prop where
  sized : book.store.Sized
  value : ∀ mark, book.store.bookValue mark = (book.trades.map (·.value mark)).sum

theorem Book.Balanced.trade {book : Book} {after : Store} {quantity price : ℚ}
    (balanced : book.Balanced) (traded : Trades book.store after quantity price) :
    Book.Balanced ⟨after, book.trades ++ [⟨quantity, price⟩]⟩ := by
  refine ⟨traded.sized, fun mark => ?_⟩
  rw [traded.value, balanced.value]
  simp [Trade.value]

theorem Book.step_balanced {book after : Book} {action : BookAction}
    (taken : book.step action = some after) (balanced : book.Balanced) : after.Balanced := by
  cases action with
  | order o order =>
    cases taken
    exact ⟨⟨balanced.sized.hashesOnly, balanced.sized.sized⟩, balanced.value⟩
  | fill args existing old =>
    simp only [Book.step] at taken
    split at taken
    next => cases taken
    next order stored =>
      split_ifs at taken with guard
      split at taken
      next filled =>
        cases taken
        exact balanced.trade
          (atomicFillOrder_trades balanced.sized guard.2.2.2 guard.2.2.1 stored filled)
      next => cases taken
  | close args =>
    simp only [Book.step] at taken
    split at taken
    next => cases taken
    next h stored =>
      split at taken
      next closed =>
        cases taken
        exact balanced.trade (atomicClosePosition_trades balanced.sized stored closed)
      next => cases taken

/-- From a store without positions, through any sequence of successful fills
(netting or hedging) and closes, realised PnL plus the open positions' PnL at
any mark price is the value of the signed trades at that mark. -/
theorem bookValue_eq_trades {start : Store} (noHashes : start.positions = ∅)
    (noOld : start.HashesOnly) {actions : List BookAction} {book : Book}
    (run : Run Book.step ⟨start, []⟩ actions book) (mark : ℚ) :
    book.store.bookValue mark = (book.trades.map (·.value mark)).sum := by
  have initially : Book.Balanced ⟨start, []⟩ := by
    refine ⟨⟨noOld, fun p h stored => ?_⟩, fun mark => ?_⟩
    · simp only [Store.hash, noHashes, AList.lookup_empty] at stored
      cases stored
    · simp only [Store.bookValue, Store.sumPositions, noHashes, total_empty, List.map_nil, List.sum_nil]
  exact (run.invariant initially fun _ _ _ _ taken => Book.step_balanced taken).value mark

/-- A netting account buys, sells through its position, and closes half of
what the flip left. -/
def flipActions : List BookAction :=
  [.order 1 { id := 1, userId := 7, symbol := "EURUSD", side := .BUY, orderType := .MARKET
              size := 2, stopLoss := .num 9, takeProfit := .num 20
              accountType := some "netting" },
   .fill ⟨1, 10, 2, 1000, .uuid 1, some 100⟩ [] [],
   .order 2 { id := 2, userId := 7, symbol := "EURUSD", side := .SELL, orderType := .MARKET
              size := 3, stopLoss := .num 20, takeProfit := .num 9
              accountType := some " Netting" },
   .fill ⟨2, 12, 3, 2000, .uuid 2, some 50⟩ [.uuid 1] [],
   .close { positionId := .uuid 2, exitPrice := 11, closeSize := 1/2, timestampMs := 3000 }]

theorem bookValue_flipActions : ∃ book, Run Book.step ⟨.empty, []⟩ flipActions book ∧
    book.trades = [⟨2, 10⟩, ⟨-3, 12⟩, ⟨1/2, 11⟩] ∧
    book.store.bookValue 15 = (book.trades.map (·.value 15)).sum := by
  have evaluates : (runGuarded Book.step (fun _ _ => True) ⟨.empty, []⟩ flipActions).map (·.trades) =
      some [⟨2, 10⟩, ⟨-3, 12⟩, ⟨1/2, 11⟩] := by decide +kernel
  obtain ⟨book, reached, trades⟩ := Option.map_eq_some_iff.mp evaluates
  have run : Run Book.step ⟨.empty, []⟩ flipActions book := .of_eval reached
  exact ⟨book, run, trades, bookValue_eq_trades rfl (fun _ => rfl) run 15⟩

end TradingPlatform
