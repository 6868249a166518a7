import TradingPlatform.Engine.CloseReports
import TradingPlatform.Mirror.PositionMirror
import TradingPlatform.Summary.AccountSummary
import TradingPlatform.Wallet.Charges

namespace TradingPlatform

/-- A way of closing a position in full. -/
inductive FullClose
  | command (userId : UserId) (args : CloseArgs)
  | trigger (p : PositionId) (exitPrice : ℚ) (timestampMs : Millis)

namespace FullClose

def args : FullClose → CloseArgs
  | .command _ args => args
  | .trigger p exitPrice timestampMs =>
    { positionId := p, exitPrice := exitPrice, closeSize := 0, timestampMs := timestampMs }

def event (st : Store) : FullClose → Option PositionClosedEvent
  | .command userId args => closeEvent st userId args
  | .trigger p exitPrice timestampMs => triggerEvent st p exitPrice timestampMs

/-- The store after the close. -/
def store (st : Store) (close : FullClose) : Store := (atomicClosePosition st close.args).store

/-- PnL of the whole position at the exit price, in the quote currency. -/
def pnl (close : FullClose) (h : PositionHash) : ℚ :=
  Fill.pnlClose h.side (h.entryPrice.getD 0) close.args.exitPrice (h.size.getD 0)

/-- What is reported for the PnL: a trigger adds all that was realised before. -/
def reportedPnl (close : FullClose) (h : PositionHash) : ℚ :=
  match close with
  | .command _ _ => close.pnl h
  | .trigger _ _ _ => h.realizedPnl.getD 0 + close.pnl h

end FullClose

/-- The side of the quote that a position is closed at. -/
def PositionSide.exitPrice (price : ℚ × ℚ) : PositionSide → ℚ
  | .LONG => price.1
  | .SHORT => price.2

namespace SummaryInput
variable (inp : SummaryInput)

/-- The bid and ask that an open hash is valued at, if there are any. -/
def markPrice (h : PositionHash) : Option (ℚ × ℚ) :=
  (inp.priceOverrides.bind fun overrides => overrides (h.symbol.getD "", h.groupId.getD "")).orElse
    fun _ => inp.getPriceFromRedis (h.symbol.getD "") (h.groupId.getD "")

/-- The unrealised PnL of a hash in USD, as far as the summary counts it. -/
def hashUnrealizedUsd (h : PositionHash) : ℚ :=
  match inp.symbolMap (normalizeSymbol (h.symbol.getD "")) with
  | none => 0
  | some quote =>
    if quoteCurrencySupported inp.rates quote ∧ h.status = some .OPEN then
      (inp.unrealizedQuote h).1 * usdFactor inp.rates quote
    else 0

/-- What one id of the listing adds to the unrealised PnL. -/
def unrealizedUsd : PositionId → ℚ
  | .legacy _ => 0
  | .uuid n => inp.hashUnrealizedUsd ((inp.store.hash (.uuid n)).getD {})

variable {inp}

theorem unrealizedQuote_of_mark {h : PositionHash} {price : ℚ × ℚ} {side : PositionSide}
    (marked : inp.markPrice h = some price) (hasSide : h.side = some side) :
    (inp.unrealizedQuote h).1 = Fill.pnlClose h.side (h.avgPrice.getD 0)
      (side.exitPrice price) (h.size.getD 0) := by
  unfold markPrice at marked
  unfold unrealizedQuote
  rw [hasSide]
  cases overridden : inp.priceOverrides with
  | none =>
    rw [overridden] at marked
    have fromRedis : inp.getPriceFromRedis (h.symbol.getD "") (h.groupId.getD "") = some price :=
      marked
    cases side <;> simp only [fromRedis] <;> rfl
  | some overrides =>
    rw [overridden] at marked
    cases override : overrides (h.symbol.getD "", h.groupId.getD "") with
    | some other =>
      rw [Option.bind_some, override] at marked
      cases Option.some.inj marked
      cases side <;> simp only [override] <;> rfl
    | none =>
      rw [Option.bind_some, override] at marked
      have fromRedis :
          inp.getPriceFromRedis (h.symbol.getD "") (h.groupId.getD "") = some price := marked
      cases side <;> simp only [override, fromRedis] <;> rfl

theorem chargeMargin_unrealizedPnl {totals charged : RedisTotals} {quote : String}
    {h : PositionHash} (taken : inp.chargeMargin totals quote h = some charged) :
    charged.unrealizedPnl = totals.unrealizedPnl := by
  unfold chargeMargin at taken
  split at taken
  next => cases taken; rfl
  next => split at taken <;> cases taken; rfl

theorem exists_chargeMargin {quote : String} (supported : quoteCurrencySupported inp.rates quote)
    (totals : RedisTotals) (h : PositionHash) :
    ∃ charged, inp.chargeMargin totals quote h = some charged := by
  unfold chargeMargin
  split
  next => exact ⟨_, rfl⟩
  next =>
    rw [convertWithRates_usd supported]
    exact ⟨_, rfl⟩

theorem redisStep_unrealizedPnl (totals : RedisTotals) (p : PositionId) :
    (inp.redisStep totals p).unrealizedPnl = totals.unrealizedPnl + inp.unrealizedUsd p := by
  cases p with
  | legacy n => exact (add_zero _).symm
  | uuid n =>
    unfold redisStep unrealizedUsd
    dsimp only
    generalize (inp.store.hash (.uuid n)).getD {} = h
    unfold hashUnrealizedUsd
    cases inp.symbolMap (normalizeSymbol (h.symbol.getD "")) with
    | none => exact (add_zero totals.unrealizedPnl).symm
    | some quote =>
      dsimp only
      by_cases supported : quoteCurrencySupported inp.rates quote
      · rw [if_pos supported, convertWithRates_usd supported]
        dsimp only
        by_cases isOpen : h.status = some .OPEN
        · obtain ⟨charged, taken⟩ := exists_chargeMargin supported totals h
          rw [if_pos isOpen, if_pos ⟨supported, isOpen⟩, taken]
          dsimp only
          rw [convertWithRates_usd supported]
          dsimp only
          rw [chargeMargin_unrealizedPnl taken]
        · rw [if_neg isOpen, if_neg fun both => isOpen both.2, add_zero]
      · rw [if_neg supported, if_neg fun both => supported both.1, add_zero]

theorem foldl_redisStep_unrealizedPnl (ids : List PositionId) (totals : RedisTotals) :
    (ids.foldl inp.redisStep totals).unrealizedPnl =
      totals.unrealizedPnl + (ids.map inp.unrealizedUsd).sum := by
  induction ids generalizing totals with
  | nil => exact (add_zero _).symm
  | cons p rest ih =>
    rw [List.foldl_cons, ih, redisStep_unrealizedPnl, List.map_cons, List.sum_cons, add_assoc]

/-- The equity of a summary whose positions come from Redis. -/
theorem equity_eq : (inp.computeAccountSummaryInner true).equity =
    inp.availableBalance + inp.lockedBalance + inp.bonusBalance +
      ((inp.ids.map inp.unrealizedUsd).sum - inp.sumOpenAccumulatedSwapUsd) := by
  have folded := inp.foldl_redisStep_unrealizedPnl inp.ids {}
  unfold computeAccountSummaryInner fetchPositionAggregatesFromRedis
  dsimp only [if_true]
  rw [if_pos rfl]
  dsimp only
  rw [folded, zero_add]

/-- The input with the balances of this wallet. -/
def withWallet (inp : SummaryInput) (w : Wallet) : SummaryInput :=
  { inp with
    availableBalance := w.availableBalance, lockedBalance := w.lockedBalance
    bonusBalance := w.bonusBalance }

end SummaryInput

/-- A full close of an open position at the price it is valued at, and the
event of it as the wallet side applies it. The rows of the user are `earlier`,
the position's `dbRow` and `later`; `row` is the same row when the event is
applied, and `settled` tells whether a swap settlement exists for the position. -/
structure CloseAtMark where
  inp : SummaryInput
  uuid : ℕ
  hash : PositionHash
  quote : String
  price : ℚ × ℚ
  side : PositionSide
  close : FullClose
  wallet : Wallet
  earlier : List DbPosition
  dbRow : DbPosition
  later : List DbPosition
  row : PositionRow
  settled : Bool
  event : PositionClosedEvent
  freed : Wallet
  absorbed : Option ℚ
  stored : inp.store.hash (.uuid uuid) = some hash
  isOpen : hash.status = some .OPEN
  complete : hash.Complete
  hasSymbol : ∃ symbol, hash.symbol = some symbol
  listing : inp.ids.Nodup
  listed : .uuid uuid ∈ inp.ids
  quoted : inp.symbolMap (normalizeSymbol (hash.symbol.getD "")) = some quote
  supported : quoteCurrencySupported inp.rates quote
  marked : inp.markPrice hash = some price
  hasSide : hash.side = some side
  atMark : close.args.exitPrice = side.exitPrice price
  ofPosition : close.args.positionId = .uuid uuid
  whole : close.args.closeSize = 0 ∨ close.args.closeSize = hash.size.getD 0
  rows : inp.rows = earlier ++ dbRow :: later
  rowOpen : dbRow.status = .OPEN
  accrued : row.accumulatedSwapUsd = dbRow.accumulatedSwapUsd
  reported : close.event inp.store = some event
  owner : row.userId = event.userId
  applied : wallet.releaseAndApplyPnl (some row.bonusWalletReleased) event.margins
    event.realizedPnl = some (freed, absorbed)
  covered : row.accumulatedSwapUsd ≤ freed.availableBalance

namespace CloseAtMark
variable (c : CloseAtMark)

def before : SummaryInput := c.inp.withWallet c.wallet

/-- The wallet after the event has been applied. -/
def walletAfter : Wallet :=
  (c.freed.settleSwapOnClosedPosition c.settled c.event.userId (some c.row)).1

def after : SummaryInput :=
  SummaryInput.withWallet { c.inp with
    store := c.close.store c.inp.store
    rows := c.earlier ++ { c.dbRow with status := c.row.status } :: c.later } c.walletAfter

def equityBefore : ℚ := (c.before.computeAccountSummaryInner true).equity

def equityAfter : ℚ := (c.after.computeAccountSummaryInner true).equity

/-- What the wallet receives for the PnL, and the swap that is dropped because
one was settled before, make up the PnL in USD. -/
def ReceivesUsd : Prop :=
  (if c.row.bonusWalletReleased then 0 else c.close.reportedPnl c.hash) +
      (if c.settled ∧ c.row.status ≠ .OPEN then c.row.accumulatedSwapUsd else 0) =
    c.close.pnl c.hash * usdFactor c.inp.rates c.quote

instance : Decidable c.ReceivesUsd := inferInstanceAs (Decidable (_ = _))

theorem closes : ∃ symbol, atomicClosePosition c.inp.store c.close.args =
    .success ((c.inp.store.hset c.close.args.positionId c.close.args.fullHash).unindex symbol
      c.close.args.positionId) (c.close.args.result c.hash) := by
  obtain ⟨symbol, hasSymbol⟩ := c.hasSymbol
  have stored : c.inp.store.hash c.close.args.positionId = some c.hash := by
    rw [c.ofPosition]
    exact c.stored
  exact ⟨symbol, (atomicClosePosition_whole stored c.isOpen hasSymbol c.whole).2⟩

theorem hash_store (q : PositionId) : (c.close.store c.inp.store).hash q =
    if q = .uuid c.uuid then some (c.close.args.fullHash c.hash) else c.inp.store.hash q := by
  obtain ⟨symbol, closes⟩ := c.closes
  unfold FullClose.store
  rw [closes, ScriptOutcome.store, Store.hash_unindex, Store.hash_hset, c.ofPosition, c.stored,
    Option.getD_some]

theorem realizedPnl_event : c.event.realizedPnl = c.close.reportedPnl c.hash := by
  obtain ⟨symbol, hasSymbol⟩ := c.hasSymbol
  obtain ⟨u, hasUser⟩ := c.complete.userId
  have reported := c.reported
  have position := c.ofPosition
  have whole := c.whole
  unfold FullClose.reportedPnl FullClose.pnl
  generalize c.close = close at reported position whole ⊢
  cases close with
  | command userId args =>
    have stored : c.inp.store.hash args.positionId = some c.hash := by
      rw [show args.positionId = .uuid c.uuid from position]
      exact c.stored
    change closeEvent c.inp.store userId args = some c.event at reported
    rw [closeEvent_whole stored c.isOpen hasSymbol whole] at reported
    rw [← Option.some.inj reported]
    change args.pnl c.hash = _
    rw [CloseArgs.pnl, (atomicClosePosition_whole stored c.isOpen hasSymbol whole).1]
    rfl
  | trigger p exitPrice timestampMs =>
    have stored : c.inp.store.hash p = some c.hash := by
      rw [show p = .uuid c.uuid from position]
      exact c.stored
    change triggerEvent c.inp.store p exitPrice timestampMs = some c.event at reported
    rw [triggerEvent_whole stored c.isOpen hasSymbol hasUser] at reported
    rw [← Option.some.inj reported]
    rfl

/-- The position's share of the unrealised PnL is gone, the others' stays. -/
theorem unrealizedUsd_after (q : PositionId) : c.after.unrealizedUsd q =
    if q = .uuid c.uuid then 0 else c.before.unrealizedUsd q := by
  cases q with
  | legacy n => rfl
  | uuid n =>
    change c.inp.hashUnrealizedUsd (((c.close.store c.inp.store).hash (.uuid n)).getD {}) =
      if _ then 0 else c.inp.hashUnrealizedUsd ((c.inp.store.hash (.uuid n)).getD {})
    rw [c.hash_store]
    split_ifs with same
    · have shut : (c.close.args.fullHash c.hash).status ≠ some .OPEN := by
        unfold CloseArgs.fullHash CloseArgs.fullCloseStatus
        dsimp only
        split <;> decide
      rw [Option.getD_some, SummaryInput.hashUnrealizedUsd]
      split
      next => rfl
      next => exact if_neg fun both => shut both.2
    · rfl

theorem unrealizedUsd_before : c.before.unrealizedUsd (.uuid c.uuid) =
    c.close.pnl c.hash * usdFactor c.inp.rates c.quote := by
  obtain ⟨entry, hasEntry, hasAvg⟩ := c.complete.entryPrice
  have value := SummaryInput.unrealizedQuote_of_mark c.marked c.hasSide
  change c.inp.hashUnrealizedUsd ((c.inp.store.hash (.uuid c.uuid)).getD {}) = _
  rw [c.stored, Option.getD_some, SummaryInput.hashUnrealizedUsd, c.quoted]
  dsimp only
  rw [if_pos ⟨c.supported, c.isOpen⟩, value, FullClose.pnl, c.atMark, hasEntry, hasAvg]

theorem sum_unrealizedUsd_after : (c.after.ids.map c.after.unrealizedUsd).sum =
    (c.before.ids.map c.before.unrealizedUsd).sum -
      c.close.pnl c.hash * usdFactor c.inp.rates c.quote := by
  have ids : c.after.ids = c.inp.ids ∧ c.before.ids = c.inp.ids := ⟨rfl, rfl⟩
  have others : (c.inp.ids.erase (.uuid c.uuid)).map c.after.unrealizedUsd =
      (c.inp.ids.erase (.uuid c.uuid)).map c.before.unrealizedUsd := by
    apply List.map_congr_left
    intro q member
    rw [unrealizedUsd_after, if_neg (c.listing.mem_erase_iff.mp member).1]
  rw [ids.1, ids.2, ← List.sum_map_erase _ c.listed, ← List.sum_map_erase _ c.listed, others,
    unrealizedUsd_after, if_pos rfl, unrealizedUsd_before]
  ring

theorem openSwap_after : c.after.sumOpenAccumulatedSwapUsd = c.before.sumOpenAccumulatedSwapUsd -
    if c.row.status = .OPEN then 0 else c.row.accumulatedSwapUsd := by
  have rows : c.before.rows = c.earlier ++ c.dbRow :: c.later := c.rows
  have rowsAfter : c.after.rows = c.earlier ++ { c.dbRow with status := c.row.status } :: c.later :=
    rfl
  have counted : SummaryInput.isOpen c.dbRow.status = true := decide_eq_true c.rowOpen
  unfold SummaryInput.sumOpenAccumulatedSwapUsd
  rw [rows, rowsAfter, c.accrued]
  simp only [List.filter_append, List.filter_cons, counted, if_true, List.map_append, List.map_cons,
    List.sum_append, List.sum_cons]
  by_cases stillOpen : c.row.status = .OPEN
  · have stays : SummaryInput.isOpen c.row.status = true := decide_eq_true stillOpen
    rw [if_pos stillOpen, sub_zero]
    simp only [stays, if_true, List.map_cons, List.sum_cons]
  · have leaves : SummaryInput.isOpen c.row.status = false := decide_eq_false stillOpen
    rw [if_neg stillOpen]
    simp only [leaves, Bool.false_eq_true, if_false]
    ring

theorem walletAfter_total : c.walletAfter.total = c.wallet.total +
    (if c.row.bonusWalletReleased then 0 else c.close.reportedPnl c.hash) -
      if c.settled ∨ c.row.status = .OPEN then 0 else c.row.accumulatedSwapUsd := by
  unfold walletAfter
  rw [Wallet.settleSwapOnClosedPosition_total c.settled c.owner c.covered,
    Wallet.releaseAndApplyPnl_total c.applied, c.realizedPnl_event]
  cases c.row.bonusWalletReleased <;> simp

theorem equityAfter_eq : c.equityAfter = c.equityBefore +
    ((if c.row.bonusWalletReleased then 0 else c.close.reportedPnl c.hash) +
      (if c.settled ∧ c.row.status ≠ .OPEN then c.row.accumulatedSwapUsd else 0) -
        c.close.pnl c.hash * usdFactor c.inp.rates c.quote) := by
  have total : c.after.availableBalance + c.after.lockedBalance + c.after.bonusBalance =
    c.walletAfter.total := rfl
  have totalBefore : c.before.availableBalance + c.before.lockedBalance + c.before.bonusBalance =
    c.wallet.total := rfl
  unfold equityAfter equityBefore
  rw [SummaryInput.equity_eq, SummaryInput.equity_eq, total, totalBefore, c.walletAfter_total,
    c.sum_unrealizedUsd_after, c.openSwap_after]
  by_cases stillOpen : c.row.status = .OPEN
  · simp only [stillOpen, or_true, if_true, ne_eq, not_true, and_false, if_false]
    ring
  · cases c.settled <;> simp only [stillOpen, Bool.false_eq_true, or_false, if_false, ne_eq,
      not_false_eq_true, and_true, if_true] <;> ring

/-- Closing at the mark keeps the equity exactly when the wallet receives the
PnL in USD. -/
theorem equity_kept_iff : c.equityAfter = c.equityBefore ↔ c.ReceivesUsd := by
  rw [c.equityAfter_eq, add_eq_left, sub_eq_zero]
  rfl

end CloseAtMark

/-- A long of 2 gold at 150 with a margin of 10 in cash. -/
def goldLong : PositionHash :=
  { userId := some 7, symbol := some "GOLD", groupId := some "g", side := some .LONG
    size := some 2, entryPrice := some 150, avgPrice := some 150, leverage := some 30
    margin := some 10, marginFromCash := some 10, marginFromBonus := some 0
    realizedPnl := some 0, status := some .OPEN }

theorem complete_goldLong : goldLong.Complete :=
  ⟨⟨_, rfl⟩, ⟨_, rfl⟩, ⟨_, rfl⟩, ⟨_, rfl, rfl⟩, ⟨_, rfl, by decide +kernel⟩, ⟨_, rfl⟩, ⟨_, rfl⟩,
    ⟨_, rfl⟩⟩

def goldRow : DbPosition :=
  { uuid := 1, symbolId := 1, side := .LONG, size := 2, marginUsed := 10, pnl := 6
    accumulatedSwapUsd := 1, status := .OPEN }

/-- Gold quoted in a currency, at 153 to 154. -/
def goldInput (quote : String) : SummaryInput where
  mode := .hedged
  rates := fun code => if code = "USD" then some 1 else if code = "JPY" then some 150 else none
  symbols := (∅ : FiniteTable SymbolId SymbolRow).insert 1 ⟨"GOLD", quote⟩
  store := Store.empty.hset (.uuid 1) fun _ => goldLong
  ids := [.uuid 1]
  prices := fun key => if key = "prices:GOLD:g" then some (153, 154) else none
  rows := [goldRow]

def goldCloseArgs : CloseArgs :=
  { positionId := .uuid 1, exitPrice := 153, closeSize := 0, timestampMs := 1000 }

theorem goldEvent (quote : String) : closeEvent (goldInput quote).store 7 goldCloseArgs =
    some (closedEventOfReply 7 (goldCloseArgs.result goldLong)) := by
  have stored : (goldInput quote).store.hash goldCloseArgs.positionId = some goldLong :=
    Store.hash_hset_self ..
  exact closeEvent_whole stored rfl rfl (.inl rfl)

/-- The position closed by a command, with a swap of 1 to pay. -/
def goldClose (quote : String)
    (quoted : (goldInput quote).symbolMap (normalizeSymbol "GOLD") = some quote)
    (supported : quoteCurrencySupported (goldInput quote).rates quote) : CloseAtMark where
  inp := goldInput quote
  uuid := 1
  hash := goldLong
  quote := quote
  price := (153, 154)
  side := .LONG
  close := .command 7 goldCloseArgs
  wallet := .cash 100 10
  earlier := []
  dbRow := goldRow
  later := []
  row :=
    { userId := 7, symbol := "GOLD", side := .LONG, size := 0, entryPrice := 150, markPrice := 153
      leverage := 30, marginUsed := 0, liquidationPrice := 0, pnl := 6, pnlPercent := 0
      status := .CLOSED, marginFromCash := 10, marginFromBonus := 0, accumulatedSwapUsd := 1 }
  settled := false
  event := closedEventOfReply 7 (goldCloseArgs.result goldLong)
  freed := .cash 116 0
  absorbed := some 0
  stored := Store.hash_hset_self ..
  isOpen := rfl
  complete := complete_goldLong
  hasSymbol := ⟨_, rfl⟩
  listing := List.nodup_singleton _
  listed := List.mem_singleton_self _
  quoted := quoted
  supported := supported
  marked := (by decide +kernel : (goldInput "USD").markPrice goldLong = some (153, 154))
  hasSide := rfl
  atMark := rfl
  ofPosition := rfl
  whole := .inl rfl
  rows := rfl
  rowOpen := rfl
  accrued := rfl
  reported := goldEvent quote
  owner := rfl
  applied := by decide +kernel
  covered := by decide +kernel

/-- A PnL of 6 yen is credited as 6 dollars. -/
theorem CloseAtMark.not_equity_kept_yen : ∃ c : CloseAtMark, c.quote = "JPY" ∧
    c.equityAfter ≠ c.equityBefore := by
  refine ⟨goldClose "JPY" (by decide +kernel) (by decide +kernel), rfl, fun kept => ?_⟩
  exact absurd kept (by decide +kernel)

theorem CloseAtMark.equity_kept_dollar : ∃ c : CloseAtMark, c.quote = "USD" ∧
    c.equityAfter = c.equityBefore := by
  let c := goldClose "USD" (by decide +kernel) (by decide +kernel)
  exact ⟨c, rfl, (equity_kept_iff c).mpr (by decide +kernel)⟩

end TradingPlatform
