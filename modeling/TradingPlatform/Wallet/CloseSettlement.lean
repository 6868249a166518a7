import TradingPlatform.Engine.FillEffect
import TradingPlatform.Library.StepRuns
import TradingPlatform.Wallet.Charges

namespace TradingPlatform

open StepRuns

/-- One position on its way to the wallet: the engine's store, the wallet, the
position's row, whether its swap is settled, the two streams of events about
it, and the user whose swap is settled next. The closes are numbered: an
`event.position.closed` goes with the closes whose PnL it reports, `applied`
lists the closes whose PnL the wallet got and `realized` sums all PnL. -/
structure Settlement where
  store : Store
  wallet : Wallet
  row : PositionRow
  swapSettled : Bool
  closedEvents : List (PositionClosedEvent × List ℕ)
  updatedEvents : List PositionUpdatedEvent
  settling : Option UserId
  closes : ℕ
  realized : ℚ
  applied : List ℕ

inductive SettlementAction
  | close (userId : UserId) (exitPrice closeSize : ℚ) (timestampMs : Millis)
  | closeAll (exitPrice : ℚ) (liquidated : Bool) (timestampMs : Millis)
  | trigger (exitPrice : ℚ) (timestampMs : Millis)
  | fill (args : FillArgs) (existing old : List PositionId)
  | republish
  | accrueSwap (amount : ℚ)
  | deliverClosed
  | settleSwap
  | deliverUpdated

namespace Settlement

def publish (s : Settlement) (p : PositionId) (statusOverride : Option PositionStatus) :
    Settlement :=
  { s with
    updatedEvents :=
      s.updatedEvents ++ (publishPositionUpdated s.store p statusOverride).toList }

/-- The events of a close: `covers` are the closes whose PnL is in the first. -/
def report (s : Settlement) (p : PositionId) (e : Option PositionClosedEvent) (covers : List ℕ)
    (statusOverride : Option PositionStatus) : Settlement :=
  { s with closedEvents := s.closedEvents ++ e.toList.map (·, covers) }.publish p statusOverride

def realize (s : Settlement) (store : Store) (pnl : ℚ) : Settlement :=
  { s with store := store, closes := s.closes + 1, realized := s.realized + pnl }

/-- A close script and its events when it succeeds. -/
def afterClose (s : Settlement) (args : CloseArgs)
    (event : Store → CloseResult → Option PositionClosedEvent) (covers : List ℕ) : Settlement :=
  match atomicClosePosition s.store args with
  | .success store result =>
    (s.realize store result.realizedPnl).report args.positionId (event store result) covers
      (some args.fullCloseStatus)
  | .error store _ => { s with store := store }
  | .raised store => { s with store := store }

def fill (s : Settlement) (p : PositionId) (args : FillArgs) (existing old : List PositionId) :
    Settlement :=
  match atomicFillOrder s.store args existing old with
  | .success store result =>
    let userId := ((s.store.orders args.orderId).map (·.userId)).getD 0
    let filled := if result.Closes p then s.realize store (result.realizedPnl.getD 0)
      else { s with store := store }
    let reported := if result.closedPositionId = some p then
        filled.report p (closedEventOfFill store userId args result) [s.closes] (some .CLOSED)
      else filled
    if result.positionId = some p then reported.publish p none else reported
  | .error store _ => { s with store := store }
  | .raised store => { s with store := store }

/-- The listener of `event.position.closed` up to its commit; a failed
transaction is only logged. -/
def deliverClosed (s : Settlement) : Option Settlement :=
  match s.closedEvents, s.settling with
  | (e, covers) :: rest, none =>
    let released := if s.row.userId = e.userId then some s.row.bonusWalletReleased else none
    match s.wallet.releaseAndApplyPnl released e.margins e.realizedPnl with
    | none => some { s with closedEvents := rest }
    | some (wallet, none) =>
      some { s with closedEvents := rest, wallet := wallet, settling := some e.userId }
    | some (wallet, some _) =>
      some { s with
        closedEvents := rest
        wallet := wallet
        row := { s.row with bonusWalletReleased := true }
        settling := some e.userId
        applied := s.applied ++ covers }
  | _, _ => none

/-- The same listener after its commit. -/
def settleSwap (s : Settlement) : Option Settlement :=
  s.settling.map fun userId =>
    let (wallet, debited) := s.wallet.settleSwapOnClosedPosition s.swapSettled userId (some s.row)
    { s with
      wallet := wallet, swapSettled := s.swapSettled || debited.isSome, settling := none }

def deliverUpdated (symbols : Finset Symbol) (s : Settlement) : Option Settlement :=
  match s.updatedEvents with
  | [] => none
  | e :: rest =>
    match syncPositionToDatabase symbols (some s.row) e with
    | .ok row => some { s with updatedEvents := rest, row := row }
    | .error _ => some { s with updatedEvents := rest }

def step (symbols : Finset Symbol) (p : PositionId) (s : Settlement) :
    SettlementAction → Option Settlement
  | .close userId exitPrice closeSize timestampMs =>
    if ∃ h ∈ s.store.hash p, h.userId = some userId ∧ h.symbol.isSome ∧ h.side.isSome then
      let args : CloseArgs :=
        { positionId := p, exitPrice := exitPrice, closeSize := closeSize
          timestampMs := timestampMs }
      some (s.afterClose args (fun _ result => some (closedEventOfReply userId result)) [s.closes])
    else some s
  | .closeAll exitPrice liquidated timestampMs =>
    let userId := ((s.store.hash p).bind (·.userId)).getD 0
    let args : CloseArgs :=
      { positionId := p, exitPrice := exitPrice, closeSize := 0, timestampMs := timestampMs
        liquidated := liquidated }
    some (s.afterClose args (fun _ result => some (closedEventOfReply userId result)) [s.closes])
  | .trigger exitPrice timestampMs =>
    let args : CloseArgs :=
      { positionId := p, exitPrice := exitPrice, closeSize := 0, timestampMs := timestampMs }
    some (s.afterClose args (fun store _ => (store.hash p).bind (closedEventOfTrigger p exitPrice))
      (List.range (s.closes + 1)))
  | .fill args existing old =>
    if s.store.hash args.positionUuid = none ∧ ∀ order ∈ s.store.orders args.orderId,
        Smembers existing (s.store.userPositions order.userId) ∧
        Smembers old (s.store.oldUserPositions order.userId) then
      some (s.fill p args existing old)
    else none
  | .republish => some (s.publish p none)
  | .accrueSwap amount =>
    if s.row.status = .OPEN then
      some { s with
        row := { s.row with accumulatedSwapUsd := s.row.accumulatedSwapUsd + amount } }
    else none
  | .deliverClosed => s.deliverClosed
  | .settleSwap => s.settleSwap
  | .deliverUpdated => s.deliverUpdated symbols

/-- A fill may net against the position and close it only before anything was
realised on it, and a flip only with levels that are not null. -/
def NetsSafely (p : PositionId) (args : FillArgs) (order : Order) : Target → Prop
  | .net q h => q = p → h.size.getD 0 ≤ args.fillSize → h.realizedPnl.getD 0 = 0 ∧
      (h.size.getD 0 < args.fillSize → order.stopLoss ≠ .null ∧ order.takeProfit ≠ .null)
  | .merge _ _ => True
  | .fresh => True

instance (p : PositionId) (args : FillArgs) (order : Order) : DecidablePred (NetsSafely p args order)
  | .net q _ => inferInstanceAs (Decidable (q = p → _))
  | .merge _ _ => inferInstanceAs (Decidable True)
  | .fresh => inferInstanceAs (Decidable True)

/-- A close is a full one and the only one that realises something, unless it
is a triggered one; a release is covered by the locks; a swap other than zero
is settled from a row marked closed and can be paid, and none accrues after
the close. -/
def PaysOnce (p : PositionId) (s : Settlement) : SettlementAction → Prop
  | .close _ _ closeSize _ => ∀ h ∈ s.store.hash p, h.status = some .OPEN →
      (closeSize = 0 ∨ h.size.getD 0 ≤ closeSize) ∧ h.realizedPnl.getD 0 = 0
  | .closeAll _ _ _ => ∀ h ∈ s.store.hash p, h.status = some .OPEN → h.realizedPnl.getD 0 = 0
  | .trigger _ _ => True
  | .fill args existing _ => ∀ order ∈ s.store.orders args.orderId, args.Pass order →
      NetsSafely p args order (order.target s.store existing)
  | .republish => True
  | .accrueSwap _ => ∃ h ∈ s.store.hash p, h.status = some .OPEN
  | .deliverClosed => ∀ item ∈ s.closedEvents.head?,
      0 ≤ item.1.margins ∧ item.1.margins ≤ s.wallet.locks
  | .settleSwap => s.row.accumulatedSwapUsd = 0 ∨
      (s.row.status = .CLOSED ∨ s.row.status = .LIQUIDATED) ∧
        s.row.accumulatedSwapUsd ≤ s.wallet.availableBalance
  | .deliverUpdated => True

instance (p : PositionId) (s : Settlement) : DecidablePred (s.PaysOnce p)
  | .close _ _ _ _ => inferInstanceAs (Decidable (∀ h ∈ s.store.hash p, _))
  | .closeAll _ _ _ => inferInstanceAs (Decidable (∀ h ∈ s.store.hash p, _))
  | .trigger _ _ => inferInstanceAs (Decidable True)
  | .fill args _ _ => inferInstanceAs (Decidable (∀ order ∈ s.store.orders args.orderId, _))
  | .republish => inferInstanceAs (Decidable True)
  | .accrueSwap _ => inferInstanceAs (Decidable (∃ h ∈ s.store.hash p, _))
  | .deliverClosed => inferInstanceAs (Decidable (∀ item ∈ s.closedEvents.head?, _))
  | .settleSwap => inferInstanceAs (Decidable (_ ∨ _))
  | .deliverUpdated => inferInstanceAs (Decidable True)

/-- The position is closed and all its events have been taken. -/
structure Processed (p : PositionId) (s : Settlement) : Prop where
  closed : ∀ h ∈ s.store.hash p, h.status ≠ some .OPEN
  closedEvents : s.closedEvents = []
  updatedEvents : s.updatedEvents = []
  settling : s.settling = none

instance (p : PositionId) (s : Settlement) : Decidable (s.Processed p) :=
  decidable_of_iff ((∀ h ∈ s.store.hash p, h.status ≠ some .OPEN) ∧ s.closedEvents = [] ∧
      s.updatedEvents = [] ∧ s.settling = none)
    ⟨fun ⟨closed, noneClosed, noneUpdated, settling⟩ => ⟨closed, noneClosed, noneUpdated, settling⟩,
      fun ⟨closed, noneClosed, noneUpdated, settling⟩ => ⟨closed, noneClosed, noneUpdated, settling⟩⟩

/-- The wallet has got the PnL of all closes less the swap, and no close's PnL twice. -/
def Paid (initial : Wallet) (s : Settlement) : Prop :=
  s.wallet.total = initial.total + s.realized - s.row.accumulatedSwapUsd ∧ s.applied.Nodup

/-- Before anything of the position has reached the wallet. -/
structure Untouched (initial : Wallet) (s : Settlement) : Prop where
  settling : s.settling = none
  notReleased : s.row.bonusWalletReleased = false
  notSettled : s.swapSettled = false
  applied : s.applied = []
  total : s.wallet.total = initial.total

/-- How far the position has got. -/
inductive Stage (initial : Wallet) (s : Settlement) : Option PositionStatus → Prop
  | trading (noEvents : s.closedEvents = []) (untouched : s.Untouched initial) :
      Stage initial s (some .OPEN)
  | reported {status : Option PositionStatus} {e : PositionClosedEvent} {covers : List ℕ}
      (closed : status ≠ some .OPEN) (one : s.closedEvents = [(e, covers)])
      (owner : e.userId = s.row.userId) (pnl : e.realizedPnl = s.realized) (once : covers.Nodup)
      (untouched : s.Untouched initial) : Stage initial s status
  | released {status : Option PositionStatus} (closed : status ≠ some .OPEN)
      (noEvents : s.closedEvents = []) (settling : s.settling = some s.row.userId)
      (notSettled : s.swapSettled = false) (once : s.applied.Nodup)
      (total : s.wallet.total = initial.total + s.realized) : Stage initial s status
  | settled {status : Option PositionStatus} (closed : status ≠ some .OPEN)
      (noEvents : s.closedEvents = []) (settling : s.settling = none) (paid : s.Paid initial) :
      Stage initial s status

structure Sound (p : PositionId) (initial : Wallet) (s : Settlement) (h : PositionHash) :
    Prop where
  hashesOnly : s.store.HashesOnly
  listed : ∀ u, p ∈ s.store.userPositions u → u = s.row.userId
  stored : s.store.hash p = some h
  userId : h.userId = some s.row.userId
  symbol : ∃ symbol, h.symbol = some symbol
  realized : s.realized = h.realizedPnl.getD 0
  stage : s.Stage initial h.status

theorem closedEventOfFill_pnl (st : Store) (userId : UserId) (args : FillArgs)
    {result : FillResult} {p : PositionId} (closedId : result.closedPositionId = some p) :
    ∃ e, closedEventOfFill st userId args result = some e ∧ e.userId = userId ∧
      e.realizedPnl = result.realizedPnl.getD 0 := by
  unfold closedEventOfFill
  rw [closedId]
  exact ⟨_, rfl, rfl, rfl⟩

variable {p : PositionId} {initial : Wallet} {s after : Settlement} {h : PositionHash}

theorem Stage.withStore {status : Option PositionStatus} (stage : s.Stage initial status)
    (store : Store) (updatedEvents : List PositionUpdatedEvent) :
    Stage initial { s with store := store, updatedEvents := updatedEvents } status := by
  cases stage with
  | trading noEvents untouched => exact .trading noEvents { untouched with }
  | reported closed one owner pnl once untouched =>
    exact .reported closed one owner pnl once { untouched with }
  | released closed noEvents settling notSettled once total =>
    exact .released closed noEvents settling notSettled once total
  | settled closed noEvents settling paid => exact .settled closed noEvents settling paid

/-- A row with another swap, as long as the position is open. -/
theorem Sound.withRow {row : PositionRow} (sound : s.Sound p initial h)
    (userId : row.userId = s.row.userId)
    (flag : row.bonusWalletReleased = s.row.bonusWalletReleased)
    (swap : row.accumulatedSwapUsd = s.row.accumulatedSwapUsd ∨ h.status = some .OPEN)
    (updatedEvents : List PositionUpdatedEvent) :
    Sound p initial { s with updatedEvents := updatedEvents, row := row } h where
  hashesOnly := sound.hashesOnly
  listed u member := (sound.listed u member).trans userId.symm
  stored := sound.stored
  userId := sound.userId.trans (congrArg some userId.symm)
  symbol := sound.symbol
  realized := sound.realized
  stage := by
    have stage := sound.stage
    generalize h.status = status at stage swap
    cases stage with
    | trading noEvents untouched =>
      exact .trading noEvents { untouched with notReleased := flag.trans untouched.notReleased }
    | reported closed one owner pnl once untouched =>
      exact .reported closed one (owner.trans userId.symm) pnl once
        { untouched with notReleased := flag.trans untouched.notReleased }
    | released closed noEvents settling notSettled once total =>
      exact .released closed noEvents (settling.trans (congrArg some userId.symm)) notSettled once
        total
    | settled closed noEvents settling paid =>
      have same := swap.resolve_right closed
      refine .settled closed noEvents settling ⟨?_, paid.2⟩
      change s.wallet.total = initial.total + s.realized - row.accumulatedSwapUsd
      rw [same]
      exact paid.1

theorem Sound.publish (sound : s.Sound p initial h) (statusOverride : Option PositionStatus) :
    (s.publish p statusOverride).Sound p initial h :=
  { sound with stage := sound.stage.withStore _ _ }

theorem Sound.trading (sound : s.Sound p initial h) (isOpen : h.status = some .OPEN) :
    s.closedEvents = [] ∧ s.Untouched initial := by
  have stage := sound.stage
  rw [isOpen] at stage
  cases stage with
  | trading noEvents untouched => exact ⟨noEvents, untouched⟩
  | reported closed => exact absurd rfl closed
  | released closed => exact absurd rfl closed
  | settled closed => exact absurd rfl closed

/-- A close that reports all that was realised on the position. -/
theorem Sound.realizeReport {g : PositionHash} {store : Store} {pnl : ℚ} {e : PositionClosedEvent}
    {covers : List ℕ} (sound : s.Sound p initial h) (isOpen : h.status = some .OPEN)
    (hashesOnly : store.HashesOnly) (owner : SameOwner s.store.userPositions store p h g)
    (closed : g.status ≠ some .OPEN) (realized : g.realizedPnl.getD 0 = s.realized + pnl)
    (ofOwner : e.userId = s.row.userId) (reports : e.realizedPnl = s.realized + pnl)
    (once : covers.Nodup) (statusOverride : Option PositionStatus) :
    ((s.realize store pnl).report p (some e) covers statusOverride).Sound p initial g := by
  obtain ⟨noEvents, untouched⟩ := sound.trading isOpen
  constructor
  · exact hashesOnly
  · exact fun u member => sound.listed u (owner.stays u member)
  · exact owner.read
  · exact owner.userId.trans sound.userId
  · rw [owner.symbol]
    exact sound.symbol
  · exact realized.symm
  · have one : s.closedEvents ++ [(e, covers)] = [(e, covers)] := by rw [noEvents, List.nil_append]
    exact .reported closed one ofOwner reports once { untouched with }

theorem Sound.afterClose {args : CloseArgs} {covers : List ℕ}
    {event : Store → CloseResult → Option PositionClosedEvent} (sound : s.Sound p initial h)
    (ofPosition : args.positionId = p)
    (full : h.status = some .OPEN → args.closeSize = 0 ∨ h.size.getD 0 ≤ args.closeSize)
    (reports : h.status = some .OPEN → ∀ store : Store, store.hash p = some (args.fullHash h) →
      ∃ e, event store (args.result h) = some e ∧ e.userId = s.row.userId ∧
        e.realizedPnl = s.realized + args.pnl h) (once : covers.Nodup) :
    ∃ g, (s.afterClose args event covers).Sound p initial g := by
  subst ofPosition
  unfold Settlement.afterClose
  split
  next store result closed =>
    obtain ⟨g, stored, isOpen, sameResult, outcome⟩ := atomicClosePosition_success closed
    cases Option.some.inj (sound.stored.symm.trans stored)
    rcases outcome with ⟨-, symbol, -, left⟩ | ⟨part, -⟩
    · have read : store.hash args.positionId = some (args.fullHash h) := by
        rw [left, Store.hash_unindex, Store.hash_hset_self, stored, Option.getD_some]
      obtain ⟨e, isEvent, ofOwner, pnl⟩ := reports isOpen store read
      have owner : SameOwner s.store.userPositions store args.positionId h (args.fullHash h) := by
        refine ⟨read, rfl, rfl, fun u member => ?_⟩
        rw [left] at member
        exact member
      have realized : (args.fullHash h).realizedPnl.getD 0 = s.realized + args.pnl h := by
        rw [sound.realized]
        rfl
      have hashesOnly : store.HashesOnly := by
        rw [left]
        exact sound.hashesOnly
      have shut : (args.fullHash h).status ≠ some .OPEN := by
        change some args.fullCloseStatus ≠ some .OPEN
        unfold CloseArgs.fullCloseStatus
        split_ifs <;> decide
      rw [sameResult, isEvent]
      exact ⟨_, sound.realizeReport isOpen hashesOnly owner shut realized ofOwner pnl once _⟩
    · have whole : args.actualCloseSize (h.size.getD 0) = h.size.getD 0 := if_pos (full isOpen)
      exact absurd whole part.ne
  next store e refused =>
    rw [atomicClosePosition_error refused]
    exact ⟨h, sound⟩
  next store raised =>
    obtain ⟨g, stored, -, noSymbol⟩ := atomicClosePosition_raised raised
    cases Option.some.inj (sound.stored.symm.trans stored)
    obtain ⟨symbol, hasSymbol⟩ := sound.symbol
    rw [noSymbol] at hasSymbol
    cases hasSymbol

theorem Sound.keep {g : PositionHash} {store : Store} (sound : s.Sound p initial h)
    (hashesOnly : store.HashesOnly) (owner : SameOwner s.store.userPositions store p h g)
    (status : g.status = h.status) (realized : g.realizedPnl.getD 0 = h.realizedPnl.getD 0) :
    Sound p initial { s with store := store } g where
  hashesOnly := hashesOnly
  listed u member := sound.listed u (owner.stays u member)
  stored := owner.read
  userId := owner.userId.trans sound.userId
  symbol := owner.symbol ▸ sound.symbol
  realized := sound.realized.trans realized.symm
  stage := status ▸ sound.stage.withStore store _

/-- A netting reduction realises PnL without an event. -/
theorem Sound.reduce {g : PositionHash} {store : Store} {pnl : ℚ} (sound : s.Sound p initial h)
    (isOpen : h.status = some .OPEN) (stillOpen : g.status = some .OPEN)
    (hashesOnly : store.HashesOnly) (owner : SameOwner s.store.userPositions store p h g)
    (realized : g.realizedPnl.getD 0 = s.realized + pnl) : (s.realize store pnl).Sound p initial g := by
  obtain ⟨noEvents, untouched⟩ := sound.trading isOpen
  constructor
  · exact hashesOnly
  · exact fun u member => sound.listed u (owner.stays u member)
  · exact owner.read
  · exact owner.userId.trans sound.userId
  · rw [owner.symbol]
    exact sound.symbol
  · exact realized.symm
  · rw [stillOpen]
    exact .trading noEvents { untouched with }

theorem Sound.fill {args : FillArgs} {existing old : List PositionId} (sound : s.Sound p initial h)
    (fresh : s.store.hash args.positionUuid = none)
    (listing : ∀ order ∈ s.store.orders args.orderId,
      Smembers existing (s.store.userPositions order.userId))
    (pays : s.PaysOnce p (.fill args existing old)) :
    ∃ g, (s.fill p args existing old).Sound p initial g := by
  have hashesOnly := atomicFillOrder_hashesOnly existing old sound.hashesOnly fresh
  have failing (failed : ∀ after result,
      atomicFillOrder s.store args existing old ≠ .success after result) :
      ∃ g, Sound p initial
        { s with store := (atomicFillOrder s.store args existing old).store } g := by
    rcases atomicFillOrder_keeps sound.hashesOnly fresh sound.stored failed with
      ⟨g, owner, status, realized⟩ | ⟨order, stored, pass, target, exceeds, levels⟩
    · exact ⟨g, sound.keep hashesOnly owner status realized⟩
    · have safe := pays order stored pass
      rw [target] at safe
      obtain ⟨-, notNull⟩ := safe rfl exceeds.le
      rcases levels with sl | tp
      · exact absurd sl (notNull exceeds).1
      · exact absurd tp (notNull exceeds).2
  unfold Settlement.fill
  split <;> rename_i outcome <;> rw [outcome] at hashesOnly failing
  · rename_i store result
    obtain ⟨effect, order, stored, pass, closing⟩ :=
      atomicFillOrder_effect sound.hashesOnly fresh sound.stored outcome
    have republished (t : Settlement) (g : PositionHash) (isSound : t.Sound p initial g) :
        Sound p initial (if result.positionId = some p then t.publish p none else t) g := by
      split_ifs
      · exact isSound.publish none
      · exact isSound
    dsimp only
    cases effect with
    | kept g owner status realized untouched =>
      have notClosed : result.closedPositionId ≠ some p := fun closed => untouched (.inl closed)
      rw [if_neg untouched, if_neg notClosed]
      exact ⟨g, republished _ g (sound.keep hashesOnly owner status realized)⟩
    | reduced g owner isOpen stillOpen realized part notAll =>
      rw [if_pos part, if_neg notAll]
      rw [← sound.realized] at realized
      exact ⟨g, republished _ g (sound.reduce isOpen stillOpen hashesOnly owner realized)⟩
    | closed g owner isOpen isClosed realized all =>
      obtain ⟨member, target, enough⟩ := closing all
      have safe := pays order stored pass
      rw [target] at safe
      have nothing : s.realized = 0 := sound.realized.trans (safe rfl enough).1
      have user : order.userId = s.row.userId :=
        sound.listed _ ((listing order stored).mem_iff.mp member)
      rw [← sound.realized] at realized
      have shut : g.status ≠ some .OPEN := by
        rw [isClosed]
        decide
      have part : result.Closes p := .inl all
      obtain ⟨e, event, ofUser, pnl⟩ := closedEventOfFill_pnl store
        (((s.store.orders args.orderId).map (·.userId)).getD 0) args all
      rw [if_pos part, if_pos all, event]
      rw [stored] at ofUser
      refine ⟨g, republished _ g (sound.realizeReport isOpen hashesOnly owner shut realized
        (ofUser.trans user) ?_ (List.nodup_singleton _) _)⟩
      rw [pnl, nothing, zero_add]
  · exact failing fun after result success => by cases success
  · exact failing fun after result success => by cases success

/-- The first release credits the reported PnL and sets the flag. -/
theorem Sound.deliverClosed (sound : s.Sound p initial h) (pays : s.PaysOnce p .deliverClosed)
    (taken : s.deliverClosed = some after) : after.Sound p initial h := by
  unfold Settlement.deliverClosed at taken
  split at taken
  next e covers rest isQueue idle =>
    obtain ⟨nonneg, covered⟩ : 0 ≤ e.margins ∧ e.margins ≤ s.wallet.locks :=
      pays (e, covers) (by rw [isQueue]; rfl)
    have stage := sound.stage
    generalize isStatus : h.status = status at stage
    cases stage with
    | trading noEvents _ => rw [noEvents] at isQueue; cases isQueue
    | released _ noEvents _ _ _ _ => rw [noEvents] at isQueue; cases isQueue
    | settled _ noEvents _ _ => rw [noEvents] at isQueue; cases isQueue
    | reported closed one owner pnl once untouched =>
      rw [one] at isQueue
      cases isQueue
      obtain ⟨wallet, bonusAbsorb, first, locks, total⟩ :=
        s.wallet.releaseAndApplyPnl_first e.realizedPnl nonneg covered
      rw [if_pos owner.symm, untouched.notReleased] at taken
      dsimp only at taken
      rw [first] at taken
      cases taken
      constructor
      · exact sound.hashesOnly
      · exact sound.listed
      · exact sound.stored
      · exact sound.userId
      · exact sound.symbol
      · exact sound.realized
      · rw [isStatus]
        refine .released closed rfl (congrArg some owner) untouched.notSettled ?_ ?_
        · change (s.applied ++ covers).Nodup
          rw [untouched.applied, List.nil_append]
          exact once
        · change wallet.total = initial.total + s.realized
          rw [total, untouched.total, pnl]
  next => cases taken

theorem settleSwap_total {row : PositionRow} {w : Wallet} {userId : UserId}
    (owner : row.userId = userId) (pays : row.accumulatedSwapUsd = 0 ∨
      (row.status = .CLOSED ∨ row.status = .LIQUIDATED) ∧
        row.accumulatedSwapUsd ≤ w.availableBalance) :
    (w.settleSwapOnClosedPosition false userId (some row)).1.total =
      w.total - row.accumulatedSwapUsd := by
  unfold Wallet.settleSwapOnClosedPosition
  rw [if_neg Bool.false_ne_true, Option.bind_some, PositionRow.swapToSettle]
  by_cases marked : row.userId = userId ∧ (row.status = .CLOSED ∨ row.status = .LIQUIDATED)
  · rw [if_pos marked]
    dsimp only
    split_ifs with zero enough
    · rw [zero, sub_zero]
    · unfold Wallet.total
      ring
    · rcases pays with none | ⟨-, payable⟩
      · exact absurd none zero
      · exact absurd payable enough
  · rw [if_neg marked]
    rcases pays with none | ⟨closed, -⟩
    · rw [none, sub_zero]
    · exact absurd ⟨owner, closed⟩ marked

theorem Sound.settleSwap (sound : s.Sound p initial h) (pays : s.PaysOnce p .settleSwap)
    (taken : s.settleSwap = some after) : after.Sound p initial h := by
  obtain ⟨userId, settling, result⟩ := Option.map_eq_some_iff.mp taken
  have stage := sound.stage
  generalize isStatus : h.status = status at stage
  cases stage with
  | trading _ untouched => rw [untouched.settling] at settling; cases settling
  | reported _ _ _ _ _ untouched => rw [untouched.settling] at settling; cases settling
  | settled _ _ idle _ => rw [idle] at settling; cases settling
  | released closed noEvents owned notSettled once total =>
    cases Option.some.inj (settling.symm.trans owned)
    have paid := settleSwap_total (w := s.wallet) rfl pays
    rw [notSettled] at result
    subst result
    constructor
    · exact sound.hashesOnly
    · exact sound.listed
    · exact sound.stored
    · exact sound.userId
    · exact sound.symbol
    · exact sound.realized
    · rw [isStatus]
      refine .settled closed noEvents rfl ⟨?_, once⟩
      refine paid.trans ?_
      rw [total]

theorem Sound.deliverUpdated {symbols : Finset Symbol} (sound : s.Sound p initial h)
    (taken : s.deliverUpdated symbols = some after) : after.Sound p initial h := by
  unfold Settlement.deliverUpdated at taken
  split at taken
  next => cases taken
  next e rest _ =>
    split at taken
    next row synced =>
      cases taken
      obtain ⟨userId, flag, swap⟩ := syncPositionToDatabase_keeps synced
      exact sound.withRow userId flag (.inl swap) _
    next =>
      cases taken
      exact { sound with stage := sound.stage.withStore _ _ }

theorem Sound.step {symbols : Finset Symbol} {action : SettlementAction}
    (sound : s.Sound p initial h) (pays : s.PaysOnce p action)
    (taken : s.step symbols p action = some after) : ∃ g, after.Sound p initial g := by
  cases action with
  | close userId exitPrice closeSize timestampMs =>
    simp only [Settlement.step] at taken
    split_ifs at taken with owned
    · cases taken
      obtain ⟨g, stored, ofUser, -⟩ := owned
      cases Option.some.inj (sound.stored.symm.trans stored)
      cases Option.some.inj (sound.userId.symm.trans ofUser)
      refine sound.afterClose rfl (fun isOpen => (pays h stored isOpen).1) ?_
        (List.nodup_singleton _)
      intro isOpen store read
      refine ⟨_, rfl, rfl, ?_⟩
      rw [sound.realized, (pays h stored isOpen).2, zero_add]
      rfl
    · cases taken
      exact ⟨h, sound⟩
  | closeAll exitPrice liquidated timestampMs =>
    cases taken
    refine sound.afterClose rfl (fun _ => .inl rfl) ?_ (List.nodup_singleton _)
    intro isOpen store read
    refine ⟨_, rfl, ?_, ?_⟩
    · rw [sound.stored, Option.bind_some, sound.userId]
      rfl
    · rw [sound.realized, pays h sound.stored isOpen, zero_add]
      rfl
  | trigger exitPrice timestampMs =>
    cases taken
    refine sound.afterClose rfl (fun _ => .inl rfl) ?_ List.nodup_range
    intro isOpen store read
    rw [read, Option.bind_some, closedEventOfTrigger]
    change ∃ e, Option.map _ h.userId = some e ∧ _
    rw [sound.userId, Option.map_some, sound.realized]
    exact ⟨_, rfl, rfl, rfl⟩
  | fill args existing old =>
    simp only [Settlement.step] at taken
    split_ifs at taken with enabled
    cases taken
    exact sound.fill enabled.1 (fun order stored => (enabled.2 order stored).1) pays
  | republish =>
    cases taken
    exact ⟨h, sound.publish none⟩
  | accrueSwap amount =>
    simp only [Settlement.step] at taken
    split_ifs at taken
    cases taken
    obtain ⟨g, stored, isOpen⟩ := pays
    cases Option.some.inj (sound.stored.symm.trans stored)
    let accrued := { s.row with accumulatedSwapUsd := s.row.accumulatedSwapUsd + amount }
    have owner : accrued.userId = s.row.userId := rfl
    exact ⟨h, sound.withRow owner rfl (.inr isOpen) _⟩
  | deliverClosed => exact ⟨h, sound.deliverClosed pays taken⟩
  | settleSwap => exact ⟨h, sound.settleSwap pays taken⟩
  | deliverUpdated => exact ⟨h, sound.deliverUpdated taken⟩

/-- The position before its first close: open, owned by the row's user, with
nothing realised and its row not released. -/
structure Opens (p : PositionId) (store : Store) (row : PositionRow) : Prop where
  hashesOnly : store.HashesOnly
  listed : ∀ u, p ∈ store.userPositions u → u = row.userId
  hash : ∃ h, store.hash p = some h ∧ h.status = some .OPEN ∧ h.userId = some row.userId ∧
    (∃ symbol, h.symbol = some symbol) ∧ h.realizedPnl.getD 0 = 0
  notReleased : row.bonusWalletReleased = false

def start (store : Store) (wallet : Wallet) (row : PositionRow) : Settlement where
  store := store
  wallet := wallet
  row := row
  swapSettled := false
  closedEvents := []
  updatedEvents := []
  settling := none
  closes := 0
  realized := 0
  applied := []

/-- In every interleaving whose steps pay once, a closed position whose events
have all been taken has changed the wallet's money by the PnL of its closes
less its swap. -/
theorem paid_of_processed {symbols : Finset Symbol} {store : Store} {row : PositionRow}
    {actions : List SettlementAction} (opens : Opens p store row)
    (run : GuardedRun (step symbols p) (PaysOnce p) (start store initial row) actions s)
    (processed : s.Processed p) : s.Paid initial := by
  obtain ⟨g, stored, isOpen, userId, symbol, realized⟩ := opens.hash
  have untouched : (start store initial row).Untouched initial :=
    ⟨rfl, opens.notReleased, rfl, rfl, rfl⟩
  let IsSound (s : Settlement) : Prop := ∃ h, s.Sound p initial h
  have initially : IsSound (start store initial row) :=
    ⟨g, opens.hashesOnly, opens.listed, stored, userId, symbol, realized.symm,
      isOpen ▸ .trading rfl untouched⟩
  obtain ⟨h, sound⟩ : IsSound s :=
    run.invariant initially fun _ _ _ pays taken ⟨_, sound⟩ => sound.step pays taken
  have stage := sound.stage
  generalize isStatus : h.status = status at stage
  cases stage with
  | trading => exact absurd isStatus (processed.closed h sound.stored)
  | reported _ one =>
    rw [processed.closedEvents] at one
    cases one
  | released _ _ settling =>
    rw [processed.settling] at settling
    cases settling
  | settled _ _ _ paid => exact paid

def boughtHash : PositionHash :=
  { userId := some 7, symbol := some "EURUSD", side := some .LONG, size := some 2
    entryPrice := some 10, avgPrice := some 10, leverage := some 1, margin := some 20
    marginFromCash := some 20, marginFromBonus := some 0, realizedPnl := some 0
    status := some .OPEN }

def boughtRow : PositionRow :=
  { userId := 7, symbol := "EURUSD", side := .LONG, size := 2, entryPrice := 10, markPrice := 10
    leverage := 1, marginUsed := 20, liquidationPrice := 0, pnl := 0, pnlPercent := 0
    status := .OPEN, marginFromCash := 20, marginFromBonus := 0 }

/-- A long of 2 at 10 whose user has a netting sell of 1 pending. -/
def boughtStore : Store :=
  ((Store.empty.hset (.uuid 1) fun _ => boughtHash).sadd 7 (.uuid 1)).setOrder 2
    { id := 2, userId := 7, symbol := "EURUSD", side := .SELL, orderType := .MARKET, size := 1
      accountType := some "netting" }

def boughtWallet : Wallet := .cash 100 20

theorem opens_bought : Opens (.uuid 1) boughtStore boughtRow where
  hashesOnly _ := rfl
  listed u member := by
    rcases (Store.mem_sadd ..).mp member with ⟨same, -⟩ | none
    · exact same
    · cases none
  hash := ⟨boughtHash, by decide +kernel, rfl, rfl, ⟨_, rfl⟩, rfl⟩
  notReleased := rfl

/-- Half of the position is closed at 12, the rest at 13. -/
def closedTwiceActions : List SettlementAction :=
  [.close 7 12 1 1000, .close 7 13 0 2000,
   .deliverClosed, .settleSwap, .deliverUpdated, .deliverUpdated, .deliverClosed, .settleSwap]

/-- The PnL of the second close never reaches the wallet. -/
theorem not_paid_closedTwiceActions :
    ∃ s, Run (step {"EURUSD"} (.uuid 1)) (start boughtStore boughtWallet boughtRow)
      closedTwiceActions s ∧ s.Processed (.uuid 1) ∧ ¬ s.Paid boughtWallet := by
  have evaluates : (runGuarded (step {"EURUSD"} (.uuid 1)) (fun _ _ => True)
      (start boughtStore boughtWallet boughtRow) closedTwiceActions).map (fun s =>
        (decide (s.Processed (.uuid 1)), s.wallet.total, s.realized, s.row.accumulatedSwapUsd)) =
      some (true, 122, 5, 0) := by decide +kernel
  obtain ⟨s, reached, reads⟩ := Option.map_eq_some_iff.mp evaluates
  obtain ⟨processed, money⟩ := Prod.mk.inj reads
  obtain ⟨total, money⟩ := Prod.mk.inj money
  obtain ⟨realized, swap⟩ := Prod.mk.inj money
  refine ⟨s, .of_eval reached, of_decide_eq_true processed, ?_⟩
  rintro ⟨paid, -⟩
  rw [total, realized, swap] at paid
  exact absurd paid (by decide +kernel)

/-- A netting sell takes half of the position, the stop loss the rest. -/
def reducedThenTriggeredActions : List SettlementAction :=
  [.fill ⟨2, 12, 1, 1000, .uuid 2, some 1⟩ [.uuid 1] [], .trigger 11 2000,
   .deliverClosed, .deliverUpdated, .settleSwap, .deliverUpdated]

theorem paid_reducedThenTriggeredActions :
    ∃ s, GuardedRun (step {"EURUSD"} (.uuid 1)) (PaysOnce (.uuid 1))
      (start boughtStore boughtWallet boughtRow) reducedThenTriggeredActions s ∧
      s.realized = 3 ∧ s.Paid boughtWallet := by
  have evaluates : (runGuarded (step {"EURUSD"} (.uuid 1)) (PaysOnce (.uuid 1))
      (start boughtStore boughtWallet boughtRow) reducedThenTriggeredActions).map (fun s =>
        (decide (s.Processed (.uuid 1)), s.realized)) = some (true, 3) := by decide +kernel
  obtain ⟨s, reached, reads⟩ := Option.map_eq_some_iff.mp evaluates
  obtain ⟨processed, realized⟩ := Prod.mk.inj reads
  have run : GuardedRun (step {"EURUSD"} (.uuid 1)) (PaysOnce (.uuid 1))
    (start boughtStore boughtWallet boughtRow) reducedThenTriggeredActions s := .of_eval reached
  exact ⟨s, run, realized, paid_of_processed opens_bought run (of_decide_eq_true processed)⟩

end Settlement

end TradingPlatform
