import TradingPlatform.Engine.HashWrites
import TradingPlatform.Engine.OrderCache
import TradingPlatform.Library.StepRuns
import TradingPlatform.Mirror.PositionSync

namespace TradingPlatform

open StepRuns

/-- The fields every hash of the engine has. The average price, which events
report, is always written together with the entry price. -/
structure PositionHash.Complete (h : PositionHash) : Prop where
  userId : ∃ u, h.userId = some u
  side : ∃ side, h.side = some side
  size : ∃ size, h.size = some size
  entryPrice : ∃ entry, h.entryPrice = some entry ∧ h.avgPrice = some entry
  leverage : ∃ leverage, h.leverage = some leverage ∧ 0 < leverage
  status : ∃ status, h.status = some status
  marginFromCash : ∃ cash, h.marginFromCash = some cash
  marginFromBonus : ∃ bonus, h.marginFromBonus = some bonus

section Complete
variable {g h : PositionHash} {p q : PositionId} {stored : Option PositionHash}

theorem FillWrite.complete {fill : Fill} (how : FillWrite fill q stored h)
    (before : ∀ g ∈ stored, g.Complete) : h.Complete := by
  cases how with
  | opened size leverage leverage_pos =>
    exact ⟨⟨_, rfl⟩, ⟨_, rfl⟩, ⟨_, rfl⟩, ⟨_, rfl, rfl⟩, ⟨_, rfl, leverage_pos⟩, ⟨_, rfl⟩, ⟨_, rfl⟩,
      ⟨_, rfl⟩⟩
  | merged _ g _ _ => exact { before g rfl with size := ⟨_, rfl⟩, entryPrice := ⟨_, rfl, rfl⟩ }
  | reduced _ g _ _ _ => exact { before g rfl with size := ⟨_, rfl⟩ }
  | closed _ g _ _ => exact { before g rfl with size := ⟨_, rfl⟩, status := ⟨_, rfl⟩ }

theorem CloseWrite.complete {args : CloseArgs} (how : CloseWrite args q stored h)
    (before : ∀ g ∈ stored, g.Complete) : h.Complete := by
  cases how with
  | full g _ => exact { before g rfl with size := ⟨_, rfl⟩, status := ⟨_, rfl⟩ }
  | part g _ _ =>
    exact { before g rfl with
      size := ⟨_, rfl⟩, marginFromCash := ⟨_, rfl⟩, marginFromBonus := ⟨_, rfl⟩ }

theorem ReopenWrite.complete {timestampMs : Millis} (how : ReopenWrite p timestampMs q stored h)
    (before : ∀ g ∈ stored, g.Complete) : h.Complete := by
  obtain ⟨g, _⟩ := how
  obtain ⟨entry, entryPrice, _⟩ := (before g rfl).entryPrice
  refine { before g rfl with
    size := ⟨_, rfl⟩, status := ⟨_, rfl⟩, entryPrice := ⟨entry, entryPrice, ?_⟩ }
  exact congrArg some (congrArg (Option.getD · 0) entryPrice)

theorem ReopenWithWrite.complete {timestampMs : Millis} {params : ParamOverrides}
    (how : ReopenWithWrite p timestampMs params q stored h)
    (before : ∀ g ∈ stored, g.Complete) : h.Complete := by
  obtain ⟨g, _⟩ := how
  exact { before g rfl with
    size := ⟨_, rfl⟩, status := ⟨_, rfl⟩, entryPrice := ⟨_, rfl, rfl⟩, side := ⟨_, rfl⟩ }

theorem UpdateWrite.complete {timestampMs : Millis} {params : ParamOverrides}
    (how : UpdateWrite p timestampMs params q stored h)
    (before : ∀ g ∈ stored, g.Complete) : h.Complete := by
  cases how with
  | resized g _ _ _ => exact { before g rfl with size := ⟨_, rfl⟩, entryPrice := ⟨_, rfl, rfl⟩ }
  | updated g _ _ _ _ => exact { before g rfl with size := ⟨_, rfl⟩, entryPrice := ⟨_, rfl, rfl⟩ }

theorem FillWrite.side_eq {fill : Fill} (how : FillWrite fill q (some g) h) : h.side = g.side := by
  cases how <;> rfl

theorem CloseWrite.side_eq {args : CloseArgs} (how : CloseWrite args q (some g) h) :
    h.side = g.side := by
  cases how <;> rfl

theorem ReopenWrite.side_eq {timestampMs : Millis}
    (how : ReopenWrite p timestampMs q (some g) h) : h.side = g.side := by
  cases how; rfl

theorem UpdateWrite.side_eq {timestampMs : Millis} {params : ParamOverrides}
    (how : UpdateWrite p timestampMs params q (some g) h) : h.side = g.side := by
  cases how <;> rfl

/-- Reopening with parameters keeps the side when the override names it. -/
theorem ReopenWithWrite.side_eq {timestampMs : Millis} {params : ParamOverrides}
    (how : ReopenWithWrite p timestampMs params q (some g) h) (complete : g.Complete)
    (kept : ∀ side ∈ params.side, g.side = some side) : h.side = g.side := by
  cases how
  obtain ⟨side, hasSide⟩ := complete.side
  change some (params.side.getD (g.side.getD .LONG)) = g.side
  cases override : params.side with
  | none => rw [hasSide]; rfl
  | some other => rw [kept other override]; rfl

/-- An update of a complete hash reads it, when the override is accurate. -/
theorem PositionHash.Complete.reads {st : Store} {e : PositionUpdatedEvent}
    {statusOverride : Option PositionStatus} (complete : h.Complete) (read : st.hash p = some h)
    (accurate : statusOverride = none ∨ statusOverride = h.status)
    (published : publishPositionUpdated st p statusOverride = some e) :
    e.positionId = p ∧ e.Reads h := by
  obtain ⟨u, userId⟩ := complete.userId
  obtain ⟨side, hasSide⟩ := complete.side
  obtain ⟨size, hasSize⟩ := complete.size
  obtain ⟨entry, entryPrice, avgPrice⟩ := complete.entryPrice
  obtain ⟨leverage, hasLeverage, positive⟩ := complete.leverage
  obtain ⟨status, hasStatus⟩ := complete.status
  obtain ⟨cash, hasCash⟩ := complete.marginFromCash
  obtain ⟨bonus, hasBonus⟩ := complete.marginFromBonus
  have sameStatus : (statusOverride.orElse fun _ => h.status).getD .OPEN = status := by
    rcases accurate with none | same
    · rw [none, hasStatus]; rfl
    · rw [same, hasStatus]; rfl
  simp only [publishPositionUpdated, read, userId, hasLeverage] at published
  cases published
  refine ⟨rfl, ?_, ?_, ?_, ?_, ?_, ?_, positive⟩
  · exact hasStatus.trans (congrArg some sameStatus.symm)
  · rw [hasSize]; rfl
  · rw [hasSide]; rfl
  · rw [entryPrice, avgPrice]; rfl
  · rw [hasCash]; rfl
  · rw [hasBonus]; rfl

end Complete

/-- `find_latest_open_position_id_for_user_symbol`, over a listing of the
user's positions. -/
def latestOpenPosition (st : Store) (symbol : Symbol) (ids : List PositionId) :
    Option PositionId :=
  let best := ids.foldl (fun (best : Option (PositionId × Millis)) p =>
    match p, st.hash p with
    | .uuid _, some h =>
      let opened := h.openedAt.getD 0
      if normalizeSymbol (h.symbol.getD "") = normalizeSymbol symbol ∧ h.status = some .OPEN ∧
          ∀ b ∈ best, b.2 ≤ opened then
        some (p, opened)
      else best
    | _, _ => best) none
  best.map (·.1)

/-- The engine's store, the updates on their way with the hash each was read
from, the positions rows, and for each position the hash of the last update
that was delivered. -/
structure PositionMirror where
  store : Store
  queue : List (PositionHash × PositionUpdatedEvent)
  rows : PositionId → Option PositionRow
  synced : PositionId → Option PositionHash

/-- The engine's operations, an iteration of `close_all` each on its own, and
the delivery of the oldest update. `ids` lists the user's positions when a
duplicate fill looks for the newest one. -/
inductive MirrorAction
  | placeOrder (o : OrderId) (order : Order)
  | fill (args : FillArgs) (existing old ids : List PositionId)
  | close (userId : UserId) (args : CloseArgs)
  | closeAll (p : PositionId) (exitPrice : ℚ) (liquidated : Bool) (timestampMs : Millis)
  | trigger (p : PositionId) (exitPrice : ℚ) (timestampMs : Millis)
  | reopen (p : PositionId) (timestampMs : Millis)
  | reopenWithParams (p : PositionId) (timestampMs : Millis) (params : ParamOverrides)
  | updateParams (p : PositionId) (timestampMs : Millis) (params : ParamOverrides)
  | deliver

namespace PositionMirror

def start : PositionMirror where
  store := .empty
  queue := []
  rows := fun _ => none
  synced := fun _ => none

def publish (m : PositionMirror) (p : PositionId) (statusOverride : Option PositionStatus) :
    PositionMirror :=
  match m.store.hash p, publishPositionUpdated m.store p statusOverride with
  | some h, some e => { m with queue := m.queue ++ [(h, e)] }
  | _, _ => m

/-- What follows a successful fill: the closed position is published first. -/
def publishFill (m : PositionMirror) (result : FillResult) : PositionMirror :=
  let m := match result.closedPositionId with
    | some p => m.publish p (some .CLOSED)
    | none => m
  match result.positionId with
  | some p => m.publish p none
  | none => m

/-- A script on one position, and the publication when it succeeds. -/
def publishAfter {ε α : Type} (m : PositionMirror) (outcome : ScriptOutcome ε α) (p : PositionId)
    (statusOverride : Option PositionStatus) : PositionMirror :=
  match outcome with
  | .success st _ => { m with store := st }.publish p statusOverride
  | .error st _ => { m with store := st }
  | .raised st => { m with store := st }

def fill (m : PositionMirror) (args : FillArgs) (existing old ids : List PositionId) :
    PositionMirror :=
  match atomicFillOrder m.store args existing old with
  | .success st result => { m with store := st }.publishFill result
  | .error st (.orderNotPending .FILLED) =>
    match (m.store.orders args.orderId).bind fun order => latestOpenPosition st order.symbol ids with
    | some p => { m with store := st }.publish p none
    | none => { m with store := st }
  | .error st _ => { m with store := st }
  | .raised st => { m with store := st }

/-- `sync_position_to_database` for the oldest update. -/
def deliver (symbols : Finset Symbol) (m : PositionMirror) : Option PositionMirror :=
  match m.queue with
  | [] => none
  | (h, e) :: queue =>
    let p := e.positionId
    some { m with
      queue := queue
      rows := match syncPositionToDatabase symbols (m.rows p) e with
        | .ok row => Function.update m.rows p (some row)
        | .error _ => m.rows
      synced := Function.update m.synced p (some h) }

def step (symbols : Finset Symbol) (m : PositionMirror) : MirrorAction → Option PositionMirror
  | .placeOrder o order => some { m with store := m.store.setOrder o order }
  | .fill args existing old ids =>
    if m.store.hash args.positionUuid = none ∧ ∀ order ∈ m.store.orders args.orderId,
        Smembers existing (m.store.userPositions order.userId) ∧
        Smembers old (m.store.oldUserPositions order.userId) ∧
        Smembers ids (m.store.userPositions order.userId) then
      some (m.fill args existing old ids)
    else none
  | .close userId args =>
    if ∃ h ∈ m.store.hash args.positionId, h.userId = some userId ∧ h.symbol.isSome ∧
        h.side.isSome ∧ args.liquidated = false then
      some (m.publishAfter (atomicClosePosition m.store args) args.positionId (some .CLOSED))
    else some m
  | .closeAll p exitPrice liquidated timestampMs =>
    let args : CloseArgs :=
      { positionId := p, exitPrice := exitPrice, closeSize := 0, timestampMs := timestampMs
        liquidated := liquidated }
    some (m.publishAfter (atomicClosePosition m.store args) p (some args.fullCloseStatus))
  | .trigger p exitPrice timestampMs =>
    let args : CloseArgs :=
      { positionId := p, exitPrice := exitPrice, closeSize := 0, timestampMs := timestampMs }
    some (m.publishAfter (atomicClosePosition m.store args) p (some .CLOSED))
  | .reopen p timestampMs =>
    some (m.publishAfter (atomicReopenPosition m.store p timestampMs) p (some .OPEN))
  | .reopenWithParams p timestampMs params =>
    some (m.publishAfter (atomicReopenPositionWithParams m.store p timestampMs params) p
      (some .OPEN))
  | .updateParams p timestampMs params =>
    some (m.publishAfter (atomicUpdatePositionParams m.store p timestampMs params) p none)
  | .deliver => m.deliver symbols

/-- After each delivery the row agrees with the hash the update was read from. -/
def Mirrors (m : PositionMirror) : Prop :=
  ∀ p, ∀ h ∈ m.synced p, ∃ row ∈ m.rows p, row.Agrees h

/-- A close command closes the whole position, a reopening keeps the side, and
a delivered update has a known symbol and a defined PnL percentage. -/
def KeepsMirror (symbols : Finset Symbol) (m : PositionMirror) : MirrorAction → Prop
  | .close _ args => ∀ h ∈ m.store.hash args.positionId, h.status = some .OPEN →
      args.closeSize = 0 ∨ h.size.getD 0 ≤ args.closeSize
  | .reopenWithParams p _ params =>
    ∀ h ∈ m.store.hash p, ∀ side ∈ params.side, h.side = some side
  | .deliver => ∀ item ∈ m.queue.head?, item.2.symbol ∈ symbols ∧ item.2.PercentDefined
  | .placeOrder _ _ => True
  | .fill _ _ _ _ => True
  | .closeAll _ _ _ _ => True
  | .trigger _ _ _ => True
  | .reopen _ _ => True
  | .updateParams _ _ _ => True

instance (symbols : Finset Symbol) (m : PositionMirror) : DecidablePred (m.KeepsMirror symbols)
  | .close _ args => inferInstanceAs (Decidable (∀ h ∈ m.store.hash args.positionId, _))
  | .reopenWithParams p _ _ => inferInstanceAs (Decidable (∀ h ∈ m.store.hash p, _))
  | .deliver => inferInstanceAs (Decidable (∀ item ∈ m.queue.head?, _))
  | .placeOrder _ _ => inferInstanceAs (Decidable True)
  | .fill _ _ _ _ => inferInstanceAs (Decidable True)
  | .closeAll _ _ _ _ => inferInstanceAs (Decidable True)
  | .trigger _ _ _ => inferInstanceAs (Decidable True)
  | .reopen _ _ => inferInstanceAs (Decidable True)
  | .updateParams _ _ _ => inferInstanceAs (Decidable True)

/-- Every hash is complete, every update on its way says what its hash said,
and the sides in updates and rows are those in the hashes now. -/
structure Sound (m : PositionMirror) : Prop where
  hashesOnly : m.store.HashesOnly
  complete : ∀ p, ∀ h ∈ m.store.hash p, h.Complete
  queued : ∀ item ∈ m.queue, item.2.Reads item.1 ∧
    ∃ now, m.store.hash item.2.positionId = some now ∧ now.side = item.1.side
  rows : ∀ p, ∀ row ∈ m.rows p, ∃ now, m.store.hash p = some now ∧ now.side = some row.side
  mirrors : m.Mirrors

/-- Hashes stay, complete and with their sides. -/
structure Keeps (before after : Store) : Prop where
  hashesOnly : after.HashesOnly
  complete : ∀ p, ∀ h ∈ after.hash p, h.Complete
  side : ∀ p g, before.hash p = some g → ∃ h, after.hash p = some h ∧ h.side = g.side

variable {m : PositionMirror} {p : PositionId}

theorem Sound.keeps_of_writes {way : PositionId → Option PositionHash → PositionHash → Prop}
    {st : Store} (sound : m.Sound) (writes : HashWrites way m.store st)
    (complete : ∀ q stored h, way q stored h → (∀ g ∈ stored, g.Complete) → h.Complete)
    (side : ∀ q g h, m.store.hash q = some g → way q (some g) h → h.side = g.side) :
    Keeps m.store st where
  hashesOnly := sound.hashesOnly.of_writes writes
  complete := writes.all (fun q h => complete q _ h) sound.complete
  side q g stored := by
    rcases writes.hash q with same | ⟨h, written, how⟩
    · exact ⟨g, same.trans stored, rfl⟩
    · rw [stored] at how
      exact ⟨h, written, side q g h stored how⟩

theorem Sound.withStore {st : Store} (sound : m.Sound) (keeps : Keeps m.store st) :
    Sound { m with store := st } where
  hashesOnly := keeps.hashesOnly
  complete := keeps.complete
  queued item member := by
    obtain ⟨reads, g, stored, side⟩ := sound.queued item member
    obtain ⟨h, later, same⟩ := keeps.side _ g stored
    exact ⟨reads, h, later, same.trans side⟩
  rows q row isRow := by
    obtain ⟨g, stored, side⟩ := sound.rows q row isRow
    obtain ⟨h, later, same⟩ := keeps.side q g stored
    exact ⟨h, later, same.trans side⟩
  mirrors := sound.mirrors

theorem Sound.publish (sound : m.Sound) {statusOverride : Option PositionStatus}
    (accurate : ∀ h ∈ m.store.hash p, statusOverride = none ∨ statusOverride = h.status) :
    (m.publish p statusOverride).Sound := by
  unfold PositionMirror.publish
  split
  next h e read published =>
    obtain ⟨sameId, reads⟩ := (sound.complete p h read).reads read (accurate h read) published
    refine { sound with queued := fun item member => ?_ }
    rcases List.mem_append.mp member with earlier | new
    · exact sound.queued item earlier
    · cases List.mem_singleton.mp new
      exact ⟨reads, h, sameId ▸ read, rfl⟩
  next => exact sound

theorem publish_store (statusOverride : Option PositionStatus) :
    (m.publish p statusOverride).store = m.store := by
  unfold publish
  split <;> rfl

/-- The row written last has the side of its hash: rows never change sides,
and neither do hashes. -/
theorem Sound.deliver {symbols : Finset Symbol} {after : PositionMirror} (sound : m.Sound)
    (keeps : m.KeepsMirror symbols .deliver) (taken : m.deliver symbols = some after) :
    after.Sound := by
  unfold PositionMirror.deliver at taken
  split at taken
  next => cases taken
  next h e queue isQueue =>
    have member : (h, e) ∈ m.queue := by rw [isQueue]; exact List.mem_cons_self
    have isHead : (h, e) ∈ m.queue.head? := by rw [isQueue]; rfl
    obtain ⟨known, percent⟩ := keeps (h, e) isHead
    obtain ⟨reads, now, stored, sameSide⟩ := sound.queued (h, e) member
    have sides : ∀ r ∈ m.rows e.positionId, h.side = some r.side := by
      intro r isRow
      obtain ⟨other, again, rowSide⟩ := sound.rows e.positionId r isRow
      cases Option.some.inj (stored.symm.trans again)
      exact sameSide.symm.trans rowSide
    obtain ⟨row, written, agrees⟩ : ∃ r, syncPositionToDatabase symbols (m.rows e.positionId) e =
        .ok r ∧ r.Agrees h := syncPositionToDatabase_agrees known percent reads sides
    dsimp only at taken
    rw [written] at taken
    cases taken
    constructor
    · exact sound.hashesOnly
    · exact sound.complete
    · intro item later
      exact sound.queued item (isQueue ▸ List.mem_cons_of_mem _ later)
    · intro q r isRow
      change Function.update m.rows e.positionId (some row) q = some r at isRow
      by_cases same : q = e.positionId
      · subst same
        rw [Function.update_self] at isRow
        cases isRow
        exact ⟨now, stored, sameSide.trans agrees.side⟩
      · rw [Function.update_of_ne same] at isRow
        exact sound.rows q r isRow
    · intro q g isSynced
      change Function.update m.synced e.positionId (some h) q = some g at isSynced
      change ∃ r ∈ Function.update m.rows e.positionId (some row) q, r.Agrees g
      by_cases same : q = e.positionId
      · subst same
        rw [Function.update_self] at isSynced
        cases isSynced
        exact ⟨row, Function.update_self .., agrees⟩
      · rw [Function.update_of_ne same] at isSynced
        obtain ⟨r, isRow, rowAgrees⟩ := sound.mirrors q g isSynced
        exact ⟨r, (Function.update_of_ne same ..).trans isRow, rowAgrees⟩

theorem Sound.publishAfter {ε α : Type} {outcome : ScriptOutcome ε α}
    {statusOverride : Option PositionStatus} (sound : m.Sound)
    (keeps : Keeps m.store outcome.store)
    (accurate : ∀ st result, outcome = .success st result → ∀ h ∈ st.hash p,
      statusOverride = none ∨ statusOverride = h.status) :
    (m.publishAfter outcome p statusOverride).Sound := by
  unfold PositionMirror.publishAfter
  have moved := sound.withStore keeps
  cases outcome with
  | success st result => exact moved.publish (accurate st result rfl)
  | error st e => exact moved
  | raised st => exact moved

theorem Sound.keeps_close (sound : m.Sound) (args : CloseArgs) :
    Keeps m.store (atomicClosePosition m.store args).store :=
  sound.keeps_of_writes (atomicClosePosition_writes m.store args)
    (fun _ _ _ how before => how.complete before) fun _ _ _ _ how => how.side_eq

/-- A close of the whole position leaves its hash in the full-close status. -/
theorem status_of_full_close {st after : Store} {args : CloseArgs} {result : CloseResult}
    (closed : atomicClosePosition st args = .success after result)
    (full : ∀ h ∈ st.hash args.positionId, h.status = some .OPEN →
      args.closeSize = 0 ∨ h.size.getD 0 ≤ args.closeSize) :
    ∀ h ∈ after.hash args.positionId, some args.fullCloseStatus = h.status := by
  obtain ⟨g, stored, isOpen, -, ⟨-, symbol, -, rfl⟩ | ⟨part, -⟩⟩ := atomicClosePosition_success closed
  · intro h read
    rw [Store.hash_unindex, Store.hash_hset_self] at read
    cases read
    rfl
  · have whole : args.actualCloseSize (g.size.getD 0) = g.size.getD 0 :=
      if_pos (full g stored isOpen)
    exact absurd whole part.ne

theorem Sound.publishFill {result : FillResult} (sound : m.Sound)
    (closed : ∀ q, result.closedPositionId = some q →
      ∃ h, m.store.hash q = some h ∧ h.status = some .CLOSED) : (m.publishFill result).Sound := by
  have unpublished (m : PositionMirror) (sound : m.Sound) : Sound (match result.positionId with
      | some p => m.publish p none
      | none => m) := by
    split
    next => exact sound.publish fun _ _ => .inl rfl
    next => exact sound
  unfold PositionMirror.publishFill
  apply unpublished
  split
  next q closedId =>
    obtain ⟨g, stored, isClosed⟩ := closed q closedId
    refine sound.publish fun h read => .inr ?_
    cases Option.some.inj (stored.symm.trans read)
    exact isClosed.symm
  next => exact sound

theorem Sound.keeps_fill {args : FillArgs} (existing old : List PositionId) (sound : m.Sound)
    (fresh : m.store.hash args.positionUuid = none) :
    Keeps m.store (atomicFillOrder m.store args existing old).store := by
  rcases atomicFillOrder_writes existing old sound.hashesOnly fresh with
    same | ⟨order, el, accepted, writes⟩
  · rw [same]
    exact ⟨sound.hashesOnly, sound.complete, fun _ g stored => ⟨g, stored, rfl⟩⟩
  · exact sound.keeps_of_writes writes (fun _ _ _ how before => how.complete before)
      fun _ _ _ _ how => how.side_eq

theorem Sound.fill {args : FillArgs} {existing old : List PositionId} (sound : m.Sound)
    (fresh : m.store.hash args.positionUuid = none) (ids : List PositionId) :
    (m.fill args existing old ids).Sound := by
  have keeps := sound.keeps_fill existing old fresh
  unfold PositionMirror.fill
  split <;> rename_i outcome <;> rw [outcome] at keeps <;> have moved := sound.withStore keeps
  next st result =>
    exact moved.publishFill fun q closedId =>
      atomicFillOrder_closed sound.hashesOnly fresh outcome closedId
  next st =>
    split
    next => exact moved.publish fun _ _ => .inl rfl
    next => exact moved
  next => exact moved
  next => exact moved

theorem Sound.step {symbols : Finset Symbol} {action : MirrorAction} {after : PositionMirror}
    (sound : m.Sound) (keeps : m.KeepsMirror symbols action)
    (taken : m.step symbols action = some after) : after.Sound := by
  cases action with
  | placeOrder o order =>
    cases taken
    exact sound.withStore ⟨sound.hashesOnly, sound.complete, fun _ g stored => ⟨g, stored, rfl⟩⟩
  | fill args existing old ids =>
    simp only [PositionMirror.step] at taken
    split_ifs at taken with enabled
    cases taken
    exact sound.fill enabled.1 ids
  | close userId args =>
    simp only [PositionMirror.step] at taken
    split_ifs at taken with owned
    · cases taken
      obtain ⟨g, _, _, _, _, notLiquidated⟩ := owned
      refine sound.publishAfter (sound.keeps_close args) fun st result closed h read => .inr ?_
      have status := status_of_full_close closed keeps h read
      rwa [CloseArgs.fullCloseStatus, notLiquidated] at status
    · cases taken
      exact sound
  | closeAll p exitPrice liquidated timestampMs =>
    cases taken
    refine sound.publishAfter (sound.keeps_close _) fun st result closed h read => .inr ?_
    exact status_of_full_close closed (fun _ _ _ => .inl rfl) h read
  | trigger p exitPrice timestampMs =>
    cases taken
    refine sound.publishAfter (sound.keeps_close _) fun st result closed h read => .inr ?_
    exact status_of_full_close closed (fun _ _ _ => .inl rfl) h read
  | reopen p timestampMs =>
    cases taken
    refine sound.publishAfter (sound.keeps_of_writes
      (atomicReopenPosition_writes m.store p timestampMs)
      (fun _ _ _ how before => how.complete before) fun _ _ _ _ how => how.side_eq) ?_
    intro st result reopened h read
    obtain ⟨g, stored, isOpen⟩ := atomicReopenPosition_opens reopened
    cases Option.some.inj (stored.symm.trans read)
    exact .inr isOpen.symm
  | reopenWithParams p timestampMs params =>
    cases taken
    refine sound.publishAfter (sound.keeps_of_writes
      (atomicReopenPositionWithParams_writes m.store p timestampMs params)
      (fun _ _ _ how before => how.complete before) fun q g h stored how => ?_) ?_
    · refine how.side_eq (sound.complete q g stored) ?_
      cases how
      exact keeps g stored
    · intro st result reopened h read
      obtain ⟨g, stored, isOpen⟩ := atomicReopenPositionWithParams_opens reopened
      cases Option.some.inj (stored.symm.trans read)
      exact .inr isOpen.symm
  | updateParams p timestampMs params =>
    cases taken
    refine sound.publishAfter (sound.keeps_of_writes
      (atomicUpdatePositionParams_writes m.store p timestampMs params)
      (fun _ _ _ how before => how.complete before) fun _ _ _ _ how => how.side_eq) ?_
    exact fun _ _ _ _ _ => .inl rfl
  | deliver => exact sound.deliver keeps taken

theorem sound_start : start.Sound where
  hashesOnly _ := rfl
  complete p h read := by cases read
  queued item member := by cases member
  rows p row isRow := by cases isRow
  mirrors p h isSynced := by cases isSynced

def mirroredOrder (o : OrderId) (side : Side) (size : ℚ) : Order :=
  { id := o, userId := 7, symbol := "EURUSD", side := side, orderType := .MARKET, size := size
    stopLoss := .absent, takeProfit := .absent, accountType := some "netting" }

/-- A buy of 2, mirrored, and a close command for half of it. -/
def halfClosedActions : List MirrorAction :=
  [.placeOrder 1 (mirroredOrder 1 .BUY 2),
   .fill ⟨1, 10, 2, 1000, .uuid 1, some 100⟩ [] [] [],
   .deliver,
   .close 7 { positionId := .uuid 1, exitPrice := 12, closeSize := 1, timestampMs := 2000 },
   .deliver]

/-- A buy, a second one merged into it, a netting sell, and new parameters,
each delivered. -/
def mirroredActions : List MirrorAction :=
  [.placeOrder 1 (mirroredOrder 1 .BUY 2),
   .fill ⟨1, 10, 2, 1000, .uuid 1, some 100⟩ [] [] [],
   .placeOrder 2 (mirroredOrder 2 .BUY 1),
   .fill ⟨2, 13, 1, 2000, .uuid 2, some 100⟩ [.uuid 1] [] [.uuid 1],
   .deliver,
   .deliver,
   .placeOrder 3 (mirroredOrder 3 .SELL 1),
   .fill ⟨3, 12, 1, 3000, .uuid 3, some 100⟩ [.uuid 1] [] [.uuid 1],
   .updateParams (.uuid 1) 4000 { entryPrice := some 9 },
   .deliver,
   .deliver]

end PositionMirror

end TradingPlatform
