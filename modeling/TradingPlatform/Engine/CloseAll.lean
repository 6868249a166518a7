import TradingPlatform.Engine.HashWrites
import TradingPlatform.Engine.OrderCache

namespace TradingPlatform

/-- The payload of `cmd.position.close_all`. -/
structure CloseAllRequest where
  userId : UserId
  reason : Option String
  deriving DecidableEq, Repr

/-- `reason.eq_ignore_ascii_case("liquidated")`, where no reason is `stop_out`. -/
def CloseAllRequest.isLiquidation (request : CloseAllRequest) : Bool :=
  (request.reason.getD "stop_out").toList.map Char.toLower = "liquidated".toList

/-- The status that the request's positions are to end in. -/
def CloseAllRequest.finalStatus (request : CloseAllRequest) : PositionStatus :=
  if request.isLiquidation then .LIQUIDATED else .CLOSED

/-- A request without a reason is a stop-out. -/
theorem finalStatus_stopOut (userId : UserId) :
    CloseAllRequest.finalStatus ⟨userId, none⟩ = .CLOSED := by
  have differ : ¬ "stop_out".toList.map Char.toLower = "liquidated".toList := by decide
  simp [CloseAllRequest.finalStatus, CloseAllRequest.isLiquidation, differ]

/-- The tick of the position's group, or else the one of its symbol. -/
def OrderCache.closingTick (cache : OrderCache) (symbol : Symbol) (groupId : Option GroupId) :
    Option Tick :=
  (cache.getLastTick symbol groupId).orElse fun _ => cache.getLastTick symbol none

section Handler
variable (cache : OrderCache) (clock : PositionId → Millis) (request : CloseAllRequest)

/-- One round of the loop of `handle_close_all_positions`. -/
def closeAllRound (st : Store) (p : PositionId) : Store :=
  match p, st.hash p with
  | .uuid _, some h =>
    if h.status ≠ some .OPEN then st
    else
      match h.symbol, h.side with
      | some symbol, some side =>
        match cache.closingTick symbol h.groupId with
        | none => st
        | some tick => (atomicClosePosition st
            { positionId := p
              exitPrice := match side with
                | .LONG => tick.bid
                | .SHORT => tick.ask
              closeSize := 0
              timestampMs := clock p
              liquidated := request.isLiquidation }).store
      | _, _ => st
  | _, _ => st

/-- `handle_close_all_positions` for a listing of the user's positions. -/
def handleCloseAllPositions (reply : List PositionId) (st : Store) : Store :=
  reply.foldl (closeAllRound cache clock request) st

end Handler

/-- An open position that a close of all can close. -/
structure PositionHash.Closable (cache : OrderCache) (p : PositionId) (h : PositionHash) : Prop where
  id : ∃ n, p = .uuid n
  side : ∃ side, h.side = some side
  tick : ∃ symbol, h.symbol = some symbol ∧ ∃ tick, cache.closingTick symbol h.groupId = some tick

section Rounds
variable {cache : OrderCache} {clock : PositionId → Millis} {request : CloseAllRequest}
  {st : Store} {p q : PositionId} {h : PositionHash}

/-- The script writes no hash but its own. -/
theorem hash_atomicClosePosition_ne (args : CloseArgs) (differ : q ≠ args.positionId) :
    (atomicClosePosition st args).store.hash q = st.hash q := by
  rcases (atomicClosePosition_writes st args).hash q with same | ⟨g, written, how⟩
  · exact same
  · generalize st.hash q = stored at how
    cases how with
    | full g _ => exact absurd rfl differ
    | part g _ _ => exact absurd rfl differ

theorem hash_closeAllRound_ne (differ : q ≠ p) :
    (closeAllRound cache clock request st p).hash q = st.hash q := by
  unfold closeAllRound
  split
  next =>
    split_ifs
    · rfl
    · split
      next =>
        split
        next => rfl
        next => exact hash_atomicClosePosition_ne _ differ
      next => rfl
  next => rfl

/-- Closing the whole position leaves it in the full-close status. -/
theorem hash_atomicClosePosition_whole {args : CloseArgs} (whole : args.closeSize = 0)
    (stored : st.hash args.positionId = some h) (isOpen : h.status = some .OPEN) :
    (atomicClosePosition st args).store.hash args.positionId = some (args.fullHash h) := by
  have actual : args.actualCloseSize (h.size.getD 0) = h.size.getD 0 := by
    rw [CloseArgs.actualCloseSize, if_pos (.inl whole)]
  unfold atomicClosePosition
  simp only [stored, isOpen, actual, ne_eq, not_true_eq_false, if_false, lt_self_iff_false,
    le_refl, if_true]
  split
  next => rw [ScriptOutcome.store, Store.hash_hset_self, stored, Option.getD_some]
  next =>
    rw [ScriptOutcome.store, Store.hash_unindex, Store.hash_hset_self, stored, Option.getD_some]

theorem hash_closeAllRound_self (stored : st.hash p = some h) (isOpen : h.status = some .OPEN)
    (closable : h.Closable cache p) :
    ∃ g, (closeAllRound cache clock request st p).hash p = some g ∧
      g.status = some request.finalStatus := by
  obtain ⟨n, rfl⟩ := closable.id
  obtain ⟨side, hasSide⟩ := closable.side
  obtain ⟨symbol, hasSymbol, tick, hasTick⟩ := closable.tick
  unfold closeAllRound
  simp only [stored, isOpen, hasSide, hasSymbol, hasTick, ne_eq, not_true_eq_false, if_false]
  refine ⟨_, hash_atomicClosePosition_whole rfl stored isOpen, ?_⟩
  simp [CloseArgs.fullHash, CloseArgs.fullCloseStatus, CloseAllRequest.finalStatus]

theorem hash_handleCloseAllPositions_ne {reply : List PositionId} (unlisted : q ∉ reply) :
    (handleCloseAllPositions cache clock request reply st).hash q = st.hash q := by
  unfold handleCloseAllPositions
  induction reply generalizing st with
  | nil => rfl
  | cons p rest ih =>
    obtain ⟨differ, later⟩ := not_or.mp (List.mem_cons.not.mp unlisted)
    rw [List.foldl_cons, ih later, hash_closeAllRound_ne differ]

/-- Every listed position that is open and closable ends in the final status. -/
theorem handleCloseAllPositions_closes {reply : List PositionId} (once : reply.Nodup)
    (listed : p ∈ reply) (stored : st.hash p = some h) (isOpen : h.status = some .OPEN)
    (closable : h.Closable cache p) :
    ∃ g, (handleCloseAllPositions cache clock request reply st).hash p = some g ∧
      g.status = some request.finalStatus := by
  induction reply generalizing st with
  | nil => cases listed
  | cons first rest ih =>
    obtain ⟨notLater, onceLater⟩ := List.nodup_cons.mp once
    have step : handleCloseAllPositions cache clock request (first :: rest) st =
      handleCloseAllPositions cache clock request rest
        (closeAllRound cache clock request st first) := rfl
    rw [step]
    by_cases isFirst : p = first
    · subst isFirst
      rw [hash_handleCloseAllPositions_ne notLater]
      exact hash_closeAllRound_self stored isOpen closable
    · have later := (List.mem_cons.mp listed).resolve_left isFirst
      exact ih onceLater later ((hash_closeAllRound_ne isFirst).trans stored)

end Rounds

end TradingPlatform
