import TradingPlatform.Engine.SltpEdits

namespace TradingPlatform

/-- A command of Redis by which the engine and its scripts write. -/
inductive WriteCommand
  | setOrder (o : OrderId) (order : Order)
  | zaddPending (s : Symbol) (o : OrderId)
  | zremPending (s : Symbol) (o : OrderId)
  | hset (p : PositionId) (write : PositionHash → PositionHash)
  | sadd (u : UserId) (p : PositionId)
  | srem (u : UserId) (p : PositionId)
  | zadd (k : PriceIndex) (s : Symbol) (p : PositionId) (x : ℚ)
  | zrem (k : PriceIndex) (s : Symbol) (p : PositionId)

namespace Store

def perform (st : Store) : WriteCommand → Store
  | .setOrder o order => st.setOrder o order
  | .zaddPending s o => st.zaddPending s o
  | .zremPending s o => st.zremPending s o
  | .hset p write => st.hset p write
  | .sadd u p => st.sadd u p
  | .srem u p => st.srem u p
  | .zadd k s p x => st.zadd k s p x
  | .zrem k s p => st.zrem k s p

def performAll (st : Store) (commands : List WriteCommand) : Store := commands.foldl perform st

@[simp] theorem performAll_nil (st : Store) : st.performAll [] = st := rfl

@[simp] theorem performAll_cons (st : Store) (c : WriteCommand) (commands : List WriteCommand) :
    st.performAll (c :: commands) = (st.perform c).performAll commands := rfl

@[simp] theorem performAll_append (st : Store) (first second : List WriteCommand) :
    st.performAll (first ++ second) = (st.performAll first).performAll second :=
  List.foldl_append

/-- An order record is as it was, if no command sets it, or as some SET left it. -/
theorem orders_performAll (st : Store) (commands : List WriteCommand) (o : OrderId) :
    ((∀ order, .setOrder o order ∉ commands) ∧ (st.performAll commands).orders o = st.orders o) ∨
      ∃ order, .setOrder o order ∈ commands ∧ (st.performAll commands).orders o = some order := by
  induction commands generalizing st with
  | nil => exact .inl ⟨fun _ => List.not_mem_nil, rfl⟩
  | cons c rest ih =>
    rw [performAll_cons]
    rcases ih (st.perform c) with ⟨unset, same⟩ | ⟨order, member, read⟩
    · cases c with
      | setOrder r order =>
        have written : (st.setOrder r order).orders o = if o = r then some order else st.orders o :=
          orders_setOrder st r order o
        split at written
        next here =>
          subst here
          exact .inr ⟨order, List.mem_cons_self, same.trans written⟩
        next differ =>
          refine .inl ⟨fun other => ?_, same.trans written⟩
          simp [differ, unset other]
      | zaddPending | zremPending | hset | sadd | srem | zadd | zrem =>
        exact .inl ⟨fun order => by simp [unset order], same⟩
    · exact .inr ⟨order, List.mem_cons_of_mem _ member, read⟩

/-- No command takes a hash away. -/
theorem stored_perform {st : Store} {p : PositionId} (c : WriteCommand)
    (stored : ∃ h, st.hash p = some h) : ∃ h, (st.perform c).hash p = some h := by
  cases c with
  | hset q write =>
    simp only [perform, hash_hset]
    split
    · exact ⟨_, rfl⟩
    · exact stored
  | setOrder | zaddPending | zremPending | sadd | srem | zadd | zrem => exact stored

theorem stored_performAll {st : Store} {p : PositionId} {commands : List WriteCommand}
    (stored : (∃ h, st.hash p = some h) ∨ ∃ write, .hset p write ∈ commands) :
    ∃ h, (st.performAll commands).hash p = some h := by
  induction commands generalizing st with
  | nil =>
    rcases stored with before | ⟨_, member⟩
    · exact before
    · cases member
  | cons c rest ih =>
    refine ih ?_
    rcases stored with before | ⟨write, member⟩
    · exact .inl (stored_perform c before)
    · rcases List.mem_cons.mp member with here | later
      · subst here
        exact .inl ⟨_, hash_hset_self st p write⟩
      · exact .inr ⟨write, later⟩

/-- A user's set gains nothing but what an SADD put in. -/
theorem mem_performAll {st : Store} {commands : List WriteCommand} {u : UserId} {p : PositionId}
    (member : p ∈ (st.performAll commands).userPositions u) :
    p ∈ st.userPositions u ∨ .sadd u p ∈ commands := by
  induction commands generalizing st with
  | nil => exact .inl member
  | cons c rest ih =>
    rcases ih member with before | added
    · cases c with
      | sadd v q =>
        rcases (mem_sadd ..).mp before with ⟨rfl, rfl⟩ | earlier
        · exact .inr List.mem_cons_self
        · exact .inl earlier
      | srem v q => exact .inl ((mem_srem ..).mp before).2
      | setOrder | zaddPending | zremPending | hset | zadd | zrem => exact .inl before
    · exact .inr (List.mem_cons_of_mem _ added)

end Store

section Levels
variable (st : Store) (s : Symbol) (p : PositionId)

/-- The ZADDs of an order's levels, up to the one that raises. -/
def levelCommands (sl tp : JsonNum) : List WriteCommand :=
  let ofTp := match tp with
    | .num y => [WriteCommand.zadd .posTp s p y]
    | _ => []
  match sl with
  | .absent => ofTp
  | .null => []
  | .num x => .zadd .posSl s p x :: ofTp

theorem zaddLevels_commands (sl tp : JsonNum) :
    storeLeft id (st.zaddLevels s p sl tp) = st.performAll (levelCommands s p sl tp) := by
  cases sl <;> cases tp <;> rfl

/-- The ZADDs of a reopened hash's own levels, up to the one that raises. -/
def storedLevelCommands (sl tp : Option LevelText) : List WriteCommand :=
  let ofTp := match tp with
    | some (.num y) => [WriteCommand.zadd .posTp s p y]
    | _ => []
  match sl with
  | some (.num x) => .zadd .posSl s p x :: ofTp
  | some .userdata => []
  | _ => ofTp

theorem zaddStoredLevels_commands (sl tp : Option LevelText) :
    storeLeft id (st.zaddStoredLevels s p sl tp) =
      st.performAll (storedLevelCommands s p sl tp) := by
  rcases sl with - | - | - | x <;> rcases tp with - | - | - | y <;> rfl

def setLevelCommands (k : PriceIndex) (write : LevelText → PositionHash → PositionHash) :
    Option ℚ → List WriteCommand
  | none => []
  | some x => [.hset p (write (.num x)), .zadd k s p x]

def replaceLevelsCommands (sl tp : Option ℚ) : List WriteCommand :=
  [.zrem .posSl s p, .zrem .posTp s p, .hset p fun h => { h with sl := none, tp := none }] ++
    (setLevelCommands s p .posSl (fun level h => { h with sl := some level }) sl ++
      setLevelCommands s p .posTp (fun level h => { h with tp := some level }) tp)

theorem replaceLevels_commands (sl tp : Option ℚ) :
    st.replaceLevels s p sl tp = st.performAll (replaceLevelsCommands s p sl tp) := by
  cases sl <;> cases tp <;> rfl

def unindexCommands : List WriteCommand :=
  [.zrem .posOpen s p, .zrem .posSl s p, .zrem .posTp s p]

theorem unindex_commands : st.unindex s p = st.performAll (unindexCommands s p) := rfl

end Levels

namespace Fill
variable (st : Store) (fill : Fill) (p : PositionId) (h : PositionHash)

def addToCommands : List WriteCommand :=
  .hset p (fill.mergeHash (h.size.getD 0) (h.entryPrice.getD 0) h.leverage) ::
    .zadd .posOpen fill.order.symbol p
      (fill.newEntryPrice (h.size.getD 0) (h.entryPrice.getD 0)) ::
    levelCommands fill.order.symbol p fill.order.stopLoss fill.order.takeProfit

theorem addTo_commands :
    storeLeft Prod.fst (addTo st fill p h) = st.performAll (fill.addToCommands p h) := by
  rw [addTo_left, zaddLevels_commands]
  rfl

def openCommands (size leverage : ℚ) : List WriteCommand :=
  .hset fill.positionUuid (fill.openHash size leverage) ::
    .sadd fill.order.userId fill.positionUuid ::
    .zadd .posOpen fill.order.symbol fill.positionUuid fill.fillPrice ::
    levelCommands fill.order.symbol fill.positionUuid fill.order.stopLoss fill.order.takeProfit

theorem openPosition_commands (size leverage : ℚ) :
    storeLeft id (openPosition st fill size leverage) =
      st.performAll (fill.openCommands size leverage) := by
  rw [openPosition_left, zaddLevels_commands]
  rfl

def closeNettedCommands (newRealized : ℚ) : List WriteCommand :=
  .hset p (fill.closedHash newRealized) :: .srem fill.order.userId p ::
    unindexCommands fill.order.symbol p

theorem closeNetted_commands (newRealized : ℚ) :
    closeNetted st fill p newRealized = st.performAll (fill.closeNettedCommands p newRealized) :=
  rfl

/-- The commands of a reduction, of a close, or of a flip. -/
def netAgainstCommands : List WriteCommand :=
  let posSize := h.size.getD 0
  let posEntry := h.entryPrice.getD 0
  let posLeverage := fill.posLevOrFill h.leverage .absent
  let newSize := posSize - fill.fillSize
  let newRealized := h.realizedPnl.getD 0 +
    pnlClose h.side posEntry fill.fillPrice (min posSize fill.fillSize)
  if 0 < newSize then
    [.hset p (fill.reducedHash newSize posEntry posLeverage newRealized),
      .zadd .posOpen fill.order.symbol p posEntry]
  else if newSize = 0 then fill.closeNettedCommands p newRealized
  else fill.closeNettedCommands p newRealized ++ fill.openCommands (-newSize) posLeverage

theorem netAgainst_commands :
    storeLeft Prod.fst (netAgainst st fill p h) = st.performAll (fill.netAgainstCommands p h) := by
  unfold netAgainst netAgainstCommands
  dsimp only
  split_ifs
  · rfl
  · rfl
  · refine (storeLeft_paired _ _).trans ?_
    rw [openPosition_commands, Store.performAll_append, closeNetted_commands]

def commands : Target → List WriteCommand
  | .merge p h => fill.addToCommands p h
  | .net p h => fill.netAgainstCommands p h
  | .fresh => fill.openCommands fill.fillSize fill.effectiveLeverage

theorem applyToPositions_commands {st : Store} (hashes : st.HashesOnly)
    (existing old : List PositionId) :
    storeLeft Prod.fst (applyToPositions st fill existing old) =
      st.performAll (fill.commands (fill.order.target st existing)) := by
  rw [applyToPositions_eq hashes]
  cases fill.order.target st existing with
  | merge p h => exact addTo_commands st fill p h
  | net p h => exact netAgainst_commands st fill p h
  | fresh =>
    refine (storeLeft_paired _ _).trans ?_
    rw [openPosition_commands]
    rfl

end Fill

section Scripts

/-- The commands of a fill that passes its checks: first the order's. -/
def fillCommands (st : Store) (args : FillArgs) (existing : List PositionId) :
    List WriteCommand :=
  match args.effectiveLeverage, st.orders args.orderId with
  | some el, some order =>
    if leverage_pos : 0 < el then
      if order.status = .PENDING ∧ limitPriceMet order args.fillPrice = some true then
        .setOrder args.orderId (order.filled args) :: .zremPending order.symbol args.orderId ::
          (Fill.ofArgs args order el leverage_pos).commands
            ((Fill.ofArgs args order el leverage_pos).order.target st existing)
      else []
    else []
  | _, _ => []

theorem atomicFillOrder_commands {st : Store} (hashes : st.HashesOnly) (args : FillArgs)
    (existing old : List PositionId) :
    (atomicFillOrder st args existing old).store = st.performAll (fillCommands st args existing) := by
  unfold atomicFillOrder fillCommands
  cases args.effectiveLeverage with
  | none => rfl
  | some el =>
    cases st.orders args.orderId with
    | none => dsimp only; split <;> rfl
    | some order =>
      dsimp only
      split
      next leverage_pos =>
        have marked : (st.markFilled args order).HashesOnly := hashes
        have applied := (Fill.ofArgs args order el leverage_pos).applyToPositions_commands marked
          existing old
        by_cases pending : order.status = .PENDING
        · rw [if_neg (not_not.mpr pending)]
          cases met : limitPriceMet order args.fillPrice with
          | none => simp [ScriptOutcome.store]
          | some isMet =>
            cases isMet with
            | false => simp [ScriptOutcome.store]
            | true =>
              rw [if_pos ⟨pending, rfl⟩]
              refine Eq.trans ?_ applied
              dsimp only
              split <;> rename_i outcome <;> rw [outcome] <;> rfl
        · rw [if_pos pending, if_neg fun both => pending both.1]
          rfl
      next => rfl

def closeCommands (args : CloseArgs) : Option PositionHash → List WriteCommand
  | none => []
  | some h =>
    if h.status ≠ some .OPEN then []
    else if h.size.getD 0 ≤ args.actualCloseSize (h.size.getD 0) then
      .hset args.positionId args.fullHash ::
        h.symbol.elim [] fun symbol => unindexCommands symbol args.positionId
    else [.hset args.positionId args.partialHash]

theorem atomicClosePosition_commands (st : Store) (args : CloseArgs) :
    (atomicClosePosition st args).store =
      st.performAll (closeCommands args (st.hash args.positionId)) := by
  unfold atomicClosePosition
  dsimp only
  cases st.hash args.positionId with
  | none => rfl
  | some h =>
    have bounded := args.actualCloseSize_le (h.size.getD 0)
    simp only [closeCommands, not_lt.mpr bounded, if_false]
    split_ifs
    · rfl
    · cases h.symbol <;> rfl
    · rfl

def reopenCommands (p : PositionId) (timestampMs : Millis) :
    Option PositionHash → List WriteCommand
  | none => []
  | some h =>
    if ¬ ∃ status ∈ h.status, status.Closed then []
    else if h.restoreSize = 0 then []
    else
      match h.symbol, h.userId with
      | some symbol, some _ =>
        .hset p (·.reopened timestampMs) :: .zadd .posOpen symbol p (h.entryPrice.getD 0) ::
          storedLevelCommands symbol p h.sl h.tp
      | _, _ => []

theorem atomicReopenPosition_commands (st : Store) (p : PositionId) (timestampMs : Millis) :
    (atomicReopenPosition st p timestampMs).store =
      st.performAll (reopenCommands p timestampMs (st.hash p)) := by
  unfold atomicReopenPosition reopenCommands
  cases st.hash p with
  | none => rfl
  | some h =>
    dsimp only
    split_ifs
    · rfl
    · cases h.symbol with
      | none => rfl
      | some symbol =>
        cases h.userId with
        | none => rfl
        | some u =>
          dsimp only
          rw [Store.performAll_cons, Store.performAll_cons, ← zaddStoredLevels_commands]
          simp only [Store.perform]
          split <;> rename_i outcome <;> rw [outcome] <;> rfl
    · rfl

def reopenWithParamsCommands (p : PositionId) (timestampMs : Millis) (params : ParamOverrides) :
    Option PositionHash → List WriteCommand
  | none => []
  | some h =>
    if ¬ ∃ status ∈ h.status, status.Closed then []
    else if positiveOr params.size h.restoreSize = 0 then []
    else
      match h.symbol, h.userId with
      | some symbol, some _ =>
        .hset p (·.reopenedWith timestampMs params) ::
          (replaceLevelsCommands symbol p params.sl params.tp ++
            [.zadd .posOpen symbol p (positiveOr params.entryPrice (h.entryPrice.getD 0))])
      | _, _ => []

theorem atomicReopenPositionWithParams_commands (st : Store) (p : PositionId)
    (timestampMs : Millis) (params : ParamOverrides) :
    (atomicReopenPositionWithParams st p timestampMs params).store =
      st.performAll (reopenWithParamsCommands p timestampMs params (st.hash p)) := by
  unfold atomicReopenPositionWithParams reopenWithParamsCommands
  cases st.hash p with
  | none => rfl
  | some h =>
    dsimp only
    split_ifs
    · rfl
    · cases h.symbol with
      | none => rfl
      | some symbol =>
        cases h.userId with
        | none => rfl
        | some u =>
          simp only [Store.performAll_cons, Store.performAll_append, Store.perform,
            ← replaceLevels_commands]
          rfl
    · rfl

def updateParamsCommands (p : PositionId) (timestampMs : Millis) (params : ParamOverrides) :
    Option PositionHash → List WriteCommand
  | none => []
  | some h =>
    if h.status ≠ some .OPEN then []
    else
      match h.symbol, h.userId with
      | some symbol, some _ =>
        let newSize := positiveOr params.size (h.size.getD 0)
        let newEntry := positiveOr params.entryPrice h.entryOrAvg
        .hset p (·.resized timestampMs newSize newEntry) ::
          match h.leverage.filter (0 < ·) with
          | none => []
          | some leverage =>
            .hset p (fun h => { h with margin := some (newSize * newEntry / leverage) }) ::
              (replaceLevelsCommands symbol p params.sl params.tp ++
                [.zadd .posOpen symbol p newEntry])
      | _, _ => []

theorem atomicUpdatePositionParams_commands (st : Store) (p : PositionId) (timestampMs : Millis)
    (params : ParamOverrides) :
    (atomicUpdatePositionParams st p timestampMs params).store =
      st.performAll (updateParamsCommands p timestampMs params (st.hash p)) := by
  unfold atomicUpdatePositionParams updateParamsCommands
  cases st.hash p with
  | none => rfl
  | some h =>
    dsimp only
    split_ifs
    · rfl
    · cases h.symbol with
      | none => rfl
      | some symbol =>
        cases h.userId with
        | none => rfl
        | some u =>
          dsimp only
          cases h.leverage.filter (0 < ·) with
          | none => rfl
          | some leverage =>
            simp only [Store.performAll_cons, Store.performAll_append, Store.perform,
              ← replaceLevels_commands]
            rfl

def cancelCommands (o : OrderId) (timestampMs : Millis) : Option Order → List WriteCommand
  | none => []
  | some order =>
    if order.status ≠ .PENDING then []
    else [.setOrder o (order.canceled timestampMs), .zremPending order.symbol o]

theorem atomicCancelOrder_commands (st : Store) (o : OrderId) (timestampMs : Millis) :
    (atomicCancelOrder st o timestampMs).2 =
      st.performAll (cancelCommands o timestampMs (st.orders o)) := by
  unfold atomicCancelOrder cancelCommands
  cases st.orders o with
  | none => rfl
  | some order => dsimp only; split_ifs <;> rfl

/-- The write commands of a call. -/
def Store.commands (st : Store) : ScriptCall → List WriteCommand
  | .placeOrder o order => [.setOrder o order]
  | .atomicFillOrder args existing _ => fillCommands st args existing
  | .atomicCancelOrder o timestampMs => cancelCommands o timestampMs (st.orders o)
  | .atomicClosePosition args => closeCommands args (st.hash args.positionId)
  | .atomicReopenPosition p timestampMs => reopenCommands p timestampMs (st.hash p)
  | .atomicReopenPositionWithParams p timestampMs params =>
    reopenWithParamsCommands p timestampMs params (st.hash p)
  | .atomicUpdatePositionParams p timestampMs params =>
    updateParamsCommands p timestampMs params (st.hash p)

/-- A call does nothing but send its commands. -/
theorem Store.call_commands {st after : Store} {call : ScriptCall} (hashes : st.HashesOnly)
    (taken : st.call call = some after) : after = st.performAll (st.commands call) := by
  cases call with
  | placeOrder o order => cases taken; rfl
  | atomicFillOrder args existing old =>
    simp only [Store.call] at taken
    split_ifs at taken
    cases taken
    exact atomicFillOrder_commands hashes args existing old
  | atomicCancelOrder o timestampMs =>
    cases taken
    exact atomicCancelOrder_commands st o timestampMs
  | atomicClosePosition args =>
    cases taken
    exact atomicClosePosition_commands st args
  | atomicReopenPosition p timestampMs =>
    cases taken
    exact atomicReopenPosition_commands st p timestampMs
  | atomicReopenPositionWithParams p timestampMs params =>
    cases taken
    exact atomicReopenPositionWithParams_commands st p timestampMs params
  | atomicUpdatePositionParams p timestampMs params =>
    cases taken
    exact atomicUpdatePositionParams_commands st p timestampMs params

end Scripts

end TradingPlatform
