import TradingPlatform.Wallet.SwapEngine

namespace TradingPlatform

open StepRuns HalfAway

namespace SwapTables

/-- The transaction that an execution is in. -/
def transactionOf (s : SwapTables) (e : ℕ) : Option (SwapCharge × SwapStage) :=
  (s.ticks e).bind (·.transaction)

/-- What holds of the log and its index in every run. -/
structure Sound (s : SwapTables) : Prop where
  daily : (s.log.map (·.key)).Nodup
  ids : (s.positions.map (·.id)).Nodup
  foreign : ∀ c ∈ s.log, ∃ p ∈ s.positions, p.id = c.positionId
  committing : ∀ e charge locked, s.transactionOf e = some (charge, .commit locked) →
    s.keyLock charge.key = some e ∧ charge.key ∉ s.log.map (·.key) ∧
      ∃ p ∈ s.positions, p.id = charge.positionId

/-- The UPDATE of the transaction has found the position, and its lock keeps the
sum in force. -/
def Pending (s : SwapTables) (e : ℕ) (charge : SwapCharge) (locked : Option ℚ) : Prop :=
  s.rowLock charge.positionId = some e ∧ ∃ p ∈ s.positions, p.id = charge.positionId ∧
    locked = some (p.accumulatedSwapUsd + numeric charge.amountUsd)

structure Exact (s : SwapTables) : Prop where
  same : ∀ p ∈ s.positions, p.accumulatedSwapUsd = s.logged p.id
  onScale : ∀ p ∈ s.positions, OnScale numericScale p.accumulatedSwapUsd
  inserting : ∀ e charge locked, s.transactionOf e = some (charge, .insert locked) →
    s.Pending e charge locked
  committing : ∀ e charge locked, s.transactionOf e = some (charge, .commit locked) →
    s.Pending e charge locked

structure Kept (s : SwapTables) : Prop where
  sound : s.Sound
  agrees : s.Exact

section Views
variable {s : SwapTables} {e : ℕ} {tick : SwapTick} {charge : SwapCharge}

theorem transactionOf_setTick : (s.setTick e tick).transactionOf =
    Function.update s.transactionOf e tick.transaction := by
  funext e'
  by_cases same : e' = e
  · subst same
    simp [transactionOf, setTick]
  · simp [transactionOf, setTick, same]

theorem transactionOf_inStage {stage : SwapStage} : (s.inStage e tick charge stage).transactionOf =
    Function.update s.transactionOf e (some (charge, stage)) :=
  transactionOf_setTick

theorem transactionOf_release : (s.release e tick).transactionOf =
    Function.update s.transactionOf e none :=
  transactionOf_setTick (s := s)

theorem transactionOf_of_tick {stage : SwapStage} (running : s.ticks e = some tick)
    (inside : tick.transaction = some (charge, stage)) :
    s.transactionOf e = some (charge, stage) := by
  rw [transactionOf, running, Option.bind_some, inside]

end Views

section Frames
variable {s after : SwapTables} {e : ℕ} {transaction : Option (SwapCharge × SwapStage)}

/-- One execution has moved on, and the tables are as they were. -/
structure MovesOn (s after : SwapTables) (e : ℕ)
    (transaction : Option (SwapCharge × SwapStage)) : Prop where
  positions : after.positions = s.positions
  log : after.log = s.log
  transactionOf : after.transactionOf = Function.update s.transactionOf e transaction
  rowLock : ∀ id e', e' ≠ e → s.rowLock id = some e' → after.rowLock id = some e'
  keyLock : ∀ key e', e' ≠ e → s.keyLock key = some e' → after.keyLock key = some e'

theorem MovesOn.other (moves : MovesOn s after e transaction) {e' : ℕ} (differ : e' ≠ e) :
    after.transactionOf e' = s.transactionOf e' := by
  rw [moves.transactionOf, Function.update_of_ne differ]

theorem MovesOn.self (moves : MovesOn s after e transaction) :
    after.transactionOf e = transaction := by
  rw [moves.transactionOf, Function.update_self]

theorem Sound.movesOn (sound : s.Sound) (moves : MovesOn s after e transaction)
    (committing : ∀ charge locked, transaction = some (charge, .commit locked) →
      after.keyLock charge.key = some e ∧ charge.key ∉ s.log.map (·.key) ∧
        ∃ p ∈ s.positions, p.id = charge.positionId) : after.Sound where
  daily := by
    rw [moves.log]
    exact sound.daily
  ids := by
    rw [moves.positions]
    exact sound.ids
  foreign := by
    rw [moves.log, moves.positions]
    exact sound.foreign
  committing e' charge locked inCommit := by
    rw [moves.log, moves.positions]
    by_cases same : e' = e
    · subst same
      exact committing charge locked (moves.self ▸ inCommit)
    · rw [moves.other same] at inCommit
      obtain ⟨lock, fresh, known⟩ := sound.committing e' charge locked inCommit
      exact ⟨moves.keyLock _ e' same lock, fresh, known⟩

theorem Pending.movesOn {e' : ℕ} {charge : SwapCharge} {locked : Option ℚ}
    (pending : s.Pending e' charge locked) (moves : MovesOn s after e transaction)
    (differ : e' ≠ e) : after.Pending e' charge locked := by
  obtain ⟨lock, known⟩ := pending
  exact ⟨moves.rowLock _ e' differ lock, moves.positions ▸ known⟩

theorem Exact.movesOn (agrees : s.Exact) (moves : MovesOn s after e transaction)
    (inserting : ∀ charge locked, transaction = some (charge, .insert locked) →
      after.Pending e charge locked)
    (committing : ∀ charge locked, transaction = some (charge, .commit locked) →
      after.Pending e charge locked) : after.Exact where
  same := by
    unfold logged
    rw [moves.log, moves.positions]
    exact agrees.same
  onScale := by
    rw [moves.positions]
    exact agrees.onScale
  inserting e' charge locked inInsert := by
    by_cases same : e' = e
    · subst same
      exact inserting charge locked (moves.self ▸ inInsert)
    · rw [moves.other same] at inInsert
      exact (agrees.inserting e' charge locked inInsert).movesOn moves same
  committing e' charge locked inCommit := by
    by_cases same : e' = e
    · subst same
      exact committing charge locked (moves.self ▸ inCommit)
    · rw [moves.other same] at inCommit
      exact (agrees.committing e' charge locked inCommit).movesOn moves same

variable {tick : SwapTick} {charge : SwapCharge} {stage : SwapStage}

theorem movesOn_setTick : MovesOn s (s.setTick e tick) e tick.transaction :=
  ⟨rfl, rfl, transactionOf_setTick, fun _ _ _ lock => lock, fun _ _ _ lock => lock⟩

theorem movesOn_inStage : MovesOn s (s.inStage e tick charge stage) e (some (charge, stage)) :=
  movesOn_setTick

theorem movesOn_release : MovesOn s (s.release e tick) e none where
  positions := rfl
  log := rfl
  transactionOf := transactionOf_release
  rowLock id e' differ lock := by
    simp [release, lock, differ]
  keyLock key e' differ lock := by
    simp [release, lock, differ]

/-- The positions have changed, and not in what has accrued on them. -/
structure Repositions (s after : SwapTables) : Prop where
  log : after.log = s.log
  ids : (after.positions.map (·.id)).Nodup
  transactionOf : after.transactionOf = s.transactionOf
  rowLock : after.rowLock = s.rowLock
  keyLock : after.keyLock = s.keyLock
  kept : ∀ p ∈ s.positions, ∃ q ∈ after.positions,
    q.id = p.id ∧ q.accumulatedSwapUsd = p.accumulatedSwapUsd
  known : ∀ q ∈ after.positions,
    (∃ p ∈ s.positions, p.id = q.id ∧ p.accumulatedSwapUsd = q.accumulatedSwapUsd) ∨
    q.accumulatedSwapUsd = 0 ∧ ∀ p ∈ s.positions, p.id ≠ q.id

theorem Repositions.exists_id (repositions : Repositions s after) {id : PositionId}
    (known : ∃ p ∈ s.positions, p.id = id) : ∃ q ∈ after.positions, q.id = id := by
  obtain ⟨p, isRow, rfl⟩ := known
  obtain ⟨q, isRow', same, -⟩ := repositions.kept p isRow
  exact ⟨q, isRow', same⟩

theorem Sound.repositions (sound : s.Sound) (repositions : Repositions s after) : after.Sound where
  daily := repositions.log ▸ sound.daily
  ids := repositions.ids
  foreign c logged := repositions.exists_id (sound.foreign c (repositions.log ▸ logged))
  committing e charge locked inCommit := by
    rw [repositions.transactionOf] at inCommit
    obtain ⟨lock, fresh, known⟩ := sound.committing e charge locked inCommit
    exact ⟨repositions.keyLock ▸ lock, repositions.log ▸ fresh, repositions.exists_id known⟩

/-- A position that nothing is logged for. -/
theorem logged_eq_zero {id : PositionId} (sound : s.Sound) (fresh : ∀ p ∈ s.positions, p.id ≠ id) :
    s.logged id = 0 := by
  have none : (s.log.filter fun c => c.positionId = id) = [] := by
    rw [List.filter_eq_nil_iff]
    intro c known isFor
    obtain ⟨p, isRow, same⟩ := sound.foreign c known
    exact fresh p isRow (same.trans (of_decide_eq_true isFor))
  rw [logged, none, List.map_nil, List.sum_nil]

theorem Pending.repositions {locked : Option ℚ} (pending : s.Pending e charge locked)
    (repositions : Repositions s after) : after.Pending e charge locked := by
  obtain ⟨lock, p, isRow, same, isSum⟩ := pending
  obtain ⟨q, isRow', sameId, sameSwap⟩ := repositions.kept p isRow
  exact ⟨repositions.rowLock ▸ lock, q, isRow', sameId.trans same, sameSwap ▸ isSum⟩

theorem Exact.repositions (agrees : s.Exact) (sound : s.Sound) (repositions : Repositions s after) :
    after.Exact where
  same q isRow := by
    have sameLog : after.logged q.id = s.logged q.id := by rw [logged, logged, repositions.log]
    rw [sameLog]
    rcases repositions.known q isRow with ⟨p, isOld, sameId, sameSwap⟩ | ⟨zero, fresh⟩
    · rw [← sameSwap, ← sameId]
      exact agrees.same p isOld
    · rw [zero, logged_eq_zero sound fresh]
  onScale q isRow := by
    rcases repositions.known q isRow with ⟨p, isOld, -, sameSwap⟩ | ⟨zero, -⟩
    · rw [← sameSwap]
      exact agrees.onScale p isOld
    · rw [zero]
      exact onScale_zero
  inserting e charge locked inInsert :=
    (agrees.inserting e charge locked (repositions.transactionOf ▸ inInsert)).repositions repositions
  committing e charge locked inCommit :=
    (agrees.committing e charge locked (repositions.transactionOf ▸ inCommit)).repositions
      repositions

end Frames

section Commit
variable {s : SwapTables} {e : ℕ} {tick : SwapTick} {charge : SwapCharge} {locked : Option ℚ}

/-- What a commit makes of a row of `positions`. -/
def committedRow (charge : SwapCharge) (locked : Option ℚ) (p : SwapPosition) : SwapPosition :=
  locked.elim p fun value =>
    if p.id = charge.positionId then { p with accumulatedSwapUsd := value } else p

theorem committedRow_id (p : SwapPosition) : (committedRow charge locked p).id = p.id := by
  unfold committedRow
  cases locked with
  | none => rfl
  | some value =>
    dsimp only [Option.elim]
    split_ifs <;> rfl

theorem positions_commit : ((s.commit charge locked).release e tick).positions =
    s.positions.map (committedRow charge locked) := by
  cases locked with
  | none =>
    have same : committedRow charge none = id := rfl
    rw [same, List.map_id]
    rfl
  | some value => rfl

theorem log_commit : ((s.commit charge locked).release e tick).log =
    s.log ++ [{ charge with amountUsd := numeric charge.amountUsd }] := by
  cases locked <;> rfl

theorem transactionOf_commit : ((s.commit charge locked).release e tick).transactionOf =
    Function.update s.transactionOf e none := by
  rw [transactionOf_release]
  cases locked <;> rfl

theorem rowLock_commit {id : PositionId} {e' : ℕ} (differ : e' ≠ e)
    (lock : s.rowLock id = some e') :
    ((s.commit charge locked).release e tick).rowLock id = some e' := by
  cases locked <;> simp [commit, writeAccumulated, release, lock, differ]

theorem keyLock_commit {key : PositionId × ℤ} {e' : ℕ} (differ : e' ≠ e)
    (lock : s.keyLock key = some e') :
    ((s.commit charge locked).release e tick).keyLock key = some e' := by
  cases locked <;> simp [commit, writeAccumulated, release, lock, differ]

theorem exists_id_commit {id : PositionId} (known : ∃ p ∈ s.positions, p.id = id) :
    ∃ q ∈ ((s.commit charge locked).release e tick).positions, q.id = id := by
  obtain ⟨p, isRow, same⟩ := known
  rw [positions_commit]
  exact ⟨_, List.mem_map_of_mem isRow, (committedRow_id p).trans same⟩

theorem Sound.commit (sound : s.Sound)
    (inCommit : s.transactionOf e = some (charge, .commit locked)) :
    ((s.commit charge locked).release e tick).Sound := by
  obtain ⟨lock, fresh, known⟩ := sound.committing e charge locked inCommit
  constructor
  · rw [log_commit, List.map_append, List.nodup_append]
    refine ⟨sound.daily, by simp, fun key isOld key' isNew same => fresh ?_⟩
    rw [List.map_cons, List.map_nil, List.mem_singleton] at isNew
    exact (same.trans isNew) ▸ isOld
  · have sameIds : (fun p : SwapPosition => (committedRow charge locked p).id) = (·.id) :=
      funext committedRow_id
    rw [positions_commit, List.map_map]
    exact (congrArg (fun f => (s.positions.map f).Nodup) sameIds).mpr sound.ids
  · intro c isLogged
    rw [log_commit, List.mem_append, List.mem_singleton] at isLogged
    rcases isLogged with old | rfl
    · exact exists_id_commit (sound.foreign c old)
    · exact exists_id_commit known
  · intro e' charge' locked' inCommit'
    rw [transactionOf_commit] at inCommit'
    by_cases same : e' = e
    · rw [same, Function.update_self] at inCommit'
      cases inCommit'
    · rw [Function.update_of_ne same] at inCommit'
      obtain ⟨lock', fresh', known'⟩ := sound.committing e' charge' locked' inCommit'
      refine ⟨keyLock_commit same lock', ?_, exists_id_commit known'⟩
      rw [log_commit, List.map_append, List.mem_append, not_or]
      refine ⟨fresh', fun isNew => same ?_⟩
      rw [List.map_cons, List.map_nil, List.mem_singleton] at isNew
      have sameKey : charge'.key = charge.key := isNew
      rw [sameKey] at lock'
      exact Option.some.inj (lock'.symm.trans lock)

theorem logged_commit (id : PositionId) : ((s.commit charge locked).release e tick).logged id =
    s.logged id + if charge.positionId = id then numeric charge.amountUsd else 0 := by
  unfold logged
  rw [log_commit, List.filter_append, List.map_append, List.sum_append]
  by_cases own : charge.positionId = id <;> simp [own]

/-- Another position's row is as it was. -/
theorem committedRow_of_ne {p : SwapPosition} (differ : p.id ≠ charge.positionId) :
    committedRow charge locked p = p := by
  cases locked with
  | none => rfl
  | some value => exact if_neg differ

theorem committedRow_of_pending (sound : s.Sound) (pending : s.Pending e charge locked)
    {p : SwapPosition} (isRow : p ∈ s.positions) (own : p.id = charge.positionId) :
    (committedRow charge locked p).accumulatedSwapUsd =
      p.accumulatedSwapUsd + numeric charge.amountUsd := by
  obtain ⟨-, q, isRow', same, isSum⟩ := pending
  have sameRow : p = q := List.inj_on_of_nodup_map sound.ids isRow isRow' (own.trans same.symm)
  rw [isSum, committedRow, Option.elim, if_pos own, sameRow]

theorem Exact.commit (agrees : s.Exact) (sound : s.Sound)
    (inCommit : s.transactionOf e = some (charge, .commit locked)) :
    ((s.commit charge locked).release e tick).Exact := by
  have pending := agrees.committing e charge locked inCommit
  have others : ∀ e' charge' locked', e' ≠ e → s.Pending e' charge' locked' →
      ((s.commit charge locked).release e tick).Pending e' charge' locked' := by
    rintro e' charge' locked' differ ⟨lock, p, isRow, same, isSum⟩
    have differId : p.id ≠ charge.positionId := fun own => by
      rw [← same, own] at lock
      exact differ (Option.some.inj (lock.symm.trans pending.1))
    refine ⟨rowLock_commit differ lock, p, ?_, same, isSum⟩
    rw [positions_commit, List.mem_map]
    exact ⟨p, isRow, committedRow_of_ne differId⟩
  constructor
  · intro q isRow
    rw [positions_commit] at isRow
    obtain ⟨p, isOld, rfl⟩ := List.mem_map.mp isRow
    rw [committedRow_id, logged_commit]
    by_cases own : p.id = charge.positionId
    · rw [committedRow_of_pending sound pending isOld own, if_pos own.symm, agrees.same p isOld]
    · rw [committedRow_of_ne own, if_neg (Ne.symm own), add_zero]
      exact agrees.same p isOld
  · intro q isRow
    rw [positions_commit] at isRow
    obtain ⟨p, isOld, rfl⟩ := List.mem_map.mp isRow
    by_cases own : p.id = charge.positionId
    · rw [committedRow_of_pending sound pending isOld own]
      exact (agrees.onScale p isOld).add (onScale_stored (by norm_num [numericScale]) _)
    · rw [committedRow_of_ne own]
      exact agrees.onScale p isOld
  · intro e' charge' locked' inInsert
    rw [transactionOf_commit] at inInsert
    by_cases same : e' = e
    · rw [same, Function.update_self] at inInsert
      cases inInsert
    · rw [Function.update_of_ne same] at inInsert
      exact others e' charge' locked' same (agrees.inserting e' charge' locked' inInsert)
  · intro e' charge' locked' inCommit'
    rw [transactionOf_commit] at inCommit'
    by_cases same : e' = e
    · rw [same, Function.update_self] at inCommit'
      cases inCommit'
    · rw [Function.update_of_ne same] at inCommit'
      exact others e' charge' locked' same (agrees.committing e' charge' locked' inCommit')

end Commit

section Steps
variable {s after : SwapTables} {e : ℕ} {tick : SwapTick} {charge : SwapCharge} {stage : SwapStage}
  {action : SwapAction}

/-- The lock on a row goes to an execution while nobody holds it. -/
theorem movesOn_lockRow (free : s.rowLock charge.positionId = none) :
    MovesOn s { s.inStage e tick charge stage with
      rowLock := Function.update s.rowLock charge.positionId (some e) } e (some (charge, stage)) :=
  ⟨rfl, rfl, transactionOf_setTick, fun id e' _ lock => by
    have other : id ≠ charge.positionId := by
      rintro rfl
      cases free.symm.trans lock
    exact (Function.update_of_ne other _ _).trans lock, fun _ _ _ lock => lock⟩

theorem movesOn_lockKey (free : s.keyLock charge.key = none) :
    MovesOn s { s.inStage e tick charge stage with
      keyLock := Function.update s.keyLock charge.key (some e) } e (some (charge, stage)) :=
  ⟨rfl, rfl, transactionOf_setTick, fun _ _ _ lock => lock, fun key e' _ lock => by
    have other : key ≠ charge.key := by
      rintro rfl
      cases free.symm.trans lock
    exact (Function.update_of_ne other _ _).trans lock⟩

theorem Sound.statement (sound : s.Sound) (inside : s.transactionOf e = some (charge, stage))
    (taken : s.statement e tick charge stage = some after) : after.Sound := by
  cases stage with
  | check =>
    simp only [SwapTables.statement] at taken
    split_ifs at taken
    · cases taken
      exact sound.movesOn movesOn_release (by simp)
    · cases taken
      exact sound.movesOn movesOn_inStage (by simp)
  | update =>
    simp only [SwapTables.statement] at taken
    cases found : s.openRow charge.positionId with
    | none =>
      rw [found] at taken
      cases taken
      exact sound.movesOn movesOn_inStage (by simp)
    | some p =>
      rw [found] at taken
      dsimp only at taken
      split_ifs at taken with held
      cases taken
      exact sound.movesOn (movesOn_lockRow (not_not.mp held)) (by simp)
  | insert locked =>
    simp only [SwapTables.statement] at taken
    split_ifs at taken with held logged known
    · cases taken
      exact sound.movesOn movesOn_release (by simp)
    · cases taken
      refine sound.movesOn (movesOn_lockKey (not_not.mp held)) fun charge' locked' same => ?_
      cases same
      refine ⟨Function.update_self .., fun isLogged => logged ?_, ?_⟩
      · obtain ⟨c, isRow, sameKey⟩ := List.mem_map.mp isLogged
        exact List.any_eq_true.mpr ⟨c, isRow, decide_eq_true sameKey⟩
      · obtain ⟨p, isRow, sameId⟩ := List.any_eq_true.mp known
        exact ⟨p, isRow, of_decide_eq_true sameId⟩
    · cases taken
      exact sound.movesOn movesOn_release (by simp)
  | commit locked =>
    cases taken
    exact sound.commit inside

/-- What the UPDATE of a charge leaves, if it finds the position open. -/
theorem Pending.of_update (agrees : s.Exact) {p : SwapPosition}
    (found : s.openRow charge.positionId = some p)
    (sign : NumericTie charge.amountUsd →
      (0 ≤ charge.amountUsd ↔ 0 ≤ p.accumulatedSwapUsd + charge.amountUsd)) (stage : SwapStage) :
    Pending { s.inStage e tick charge stage with
      rowLock := Function.update s.rowLock charge.positionId (some e) } e charge
        (some (numeric (p.accumulatedSwapUsd + charge.amountUsd))) := by
  have isRow : p ∈ s.positions := List.mem_of_find?_eq_some found
  have isOpen : p.id = charge.positionId ∧ p.isOpen := by simpa using List.find?_some found
  have scale : (0 : ℚ) < numericScale := by norm_num [numericScale]
  refine ⟨Function.update_self .., p, isRow, isOpen.1, congrArg some ?_⟩
  by_cases tie : NumericTie charge.amountUsd
  · exact (agrees.onScale p isRow).stored_add_of_sign scale (sign tie)
  · exact (agrees.onScale p isRow).stored_add scale tie

theorem Exact.statement (agrees : s.Exact) (sound : s.Sound)
    (inside : s.transactionOf e = some (charge, stage))
    (open' : stage = .update → ∃ p, s.openRow charge.positionId = some p ∧
      (NumericTie charge.amountUsd →
        (0 ≤ charge.amountUsd ↔ 0 ≤ p.accumulatedSwapUsd + charge.amountUsd)))
    (taken : s.statement e tick charge stage = some after) : after.Exact := by
  cases stage with
  | check =>
    simp only [SwapTables.statement] at taken
    split_ifs at taken
    · cases taken
      exact agrees.movesOn movesOn_release (by simp) (by simp)
    · cases taken
      exact agrees.movesOn movesOn_inStage (by simp) (by simp)
  | update =>
    obtain ⟨p, found, sign⟩ := open' rfl
    simp only [SwapTables.statement, found] at taken
    split_ifs at taken with held
    cases taken
    refine agrees.movesOn (movesOn_lockRow (not_not.mp held)) (fun charge' locked' same => ?_)
      (by simp)
    cases same
    exact Pending.of_update agrees found sign _
  | insert locked =>
    have pending := agrees.inserting e charge locked inside
    simp only [SwapTables.statement] at taken
    split_ifs at taken with held logged known
    · cases taken
      exact agrees.movesOn movesOn_release (by simp) (by simp)
    · cases taken
      refine agrees.movesOn (movesOn_lockKey (not_not.mp held)) (by simp)
        fun charge' locked' same => ?_
      cases same
      exact pending
    · cases taken
      exact agrees.movesOn movesOn_release (by simp) (by simp)
  | commit locked =>
    cases taken
    exact agrees.commit sound inside

theorem repositions_open {p : SwapPosition} (sound : s.Sound)
    (fresh : ¬ s.positions.any fun q => q.id = p.id) : Repositions s
      { s with positions := s.positions ++ [{ p with accumulatedSwapUsd := 0 }] } := by
  have noRow : ∀ q ∈ s.positions, q.id ≠ p.id := fun q isRow same =>
    fresh (List.any_eq_true.mpr ⟨q, isRow, decide_eq_true same⟩)
  refine ⟨rfl, ?_, rfl, rfl, rfl, fun q isRow => ⟨q, List.mem_append_left _ isRow, rfl, rfl⟩, ?_⟩
  · rw [List.map_append, List.nodup_append]
    refine ⟨sound.ids, by simp, fun id isOld id' isNew same => ?_⟩
    obtain ⟨q, isRow, rfl⟩ := List.mem_map.mp isOld
    rw [List.map_cons, List.map_nil, List.mem_singleton] at isNew
    exact noRow q isRow (same.trans isNew)
  · intro q isRow
    rcases List.mem_append.mp isRow with old | new
    · exact .inl ⟨q, old, rfl, rfl⟩
    · rw [List.mem_singleton.mp new]
      exact .inr ⟨rfl, noRow⟩

/-- A write to a position's row that leaves its id and its swap alone. -/
theorem repositions_map (sound : s.Sound) (write : SwapPosition → SwapPosition)
    (kept : ∀ p, (write p).id = p.id ∧ (write p).accumulatedSwapUsd = p.accumulatedSwapUsd) :
    Repositions s { s with positions := s.positions.map write } := by
  refine ⟨rfl, ?_, rfl, rfl, rfl, fun p isRow => ⟨write p, List.mem_map_of_mem isRow, kept p⟩, ?_⟩
  · have sameIds : (fun p => (write p).id) = (·.id) := funext fun p => (kept p).1
    rw [List.map_map]
    exact (congrArg (fun f => (s.positions.map f).Nodup) sameIds).mpr sound.ids
  · intro q isRow
    obtain ⟨p, isOld, rfl⟩ := List.mem_map.mp isRow
    exact .inl ⟨p, isOld, (kept p).1.symm, (kept p).2.symm⟩

/-- A step is a write to the positions, a move of one execution outside its
statements, or a statement. -/
theorem step_cases (sound : s.Sound) (taken : s.step action = some after) :
    Repositions s after ∨
    (∃ e transaction, MovesOn s after e transaction ∧
      (transaction = none ∨ ∃ charge, transaction = some (charge, .check))) ∨
    ∃ e tick charge stage, action = .advance e ∧ s.ticks e = some tick ∧
      tick.transaction = some (charge, stage) ∧ s.statement e tick charge stage = some after := by
  cases action with
  | openPosition p =>
    simp only [step] at taken
    split_ifs at taken with known
    cases taken
    exact .inl (repositions_open sound known)
  | sync id isOpen size markPrice =>
    simp only [step] at taken
    split_ifs at taken
    cases taken
    refine .inl (repositions_map sound _ fun p => ?_)
    split_ifs <;> exact ⟨rfl, rfl⟩
  | setRules rules =>
    cases taken
    exact .inl ⟨rfl, sound.ids, rfl, rfl, rfl, fun p isRow => ⟨p, isRow, rfl, rfl⟩,
      fun q isRow => .inl ⟨q, isRow, rfl, rfl⟩⟩
  | tick e clock bypassRolloverClock rates =>
    simp only [step] at taken
    cases idle : s.ticks e with
    | some tick => simp [idle] at taken
    | none =>
      rw [idle] at taken
      cases taken
      exact .inr (.inl ⟨e, _, movesOn_setTick, .inl rfl⟩)
  | charge e date =>
    simp only [step] at taken
    cases running : s.ticks e with
    | none => simp [running] at taken
    | some tick =>
      rw [running] at taken
      dsimp only at taken
      cases inside : tick.transaction with
      | some transaction => simp [inside] at taken
      | none =>
        rw [inside] at taken
        cases left : tick.applicable with
        | nil =>
          rw [left] at taken
          cases taken
          refine .inr (.inl ⟨e, none, ⟨rfl, rfl, ?_, fun _ _ _ lock => lock,
            fun _ _ _ lock => lock⟩, .inl rfl⟩)
          funext e'
          by_cases same : e' = e
          · subst same
            simp [transactionOf]
          · simp [transactionOf, same]
        | cons pos rest =>
          rw [left] at taken
          dsimp only at taken
          cases amount : pos.chargeUsd tick.rates tick.weekday with
          | none =>
            rw [amount] at taken
            cases taken
            exact .inr (.inl ⟨e, _, movesOn_setTick, .inl rfl⟩)
          | some chargeUsd =>
            rw [amount] at taken
            cases taken
            exact .inr (.inl ⟨e, _, movesOn_setTick, .inr ⟨_, rfl⟩⟩)
  | advance e =>
    simp only [step] at taken
    cases running : s.ticks e with
    | none => simp [running] at taken
    | some tick =>
      rw [running] at taken
      dsimp only at taken
      cases inside : tick.transaction with
      | none => simp [inside] at taken
      | some transaction =>
        obtain ⟨charge, stage⟩ := transaction
        rw [inside] at taken
        exact .inr (.inr ⟨e, tick, charge, stage, rfl, running, inside, taken⟩)
  | fail e =>
    obtain ⟨tick, -, rfl⟩ := Option.map_eq_some_iff.mp taken
    exact .inr (.inl ⟨e, none, movesOn_release, .inl rfl⟩)

theorem Sound.step (sound : s.Sound) (taken : s.step action = some after) : after.Sound := by
  rcases step_cases sound taken with
    repositions | ⟨e, transaction, moves, outside⟩ | ⟨e, tick, charge, stage, -, running, inside, statement⟩
  · exact sound.repositions repositions
  · refine sound.movesOn moves fun charge locked inCommit => ?_
    rcases outside with rfl | ⟨charge', rfl⟩ <;> simp at inCommit
  · exact sound.statement (transactionOf_of_tick running inside) statement

theorem Exact.step (agrees : s.Exact) (sound : s.Sound) (charges : s.ChargesOpen action)
    (taken : s.step action = some after) : after.Exact := by
  rcases step_cases sound taken with
    repositions | ⟨e, transaction, moves, outside⟩ |
      ⟨e, tick, charge, stage, rfl, running, inside, statement⟩
  · exact agrees.repositions sound repositions
  · refine agrees.movesOn moves (fun charge locked inInsert => ?_) fun charge locked inCommit => ?_
    · rcases outside with rfl | ⟨charge', rfl⟩ <;> simp at inInsert
    · rcases outside with rfl | ⟨charge', rfl⟩ <;> simp at inCommit
  · refine agrees.statement sound (transactionOf_of_tick running inside) (fun isUpdate => ?_) statement
    subst isUpdate
    exact charges tick running charge inside

theorem sound_start : start.Sound := by
  refine ⟨by simp [start], by simp [start], by simp [start], ?_⟩
  intro e charge locked inCommit
  simp [start, transactionOf] at inCommit

theorem exact_start : start.Exact := by
  refine ⟨by simp [start], by simp [start], ?_, ?_⟩
  · intro e charge locked inInsert
    simp [start, transactionOf] at inInsert
  · intro e charge locked inCommit
    simp [start, transactionOf] at inCommit

theorem kept_start : start.Kept := ⟨sound_start, exact_start⟩

/-- The unique index keeps the days apart in every run. -/
theorem daily_of_run {actions : List SwapAction} (run : Run step start actions s) :
    (s.log.map (·.key)).Nodup :=
  (run.invariant sound_start fun _ _ _ _ taken sound => sound.step taken).daily

theorem accrued_of_run {actions : List SwapAction}
    (run : GuardedRun step ChargesOpen start actions s) : s.Accrued := by
  have kept : s.Kept := run.invariant kept_start fun _ _ _ charges taken kept =>
    ⟨kept.sound.step taken, kept.agrees.step kept.sound charges taken⟩
  exact ⟨kept.agrees.same, kept.sound.daily⟩

end Steps

section OneCharge

/-- A long position and the rule that charges it a hundredth a day. -/
def longPosition : SwapPosition :=
  ⟨.uuid 1, true, "long", 2, 100, "EURUSD", "forex", "USD", "g", true, 0⟩

def longRule : SwapRule :=
  ⟨1, "g", "EURUSD", "forex", true, true, "22:00", 1 / 100, 0, none, "percent", none, none⟩

/-- The position is selected, what happens to it then is done, and it is
charged. -/
def rollover (then' : List SwapAction) : List SwapAction :=
  [.openPosition longPosition, .setRules [longRule],
    .tick 1 ⟨"22:00", "mon", 20000⟩ false (fun _ => some 1)] ++ then' ++
  [.charge 1 20000, .advance 1, .advance 1, .advance 1, .advance 1]

/-- A charge that the run below may make. -/
def chargesSafely (s : SwapTables) : SwapAction → Bool
  | .advance e =>
    match s.transactionOf e with
    | some (charge, .update) => (s.openRow charge.positionId).any fun p =>
        decide (0 ≤ charge.amountUsd ↔ 0 ≤ p.accumulatedSwapUsd + charge.amountUsd)
    | _ => true
  | _ => true

theorem chargesOpen_of_safely (s : SwapTables) (action : SwapAction)
    (safely : s.chargesSafely action = true) : s.ChargesOpen action := by
  cases action with
  | advance e =>
    intro tick running charge inside
    rw [chargesSafely, transactionOf_of_tick running inside] at safely
    cases found : s.openRow charge.positionId with
    | none => simp [found] at safely
    | some p =>
      simp only [found, Option.any_some] at safely
      exact ⟨p, rfl, fun _ => of_decide_eq_true safely⟩
  | _ => trivial

/-- The position is open when it is charged. -/
theorem accrued_rollover : ∃ s, GuardedRun step ChargesOpen start (rollover []) s ∧
    s.log.map (·.amountUsd) = [2] ∧ s.Accrued := by
  have evaluates : (runGuarded step (fun s action => s.chargesSafely action = true) start
      (rollover [])).map (fun s => s.log.map (·.amountUsd)) = some [2] := by
    decide +kernel
  obtain ⟨s, reached, charged⟩ := Option.map_eq_some_iff.mp evaluates
  have run : GuardedRun step ChargesOpen start (rollover []) s :=
    (GuardedRun.of_eval reached).weaken chargesOpen_of_safely
  exact ⟨s, run, charged, accrued_of_run run⟩

/-- The position is closed after it has been selected: nothing accrues on it, and
the log has the charge. -/
theorem not_accrued_closed : ∃ s, Run step start (rollover [.sync (.uuid 1) false 2 100]) s ∧
    s.log.map (·.amountUsd) = [2] ∧ s.positions.map (·.accumulatedSwapUsd) = [0] ∧
    ¬ s.Accrued := by
  have evaluates : (runGuarded step (fun _ _ => True) start
      (rollover [.sync (.uuid 1) false 2 100])).map (fun s =>
        (s.log.map (·.amountUsd), s.positions.map (·.accumulatedSwapUsd),
          s.positions.map fun p => s.logged p.id)) = some ([2], [0], [2]) := by
    decide +kernel
  obtain ⟨s, reached, reads⟩ := Option.map_eq_some_iff.mp evaluates
  obtain ⟨charged, reads⟩ := Prod.mk.inj reads
  obtain ⟨accrues, logs⟩ := Prod.mk.inj reads
  refine ⟨s, .of_eval reached, charged, accrues, fun accrued => ?_⟩
  have same : s.positions.map (·.accumulatedSwapUsd) = s.positions.map fun p => s.logged p.id :=
    List.map_congr_left accrued.same
  rw [accrues, logs] at same
  exact absurd same (by decide +kernel)

end OneCharge

end SwapTables

end TradingPlatform
