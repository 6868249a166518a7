import TradingPlatform.Engine.ScriptCommands
import TradingPlatform.Library.Noninterference

namespace TradingPlatform

open StepRuns

/-- Some of the orders, positions and users' sets in Redis. -/
structure Keys where
  orders : Set OrderId
  positions : Set PositionId
  users : Set UserId

def Keys.others (K : Keys) : Keys := ⟨K.ordersᶜ, K.positionsᶜ, K.usersᶜ⟩

/-- The command writes at one of the keys. -/
def WriteCommand.On (K : Keys) : WriteCommand → Prop
  | .setOrder o _ => o ∈ K.orders
  | .zaddPending _ o => o ∈ K.orders
  | .zremPending _ o => o ∈ K.orders
  | .hset p _ => p ∈ K.positions
  | .sadd u p => u ∈ K.users ∧ p ∈ K.positions
  | .srem u p => u ∈ K.users ∧ p ∈ K.positions
  | .zadd _ _ p _ => p ∈ K.positions
  | .zrem _ _ p => p ∈ K.positions

theorem WriteCommand.On.mono {K wider : Keys} {c : WriteCommand} (on : c.On K)
    (orders : K.orders ⊆ wider.orders) (positions : K.positions ⊆ wider.positions)
    (users : K.users ⊆ wider.users) : c.On wider := by
  cases c with
  | setOrder | zaddPending | zremPending => exact orders on
  | hset | zadd | zrem => exact positions on
  | sadd | srem => exact ⟨users on.1, positions on.2⟩

namespace Store

/-- `part` has what `st` has at the keys, and no record at any other. -/
structure Part (K : Keys) (st part : Store) : Prop where
  orders : ∀ o ∈ K.orders, part.orders o = st.orders o
  pending : ∀ o ∈ K.orders, ∀ s, o ∈ part.pending s ↔ o ∈ st.pending s
  hash : ∀ p ∈ K.positions, part.hash p = st.hash p
  score : ∀ p ∈ K.positions, ∀ k s, part.score k s p = st.score k s p
  userPositions : ∀ u ∈ K.users, part.userPositions u = st.userPositions u
  noOrder : ∀ o ∉ K.orders, part.orders o = none
  noHash : ∀ p ∉ K.positions, part.hash p = none
  hashesOnly : part.HashesOnly
  oldUserPositions : part.oldUserPositions = st.oldUserPositions

namespace Part
variable {K smaller : Keys} {st part : Store} {c : WriteCommand} {commands : List WriteCommand}

/-- A command at the keys does the same to both. -/
theorem perform (same : Part K st part) (on : c.On K) : Part K (st.perform c) (part.perform c) := by
  cases c with
  | setOrder o order =>
    refine { same with orders := fun r member => ?_, noOrder := fun r outside => ?_ }
    · have kept := same.orders r member
      simp only [Store.perform, orders_setOrder, kept]
    · have differ : r ≠ o := fun here => outside (here ▸ on)
      simp only [Store.perform, orders_setOrder, if_neg differ]
      exact same.noOrder r outside
  | zaddPending s o =>
    refine { same with pending := fun r member s' => ?_ }
    have kept := same.pending r member s'
    by_cases here : s' = s
    · subst here
      simp [Store.perform, zaddPending, kept]
    · simpa [Store.perform, zaddPending, here] using kept
  | zremPending s o =>
    refine { same with pending := fun r member s' => ?_ }
    have kept := same.pending r member s'
    by_cases here : s' = s
    · subst here
      simp [Store.perform, zremPending, kept]
    · simpa [Store.perform, zremPending, here] using kept
  | hset p write =>
    refine { same with hash := fun q member => ?_, noHash := fun q outside => ?_ }
    · have kept := same.hash q member
      simp only [Store.perform, hash_hset, same.hash p on, kept]
    · have differ : q ≠ p := fun here => outside (here ▸ on)
      simp only [Store.perform, hash_hset, if_neg differ]
      exact same.noHash q outside
  | sadd u p =>
    refine { same with userPositions := fun v member => ?_ }
    ext q
    have kept := same.userPositions v member
    simp only [Store.perform, mem_sadd, kept]
  | srem u p =>
    refine { same with userPositions := fun v member => ?_ }
    ext q
    have kept := same.userPositions v member
    simp only [Store.perform, mem_srem, kept]
  | zadd k s p x =>
    refine { same with score := fun q member k' s' => ?_ }
    have kept := same.score q member k' s'
    simp only [Store.perform, score_zadd, kept]
  | zrem k s p =>
    refine { same with score := fun q member k' s' => ?_ }
    have kept := same.score q member k' s'
    simp only [Store.perform, score_zrem, kept]

/-- A command elsewhere is not seen. -/
theorem perform_other (same : Part K st part) (off : c.On K.others) :
    Part K (st.perform c) part := by
  cases c with
  | setOrder o order =>
    refine { same with orders := fun r member => ?_ }
    have differ : r ≠ o := fun here => off (here ▸ member)
    simp only [Store.perform, orders_setOrder, if_neg differ]
    exact same.orders r member
  | zaddPending s o =>
    refine { same with pending := fun r member s' => ?_ }
    have differ : r ≠ o := fun here => off (here ▸ member)
    have kept := same.pending r member s'
    by_cases here : s' = s
    · subst here
      simpa [Store.perform, zaddPending, differ] using kept
    · simpa [Store.perform, zaddPending, here] using kept
  | zremPending s o =>
    refine { same with pending := fun r member s' => ?_ }
    have differ : r ≠ o := fun here => off (here ▸ member)
    have kept := same.pending r member s'
    by_cases here : s' = s
    · subst here
      simpa [Store.perform, zremPending, differ] using kept
    · simpa [Store.perform, zremPending, here] using kept
  | hset p write =>
    refine { same with hash := fun q member => ?_ }
    have differ : q ≠ p := fun here => off (here ▸ member)
    simp only [Store.perform, hash_hset, if_neg differ]
    exact same.hash q member
  | sadd u p =>
    refine { same with userPositions := fun v member => ?_ }
    have differ : v ≠ u := fun here => off.1 (here ▸ member)
    simp only [Store.perform, Store.sadd, Function.update_of_ne differ]
    exact same.userPositions v member
  | srem u p =>
    refine { same with userPositions := fun v member => ?_ }
    have differ : v ≠ u := fun here => off.1 (here ▸ member)
    simp only [Store.perform, Store.srem, Function.update_of_ne differ]
    exact same.userPositions v member
  | zadd k s p x =>
    refine { same with score := fun q member k' s' => ?_ }
    have differ : q ≠ p := fun here => off (here ▸ member)
    have elsewhere : ¬ (k' = k ∧ s' = s ∧ q = p) := fun both => differ both.2.2
    simp only [Store.perform, score_zadd, if_neg elsewhere]
    exact same.score q member k' s'
  | zrem k s p =>
    refine { same with score := fun q member k' s' => ?_ }
    have differ : q ≠ p := fun here => off (here ▸ member)
    have elsewhere : ¬ (k' = k ∧ s' = s ∧ q = p) := fun both => differ both.2.2
    simp only [Store.perform, score_zrem, if_neg elsewhere]
    exact same.score q member k' s'

theorem performAll (same : Part K st part) (on : ∀ c ∈ commands, c.On K) :
    Part K (st.performAll commands) (part.performAll commands) := by
  induction commands generalizing st part with
  | nil => exact same
  | cons c rest ih =>
    have first := same.perform (on c List.mem_cons_self)
    exact ih first fun later member => on later (List.mem_cons_of_mem _ member)

theorem performAll_others (same : Part K st part) (off : ∀ c ∈ commands, c.On K.others) :
    Part K (st.performAll commands) part := by
  induction commands generalizing st with
  | nil => exact same
  | cons c rest ih =>
    have first := same.perform_other (off c List.mem_cons_self)
    exact ih first fun later member => off later (List.mem_cons_of_mem _ member)

/-- Keys at which the part has nothing can be given up. -/
theorem shrink (same : Part K st part) (orders : smaller.orders ⊆ K.orders)
    (positions : smaller.positions ⊆ K.positions) (users : smaller.users ⊆ K.users)
    (noOrder : ∀ o ∈ K.orders, o ∉ smaller.orders → part.orders o = none)
    (noHash : ∀ p ∈ K.positions, p ∉ smaller.positions → part.hash p = none) :
    Part smaller st part where
  orders o member := same.orders o (orders member)
  pending o member := same.pending o (orders member)
  hash p member := same.hash p (positions member)
  score p member := same.score p (positions member)
  userPositions u member := same.userPositions u (users member)
  noOrder o outside := by
    by_cases before : o ∈ K.orders
    · exact noOrder o before outside
    · exact same.noOrder o before
  noHash p outside := by
    by_cases before : p ∈ K.positions
    · exact noHash p before outside
    · exact same.noHash p before
  hashesOnly := same.hashesOnly
  oldUserPositions := same.oldUserPositions

end Part

/-- A user's keys: those that no other user's record has. -/
def keysOf (st : Store) (u : UserId) : Keys where
  orders := {o | ∀ order ∈ st.orders o, order.userId = u}
  positions := {p | ∀ h ∈ st.hash p, h.userId = some u}
  users := {u}

/-- The keys at which the user has a record. -/
def heldBy (st : Store) (u : UserId) : Keys where
  orders := {o | ∃ order ∈ st.orders o, order.userId = u}
  positions := {p | ∃ h ∈ st.hash p, h.userId = some u}
  users := {u}

/-- Every position has an owner, and a user's set has only positions of the user. -/
structure Owned (st : Store) : Prop where
  hashesOnly : st.HashesOnly
  owner : ∀ p, ∀ h ∈ st.hash p, ∃ u, h.userId = some u
  listed : ∀ u, ∀ p ∈ st.userPositions u, ∃ h ∈ st.hash p, h.userId = some u

end Store

/-- A written hash keeps its owner, a new one belongs to `u`. -/
def OwnerWay (u : UserId) (_ : PositionId) (found : Option PositionHash) (h : PositionHash) : Prop :=
  match found with
  | some g => h.userId = g.userId
  | none => h.userId = some u

theorem HashWrites.mono {way wider : PositionId → Option PositionHash → PositionHash → Prop}
    {before after : Store} (writes : HashWrites way before after)
    (widens : ∀ q found h, way q found h → wider q found h) : HashWrites wider before after where
  old := writes.old
  hash q := (writes.hash q).imp_right fun ⟨h, read, how⟩ => ⟨h, read, widens _ _ _ how⟩

/-- What the engine and the level edits send to Redis: a script, the ZADD or
ZREM of a stored order, or a command on the levels of a stored position. -/
inductive RedisCall
  | script (call : ScriptCall)
  | zaddPending (s : Symbol) (o : OrderId)
  | zremPending (s : Symbol) (o : OrderId)
  | setField (f : LevelField) (p : PositionId) (text : LevelText)
  | setIndex (f : LevelField) (s : Symbol) (p : PositionId) (text : LevelText)
  | setUpdatedAt (p : PositionId) (now : Millis)

namespace Store

def redis (st : Store) : RedisCall → Option Store
  | .script call => st.call call
  | .zaddPending s o => (st.orders o).map fun _ => st.zaddPending s o
  | .zremPending s o => (st.orders o).map fun _ => st.zremPending s o
  | .setField f p text => (st.hash p).map fun _ => st.hset p (·.setText text f)
  | .setIndex f s p text => (st.hash p).bind fun _ => st.setIndex f s p text
  | .setUpdatedAt p now => (st.hash p).map fun _ => st.hset p fun h => { h with updatedAt := some now }

/-- The user whom a call concerns: the one of its order or its position. -/
def callOwner (st : Store) : RedisCall → Option UserId
  | .script (.placeOrder _ order) => some order.userId
  | .script (.atomicFillOrder args _ _) => (st.orders args.orderId).map (·.userId)
  | .script (.atomicCancelOrder o _) => (st.orders o).map (·.userId)
  | .script (.atomicClosePosition args) => (st.hash args.positionId).bind (·.userId)
  | .script (.atomicReopenPosition p _) => (st.hash p).bind (·.userId)
  | .script (.atomicReopenPositionWithParams p _ _) => (st.hash p).bind (·.userId)
  | .script (.atomicUpdatePositionParams p _ _) => (st.hash p).bind (·.userId)
  | .zaddPending _ o => (st.orders o).map (·.userId)
  | .zremPending _ o => (st.orders o).map (·.userId)
  | .setField _ p _ => (st.hash p).bind (·.userId)
  | .setIndex _ _ p _ => (st.hash p).bind (·.userId)
  | .setUpdatedAt p _ => (st.hash p).bind (·.userId)

def redisCommands (st : Store) : RedisCall → List WriteCommand
  | .script call => st.commands call
  | .zaddPending s o => [.zaddPending s o]
  | .zremPending s o => [.zremPending s o]
  | .setField f p text => [.hset p (·.setText text f)]
  | .setIndex f s p text =>
    match text with
    | .null => [.zrem f.index s p]
    | .num x => [.zadd f.index s p x]
    | .userdata => []
  | .setUpdatedAt p now => [.hset p fun h => { h with updatedAt := some now }]

/-- Order ids are not used again for another user's order. -/
def KeepsOrderOwner (st : Store) : RedisCall → Prop
  | .script (.placeOrder o order) => ∀ held ∈ st.orders o, held.userId = order.userId
  | _ => True

instance (st : Store) : (call : RedisCall) → Decidable (st.KeepsOrderOwner call)
  | .script (.placeOrder o order) =>
    inferInstanceAs (Decidable (∀ held ∈ st.orders o, held.userId = order.userId))
  | .script (.atomicFillOrder ..) => inferInstanceAs (Decidable True)
  | .script (.atomicCancelOrder ..) => inferInstanceAs (Decidable True)
  | .script (.atomicClosePosition ..) => inferInstanceAs (Decidable True)
  | .script (.atomicReopenPosition ..) => inferInstanceAs (Decidable True)
  | .script (.atomicReopenPositionWithParams ..) => inferInstanceAs (Decidable True)
  | .script (.atomicUpdatePositionParams ..) => inferInstanceAs (Decidable True)
  | .zaddPending .. => inferInstanceAs (Decidable True)
  | .zremPending .. => inferInstanceAs (Decidable True)
  | .setField .. => inferInstanceAs (Decidable True)
  | .setIndex .. => inferInstanceAs (Decidable True)
  | .setUpdatedAt .. => inferInstanceAs (Decidable True)

section Steps
variable {st after : Store} {call : RedisCall} {v : UserId}

theorem redis_commands (hashes : st.HashesOnly) (taken : st.redis call = some after) :
    after = st.performAll (st.redisCommands call) := by
  cases call with
  | script call => exact call_commands hashes taken
  | zaddPending | zremPending | setField | setUpdatedAt =>
    obtain ⟨_, _, rfl⟩ := Option.map_eq_some_iff.mp taken
    rfl
  | setIndex f s p text =>
    obtain ⟨_, _, indexed⟩ := Option.bind_eq_some_iff.mp taken
    cases text <;> cases indexed <;> rfl

/-- A fill opens positions for its order's user only. -/
theorem fillWays_owner (fill : Fill) : FillWays fill (OwnerWay fill.order.userId) where
  opened _ _ _ _ := rfl
  merged _ _ _ _ := rfl
  reduced _ _ _ _ _ _ := rfl
  closed _ _ _ _ := rfl

theorem redis_writes (hashes : st.HashesOnly) (taken : st.redis call = some after)
    (owner : st.callOwner call = some v) : HashWrites (OwnerWay v) st after := by
  cases call with
  | script call =>
    cases call with
    | placeOrder o order =>
      cases taken
      exact ⟨rfl, fun _ => .inl rfl⟩
    | atomicFillOrder args existing old =>
      simp only [redis, Store.call] at taken
      split_ifs at taken with reads
      cases taken
      rcases atomicFillOrder_ways existing old hashes reads.1 (fun fill => OwnerWay fill.order.userId)
        (fun _ _ _ => fillWays_owner _) with same | ⟨order, el, accepted, writes⟩
      · rw [same]
        exact .refl
      · have isOwner : order.userId = v := by
          simpa [callOwner, accepted.stored] using owner
        have fillOwner : (Fill.ofArgs args order el accepted.leverage_pos).order.userId = v := isOwner
        rwa [fillOwner] at writes
    | atomicCancelOrder o timestampMs =>
      cases taken
      unfold atomicCancelOrder
      split
      next => exact .refl
      next => split_ifs <;> exact ⟨rfl, fun _ => .inl rfl⟩
    | atomicClosePosition args =>
      cases taken
      exact atomicClosePosition_ways st args (fun _ _ _ => rfl) fun _ _ _ => rfl
    | atomicReopenPosition p timestampMs =>
      cases taken
      refine (atomicReopenPosition_writes st p timestampMs).mono fun q found h how => ?_
      cases how
      rfl
    | atomicReopenPositionWithParams p timestampMs params =>
      cases taken
      refine (atomicReopenPositionWithParams_writes st p timestampMs params).mono
        fun q found h how => ?_
      cases how
      rfl
    | atomicUpdatePositionParams p timestampMs params =>
      cases taken
      exact atomicUpdatePositionParams_ways st p timestampMs params (fun _ _ _ => rfl)
        fun _ _ _ _ => rfl
  | zaddPending | zremPending =>
    obtain ⟨_, _, rfl⟩ := Option.map_eq_some_iff.mp taken
    exact ⟨rfl, fun _ => .inl rfl⟩
  | setField f p text =>
    obtain ⟨h, stored, rfl⟩ := Option.map_eq_some_iff.mp taken
    refine .hset ?_
    rw [stored]
    cases f <;> rfl
  | setIndex f s p text =>
    obtain ⟨_, _, indexed⟩ := Option.bind_eq_some_iff.mp taken
    cases text <;> cases indexed <;> exact ⟨rfl, fun _ => .inl rfl⟩
  | setUpdatedAt p now =>
    obtain ⟨h, stored, rfl⟩ := Option.map_eq_some_iff.mp taken
    refine .hset ?_
    rw [stored]
    rfl

end Steps

end Store

section Footprints
variable {K : Keys} {s : Symbol} {p : PositionId}

theorem levelCommands_on (member : p ∈ K.positions) (sl tp : JsonNum) :
    ∀ c ∈ levelCommands s p sl tp, c.On K := by
  cases sl <;> cases tp <;> simp [levelCommands, WriteCommand.On, member]

theorem storedLevelCommands_on (member : p ∈ K.positions) (sl tp : Option LevelText) :
    ∀ c ∈ storedLevelCommands s p sl tp, c.On K := by
  rcases sl with - | - | - | x <;> rcases tp with - | - | - | y <;>
    simp [storedLevelCommands, WriteCommand.On, member]

theorem replaceLevelsCommands_on (member : p ∈ K.positions) (sl tp : Option ℚ) :
    ∀ c ∈ replaceLevelsCommands s p sl tp, c.On K := by
  cases sl <;> cases tp <;>
    simp [replaceLevelsCommands, setLevelCommands, WriteCommand.On, member]

theorem unindexCommands_on (member : p ∈ K.positions) : ∀ c ∈ unindexCommands s p, c.On K := by
  simp [unindexCommands, WriteCommand.On, member]

theorem Fill.openCommands_on {fill : Fill} (position : fill.positionUuid ∈ K.positions)
    (user : fill.order.userId ∈ K.users) (size leverage : ℚ) :
    ∀ c ∈ fill.openCommands size leverage, c.On K := by
  have levels := levelCommands_on (s := fill.order.symbol) position fill.order.stopLoss
    fill.order.takeProfit
  simpa [openCommands, WriteCommand.On, position, user] using levels

theorem Fill.closeNettedCommands_on {fill : Fill} (member : p ∈ K.positions)
    (user : fill.order.userId ∈ K.users) (newRealized : ℚ) :
    ∀ c ∈ fill.closeNettedCommands p newRealized, c.On K := by
  have indexes := unindexCommands_on (s := fill.order.symbol) member
  simpa [closeNettedCommands, WriteCommand.On, member, user] using indexes

/-- The stored position that a fill goes to. -/
def Target.IsAt : Target → PositionId → Prop
  | .merge q _, p => p = q
  | .net q _, p => p = q
  | .fresh, _ => False

/-- A fill writes at the position it goes to, and at its uuid if it opens one. -/
theorem Fill.commands_on (fill : Fill) (target : Target) (user : fill.order.userId ∈ K.users)
    (found : ∀ p, target.IsAt p → p ∈ K.positions)
    (opened : (∃ write, .hset fill.positionUuid write ∈ fill.commands target) →
      fill.positionUuid ∈ K.positions) :
    ∀ c ∈ fill.commands target, c.On K := by
  cases target with
  | merge p h =>
    have member : p ∈ K.positions := found p rfl
    have levels := levelCommands_on (s := fill.order.symbol) member fill.order.stopLoss
      fill.order.takeProfit
    simpa [Fill.commands, addToCommands, WriteCommand.On, member] using levels
  | net p h =>
    have member : p ∈ K.positions := found p rfl
    simp only [Fill.commands, netAgainstCommands] at opened ⊢
    split_ifs at opened ⊢
    · simp [WriteCommand.On, member]
    · exact closeNettedCommands_on member user _
    · have uuid : fill.positionUuid ∈ K.positions :=
        opened ⟨_, List.mem_append_right _ List.mem_cons_self⟩
      intro c sent
      rcases List.mem_append.mp sent with closing | opening
      · exact closeNettedCommands_on member user _ c closing
      · exact openCommands_on uuid user _ _ c opening
  | fresh =>
    have uuid : fill.positionUuid ∈ K.positions := opened ⟨_, List.mem_cons_self⟩
    exact openCommands_on uuid user _ _

theorem closeCommands_on {args : CloseArgs} (member : args.positionId ∈ K.positions)
    (found : Option PositionHash) : ∀ c ∈ closeCommands args found, c.On K := by
  cases found with
  | none => simp [closeCommands]
  | some h =>
    simp only [closeCommands]
    split_ifs
    · simp
    · cases h.symbol with
      | none => simp [WriteCommand.On, member]
      | some symbol =>
        have indexes := unindexCommands_on (s := symbol) member
        simpa [WriteCommand.On, member] using indexes
    · simp [WriteCommand.On, member]

theorem reopenCommands_on (member : p ∈ K.positions) (timestampMs : Millis)
    (found : Option PositionHash) : ∀ c ∈ reopenCommands p timestampMs found, c.On K := by
  cases found with
  | none => simp [reopenCommands]
  | some h =>
    simp only [reopenCommands]
    split_ifs
    · simp
    · split
      next symbol _ _ _ =>
        have levels := storedLevelCommands_on (s := symbol) member h.sl h.tp
        simpa [WriteCommand.On, member] using levels
      next => simp
    · simp

theorem reopenWithParamsCommands_on (member : p ∈ K.positions) (timestampMs : Millis)
    (params : ParamOverrides) (found : Option PositionHash) :
    ∀ c ∈ reopenWithParamsCommands p timestampMs params found, c.On K := by
  cases found with
  | none => simp [reopenWithParamsCommands]
  | some h =>
    simp only [reopenWithParamsCommands]
    split_ifs
    · simp
    · split
      next symbol _ _ _ =>
        have levels := replaceLevelsCommands_on (s := symbol) member params.sl params.tp
        simpa [WriteCommand.On, member, or_imp, forall_and] using levels
      next => simp
    · simp

theorem updateParamsCommands_on (member : p ∈ K.positions) (timestampMs : Millis)
    (params : ParamOverrides) (found : Option PositionHash) :
    ∀ c ∈ updateParamsCommands p timestampMs params found, c.On K := by
  cases found with
  | none => simp [updateParamsCommands]
  | some h =>
    simp only [updateParamsCommands]
    split_ifs
    · simp
    · split
      next symbol _ _ _ =>
        have levels := replaceLevelsCommands_on (s := symbol) member params.sl params.tp
        split
        · simp [WriteCommand.On, member]
        · simpa [WriteCommand.On, member, or_imp, forall_and] using levels
      next => simp

theorem cancelCommands_on {o : OrderId} (member : o ∈ K.orders) (timestampMs : Millis)
    (found : Option Order) : ∀ c ∈ cancelCommands o timestampMs found, c.On K := by
  cases found with
  | none => simp [cancelCommands]
  | some order =>
    simp only [cancelCommands]
    split_ifs
    · simp
    · simp [WriteCommand.On, member]

end Footprints

namespace Store
variable {st after : Store} {call : RedisCall} {u v : UserId}

theorem Owned.owned_at (owned : st.Owned) {existing : List PositionId} {order : Order}
    (listing : Smembers existing (st.userPositions order.userId)) {p : PositionId}
    (at_target : (order.target st existing).IsAt p) :
    ∃ h ∈ st.hash p, h.userId = some order.userId := by
  have listed : p ∈ existing := by
    cases target : order.target st existing with
    | merge q h =>
      rw [target] at at_target
      cases at_target
      exact (Order.target_merge target).1
    | net q h =>
      rw [target] at at_target
      cases at_target
      exact (Order.target_net target).1
    | fresh =>
      rw [target] at at_target
      cases at_target
  exact owned.listed order.userId p (listing.mem_iff.mp listed)

/-- The keys a call writes at: records of its owner, its own order id, and
positions that it creates. -/
def writtenBy (st : Store) (u : UserId) (call : RedisCall) : Keys where
  orders := {o | (∃ order ∈ st.orders o, order.userId = u) ∨
    ∃ order, .setOrder o order ∈ st.redisCommands call}
  positions := {p | (∃ h ∈ st.hash p, h.userId = some u) ∨
    st.hash p = none ∧ ∃ write, .hset p write ∈ st.redisCommands call}
  users := {u}

theorem redisCommands_on (owned : st.Owned) (taken : st.redis call = some after)
    (owner : st.callOwner call = some v) :
    ∀ c ∈ st.redisCommands call, c.On (st.writtenBy v call) := by
  have at_order (o : OrderId) (isOwner : (st.orders o).map (·.userId) = some v) :
      o ∈ (st.writtenBy v call).orders := by
    obtain ⟨order, stored, is_v⟩ := Option.map_eq_some_iff.mp isOwner
    exact .inl ⟨order, stored, is_v⟩
  have at_position (p : PositionId) (isOwner : (st.hash p).bind (·.userId) = some v) :
      p ∈ (st.writtenBy v call).positions := by
    obtain ⟨h, stored, is_v⟩ := Option.bind_eq_some_iff.mp isOwner
    exact .inl ⟨h, stored, is_v⟩
  cases call with
  | script call =>
    cases call with
    | placeOrder o order =>
      intro c sent
      cases List.mem_singleton.mp sent
      exact .inr ⟨order, sent⟩
    | atomicFillOrder args existing old =>
      simp only [redis, Store.call] at taken
      split_ifs at taken with reads
      simp only [redisCommands, commands] at at_position at_order ⊢
      have orderKey := at_order args.orderId owner
      have sends : ∀ p write, .hset p write ∈ fillCommands st args existing → st.hash p = none →
          p ∈ (st.writtenBy v (.script (.atomicFillOrder args existing old))).positions :=
        fun p write sent fresh => .inr ⟨fresh, write, sent⟩
      unfold fillCommands at sends ⊢
      split at sends
      next el order leverage stored =>
        have isOwner : order.userId = v := by simpa [callOwner, stored] using owner
        split_ifs at sends ⊢ with leverage_pos passes
        · have listing : Smembers existing (st.userPositions order.userId) :=
            (reads.2 order stored).1
          have ofFill := (Fill.ofArgs args order el leverage_pos).commands_on
            ((Fill.ofArgs args order el leverage_pos).order.target st existing)
            (K := st.writtenBy v (.script (.atomicFillOrder args existing old))) isOwner
            (fun p at_target => .inl (isOwner ▸ owned.owned_at listing at_target))
            fun opens => by
              obtain ⟨write, sent⟩ := opens
              exact sends _ write (List.mem_cons_of_mem _ (List.mem_cons_of_mem _ sent)) reads.1
          simp only [List.forall_mem_cons]
          exact ⟨orderKey, orderKey, ofFill⟩
        · simp
        · simp
      next => simp
    | atomicCancelOrder o timestampMs => exact cancelCommands_on (at_order o owner) timestampMs _
    | atomicClosePosition args => exact closeCommands_on (at_position _ owner) _
    | atomicReopenPosition p timestampMs => exact reopenCommands_on (at_position p owner) timestampMs _
    | atomicReopenPositionWithParams p timestampMs params =>
      exact reopenWithParamsCommands_on (at_position p owner) timestampMs params _
    | atomicUpdatePositionParams p timestampMs params =>
      exact updateParamsCommands_on (at_position p owner) timestampMs params _
  | zaddPending s o | zremPending s o =>
    intro c sent
    cases List.mem_singleton.mp sent
    exact at_order o owner
  | setField f p text =>
    intro c sent
    cases List.mem_singleton.mp sent
    exact at_position p owner
  | setIndex f s p text =>
    intro c sent
    cases text with
    | null | num =>
      cases List.mem_singleton.mp sent
      exact at_position p owner
    | userdata => cases sent
  | setUpdatedAt p now =>
    intro c sent
    cases List.mem_singleton.mp sent
    exact at_position p owner

/-- Every order a call sets is its owner's, and so was the one that it replaces. -/
theorem setOrder_owner {o : OrderId} {order : Order} (keeps : st.KeepsOrderOwner call)
    (owner : st.callOwner call = some v) (sent : .setOrder o order ∈ st.redisCommands call) :
    order.userId = v ∧ ∀ held ∈ st.orders o, held.userId = v := by
  let NoOrders : Keys := ⟨∅, Set.univ, Set.univ⟩
  have anywhere (p : PositionId) : p ∈ NoOrders.positions := Set.mem_univ p
  cases call with
  | script call =>
    cases call with
    | placeOrder r placed =>
      cases List.mem_singleton.mp sent
      have isOwner : order.userId = v := Option.some.inj owner
      exact ⟨isOwner, fun held stored => (keeps held stored).trans isOwner⟩
    | atomicFillOrder args existing old =>
      simp only [redisCommands, commands, fillCommands] at sent
      split at sent
      next el held leverage stored =>
        have isOwner : held.userId = v := by simpa [callOwner, stored] using owner
        split_ifs at sent with leverage_pos passes
        · have ofFill := (Fill.ofArgs args held el leverage_pos).commands_on
            ((Fill.ofArgs args held el leverage_pos).order.target st existing) (K := NoOrders)
            (Set.mem_univ _) (fun p _ => anywhere p) fun _ => anywhere _
          simp only [List.mem_cons, reduceCtorEq, false_or] at sent
          rcases sent with first | later
          · cases first
            refine ⟨isOwner, fun other read => ?_⟩
            cases Option.some.inj (stored.symm.trans read)
            exact isOwner
          · cases ofFill _ later
        · cases sent
        · cases sent
      next => cases sent
    | atomicCancelOrder r timestampMs =>
      simp only [redisCommands, commands] at sent
      cases stored : st.orders r with
      | none => simp [stored, cancelCommands] at sent
      | some held =>
        have isOwner : held.userId = v := by simpa [callOwner, stored] using owner
        simp only [stored, cancelCommands] at sent
        split_ifs at sent
        · cases sent
        · simp only [List.mem_cons, reduceCtorEq, List.not_mem_nil, or_self, or_false] at sent
          cases sent
          refine ⟨isOwner, fun other read => ?_⟩
          cases Option.some.inj (stored.symm.trans read)
          exact isOwner
    | atomicClosePosition args => cases closeCommands_on (K := NoOrders) (anywhere _) _ _ sent
    | atomicReopenPosition p timestampMs =>
      cases reopenCommands_on (K := NoOrders) (anywhere p) timestampMs _ _ sent
    | atomicReopenPositionWithParams p timestampMs params =>
      cases reopenWithParamsCommands_on (K := NoOrders) (anywhere p) timestampMs params _ _ sent
    | atomicUpdatePositionParams p timestampMs params =>
      cases updateParamsCommands_on (K := NoOrders) (anywhere p) timestampMs params _ _ sent
  | zaddPending | zremPending | setField | setUpdatedAt => cases List.mem_singleton.mp sent
  | setIndex f s p text => cases text <;> simp [redisCommands] at sent

section Owners
variable (owned : st.Owned) (keeps : st.KeepsOrderOwner call)
  (taken : st.redis call = some after) (owner : st.callOwner call = some v)
include owned keeps taken owner

/-- A stored order stays with its user. -/
theorem redis_order_kept {o : OrderId} {order : Order} (stored : st.orders o = some order) :
    ∃ later ∈ after.orders o, later.userId = order.userId := by
  rw [redis_commands owned.hashesOnly taken]
  rcases orders_performAll st (st.redisCommands call) o with ⟨-, same⟩ | ⟨later, sent, read⟩
  · exact ⟨order, same.trans stored, rfl⟩
  · obtain ⟨isOwner, before⟩ := setOrder_owner keeps owner sent
    exact ⟨later, read, isOwner.trans (before order stored).symm⟩

omit keeps in
theorem redis_hash_kept {p : PositionId} {h : PositionHash} (stored : st.hash p = some h) :
    ∃ later ∈ after.hash p, later.userId = h.userId := by
  rcases (redis_writes owned.hashesOnly taken owner).hash p with same | ⟨later, read, how⟩
  · exact ⟨h, same.trans stored, rfl⟩
  · rw [stored] at how
    exact ⟨later, read, how⟩

/-- Afterwards the call's owner has a record wherever the call wrote. -/
theorem redis_on : ∀ c ∈ st.redisCommands call, c.On (after.heldBy v) := by
  intro c sent
  refine (redisCommands_on owned taken owner c sent).mono ?_ ?_ le_rfl
  · rintro o (⟨order, stored, isOwner⟩ | ⟨order, placed⟩)
    · obtain ⟨later, read, same⟩ := redis_order_kept owned keeps taken owner stored
      exact ⟨later, read, same.trans isOwner⟩
    · rw [redis_commands owned.hashesOnly taken]
      rcases orders_performAll st (st.redisCommands call) o with ⟨unset, -⟩ | ⟨later, last, read⟩
      · exact absurd placed (unset order)
      · exact ⟨later, read, (setOrder_owner keeps owner last).1⟩
  · rintro p (⟨h, stored, isOwner⟩ | ⟨fresh, write, opens⟩)
    · obtain ⟨later, read, same⟩ := redis_hash_kept owned taken owner stored
      exact ⟨later, read, same.trans isOwner⟩
    · have exists_after : ∃ h, after.hash p = some h := by
        rw [redis_commands owned.hashesOnly taken]
        exact stored_performAll (.inr ⟨write, opens⟩)
      obtain ⟨h, read⟩ := exists_after
      rcases (redis_writes owned.hashesOnly taken owner).hash p with same | ⟨later, written, how⟩
      · rw [read, fresh] at same
        cases same
      · rw [fresh] at how
        exact ⟨later, written, how⟩

theorem redis_owned : after.Owned where
  hashesOnly := owned.hashesOnly.of_writes (redis_writes owned.hashesOnly taken owner)
  owner := by
    refine (redis_writes owned.hashesOnly taken owner).all (P := fun h => ∃ u, h.userId = some u)
      (fun q h how before => ?_) owned.owner
    cases stored : st.hash q with
    | none =>
      rw [stored] at how
      exact ⟨v, how⟩
    | some g =>
      rw [stored] at how
      obtain ⟨u, isOwner⟩ := before g stored
      exact ⟨u, how.trans isOwner⟩
  listed u p member := by
    have moved : p ∈ st.userPositions u ∨ .sadd u p ∈ st.redisCommands call := by
      rw [redis_commands owned.hashesOnly taken] at member
      exact mem_performAll member
    rcases moved with before | added
    · obtain ⟨h, stored, isOwner⟩ := owned.listed u p before
      obtain ⟨later, read, same⟩ := redis_hash_kept owned taken owner stored
      exact ⟨later, read, same.trans isOwner⟩
    · obtain ⟨isOwner, h, read, holds⟩ := redis_on owned keeps taken owner _ added
      exact ⟨h, read, holds.trans (congrArg some isOwner.symm)⟩

end Owners

/-- A call that concerns nobody does nothing. -/
theorem redis_nobody (owned : st.Owned) (taken : st.redis call = some after)
    (nobody : st.callOwner call = none) : after = st := by
  have unstored (p : PositionId) (unowned : (st.hash p).bind (·.userId) = none) :
      st.hash p = none := by
    cases stored : st.hash p with
    | none => rfl
    | some h =>
      obtain ⟨u, isOwner⟩ := owned.owner p h stored
      simp [stored, isOwner] at unowned
  rw [redis_commands owned.hashesOnly taken]
  cases call with
  | script call =>
    cases call with
    | placeOrder o order => cases nobody
    | atomicFillOrder args existing old =>
      have absent : st.orders args.orderId = none := by simpa [callOwner] using nobody
      simp only [redisCommands, commands, fillCommands, absent]
      split <;> first | rfl | contradiction
    | atomicCancelOrder o timestampMs =>
      have absent : st.orders o = none := by simpa [callOwner] using nobody
      simp [redisCommands, commands, absent, cancelCommands]
    | atomicClosePosition args =>
      simp [redisCommands, commands, unstored _ nobody, closeCommands]
    | atomicReopenPosition p timestampMs =>
      simp [redisCommands, commands, unstored p nobody, reopenCommands]
    | atomicReopenPositionWithParams p timestampMs params =>
      simp [redisCommands, commands, unstored p nobody, reopenWithParamsCommands]
    | atomicUpdatePositionParams p timestampMs params =>
      simp [redisCommands, commands, unstored p nobody, updateParamsCommands]
  | zaddPending s o | zremPending s o =>
    have absent : st.orders o = none := by simpa [callOwner] using nobody
    simp [redis, absent] at taken
  | setField f p text => simp [redis, unstored p nobody] at taken
  | setIndex f s p text => simp [redis, unstored p nobody] at taken
  | setUpdatedAt p now => simp [redis, unstored p nobody] at taken

/-- A call of another user, or of nobody. -/
def othersCall (u : UserId) (st : Store) (call : RedisCall) : Bool :=
  decide (st.callOwner call ≠ some u)

section Keys
variable (owned : st.Owned) (keeps : st.KeepsOrderOwner call)
  (taken : st.redis call = some after) (owner : st.callOwner call = some v)
include owned keeps taken owner

/-- Nobody gains keys. -/
theorem redis_keys_subset (u : UserId) :
    (after.keysOf u).orders ⊆ (st.keysOf u).orders ∧
      (after.keysOf u).positions ⊆ (st.keysOf u).positions := by
  refine ⟨fun o member order stored => ?_, fun p member h stored => ?_⟩
  · obtain ⟨later, read, same⟩ := redis_order_kept owned keeps taken owner stored
    exact same.symm.trans (member later read)
  · obtain ⟨later, read, same⟩ := redis_hash_kept owned taken owner stored
    exact same.symm.trans (member later read)

/-- The keys a user loses had no record. -/
theorem redis_keys_lost (u : UserId) :
    (∀ o ∈ (st.keysOf u).orders, o ∉ (after.keysOf u).orders → st.orders o = none) ∧
      ∀ p ∈ (st.keysOf u).positions, p ∉ (after.keysOf u).positions → st.hash p = none := by
  refine ⟨fun o member lost => ?_, fun p member lost => ?_⟩
  · by_contra present
    obtain ⟨order, stored⟩ := Option.ne_none_iff_exists'.mp present
    obtain ⟨later, read, same⟩ := redis_order_kept owned keeps taken owner stored
    refine lost fun other found => ?_
    cases Option.some.inj (Option.mem_def.mp read |>.symm.trans found)
    exact same.trans (member order stored)
  · by_contra present
    obtain ⟨h, stored⟩ := Option.ne_none_iff_exists'.mp present
    obtain ⟨later, read, same⟩ := redis_hash_kept owned taken owner stored
    refine lost fun other found => ?_
    cases Option.some.inj (Option.mem_def.mp read |>.symm.trans found)
    exact same.trans (member h stored)

/-- A user's own call leaves the user's keys as they were. -/
theorem redis_keys_own : after.keysOf v = st.keysOf v := by
  obtain ⟨orders, positions⟩ := redis_keys_subset owned keeps taken owner v
  obtain ⟨lostOrders, lostPositions⟩ := redis_keys_lost owned keeps taken owner v
  have keptOrders : (st.keysOf v).orders ⊆ (after.keysOf v).orders := by
    intro o member
    by_contra lost
    have fresh := lostOrders o member lost
    refine lost fun order read => ?_
    rw [redis_commands owned.hashesOnly taken] at read
    rcases orders_performAll st (st.redisCommands call) o with ⟨-, same⟩ | ⟨later, sent, last⟩
    · rw [same, fresh] at read
      cases read
    · cases Option.some.inj (last.symm.trans read)
      exact (setOrder_owner keeps owner sent).1
  have keptPositions : (st.keysOf v).positions ⊆ (after.keysOf v).positions := by
    intro p member
    by_contra lost
    have fresh := lostPositions p member lost
    refine lost fun h read => ?_
    rcases (redis_writes owned.hashesOnly taken owner).hash p with same | ⟨later, written, how⟩
    · rw [same, fresh] at read
      cases read
    · rw [fresh] at how
      cases Option.some.inj (written.symm.trans read)
      exact how
  have sameOrders : (after.keysOf v).orders = (st.keysOf v).orders := orders.antisymm keptOrders
  have samePositions : (after.keysOf v).positions = (st.keysOf v).positions :=
    positions.antisymm keptPositions
  have rebuilt : after.keysOf v =
      ⟨(after.keysOf v).orders, (after.keysOf v).positions, {v}⟩ := rfl
  rw [rebuilt, sameOrders, samePositions]
  rfl

end Keys

/-- The store without the records of other users. -/
def OwnPart (u : UserId) (st part : Store) : Prop := Part (st.keysOf u) st part

section Parts
variable {part : Store} (owned : st.Owned) (keeps : st.KeepsOrderOwner call)
  (taken : st.redis call = some after) (same : OwnPart u st part)
include owned keeps taken same

theorem OwnPart.others (other : othersCall u st call = true) : OwnPart u after part := by
  have notOwn : st.callOwner call ≠ some u := of_decide_eq_true other
  cases owner : st.callOwner call with
  | none =>
    rw [redis_nobody owned taken owner]
    exact same
  | some v =>
    have differ : v ≠ u := fun here => notOwn (owner.trans (congrArg some here))
    obtain ⟨orders, positions⟩ := redis_keys_subset owned keeps taken owner u
    obtain ⟨lostOrders, lostPositions⟩ := redis_keys_lost owned keeps taken owner u
    have smaller : Part (after.keysOf u) st part := by
      refine same.shrink orders positions le_rfl (fun o member lost => ?_) fun p member lost => ?_
      · rw [same.orders o member, lostOrders o member lost]
      · rw [same.hash p member, lostPositions p member lost]
    have off : ∀ c ∈ st.redisCommands call, c.On (after.keysOf u).others := by
      intro c sent
      refine (redis_on owned keeps taken owner c sent).mono ?_ ?_ ?_
      · rintro o ⟨order, read, isOwner⟩ member
        exact differ (isOwner.symm.trans (member order read))
      · rintro p ⟨h, read, isOwner⟩ member
        exact differ (Option.some.inj (isOwner.symm.trans (member h read)))
      · rintro w isOwner member
        cases isOwner
        exact differ member
    have unseen := smaller.performAll_others off
    have left := redis_commands owned.hashesOnly taken
    rw [← left] at unseen
    exact unseen

end Parts

section OwnCalls
variable {part : Store} (owned : st.Owned) (taken : st.redis call = some after)
  (owner : st.callOwner call = some u) (same : OwnPart u st part)

theorem target_congr {order : Order} {existing : List PositionId}
    (alike : ∀ p ∈ existing, part.hash p = st.hash p) :
    order.target part existing = order.target st existing := by
  have openOn (side : PositionSide) :
      order.openOn part side existing = order.openOn st side existing := by
    unfold Order.openOn
    induction existing with
    | nil => rfl
    | cons p rest ih =>
      rw [List.findSome?_cons, List.findSome?_cons, alike p List.mem_cons_self,
        ih fun q member => alike q (List.mem_cons_of_mem _ member)]
  unfold Order.target
  simp only [openOn]

include same

theorem OwnPart.order_eq {o : OrderId} (isOwner : (st.orders o).map (·.userId) = some u) :
    part.orders o = st.orders o := by
  obtain ⟨order, stored, isUser⟩ := Option.map_eq_some_iff.mp isOwner
  refine same.orders o fun other read => ?_
  cases Option.some.inj (stored.symm.trans read)
  exact isUser

theorem OwnPart.hash_eq {p : PositionId} (isOwner : (st.hash p).bind (·.userId) = some u) :
    part.hash p = st.hash p := by
  obtain ⟨h, stored, isUser⟩ := Option.bind_eq_some_iff.mp isOwner
  refine same.hash p fun other read => ?_
  cases Option.some.inj (stored.symm.trans read)
  exact isUser

include owned taken owner

/-- The user's own call is possible in the user's part, with the same commands. -/
theorem OwnPart.sends : (∃ other, part.redis call = some other) ∧
    part.redisCommands call = st.redisCommands call := by
  cases call with
  | script call =>
    cases call with
    | placeOrder o order => exact ⟨⟨_, rfl⟩, rfl⟩
    | atomicFillOrder args existing old =>
      have read : part.orders args.orderId = st.orders args.orderId := same.order_eq owner
      obtain ⟨order, stored, isOwner⟩ := Option.map_eq_some_iff.mp owner
      simp only [redis, Store.call] at taken
      split_ifs at taken with reads
      have listing := (reads.2 order stored).1
      have sets : part.userPositions order.userId = st.userPositions order.userId := by
        rw [isOwner]
        exact same.userPositions u rfl
      have fresh : part.hash args.positionUuid = none := by
        have free : args.positionUuid ∈ (st.keysOf u).positions := by
          intro h found
          rw [reads.1] at found
          cases found
        rw [same.hash _ free, reads.1]
      refine ⟨?_, ?_⟩
      · simp only [redis, Store.call]
        rw [if_pos]
        · exact ⟨_, rfl⟩
        · refine ⟨fresh, fun other found => ?_⟩
          rw [read] at found
          cases Option.some.inj (stored.symm.trans found)
          rw [sets, same.oldUserPositions]
          exact reads.2 order stored
      · have alike : ∀ p ∈ existing, part.hash p = st.hash p := by
          intro p member
          obtain ⟨h, found, holds⟩ := owned.listed order.userId p (listing.mem_iff.mp member)
          have found : st.hash p = some h := found
          refine same.hash_eq ?_
          rw [found, Option.bind_some, holds, isOwner]
        simp only [redisCommands, commands, fillCommands, read, stored]
        cases args.effectiveLeverage with
        | none => rfl
        | some el => simp only [target_congr alike]
    | atomicCancelOrder o timestampMs =>
      refine ⟨⟨_, rfl⟩, ?_⟩
      simp only [redisCommands, commands, same.order_eq owner]
    | atomicClosePosition args =>
      refine ⟨⟨_, rfl⟩, ?_⟩
      simp only [redisCommands, commands]
      rw [same.hash_eq owner]
    | atomicReopenPosition p timestampMs =>
      refine ⟨⟨_, rfl⟩, ?_⟩
      simp only [redisCommands, commands]
      rw [same.hash_eq owner]
    | atomicReopenPositionWithParams p timestampMs params =>
      refine ⟨⟨_, rfl⟩, ?_⟩
      simp only [redisCommands, commands]
      rw [same.hash_eq owner]
    | atomicUpdatePositionParams p timestampMs params =>
      refine ⟨⟨_, rfl⟩, ?_⟩
      simp only [redisCommands, commands]
      rw [same.hash_eq owner]
  | zaddPending s o | zremPending s o =>
    have read : part.orders o = st.orders o := same.order_eq owner
    obtain ⟨order, stored, -⟩ := Option.map_eq_some_iff.mp owner
    exact ⟨⟨_, by rw [redis, read, stored]; rfl⟩, rfl⟩
  | setField f p text =>
    have read : part.hash p = st.hash p := same.hash_eq owner
    obtain ⟨h, stored, -⟩ := Option.bind_eq_some_iff.mp owner
    exact ⟨⟨_, by rw [redis, read, stored]; rfl⟩, rfl⟩
  | setIndex f s p text =>
    have read : part.hash p = st.hash p := same.hash_eq owner
    obtain ⟨h, stored, -⟩ := Option.bind_eq_some_iff.mp owner
    obtain ⟨_, _, indexed⟩ := Option.bind_eq_some_iff.mp taken
    refine ⟨?_, rfl⟩
    simp only [redis, read, stored, Option.bind_some]
    cases text <;> first | exact ⟨_, rfl⟩ | cases indexed
  | setUpdatedAt p now =>
    have read : part.hash p = st.hash p := same.hash_eq owner
    obtain ⟨h, stored, -⟩ := Option.bind_eq_some_iff.mp owner
    exact ⟨⟨_, by rw [redis, read, stored]; rfl⟩, rfl⟩

theorem OwnPart.own (keeps : st.KeepsOrderOwner call) :
    ∃ other, part.redis call = some other ∧ OwnPart u after other := by
  obtain ⟨⟨other, follows⟩, sent⟩ := same.sends owned taken owner
  refine ⟨other, follows, ?_⟩
  have keys : after.keysOf u = st.keysOf u := redis_keys_own owned keeps taken owner
  have on : ∀ c ∈ st.redisCommands call, c.On (st.keysOf u) := by
    intro c member
    rw [← keys]
    refine (redis_on owned keeps taken owner c member).mono ?_ ?_ le_rfl
    · rintro o ⟨order, read, isOwner⟩ found there
      cases Option.some.inj (Option.mem_def.mp read |>.symm.trans there)
      exact isOwner
    · rintro p ⟨h, read, isOwner⟩ found there
      cases Option.some.inj (Option.mem_def.mp read |>.symm.trans there)
      exact isOwner
  have both := Part.performAll same on
  rw [← sent, ← redis_commands same.hashesOnly follows, sent,
    ← redis_commands owned.hashesOnly taken, ← keys] at both
  exact both

end OwnCalls

theorem owned_empty : empty.Owned where
  hashesOnly _ := rfl
  owner p h stored := by cases stored
  listed u p member := by cases member

theorem ownPart_empty (u : UserId) : OwnPart u empty empty where
  orders _ _ := rfl
  pending _ _ _ := Iff.rfl
  hash _ _ := rfl
  score _ _ _ _ := rfl
  userPositions _ _ := rfl
  noOrder _ _ := rfl
  noHash _ _ := rfl
  hashesOnly _ := rfl
  oldUserPositions := rfl

/-- Users do not reach each other's records: whatever else runs in between, a
user's orders, positions and index entries are those of the user's calls alone. -/
theorem isolated_of_run {u : UserId} {calls : List RedisCall} {st : Store}
    (run : GuardedRun redis KeepsOrderOwner empty calls st) :
    ∃ part, Run redis empty (publicLabels redis (othersCall u) empty calls) part ∧
      OwnPart u st part := by
  suffices unwound : ∃ part, Run redis empty (publicLabels redis (othersCall u) empty calls) part ∧
      st.Owned ∧ OwnPart u st part by
    obtain ⟨part, purged, -, same⟩ := unwound
    exact ⟨part, purged, same⟩
  refine run.purge_at (R := fun st part => st.Owned ∧ OwnPart u st part)
    ⟨owned_empty, ownPart_empty u⟩ (fun st part call after keeps isOwn taken related => ?_)
    fun st part call after keeps other taken related => ?_
  · have owner : st.callOwner call = some u := not_not.mp (of_decide_eq_false isOwn)
    obtain ⟨other, follows, same⟩ := related.2.own related.1 taken owner keeps
    exact ⟨other, follows, redis_owned related.1 keeps taken owner, same⟩
  · refine ⟨?_, related.2.others related.1 keeps taken other⟩
    cases owner : st.callOwner call with
    | none =>
      rw [redis_nobody related.1 taken owner]
      exact related.1
    | some v => exact redis_owned related.1 keeps taken owner

/-- A netting order on one symbol. -/
def nettingOrder (o : OrderId) (u : UserId) (side : Side) (size : ℚ) : Order :=
  { id := o, userId := u, symbol := "EURUSD", side := side, orderType := .MARKET, size := size
    stopLoss := .num 8, takeProfit := .num 20, accountType := some "netting" }

/-- Two users trade the same symbol in turns. -/
def turnsCalls : List RedisCall :=
  [.script (.placeOrder 1 (nettingOrder 1 7 .BUY 2)),
   .script (.placeOrder 2 (nettingOrder 2 8 .SELL 5)),
   .zaddPending "EURUSD" 2, .zaddPending "EURUSD" 1,
   .script (.atomicFillOrder ⟨1, 10, 2, 1000, .uuid 1, some 100⟩ [] []),
   .script (.atomicFillOrder ⟨2, 10, 5, 1001, .uuid 2, some 100⟩ [] []),
   .script (.placeOrder 3 (nettingOrder 3 8 .BUY 1)),
   .script (.atomicFillOrder ⟨3, 11, 1, 1002, .uuid 3, some 100⟩ [.uuid 2] []),
   .setField .sl (.uuid 2) (.num 12), .setIndex .sl "EURUSD" (.uuid 2) (.num 12),
   .script (.atomicClosePosition
     { positionId := .uuid 1, exitPrice := 12, closeSize := 1, timestampMs := 2000 })]

theorem isolated_turns : ∃ st, GuardedRun redis KeepsOrderOwner empty turnsCalls st ∧
    (publicLabels redis (othersCall 7) empty turnsCalls).length = 4 ∧
    ∃ part, Run redis empty (publicLabels redis (othersCall 7) empty turnsCalls) part ∧
      OwnPart 7 st part := by
  have evaluates : (runGuarded redis KeepsOrderOwner empty turnsCalls).map
      (fun st => (st.hash (.uuid 1)).bind (·.size)) = some (some 1) := by decide +kernel
  obtain ⟨st, run, -⟩ := GuardedRun.of_eval_map evaluates
  exact ⟨st, run, by decide +kernel, isolated_of_run run⟩

end Store

end TradingPlatform
