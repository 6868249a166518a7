import Mathlib
import TradingPlatform.Library.FiniteTable

namespace TradingPlatform

abbrev UserId := ℕ
abbrev OrderId := ℕ
abbrev SymbolId := ℕ
abbrev Symbol := String
abbrev GroupId := String
/-- Unix time in milliseconds. -/
abbrev Millis := ℤ

/-- Position ids: UUIDs of the hash format, `pos-N` of the older JSON format. -/
inductive PositionId
  | uuid (n : ℕ)
  | legacy (n : ℕ)
  deriving DecidableEq, Repr

inductive Side
  | BUY | SELL
  deriving DecidableEq, Repr

inductive OrderType
  | MARKET | LIMIT
  deriving DecidableEq, Repr

inductive PositionSide
  | LONG | SHORT
  deriving DecidableEq, Repr

/-- The side a position opened by an order of this side has. -/
def Side.opens : Side → PositionSide
  | .BUY => .LONG
  | .SELL => .SHORT

/-- The texts of `status` in `order:{id}`. The Rust encoder writes
`CANCELLED`, the cancel script `CANCELED`. -/
inductive OrderStatus
  | PENDING | PARTIALLYFILLED | FILLED | CANCELED | CANCELLED | REJECTED
  deriving DecidableEq, Repr

inductive PositionStatus
  | OPEN | CLOSED | LIQUIDATED
  deriving DecidableEq, Repr

/-- A numeric JSON field as the scripts decode it: missing, `null` (the
truthy value `cjson.null`), or a number. Numbers are exact rationals. -/
inductive JsonNum
  | absent
  | null
  | num (q : ℚ)
  deriving DecidableEq, Repr

def JsonNum.truthy : JsonNum → Bool
  | .absent => false
  | .null => true
  | .num _ => true

def JsonNum.tonumber : JsonNum → Option ℚ
  | .absent => none
  | .null => none
  | .num q => some q

/-- The text of an `sl` or `tp` hash field: `'null'`, the text `tostring`
gives for `cjson.null`, or a numeral. -/
inductive LevelText
  | null
  | userdata
  | num (q : ℚ)
  deriving DecidableEq, Repr

def LevelText.tonumber : LevelText → Option ℚ
  | .null => none
  | .userdata => none
  | .num q => some q

/-- `level and tostring(level) or 'null'`. -/
def JsonNum.levelText : JsonNum → LevelText
  | .absent => .null
  | .null => .userdata
  | .num q => .num q

/-- The order record, as JSON under `order:{id}` and as `models::Order` in
the engine's cache, where `None` is the JSON `null`. -/
structure Order where
  id : OrderId
  userId : UserId
  symbol : Symbol
  groupId : Option GroupId := none
  side : Side
  orderType : OrderType
  size : ℚ
  limitPrice : JsonNum := .null
  stopLoss : JsonNum := .null
  takeProfit : JsonNum := .null
  status : OrderStatus := .PENDING
  filledSize : ℚ := 0
  averageFillPrice : JsonNum := .null
  accountType : Option String := some "hedging"
  marginFromCash : JsonNum := .absent
  marginFromBonus : JsonNum := .absent
  requestedBid : Option ℚ := none
  requestedAsk : Option ℚ := none
  maxSlippageBps : Option ℤ := none
  updatedAt : Millis := 0
  filledAt : Option Millis := none
  canceledAt : Option Millis := none
  rejectionReason : Option String := none
  deriving DecidableEq, Repr

/-- The hash `pos:by_id:{id}`. A field is `none` until some HSET writes it. -/
structure PositionHash where
  userId : Option UserId := none
  symbol : Option Symbol := none
  groupId : Option GroupId := none
  side : Option PositionSide := none
  size : Option ℚ := none
  entryPrice : Option ℚ := none
  avgPrice : Option ℚ := none
  leverage : Option ℚ := none
  margin : Option ℚ := none
  marginFromCash : Option ℚ := none
  marginFromBonus : Option ℚ := none
  unrealizedPnl : Option ℚ := none
  realizedPnl : Option ℚ := none
  status : Option PositionStatus := none
  openedAt : Option Millis := none
  updatedAt : Option Millis := none
  sl : Option LevelText := none
  tp : Option LevelText := none
  originalSize : Option ℚ := none
  exitPrice : Option ℚ := none
  closedAt : Option Millis := none
  deriving DecidableEq, Repr

/-- A position of the older format: the JSON under `position:{id}`. -/
structure OldPosition where
  symbol : Symbol
  side : PositionSide
  status : PositionStatus
  size : Option ℚ := none
  entryPrice : Option ℚ := none
  leverage : JsonNum := .absent
  unrealizedPnl : Option ℚ := none
  realizedPnl : Option ℚ := none
  openedAt : Option Millis := none
  stopLoss : JsonNum := .absent
  takeProfit : JsonNum := .absent
  deriving DecidableEq, Repr

/-- The sorted sets `pos:open:{symbol}`, `pos:sl:{symbol}`, `pos:tp:{symbol}`. -/
inductive PriceIndex
  | posOpen | posSl | posTp
  deriving DecidableEq, Repr

/-- The keys of Redis that the order engine's scripts read and write. -/
structure Store where
  /-- `order:{id}` -/
  orderRecords : FiniteTable OrderId Order
  /-- members of `orders:pending:{symbol}` -/
  pending : Symbol → Finset OrderId
  /-- `pos:by_id:{id}` -/
  positions : FiniteTable PositionId PositionHash
  /-- `position:{id}` -/
  oldPositions : PositionId → Option OldPosition
  /-- `pos:{user_id}` -/
  userPositions : UserId → Finset PositionId
  /-- `user:{user_id}:positions` -/
  oldUserPositions : UserId → Finset PositionId
  index : PriceIndex → Symbol → FiniteTable PositionId ℚ

namespace Store

/-- The store of a freshly started platform. -/
def empty : Store where
  orderRecords := ∅
  pending := fun _ => ∅
  positions := ∅
  oldPositions := fun _ => none
  userPositions := fun _ => ∅
  oldUserPositions := fun _ => ∅
  index := fun _ _ => ∅

/-- GET `order:{o}`. -/
def orders (st : Store) (o : OrderId) : Option Order := st.orderRecords.lookup o

/-- HGETALL `pos:by_id:{p}`. -/
def hash (st : Store) (p : PositionId) : Option PositionHash := st.positions.lookup p

/-- ZSCORE. -/
def score (st : Store) (k : PriceIndex) (s : Symbol) (p : PositionId) : Option ℚ :=
  (st.index k s).lookup p

def setOrder (st : Store) (o : OrderId) (v : Order) : Store :=
  { st with orderRecords := st.orderRecords.insert o v }

def zaddPending (st : Store) (s : Symbol) (o : OrderId) : Store :=
  { st with pending := Function.update st.pending s (insert o (st.pending s)) }

def zremPending (st : Store) (s : Symbol) (o : OrderId) : Store :=
  { st with pending := Function.update st.pending s ((st.pending s).erase o) }

/-- A run of HSET and HDEL commands on one position hash. -/
def hset (st : Store) (p : PositionId) (write : PositionHash → PositionHash) : Store :=
  { st with positions := st.positions.insert p (write ((st.hash p).getD {})) }

def sadd (st : Store) (u : UserId) (p : PositionId) : Store :=
  { st with userPositions := Function.update st.userPositions u (insert p (st.userPositions u)) }

def srem (st : Store) (u : UserId) (p : PositionId) : Store :=
  { st with userPositions := Function.update st.userPositions u ((st.userPositions u).erase p) }

def sremOld (st : Store) (u : UserId) (p : PositionId) : Store :=
  { st with oldUserPositions :=
      Function.update st.oldUserPositions u ((st.oldUserPositions u).erase p) }

def zadd (st : Store) (k : PriceIndex) (s : Symbol) (p : PositionId) (x : ℚ) : Store :=
  { st with index :=
      Function.update st.index k (Function.update (st.index k) s ((st.index k s).insert p x)) }

def zrem (st : Store) (k : PriceIndex) (s : Symbol) (p : PositionId) : Store :=
  { st with index :=
      Function.update st.index k (Function.update (st.index k) s ((st.index k s).erase p)) }

/-- The three ZREMs that take a position out of its symbol's indexes. -/
def unindex (st : Store) (s : Symbol) (p : PositionId) : Store :=
  ((st.zrem .posOpen s p).zrem .posSl s p).zrem .posTp s p

/-- `if level then redis.call('ZADD', key, tonumber(level), p) end`. A null
level is truthy with `tonumber` nil, so the call raises; Redis keeps what
was written before, which is the error value here. -/
def zaddLevel (st : Store) (k : PriceIndex) (s : Symbol) (p : PositionId) (level : JsonNum) :
    Except Store Store :=
  if level.truthy then
    match level.tonumber with
    | some x => .ok (st.zadd k s p x)
    | none => .error st
  else .ok st

section Reads
variable (st : Store) (p q : PositionId) (k k' : PriceIndex) (s s' : Symbol) (x : ℚ)
  (u v : UserId) (write : PositionHash → PositionHash) (o : OrderId) (w : Order)

theorem orders_setOrder (r : OrderId) :
    (st.setOrder o w).orders r = if r = o then some w else st.orders r := by
  unfold orders setOrder
  split
  next same => subst same; exact AList.lookup_insert _
  next differ => exact AList.lookup_insert_ne differ

theorem hash_hset : (st.hset p write).hash q =
    if q = p then some (write ((st.hash p).getD {})) else st.hash q := by
  unfold hash hset
  split
  next same => subst same; exact AList.lookup_insert _
  next differ => exact AList.lookup_insert_ne differ

@[simp] theorem hash_hset_self :
    (st.hset p write).hash p = some (write ((st.hash p).getD {})) := by
  rw [hash_hset, if_pos rfl]

theorem hash_hset_ne (differ : q ≠ p) : (st.hset p write).hash q = st.hash q := by
  rw [hash_hset, if_neg differ]

theorem score_zadd : (st.zadd k s p x).score k' s' q =
    if k' = k ∧ s' = s ∧ q = p then some x else st.score k' s' q := by
  unfold score zadd
  by_cases hk : k' = k
  · subst hk
    by_cases hs : s' = s
    · subst hs
      by_cases hq : q = p
      · subst hq; simp [AList.lookup_insert]
      · simp [hq, AList.lookup_insert_ne hq]
    · simp [hs]
  · simp [hk]

theorem score_zrem : (st.zrem k s p).score k' s' q =
    if k' = k ∧ s' = s ∧ q = p then none else st.score k' s' q := by
  unfold score zrem
  by_cases hk : k' = k
  · subst hk
    by_cases hs : s' = s
    · subst hs
      by_cases hq : q = p
      · subst hq; simp [AList.lookup_erase]
      · simp [hq, AList.lookup_erase_ne hq]
    · simp [hs]
  · simp [hk]

theorem score_unindex : (st.unindex s p).score k s' q =
    if s' = s ∧ q = p then none else st.score k s' q := by
  simp only [unindex, score_zrem]
  cases k <;> split <;> simp_all

theorem mem_sadd : q ∈ (st.sadd u p).userPositions v ↔
    v = u ∧ q = p ∨ q ∈ st.userPositions v := by
  unfold sadd
  by_cases hv : v = u
  · subst hv; simp
  · simp [hv]

theorem mem_srem : q ∈ (st.srem u p).userPositions v ↔
    ¬(v = u ∧ q = p) ∧ q ∈ st.userPositions v := by
  unfold srem
  by_cases hv : v = u
  · subst hv; simp
  · simp [hv]

@[simp] theorem hash_setOrder : (st.setOrder o w).hash q = st.hash q := rfl
@[simp] theorem hash_zaddPending : (st.zaddPending s o).hash q = st.hash q := rfl
@[simp] theorem hash_zremPending : (st.zremPending s o).hash q = st.hash q := rfl
@[simp] theorem hash_sadd : (st.sadd u p).hash q = st.hash q := rfl
@[simp] theorem hash_srem : (st.srem u p).hash q = st.hash q := rfl
@[simp] theorem hash_sremOld : (st.sremOld u p).hash q = st.hash q := rfl
@[simp] theorem hash_zadd : (st.zadd k s p x).hash q = st.hash q := rfl
@[simp] theorem hash_zrem : (st.zrem k s p).hash q = st.hash q := rfl

@[simp] theorem hash_unindex : (st.unindex s p).hash q = st.hash q := rfl

@[simp] theorem score_setOrder : (st.setOrder o w).score k s q = st.score k s q := rfl
@[simp] theorem score_zaddPending : (st.zaddPending s' o).score k s q = st.score k s q := rfl
@[simp] theorem score_zremPending : (st.zremPending s' o).score k s q = st.score k s q := rfl
@[simp] theorem score_hset : (st.hset p write).score k s q = st.score k s q := rfl
@[simp] theorem score_sadd : (st.sadd u p).score k s q = st.score k s q := rfl
@[simp] theorem score_srem : (st.srem u p).score k s q = st.score k s q := rfl
@[simp] theorem score_sremOld : (st.sremOld u p).score k s q = st.score k s q := rfl

@[simp] theorem userPositions_setOrder : (st.setOrder o w).userPositions = st.userPositions := rfl
@[simp] theorem userPositions_zremPending :
    (st.zremPending s o).userPositions = st.userPositions := rfl
@[simp] theorem userPositions_hset : (st.hset p write).userPositions = st.userPositions := rfl
@[simp] theorem userPositions_zadd : (st.zadd k s p x).userPositions = st.userPositions := rfl
@[simp] theorem userPositions_zrem : (st.zrem k s p).userPositions = st.userPositions := rfl
@[simp] theorem userPositions_unindex :
    (st.unindex s p).userPositions = st.userPositions := rfl

end Reads

section Sums
variable {M : Type*} [AddCommGroup M] (st : Store) {p : PositionId} {h : PositionHash}
  {o : OrderId} {w : Order}

/-- A quantity summed over all position hashes. -/
def sumPositions (st : Store) (f : PositionHash → M) : M :=
  FiniteTable.total (fun _ h => f h) st.positions

/-- A quantity summed over all order records. -/
def sumOrders (st : Store) (f : Order → M) : M :=
  FiniteTable.total (fun _ order => f order) st.orderRecords

theorem sumPositions_hset_of_some (f : PositionHash → M) (stored : st.hash p = some h)
    (write : PositionHash → PositionHash) :
    (st.hset p write).sumPositions f = st.sumPositions f - f h + f (write h) := by
  have read : st.positions.lookup p = some h := stored
  simp only [sumPositions, hset, FiniteTable.total_insert, FiniteTable.share_some read, stored,
    Option.getD_some]

theorem sumPositions_hset_of_none (f : PositionHash → M) (fresh : st.hash p = none)
    (write : PositionHash → PositionHash) :
    (st.hset p write).sumPositions f = st.sumPositions f + f (write {}) := by
  have read : st.positions.lookup p = none := fresh
  simp only [sumPositions, hset, FiniteTable.total_insert, FiniteTable.share_none read, fresh,
    Option.getD_none, sub_zero]

theorem sumOrders_setOrder_of_some (f : Order → M) (stored : st.orders o = some w) (v : Order) :
    (st.setOrder o v).sumOrders f = st.sumOrders f - f w + f v := by
  have read : st.orderRecords.lookup o = some w := stored
  simp only [sumOrders, setOrder, FiniteTable.total_insert, FiniteTable.share_some read]

theorem sumOrders_setOrder_of_none (f : Order → M) (fresh : st.orders o = none) (v : Order) :
    (st.setOrder o v).sumOrders f = st.sumOrders f + f v := by
  have read : st.orderRecords.lookup o = none := fresh
  simp only [sumOrders, setOrder, FiniteTable.total_insert, FiniteTable.share_none read, sub_zero]

end Sums

end Store

/-- `SMEMBERS` replies with the members of a set in an unspecified order. -/
def Smembers (reply : List PositionId) (members : Finset PositionId) : Prop :=
  reply.Nodup ∧ reply.toFinset = members

instance (reply : List PositionId) (members : Finset PositionId) :
    Decidable (Smembers reply members) := by
  unfold Smembers; infer_instance

theorem Smembers.mem_iff {reply : List PositionId} {members : Finset PositionId}
    (enumerates : Smembers reply members) {p : PositionId} : p ∈ reply ↔ p ∈ members := by
  rw [← enumerates.2, List.mem_toFinset]

/-- How a script call ends: a result, an error reply, or a raised Lua error.
Redis undoes nothing, so each carries the store the call leaves behind. -/
inductive ScriptOutcome (ε α : Type)
  | success (st : Store) (result : α)
  | error (st : Store) (e : ε)
  | raised (st : Store)

def ScriptOutcome.store {ε α : Type} : ScriptOutcome ε α → Store
  | .success st _ => st
  | .error st _ => st
  | .raised st => st

end TradingPlatform
