import TradingPlatform.Summary.TickUnrealized

namespace TradingPlatform

namespace PriceTick

/-- The last of the ticks that refreshed a hash. -/
def lastOf (ticks : List PriceTick) (st : Store) (p : PositionId) (h : PositionHash) :
    Option PriceTick :=
  ticks.foldl (fun last t => if t.Refreshes st p h then some t else last) none

/-- The hash after all ticks. -/
def hashAfter (ticks : List PriceTick) (st : Store) (p : PositionId) (h : PositionHash) :
    PositionHash :=
  (lastOf ticks st p h).elim h fun t => t.refreshed h

/-- The price keys after all ticks. -/
def pricesAfter (ticks : List PriceTick) (prices : String → Option (ℚ × ℚ)) :
    String → Option (ℚ × ℚ) :=
  ticks.foldl (fun prices t => Function.update prices t.priceKey (some (t.bid, t.ask))) prices

variable {t : PriceTick} {st after : Store} {p : PositionId} {h : PositionHash}
  {ticks : List PriceTick}

theorem lastOf_concat : lastOf (ticks ++ [t]) st p h =
    if t.Refreshes st p h then some t else lastOf ticks st p h := by
  simp [lastOf, List.foldl_append]

theorem mem_batch {u : PositionId × PositionHash} :
    u ∈ t.batch st ↔ st.hash u.1 = some u.2 ∧ t.Refreshes st u.1 u.2 := by
  unfold batch
  simp only [List.mem_filterMap, Option.map_eq_some_iff, Option.filter_eq_some_iff,
    decide_eq_true_eq]
  constructor
  · rintro ⟨p, _, h, ⟨stored, refreshes⟩, rfl⟩
    exact ⟨stored, refreshes⟩
  · rintro ⟨stored, refreshes⟩
    exact ⟨u.1, refreshes.1, u.2, ⟨stored, refreshes⟩, rfl⟩

theorem batch_nodup : ((t.batch st).map Prod.fst).Nodup := by
  unfold batch
  rw [List.map_filterMap]
  refine ((st.index .posOpen (trim t.symbol)).keys_nodup).filterMap ?_
  intro p q r fromP fromQ
  simp only [Option.mem_def, Option.map_eq_some_iff, Prod.exists] at fromP fromQ
  obtain ⟨p', h, ⟨g, _, same⟩, rfl⟩ := fromP
  obtain ⟨q', h', ⟨g', _, same'⟩, rfl⟩ := fromQ
  cases same
  cases same'
  rfl

/-- What a tick reads of a hash is not what ticks write. -/
theorem refreshes_hashAfter (index : after.index = st.index) :
    t.Refreshes after p (hashAfter ticks st p h) ↔ t.Refreshes st p h := by
  unfold Refreshes hashAfter
  rw [index]
  cases lastOf ticks st p h <;> rfl

theorem unrealQuote_hashAfter : t.unrealQuote (hashAfter ticks st p h) = t.unrealQuote h := by
  unfold hashAfter
  cases lastOf ticks st p h <;> rfl

theorem micro_hashAfter (rates : Rates) :
    t.micro rates (hashAfter ticks st p h) = t.micro rates h := by
  unfold micro
  rw [unrealQuote_hashAfter]

theorem hashAfter_concat : hashAfter (ticks ++ [t]) st p h =
    if t.Refreshes st p h then t.refreshed h else hashAfter ticks st p h := by
  unfold hashAfter
  rw [lastOf_concat]
  split_ifs
  · rfl
  · rfl

theorem refreshed_hashAfter :
    t.refreshed (hashAfter ticks st p h) = t.refreshed h := by
  unfold refreshed
  rw [unrealQuote_hashAfter]
  unfold hashAfter
  cases lastOf ticks st p h <;> rfl

end PriceTick

namespace UnrealizedDesk
open PriceTick

section Batch
variable (rates : Rates) (t : PriceTick) {d : UnrealizedDesk}

/-- What the writes of a tick leave alone. -/
structure SameKeys (before after : UnrealizedDesk) : Prop where
  index : after.store.index = before.store.index
  users : after.store.userPositions = before.store.userPositions
  swapCache : after.swapCache = before.swapCache
  prices : after.prices = before.prices

theorem SameKeys.refl : SameKeys d d := ⟨rfl, rfl, rfl, rfl⟩

theorem SameKeys.trans {before between after : UnrealizedDesk} (first : SameKeys before between)
    (second : SameKeys between after) : SameKeys before after where
  index := second.index.trans first.index
  users := second.users.trans first.users
  swapCache := second.swapCache.trans first.swapCache
  prices := second.prices.trans first.prices

theorem sameKeys_foldl_write (batch : List (PositionId × PositionHash)) (d : UnrealizedDesk) :
    SameKeys d (batch.foldl (writeRefreshed rates t) d) ∧
      (batch.foldl (writeRefreshed rates t) d).aggregate = d.aggregate := by
  induction batch generalizing d with
  | nil => exact ⟨.refl, rfl⟩
  | cons u rest ih =>
    have first : SameKeys d (writeRefreshed rates t d u) := ⟨rfl, rfl, rfl, rfl⟩
    obtain ⟨later, same⟩ := ih (writeRefreshed rates t d u)
    exact ⟨first.trans later, same⟩

theorem foldl_write_ne {batch : List (PositionId × PositionHash)} {p : PositionId}
    (unlisted : p ∉ batch.map Prod.fst) (d : UnrealizedDesk) :
    (batch.foldl (writeRefreshed rates t) d).store.hash p = d.store.hash p ∧
      (batch.foldl (writeRefreshed rates t) d).usdE6 p = d.usdE6 p := by
  induction batch generalizing d with
  | nil => exact ⟨rfl, rfl⟩
  | cons u rest ih =>
    rw [List.map_cons, List.mem_cons, not_or] at unlisted
    obtain ⟨hash, field⟩ := ih unlisted.2 (writeRefreshed rates t d u)
    rw [List.foldl_cons, hash, field]
    exact ⟨Store.hash_hset_ne _ _ _ _ unlisted.1, Function.update_of_ne unlisted.1 _ _⟩

/-- Every position of a batch without repetitions gets the tick's amounts. -/
theorem foldl_write_mem {batch : List (PositionId × PositionHash)}
    (once : (batch.map Prod.fst).Nodup) {u : PositionId × PositionHash} (member : u ∈ batch)
    (d : UnrealizedDesk) (stored : d.store.hash u.1 = some u.2) :
    (batch.foldl (writeRefreshed rates t) d).store.hash u.1 = some (t.refreshed u.2) ∧
      (batch.foldl (writeRefreshed rates t) d).usdE6 u.1 = some (t.micro rates u.2) := by
  induction batch generalizing d with
  | nil => cases member
  | cons first rest ih =>
    rw [List.map_cons, List.nodup_cons] at once
    rw [List.foldl_cons]
    rcases List.mem_cons.mp member with rfl | later
    · obtain ⟨hash, field⟩ :=
        foldl_write_ne rates t once.1 (writeRefreshed rates t d u)
      rw [hash, field]
      refine ⟨?_, Function.update_self ..⟩
      rw [writeRefreshed, Store.hash_hset_self, stored]
      rfl
    · have differ : u.1 ≠ first.1 := by
        intro same
        exact once.1 (same ▸ List.mem_map_of_mem later)
      exact ih once.2 later _ ((Store.hash_hset_ne _ _ _ _ differ).trans stored)

theorem foldl_aggregate (users : List UserId) (d : UnrealizedDesk) (userId : UserId) :
    let after := users.foldl (fun d userId => d.aggregateUser userId (d.swap userId)) d
    SameKeys d after ∧ after.store = d.store ∧ after.usdE6 = d.usdE6 ∧
      after.aggregate userId =
        if userId ∈ users then some (d.openSum userId - d.swap userId) else d.aggregate userId := by
  induction users generalizing d with
  | nil => exact ⟨.refl, rfl, rfl, by simp⟩
  | cons first rest ih =>
    obtain ⟨keys, store, fields, aggregate⟩ := ih (d.aggregateUser first (d.swap first))
    have same : SameKeys d (d.aggregateUser first (d.swap first)) := ⟨rfl, rfl, rfl, rfl⟩
    refine ⟨same.trans keys, store, fields, ?_⟩
    rw [List.foldl_cons, aggregate]
    by_cases later : userId ∈ rest
    · rw [if_pos later, if_pos (List.mem_cons_of_mem _ later)]
      rfl
    · by_cases isFirst : userId = first
      · subst isFirst
        simp [later, aggregateUser]
      · simp [later, isFirst, aggregateUser]

/-- A refresh is its writes and then the sums of the affected users. -/
theorem refresh_effect (d : UnrealizedDesk) (userId : UserId) :
    let written := (t.batch d.store).foldl (writeRefreshed rates t) d
    let after := refreshSymbolPositionsUnrealized rates t d
    SameKeys written after ∧ after.store = written.store ∧ after.usdE6 = written.usdE6 ∧
      after.aggregate userId =
        if userId ∈ ((t.batch d.store).filterMap (·.2.userId)).dedup then
          some (written.openSum userId - written.swap userId)
        else written.aggregate userId :=
  foldl_aggregate _ _ _

end Batch

section Run
variable (rates : Rates) (symbols : FiniteTable SymbolId SymbolRow) (ticks : List PriceTick)
  (d : UnrealizedDesk) (userId : UserId)

/-- The micro-USD field of a position after all ticks. -/
def fieldAfter (p : PositionId) : Option ℤ :=
  ((d.store.hash p).bind fun h => (lastOf ticks d.store p h).map fun t => t.micro rates h).orElse
    fun _ => d.usdE6 p

/-- Some tick refreshed a position of the user. -/
def Touched : Prop :=
  ∃ t ∈ ticks, ∃ p h, d.store.hash p = some h ∧ t.Refreshes d.store p h ∧ h.userId = some userId

/-- The user's open positions name their owner. -/
def Owned : Prop := ∀ p ∈ d.store.userPositions userId, ∀ h ∈ d.store.hash p,
  h.status = some .OPEN → h.userId = some userId

/-- The engine's writes after some ticks. -/
structure Followed (after : UnrealizedDesk) : Prop where
  index : after.store.index = d.store.index
  users : after.store.userPositions = d.store.userPositions
  swapCache : after.swapCache = d.swapCache
  hash : ∀ p, after.store.hash p = (d.store.hash p).map (hashAfter ticks d.store p)
  usdE6 : ∀ p, after.usdE6 p = fieldAfter rates ticks d p
  touched : Touched ticks d userId →
    after.aggregate userId = some (after.openSum userId - d.swap userId)
  untouched : ¬ Touched ticks d userId → after.aggregate userId = d.aggregate userId

variable {rates symbols ticks d userId} {t : PriceTick} {after : UnrealizedDesk}

theorem fieldAfter_concat (p : PositionId) : fieldAfter rates (ticks ++ [t]) d p =
    ((d.store.hash p).bind fun h =>
      if t.Refreshes d.store p h then some (t.micro rates h) else none).orElse
        fun _ => fieldAfter rates ticks d p := by
  unfold fieldAfter
  cases d.store.hash p with
  | none => rfl
  | some h =>
    simp only [Option.bind_some, lastOf_concat]
    split_ifs <;> simp

theorem touched_concat : Touched (ticks ++ [t]) d userId ↔ Touched ticks d userId ∨
    ∃ p h, d.store.hash p = some h ∧ t.Refreshes d.store p h ∧ h.userId = some userId := by
  unfold Touched
  simp only [List.mem_append, List.mem_singleton, or_and_right, exists_or, exists_eq_left]

theorem Followed.mem_batch (followed : Followed rates ticks d userId after)
    {u : PositionId × PositionHash} : u ∈ t.batch after.store ↔
      ∃ h, d.store.hash u.1 = some h ∧ t.Refreshes d.store u.1 h ∧
        u.2 = hashAfter ticks d.store u.1 h := by
  rw [PriceTick.mem_batch, followed.hash, Option.map_eq_some_iff]
  constructor
  · rintro ⟨⟨h, stored, same⟩, refreshes⟩
    rw [← same, refreshes_hashAfter followed.index] at refreshes
    exact ⟨h, stored, refreshes, same.symm⟩
  · rintro ⟨h, stored, refreshes, same⟩
    rw [same]
    exact ⟨⟨h, stored, rfl⟩, (refreshes_hashAfter followed.index).mpr refreshes⟩

/-- What the writes of the next tick leave in each hash and field. -/
theorem Followed.written (followed : Followed rates ticks d userId after) (p : PositionId) :
    ((t.batch after.store).foldl (writeRefreshed rates t) after).store.hash p =
        (d.store.hash p).map (hashAfter (ticks ++ [t]) d.store p) ∧
      ((t.batch after.store).foldl (writeRefreshed rates t) after).usdE6 p =
        fieldAfter rates (ticks ++ [t]) d p := by
  by_cases member : p ∈ (t.batch after.store).map Prod.fst
  · obtain ⟨⟨q, g⟩, inBatch, rfl⟩ := List.mem_map.mp member
    obtain ⟨h, stored, refreshes, same⟩ := followed.mem_batch.mp inBatch
    dsimp only at stored refreshes same ⊢
    subst same
    have read := (PriceTick.mem_batch.mp inBatch).1
    obtain ⟨hash, field⟩ := foldl_write_mem rates t batch_nodup inBatch after read
    rw [hash, field, stored, fieldAfter_concat, stored, Option.map_some, hashAfter_concat,
      if_pos refreshes, refreshed_hashAfter, micro_hashAfter]
    simp [refreshes]
  · have skipped : ∀ h, d.store.hash p = some h → ¬ t.Refreshes d.store p h := by
      intro h stored refreshes
      exact member (List.mem_map_of_mem
        (followed.mem_batch.mpr ⟨h, stored, refreshes, rfl⟩ :
          (p, hashAfter ticks d.store p h) ∈ t.batch after.store))
    obtain ⟨hash, field⟩ := foldl_write_ne rates t member after
    rw [hash, field, followed.hash, followed.usdE6, fieldAfter_concat]
    cases stored : d.store.hash p with
    | none => simp
    | some h => simp [hashAfter_concat, skipped h stored]

/-- The status of a hash is none of the ticks' business. -/
theorem status_hashAfter (p : PositionId) :
    ((d.store.hash p).map (hashAfter ticks d.store p)).bind (·.status) =
      (d.store.hash p).bind (·.status) := by
  cases d.store.hash p with
  | none => rfl
  | some h =>
    simp only [Option.map_some, Option.bind_some, hashAfter]
    cases lastOf ticks d.store p h <;> rfl

theorem followed_nil : Followed rates [] d userId d where
  index := rfl
  users := rfl
  swapCache := rfl
  hash p := by
    cases stored : d.store.hash p <;> rfl
  usdE6 p := by
    unfold fieldAfter
    cases stored : d.store.hash p <;> rfl
  touched some := by
    obtain ⟨t, member, _⟩ := some
    cases member
  untouched _ := rfl

theorem openSum_congr {other : UnrealizedDesk}
    (users : other.store.userPositions = after.store.userPositions)
    (same : ∀ p ∈ after.store.userPositions userId, other.share p = after.share p) :
    other.openSum userId = after.openSum userId := by
  unfold openSum
  rw [users]
  exact Finset.sum_congr rfl same

/-- A tick that refreshes none of the user's positions changes no share of theirs. -/
theorem Followed.share_of_not_touched (followed : Followed rates ticks d userId after)
    (owned : Owned d userId) (idle : ¬ ∃ p h, d.store.hash p = some h ∧
      t.Refreshes d.store p h ∧ h.userId = some userId) {p : PositionId}
    (listed : p ∈ d.store.userPositions userId) :
    ((t.batch after.store).foldl (writeRefreshed rates t) after).share p = after.share p := by
  have skipped : p ∉ (t.batch after.store).map Prod.fst := by
    intro member
    obtain ⟨⟨q, g⟩, inBatch, rfl⟩ := List.mem_map.mp member
    obtain ⟨h, stored, refreshes, _⟩ := followed.mem_batch.mp inBatch
    exact idle ⟨q, h, stored, refreshes, owned q listed h stored refreshes.2.2.1⟩
  obtain ⟨hash, field⟩ := foldl_write_ne rates t skipped after
  rw [share, share, hash, field]

theorem Followed.of_prices (followed : Followed rates ticks d userId after)
    (prices : String → Option (ℚ × ℚ)) :
    Followed rates ticks d userId { after with prices := prices } :=
  ⟨followed.index, followed.users, followed.swapCache, followed.hash, followed.usdE6,
    followed.touched, followed.untouched⟩

theorem userId_hashAfter (p : PositionId) (h : PositionHash) :
    (hashAfter ticks d.store p h).userId = h.userId := by
  unfold hashAfter
  cases lastOf ticks d.store p h <;> rfl

theorem Followed.mem_affected (followed : Followed rates ticks d userId after) :
    userId ∈ ((t.batch after.store).filterMap (·.2.userId)).dedup ↔
      ∃ p h, d.store.hash p = some h ∧ t.Refreshes d.store p h ∧ h.userId = some userId := by
  rw [List.mem_dedup, List.mem_filterMap]
  constructor
  · rintro ⟨u, inBatch, owner⟩
    obtain ⟨h, stored, refreshes, same⟩ := followed.mem_batch.mp inBatch
    rw [same, userId_hashAfter] at owner
    exact ⟨u.1, h, stored, refreshes, owner⟩
  · rintro ⟨p, h, stored, refreshes, owner⟩
    refine ⟨(p, hashAfter ticks d.store p h), ?_, ?_⟩
    · exact followed.mem_batch.mpr ⟨h, stored, refreshes, rfl⟩
    · rw [userId_hashAfter, owner]

/-- The refresh of the next tick keeps the account of the engine's writes. -/
theorem Followed.refresh (followed : Followed rates ticks d userId after)
    (owned : Owned d userId) :
    Followed rates (ticks ++ [t]) d userId (refreshSymbolPositionsUnrealized rates t after) := by
  have writes := followed.written (t := t)
  obtain ⟨keys, kept⟩ := sameKeys_foldl_write rates t (t.batch after.store) after
  have untouchedShare := fun idle p listed =>
    followed.share_of_not_touched (t := t) owned idle (p := p) listed
  obtain ⟨later, store, fields, aggregate⟩ :=
    refresh_effect rates t after userId
  generalize (t.batch after.store).foldl (writeRefreshed rates t) after = w
    at writes keys kept untouchedShare later store fields aggregate
  generalize refreshSymbolPositionsUnrealized rates t after = final
    at later store fields aggregate ⊢
  have swapped : w.swap userId = d.swap userId := by
    rw [swap, swap, keys.swapCache, followed.swapCache]
  have summed : final.openSum userId = w.openSum userId := by
    simp [openSum, share, store, fields]
  have users : final.store.userPositions = d.store.userPositions :=
    later.users.trans (keys.users.trans followed.users)
  have affected := followed.mem_affected (t := t)
  rw [kept] at aggregate
  refine ⟨later.index.trans (keys.index.trans followed.index), users,
    later.swapCache.trans (keys.swapCache.trans followed.swapCache), ?_, ?_, ?_, ?_⟩
  · intro p
    rw [store, (writes p).1]
  · intro p
    rw [fields, (writes p).2]
  · intro touched
    rw [aggregate, summed, swapped]
    split_ifs with listed
    · rfl
    · have now := mt affected.mpr listed
      have before := (touched_concat.mp touched).resolve_right now
      have same : w.openSum userId = after.openSum userId := by
        refine openSum_congr keys.users ?_
        rw [followed.users]
        exact untouchedShare now
      rw [followed.touched before, same]
  · intro untouched
    rw [touched_concat, not_or] at untouched
    rw [aggregate, if_neg (mt affected.mp untouched.2), followed.untouched untouched.1]

/-- The engine's writes after the ticks, whatever they are. -/
theorem followed_run (owned : Owned d userId) :
    Followed rates ticks d userId (ticks.foldl (processTick rates) d) := by
  induction ticks using List.reverseRecOn with
  | nil => exact followed_nil
  | append_singleton ticks t ih =>
    rw [List.foldl_append]
    exact (ih.of_prices _).refresh owned

theorem prices_processTick :
    (processTick rates d t).prices = Function.update d.prices t.priceKey (some (t.bid, t.ask)) := by
  unfold processTick
  generalize written : { d with prices := _ } = priced
  obtain ⟨later, -⟩ := refresh_effect rates t priced default
  obtain ⟨keys, -⟩ := sameKeys_foldl_write rates t (t.batch priced.store) priced
  rw [later.prices, keys.prices, ← written]

theorem prices_run : (ticks.foldl (processTick rates) d).prices = pricesAfter ticks d.prices := by
  induction ticks using List.reverseRecOn with
  | nil => rfl
  | append_singleton ticks t ih =>
    rw [pricesAfter, List.foldl_append, List.foldl_append]
    rw [pricesAfter] at ih
    rw [List.foldl_cons, List.foldl_nil, prices_processTick, ih]
    rfl

variable (rates symbols ticks d userId) in
/-- The state after the ticks. -/
abbrev processed : UnrealizedDesk := ticks.foldl (processTick rates) d

variable (rates ticks d) in
/-- What a listed id adds to the engine's sum after the ticks. -/
def engineShare (p : PositionId) : ℤ :=
  if (d.store.hash p).bind (·.status) = some .OPEN then (fieldAfter rates ticks d p).getD 0 else 0

variable (rates symbols ticks d) in
/-- What the auth service counts for a hash after the ticks. -/
def countedMicro (p : PositionId) (h : PositionHash) : Option ℤ :=
  (countedUsd rates symbols (pricesAfter ticks d.prices) (hashAfter ticks d.store p h)).map
    decimalUsdToMicroE6

variable (rates symbols ticks d) in
/-- What a listed id adds to the auth service's sum after the ticks. -/
def authShare (p : PositionId) : ℤ :=
  if (d.store.hash p).bind (·.status) = some .OPEN then
    if p.isUuid then ((d.store.hash p).bind (countedMicro rates symbols ticks d p)).getD 0
    else (d.usdE6 p).getD 0
  else 0

variable (rates symbols ticks d) in
/-- Both services value the hash by one price and one rate: the last tick that
reached it is the price stored for it, and the currency of the symbols table
converts as the one guessed from the symbol. -/
def SameValuation (p : PositionId) (h : PositionHash) : Prop :=
  ∃ t quote, lastOf ticks d.store p h = some t ∧
    (summaryInput rates symbols (pricesAfter ticks d.prices)).symbolMap
      (normalizeSymbol (h.symbol.getD "")) = some quote ∧
    usdFactor rates quote = usdFactor (parseFxRatesJson rates) (inferQuote (trim t.symbol)) ∧
    (∀ price ∈ (summaryInput rates symbols (pricesAfter ticks d.prices)).getPriceFromRedis
      (h.symbol.getD "") (h.groupId.getD ""), price = (t.bid, t.ask)) ∧
    h.avgPrice.getD 0 = (h.avgPrice.orElse fun _ => h.entryPrice).getD 0

theorem supported_of_converted {rates : Rates} {quote : String} {amount usd : ℚ}
    (converted : convertWithRates amount quote "USD" rates = .ok usd) :
    quoteCurrencySupported rates quote := by
  unfold quoteCurrencySupported
  unfold convertWithRates at converted ⊢
  dsimp only at converted ⊢
  by_cases same : normCurrency quote = normCurrency "USD"
  · simp [same]
  · rw [if_neg same] at converted ⊢
    cases source : rates (normCurrency quote) with
    | none => simp [source] at converted
    | some rateFrom =>
      cases target : rates (normCurrency "USD") with
      | none => simp [source, target] at converted
      | some rateTo =>
        by_cases zero : rateFrom = 0
        · simp [source, target, zero] at converted
        · simp [zero]

theorem engineUsd_eq (quote : String) (amount : ℚ) :
    engineUsd rates quote amount = amount * usdFactor (parseFxRatesJson rates) quote := by
  unfold engineUsd
  by_cases supported : quoteCurrencySupported (parseFxRatesJson rates) quote
  · rw [convertWithRates_usd supported]
  · cases converted : convertWithRates amount quote "USD" (parseFxRatesJson rates) with
    | ok usd => exact absurd (supported_of_converted converted) supported
    | error e => simp [usdFactor_of_not_supported supported]

/-- The amount that the auth service counts, where both services value the
hash alike. -/
theorem SameValuation.countedMicro_eq {p : PositionId} {h : PositionHash} {t : PriceTick}
    (same : SameValuation rates symbols ticks d p h) (isOpen : h.status = some .OPEN)
    (reached : lastOf ticks d.store p h = some t) :
    (countedMicro rates symbols ticks d p h).getD 0 = t.micro rates h := by
  obtain ⟨t', quote, reached', quoted, factor, marked, averaged⟩ := same
  have sameTick : t' = t := Option.some.inj (reached'.symm.trans reached)
  subst sameTick
  have after : hashAfter ticks d.store p h = t'.refreshed h := by
    simp [hashAfter, reached]
  have valued : ((summaryInput rates symbols (pricesAfter ticks d.prices)).unrealizedQuote
      (t'.refreshed h)).1 = t'.unrealQuote h := by
    unfold SummaryInput.unrealizedQuote
    have noOverrides : (summaryInput rates symbols (pricesAfter ticks d.prices)).priceOverrides =
      none := rfl
    simp only [noOverrides]
    have sameHash : (t'.refreshed h).symbol = h.symbol ∧ (t'.refreshed h).groupId = h.groupId :=
      ⟨rfl, rfl⟩
    rw [sameHash.1, sameHash.2]
    cases price : (summaryInput rates symbols (pricesAfter ticks d.prices)).getPriceFromRedis
        (h.symbol.getD "") (h.groupId.getD "") with
    | none => rfl
    | some price' =>
      have isTick := marked price' price
      subst isTick
      unfold refreshed unrealQuote
      rw [← averaged]
      cases ofHash : h.side with
      | none => simp
      | some side => cases side <;> simp
  have quoted' : (summaryInput rates symbols (pricesAfter ticks d.prices)).symbolMap
    (normalizeSymbol ((t'.refreshed h).symbol.getD "")) = some quote := quoted
  have opened : (t'.refreshed h).status = some .OPEN := isOpen
  unfold countedMicro countedUsd micro
  rw [after, engineUsd_eq, ← factor]
  simp only [quoted', opened, Option.bind_some, and_true]
  by_cases supported : quoteCurrencySupported rates quote
  · rw [if_pos supported, convertWithRates_usd supported, valued]
    rfl
  · rw [if_neg supported, usdFactor_of_not_supported supported, mul_zero]
    simp [decimalUsdToMicroE6]

theorem Followed.share_eq (followed : Followed rates ticks d userId after) (p : PositionId) :
    after.share p = engineShare rates ticks d p := by
  unfold share engineShare
  rw [followed.hash, followed.usdE6, status_hashAfter]

theorem Followed.openSum_eq (followed : Followed rates ticks d userId after) :
    after.openSum userId = ∑ p ∈ d.store.userPositions userId, engineShare rates ticks d p := by
  unfold openSum
  rw [followed.users]
  exact Finset.sum_congr rfl fun p _ => followed.share_eq p

/-- Only positions with a UUID are refreshed. -/
theorem fieldAfter_legacy {p : PositionId} (legacy : p.isUuid = false) :
    fieldAfter rates ticks d p = d.usdE6 p := by
  have never (h : PositionHash) : lastOf ticks d.store p h = none := by
    induction ticks using List.reverseRecOn with
    | nil => rfl
    | append_singleton ticks t ih => simp [lastOf_concat, Refreshes, legacy, ih]
  unfold fieldAfter
  cases d.store.hash p with
  | none => rfl
  | some h => simp [never h]

theorem Followed.fetched (followed : Followed rates ticks d userId after)
    (prices : after.prices = pricesAfter ticks d.prices) (swapOpen : ℚ) :
    (fetchPositionAggregates rates symbols userId swapOpen after).aggregate userId =
      some (∑ p ∈ d.store.userPositions userId, authShare rates symbols ticks d p -
        decimalUsdToMicroE6 swapOpen) := by
  unfold fetchPositionAggregates aggregateUser
  dsimp only
  rw [Function.update_self]
  congr 2
  unfold openSum
  dsimp only
  rw [followed.users]
  refine Finset.sum_congr rfl fun p listed => ?_
  unfold share authShare
  dsimp only
  rw [followed.hash, status_hashAfter, prices]
  split_ifs with isOpen listedUuid isUuid isUuid
  · congr 1
    cases d.store.hash p <;> rfl
  · exact absurd listedUuid.2 isUuid
  · exact absurd ⟨listed, isUuid⟩ listedUuid
  · rw [followed.usdE6, fieldAfter_legacy (by simpa using isUuid)]
  · rfl

variable (rates symbols ticks d userId) in
/-- The open positions that the two services value in two ways. -/
noncomputable def valuedApart : Finset PositionId :=
  open Classical in
  (d.store.userPositions userId).filter fun p =>
    p.isUuid = true ∧ ∃ h, d.store.hash p = some h ∧ h.status = some .OPEN ∧
      ¬ SameValuation rates symbols ticks d p h

theorem mem_valuedApart {p : PositionId} : p ∈ valuedApart rates symbols ticks d userId ↔
    p ∈ d.store.userPositions userId ∧ p.isUuid = true ∧
      ∃ h, d.store.hash p = some h ∧ h.status = some .OPEN ∧
        ¬ SameValuation rates symbols ticks d p h := by
  simp [valuedApart]

theorem share_eq_of_not_apart {p : PositionId} (listed : p ∈ d.store.userPositions userId)
    (together : p ∉ valuedApart rates symbols ticks d userId) :
    engineShare rates ticks d p = authShare rates symbols ticks d p := by
  unfold engineShare authShare
  split_ifs with isOpen isUuid
  · obtain ⟨h, stored, status⟩ := Option.bind_eq_some_iff.mp isOpen
    have same : SameValuation rates symbols ticks d p h := by
      by_contra apart
      exact together (mem_valuedApart.mpr ⟨listed, isUuid, h, stored, status, apart⟩)
    obtain ⟨t, _, reached, _⟩ := id same
    rw [stored, Option.bind_some, same.countedMicro_eq status reached]
    simp [fieldAfter, stored, reached]
  · rw [fieldAfter_legacy (by simpa using isUuid)]
  · rfl

theorem sum_shares_sub :
    ∑ p ∈ d.store.userPositions userId, engineShare rates ticks d p -
        ∑ p ∈ d.store.userPositions userId, authShare rates symbols ticks d p =
      ∑ p ∈ valuedApart rates symbols ticks d userId,
        (engineShare rates ticks d p - authShare rates symbols ticks d p) := by
  rw [← Finset.sum_sub_distrib]
  have listedOnly :
      valuedApart rates symbols ticks d userId ⊆ d.store.userPositions userId := by
    intro p apart
    exact (mem_valuedApart.mp apart).1
  refine (Finset.sum_subset listedOnly ?_).symm
  intro p listed together
  rw [share_eq_of_not_apart listed together, sub_self]

/-- After any ticks, the engine's aggregate is the one that the auth service
would write iff the two valuations of the user's open positions differ by no
more than the swap in the cache is behind. -/
theorem aggregates_agree_iff (owned : Owned d userId) (swapOpen : ℚ) :
    let after := ticks.foldl (processTick rates) d
    after.aggregate userId =
        (fetchPositionAggregates rates symbols userId swapOpen after).aggregate userId ↔
      (Touched ticks d userId →
        ∑ p ∈ valuedApart rates symbols ticks d userId,
            (engineShare rates ticks d p - authShare rates symbols ticks d p) =
          d.swap userId - decimalUsdToMicroE6 swapOpen) ∧
      (¬ Touched ticks d userId →
        d.aggregate userId =
          some (∑ p ∈ d.store.userPositions userId, authShare rates symbols ticks d p -
            decimalUsdToMicroE6 swapOpen)) := by
  intro after
  have followed : Followed rates ticks d userId after := followed_run owned
  rw [followed.fetched prices_run, ← sum_shares_sub, ← followed.openSum_eq]
  by_cases touched : Touched ticks d userId
  · simp only [touched, true_implies, not_true_eq_false, false_implies, and_true,
      followed.touched touched, Option.some.injEq]
    omega
  · simp only [touched, false_implies, not_false_eq_true, true_implies, true_and,
      followed.untouched touched]

end Run

/-- A long position of user 7, opened at 100. -/
def singleHash (symbol : Symbol) : PositionHash where
  userId := some 7
  symbol := some symbol
  groupId := some "g1"
  side := some .LONG
  size := some 1
  entryPrice := some 100
  avgPrice := some 100
  status := some .OPEN

def singleDesk (symbol : Symbol) : UnrealizedDesk where
  store := { Store.empty with
    positions := (∅ : FiniteTable PositionId PositionHash).insert (.uuid 1) (singleHash symbol)
    userPositions := fun userId => if userId = 7 then {.uuid 1} else ∅
    index := fun kind listed => if kind = .posOpen ∧ listed = symbol then
      (∅ : FiniteTable PositionId ℚ).insert (.uuid 1) 100 else ∅ }
  usdE6 := fun _ => none
  aggregate := fun _ => none
  swapCache := fun _ => none
  prices := fun _ => none

def euroRates : Rates := fun code =>
  if code = "USD" then some 1 else if code = "EUR" then some (9 / 10) else none

def quotedSymbols : FiniteTable SymbolId SymbolRow :=
  ((∅ : FiniteTable SymbolId SymbolRow).insert 1 ⟨"GER40", "EUR"⟩).insert 2 ⟨"EURUSD", "USD"⟩

def singleTick (symbol : Symbol) : PriceTick := ⟨symbol, some "g1", 110, 111⟩

theorem hash_singleDesk {symbol : Symbol} {p : PositionId}
    (listed : p ∈ (singleDesk symbol).store.userPositions 7) :
    p = .uuid 1 ∧ (singleDesk symbol).store.hash p = some (singleHash symbol) := by
  have isFirst : p = .uuid 1 := by simpa [singleDesk] using listed
  subst isFirst
  exact ⟨rfl, rfl⟩

theorem owned_singleDesk (symbol : Symbol) : Owned (singleDesk symbol) 7 := by
  intro p listed h stored _
  obtain ⟨-, read⟩ := hash_singleDesk listed
  rw [read] at stored
  cases stored
  rfl

/-- The PnL of a position in `EURUSD` is in USD for both services. -/
theorem aggregates_agree_euroDollar :
    let after := [singleTick "EURUSD"].foldl (processTick euroRates) (singleDesk "EURUSD")
    after.aggregate 7 =
      (fetchPositionAggregates euroRates quotedSymbols 7 0 after).aggregate 7 := by
  have stored : (singleDesk "EURUSD").store.hash (.uuid 1) = some (singleHash "EURUSD") := rfl
  have alike : valuedApart euroRates quotedSymbols [singleTick "EURUSD"]
      (singleDesk "EURUSD") 7 = ∅ := by
    rw [Finset.eq_empty_iff_forall_notMem]
    intro p member
    obtain ⟨listed, -, h, read, -, apart⟩ := mem_valuedApart.mp member
    obtain ⟨rfl, hash⟩ := hash_singleDesk listed
    cases hash.symm.trans read
    have priced : (summaryInput euroRates quotedSymbols (pricesAfter [singleTick "EURUSD"]
      (singleDesk "EURUSD").prices)).getPriceFromRedis "EURUSD" "g1" = some (110, 111) := by
      decide +kernel
    refine apart ⟨singleTick "EURUSD", "USD", by decide +kernel, by decide +kernel,
      by decide +kernel, ?_, rfl⟩
    intro price found
    exact (Option.some.inj (priced.symm.trans found)).symm
  have reached : Touched [singleTick "EURUSD"] (singleDesk "EURUSD") 7 :=
    ⟨singleTick "EURUSD", by simp, .uuid 1, singleHash "EURUSD", stored, by decide +kernel, rfl⟩
  refine (aggregates_agree_iff (owned_singleDesk "EURUSD") 0).mpr ⟨?_, ?_⟩
  · intro _
    rw [alike]
    decide +kernel
  · intro untouched
    exact absurd reached untouched

/-- The PnL of 10 EUR in an index is 10 USD for the engine. -/
theorem not_aggregates_agree_index :
    ¬ (let after := [singleTick "GER40"].foldl (processTick euroRates) (singleDesk "GER40")
      after.aggregate 7 =
        (fetchPositionAggregates euroRates quotedSymbols 7 0 after).aggregate 7) := by
  have engine : ([singleTick "GER40"].foldl (processTick euroRates)
    (singleDesk "GER40")).aggregate 7 = some 10000000 := by decide +kernel
  have auth : (fetchPositionAggregates euroRates quotedSymbols 7 0
    ([singleTick "GER40"].foldl (processTick euroRates) (singleDesk "GER40"))).aggregate 7 =
      some 11111111 := by decide +kernel
  intro agree
  have same := engine.symm.trans (agree.trans auth)
  cases same

end UnrealizedDesk

end TradingPlatform
