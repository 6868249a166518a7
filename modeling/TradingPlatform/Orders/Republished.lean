import TradingPlatform.Orders.CurrentTerms

namespace TradingPlatform

open HalfAway

/-- An account type that is written as the engine spells it, or is read as
hedging in any case. -/
def AccountSpelled (accountType : Option String) : Prop :=
  accountType.map String.toLower = some "netting" → accountType = some "netting"

/-- The request of a form whose texts parse. -/
def OrderForm.marginRequest (form : OrderForm) : Option MarginRequest := do
  let side ← Side.parseUpper form.sideUpper
  let orderType ← OrderType.parseUpper form.orderTypeUpper
  let size ← form.size
  some ⟨side, orderType, size, form.limitPrice.join⟩

/-- Size times price over leverage. -/
def MarginContext.requiredMargin (ctx : MarginContext) (req : MarginRequest) : Option ℚ := do
  let tiers ← ctx.profile
  let price ← ctx.executionPrice req
  let leverage ← (ctx.resolvedLimits tiers).effective (req.size * price)
  some (req.size * price / leverage)

namespace TradingTables
variable {db : TradingTables} {userId : UserId} {token : Option GroupId} {form : OrderForm}
  {reads : PlacementReads} {placed : AcceptedOrder}

/-- The margin of an order and the part of it that cash covers have eight decimals. -/
def MarginFits (db : TradingTables) (userId : UserId) (token : Option GroupId) (form : OrderForm)
    (reads : PlacementReads) : Prop :=
  ∀ s ∈ db.symbolNamed form.symbol, ∀ req ∈ form.marginRequest,
    ∀ margin ∈ (db.placementContext userId token form s.2 reads).requiredMargin req,
      OnScale (10 ^ 8) margin ∧ OnScale (10 ^ 8) (min margin (max reads.wallet.availableBalance 0))

/-- What of an order can be told from its row again: it has no take profit and
the default time in force, its numbers have eight decimals, its user has both
leverage limits and an account type in lower case; and the sync reads the user
and finds the tiers that the order was placed with. -/
structure Recoverable (db : TradingTables) (userId : UserId) (token : Option GroupId)
    (form : OrderForm) (reads : PlacementReads) (state : SyncReads) : Prop where
  tp : form.tp.join = none
  tif : form.tif ≠ some "IOC" ∧ form.tif ≠ some "FOK"
  size : ∀ q ∈ form.size, OnScale (10 ^ 8) q
  limitPrice : ∀ q ∈ form.limitPrice.join, OnScale (10 ^ 8) q
  sl : ∀ q ∈ form.sl.join, OnScale (10 ^ 8) q
  margin : db.MarginFits userId token form reads
  snapshot : ∀ price ∈ getPrice reads.snapshotPrices form.symbol (db.groupOf userId),
    OnScale (10 ^ 8) price.1 ∧ OnScale (10 ^ 8) price.2
  user : ∀ user ∈ db.users.lookup userId, user.minLeverage.isSome ∧ user.maxLeverage.isSome ∧
    AccountSpelled user.accountType
  userRead : state.userRead = true
  tiers : state.leverageTiers userId form.symbol =
    (db.resolveLeverageProfile userId form.symbol).map db.tiers

theorem timeInForce_eq_gtc :
    .gtc = form.timeInForce ↔ form.tif ≠ some "IOC" ∧ form.tif ≠ some "FOK" := by
  unfold OrderForm.timeInForce
  split_ifs with ioc fok
  · simp [ioc]
  · simp [fok]
  · simp [ioc, fok]

theorem accountType_eq_iff (ctx : MarginContext) :
    ((ctx.accountType.filter fun s => s = "hedging" ∨ s = "netting").orElse
      fun _ => some "hedging") = some ctx.resolvedAccountType ↔
    AccountSpelled ctx.accountType := by
  unfold AccountSpelled MarginContext.resolvedAccountType
  cases ctx.accountType with
  | none => simp
  | some name =>
    by_cases netting : name = "netting"
    · rw [netting]
      decide +kernel
    · by_cases hedging : name = "hedging"
      · rw [hedging]
        decide +kernel
      · by_cases lower : name.toLower = "netting" <;>
          simp [Option.filter_some, netting, hedging, lower]

theorem lockMargin_split {wallet after : Wallet} {required : ℚ} {m : Margins}
    (locked : wallet.lockMargin required = some (after, m)) :
    m = (min required (max wallet.availableBalance 0),
      required - min required (max wallet.availableBalance 0)) := by
  unfold Wallet.lockMargin at locked
  dsimp only at locked
  split_ifs at locked
  obtain ⟨_, _, same⟩ := Option.map_eq_some_iff.mp locked
  exact (Prod.mk.inj same).2.symm

section Accepted
variable {symbol : TradingSymbol} {req : MarginRequest} {m : Margins}

/-- The two parts of the margin are stored as they are. -/
theorem Accepts.marginFits_iff (accepts : db.Accepts userId token form reads placed symbol req m) :
    placed.row.marginFromCash = m.1 ∧ placed.row.marginFromBonus = m.2 ↔
      db.MarginFits userId token form reads := by
  have record := recordOf_of_insert accepts.row
  obtain ⟨after, locked⟩ := accepts.locked
  obtain ⟨tiers, price, leverage, priced⟩ := priced_of_ok accepts.computed
  have split := lockMargin_split locked
  rw [priced.requiredMargin] at split
  have request : form.marginRequest = some req := by
    unfold OrderForm.marginRequest
    rw [accepts.side, accepts.orderType, accepts.size, accepts.limitPrice]
    rfl
  have margin : (db.placementContext userId token form symbol reads).requiredMargin req =
      some (req.size * price / leverage) := by
    unfold MarginContext.requiredMargin
    rw [priced.profile, priced.priced]
    change ((MarginContext.resolvedLimits _ tiers).effective _).bind _ = _
    rw [priced.leveraged]
    rfl
  have fits : db.MarginFits userId token form reads ↔
      OnScale (10 ^ 8) (req.size * price / leverage) ∧ OnScale (10 ^ 8)
        (min (req.size * price / leverage) (max reads.wallet.availableBalance 0)) := by
    unfold MarginFits
    rw [accepts.named, request]
    simp [margin]
  rw [column_eq_self_iff record.marginFromCash, column_eq_self_iff record.marginFromBonus, fits,
    split]
  constructor
  · rintro ⟨cash, bonus⟩
    refine ⟨?_, cash⟩
    simpa using bonus.add cash
  · rintro ⟨required, cash⟩
    exact ⟨cash, required.sub cash⟩

/-- The numbers of the request are stored as they are. -/
theorem Accepts.numbers_iff (accepts : db.Accepts userId token form reads placed symbol req m) :
    (placed.row.size = req.size ↔ ∀ q ∈ form.size, OnScale (10 ^ 8) q) ∧
    (placed.row.price = req.limitPrice ↔ ∀ q ∈ form.limitPrice.join, OnScale (10 ^ 8) q) ∧
    (placed.row.stopPrice = form.sl.join ↔ ∀ q ∈ form.sl.join, OnScale (10 ^ 8) q) := by
  have record := recordOf_of_insert accepts.row
  have size := record.size
  have price := record.price
  have stopPrice := record.stopPrice
  rw [accepts.command] at size price stopPrice
  refine ⟨?_, ?_, nullableColumn_eq_self_iff stopPrice⟩
  · rw [accepts.size]
    refine (column_eq_self_iff size).trans ?_
    simp [placeCommand]
  · rw [accepts.limitPrice]
    exact nullableColumn_eq_self_iff price

/-- The fields of a user that the sync carries, when it reads the user. -/
theorem syncCommand_user {row : PendingOrderRow} {state : SyncReads} (side : Side)
    (orderType : OrderType) {user : TradingUser} (read : state.userRead = true)
    (known : state.db.users.lookup row.userId = some user) :
    (row.syncCommand state side orderType).groupId = user.groupId ∧
    (row.syncCommand state side orderType).minLeverage = user.minLeverage ∧
    (row.syncCommand state side orderType).maxLeverage = user.maxLeverage ∧
    (row.syncCommand state side orderType).accountType =
      (user.accountType.filter fun s => s = "hedging" ∨ s = "netting").orElse
        fun _ => some "hedging" := by
  unfold PendingOrderRow.syncCommand
  simp [read, known]

theorem getD_limit {limit : Option ℤ} {default : ℤ} :
    limit = some (limit.getD default) ↔ limit.isSome := by
  cases limit <;> simp

/-- The command of an accepted order as far as it depends on the user's row. -/
theorem Accepts.user (accepts : db.Accepts userId token form reads placed symbol req m)
    {user : TradingUser} (known : db.users.lookup userId = some user) :
    placed.command.minLeverage = some (user.minLeverage.getD 1) ∧
    placed.command.maxLeverage = some (user.maxLeverage.getD 500) ∧
    placed.command.accountType =
      some (db.placementContext userId token form symbol reads).resolvedAccountType ∧
    (db.placementContext userId token form symbol reads).accountType = user.accountType := by
  obtain ⟨tiers, price, leverage, priced⟩ := priced_of_ok accepts.computed
  have limits : placed.details.limits =
      ⟨some (user.minLeverage.getD 1), some (user.maxLeverage.getD 500), some tiers⟩ := by
    rw [priced.limits]
    unfold MarginContext.resolvedLimits placementContext
    dsimp only
    rw [known, Option.getD_some]
  refine ⟨?_, ?_, ?_, ?_⟩
  · rw [accepts.command]
    exact congrArg LeverageLimits.minLeverage limits
  · rw [accepts.command]
    exact congrArg LeverageLimits.maxLeverage limits
  · rw [accepts.command]
    exact congrArg some priced.accountType
  · unfold placementContext
    dsimp only
    rw [known, Option.getD_some]

/-- The command that was published, renamed as the sync does. -/
def republished (placed : AcceptedOrder) : PublishedCommand :=
  { placed.command with
    idempotencyKey := "sync-" ++ toString placed.row.id
    ts := placed.row.createdAt }

/-- A row that has not been changed gives back the order's command, with the key
of the sync and the row's time, exactly when the order is recoverable. -/
theorem resync_eq_iff (accepted : db.placeOrder userId token form reads = some placed)
    {state : SyncReads} (sameGroup : token = db.groupOf userId)
    (unchanged : state.db.users.lookup userId = db.users.lookup userId) :
    placed.row.resync state = some (republished placed) ↔
      db.Recoverable userId token form reads state := by
  obtain ⟨symbol, req, m, accepts⟩ := accepts_of_placeOrder accepted
  have record := recordOf_of_insert accepts.row
  obtain ⟨g, like, grouped, found, _, tiers⟩ := accepts.tiers
  obtain ⟨user, known, inGroup⟩ := Option.bind_eq_some_iff.mp grouped
  have group : token.or (db.groupOf userId) = some g := by
    rw [sameGroup, Option.or_self, grouped]
  have command := accepts.command
  have owner : placed.row.userId = userId := by rw [record.userId, command]; rfl
  have rowKnown : state.db.users.lookup placed.row.userId = some user := by
    rw [owner, unchanged, known]
  have carried : placed.command.groupId = some g := by
    rw [command, ← group]
    rfl
  have tiers' : placed.command.leverageTiers =
      (db.resolveLeverageProfile userId form.symbol).map db.tiers := by
    rw [tiers, resolveLeverageProfile_eq, grouped, Option.bind_some, found, Option.bind_some]
  obtain ⟨minLeverage, maxLeverage, accountType, given⟩ := accepts.user known
  obtain ⟨size, limitPrice, sl⟩ := accepts.numbers_iff
  have account := accountType_eq_iff
    (db.placementContext userId token form symbol reads).toMarginContext
  rw [given] at account
  have snapshot := accepts.snapshot_iff group
  have tp : placed.command.tp = form.tp.join := by rw [command]; rfl
  have tif : placed.command.tif = form.timeInForce := by rw [command]; rfl
  have sized : placed.command.size = req.size := by rw [command]; rfl
  have limited : placed.command.limitPrice = req.limitPrice := by rw [command]; rfl
  have stopped : placed.command.sl = form.sl.join := by rw [command]; rfl
  have cash : placed.command.marginFromCash = some m.1 := by rw [command]; rfl
  have bonus : placed.command.marginFromBonus = some m.2 := by rw [command]; rfl
  rw [accepts.resync, Option.some.injEq]
  constructor
  · intro same
    have read : state.userRead = true := by
      refine ((syncCommand_groupId req.side req.orderType (owner ▸ grouped)).mp ?_).1
      exact (congrArg (fun c : PublishedCommand => c.groupId) same).trans carried
    obtain ⟨-, min, max, accounts⟩ := syncCommand_user req.side req.orderType read rowKnown
    have limits : user.minLeverage.isSome ∧ user.maxLeverage.isSome := by
      have lower := congrArg PublishedCommand.minLeverage same
      have upper := congrArg PublishedCommand.maxLeverage same
      exact ⟨getD_limit.mp (min.symm.trans (lower.trans minLeverage)),
        getD_limit.mp (max.symm.trans (upper.trans maxLeverage))⟩
    have spelled : AccountSpelled user.accountType := by
      have named := congrArg (fun c : PublishedCommand => c.accountType) same
      exact account.mp (accounts.symm.trans (named.trans accountType))
    have split : placed.row.marginFromCash = m.1 ∧ placed.row.marginFromBonus = m.2 := by
      have fromCash := congrArg (fun c : PublishedCommand => c.marginFromCash) same
      have fromBonus := congrArg (fun c : PublishedCommand => c.marginFromBonus) same
      exact ⟨Option.some.inj (fromCash.trans cash), Option.some.inj (fromBonus.trans bonus)⟩
    have prices := snapshot.mp ⟨congrArg (fun c : PublishedCommand => c.requestedBid) same,
      congrArg (fun c : PublishedCommand => c.requestedAsk) same⟩
    refine ⟨?_, timeInForce_eq_gtc.mp ?_, size.mp ?_, limitPrice.mp ?_, sl.mp ?_,
      accepts.marginFits_iff.mp split, grouped ▸ prices, fun other stored => ?_, read, ?_⟩
    · exact tp.symm.trans (congrArg (fun c : PublishedCommand => c.tp) same).symm
    · exact (congrArg PublishedCommand.tif same).trans tif
    · exact (congrArg (fun c : PublishedCommand => c.size) same).trans sized
    · exact (congrArg (fun c : PublishedCommand => c.limitPrice) same).trans limited
    · exact (congrArg (fun c : PublishedCommand => c.sl) same).trans stopped
    · cases known.symm.trans stored
      exact ⟨limits.1, limits.2, spelled⟩
    · rw [← tiers', ← owner, ← record.symbolCode]
      exact congrArg PublishedCommand.leverageTiers same
  · intro recoverable
    obtain ⟨inGroup', min, max, accounts⟩ :=
      syncCommand_user req.side req.orderType recoverable.userRead rowKnown
    obtain ⟨split, split'⟩ := accepts.marginFits_iff.mpr recoverable.margin
    obtain ⟨bid, ask⟩ := snapshot.mpr (grouped ▸ recoverable.snapshot)
    obtain ⟨lower, upper, spelled⟩ := recoverable.user user known
    have sides : placed.command.side = req.side := by rw [command]; rfl
    have types : placed.command.orderType = req.orderType := by rw [command]; rfl
    have symbols : placed.command.symbol = form.symbol := by rw [command]; rfl
    have client : placed.command.clientOrderId = form.clientOrderId := by rw [command]; rfl
    apply PublishedCommand.ext
    · exact record.id
    · exact record.userId
    · exact record.symbolCode.trans symbols.symm
    · exact (inGroup'.trans inGroup).trans carried.symm
    · exact sides.symm
    · exact types.symm
    · exact (size.mpr recoverable.size).trans sized.symm
    · exact (limitPrice.mpr recoverable.limitPrice).trans limited.symm
    · exact (sl.mpr recoverable.sl).trans stopped.symm
    · exact (tp.trans recoverable.tp).symm
    · rfl
    · exact (accounts.trans (account.mpr spelled)).trans accountType.symm
    · exact (congrArg some split).trans cash.symm
    · exact (congrArg some split').trans bonus.symm
    · exact bid
    · exact ask
    · exact record.maxSlippageBps
    · exact (timeInForce_eq_gtc.mpr recoverable.tif).trans tif.symm
    · exact record.reference.trans client.symm
    · rfl
    · exact (min.trans (getD_limit.mpr lower)).trans minLeverage.symm
    · exact (max.trans (getD_limit.mpr upper)).trans maxLeverage.symm
    · refine Eq.trans ?_ (recoverable.tiers.trans tiers'.symm)
      rw [← owner, ← record.symbolCode]
      rfl

end Accepted

/-- The sample user with leverage limits and an account type. -/
def nettingTables : TradingTables :=
  { sampleTables with
    users := (∅ : FiniteTable UserId TradingUser).insert 1
      ⟨some 1, some 100, some "netting", "full", some "b"⟩ }

/-- A market order without stops is sent again as it was placed. -/
theorem resync_plain : ∃ placed,
    nettingTables.placeOrder 1 (some "b") sampleForm sampleReads = some placed ∧
    placed.row.resync ⟨nettingTables, true, true, true⟩ = some (republished placed) := by
  have evaluates : (nettingTables.placeOrder 1 (some "b") sampleForm sampleReads).map
      (fun placed => placed.details.requiredMargin) = some 40 := by decide +kernel
  obtain ⟨placed, accepted, _⟩ := Option.map_eq_some_iff.mp evaluates
  have grouped : nettingTables.groupOf 1 = some "b" := by decide +kernel
  refine ⟨placed, accepted, (resync_eq_iff accepted grouped.symm rfl).mpr ?_⟩
  refine ⟨rfl, by decide, fun q given => ?_, nofun, nofun, ?_, fun price given => ?_,
    fun user known => ?_, rfl, by decide +kernel⟩
  · cases given
    exact ⟨1000 * 10 ^ 8, by norm_num⟩
  · intro s named req requested margin computed
    have symbol : nettingTables.symbolNamed "EURUSD" =
        some (5, ⟨"EURUSD", none, true, false, true⟩) := by decide +kernel
    have request : sampleForm.marginRequest = some ⟨.BUY, .MARKET, 1000, none⟩ := by
      decide +kernel
    cases symbol.symm.trans named
    cases request.symm.trans requested
    have forty : (nettingTables.placementContext 1 (some "b") sampleForm
        ⟨"EURUSD", none, true, false, true⟩ sampleReads).requiredMargin
          ⟨.BUY, .MARKET, 1000, none⟩ = some 40 := by decide +kernel
    cases forty.symm.trans computed
    have covered : min (40 : ℚ) (max sampleReads.wallet.availableBalance 0) = 40 := by
      decide +kernel
    rw [covered]
    have whole : OnScale ((10 : ℚ) ^ 8) 40 := ⟨40 * 10 ^ 8, by norm_num⟩
    exact ⟨whole, whole⟩
  · have snapshot : getPrice sampleReads.snapshotPrices "EURUSD" (nettingTables.groupOf 1) =
        some (3, 4) := by decide +kernel
    cases snapshot.symm.trans given
    exact ⟨⟨3 * 10 ^ 8, by norm_num⟩, ⟨4 * 10 ^ 8, by norm_num⟩⟩
  · have row : nettingTables.users.lookup 1 =
        some ⟨some 1, some 100, some "netting", "full", some "b"⟩ := by decide +kernel
    cases row.symm.trans known
    exact ⟨rfl, rfl, fun _ => rfl⟩

/-- The take profit of an order is lost when it is sent again. -/
theorem resync_without_takeProfit : ∃ placed,
    nettingTables.placeOrder 1 (some "b") { sampleForm with tp := some (some 5) } sampleReads =
      some placed ∧
    placed.row.resync ⟨nettingTables, true, true, true⟩ ≠ some (republished placed) := by
  have evaluates : (nettingTables.placeOrder 1 (some "b")
      { sampleForm with tp := some (some 5) } sampleReads).map
      (fun placed => (placed.command.tp,
        (placed.row.resync ⟨nettingTables, true, true, true⟩).map fun c => c.tp)) =
      some (some 5, some none) := by decide +kernel
  obtain ⟨placed, accepted, reads⟩ := Option.map_eq_some_iff.mp evaluates
  obtain ⟨kept, lost⟩ := Prod.mk.inj reads
  refine ⟨placed, accepted, fun same => ?_⟩
  rw [same] at lost
  have none : placed.command.tp = none := Option.some.inj lost
  rw [kept] at none
  cases none

end TradingTables

end TradingPlatform
