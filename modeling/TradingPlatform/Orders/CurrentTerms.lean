import TradingPlatform.Orders.OrderTerms

namespace TradingPlatform

open HalfAway

section Margin
variable {ctx : MarginContext} {req : MarginRequest} {details : OrderMarginDetails}

/-- What the margin of an order was computed from. -/
structure MarginContext.Priced (ctx : MarginContext) (req : MarginRequest)
    (details : OrderMarginDetails) (tiers : List LeverageTier) (price leverage : ℚ) : Prop where
  profile : ctx.profile = some tiers
  nonempty : tiers ≠ []
  priced : ctx.executionPrice req = some price
  leveraged : (ctx.resolvedLimits tiers).effective (req.size * price) = some leverage
  requiredMargin : details.requiredMargin = req.size * price / leverage
  executionPrice : details.executionPrice = price
  limits : details.limits = ctx.resolvedLimits tiers
  accountType : details.accountType = ctx.resolvedAccountType

theorem priced_of_ok (computed : ctx.computeOrderMarginDetails req = .ok details) :
    ∃ tiers price leverage, ctx.Priced req details tiers price leverage := by
  unfold MarginContext.computeOrderMarginDetails at computed
  split at computed
  next => cases computed
  next tiers profile =>
    dsimp only at computed
    split_ifs at computed with empty
    split at computed
    next => cases computed
    next price priced =>
      split at computed
      next => cases computed
      next leverage found =>
        split_ifs at computed
        cases computed
        exact ⟨tiers, price, leverage, profile, empty, priced, found, rfl, rfl, rfl, rfl⟩

theorem toOption_eq_some {α : Type} {answer : Answer α} {a : α}
    (found : answer.toOption = some a) : answer = .ok a := by
  cases answer with
  | error e => cases found
  | ok b => exact congrArg _ (Option.some.inj found)

theorem mapError_ok {answer : Except PlaceOrderError OrderMarginDetails}
    (found : answer.mapError OrderCallError.refused = .ok details) : answer = .ok details := by
  cases answer with
  | error e => cases found
  | ok b => exact congrArg _ (Except.ok.inj found)

theorem bind_ok {α β : Type} {answer : Answer α} {f : α → Answer β} {b : β}
    (ok : (answer >>= f) = .ok b) : ∃ a, answer = .ok a ∧ f a = .ok b := by
  cases answer with
  | error e => cases ok
  | ok a => exact ⟨a, rfl, ok⟩

theorem checks_ok {r : PlaceOrderRequest} {ctx : PlacementContext} {fails : OrderCallStep → Bool}
    (checked : r.checks ctx fails = .ok details) : ∃ side orderType size,
      Side.parseUpper r.sideUpper = some side ∧ OrderType.parseUpper r.orderTypeUpper = some orderType ∧
      r.size = some size ∧ ctx.tradingEnabled = true ∧
      ctx.computeOrderMarginDetails ⟨side, orderType, size, r.limitPrice.join⟩ = .ok details := by
  obtain ⟨orderType, typed, checked⟩ := require_bind_ok checked
  obtain ⟨side, sided, checked⟩ := require_bind_ok checked
  obtain ⟨size, sized, checked⟩ := require_bind_ok checked
  obtain ⟨_, checked⟩ := failIf_bind_ok checked
  obtain ⟨limitPrice, limited, checked⟩ := require_bind_ok checked
  obtain ⟨_, checked⟩ := failIf_bind_ok checked
  obtain ⟨_, checked⟩ := failIf_bind_ok checked
  obtain ⟨_, checked⟩ := failIf_bind_ok checked
  obtain ⟨_, checked⟩ := failIf_bind_ok checked
  have limit : limitPrice = r.limitPrice.join := by
    cases given : r.limitPrice with
    | none =>
      rw [given] at limited
      cases limited
      rfl
    | some parsed =>
      rw [given] at limited
      obtain ⟨q, same, rfl⟩ := Option.map_eq_some_iff.mp limited
      rw [same]
      rfl
  obtain ⟨details', computed, checked⟩ := bind_ok checked
  obtain ⟨_, checked⟩ := failIf_bind_ok checked
  obtain ⟨enabled, checked⟩ := failIf_bind_ok checked
  obtain ⟨_, checked⟩ := failIf_bind_ok checked
  obtain ⟨_, checked⟩ := failIf_bind_ok checked
  obtain ⟨_, checked⟩ := failIf_bind_ok checked
  obtain ⟨_, checked⟩ := failIf_bind_ok checked
  obtain ⟨_, checked⟩ := failIf_bind_ok checked
  obtain ⟨_, checked⟩ := failIf_bind_ok checked
  obtain ⟨_, checked⟩ := failIf_bind_ok checked
  obtain ⟨_, checked⟩ := failIf_bind_ok checked
  cases checked
  refine ⟨side, orderType, size, sided, typed, sized, by simpa using enabled, ?_⟩
  rw [← limit]
  exact mapError_ok computed

theorem lock_ok {wallet : Wallet} {freeMargin : ℚ} {fails : OrderCallStep → Bool}
    {placement : Placement} (locked : details.lock wallet freeMargin fails = .ok placement) :
    ∃ after, wallet.lockMargin details.requiredMargin = some (after, placement.allocation) := by
  obtain ⟨_, locked⟩ := failIf_bind_ok locked
  obtain ⟨_, locked⟩ := failIf_bind_ok locked
  obtain ⟨_, locked⟩ := failIf_bind_ok locked
  obtain ⟨_, locked⟩ := failIf_bind_ok locked
  obtain ⟨_, locked⟩ := failIf_bind_ok locked
  obtain ⟨⟨after, allocation⟩, found, locked⟩ := require_bind_ok locked
  obtain ⟨_, locked⟩ := failIf_bind_ok locked
  obtain ⟨_, locked⟩ := failIf_bind_ok locked
  obtain ⟨charged, _, locked⟩ := require_bind_ok locked
  obtain ⟨_, locked⟩ := failIf_bind_ok locked
  cases locked
  exact ⟨after, found⟩

end Margin

section Rows
variable {c : PublishedCommand} {form : OrderForm} {m : Margins} {row : PendingOrderRow}

/-- The row of an order against its command. -/
structure PendingOrderRow.RecordOf (row : PendingOrderRow) (c : PublishedCommand)
    (form : OrderForm) (m : Margins) : Prop where
  id : row.id = c.orderId
  userId : row.userId = c.userId
  symbolCode : row.symbolCode = form.symbol
  side : row.side = form.sideUpper.toLower
  orderType : row.orderType = form.orderTypeUpper.toLower
  size : orderColumn c.size = some row.size
  price : nullableColumn c.limitPrice = some row.price
  stopPrice : nullableColumn c.sl = some row.stopPrice
  reference : row.reference = form.clientOrderId
  createdAt : row.createdAt = c.ts
  marginFromCash : orderColumn m.1 = some row.marginFromCash
  marginFromBonus : orderColumn m.2 = some row.marginFromBonus
  requestedBid : nullableColumn c.requestedBid = some row.requestedBid
  requestedAsk : nullableColumn c.requestedAsk = some row.requestedAsk
  maxSlippageBps : row.maxSlippageBps = c.maxSlippageBps

theorem recordOf_of_insert (inserted : c.insert form m = some row) : row.RecordOf c form m := by
  unfold PublishedCommand.insert at inserted
  obtain ⟨size, sized, inserted⟩ := Option.bind_eq_some_iff.mp inserted
  obtain ⟨price, priced, inserted⟩ := Option.bind_eq_some_iff.mp inserted
  obtain ⟨stopPrice, stopped, inserted⟩ := Option.bind_eq_some_iff.mp inserted
  obtain ⟨cash, fromCash, inserted⟩ := Option.bind_eq_some_iff.mp inserted
  obtain ⟨bonus, fromBonus, inserted⟩ := Option.bind_eq_some_iff.mp inserted
  obtain ⟨bid, bidden, inserted⟩ := Option.bind_eq_some_iff.mp inserted
  obtain ⟨ask, asked, inserted⟩ := Option.bind_eq_some_iff.mp inserted
  split_ifs at inserted
  cases inserted
  exact ⟨rfl, rfl, rfl, rfl, rfl, sized, priced, stopped, rfl, rfl, fromCash, fromBonus, bidden,
    asked, rfl⟩

theorem Side.parseUpper_stored {text : String} {side : Side}
    (parsed : Side.parseUpper text = some side) :
    Side.parseUpper text.toLower.toUpper = some side := by
  unfold Side.parseUpper at parsed
  split_ifs at parsed with buy sell
  · rw [buy, ← parsed]
    decide +kernel
  · rw [sell, ← parsed]
    decide +kernel

theorem OrderType.parseUpper_stored {text : String} {orderType : OrderType}
    (parsed : OrderType.parseUpper text = some orderType) :
    OrderType.parseUpper text.toLower.toUpper = some orderType := by
  unfold OrderType.parseUpper at parsed
  split_ifs at parsed with market limit
  · rw [market, ← parsed]
    decide +kernel
  · rw [limit, ← parsed]
    decide +kernel

theorem nullableColumn_eq_self_iff {x y : Option ℚ} (stored : nullableColumn x = some y) :
    y = x ↔ ∀ q ∈ x, OnScale (10 ^ 8) q := by
  cases x with
  | none =>
    cases stored
    simp
  | some q =>
    obtain ⟨r, kept, rfl⟩ := Option.map_eq_some_iff.mp stored
    rw [Option.some.injEq, column_eq_self_iff kept]
    simp

end Rows

namespace TradingTables
variable {db : TradingTables} {userId : UserId} {token : Option GroupId} {form : OrderForm}
  {reads : PlacementReads} {placed : AcceptedOrder} {g : GroupId} {s : SymbolId}

/-- `SELECT id FROM symbols WHERE code = $1` -/
def symbolNamed (db : TradingTables) (code : Symbol) : Option (SymbolId × TradingSymbol) :=
  (db.symbols.entries.find? fun s => s.2.code = code).map fun s => (s.1, s.2)

/-- An accepted order and what it was made from. -/
structure Accepts (db : TradingTables) (userId : UserId) (token : Option GroupId)
    (form : OrderForm) (reads : PlacementReads) (placed : AcceptedOrder) (symbol : TradingSymbol)
    (req : MarginRequest) (m : Margins) : Prop where
  named : db.symbolNamed form.symbol = some (placed.symbolId, symbol)
  side : Side.parseUpper form.sideUpper = some req.side
  orderType : OrderType.parseUpper form.orderTypeUpper = some req.orderType
  size : form.size = some req.size
  limitPrice : form.limitPrice.join = req.limitPrice
  enabled : symbol.tradingEnabled = true
  computed : (db.placementContext userId token form symbol reads).computeOrderMarginDetails req =
    .ok placed.details
  locked : ∃ after, reads.wallet.lockMargin placed.details.requiredMargin = some (after, m)
  command : placed.command = db.placeCommand userId token form reads req placed.details m
  row : placed.command.insert form m = some placed.row
  feeRule : placed.feeRule = (token.or (db.groupOf userId)).bind fun g =>
    db.resolveFeeRule g form.symbol (db.resolveSymbolMarket form.symbol)

theorem accepts_of_placeOrder (accepted : db.placeOrder userId token form reads = some placed) :
    ∃ symbol req m, db.Accepts userId token form reads placed symbol req m := by
  unfold placeOrder at accepted
  obtain ⟨⟨symbolId, symbol⟩, found, accepted⟩ := Option.bind_eq_some_iff.mp accepted
  obtain ⟨details, checked, accepted⟩ := Option.bind_eq_some_iff.mp accepted
  obtain ⟨placement, locked, accepted⟩ := Option.bind_eq_some_iff.mp accepted
  obtain ⟨side, sided, accepted⟩ := Option.bind_eq_some_iff.mp accepted
  obtain ⟨orderType, typed, accepted⟩ := Option.bind_eq_some_iff.mp accepted
  obtain ⟨size, sized, accepted⟩ := Option.bind_eq_some_iff.mp accepted
  obtain ⟨row, inserted, accepted⟩ := Option.bind_eq_some_iff.mp accepted
  cases accepted
  obtain ⟨side', orderType', size', sided', typed', sized', enabled, computed⟩ :=
    checks_ok (toOption_eq_some checked)
  cases sided.symm.trans sided'
  cases typed.symm.trans typed'
  cases sized.symm.trans sized'
  refine ⟨symbol, ⟨side, orderType, size, form.limitPrice.join⟩, placement.allocation, ?_⟩
  exact ⟨congrArg (Option.map _) found, sided, typed, sized, rfl, enabled, computed,
    lock_ok (toOption_eq_some locked), rfl, inserted, rfl⟩

/-- The leverage profile of a symbol for a group: the settings of the symbol,
else the default of the group, else that of the platform. -/
def groupProfile (db : TradingTables) (g : GroupId) (s : SymbolId) : Option LeverageProfileId :=
  (db.groups.lookup g).bind fun group =>
    (((db.groupSymbols.lookup (g, s)).bind (·.leverageProfileId)).orElse
      fun _ => group.defaultLeverageProfileId).orElse fun _ => db.defaultLeverageProfile

theorem resolveLeverageProfile_eq (db : TradingTables) (userId : UserId) (code : Symbol) :
    db.resolveLeverageProfile userId code = (db.groupOf userId).bind fun g =>
      (db.symbolLike code).bind fun symbol => db.groupProfile g symbol.1 := by
  unfold resolveLeverageProfile groupProfile
  cases db.groupOf userId with
  | none => rfl
  | some g =>
    cases found : db.groups.lookup g with
    | none =>
      cases db.symbolLike code with
      | none => simp
      | some symbol => simp [found]
    | some group =>
      cases db.symbolLike code with
      | none => simp
      | some symbol =>
        simp only [found, Option.bind_eq_bind, Option.bind_some]
        generalize ((db.groupSymbols.lookup (g, symbol.1)).bind (·.leverageProfileId)).orElse
          (fun _ => group.defaultLeverageProfileId) = own
        cases own <;> rfl

theorem lookup_of_symbolNamed {code : Symbol} {symbol : TradingSymbol}
    (named : db.symbolNamed code = some (s, symbol)) : db.symbols.lookup s = some symbol := by
  obtain ⟨row, found, same⟩ := Option.map_eq_some_iff.mp named
  cases same
  exact AList.mem_lookup_iff.mpr (List.mem_of_find?_eq_some found)

/-- What `list_group_symbols` reports of one symbol. -/
theorem listed_iff {symbol : TradingSymbol} (known : db.symbols.lookup s = some symbol)
    {tiers : Option (List LeverageTier)} :
    (∃ row ∈ db.listGroupSymbols g, row.symbolId = s ∧ row.enabled = true ∧
      tiers = row.leverageProfileId.map db.tiers) ↔
    (db.groups.lookup g).isSome ∧
      ((db.groupSymbols.lookup (g, s)).map (·.enabled)).getD symbol.tradingEnabled = true ∧
      tiers = (db.groupProfile g s).map db.tiers := by
  unfold listGroupSymbols groupProfile
  cases found : db.groups.lookup g with
  | none => simp
  | some group =>
    simp only [List.mem_map, Option.isSome_some, true_and, Option.bind_some]
    constructor
    · rintro ⟨_, ⟨row, member, rfl⟩, rfl, enabled, same⟩
      have stored : db.symbols.lookup row.1 = some row.2 := AList.mem_lookup_iff.mpr member
      cases known.symm.trans stored
      exact ⟨enabled, same⟩
    · rintro ⟨enabled, same⟩
      exact ⟨_, ⟨⟨s, symbol⟩, AList.mem_lookup_iff.mp known, rfl⟩, rfl, enabled, same⟩

/-- The terms of an accepted order and of a command for it as a group has them:
its row in `list_group_symbols`, its tiers, its price, its fee rule, its
slippage, its snapshot and its ticks. -/
structure TermsOf (db : TradingTables) (g : GroupId) (form : OrderForm) (reads : PlacementReads)
    (placed : AcceptedOrder) (c : PublishedCommand) : Prop where
  listed : ∃ row ∈ db.listGroupSymbols g, row.symbolId = placed.symbolId ∧ row.enabled = true ∧
    c.leverageTiers = row.leverageProfileId.map db.tiers
  price : placed.command.orderType = .MARKET →
    (getPrice reads.prices form.symbol (some g)).map
      (fun price => if placed.command.side = .BUY then price.2 else price.1) =
        some placed.details.executionPrice
  feeRule : placed.feeRule =
    db.resolveFeeRule g form.symbol (db.resolveSymbolMarket form.symbol)
  slippage : c.maxSlippageBps = some (db.resolveSlippage (some g) form.slippageBps)
  requestedBid : c.requestedBid =
    (getPrice reads.snapshotPrices form.symbol (some g)).map Prod.fst
  requestedAsk : c.requestedAsk =
    (getPrice reads.snapshotPrices form.symbol (some g)).map Prod.snd
  groupId : c.groupId = some g

/-- The conditions on a later sync of the order: the user is still in the group
and is read, the tiers are still those of the group, and the snapshot fits its
columns. -/
structure SyncAgrees (db : TradingTables) (userId : UserId) (form : OrderForm)
    (reads : PlacementReads) (state : SyncReads) : Prop where
  userRead : state.userRead = true
  group : state.db.groupOf userId = db.groupOf userId
  tiers : ∀ s ∈ db.symbolNamed form.symbol, ∀ g ∈ db.groupOf userId,
    state.leverageTiers userId form.symbol = (db.groupProfile g s.1).map db.tiers
  snapshot : ∀ price ∈ getPrice reads.snapshotPrices form.symbol (db.groupOf userId),
    OnScale (10 ^ 8) price.1 ∧ OnScale (10 ^ 8) price.2

/-- The group in the token, if there is one, is still that of the user, who may
trade the symbol, and no symbol of the same code up to case and blanks is found
in its place with other tiers. -/
structure Agrees (db : TradingTables) (userId : UserId) (token : Option GroupId)
    (form : OrderForm) (reads : PlacementReads) (later : List SyncReads) : Prop where
  token : token = none ∨ token = db.groupOf userId
  enabled : ∀ s ∈ db.symbolNamed form.symbol, ∀ g ∈ db.groupOf userId,
    ∀ settings ∈ db.groupSymbols.lookup (g, s.1), settings.enabled = true
  tiers : ∀ s ∈ db.symbolNamed form.symbol, ∀ g ∈ db.groupOf userId,
    ∀ like ∈ db.symbolLike form.symbol,
      (db.groupProfile g like.1).map db.tiers = (db.groupProfile g s.1).map db.tiers
  later : ∀ state ∈ later, db.SyncAgrees userId form reads state

/-- An accepted order has a group and tiers, those of the symbol that the
leverage query returns. -/
theorem Accepts.tiers {symbol : TradingSymbol} {req : MarginRequest} {m : Margins}
    (accepts : db.Accepts userId token form reads placed symbol req m) :
    ∃ g like, db.groupOf userId = some g ∧ db.symbolLike form.symbol = some like ∧
      (db.groups.lookup g).isSome ∧
      placed.command.leverageTiers = (db.groupProfile g like.1).map db.tiers := by
  obtain ⟨tiers, price, leverage, priced⟩ := priced_of_ok accepts.computed
  have profile : (db.resolveLeverageProfile userId form.symbol).map db.tiers = some tiers :=
    priced.profile
  have carried : placed.command.leverageTiers = some tiers := by
    rw [accepts.command]
    change placed.details.limits.leverageTiers = _
    rw [priced.limits]
    rfl
  rw [resolveLeverageProfile_eq] at profile
  obtain ⟨id, resolved, same⟩ := Option.map_eq_some_iff.mp profile
  obtain ⟨g, grouped, resolved⟩ := Option.bind_eq_some_iff.mp resolved
  obtain ⟨like, found, resolved⟩ := Option.bind_eq_some_iff.mp resolved
  refine ⟨g, like, grouped, found, ?_, ?_⟩
  · obtain ⟨group, stored, _⟩ := Option.bind_eq_some_iff.mp resolved
    rw [stored]
    rfl
  · rw [carried, resolved, Option.map_some, same]

section Accepted
variable {symbol : TradingSymbol} {req : MarginRequest} {m : Margins}

theorem groupId_of_user (db : TradingTables) (userId : UserId) :
    ((db.users.lookup userId).getD ⟨none, none, none, "full", none⟩).groupId =
      db.groupOf userId := by
  unfold groupOf
  cases db.users.lookup userId <;> rfl

/-- An order that goes by a group has the price, the fee rule, the slippage and
the snapshot of that group. -/
theorem Accepts.termsOf (accepts : db.Accepts userId token form reads placed symbol req m)
    (group : token.or (db.groupOf userId) = some g)
    (listed : ∃ row ∈ db.listGroupSymbols g, row.symbolId = placed.symbolId ∧
      row.enabled = true ∧ placed.command.leverageTiers = row.leverageProfileId.map db.tiers) :
    db.TermsOf g form reads placed placed.command := by
  have command := accepts.command
  refine ⟨listed, fun market => ?_, ?_, ?_, ?_, ?_, ?_⟩
  · obtain ⟨tiers, price, leverage, priced⟩ := priced_of_ok accepts.computed
    have given : (db.placementContext userId token form symbol reads).price =
        getPrice reads.prices form.symbol (some g) := by
      unfold placementContext
      dsimp only
      rw [groupId_of_user, group]
    have sides : placed.command.side = req.side := by rw [command]; rfl
    have types : placed.command.orderType = req.orderType := by rw [command]; rfl
    have executed := priced.priced
    unfold MarginContext.executionPrice at executed
    rw [types] at market
    rw [market, given] at executed
    rw [sides, priced.executionPrice]
    cases side : req.side with
    | BUY => rw [side] at executed; simpa using executed
    | SELL => rw [side] at executed; simpa using executed
  · rw [accepts.feeRule, group, Option.bind_some]
  · rw [command, ← group]
    rfl
  · rw [command, ← group]
    rfl
  · rw [command, ← group]
    rfl
  · rw [command, ← group]
    rfl

theorem Accepts.listed_iff (accepts : db.Accepts userId token form reads placed symbol req m)
    (grouped : (db.groups.lookup g).isSome) {tiers : Option (List LeverageTier)} :
    (∃ row ∈ db.listGroupSymbols g, row.symbolId = placed.symbolId ∧ row.enabled = true ∧
      tiers = row.leverageProfileId.map db.tiers) ↔
    (∀ settings ∈ db.groupSymbols.lookup (g, placed.symbolId), settings.enabled = true) ∧
      tiers = (db.groupProfile g placed.symbolId).map db.tiers := by
  rw [TradingTables.listed_iff (lookup_of_symbolNamed accepts.named), accepts.enabled]
  cases found : db.groupSymbols.lookup (g, placed.symbolId) <;> simp [grouped]

/-- The snapshot is stored as it is. -/
theorem Accepts.snapshot_iff (accepts : db.Accepts userId token form reads placed symbol req m)
    (group : token.or (db.groupOf userId) = some g) :
    placed.row.requestedBid = placed.command.requestedBid ∧
      placed.row.requestedAsk = placed.command.requestedAsk ↔
    ∀ price ∈ getPrice reads.snapshotPrices form.symbol (some g),
      OnScale (10 ^ 8) price.1 ∧ OnScale (10 ^ 8) price.2 := by
  have record := recordOf_of_insert accepts.row
  have bid : placed.command.requestedBid =
      (getPrice reads.snapshotPrices form.symbol (some g)).map Prod.fst := by
    rw [accepts.command, ← group]
    rfl
  have ask : placed.command.requestedAsk =
      (getPrice reads.snapshotPrices form.symbol (some g)).map Prod.snd := by
    rw [accepts.command, ← group]
    rfl
  rw [nullableColumn_eq_self_iff record.requestedBid,
    nullableColumn_eq_self_iff record.requestedAsk, bid, ask]
  cases getPrice reads.snapshotPrices form.symbol (some g) <;> simp

theorem Accepts.resync (accepts : db.Accepts userId token form reads placed symbol req m)
    (state : SyncReads) :
    placed.row.resync state = some (placed.row.syncCommand state req.side req.orderType) := by
  have record := recordOf_of_insert accepts.row
  unfold PendingOrderRow.resync
  rw [record.side, Side.parseUpper_stored accepts.side, record.orderType,
    OrderType.parseUpper_stored accepts.orderType]
  rfl

theorem syncCommand_groupId {row : PendingOrderRow} {state : SyncReads} (side : Side)
    (orderType : OrderType) (known : db.groupOf row.userId = some g) :
    (row.syncCommand state side orderType).groupId = some g ↔
      state.userRead = true ∧ state.db.groupOf row.userId = db.groupOf row.userId := by
  rw [known]
  unfold PendingOrderRow.syncCommand groupOf
  dsimp only
  by_cases read : state.userRead = true
  · simp [read]
  · simp [read]

/-- What it takes for a later command to have the terms of the group too. -/
theorem Accepts.resync_termsOf_iff (accepts : db.Accepts userId token form reads placed symbol req m)
    (grouped : db.groupOf userId = some g) (stored : (db.groups.lookup g).isSome)
    (first : db.TermsOf g form reads placed placed.command) {state : SyncReads} :
    db.TermsOf g form reads placed (placed.row.syncCommand state req.side req.orderType) ↔
      db.SyncAgrees userId form reads state := by
  have record := recordOf_of_insert accepts.row
  have owner : placed.row.userId = userId := by rw [record.userId, accepts.command]; rfl
  have grouped' : db.groupOf placed.row.userId = some g := by rw [owner, grouped]
  have enabled := ((accepts.listed_iff stored).mp first.listed).1
  have carried : placed.command.groupId = token.or (db.groupOf userId) := by
    rw [accepts.command]
    rfl
  have snapshot := accepts.snapshot_iff (carried.symm.trans first.groupId)
  constructor
  · intro terms
    obtain ⟨read, group⟩ := (syncCommand_groupId _ _ grouped').mp terms.groupId
    rw [owner] at group
    refine ⟨read, group, fun s named h known => ?_, fun price given => ?_⟩
    · cases accepts.named.symm.trans named
      cases grouped.symm.trans known
      have tiers := ((accepts.listed_iff stored).mp terms.listed).2
      rw [← tiers, ← owner, ← record.symbolCode]
      rfl
    · rw [grouped] at given
      exact snapshot.mp ⟨terms.requestedBid.trans first.requestedBid.symm,
        terms.requestedAsk.trans first.requestedAsk.symm⟩ price given
  · intro agrees
    have fits := agrees.snapshot
    rw [grouped] at fits
    obtain ⟨bid, ask⟩ := snapshot.mpr fits
    refine ⟨(accepts.listed_iff stored).mpr ⟨enabled, ?_⟩, first.price, first.feeRule, ?_, ?_, ?_, ?_⟩
    · rw [← agrees.tiers _ accepts.named g grouped, ← owner, ← record.symbolCode]
      rfl
    · exact record.maxSlippageBps.trans first.slippage
    · exact bid.trans first.requestedBid
    · exact ask.trans first.requestedAsk
    · refine (syncCommand_groupId _ _ grouped').mpr ⟨agrees.userRead, ?_⟩
      rw [owner, agrees.group]

end Accepted

/-- An accepted order and every later command for it have the terms of the
user's group exactly when token, settings and later reads agree with it. -/
theorem termsOf_iff (accepted : db.placeOrder userId token form reads = some placed)
    (later : List SyncReads) :
    (∃ g, db.groupOf userId = some g ∧ db.TermsOf g form reads placed placed.command ∧
      ∀ state ∈ later, ∀ c ∈ placed.row.resync state, db.TermsOf g form reads placed c) ↔
    db.Agrees userId token form reads later := by
  obtain ⟨symbol, req, m, accepts⟩ := accepts_of_placeOrder accepted
  obtain ⟨g, like, grouped, found, stored, tiers⟩ := accepts.tiers
  have carried : placed.command.groupId = token.or (db.groupOf userId) := by
    rw [accepts.command]
    rfl
  constructor
  · rintro ⟨h, known, first, resynced⟩
    cases grouped.symm.trans known
    obtain ⟨enabled, listed⟩ := (accepts.listed_iff stored).mp first.listed
    refine ⟨?_, fun s named h known => ?_, fun s named h known other other' => ?_,
      fun state member => ?_⟩
    · have same := carried.symm.trans first.groupId
      cases token with
      | none => exact .inl rfl
      | some h => exact .inr (same.trans grouped.symm)
    · cases accepts.named.symm.trans named
      cases grouped.symm.trans known
      exact enabled
    · cases accepts.named.symm.trans named
      cases grouped.symm.trans known
      cases found.symm.trans other'
      exact tiers.symm.trans listed
    · exact (accepts.resync_termsOf_iff grouped stored first).mp
        (resynced state member _ (accepts.resync state))
  · intro agrees
    have group : token.or (db.groupOf userId) = some g := by
      rcases agrees.token with rfl | rfl
      · exact grouped
      · rw [Option.or_self, grouped]
    have first : db.TermsOf g form reads placed placed.command := by
      refine accepts.termsOf group ((accepts.listed_iff stored).mpr ⟨?_, ?_⟩)
      · exact agrees.enabled _ accepts.named g grouped
      · exact tiers.trans (agrees.tiers _ accepts.named g grouped like found)
    refine ⟨g, grouped, first, fun state member c resynced => ?_⟩
    cases (accepts.resync state).symm.trans resynced
    exact (accepts.resync_termsOf_iff grouped stored first).mpr (agrees.later state member)

/-- Two groups with prices of their own and a user of the second one. -/
def sampleTables : TradingTables where
  users := (∅ : FiniteTable UserId TradingUser).insert 1 ⟨none, none, none, "full", some "b"⟩
  groups := ((∅ : FiniteTable GroupId UserGroup).insert "a" ⟨some 1, false, none⟩).insert "b"
    ⟨some 1, false, none⟩
  groupSymbols := (∅ : FiniteTable (GroupId × SymbolId) GroupSymbol)
  symbols := (∅ : FiniteTable SymbolId TradingSymbol).insert 5 ⟨"EURUSD", none, true, false, true⟩
  defaultLeverageProfile := none
  tiers := fun _ => [⟨0, none, 100⟩]
  feeRules := []
  platformSlippageBps := some 30

def sampleForm : OrderForm where
  sideUpper := "BUY"
  orderTypeUpper := "MARKET"
  size := some 1000
  limitPrice := none
  idempotencyKey := "k"
  symbol := "EURUSD"
  sl := none
  tp := none
  tif := none
  clientOrderId := none
  slippageBps := none

def sampleReads : PlacementReads where
  orderId := 9
  now := 0
  openPositionSide := none
  sessionOpen := true
  freeMargin := 500
  wallet := Wallet.cash 500 0
  prices := fun key => if key = "prices:EURUSD:a" then some (1, 2) else some (3, 4)
  snapshotPrices := fun key => if key = "prices:EURUSD:a" then some (1, 2) else some (3, 4)
  fails := fun _ => false

/-- With the token of an earlier group the order is priced and filled as one of
that group. -/
theorem not_termsOf_staleToken : ∃ placed,
    sampleTables.placeOrder 1 (some "a") sampleForm sampleReads = some placed ∧
    ¬ ∃ g, sampleTables.groupOf 1 = some g ∧
      sampleTables.TermsOf g sampleForm sampleReads placed placed.command := by
  have evaluates : (sampleTables.placeOrder 1 (some "a") sampleForm sampleReads).map
      (fun placed => (placed.command.groupId, sampleTables.groupOf 1)) =
      some (some "a", some "b") := by decide +kernel
  obtain ⟨placed, accepted, reads⟩ := Option.map_eq_some_iff.mp evaluates
  obtain ⟨stale, current⟩ := Prod.mk.inj reads
  refine ⟨placed, accepted, ?_⟩
  rintro ⟨g, known, terms⟩
  cases current.symm.trans known
  exact absurd (stale.symm.trans terms.groupId) (by decide)

/-- With a token of the user's group the order has the terms of that group, and
still does when it is sent again. -/
theorem termsOf_currentToken : ∃ placed,
    sampleTables.placeOrder 1 (some "b") sampleForm sampleReads = some placed ∧
    ∃ g, sampleTables.groupOf 1 = some g ∧
      sampleTables.TermsOf g sampleForm sampleReads placed placed.command ∧
      ∀ state ∈ [(⟨sampleTables, true, true, true⟩ : SyncReads)],
        ∀ c ∈ placed.row.resync state, sampleTables.TermsOf g sampleForm sampleReads placed c := by
  have evaluates : (sampleTables.placeOrder 1 (some "b") sampleForm sampleReads).map
      (fun placed => placed.command.groupId) = some (some "b") := by decide +kernel
  obtain ⟨placed, accepted, _⟩ := Option.map_eq_some_iff.mp evaluates
  refine ⟨placed, accepted, (termsOf_iff accepted _).mpr ?_⟩
  have named : sampleTables.symbolNamed "EURUSD" = some (5, ⟨"EURUSD", none, true, false, true⟩) := by
    decide +kernel
  have like : sampleTables.symbolLike "EURUSD" = some (5, ⟨"EURUSD", none, true, false, true⟩) := by
    decide +kernel
  have grouped : sampleTables.groupOf 1 = some "b" := by decide +kernel
  refine ⟨.inr grouped.symm, fun s found g known settings row => ?_,
    fun s found g known other other' => ?_, fun state member => ?_⟩
  · cases named.symm.trans found
    cases row
  · cases named.symm.trans found
    cases like.symm.trans other'
    rfl
  · obtain rfl := List.mem_singleton.mp member
    refine ⟨rfl, rfl, fun s found g known => ?_, fun price given => ?_⟩
    · cases named.symm.trans found
      cases grouped.symm.trans known
      have tiers : SyncReads.leverageTiers ⟨sampleTables, true, true, true⟩ 1 "EURUSD" =
          (sampleTables.groupProfile "b" 5).map sampleTables.tiers := by decide +kernel
      exact tiers
    · have snapshot : getPrice sampleReads.snapshotPrices "EURUSD" (sampleTables.groupOf 1) =
          some (3, 4) := by decide +kernel
      cases snapshot.symm.trans given
      exact ⟨⟨3 * 10 ^ 8, by norm_num⟩, ⟨4 * 10 ^ 8, by norm_num⟩⟩

end TradingTables

end TradingPlatform
