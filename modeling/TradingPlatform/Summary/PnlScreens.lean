import TradingPlatform.Summary.MarkedClose

namespace TradingPlatform

/-- What the three screens read besides the position. -/
structure PnlScreens where
  rates : Rates
  symbols : FiniteTable SymbolId SymbolRow
  prices : String → Option (ℚ × ℚ)
  /-- `v.parse::<f64>().is_ok()`, for a text of a position hash -/
  isNumber : String → Bool

namespace PnlScreens
variable (s : PnlScreens)

/-- The input of an account summary computed from these prices. -/
def input : SummaryInput where
  mode := .hedged
  rates := s.rates
  symbols := s.symbols
  store := .empty
  ids := []
  prices := s.prices
  rows := []

def getPriceFromRedis (symbol : Symbol) (groupId : GroupId) : Option (ℚ × ℚ) :=
  s.input.getPriceFromRedis symbol groupId

/-- A hash field after `hash_to_position_json`, read back with `as_str`. -/
def textField (v : String) : String := if s.isNumber v ∨ v = "null" then "" else v

/-- `enrich_open_position_unrealized_pnl`: the PnL that the user's list shows. -/
def enrichOpenPositionUnrealizedPnl (h : PositionHash) : ℚ :=
  let symbol := s.textField (h.symbol.getD "")
  let groupId := s.textField (h.groupId.getD "")
  let size := h.size.getD 0
  let avgPrice := (h.avgPrice.orElse fun _ => h.entryPrice).getD 0
  let stored := h.unrealizedPnl.getD 0
  if h.status ≠ some .OPEN ∨ symbol = "" ∨ size ≤ 0 ∨ avgPrice ≤ 0 then stored
  else
    match s.getPriceFromRedis symbol groupId with
    | none => stored
    | some (bid, ask) =>
      match h.side with
      | some .LONG => (bid - avgPrice) * size
      | some .SHORT => (avgPrice - ask) * size
      | none => 0

/-- The PnL in the admin's list, at the mid price of the group that the
owner's row names. -/
def adminPositionPnl (ownerGroup : Option GroupId) (h : PositionHash) : ℚ :=
  let size := h.size.getD 0
  let entry := h.entryPrice.getD 0
  match s.getPriceFromRedis (h.symbol.getD "—") (ownerGroup.getD "—") with
  | none => h.unrealizedPnl.getD 0
  | some (bid, ask) =>
    let mark := (bid + ask) / 2
    match h.side.getD .LONG with
    | .LONG => (mark - entry) * size
    | .SHORT => (entry - mark) * size

end PnlScreens

/-- An open position. The hash has `''` for an absent group. -/
structure OpenPosition where
  symbol : Symbol
  side : PositionSide
  size : ℚ
  entryPrice : ℚ
  groupId : Option GroupId
  storedPnl : ℚ

namespace OpenPosition
variable (pos : OpenPosition)

/-- The fields of the position's hash that the screens read. -/
def hash : PositionHash where
  symbol := some pos.symbol
  groupId := some (pos.groupId.getD "")
  side := some pos.side
  size := some pos.size
  entryPrice := some pos.entryPrice
  avgPrice := some pos.entryPrice
  unrealizedPnl := some pos.storedPnl
  status := some .OPEN

/-- The PnL at an exit price, and the stored one where a screen has no price. -/
def pnlAt (price : ℚ) : ℚ := Fill.pnlClose (some pos.side) pos.entryPrice price pos.size

def shown (mark : Option ℚ) : ℚ := (mark.map pos.pnlAt).getD pos.storedPnl

/-- Two prices, or the lack of one, at which the position shows the same PnL. -/
def SameMark : Option ℚ → Option ℚ → Prop
  | some x, some y => pos.size = 0 ∨ x = y
  | some x, none => pos.pnlAt x = pos.storedPnl
  | none, some y => pos.pnlAt y = pos.storedPnl
  | none, none => True

instance (x y : Option ℚ) : Decidable (pos.SameMark x y) := by
  unfold SameMark
  split <;> infer_instance

variable {pos}

theorem pnlAt_inj {x y : ℚ} : pos.pnlAt x = pos.pnlAt y ↔ pos.size = 0 ∨ x = y := by
  unfold pnlAt Fill.pnlClose
  split_ifs
  · rw [mul_eq_mul_right_iff, sub_left_inj, or_comm]
  · rw [mul_eq_mul_right_iff, sub_right_inj, or_comm]

theorem shown_inj {x y : Option ℚ} : pos.shown x = pos.shown y ↔ pos.SameMark x y := by
  unfold shown SameMark
  cases x <;> cases y <;> simp [pnlAt_inj, eq_comm]

end OpenPosition

namespace PnlScreens
variable (s : PnlScreens) (pos : OpenPosition)

/-- The side of the quote of the position's own group. -/
def groupMark : Option ℚ :=
  (s.getPriceFromRedis pos.symbol (pos.groupId.getD "")).map pos.side.exitPrice

/-- The price of the user's list, which skips what is no usual position. -/
def userMark : Option ℚ :=
  let symbol := s.textField pos.symbol
  if symbol = "" ∨ pos.size ≤ 0 ∨ pos.entryPrice ≤ 0 then none
  else (s.getPriceFromRedis symbol (s.textField (pos.groupId.getD ""))).map pos.side.exitPrice

/-- The mid price of the owner's group. -/
def adminMark (ownerGroup : Option GroupId) : Option ℚ :=
  (s.getPriceFromRedis pos.symbol (ownerGroup.getD "—")).map fun price => (price.1 + price.2) / 2

theorem enrichOpenPositionUnrealizedPnl_eq :
    s.enrichOpenPositionUnrealizedPnl pos.hash = pos.shown (s.userMark pos) := by
  unfold enrichOpenPositionUnrealizedPnl userMark
  simp only [OpenPosition.hash, Option.getD_some, Option.orElse_some, ne_eq, not_true_eq_false,
    false_or]
  split_ifs
  · rfl
  · cases s.getPriceFromRedis (s.textField pos.symbol) (s.textField (pos.groupId.getD "")) with
    | none => rfl
    | some price => cases side : pos.side <;> simp [OpenPosition.shown, OpenPosition.pnlAt,
        Fill.pnlClose, side, PositionSide.exitPrice]

theorem adminPositionPnl_eq (ownerGroup : Option GroupId) :
    s.adminPositionPnl ownerGroup pos.hash = pos.shown (s.adminMark pos ownerGroup) := by
  unfold adminPositionPnl adminMark
  simp only [OpenPosition.hash, Option.getD_some]
  cases s.getPriceFromRedis pos.symbol (ownerGroup.getD "—") with
  | none => rfl
  | some price => cases side : pos.side <;> simp [OpenPosition.shown, OpenPosition.pnlAt,
      Fill.pnlClose, side]

theorem unrealizedQuote_eq :
    (s.input.unrealizedQuote pos.hash).1 = pos.shown (s.groupMark pos) := by
  have marks : s.input.markPrice pos.hash =
      s.getPriceFromRedis pos.symbol (pos.groupId.getD "") := rfl
  unfold groupMark
  cases found : s.getPriceFromRedis pos.symbol (pos.groupId.getD "") with
  | some price => exact SummaryInput.unrealizedQuote_of_mark (marks.trans found) rfl
  | none =>
    unfold SummaryInput.unrealizedQuote
    have missing : s.input.getPriceFromRedis pos.symbol (pos.groupId.getD "") = none := found
    simp only [OpenPosition.hash, Option.getD_some, input] at missing ⊢
    simp only [missing]
    rfl

/-- What the summary counts for an open position with a supported currency. -/
theorem hashUnrealizedUsd_eq {quote : String}
    (quoted : s.input.symbolMap (normalizeSymbol pos.symbol) = some quote)
    (supported : quoteCurrencySupported s.rates quote) : s.input.hashUnrealizedUsd pos.hash =
      pos.shown (s.groupMark pos) * usdFactor s.rates quote := by
  have known : s.input.symbolMap (normalizeSymbol (pos.hash.symbol.getD "")) = some quote := quoted
  have both : quoteCurrencySupported s.input.rates quote ∧ pos.hash.status = some .OPEN :=
    ⟨supported, rfl⟩
  unfold SummaryInput.hashUnrealizedUsd
  rw [known]
  dsimp only
  rw [if_pos both, unrealizedQuote_eq]
  rfl

/-- The summary of any input without price overrides counts the same. -/
theorem hashUnrealizedUsd_input (inp : SummaryInput) (isNumber : String → Bool)
    (noOverrides : inp.priceOverrides = none) (h : PositionHash) :
    inp.hashUnrealizedUsd h =
      (PnlScreens.mk inp.rates inp.symbols inp.prices isNumber).input.hashUnrealizedUsd h := by
  unfold SummaryInput.hashUnrealizedUsd SummaryInput.unrealizedQuote
  rw [noOverrides]
  rfl

/-- Wherever USD can express the position's currency, the three screens show
one amount of USD, which is the PnL at the quote of the position's group. -/
def SameOnEveryScreen (ownerGroup : Option GroupId) : Prop :=
  ∀ quote, s.input.symbolMap (normalizeSymbol pos.symbol) = some quote →
    quoteCurrencySupported s.rates quote →
    ∃ usd, s.input.hashUnrealizedUsd pos.hash = usd ∧
      convertWithRates (s.enrichOpenPositionUnrealizedPnl pos.hash) quote "USD" s.rates = .ok usd ∧
      convertWithRates (s.adminPositionPnl ownerGroup pos.hash) quote "USD" s.rates = .ok usd ∧
      ∀ price ∈ s.getPriceFromRedis pos.symbol (pos.groupId.getD ""),
        convertWithRates (pos.pnlAt (pos.side.exitPrice price)) quote "USD" s.rates = .ok usd

variable {s pos} {ownerGroup : Option GroupId}

theorem sameOnEveryScreen_iff : s.SameOnEveryScreen pos ownerGroup ↔
    ∀ quote, s.input.symbolMap (normalizeSymbol pos.symbol) = some quote →
      quoteCurrencySupported s.rates quote → usdFactor s.rates quote = 0 ∨
        pos.SameMark (s.userMark pos) (s.groupMark pos) ∧
        pos.SameMark (s.adminMark pos ownerGroup) (s.groupMark pos) := by
  unfold SameOnEveryScreen
  refine forall₃_congr fun quote quoted supported => ?_
  rw [enrichOpenPositionUnrealizedPnl_eq, adminPositionPnl_eq, hashUnrealizedUsd_eq s pos quoted
    supported, ← OpenPosition.shown_inj, ← OpenPosition.shown_inj]
  simp only [convertWithRates_usd supported, Except.ok.injEq]
  constructor
  · rintro ⟨usd, summary, user, admin, -⟩
    by_cases worthless : usdFactor s.rates quote = 0
    · exact .inl worthless
    · rw [← summary] at user admin
      exact .inr ⟨mul_right_cancel₀ worthless user, mul_right_cancel₀ worthless admin⟩
  · intro same
    refine ⟨_, rfl, ?_, ?_, ?_⟩
    · rcases same with worthless | ⟨user, -⟩
      · rw [worthless, mul_zero, mul_zero]
      · rw [user]
    · rcases same with worthless | ⟨-, admin⟩
      · rw [worthless, mul_zero, mul_zero]
      · rw [admin]
    · intro price found
      have marked : s.groupMark pos = some (pos.side.exitPrice price) := by
        rw [groupMark, Option.mem_def.mp found, Option.map_some]
      rw [marked]
      rfl

/-- A quote for the group `g1` of an index that is priced in euros. -/
def indexScreens (bid ask : ℚ) : PnlScreens where
  rates := fun code => if code = "USD" then some 1 else if code = "EUR" then some (9 / 10) else none
  symbols := (∅ : FiniteTable SymbolId SymbolRow).insert 1 ⟨"GER40", "EUR"⟩
  prices := fun key => if key = "prices:GER40:g1" then some (bid, ask) else none
  isNumber := fun _ => false

def indexPosition : OpenPosition where
  symbol := "GER40"
  side := .LONG
  size := 1
  entryPrice := 90
  groupId := some "g1"
  storedPnl := 0

/-- Bid 100 and ask 102: the user sees a profit of 10, the admin one of 11. -/
theorem not_sameOnEveryScreen_spread :
    ¬ (indexScreens 100 102).SameOnEveryScreen indexPosition (some "g1") := by
  intro same
  have quoted : (indexScreens 100 102).input.symbolMap (normalizeSymbol indexPosition.symbol) =
    some "EUR" := by decide +kernel
  have supported : quoteCurrencySupported (indexScreens 100 102).rates "EUR" := by decide +kernel
  obtain ⟨usd, -, user, admin, -⟩ := same "EUR" quoted supported
  have userUsd : convertWithRates ((indexScreens 100 102).enrichOpenPositionUnrealizedPnl
    indexPosition.hash) "EUR" "USD" (indexScreens 100 102).rates = .ok (100 / 9) := by
    decide +kernel
  have adminUsd : convertWithRates ((indexScreens 100 102).adminPositionPnl (some "g1")
    indexPosition.hash) "EUR" "USD" (indexScreens 100 102).rates = .ok (110 / 9) := by
    decide +kernel
  have tenIsEleven : (100 / 9 : ℚ) = 110 / 9 :=
    Except.ok.inj (userUsd.symm.trans (user.trans (admin.symm.trans adminUsd)))
  norm_num at tenIsEleven

end PnlScreens

end TradingPlatform
