import TradingPlatform.Auth.RequestTexts
import TradingPlatform.Pricing.PlainSymbols
import Mathlib.Algebra.Order.Ring.Nat
import Mathlib.Algebra.Order.BigOperators.Group.List

namespace TradingPlatform.FeedRouting
open RequestTexts (isWhiteSpace trimText nonblank eqIgnoreAsciiCase)

/-- Which upstream implementation handles a symbol. -/
inductive FeedKind
  | binance
  | mmdps
  deriving DecidableEq, Repr

/-- The length of a text, of whose characters each takes some units: bytes in
Rust, UTF-16 code units in the browser. -/
def length (units : Char → ℕ) (s : String) : ℕ := (s.toList.map units).sum

def utf16Size (c : Char) : ℕ := if c.toNat < 0x10000 then 1 else 2

def endsWithOneOf (units : Char → ℕ) (quotes : List String) (symbol : String) : Bool :=
  quotes.any fun q => length units q < length units symbol && q.toList.isSuffixOf symbol.toList

/-- The pairs that a symbol of six letters may be. -/
def fiatOrMetalPair (fiat metals : List String) (symbol : String) : Bool :=
  let a := String.ofList (symbol.toList.take 3)
  let b := String.ofList ((symbol.toList.drop 3).take 3)
  if fiat.contains a && fiat.contains b then true
  else if metals.contains a && fiat.contains b then true
  else false

namespace Server

def fiat3 : List String :=
  ["USD", "EUR", "GBP", "JPY", "AUD", "NZD", "CAD", "CHF", "SEK", "NOK", "DKK", "MXN", "ZAR",
    "TRY", "PLN", "HUF", "CZK", "ILS", "CNY", "CNH", "HKD", "SGD", "RON", "RUB", "INR", "IDR",
    "THB", "PHP", "KRW", "SAR", "AED", "COP", "BRL", "ARS", "CLP", "PEN", "BGN", "HRK", "ISK",
    "MAD", "TWD", "MYR", "VND", "BHD", "JOD", "KWD", "OMR", "QAR", "EGP", "NGN", "GHS", "KES",
    "UGX", "TZS", "ZMW"]

def metal3 : List String := ["XAU", "XAG", "XPT", "XPD"]

def stableQuoteSuffixes : List String := ["USDT", "USDC", "BUSD", "FDUSD", "TUSD", "USDD", "DAI"]

def cryptoQuoteSuffixes : List String :=
  ["EUR", "TRY", "BRL", "BTC", "ETH", "BNB", "AUD", "GBP", "RUB", "ZAR", "MXN", "ARS", "PLN",
    "RON", "UAH", "NGN"]

def isLikelyClassicFxOrMetal6 (symbolUpper : String) : Bool :=
  if length Char.utf8Size symbolUpper ≠ 6 then false
  else if !symbolUpper.toList.all Char.isAlpha then false
  else fiatOrMetalPair fiat3 metal3 symbolUpper

def isBinanceSpotStyle (symbolUpper : String) : Bool :=
  if isLikelyClassicFxOrMetal6 symbolUpper then false
  else if endsWithOneOf Char.utf8Size stableQuoteSuffixes symbolUpper then true
  else endsWithOneOf Char.utf8Size cryptoQuoteSuffixes symbolUpper

end Server

namespace Chart

def fiat3 : List String :=
  ["USD", "EUR", "GBP", "JPY", "AUD", "NZD", "CAD", "CHF", "SEK", "NOK", "DKK", "MXN", "ZAR",
    "TRY", "PLN", "HUF", "CZK", "ILS", "CNY", "CNH", "HKD", "SGD", "RON", "RUB", "INR", "IDR",
    "THB", "PHP", "KRW", "SAR", "AED", "COP", "BRL", "ARS", "CLP", "PEN", "BGN", "HRK", "ISK",
    "MAD", "TWD", "MYR", "VND", "BHD", "JOD", "KWD", "OMR", "QAR", "EGP", "NGN", "GHS", "KES",
    "UGX", "TZS", "ZMW"]

def metal3 : List String := ["XAU", "XAG", "XPT", "XPD"]

def stableQuotes : List String := ["USDT", "USDC", "BUSD", "FDUSD", "TUSD", "USDD", "DAI"]

def cryptoQuotes : List String :=
  ["EUR", "TRY", "BRL", "BTC", "ETH", "BNB", "AUD", "GBP", "RUB", "ZAR", "MXN", "ARS", "PLN",
    "RON", "UAH", "NGN"]

/-- `/^[A-Z]{6}$/` -/
def sixCapitals (key : String) : Bool := key.toList.length = 6 && key.toList.all Char.isUpper

def isLikelyClassicFxOrMetal6 (key : String) : Bool :=
  if length utf16Size key ≠ 6 || !sixCapitals key then false
  else fiatOrMetalPair fiat3 metal3 key

def isBinanceSpotStyleSymbol (key : String) : Bool :=
  if isLikelyClassicFxOrMetal6 key then false
  else if endsWithOneOf utf16Size stableQuotes key then true
  else endsWithOneOf utf16Size cryptoQuotes key

end Chart

section Classifiers
variable {units : Char → ℕ} {symbol : String}

/-- A text that ends with another one is longer in every measure, or the same. -/
theorem length_lt_iff (counts : ∀ c, 0 < units c) {q : String}
    (ends : q.toList <:+ symbol.toList) : length units q < length units symbol ↔ q ≠ symbol := by
  obtain ⟨before, joined⟩ := ends
  have split : length units symbol = (before.map units).sum + length units q := by
    rw [length, ← joined, List.map_append, List.sum_append, length]
  rw [split]
  cases before with
  | nil =>
    have same : q = symbol := String.toList_inj.mp joined
    simp [same]
  | cons c before =>
    have some : 0 < ((c :: before).map units).sum := by
      have := counts c
      rw [List.map_cons, List.sum_cons]
      omega
    have other : q ≠ symbol := by
      rintro rfl
      have sizes := congrArg List.length joined
      rw [List.length_append, List.length_cons] at sizes
      omega
    simp only [other, ne_eq, not_false_iff, iff_true]
    omega

theorem endsWithOneOf_iff (counts : ∀ c, 0 < units c) {quotes : List String} :
    endsWithOneOf units quotes symbol = true ↔
      ∃ q ∈ quotes, q ≠ symbol ∧ q.toList <:+ symbol.toList := by
  unfold endsWithOneOf
  simp only [List.any_eq_true, Bool.and_eq_true, decide_eq_true_eq, List.isSuffixOf_iff_suffix]
  refine exists_congr fun q => and_congr_right fun _ => ?_
  constructor
  · rintro ⟨shorter, ends⟩
    exact ⟨(length_lt_iff counts ends).mp shorter, ends⟩
  · rintro ⟨other, ends⟩
    exact ⟨(length_lt_iff counts ends).mpr other, ends⟩

theorem utf8Size_pos (c : Char) : 0 < c.utf8Size := Char.utf8Size_pos c

theorem utf16Size_pos (c : Char) : 0 < utf16Size c := by
  unfold utf16Size
  split <;> omega

theorem toNat_of_isAlpha {c : Char} (letter : c.isAlpha) : c.toNat < 128 := by
  simp only [Char.isAlpha, Char.isUpper, Char.isLower, Bool.or_eq_true, Bool.and_eq_true,
    decide_eq_true_eq, UInt32.le_iff_toNat_le] at letter
  have value : c.toNat = c.val.toNat := rfl
  have z : 'z'.val.toNat = 122 := rfl
  have Z : 'Z'.val.toNat = 90 := rfl
  omega

theorem utf8Size_of_isAlpha {c : Char} (letter : c.isAlpha) : c.utf8Size = 1 := by
  have small := toNat_of_isAlpha letter
  have value : c.toNat = c.val.toNat := rfl
  rw [Char.utf8Size_eq_one_iff, UInt32.le_iff_toNat_le]
  have bound : (0x7f : UInt32).toNat = 127 := rfl
  omega

theorem utf16Size_of_isAlpha {c : Char} (letter : c.isAlpha) : utf16Size c = 1 := by
  have small := toNat_of_isAlpha letter
  exact if_pos (by omega)

theorem length_of_isAlpha (one : ∀ c : Char, c.isAlpha → units c = 1)
    (letters : ∀ c ∈ symbol.toList, c.isAlpha) :
    length units symbol = symbol.toList.length := by
  have same : symbol.toList.map units = symbol.toList.map fun _ => 1 :=
    List.map_congr_left fun c member => one c (letters c member)
  rw [length, same]
  simp

/-- The codes that a pair is made of consist of capitals. -/
theorem capitals_of_pair (six : symbol.toList.length = 6)
    (pair : fiatOrMetalPair Server.fiat3 Server.metal3 symbol = true) :
    symbol.toList.all Char.isUpper = true := by
  have fiat : ∀ q ∈ Server.fiat3, q.toList.all Char.isUpper = true := by decide
  have metal : ∀ q ∈ Server.metal3, q.toList.all Char.isUpper = true := by decide
  have halves : ∀ {p q : List String}, (∀ s ∈ p, s.toList.all Char.isUpper = true) →
      (∀ s ∈ q, s.toList.all Char.isUpper = true) →
      p.contains (String.ofList (symbol.toList.take 3)) = true →
      q.contains (String.ofList ((symbol.toList.drop 3).take 3)) = true →
      symbol.toList.all Char.isUpper = true := by
    intro p q first second inP inQ
    have a := first _ (List.contains_iff_mem.mp inP)
    have b := second _ (List.contains_iff_mem.mp inQ)
    rw [String.toList_ofList] at a b
    have rest : (symbol.toList.drop 3).take 3 = symbol.toList.drop 3 :=
      List.take_of_length_le (by rw [List.length_drop]; omega)
    rw [rest] at b
    rw [← List.take_append_drop 3 symbol.toList, List.all_append, a, b, Bool.and_true]
  unfold fiatOrMetalPair at pair
  dsimp only at pair
  split at pair
  · rename_i both
    rw [Bool.and_eq_true] at both
    exact halves fiat fiat both.1 both.2
  · split at pair
    · rename_i both
      rw [Bool.and_eq_true] at both
      exact halves metal fiat both.1 both.2
    · cases pair

theorem isLikelyClassicFxOrMetal6_iff : Server.isLikelyClassicFxOrMetal6 symbol = true ↔
    symbol.toList.length = 6 ∧ symbol.toList.all Char.isUpper = true ∧
      fiatOrMetalPair Server.fiat3 Server.metal3 symbol = true := by
  have alpha : ∀ c : Char, c.isUpper = true → c.isAlpha = true := fun c upper => by
    rw [Char.isAlpha, upper, Bool.true_or]
  unfold Server.isLikelyClassicFxOrMetal6
  constructor
  · intro classic
    split_ifs at classic with size letters
    rw [not_not] at size
    simp only [Bool.not_eq_true', Bool.not_eq_false, List.all_eq_true] at letters
    have six : symbol.toList.length = 6 := by
      rw [← size, length_of_isAlpha (fun _ => utf8Size_of_isAlpha) letters]
    exact ⟨six, capitals_of_pair six classic, classic⟩
  · rintro ⟨six, capitals, pair⟩
    rw [List.all_eq_true] at capitals
    have letters : ∀ c ∈ symbol.toList, c.isAlpha = true := fun c member => alpha c (capitals c member)
    have size : length Char.utf8Size symbol = 6 := by
      rw [length_of_isAlpha (fun _ => utf8Size_of_isAlpha) letters, six]
    have all : symbol.toList.all Char.isAlpha = true := List.all_eq_true.mpr letters
    simp [size, all, pair]

theorem isLikelyClassicFxOrMetal6_chart : Chart.isLikelyClassicFxOrMetal6 symbol =
    Server.isLikelyClassicFxOrMetal6 symbol := by
  have alpha : ∀ c : Char, c.isUpper = true → c.isAlpha = true := fun c upper => by
    rw [Char.isAlpha, upper, Bool.true_or]
  rw [Bool.eq_iff_iff, isLikelyClassicFxOrMetal6_iff]
  unfold Chart.isLikelyClassicFxOrMetal6 Chart.sixCapitals
  constructor
  · intro classic
    split_ifs at classic with checked
    simp only [Bool.or_eq_true, Bool.not_eq_true', not_or, Bool.not_eq_false, Bool.and_eq_true,
      decide_eq_true_eq] at checked
    exact ⟨checked.2.1, checked.2.2, classic⟩
  · rintro ⟨six, capitals, pair⟩
    have letters : ∀ c ∈ symbol.toList, c.isAlpha = true := fun c member =>
      alpha c (List.all_eq_true.mp capitals c member)
    have size : length utf16Size symbol = 6 := by
      rw [length_of_isAlpha (fun _ => utf16Size_of_isAlpha) letters, six]
    have same : fiatOrMetalPair Chart.fiat3 Chart.metal3 symbol = true := pair
    simp [size, six, capitals, same]

/-- The two classifiers are in sync: they measure and match in different ways
and say the same of every text. -/
theorem isBinanceSpotStyle_chart (symbol : String) :
    Chart.isBinanceSpotStyleSymbol symbol = Server.isBinanceSpotStyle symbol := by
  have suffixes : ∀ quotes : List String, endsWithOneOf utf16Size quotes symbol =
      endsWithOneOf Char.utf8Size quotes symbol := fun quotes => by
    rw [Bool.eq_iff_iff, endsWithOneOf_iff utf16Size_pos, endsWithOneOf_iff Char.utf8Size_pos]
  unfold Chart.isBinanceSpotStyleSymbol Server.isBinanceSpotStyle
  rw [isLikelyClassicFxOrMetal6_chart, suffixes, suffixes]
  rfl

end Classifiers

section Settings
variable (upper : String → String)

/-- The environment variables of the data provider that choose feeds. -/
structure DataProviderEnv where
  mmdpsApiKey : Option String
  mmdpsSymbols : Option String
  mmdpsAutoRoute : Option String

structure Config where
  mmdpsApiKey : Option String
  mmdpsAutoRoute : Bool
  mmdpsSymbols : List String

/-- The symbols that a text separated by commas names. -/
def namedSymbols (trim : String → String) (text : String) : List String :=
  ((text.toList.splitOn ',').map fun part => upper (trim (String.ofList part))).filter (· ≠ "")

def DataProviderEnv.autoRoute (env : DataProviderEnv) : Bool :=
  match env.mmdpsAutoRoute with
  | some v => !(v == "0" || eqIgnoreAsciiCase v "false")
  | none => true

def Config.fromEnv (env : DataProviderEnv) : Config :=
  let mmdpsApiKey := nonblank env.mmdpsApiKey
  let mmdpsSymbolsFromEnv := namedSymbols upper trimText (env.mmdpsSymbols.getD "")
  -- Auto-routing requires an API key.
  let mmdpsAutoRoute := mmdpsApiKey.isSome && env.autoRoute
  { mmdpsApiKey
    mmdpsAutoRoute
    mmdpsSymbols :=
      if mmdpsApiKey.isSome && !mmdpsAutoRoute && mmdpsSymbolsFromEnv.isEmpty then
        ["EURUSD", "GBPUSD"]
      else mmdpsSymbolsFromEnv }

def Config.applyMmdpsApiKeyFromAdminRedis (config : Config) (env : DataProviderEnv) (key : String) :
    Config :=
  let t := trimText key
  if t = "" then config
  else { config with
    mmdpsApiKey := some t
    mmdpsAutoRoute := env.autoRoute }

/-- What `main` starts with: the environment, then the key of the admin
settings when Redis holds one. -/
def Config.load (env : DataProviderEnv) (adminKey : Option String) : Config :=
  match adminKey with
  | some key => (Config.fromEnv upper env).applyMmdpsApiKeyFromAdminRedis env key
  | none => Config.fromEnv upper env

structure FeedRouter where
  mmdps : Bool
  mmdpsAutoRoute : Bool
  mmdpsSymbols : List String

/-- There is an MMDPS feed when there is a key. -/
def FeedRouter.new (config : Config) : FeedRouter where
  mmdps := config.mmdpsApiKey.isSome
  mmdpsAutoRoute := config.mmdpsAutoRoute
  mmdpsSymbols := config.mmdpsSymbols.map upper

def resolveFeed (symbolUpper : String) (mmdpsFeedActive mmdpsAutoRoute : Bool)
    (mmdpsExplicitSymbols : List String) : FeedKind :=
  if !mmdpsFeedActive then .binance
  else if mmdpsAutoRoute then
    if Server.isBinanceSpotStyle symbolUpper then .binance else .mmdps
  else if mmdpsExplicitSymbols.contains symbolUpper then .mmdps
  else .binance

/-- The feed that `get_price` reads and `subscribe_symbol` asks. -/
def FeedRouter.feedOf (router : FeedRouter) (symbol : String) : FeedKind :=
  resolveFeed (upper symbol) router.mmdps router.mmdpsAutoRoute router.mmdpsSymbols

/-- `VITE_MMDPS_SYMBOLS`, and what `getDataProviderPricesBaseUrl` gives. -/
structure ChartEnv where
  mmdpsSymbols : Option String
  pricesBaseUrl : String

/-- `String.prototype.trim` takes the byte order mark for a space, and U+0085
for none. -/
def trimJs (s : String) : String :=
  let blank (c : Char) : Bool := (isWhiteSpace c && c.toNat ≠ 0x85) || c.toNat = 0xFEFF
  String.ofList (((s.toList.dropWhile blank).reverse.dropWhile blank).reverse)

def normalizeChartSymbolKey (code : String) : String :=
  upper (String.ofList (code.toList.filter (· ≠ '-')))

def isMmdpsChartSymbol (env : ChartEnv) (feedSymbol : String) : Bool :=
  let key := normalizeChartSymbolKey upper feedSymbol
  if env.mmdpsSymbols = some "" then false
  else match env.mmdpsSymbols.filter (trimJs · ≠ "") with
    | some explicit => (namedSymbols upper trimJs explicit).contains key
    | none => if env.pricesBaseUrl = "" then false else !Chart.isBinanceSpotStyleSymbol key

end Settings

/-- What the proofs need of `str::to_uppercase` and `toUpperCase`, which map
letters alike. -/
structure Letters (upper : String → String) : Prop where
  twice : ∀ s, upper (upper s) = upper s
  capitals : ∀ s : String, s.toList.all Char.isUpper = true → upper s = s

section Rules
variable {upper : String → String} {env : DataProviderEnv} {adminKey : Option String}
  {chart : ChartEnv} {symbol : String}

/-- The key of the environment or of the admin settings. -/
def DataProviderEnv.Keyed (env : DataProviderEnv) (adminKey : Option String) : Prop :=
  (nonblank env.mmdpsApiKey).isSome ∨ (nonblank adminKey).isSome

/-- The symbols that `MMDPS_SYMBOLS` gives to MMDPS. Where it names none, a key
of the environment stands for two of them, a key of the admin settings for
none. -/
def DataProviderEnv.symbols (upper : String → String) (env : DataProviderEnv) : List String :=
  let named := namedSymbols upper trimText (env.mmdpsSymbols.getD "")
  if (nonblank env.mmdpsApiKey).isSome && named.isEmpty then ["EURUSD", "GBPUSD"] else named

/-- The charts follow the names of the symbols. -/
def ChartEnv.Auto (chart : ChartEnv) : Prop :=
  chart.pricesBaseUrl ≠ "" ∧ chart.mmdpsSymbols ≠ some "" ∧
    chart.mmdpsSymbols.filter (trimJs · ≠ "") = none

/-- The symbols that `VITE_MMDPS_SYMBOLS` gives to MMDPS. -/
def ChartEnv.symbols (upper : String → String) (chart : ChartEnv) : List String :=
  ((chart.mmdpsSymbols.filter (trimJs · ≠ "")).map (namedSymbols upper trimJs)).getD []

theorem nonblank_some (key : String) : nonblank (some key) =
    if trimText key = "" then none else some (trimText key) := by
  unfold nonblank
  by_cases blank : trimText key = "" <;> simp [blank]

theorem load_mmdpsApiKey : (Config.load upper env adminKey).mmdpsApiKey.isSome = true ↔
    env.Keyed adminKey := by
  unfold Config.load DataProviderEnv.Keyed
  cases adminKey with
  | none => simp [Config.fromEnv, nonblank]
  | some key =>
    rw [nonblank_some]
    unfold Config.applyMmdpsApiKeyFromAdminRedis
    by_cases blank : trimText key = "" <;> simp [blank, Config.fromEnv]

theorem load_mmdpsAutoRoute (keyed : env.Keyed adminKey) :
    (Config.load upper env adminKey).mmdpsAutoRoute = env.autoRoute := by
  unfold DataProviderEnv.Keyed at keyed
  unfold Config.load
  cases adminKey with
  | none =>
    have given : (nonblank env.mmdpsApiKey).isSome = true := by simpa [nonblank] using keyed
    simp [Config.fromEnv, given]
  | some key =>
    rw [nonblank_some] at keyed
    unfold Config.applyMmdpsApiKeyFromAdminRedis
    by_cases blank : trimText key = ""
    · have given : (nonblank env.mmdpsApiKey).isSome = true := by simpa [blank] using keyed
      simp [blank, Config.fromEnv, given]
    · simp [blank]

theorem load_mmdpsSymbols (listed : env.autoRoute = false) :
    (Config.load upper env adminKey).mmdpsSymbols = env.symbols upper := by
  have fromEnv : (Config.fromEnv upper env).mmdpsSymbols = env.symbols upper := by
    simp [Config.fromEnv, DataProviderEnv.symbols, listed]
  unfold Config.load
  cases adminKey with
  | none => exact fromEnv
  | some key =>
    dsimp only
    unfold Config.applyMmdpsApiKeyFromAdminRedis
    dsimp only
    split_ifs <;> exact fromEnv

theorem upper_mem_symbols (letters : Letters upper) {s : String} (member : s ∈ env.symbols upper) :
    upper s = s := by
  unfold DataProviderEnv.symbols at member
  dsimp only at member
  split_ifs at member
  · have names : ∀ s ∈ ["EURUSD", "GBPUSD"], s.toList.all Char.isUpper = true := by decide
    exact letters.capitals s (names s member)
  · unfold namedSymbols at member
    obtain ⟨part, -, rfl⟩ := List.mem_map.mp (List.mem_filter.mp member).1
    exact letters.twice _

/-- Which symbols the data provider takes from MMDPS. -/
theorem feedOf_auto (letters : Letters upper) (auto : env.Keyed adminKey ∧ env.autoRoute = true)
    (code : String) :
    (FeedRouter.new upper (Config.load upper env adminKey)).feedOf upper
        (normalizeChartSymbolKey upper code) = .mmdps ↔
      Server.isBinanceSpotStyle (normalizeChartSymbolKey upper code) = false := by
  have large : upper (normalizeChartSymbolKey upper code) = normalizeChartSymbolKey upper code :=
    letters.twice _
  have active : (Config.load upper env adminKey).mmdpsApiKey.isSome = true :=
    load_mmdpsApiKey.mpr auto.1
  have route : (Config.load upper env adminKey).mmdpsAutoRoute = true :=
    (load_mmdpsAutoRoute auto.1).trans auto.2
  unfold FeedRouter.feedOf FeedRouter.new resolveFeed
  dsimp only
  rw [large, active, route]
  cases spot : Server.isBinanceSpotStyle (normalizeChartSymbolKey upper code) <;> simp

theorem feedOf_listed (letters : Letters upper)
    (listed : ¬ (env.Keyed adminKey ∧ env.autoRoute = true)) (code : String) :
    (FeedRouter.new upper (Config.load upper env adminKey)).feedOf upper
        (normalizeChartSymbolKey upper code) = .mmdps ↔
      env.Keyed adminKey ∧ normalizeChartSymbolKey upper code ∈ env.symbols upper := by
  have large : upper (normalizeChartSymbolKey upper code) = normalizeChartSymbolKey upper code :=
    letters.twice _
  unfold FeedRouter.feedOf FeedRouter.new resolveFeed
  dsimp only
  rw [large]
  by_cases keyed : env.Keyed adminKey
  · have active : (Config.load upper env adminKey).mmdpsApiKey.isSome = true :=
      load_mmdpsApiKey.mpr keyed
    have off : env.autoRoute = false := by
      rw [← Bool.not_eq_true]
      exact fun route => listed ⟨keyed, route⟩
    have route : (Config.load upper env adminKey).mmdpsAutoRoute = false :=
      (load_mmdpsAutoRoute keyed).trans off
    have same : (env.symbols upper).map upper = env.symbols upper :=
      (List.map_congr_left fun s member => upper_mem_symbols letters member).trans (List.map_id _)
    rw [active, route, load_mmdpsSymbols off, same]
    simp [keyed]
  · have inactive : (Config.load upper env adminKey).mmdpsApiKey.isSome = false := by
      rw [← Bool.not_eq_true]
      exact fun active => keyed (load_mmdpsApiKey.mp active)
    rw [inactive]
    simp [keyed]

/-- Which symbols the charts load from MMDPS. -/
theorem isMmdpsChartSymbol_auto (auto : chart.Auto) (code : String) :
    isMmdpsChartSymbol upper chart code = true ↔
      Server.isBinanceSpotStyle (normalizeChartSymbolKey upper code) = false := by
  obtain ⟨base, forced, unnamed⟩ := auto
  unfold isMmdpsChartSymbol
  dsimp only
  rw [if_neg forced, unnamed]
  dsimp only
  rw [if_neg base, isBinanceSpotStyle_chart, Bool.not_eq_true']

theorem isMmdpsChartSymbol_listed (listed : ¬ chart.Auto) (code : String) :
    isMmdpsChartSymbol upper chart code = true ↔
      normalizeChartSymbolKey upper code ∈ chart.symbols upper := by
  unfold isMmdpsChartSymbol ChartEnv.symbols
  dsimp only
  by_cases forced : chart.mmdpsSymbols = some ""
  · have blank : (some "").filter (trimJs · ≠ "") = none := rfl
    rw [forced, blank]
    simp
  · rw [if_neg forced]
    cases named : chart.mmdpsSymbols.filter (trimJs · ≠ "") with
    | some list => simp
    | none =>
      have base : chart.pricesBaseUrl = "" := by
        by_contra base
        exact listed ⟨base, forced, named⟩
      simp [base]

/-- There are symbols beyond every list that are no spot tickers. -/
theorem exists_unnamed (letters : Letters upper) (names : List String) : ∃ code,
    Server.isBinanceSpotStyle (normalizeChartSymbolKey upper code) = false ∧
      normalizeChartSymbolKey upper code ∉ names := by
  let n := (names.map (·.toList.length)).sum + 1
  let code := String.ofList (List.replicate n 'A')
  have chars : code.toList = List.replicate n 'A' := String.toList_ofList
  have key : normalizeChartSymbolKey upper code = code := by
    have kept : (List.replicate n 'A').filter (· ≠ '-') = List.replicate n 'A' := by
      rw [List.filter_replicate, if_pos (by decide)]
    rw [normalizeChartSymbolKey, chars, kept]
    refine letters.capitals code ?_
    rw [chars, List.all_eq_true]
    intro c member
    rw [List.eq_of_mem_replicate member]
    decide
  refine ⟨code, ?_⟩
  rw [key]
  constructor
  · have others : ∀ q ∈ Server.stableQuoteSuffixes ++ Server.cryptoQuoteSuffixes,
        q.toList.any (· ≠ 'A') = true := by decide
    have ends : ∀ quotes ⊆ Server.stableQuoteSuffixes ++ Server.cryptoQuoteSuffixes,
        endsWithOneOf Char.utf8Size quotes code = false := by
      intro quotes known
      rw [← Bool.not_eq_true, endsWithOneOf_iff Char.utf8Size_pos]
      rintro ⟨q, member, -, suffix⟩
      obtain ⟨c, inQ, other⟩ := List.any_eq_true.mp (others q (known member))
      have inCode := suffix.subset inQ
      rw [chars] at inCode
      exact of_decide_eq_true other (List.eq_of_mem_replicate inCode)
    unfold Server.isBinanceSpotStyle
    rw [ends _ (List.subset_append_left _ _), ends _ (List.subset_append_right _ _)]
    simp
  · intro member
    have bound : code.toList.length ≤ (names.map (·.toList.length)).sum :=
      List.single_le_sum (by simp) _ (List.mem_map_of_mem member)
    rw [chars, List.length_replicate] at bound
    omega

/-- The charts and the data provider take every symbol from the same upstream
exactly when both follow the symbols' names, or both follow lists that agree. -/
theorem charts_follow_feed (letters : Letters upper) :
    (∀ code, isMmdpsChartSymbol upper chart code = true ↔
      (FeedRouter.new upper (Config.load upper env adminKey)).feedOf upper
        (normalizeChartSymbolKey upper code) = .mmdps) ↔
    (chart.Auto ↔ env.Keyed adminKey ∧ env.autoRoute = true) ∧
      (¬ chart.Auto → ∀ code, normalizeChartSymbolKey upper code ∈ chart.symbols upper ↔
        env.Keyed adminKey ∧ normalizeChartSymbolKey upper code ∈ env.symbols upper) := by
  constructor
  · intro agree
    have same : chart.Auto ↔ env.Keyed adminKey ∧ env.autoRoute = true := by
      constructor
      · intro auto
        by_contra listed
        obtain ⟨code, plain, unnamed⟩ := exists_unnamed letters (env.symbols upper)
        have taken := (agree code).mp ((isMmdpsChartSymbol_auto auto code).mpr plain)
        exact unnamed ((feedOf_listed letters listed code).mp taken).2
      · intro auto
        by_contra listed
        obtain ⟨code, plain, unnamed⟩ := exists_unnamed letters (chart.symbols upper)
        have taken := (agree code).mpr ((feedOf_auto letters auto code).mpr plain)
        exact unnamed ((isMmdpsChartSymbol_listed listed code).mp taken)
    refine ⟨same, fun listed code => ?_⟩
    rw [← isMmdpsChartSymbol_listed listed, agree, feedOf_listed letters (mt same.mpr listed)]
  · rintro ⟨same, lists⟩ code
    by_cases auto : chart.Auto
    · rw [isMmdpsChartSymbol_auto auto, feedOf_auto letters (same.mp auto)]
    · rw [isMmdpsChartSymbol_listed auto, feedOf_listed letters (mt same.mpr auto), lists auto]

theorem letters_toUpperCase : Letters toUpperCase where
  twice s := by
    unfold toUpperCase
    rw [String.toList_ofList, map_toUpper_twice]
  capitals s capital := by
    have kept : ∀ c ∈ s.toList, c.toUpper = c := by
      intro c member
      have large := List.all_eq_true.mp capital c member
      simp only [Char.isUpper, decide_eq_true_eq, ge_iff_le, UInt32.le_iff_toNat_le] at large
      unfold Char.toUpper
      refine dif_neg fun small => ?_
      simp only [UInt32.le_iff_toNat_le] at small
      have a : 'a'.val.toNat = 97 := rfl
      have Z : 'Z'.val.toNat = 90 := rfl
      omega
    rw [toUpperCase, List.map_congr_left kept, List.map_id', String.ofList_toList]

/-- With a key from the admin settings and neither list the charts follow the
feed. -/
theorem charts_follow_feed_named : Letters toUpperCase ∧
    ∀ code, isMmdpsChartSymbol toUpperCase ⟨none, "/dp"⟩ code = true ↔
      (FeedRouter.new toUpperCase (Config.load toUpperCase ⟨none, none, none⟩ (some "key"))).feedOf
        toUpperCase (normalizeChartSymbolKey toUpperCase code) = .mmdps := by
  have auto : ChartEnv.Auto ⟨none, "/dp"⟩ := ⟨by decide, nofun, rfl⟩
  have keyed : DataProviderEnv.Keyed ⟨none, none, none⟩ (some "key") := .inr (by decide)
  have follows := (charts_follow_feed letters_toUpperCase).mpr
    ⟨⟨fun _ => ⟨keyed, rfl⟩, fun _ => auto⟩, fun listed => absurd auto listed⟩
  exact ⟨letters_toUpperCase, follows⟩

end Rules

end TradingPlatform.FeedRouting
