import TradingPlatform.Pricing.PlainSymbols

namespace TradingPlatform

open Gateway (trimUsdt)

section Browser
variable {row : CatalogRow} {s : Gateway} {c : ConnId} {tick : Symbol}

theorem toList_usdName (tick : Symbol) :
    (String.ofList (trimUsdt tick.toList tick.length) ++ "USD").toList = usdName tick.toList := by
  rw [String.toList_append, String.toList_ofList, usdName, String.length_toList]

theorem mem_foldl_fresh {l ids : List ConnId} :
    c ∈ l.foldl (fun ids d => if d ∈ ids then ids else ids ++ [d]) ids ↔ c ∈ ids ∨ c ∈ l := by
  induction l generalizing ids with
  | nil => simp
  | cons d l ih =>
    rw [List.foldl_cons, ih, List.mem_cons]
    split_ifs with known
    · constructor
      · rintro (old | later)
        · exact .inl old
        · exact .inr (.inr later)
      · rintro (old | rfl | later)
        · exact .inl old
        · exact .inl known
        · exact .inr later
    · rw [List.mem_append, List.mem_singleton, or_assoc]

/-- The two names of a symbol under which its subscribers are found. -/
theorem mem_tickSubscribers : c ∈ s.tickSubscribers tick ↔ c ∈ s.symbolSubscribers tick ∨
    "USDT".toList <:+ tick.toList ∧
      c ∈ s.symbolSubscribers (String.ofList (usdName tick.toList)) := by
  have name : String.ofList (trimUsdt tick.toList tick.length) ++ "USD" =
      String.ofList (usdName tick.toList) := by
    rw [← toList_usdName, String.ofList_toList]
  unfold Gateway.tickSubscribers
  split_ifs with ends
  · dsimp only
    rw [mem_foldl_fresh, name, and_iff_right ends]
  · rw [or_iff_left fun usdt => ends usdt.1]

/-- What the browser asks for is the row's lookup key. -/
theorem requestedSymbols_row (row : CatalogRow) :
    Gateway.requestedSymbols (normalizeWsSubscribeSymbols [terminalFeedSymbol row]) =
      (normalizeSubscriptionSymbol (terminalPriceLookupKey row)).toList := by
  have blank : trim (terminalFeedSymbol row) = "" → terminalPriceLookupKey row = "" := by
    intro empty
    rw [terminalPriceLookupKey, normalizeSymbolKey, trim_toUpperCase,
      normalizeSymbol_eq_empty.mpr empty]
    decide
  have rejected : normalizeSubscriptionSymbol "" = none := by decide
  have one : ∀ symbol : String, [symbol].eraseDups = [symbol] := fun _ => rfl
  unfold normalizeWsSubscribeSymbols
  by_cases empty : terminalPriceLookupKey row = ""
  · have key : normalizeSymbolKey (terminalFeedSymbol row) = "" := empty
    rw [empty, rejected]
    by_cases asked : trim (terminalFeedSymbol row) = "" <;>
      simp [asked, key, Gateway.requestedSymbols]
  · have key : normalizeSymbolKey (terminalFeedSymbol row) = terminalPriceLookupKey row := rfl
    have asked : trim (terminalFeedSymbol row) ≠ "" := fun none => empty (blank none)
    cases accepted : normalizeSubscriptionSymbol (terminalPriceLookupKey row) <;>
      simp [asked, key, empty, one, accepted, Gateway.requestedSymbols]

theorem Gateway.Silent.mem_showing (silent : s.Silent c) (name : Symbol) :
    c ∈ (s.showing c row).symbolSubscribers name ↔
      normalizeSubscriptionSymbol (terminalPriceLookupKey row) = some name := by
  obtain ⟨conn, registered⟩ := Option.isSome_iff_exists.mp silent.registered
  unfold Gateway.showing
  rw [requestedSymbols_row]
  cases accepted : normalizeSubscriptionSymbol (terminalPriceLookupKey row) with
  | none => simpa using silent.silent name
  | some asked =>
    simp only [Option.toList_some, List.foldl_cons, List.foldl_nil, Gateway.subscribeSymbol,
      registered, Option.some.injEq]
    by_cases same : name = asked
    · subst same
      simp
    · rw [Function.update_of_ne same]
      exact ⟨fun member => absurd member (silent.silent name), fun eq => absurd eq.symm same⟩

theorem browserTakes_iff (silent : s.Silent c) : BrowserTakes row s c tick ↔
    (normalizeSubscriptionSymbol (terminalPriceLookupKey row) = some tick ∨
      "USDT".toList <:+ tick.toList ∧ normalizeSubscriptionSymbol (terminalPriceLookupKey row) =
        some (String.ofList (usdName tick.toList))) ∧
    normalizeSymbolKey tick = terminalPriceLookupKey row := by
  rw [BrowserTakes, mem_tickSubscribers, silent.mem_showing, silent.mem_showing]

end Browser

section Engine
variable {p q tick : Symbol} {groupId : GroupId}

theorem stripTicksPrefix_append (rest : String) :
    stripTicksPrefix (ticksPrefix ++ rest) = some rest.toList := by
  rw [stripTicksPrefix, String.toList_append, if_pos (List.prefix_append _ _),
    ← String.length_toList, List.drop_left]

theorem parseTickSubjectPerGroup_append (noDot : '.' ∉ p.toList) :
    parseTickSubjectPerGroup (ticksPrefix ++ p) = none := by
  have none : p.toList.dropWhile (· ≠ '.') = [] := List.dropWhile_eq_nil_iff.mpr fun c within => by
    have other : c ≠ '.' := fun dot => noDot (dot ▸ within)
    simpa using other
  rw [parseTickSubjectPerGroup, stripTicksPrefix_append, Option.bind_some, none]

theorem parseTickSubjectPerGroup_dot (noDot : '.' ∉ p.toList) :
    parseTickSubjectPerGroup (ticksPrefix ++ (p ++ "." ++ q)) =
      if q = "" then none else some (p, q) := by
  have before : ∀ c ∈ p.toList, decide (c ≠ '.') = true := fun c within => by
    have other : c ≠ '.' := fun dot => noDot (dot ▸ within)
    simpa using other
  have letters : (p ++ "." ++ q).toList = p.toList ++ '.' :: q.toList := by
    rw [String.toList_append, String.toList_append, List.append_assoc]
    rfl
  have empty : q.toList = [] ↔ q = "" := by rw [← String.toList_inj]; rfl
  rw [parseTickSubjectPerGroup, stripTicksPrefix_append, Option.bind_some, letters,
    List.dropWhile_append_of_pos before, List.takeWhile_append_of_pos before]
  simp only [ne_eq, not_true_eq_false, decide_false, Bool.false_eq_true, not_false_eq_true,
    List.dropWhile_cons_of_neg, List.takeWhile_cons_of_neg, List.append_nil, empty,
    String.ofList_toList]

theorem exists_dot (dot : '.' ∈ tick.toList) : ∃ p q : Symbol,
    tick = p ++ "." ++ q ∧ '.' ∉ p.toList := by
  obtain ⟨before, after, split, first⟩ := List.eq_append_cons_of_mem dot
  refine ⟨String.ofList before, String.ofList after, ?_, by rwa [String.toList_ofList]⟩
  rw [← String.toList_inj, split]
  simp

/-- A symbol without a dot is filed as it is, for any group. -/
theorem filedTick_noDot (noDot : '.' ∉ tick.toList) (groupId : GroupId) :
    filedTick (tickSubject tick groupId) =
      some (normalizeSymbol tick, if groupId = "" then none else some groupId) := by
  unfold filedTick tickSubject
  split_ifs with none
  · rw [parseTickSubjectPerGroup_append noDot, parseSymbolFromTickSubject, stripTicksPrefix_append]
    simp
  · have split : ticksPrefix ++ tick ++ "." ++ groupId = ticksPrefix ++ (tick ++ "." ++ groupId) := by
      simp only [String.append_assoc]
    rw [split, parseTickSubjectPerGroup_dot noDot, if_neg none]

/-- What follows the first dot of a symbol goes to the group. -/
theorem filedTick_dot (noDot : '.' ∉ p.toList) (some : groupId ≠ "") :
    filedTick (tickSubject (p ++ "." ++ q) groupId) =
      Option.some (normalizeSymbol p, Option.some (q ++ "." ++ groupId)) := by
  have split : ticksPrefix ++ (p ++ "." ++ q) ++ "." ++ groupId =
      ticksPrefix ++ (p ++ "." ++ (q ++ "." ++ groupId)) := by
    simp only [String.append_assoc]
  have nonempty : q ++ "." ++ groupId ≠ "" := by
    intro empty
    have lengths := congrArg String.length empty
    simp [String.length_append] at lengths
  unfold filedTick tickSubject
  rw [if_neg some, split, parseTickSubjectPerGroup_dot noDot, if_neg nonempty]

theorem filedTick_global (noDot : '.' ∉ p.toList) :
    filedTick (tickSubject (p ++ "." ++ q) "") =
      if q = "" then some (normalizeSymbol (p ++ "." ++ q), none)
      else some (normalizeSymbol p, some q) := by
  unfold filedTick tickSubject
  rw [if_pos rfl, parseTickSubjectPerGroup_dot noDot, parseSymbolFromTickSubject,
    stripTicksPrefix_append]
  split_ifs
  · rw [Option.map_some, Option.map_some, String.ofList_toList]
  · rfl

end Engine

/-- The terminal asks for the USDT name of the row, and the USDT name is another
instrument's. -/
def CatalogRow.AsksOther (row : CatalogRow) : Prop :=
  ¬ row.named ∧ row.assetClass = some "Crypto" ∧ row.quoteCurrency = "USD" ∧
    (row.code = "EURUSD" ∨ row.code = "XAUUSD")

/-- The row's code is its feed symbol, and the terminal spells both alike. -/
structure CatalogRow.SelfNamed (row : CatalogRow) (feed : Symbol) : Prop where
  same : row.code = feed
  plain : Plain feed.toList
  once : ¬ "USDTUSDT".toList <:+ feed.toList
  spelled : ¬ row.AsksOther

/-- A feed symbol whose ticks pass for those of another: its USDT name, the USD
name that it collapses to, or the same name before a dot. -/
def Shadows (tick feed : Symbol) : Prop :=
  tick = feed ++ "T" ∧ "USD".toList <:+ feed.toList ∨
  feed = tick ++ "T" ∧ "USD".toList <:+ tick.toList ∧ feed ≠ "EURUSDT" ∧ feed ≠ "XAUUSDT" ∨
  ∃ p q : Symbol, tick = p ++ "." ++ q ∧ '.' ∉ p.toList ∧ normalizeSymbol p = feed

section LookupKey
variable {row : CatalogRow} {feed : Symbol}

theorem normalizeSymbolKey_twice (plain : Plain feed.toList) :
    normalizeSymbolKey (normalizeSymbolKey feed) = String.ofList (collapseUsdt feed.toList) := by
  have collapsed : Plain (String.ofList (collapseUsdt feed.toList)).toList := by
    rw [String.toList_ofList]
    exact plain.collapseUsdt
  rw [plain.normalizeSymbolKey, collapsed.normalizeSymbolKey, String.toList_ofList,
    collapseUsdt_twice]

theorem CatalogRow.terminalFeedSymbol_named (named : row.named) :
    terminalFeedSymbol row = normalizeSymbolKey (normalizeSymbol row.wireName) := by
  rw [terminalFeedSymbol, wireName, if_pos named, if_pos named, trim_toUpperCase]

/-- The code of a row without a provider's name, as the terminal rewrites it. -/
theorem CatalogRow.rawCode_plain (plain : Plain row.code.toList) : row.rawCode =
    if row.assetClass = some "Crypto" ∧ row.quoteCurrency = "USD" ∧ "USD".toList <:+ row.code.toList
    then row.code.toList ++ "T".toList else row.code.toList := by
  have kept : row.code.toList.filter (· ≠ '-') = row.code.toList :=
    List.filter_eq_self.mpr fun c within => by
      have other : c ≠ '-' := by
        rintro rfl
        exact absurd (plain '-' within).1 (by decide)
      simpa using other
  simp only [rawCode, plain.upper, kept]
  by_cases ends : "USD".toList <:+ row.code.toList
  · obtain ⟨w, split⟩ := ends
    have other : ¬ "USDT".toList <:+ row.code.toList := split ▸ not_usdt_usd w
    have before : row.code.toList.take (row.code.toList.length - 3) = w := by
      rw [← split]
      exact take_before w "USD".toList
    rw [before, ← append_T, split]
    simp only [other, not_false_eq_true, and_true]
  · simp only [ends, false_and, and_false, if_false]

/-- The lookup key of a row without a provider's name. -/
theorem CatalogRow.lookupKey_unnamed (unnamed : ¬ row.named) (plain : Plain row.code.toList) :
    terminalPriceLookupKey row = String.ofList (collapseUsdt row.rawCode) := by
  have raw : Plain row.rawCode := by
    rw [rawCode_plain plain]
    split_ifs
    · exact plain.append fun c within => plain_usdt c (by simp at within; simp [within])
    · exact plain
  have collapsed : Plain (String.ofList (collapseUsdt row.rawCode)).toList := by
    rw [String.toList_ofList]
    exact raw.collapseUsdt
  have whole : Plain (String.ofList row.rawCode).toList := by rwa [String.toList_ofList]
  rw [terminalPriceLookupKey, terminalFeedSymbol, if_neg unnamed, whole.normalizeSymbolKey,
    String.toList_ofList, collapsed.normalizeSymbolKey, String.toList_ofList, collapseUsdt_twice]

theorem CatalogRow.lookupKey_spelled (published : row.feedSymbol = some feed)
    (same : row.code = feed) (plain : Plain feed.toList) (spelled : ¬ row.AsksOther) :
    terminalPriceLookupKey row = String.ofList (collapseUsdt feed.toList) := by
  by_cases named : row.named
  · rw [terminalPriceLookupKey, terminalFeedSymbol_named named, ← (feedSymbol_eq published).1,
      normalizeSymbolKey_twice plain]
  · subst same
    rw [lookupKey_unnamed named plain, rawCode_plain plain]
    split_ifs with crypto
    · obtain ⟨isCrypto, quote, w, split⟩ := crypto
      have kept : w ++ "USDT".toList ≠ "EURUSDT".toList ∧ w ++ "USDT".toList ≠ "XAUUSDT".toList := by
        rw [← append_T, split]
        have eur : "EURUSDT".toList = "EURUSD".toList ++ "T".toList := rfl
        have xau : "XAUUSDT".toList = "XAUUSD".toList ++ "T".toList := rfl
        rw [eur, xau, ne_eq, ne_eq, List.append_cancel_right_eq, List.append_cancel_right_eq,
          String.toList_inj, String.toList_inj]
        exact not_or.mp fun code => spelled ⟨named, isCrypto, quote, code⟩
      have other : ¬ "USDT".toList <:+ row.code.toList := split ▸ not_usdt_usd w
      rw [collapseUsdt_of_not_suffix other, ← split, append_T, collapseUsdt_usdt kept]
    · rfl

theorem CatalogRow.lookupKey_other (same : row.code = feed) (asks : row.AsksOther) :
    terminalPriceLookupKey row = feed ++ "T" ∧ normalizeSymbolKey feed = feed := by
  obtain ⟨unnamed, isCrypto, quote, code⟩ := asks
  have plain : Plain row.code.toList := by
    have start : row.code.toList ⊆ "EURUSDXA".toList := by rcases code with code | code <;> simp [code]
    intro c within
    have letters : c = 'E' ∨ c = 'U' ∨ c = 'R' ∨ c = 'S' ∨ c = 'D' ∨ c = 'X' ∨ c = 'A' := by
      have inside := start within
      simp at inside
      tauto
    rcases letters with rfl | rfl | rfl | rfl | rfl | rfl | rfl <;> decide
  have ends : "USD".toList <:+ row.code.toList := by rcases code with code | code <;> rw [code] <;> decide
  have kept : row.code.toList ++ "T".toList = "EURUSDT".toList ∨
      row.code.toList ++ "T".toList = "XAUUSDT".toList := by
    rcases code with code | code <;> rw [code]
    · exact .inl rfl
    · exact .inr rfl
  obtain ⟨w, split⟩ := ends
  have other : ¬ "USDT".toList <:+ row.code.toList := split ▸ not_usdt_usd w
  rw [lookupKey_unnamed unnamed plain, rawCode_plain plain, if_pos ⟨isCrypto, quote, w, split⟩,
    collapseUsdt, if_pos kept, ← same, plain.normalizeSymbolKey, collapseUsdt_of_not_suffix other]
  refine ⟨?_, String.ofList_toList⟩
  rw [← String.toList_inj]
  simp

end LookupKey

section Keys
variable {code sym : Symbol} {group groupId : GroupId}

theorem mem_priceRedisKeys {key : String} : key ∈ priceRedisKeys code groupId ↔
    key = "prices:" ++ code ++ ":" ++ groupId ∨
      "USD".toList <:+ code.toList ∧ key = "prices:" ++ (code ++ "T") ++ ":" ++ groupId := by
  unfold priceRedisKeys
  by_cases ends : "USD".toList <:+ code.toList
  · obtain ⟨w, split⟩ := ends
    have other : ¬ "USDT".toList <:+ code.toList := split ▸ not_usdt_usd w
    have usd : "USD".toList <:+ code.toList := ⟨w, split⟩
    rw [if_pos ⟨usd, other⟩, List.mem_cons, List.mem_singleton, and_iff_right usd]
  · rw [if_neg fun both => ends both.1, List.mem_singleton, or_iff_left fun both => ends both.1]

theorem priceKey_letters (same : "prices:" ++ sym ++ ":" ++ group = "prices:" ++ code ++ ":" ++ groupId) :
    sym.toList ++ ':' :: group.toList = code.toList ++ ':' :: groupId.toList := by
  have letters := congrArg String.toList same
  simpa using letters

/-- A key of a symbol without colons names no other symbol, unless its group is
shorter. -/
theorem priceKey_symbol (same : "prices:" ++ sym ++ ":" ++ group = "prices:" ++ code ++ ":" ++ groupId)
    (noColon : ':' ∉ code.toList) (longer : groupId.length ≤ group.length) :
    sym = code ∧ group = groupId := by
  have letters := priceKey_letters same
  have lengths := congrArg List.length letters
  simp only [List.length_append, List.length_cons, String.length_toList] at lengths
  obtain ⟨rest, inCode, inGroup⟩ | ⟨rest, inSym, inGroup⟩ := List.append_eq_append_iff.mp letters
  · cases rest with
    | nil =>
      rw [List.append_nil] at inCode
      exact ⟨String.toList_inj.mp inCode.symm, String.toList_inj.mp (List.cons.inj inGroup).2⟩
    | cons c rest =>
      have colon : c = ':' := (List.cons.inj inGroup).1.symm
      exact absurd (by rw [inCode, colon]; simp) noColon
  · have short := congrArg List.length inSym
    rw [List.length_append, String.length_toList, String.length_toList] at short
    have none : rest = [] := List.length_eq_zero_iff.mp (by omega)
    subst none
    rw [List.append_nil] at inSym
    exact ⟨String.toList_inj.mp inSym, (String.toList_inj.mp (List.cons.inj inGroup).2).symm⟩

theorem Plain.free {u : List Char} (plain : Plain u) {d : Char} (other : ¬ d.isAlphanum) : d ∉ u :=
  fun within => other (plain d within).1

end Keys

section Necessary
variable {row : CatalogRow} {feed : Symbol}

theorem length_normalizeSymbol_le (s : String) : (normalizeSymbol s).length ≤ s.length := by
  have letters := congrArg List.length (toList_normalizeSymbol s)
  obtain ⟨before, after, split, -⟩ := exists_strip Char.isWhitespace s.toList
  have whole := congrArg List.length split
  simp only [List.length_append, List.length_map, String.length_toList] at letters whole
  omega

/-- Only a row whose code is its feed symbol is filed where its orders look and
priced where its positions look. -/
theorem code_of_taken (published : row.feedSymbol = some feed) (engine : EngineTakes row feed "g")
    (summary : SummaryTakes row feed "g") : row.code = feed := by
  obtain ⟨filed, atFiled, key⟩ := summary
  rw [EngineTakes, atFiled, Option.map_some, Option.some.injEq] at engine
  by_cases dot : '.' ∈ feed.toList
  · exfalso
    obtain ⟨p, q, rfl, noDot⟩ := exists_dot dot
    rw [filedTick_dot noDot (by decide)] at atFiled
    cases atFiled
    -- The letter before the last one is a dot in one key and a colon in the other.
    rcases mem_priceRedisKeys.mp key with same | ⟨-, same⟩ <;>
    · have letters := congrArg List.reverse (priceKey_letters same)
      simp at letters
  · rw [filedTick_noDot dot, if_neg (by decide), CatalogRow.normalizeSymbol_feed published] at atFiled
    cases atFiled
    rcases mem_priceRedisKeys.mp key with same | ⟨-, same⟩
    · have letters := priceKey_letters same
      exact (String.toList_inj.mp (List.append_cancel_right letters)).symm
    · have letters := priceKey_letters same
      have longer : feed = row.code ++ "T" := String.toList_inj.mp (List.append_cancel_right letters)
      have lengths := length_normalizeSymbol_le row.code
      dsimp only at engine
      rw [← engine, longer, String.length_append] at lengths
      have one : "T".length = 1 := rfl
      omega

end Necessary

section Others
variable {row : CatalogRow} {feed tick : Symbol} {groupId : GroupId}

/-- A tick is filed under its own symbol and group, or under what stands before
its first dot and then with a longer group. -/
theorem filedTick_cases (normal : normalizeSymbol tick = tick) {filed : Symbol × Option GroupId}
    (atFiled : filedTick (tickSubject tick groupId) = some filed) :
    filed.1 = tick ∧ filed.2.getD "" = groupId ∨
      ∃ p q : Symbol, tick = p ++ "." ++ q ∧ '.' ∉ p.toList ∧ filed.1 = normalizeSymbol p ∧
        groupId.length < (filed.2.getD "").length := by
  by_cases dot : '.' ∈ tick.toList
  · obtain ⟨p, q, rfl, noDot⟩ := exists_dot dot
    by_cases global : groupId = ""
    · subst global
      rw [filedTick_global noDot] at atFiled
      split_ifs at atFiled with none
      · cases atFiled
        exact .inl ⟨normal, rfl⟩
      · cases atFiled
        have some : q.length ≠ 0 := fun zero => none (String.length_eq_zero_iff.mp zero)
        exact .inr ⟨p, q, rfl, noDot, rfl, Nat.pos_of_ne_zero some⟩
    · rw [filedTick_dot noDot global] at atFiled
      cases atFiled
      refine .inr ⟨p, q, rfl, noDot, rfl, ?_⟩
      have one : ".".length = 1 := rfl
      simp only [Option.getD_some, String.length_append]
      omega
  · rw [filedTick_noDot dot] at atFiled
    cases atFiled
    refine .inl ⟨normal, ?_⟩
    split_ifs with global
    · exact global.symm
    · rfl

theorem shadows_of_engineTakes (normal : normalizeSymbol tick = tick) (other : tick ≠ feed)
    (same : row.code = feed) (plain : Plain feed.toList) (taken : EngineTakes row tick groupId) :
    Shadows tick feed := by
  obtain ⟨filed, atFiled, symbol⟩ := Option.map_eq_some_iff.mp taken
  rw [same, plain.normalizeSymbol] at symbol
  rcases filedTick_cases normal atFiled with ⟨own, -⟩ | ⟨p, q, split, noDot, before, -⟩
  · exact absurd (own.symm.trans symbol) other
  · exact .inr (.inr ⟨p, q, split, noDot, before.symm.trans symbol⟩)

theorem shadows_of_summaryTakes (normal : normalizeSymbol tick = tick) (other : tick ≠ feed)
    (same : row.code = feed) (plain : Plain feed.toList) (taken : SummaryTakes row tick groupId) :
    Shadows tick feed := by
  obtain ⟨filed, atFiled, key⟩ := taken
  rw [same] at key
  have noColon : ':' ∉ feed.toList := plain.free (by decide)
  have noColonT : ':' ∉ (feed ++ "T").toList := by
    rw [String.toList_append]
    simp [noColon]
  have longer : groupId.length ≤ (filed.2.getD "").length := by
    rcases filedTick_cases normal atFiled with ⟨-, own⟩ | ⟨-, -, -, -, -, longer⟩
    · rw [own]
    · exact longer.le
  rcases mem_priceRedisKeys.mp key with keys | ⟨ends, keys⟩
  · have taken : EngineTakes row tick groupId := by
      rw [EngineTakes, atFiled, same, plain.normalizeSymbol, Option.map_some,
        (priceKey_symbol keys noColon longer).1]
    exact shadows_of_engineTakes normal other same plain taken
  · obtain ⟨symbol, group⟩ := priceKey_symbol keys noColonT longer
    rcases filedTick_cases normal atFiled with ⟨own, -⟩ | ⟨p, q, split, noDot, before, short⟩
    · exact .inl ⟨own.symm.trans symbol, ends⟩
    · rw [group] at short
      exact absurd short (lt_irrefl _)

theorem shadows_of_browserTakes (other : tick ≠ feed) (plain : Plain feed.toList) (some : feed ≠ "")
    (lookup : terminalPriceLookupKey row = String.ofList (collapseUsdt feed.toList))
    {s : Gateway} {c : ConnId} (silent : s.Silent c) (taken : BrowserTakes row s c tick) :
    Shadows tick feed := by
  obtain ⟨found, key⟩ := (browserTakes_iff silent).mp taken
  rw [lookup, plain.asked some, Option.some.injEq, Option.some.injEq] at found
  have found' : collapseUsdt feed.toList = tick.toList ∨
      "USDT".toList <:+ tick.toList ∧ collapseUsdt feed.toList = usdName tick.toList := by
    rcases found with own | ⟨ends, usd⟩
    · exact .inl (by rw [← own, String.toList_ofList])
    · exact .inr ⟨ends, String.ofList_injective usd⟩
  have plainTick : Plain tick.toList := by
    rcases found' with own | ⟨-, usd⟩
    · exact own ▸ plain.collapseUsdt
    · exact Plain.of_usdName (usd ▸ plain.collapseUsdt)
  rw [lookup, plainTick.normalizeSymbolKey] at key
  have different : tick.toList ≠ feed.toList := fun same => other (String.toList_inj.mp same)
  rcases other_of_collapseUsdt different found' (String.ofList_injective key) with
    ⟨usdt, ends⟩ | ⟨usdt, ends, eur, xau⟩
  · exact .inl ⟨by rw [← String.toList_inj, usdt, String.toList_append], ends⟩
  · refine .inr (.inl ⟨by rw [← String.toList_inj, usdt, String.toList_append], ends, ?_, ?_⟩)
    · exact fun same => eur (by rw [same])
    · exact fun same => xau (by rw [same])

end Others

namespace CatalogRow.SelfNamed
variable {row : CatalogRow} {feed : Symbol}

theorem lookupKey (named : row.SelfNamed feed) (published : row.feedSymbol = some feed) :
    terminalPriceLookupKey row = String.ofList (collapseUsdt feed.toList) :=
  row.lookupKey_spelled published named.same named.plain named.spelled

/-- The browser asks the gateway for the row's lookup key as it is. -/
theorem asked (named : row.SelfNamed feed) (published : row.feedSymbol = some feed) :
    normalizeSubscriptionSymbol (terminalPriceLookupKey row) =
      some (String.ofList (collapseUsdt feed.toList)) := by
  rw [named.lookupKey published]
  exact named.plain.asked (feedSymbol_eq published).2

end CatalogRow.SelfNamed

section Routing
variable {catalog : List CatalogRow} {row : CatalogRow} {feed tick : Symbol}

/-- A gateway with one connection that has not subscribed yet. -/
def oneConnection : Gateway :=
  { Gateway.opened with connections := (∅ : FiniteTable ConnId Connection).insert 0 ⟨"", "", none, []⟩ }

theorem oneConnection_silent : oneConnection.Silent 0 :=
  ⟨by rw [oneConnection, AList.lookup_insert]; rfl, fun _ => List.not_mem_nil⟩

theorem selfNamed_of_routed (published : row.feedSymbol = some feed)
    (routed : TicksRouted catalog row feed) : row.SelfNamed feed := by
  have same := code_of_taken published (routed.engine "g") (routed.summary "g")
  obtain ⟨found, key⟩ := (browserTakes_iff oneConnection_silent).mp
    (routed.browser _ _ oneConnection_silent)
  have plain : Plain feed.toList := by
    rcases found with own | ⟨-, usd⟩
    · exact plain_of_normalizeSubscriptionSymbol own
    · have plainUsd := plain_of_normalizeSubscriptionSymbol usd
      rw [String.toList_ofList] at plainUsd
      exact plainUsd.of_usdName
  have spelled : ¬ row.AsksOther := fun asks => by
    obtain ⟨lookup, self⟩ := row.lookupKey_other same asks
    rw [lookup, self] at key
    have lengths := congrArg String.length key
    rw [String.length_append] at lengths
    have one : "T".length = 1 := rfl
    omega
  refine ⟨same, plain, ?_, spelled⟩
  have lookup := row.lookupKey_spelled published same plain spelled
  rw [lookup, plain.asked (CatalogRow.feedSymbol_eq published).2, Option.some.injEq,
    Option.some.injEq] at found
  rw [← collapseUsdt_found_iff]
  rcases found with own | ⟨ends, usd⟩
  · exact .inl (by conv_rhs => rw [← own, String.toList_ofList])
  · exact .inr ⟨ends, String.ofList_injective usd⟩

theorem not_shadows_of_routed (published : row.feedSymbol = some feed)
    (routed : TicksRouted catalog row feed) {other : CatalogRow} (listed : other ∈ catalog)
    (feeds : other.feedSymbol = some tick) (different : tick ≠ feed) : ¬ Shadows tick feed := by
  have named := selfNamed_of_routed published routed
  obtain ⟨browser, engines⟩ := routed.others other listed tick feeds different
  have code : normalizeSymbol row.code = feed := by rw [named.same, named.plain.normalizeSymbol]
  rintro (⟨rfl, ends⟩ | ⟨usdt, ends, eur, xau⟩ | ⟨p, q, rfl, noDot, before⟩)
  · have noDot : '.' ∉ (feed ++ "T").toList := by
      rw [String.toList_append]
      simp [named.plain.free (d := '.') (by decide)]
    refine (engines "").2 ⟨_, filedTick_noDot noDot "", ?_⟩
    rw [CatalogRow.normalizeSymbol_feed feeds, mem_priceRedisKeys, named.same]
    exact .inr ⟨ends, rfl⟩
  · have lookup := row.lookupKey_spelled published named.same named.plain named.spelled
    obtain ⟨w, split⟩ := ends
    have letters : feed.toList = w ++ "USDT".toList := by
      rw [usdt, String.toList_append, ← split, append_T]
    have collapsed : collapseUsdt feed.toList = tick.toList := by
      rw [letters, collapseUsdt_usdt, split]
      constructor <;> intro kept
      · exact eur (String.toList_inj.mp (letters.trans kept))
      · exact xau (String.toList_inj.mp (letters.trans kept))
    have plainTick : Plain tick.toList := collapsed ▸ named.plain.collapseUsdt
    rw [collapsed, String.ofList_toList] at lookup
    refine browser _ _ oneConnection_silent ((browserTakes_iff oneConnection_silent).mpr ⟨.inl ?_, ?_⟩)
    · rw [lookup]
      exact plainTick.normalizeSubscriptionSymbol (CatalogRow.feedSymbol_eq feeds).2
    · rw [lookup, plainTick.normalizeSymbolKey, collapseUsdt_of_not_suffix (split ▸ not_usdt_usd w),
        String.ofList_toList]
  · refine (engines "g").1 ?_
    rw [EngineTakes, filedTick_dot noDot (by decide), code, before]
    rfl

/-- The row's ticks reach its orders, its valuations and its subscribers, and
no other instrument's do, when its code is its feed symbol, of letters and
digits, and no row of the catalog shadows it; and only then. -/
theorem ticksRouted_iff (published : row.feedSymbol = some feed) :
    TicksRouted catalog row feed ↔ row.SelfNamed feed ∧
      ∀ other ∈ catalog, ∀ tick, other.feedSymbol = some tick → tick ≠ feed →
        ¬ Shadows tick feed := by
  constructor
  · exact fun routed => ⟨selfNamed_of_routed published routed,
      fun other listed tick feeds different => not_shadows_of_routed published routed listed feeds different⟩
  · rintro ⟨named, alone⟩
    have some := (CatalogRow.feedSymbol_eq published).2
    have noDot : '.' ∉ feed.toList := named.plain.free (by decide)
    have lookup := named.lookupKey published
    have filed : ∀ groupId, filedTick (tickSubject feed groupId) =
        Option.some (feed, if groupId = "" then none else Option.some groupId) := fun groupId => by
      rw [filedTick_noDot noDot, named.plain.normalizeSymbol]
    refine ⟨fun s c silent => ?_, fun groupId => ?_, fun groupId => ?_, ?_⟩
    · rw [browserTakes_iff silent, named.asked published, lookup, named.plain.normalizeSymbolKey]
      refine ⟨?_, rfl⟩
      rcases (collapseUsdt_found_iff feed.toList).mpr named.once with own | ⟨ends, usd⟩
      · exact .inl (by rw [own, String.ofList_toList])
      · exact .inr ⟨ends, by rw [usd]⟩
    · rw [EngineTakes, filed, named.same, named.plain.normalizeSymbol]
      rfl
    · refine ⟨_, filed groupId, mem_priceRedisKeys.mpr (.inl ?_)⟩
      rw [tickPriceKey, named.same]
      split_ifs with global
      · rw [global]
        rfl
      · rfl
    · intro other listed tick feeds different
      have normal := CatalogRow.normalizeSymbol_feed feeds
      have unshadowed := alone other listed tick feeds different
      exact ⟨fun s c silent taken => unshadowed
          (shadows_of_browserTakes different named.plain some lookup silent taken),
        fun groupId => ⟨fun taken => unshadowed
            (shadows_of_engineTakes normal different named.same named.plain taken),
          fun taken => unshadowed
            (shadows_of_summaryTakes normal different named.same named.plain taken)⟩⟩

def euroRow : CatalogRow := ⟨"EURUSD", some "eurusd", some "FX", "USD"⟩

def tetherRow : CatalogRow := ⟨"BTCUSDT", some "btcusdt", some "Crypto", "USDT"⟩

theorem ticksRouted_euro : TicksRouted [euroRow, tetherRow] euroRow "EURUSD" := by
  have published : euroRow.feedSymbol = some "EURUSD" := by decide +kernel
  have feeds : tetherRow.feedSymbol = some "BTCUSDT" := by decide +kernel
  refine (ticksRouted_iff published).mpr ⟨⟨rfl, ?_, by decide, fun asks => asks.1 (by decide)⟩, ?_⟩
  · intro c within
    have letters : c = 'E' ∨ c = 'U' ∨ c = 'R' ∨ c = 'S' ∨ c = 'D' := by
      simp at within
      tauto
    rcases letters with rfl | rfl | rfl | rfl | rfl <;> decide
  · intro other listed tick own different shadows
    have isTether : tick = "BTCUSDT" := by
      rcases List.mem_cons.mp listed with rfl | listed
      · exact absurd (Option.some.inj (own.symm.trans published)) different
      · rw [List.mem_singleton.mp listed] at own
        exact Option.some.inj (own.symm.trans feeds)
    subst isTether
    rcases shadows with ⟨usdt, -⟩ | ⟨usdt, -⟩ | ⟨p, q, dot, -⟩
    · exact absurd usdt (by decide)
    · exact absurd usdt (by decide)
    · have inside : '.' ∈ "BTCUSDT".toList := by
        rw [dot]
        simp
      exact absurd inside (by decide)

/-- A row that gives the provider's name for its code: the engine files the
ticks where no order or position of the row looks. -/
theorem tether_ticks_misfiled :
    (⟨"BTCUSD", some "BTCUSDT", some "Crypto", "USD"⟩ : CatalogRow).feedSymbol = some "BTCUSDT" ∧
      filedTick (tickSubject "BTCUSDT" "g") = some ("BTCUSDT", some "g") ∧
      normalizeSymbol "BTCUSD" = "BTCUSD" ∧
      ¬ TicksRouted [⟨"BTCUSD", some "BTCUSDT", some "Crypto", "USD"⟩]
        ⟨"BTCUSD", some "BTCUSDT", some "Crypto", "USD"⟩ "BTCUSDT" := by
  have filed : filedTick (tickSubject "BTCUSDT" "g") = some ("BTCUSDT", some "g") := by decide +kernel
  have code : normalizeSymbol "BTCUSD" = "BTCUSD" := by decide +kernel
  refine ⟨by decide +kernel, filed, code, fun routed => ?_⟩
  have taken := routed.engine "g"
  rw [EngineTakes, filed, code] at taken
  exact absurd taken (by decide)

end Routing

end TradingPlatform
