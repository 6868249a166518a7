import TradingPlatform.Pricing.SymbolKeys
import Mathlib.Data.List.DropRight

namespace TradingPlatform

open Gateway (trimUsdt)

section Trimming
variable {α : Type*} {p q : α → Bool} {l : List α}

theorem strip_append_left {pad : List α} (blank : ∀ a ∈ pad, p a) :
    strip p (pad ++ l) = strip p l := by
  rw [strip, List.dropWhile_append_of_pos blank, strip]

theorem strip_append_right {pad : List α} (blank : ∀ a ∈ pad, p a) :
    strip p (l ++ pad) = strip p l := by
  have none : pad.dropWhile p = [] := List.dropWhile_eq_nil_iff.mpr blank
  unfold strip
  rw [List.dropWhile_append]
  split_ifs with empty
  · rw [List.isEmpty_iff.mp empty, none]
  · rw [List.rdropWhile, List.reverse_append, List.dropWhile_append_of_pos, ← List.rdropWhile]
    exact fun a inPad => blank a (List.mem_reverse.mp inPad)

/-- What is stripped off a list is blank. -/
theorem exists_strip (p : α → Bool) (l : List α) : ∃ before after,
    l = before ++ strip p l ++ after ∧ (∀ a ∈ before, p a) ∧ ∀ a ∈ after, p a := by
  refine ⟨l.takeWhile p, (l.dropWhile p).rtakeWhile p, ?_, ?_, ?_⟩
  · rw [List.append_assoc, strip, List.rdropWhile_append_rtakeWhile,
      List.takeWhile_append_dropWhile]
  · exact fun a => List.mem_takeWhile_imp
  · exact fun a => List.mem_rtakeWhile_imp

/-- To strip less first makes no difference. -/
theorem strip_strip_of_imp (weaker : ∀ a, p a → q a) (l : List α) :
    strip q (strip p l) = strip q l := by
  obtain ⟨before, after, padded, first, last⟩ := exists_strip p l
  conv_rhs => rw [padded]
  rw [strip_append_right fun a inPad => weaker a (last a inPad),
    strip_append_left fun a inPad => weaker a (first a inPad)]

theorem strip_eq_self (solid : ∀ a ∈ l, p a = false) : strip p l = l := by
  obtain ⟨before, after, padded, first, last⟩ := exists_strip p l
  have noneBefore : before = [] := List.eq_nil_iff_forall_not_mem.mpr fun a inPad => by
    have clear := solid a (by rw [padded]; simp [inPad])
    exact absurd (first a inPad) (by simp [clear])
  have noneAfter : after = [] := List.eq_nil_iff_forall_not_mem.mpr fun a inPad => by
    have clear := solid a (by rw [padded]; simp [inPad])
    exact absurd (last a inPad) (by simp [clear])
  subst noneBefore noneAfter
  simpa using padded.symm

end Trimming

section Normalizing

theorem toList_normalizeSymbol (s : String) :
    (normalizeSymbol s).toList = (strip Char.isWhitespace s.toList).map Char.toUpper :=
  String.toList_ofList

theorem map_toUpper_twice (l : List Char) :
    (l.map Char.toUpper).map Char.toUpper = l.map Char.toUpper := by
  rw [List.map_map]
  exact List.map_congr_left fun c _ => Char.toUpper_toUpper_eq_toUpper c

theorem trim_toUpperCase (s : String) : trim (toUpperCase s) = normalizeSymbol s := by
  have upper : (toUpperCase s).toList = s.toList.map Char.toUpper := String.toList_ofList
  have trimmed : trim (toUpperCase s) =
    String.ofList (strip Char.isWhitespace (toUpperCase s).toList) := rfl
  rw [trimmed, upper, strip_map _ _ _ isWhitespace_toUpper, normalizeSymbol_eq]

theorem toUpperCase_normalizeSymbol (s : String) :
    toUpperCase (normalizeSymbol s) = normalizeSymbol s := by
  rw [toUpperCase, toList_normalizeSymbol, map_toUpper_twice, normalizeSymbol_eq]

theorem normalizeSymbol_sqlTrim (s : String) : normalizeSymbol (sqlTrim s) = normalizeSymbol s := by
  have trimmed : (sqlTrim s).toList = strip (· = ' ') s.toList := String.toList_ofList
  have space : ∀ c : Char, decide (c = ' ') = true → c.isWhitespace = true := by
    intro c blank
    rw [of_decide_eq_true blank]
    rfl
  rw [normalizeSymbol_eq, trimmed, strip_strip_of_imp space, normalizeSymbol_eq]

theorem normalizeSymbol_eq_empty {s : String} : normalizeSymbol s = "" ↔ trim s = "" := by
  have trimmed : (trim s).toList = strip Char.isWhitespace s.toList := String.toList_ofList
  rw [← String.toList_inj, ← String.toList_inj, toList_normalizeSymbol, trimmed]
  simp

end Normalizing

namespace CatalogRow
variable {row : CatalogRow} {feed : Symbol}

/-- The name that the feed symbol comes from. -/
def wireName (row : CatalogRow) : String :=
  if row.named then row.providerSymbol.getD "" else row.code

theorem feedSymbol_eq (published : row.feedSymbol = some feed) :
    feed = normalizeSymbol row.wireName ∧ feed ≠ "" := by
  have key : ∀ s, toUpperCase (trim (toUpperCase (sqlTrim s))) = normalizeSymbol s := fun s => by
    rw [trim_toUpperCase, toUpperCase_normalizeSymbol, normalizeSymbol_sqlTrim]
  simp only [feedSymbol, key] at published
  split_ifs at published with empty
  cases published
  refine ⟨?_, empty⟩
  unfold wireName named
  cases provider : row.providerSymbol with
  | none => rfl
  | some name =>
    rw [provider] at empty
    by_cases spaces : sqlTrim name = ""
    · have blank : trim name = "" := by
        rw [← normalizeSymbol_eq_empty, ← normalizeSymbol_sqlTrim, spaces]
        rfl
      have none : Option.filter (fun s : String => decide (s ≠ "")) (some "") = none := rfl
      rw [Option.map_some, spaces, none]
      simp [blank]
    · have kept : (Option.map sqlTrim (some name)).filter (fun s => decide (s ≠ "")) =
          some (sqlTrim name) := by simp [spaces]
      rw [kept, Option.getD_some, normalizeSymbol_sqlTrim] at empty ⊢
      have solid : trim name ≠ "" := fun blank => empty (normalizeSymbol_eq_empty.mpr blank)
      simp [solid]

theorem normalizeSymbol_feed (published : row.feedSymbol = some feed) :
    normalizeSymbol feed = feed := by
  rw [(feedSymbol_eq published).1, normalizeSymbol_normalizeSymbol]

end CatalogRow

section Suffixes
variable {f t u v w : List Char}

/-- What stands before a suffix. -/
theorem take_before (w t : List Char) : (w ++ t).take ((w ++ t).length - t.length) = w := by
  rw [List.length_append, Nat.add_sub_cancel, List.take_left]

theorem collapseUsdt_usdt (kept : w ++ "USDT".toList ≠ "EURUSDT".toList ∧
    w ++ "USDT".toList ≠ "XAUUSDT".toList) :
    collapseUsdt (w ++ "USDT".toList) = w ++ "USD".toList := by
  have before := take_before w "USDT".toList
  rw [collapseUsdt, if_neg (not_or.mpr kept), if_pos (List.suffix_append w _)]
  exact congrArg (· ++ "USD".toList) before

theorem collapseUsdt_of_not_suffix (other : ¬ "USDT".toList <:+ u) : collapseUsdt u = u := by
  unfold collapseUsdt
  split_ifs <;> rfl

theorem not_usdt_usd (w : List Char) : ¬ "USDT".toList <:+ w ++ "USD".toList := by
  rintro ⟨v, same⟩
  have last := congrArg List.getLast? same
  simp at last

theorem collapseUsdt_twice (u : List Char) : collapseUsdt (collapseUsdt u) = collapseUsdt u := by
  by_cases kept : u = "EURUSDT".toList ∨ u = "XAUUSDT".toList
  · have same : collapseUsdt u = u := by rw [collapseUsdt, if_pos kept]
    rw [same, same]
  · by_cases ends : "USDT".toList <:+ u
    · obtain ⟨w, rfl⟩ := ends
      rw [collapseUsdt_usdt (not_or.mp kept), collapseUsdt_of_not_suffix (not_usdt_usd w)]
    · rw [collapseUsdt_of_not_suffix ends, collapseUsdt_of_not_suffix ends]

theorem trimUsdt_usdt (w : List Char) (fuel : ℕ) :
    trimUsdt (w ++ "USDT".toList) (fuel + 1) = trimUsdt w fuel := by
  rw [trimUsdt, if_pos (List.suffix_append w _)]
  exact congrArg (trimUsdt · fuel) (take_before w "USDT".toList)

theorem trimUsdt_of_not_suffix (other : ¬ "USDT".toList <:+ w) (fuel : ℕ) :
    trimUsdt w fuel = w := by
  cases fuel with
  | zero => rfl
  | succ fuel => rw [trimUsdt, if_neg other]

theorem exists_trimUsdt (u : List Char) (fuel : ℕ) :
    ∃ rest, u = trimUsdt u fuel ++ rest ∧ ∀ c ∈ rest, c ∈ "USDT".toList := by
  induction fuel generalizing u with
  | zero => exact ⟨[], by simp [trimUsdt], by simp⟩
  | succ fuel ih =>
    by_cases ends : "USDT".toList <:+ u
    · obtain ⟨w, rfl⟩ := ends
      obtain ⟨rest, split, within⟩ := ih w
      refine ⟨rest ++ "USDT".toList, ?_, ?_⟩
      · rw [trimUsdt_usdt, ← List.append_assoc, ← split]
      · intro c inRest
        rcases List.mem_append.mp inRest with inRest | inLast
        · exact within c inRest
        · exact inLast
    · exact ⟨[], by rw [trimUsdt_of_not_suffix ends, List.append_nil], by simp⟩

/-- The USD name under which the gateway looks for more subscribers. -/
def usdName (u : List Char) : List Char := trimUsdt u u.length ++ "USD".toList

theorem usdName_length (w : List Char) :
    (usdName (w ++ "USDT".toList)).length < (w ++ "USDT".toList).length := by
  have fuel : (w ++ "USDT".toList).length = w.length + 3 + 1 := List.length_append
  obtain ⟨rest, split, -⟩ := exists_trimUsdt w (w.length + 3)
  have lengths := congrArg List.length split
  rw [List.length_append] at lengths
  rw [usdName, fuel, trimUsdt_usdt, List.length_append]
  have three : "USD".toList.length = 3 := rfl
  omega

/-- One USDT is taken off, unless there is another one before it. -/
theorem usdName_eq_iff (w : List Char) :
    w ++ "USD".toList = usdName (w ++ "USDT".toList) ↔ ¬ "USDT".toList <:+ w := by
  have fuel : (w ++ "USDT".toList).length = w.length + 3 + 1 := List.length_append
  rw [usdName, fuel, trimUsdt_usdt, List.append_cancel_right_eq]
  constructor
  · rintro same ⟨v, rfl⟩
    have lengths := congrArg List.length same
    obtain ⟨rest, split, -⟩ := exists_trimUsdt v ((v ++ "USDT".toList).length + 2)
    have shorter := congrArg List.length split
    rw [trimUsdt_usdt] at lengths
    rw [List.length_append] at shorter
    have whole : (v ++ "USDT".toList).length = v.length + 4 := List.length_append
    omega
  · exact fun once => (trimUsdt_of_not_suffix once _).symm

theorem suffix_twice_iff (w : List Char) :
    "USDTUSDT".toList <:+ w ++ "USDT".toList ↔ "USDT".toList <:+ w := by
  have two : "USDTUSDT".toList = "USDT".toList ++ "USDT".toList := rfl
  rw [two]
  constructor
  · rintro ⟨v, same⟩
    rw [← List.append_assoc] at same
    exact ⟨v, List.append_cancel_right same⟩
  · rintro ⟨v, rfl⟩
    exact ⟨v, (List.append_assoc ..).symm⟩

/-- A browser that has subscribed under the collapsed name is found for the
name itself, unless USDT ends it twice. -/
theorem collapseUsdt_found_iff (f : List Char) :
    (collapseUsdt f = f ∨ "USDT".toList <:+ f ∧ collapseUsdt f = usdName f) ↔
      ¬ "USDTUSDT".toList <:+ f := by
  by_cases ends : "USDT".toList <:+ f
  · by_cases kept : f = "EURUSDT".toList ∨ f = "XAUUSDT".toList
    · have same : collapseUsdt f = f := by rw [collapseUsdt, if_pos kept]
      have once : ¬ "USDTUSDT".toList <:+ f := by
        rcases kept with rfl | rfl <;> decide
      exact ⟨fun _ => once, fun _ => .inl same⟩
    · obtain ⟨w, rfl⟩ := ends
      rw [collapseUsdt_usdt (not_or.mp kept), suffix_twice_iff, ← usdName_eq_iff]
      constructor
      · rintro (same | ⟨-, same⟩)
        · simpa using congrArg List.length same
        · exact same
      · exact fun same => .inr ⟨List.suffix_append w _, same⟩
  · have once : ¬ "USDTUSDT".toList <:+ f := fun twice =>
      ends (List.IsSuffix.trans ⟨"USDT".toList, rfl⟩ twice)
    exact ⟨fun _ => once, fun _ => .inl (collapseUsdt_of_not_suffix ends)⟩

theorem append_T (v : List Char) : (v ++ "USD".toList) ++ "T".toList = v ++ "USDT".toList :=
  List.append_assoc ..

/-- The other names that reach a browser that has subscribed under the
collapsed name and that it takes for its own. -/
theorem other_of_collapseUsdt (other : t ≠ f)
    (found : collapseUsdt f = t ∨ "USDT".toList <:+ t ∧ collapseUsdt f = usdName t)
    (taken : collapseUsdt t = collapseUsdt f) :
    t = f ++ "T".toList ∧ "USD".toList <:+ f ∨
      f = t ++ "T".toList ∧ "USD".toList <:+ t ∧ f ≠ "EURUSDT".toList ∧ f ≠ "XAUUSDT".toList := by
  rcases found with rfl | ⟨⟨v, rfl⟩, subscribed⟩
  · right
    have changed : ¬ (f = "EURUSDT".toList ∨ f = "XAUUSDT".toList) := fun kept =>
      other (by rw [collapseUsdt, if_pos kept])
    have ends : "USDT".toList <:+ f := by
      by_contra ends
      exact other (collapseUsdt_of_not_suffix ends)
    obtain ⟨w, rfl⟩ := ends
    rw [collapseUsdt_usdt (not_or.mp changed), append_T]
    exact ⟨rfl, List.suffix_append w _, not_or.mp changed⟩
  · left
    have changed : ¬ (v ++ "USDT".toList = "EURUSDT".toList ∨
        v ++ "USDT".toList = "XAUUSDT".toList) := fun kept => by
      have same : collapseUsdt (v ++ "USDT".toList) = v ++ "USDT".toList := by
        rw [collapseUsdt, if_pos kept]
      have lengths := usdName_length v
      rw [← subscribed, ← taken, same] at lengths
      exact lengths.false
    rw [collapseUsdt_usdt (not_or.mp changed)] at taken
    by_cases ends : "USDT".toList <:+ f ∧ f ≠ "EURUSDT".toList ∧ f ≠ "XAUUSDT".toList
    · obtain ⟨⟨w, rfl⟩, kept⟩ := ends
      rw [collapseUsdt_usdt kept, List.append_cancel_right_eq] at taken
      exact absurd (by rw [taken]) other
    · have same : collapseUsdt f = f := by
        unfold collapseUsdt
        split_ifs with kept usdt
        · rfl
        · exact absurd ⟨usdt, not_or.mp kept⟩ ends
        · rfl
      rw [same] at taken
      rw [← taken, append_T]
      exact ⟨rfl, List.suffix_append v _⟩

end Suffixes

section Plain
variable {u : List Char}

/-- Letters and digits only, no letter in lower case. -/
def Plain (u : List Char) : Prop := ∀ c ∈ u, c.isAlphanum ∧ c.toUpper = c

theorem Plain.append {v : List Char} (plain : Plain u) (rest : Plain v) : Plain (u ++ v) := by
  intro c within
  rcases List.mem_append.mp within with left | right
  · exact plain c left
  · exact rest c right

theorem plain_usdt : Plain "USDT".toList := by
  intro c within
  have letters : c = 'U' ∨ c = 'S' ∨ c = 'D' ∨ c = 'T' := by simpa using within
  rcases letters with rfl | rfl | rfl | rfl <;> decide

theorem plain_usd : Plain "USD".toList := by
  have start : "USD".toList ⊆ "USDT".toList := by simp
  exact fun c within => plain_usdt c (start within)

theorem isAlphanum_toUpper {c : Char} (kept : c.isAlphanum) : c.toUpper.isAlphanum := by
  by_cases lower : c.isLower
  · have letter : c.toUpper.isAlpha := by
      rw [Char.isAlpha_toUpper_eq_isAlpha]
      simp [Char.isAlpha, lower]
    simp [Char.isAlphanum, letter]
  · rwa [Char.toUpper_eq_of_not_isLower lower]

theorem Plain.solid (plain : Plain u) {p : Char → Bool} (others : ∀ c, p c → ¬ c.isAlphanum) :
    ∀ c ∈ u, p c = false := fun c within =>
  Bool.eq_false_iff.mpr fun taken => others c taken (plain c within).1

theorem not_isAlphanum_of_isWhitespace {c : Char} (blank : c.isWhitespace) :
    ¬ c.isAlphanum := by
  have isBlank : c = ' ' ∨ c = '\t' ∨ c = '\r' ∨ c = '\n' := by
    rw [Char.isWhitespace] at blank
    simpa [or_assoc] using blank
  rcases isBlank with rfl | rfl | rfl | rfl <;> decide

theorem Plain.upper (plain : Plain u) : u.map Char.toUpper = u :=
  (List.map_congr_left fun c within => (plain c within).2).trans u.map_id

theorem Plain.trimmed (plain : Plain u) : strip Char.isWhitespace u = u :=
  strip_eq_self (plain.solid fun _ => not_isAlphanum_of_isWhitespace)

theorem Plain.normalizeSymbol {s : String} (plain : Plain s.toList) : normalizeSymbol s = s := by
  rw [normalizeSymbol_eq, plain.trimmed, plain.upper, String.ofList_toList]

theorem Plain.separators (plain : Plain u) : dropSeparators u = u := by
  have keeps : ∀ d : Char, ¬ d.isAlphanum → u.filter (· ≠ d) = u := by
    intro d separator
    rw [List.filter_eq_self]
    intro c within
    have other : c ≠ d := by
      rintro rfl
      exact separator (plain c within).1
    simpa using other
  rw [dropSeparators, keeps '/' (by decide), keeps '-' (by decide)]

theorem Plain.normalizeSymbolKey {s : String} (plain : Plain s.toList) :
    normalizeSymbolKey s = String.ofList (collapseUsdt s.toList) := by
  rw [TradingPlatform.normalizeSymbolKey, trim_toUpperCase, plain.normalizeSymbol, plain.separators]

theorem Plain.collapseUsdt (plain : Plain u) : Plain (collapseUsdt u) := by
  unfold TradingPlatform.collapseUsdt
  split_ifs
  · exact plain
  · exact Plain.append (fun c within => plain c (List.mem_of_mem_take within)) plain_usd
  · exact plain

theorem collapseUsdt_ne_nil (some : u ≠ []) : collapseUsdt u ≠ [] := by
  unfold collapseUsdt
  split_ifs
  · exact some
  · simp
  · exact some

/-- The gateway leaves such a symbol as it is. -/
theorem Plain.normalizeSubscriptionSymbol {s : String} (plain : Plain s.toList) (some : s ≠ "") :
    normalizeSubscriptionSymbol s = Option.some s := by
  have trimmed : (trim s).toList = strip Char.isWhitespace s.toList := String.toList_ofList
  have kept : s.toList.filter Char.isAlphanum = s.toList :=
    List.filter_eq_self.mpr fun c within => (plain c within).1
  simp only [TradingPlatform.normalizeSubscriptionSymbol, trimmed, plain.trimmed, kept, plain.upper,
    String.ofList_toList, if_neg some]

theorem Plain.asked {s : String} (plain : Plain s.toList) (some : s ≠ "") :
    TradingPlatform.normalizeSubscriptionSymbol (String.ofList (TradingPlatform.collapseUsdt s.toList)) =
      Option.some (String.ofList (TradingPlatform.collapseUsdt s.toList)) := by
  have letters : s.toList ≠ [] := fun none => some (String.toList_inj.mp none)
  apply Plain.normalizeSubscriptionSymbol
  · rw [String.toList_ofList]
    exact plain.collapseUsdt
  · exact fun none => collapseUsdt_ne_nil letters (String.ofList_injective none)

theorem plain_of_normalizeSubscriptionSymbol {s name : String}
    (accepted : normalizeSubscriptionSymbol s = some name) : Plain name.toList := by
  unfold normalizeSubscriptionSymbol at accepted
  dsimp only at accepted
  split_ifs at accepted
  rw [← Option.some.inj accepted, String.toList_ofList]
  intro c within
  obtain ⟨d, inKept, rfl⟩ := List.mem_map.mp within
  exact ⟨isAlphanum_toUpper (List.mem_filter.mp inKept).2, Char.toUpper_toUpper_eq_toUpper d⟩

theorem Plain.of_usdName (plain : Plain (usdName u)) : Plain u := by
  obtain ⟨rest, split, within⟩ := exists_trimUsdt u u.length
  have left : Plain (trimUsdt u u.length) := fun c inside =>
    plain c (List.mem_append.mpr (.inl inside))
  have right : Plain rest := fun c inside => plain_usdt c (within c inside)
  exact split ▸ left.append right

end Plain

end TradingPlatform
