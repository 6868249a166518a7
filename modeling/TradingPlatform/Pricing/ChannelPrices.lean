import TradingPlatform.Pricing.Markup
import Mathlib.Tactic.FieldSimp
import Mathlib.Tactic.Linarith
import Mathlib.Tactic.Ring

namespace TradingPlatform

variable {redis : String → Option MarkupConfig} {symbol g : String} {quote : Quote}

/-- The percentages of a group; none are zero. -/
def percentages (redis : String → Option MarkupConfig) (symbol g : String) : MarkupConfig :=
  (redis (markupKey symbol g)).getD ⟨0, 0⟩

/-- The marked-up price of a group. -/
def markedUp (redis : String → Option MarkupConfig) (symbol g : String) (quote : Quote) : Quote :=
  ⟨quote.bid * (1 + (percentages redis symbol g).bidMarkup / 100),
    quote.ask * (1 + (percentages redis symbol g).askMarkup / 100)⟩

/-- A percentage that `Decimal` can hold as a fraction. -/
def Representable (markup : MarkupConfig) : Prop :=
  |markup.bidMarkup / 100| ≤ decimalMax ∧ |markup.askMarkup / 100| ≤ decimalMax

instance (markup : MarkupConfig) : Decidable (Representable markup) :=
  inferInstanceAs (Decidable (_ ∧ _))

theorem decimalFromF64_zero : decimalFromF64 (0 / 100) = some 0 := by
  unfold decimalFromF64 decimalMax
  norm_num

theorem applyMarkup_representable
    (representable : Representable (percentages redis symbol g)) (quote : Quote) :
    applyMarkup (getMarkup redis symbol g) quote = some (markedUp redis symbol g quote) := by
  unfold applyMarkup getMarkup markedUp
  unfold percentages at representable ⊢
  cases stored : redis (markupKey symbol g) with
  | none => simp
  | some markup =>
    rw [stored] at representable
    simp only [Option.getD_some] at representable ⊢
    rw [decimalFromF64, decimalFromF64, if_pos representable.1, if_pos representable.2]

theorem applyMarkup_unrepresentable
    (unrepresentable : ¬Representable (percentages redis symbol g)) (quote : Quote) :
    applyMarkup (getMarkup redis symbol g) quote = none := by
  unfold applyMarkup getMarkup
  unfold percentages at unrepresentable
  cases stored : redis (markupKey symbol g) with
  | none =>
    rw [stored] at unrepresentable
    refine absurd ?_ unrepresentable
    unfold Representable decimalMax
    norm_num
  | some markup =>
    rw [stored] at unrepresentable
    simp only [Option.getD_some] at unrepresentable ⊢
    unfold decimalFromF64
    by_cases bid : |markup.bidMarkup / 100| ≤ decimalMax
    · rw [if_pos bid, if_neg fun ask => unrepresentable ⟨bid, ask⟩]
    · rw [if_neg bid]

/-- Every channel gets the price of the group, the room after it has been
normalised, and no channel goes without it. -/
structure SameOnAllChannels (published : List (PriceChannel × Quote)) (symbol g : String)
    (price : Quote) : Prop where
  array : ∀ p, (.arrayEntry symbol g, p) ∈ published ↔ p = price
  subject : ∀ p, (.groupSubject symbol g, p) ∈ published ↔ p = price
  room : ∀ p, (.groupRoom g symbol, p) ∈ published ↔ normalizePrice price = some p
  onAll : ∃ p, (.groupRoom g symbol, p) ∈ published

/-- The marked-up spread is open, and a second markup changes nothing. -/
def MarkupOnce (redis : String → Option MarkupConfig) (symbol g : String) (quote : Quote) : Prop :=
  Representable (percentages redis symbol g) ∧
  ∃ normalized, normalizePrice (markedUp redis symbol g quote) = some normalized ∧
    ((percentages redis symbol g).bidMarkup = 0 ∨ normalized.bid = 0) ∧
    ((percentages redis symbol g).askMarkup = 0 ∨ normalized.ask = 0)

section Membership
variable {read : String → MarkupRead} {groups : List String} {p : Quote} {channel : PriceChannel}

theorem broadcastPrice_group (g : String) (quote p : Quote) :
    broadcastPrice read symbol (some g) quote = some (channel, p) ↔
      ∃ normalized, normalizePrice quote = some normalized ∧
        applyMarkup (read g) normalized = some p ∧ channel = .groupRoom g symbol := by
  unfold broadcastPrice
  cases normal : normalizePrice quote with
  | none => simp
  | some normalized =>
    cases final : applyMarkup (read g) normalized with
    | none => simp [final]
    | some price => simp [final, and_comm, eq_comm]

theorem broadcastPrice_symbol (quote p : Quote) :
    broadcastPrice read symbol none quote = some (channel, p) ↔
      normalizePrice quote = some p ∧ channel = .symbolRoom symbol := by
  unfold broadcastPrice
  cases normal : normalizePrice quote with
  | none => simp
  | some normalized => simp [and_comm, eq_comm]

theorem mem_publishQuote (present : groups ≠ []) :
    (channel, p) ∈ publishQuote read symbol groups quote ↔
      (∃ g ∈ groups, ∃ normalized, normalizePrice (groupPrice read g quote) = some normalized ∧
        applyMarkup (read g) normalized = some p ∧ channel = .groupRoom g symbol) ∨
      (normalizePrice quote = some p ∧ channel = .symbolRoom symbol) ∨
      (∃ g ∈ groups, .arrayEntry symbol g = channel ∧ groupPrice read g quote = p) ∨
      ∃ g ∈ groups, .groupSubject symbol g = channel ∧ groupPrice read g quote = p := by
  unfold publishQuote
  rw [if_neg present, if_neg present]
  simp only [List.mem_append, List.mem_filterMap, broadcastPrice_group, Option.mem_toList,
    broadcastPrice_symbol, List.mem_map, Prod.mk.injEq, or_assoc]

theorem mem_array (member : g ∈ groups) :
    (.arrayEntry symbol g, p) ∈ publishQuote read symbol groups quote ↔
      p = groupPrice read g quote := by
  rw [mem_publishQuote (List.ne_nil_of_mem member)]
  constructor
  · rintro (⟨_, _, _, _, _, same⟩ | ⟨_, same⟩ | ⟨_, _, same, price⟩ | ⟨_, _, same, _⟩)
    · cases same
    · cases same
    · cases same
      exact price.symm
    · cases same
  · intro price
    exact .inr (.inr (.inl ⟨g, member, rfl, price.symm⟩))

theorem mem_subject (member : g ∈ groups) :
    (.groupSubject symbol g, p) ∈ publishQuote read symbol groups quote ↔
      p = groupPrice read g quote := by
  rw [mem_publishQuote (List.ne_nil_of_mem member)]
  constructor
  · rintro (⟨_, _, _, _, _, same⟩ | ⟨_, same⟩ | ⟨_, _, same, _⟩ | ⟨_, _, same, price⟩)
    · cases same
    · cases same
    · cases same
    · cases same
      exact price.symm
  · intro price
    exact .inr (.inr (.inr ⟨g, member, rfl, price.symm⟩))

theorem mem_room (member : g ∈ groups) :
    (.groupRoom g symbol, p) ∈ publishQuote read symbol groups quote ↔
      ∃ normalized, normalizePrice (groupPrice read g quote) = some normalized ∧
        applyMarkup (read g) normalized = some p := by
  rw [mem_publishQuote (List.ne_nil_of_mem member)]
  constructor
  · rintro (⟨_, _, normalized, normal, final, same⟩ | ⟨_, same⟩ | ⟨_, _, same, _⟩ | ⟨_, _, same, _⟩)
    · cases same
      exact ⟨normalized, normal, final⟩
    · cases same
    · cases same
    · cases same
  · rintro ⟨normalized, normal, final⟩
    exact .inl ⟨g, member, normalized, normal, final, rfl⟩

end Membership

/-- A markup leaves a side alone when its percentage or the price is zero. -/
theorem markedSide_eq_iff {price percentage : ℚ} :
    price * (1 + percentage / 100) = price ↔ percentage = 0 ∨ price = 0 := by
  constructor
  · intro same
    have product : price * percentage = 0 := by linarith
    rcases mul_eq_zero.mp product with zero | zero
    · exact .inr zero
    · exact .inl zero
  · rintro (zero | zero)
    · rw [zero]
      ring
    · rw [zero, zero_mul]

theorem markedUp_eq_iff {price : Quote} : markedUp redis symbol g price = price ↔
    ((percentages redis symbol g).bidMarkup = 0 ∨ price.bid = 0) ∧
      ((percentages redis symbol g).askMarkup = 0 ∨ price.ask = 0) := by
  rw [← markedSide_eq_iff, ← markedSide_eq_iff]
  constructor
  · intro same
    exact ⟨congrArg Quote.bid same, congrArg Quote.ask same⟩
  · rintro ⟨bid, ask⟩
    unfold markedUp
    rw [bid, ask]

/-- A quote whose markup cannot be read as a decimal is published raw. -/
theorem groupPrice_eq_markedUp_iff (positive : 0 < quote.bid) (ordered : quote.bid < quote.ask) :
    groupPrice (getMarkup redis symbol) g quote = markedUp redis symbol g quote ↔
      Representable (percentages redis symbol g) := by
  constructor
  · intro same
    by_contra unrepresentable
    rw [groupPrice, applyMarkup_unrepresentable unrepresentable, Option.getD_none] at same
    obtain ⟨bid, ask⟩ := markedUp_eq_iff.mp same.symm
    have noBid := bid.resolve_right positive.ne'
    have noAsk := ask.resolve_right (positive.trans ordered).ne'
    refine unrepresentable ?_
    rw [Representable, noBid, noAsk, decimalMax]
    norm_num
  · intro representable
    rw [groupPrice, applyMarkup_representable representable, Option.getD_some]

theorem sameOnAllChannels_iff {groups : List String} (member : g ∈ groups)
    (positive : 0 < quote.bid) (ordered : quote.bid < quote.ask) :
    SameOnAllChannels (publishQuote (getMarkup redis symbol) symbol groups quote) symbol g
      (markedUp redis symbol g quote) ↔ MarkupOnce redis symbol g quote := by
  have price : groupPrice (getMarkup redis symbol) g quote = markedUp redis symbol g quote ↔
      Representable (percentages redis symbol g) := groupPrice_eq_markedUp_iff positive ordered
  constructor
  · rintro ⟨array, subject, room, p, onRoom⟩
    have marked : groupPrice (getMarkup redis symbol) g quote = markedUp redis symbol g quote :=
      (array _).mp ((mem_array member).mpr rfl)
    have representable := price.mp marked
    have normal := (room p).mp onRoom
    obtain ⟨normalized, normal', final⟩ := (mem_room member).mp onRoom
    rw [marked, normal] at normal'
    cases normal'
    rw [applyMarkup_representable representable] at final
    exact ⟨representable, p, normal, markedUp_eq_iff.mp (Option.some.inj final)⟩
  · rintro ⟨representable, normalized, normal, zero⟩
    have marked := price.mpr representable
    have twice : applyMarkup (getMarkup redis symbol g) normalized = some normalized := by
      rw [applyMarkup_representable representable, markedUp_eq_iff.mpr zero]
    have room : ∀ p, (.groupRoom g symbol, p) ∈
        publishQuote (getMarkup redis symbol) symbol groups quote ↔
          normalizePrice (markedUp redis symbol g quote) = some p := by
      intro p
      rw [mem_room member, marked, normal]
      constructor
      · rintro ⟨_, same, final⟩
        cases same
        rw [twice] at final
        exact final
      · intro same
        cases same
        exact ⟨normalized, rfl, twice⟩
    refine ⟨fun p => ?_, fun p => ?_, room, normalized, (room normalized).mpr normal⟩
    · rw [mem_array member, marked]
    · rw [mem_subject member, marked]

/-- All channels publish the marked-up price of every group exactly when the
markup that the rooms apply a second time changes nothing. -/
theorem channels_agree_iff {groups : List String} (positive : 0 < quote.bid)
    (ordered : quote.bid < quote.ask) :
    (∀ g ∈ groups, SameOnAllChannels
      (publishQuote (getMarkup redis symbol) symbol groups quote) symbol g
      (markedUp redis symbol g quote)) ↔ ∀ g ∈ groups, MarkupOnce redis symbol g quote := by
  constructor
  · intro agree g member
    exact (sameOnAllChannels_iff member positive ordered).mp (agree g member)
  · intro once g member
    exact (sameOnAllChannels_iff member positive ordered).mpr (once g member)

theorem channels_agree_unmarked : SameOnAllChannels
    (publishQuote (getMarkup (fun _ => none) "EURUSD") "EURUSD" ["gold", "silver"] ⟨100, 101⟩)
    "EURUSD" "silver" (markedUp (fun _ => none) "EURUSD" "silver" ⟨100, 101⟩) := by
  have unmarked : ∀ g ∈ ["gold", "silver"], MarkupOnce (fun _ => none) "EURUSD" g ⟨100, 101⟩ := by
    refine fun g _ => ⟨?_, ⟨100, 101⟩, ?_, .inl rfl, .inl rfl⟩
    · rw [Representable, percentages, decimalMax]
      norm_num
    · rw [markedUp, percentages]
      decide +kernel
  exact (channels_agree_iff (by norm_num) (by norm_num)).mpr unmarked "silver" (by simp)

/-- With a markup of one percent the room gets two. -/
theorem room_markedTwice : ¬∀ g ∈ ["gold"], SameOnAllChannels
    (publishQuote (getMarkup (fun _ => some ⟨1, 1⟩) "EURUSD") "EURUSD" ["gold"] ⟨100, 101⟩)
    "EURUSD" g (markedUp (fun _ => some ⟨1, 1⟩) "EURUSD" g ⟨100, 101⟩) := by
  intro agree
  have room := (agree "gold" List.mem_cons_self).room ⟨10201 / 100, 1030301 / 10000⟩
  have published : (.groupRoom "gold" "EURUSD", ⟨10201 / 100, 1030301 / 10000⟩) ∈
      publishQuote (getMarkup (fun _ => some ⟨1, 1⟩) "EURUSD") "EURUSD" ["gold"] ⟨100, 101⟩ := by
    decide +kernel
  have other : normalizePrice (markedUp (fun _ => some ⟨1, 1⟩) "EURUSD" "gold" ⟨100, 101⟩) ≠
      some ⟨10201 / 100, 1030301 / 10000⟩ := by decide +kernel
  exact other (room.mp published)

end TradingPlatform
