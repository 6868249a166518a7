import TradingPlatform.Engine.CloseRequests
import TradingPlatform.Engine.TextsTrack

namespace TradingPlatform

open SignificantDigits (HasDigits)
open StepRuns

section Reading
variable {readers : DecimalReaders}

/-- Both parsers make the number of the text, or nothing of a missing field. -/
def ReadsAs (readers : DecimalReaders) (text : Option FieldText) (number : Option ℚ) : Prop :=
  text.bind (FieldText.parsed readers.fromStr) = number ∧ readers.exact text = number

theorem DecimalParser.luaToString_iff {parse : String → Option ℚ} (parser : DecimalParser parse)
    {x : ℚ} (digits : HasDigits 14 x) :
    parse (luaToString x) = some x ↔ SignificantDigits.InRange 14 x := by
  have chars : (luaToString x).toList = SignificantDigits.general 14 x := String.toList_ofList
  constructor
  · intro reads
    by_contra outside
    have exponent := SignificantDigits.e_mem_general digits outside
    rw [← chars] at exponent
    rw [parser.exponent _ exponent] at reads
    cases reads
  · intro inRange
    refine parser.plain _ x ?_ ?_
    · rw [chars]
      exact SignificantDigits.decimal_general digits inRange
    · have short := SignificantDigits.length_general_le digits inRange
      rw [← String.length_toList, chars]
      omega

/-- A text is read unless `tostring` made it of a number out of range. -/
theorem readsAs_iff (documented : readers.Documented) {text : Option FieldText}
    {number : Option ℚ} (stands : Option.Rel (FieldText.Stands readers) text number)
    (digits : ∀ x ∈ number, HasDigits 14 x) : ReadsAs readers text number ↔
      ∀ x, text = some (.tostring x) → SignificantDigits.InRange 14 x := by
  cases stands with
  | none =>
    refine iff_of_true ⟨rfl, rfl⟩ fun x made => ?_
    cases made
  | @some text x related =>
    have hasDigits := digits x rfl
    cases text with
    | passed text =>
      refine iff_of_true related fun y made => ?_
      cases made
    | tostring y =>
      cases related
      constructor
      · rintro reads z ⟨⟩
        exact (documented.fromStr.luaToString_iff hasDigits).mp reads.1
      · intro inRange
        have plain := inRange x rfl
        exact ⟨(documented.fromStr.luaToString_iff hasDigits).mpr plain,
          (documented.fromStrExact.luaToString_iff hasDigits).mpr plain⟩

theorem forall₂_readsAs_iff (documented : readers.Documented) {texts : List (Option FieldText)}
    {numbers : List (Option ℚ)}
    (stand : List.Forall₂ (Option.Rel (FieldText.Stands readers)) texts numbers)
    (digits : ∀ field ∈ numbers, ∀ x ∈ field, HasDigits 14 x) :
    List.Forall₂ (ReadsAs readers) texts numbers ↔
      ∀ text ∈ texts, ∀ x, text = some (.tostring x) → SignificantDigits.InRange 14 x := by
  induction stand with
  | nil => simp
  | cons stands _ ih =>
    obtain ⟨first, rest⟩ := List.forall_mem_cons.mp digits
    rw [List.forall₂_cons, List.forall_mem_cons, readsAs_iff documented stands first, ih rest]

theorem Tracks.read {texts : HashTexts} {fields : NumericFields ℚ}
    (tracks : Tracks readers texts fields) :
    List.Forall₂ (Option.Rel (FieldText.Stands readers)) texts.read fields.read :=
  .cons tracks.size <| .cons tracks.entryPrice <| .cons tracks.avgPrice <|
    .cons tracks.leverage <| .cons tracks.margin <| .cons tracks.marginFromCash <|
    .cons tracks.marginFromBonus <| .cons tracks.realizedPnl .nil

/-- A field that is there is read and not the one that stands in for it. -/
theorem ReadsAs.orElse {text other : Option FieldText} {number : Option ℚ}
    (reads : ReadsAs readers text number) (written : number.isSome) :
    readers.exact (text.orElse fun _ => other) = number := by
  cases text with
  | none =>
    rw [← reads.1] at written
    cases written
  | some text => exact reads.2

end Reading

namespace TextStore
variable {readers : DecimalReaders} {ts : TextStore}

/-- Every text is read as its number, and so the services report the numbers. -/
structure ReadBack (readers : DecimalReaders) (ts : TextStore) : Prop where
  parsed : ∀ p, ∀ h ∈ ts.store.hash p,
    List.Forall₂ (ReadsAs readers) (ts.texts p).read h.numbers.read
  replied : ∀ reply ∈ ts.reply, ∀ field ∈ reply.numbers,
    ReadsAs readers (field.map .tostring) field
  published : ∀ p statusOverride, ts.publishPositionUpdated readers p statusOverride =
    TradingPlatform.publishPositionUpdated ts.store p statusOverride
  aggregated : ∀ p, ∀ h ∈ ts.store.hash p, readers.positionAggregates (ts.texts p) =
    (h.margin.getD 0, h.realizedPnl.getD 0, h.size.getD 0)
  flipped : ∀ p, ∀ h ∈ ts.store.hash p, ∀ orderSize fillPrice eff,
    readers.flippedPosition (ts.texts p) orderSize fillPrice eff =
      (h.size.getD 0, h.entryPrice.getD 0, h.leverage.getD 0, h.margin.getD 0)
  netted : ∀ userId args result, ts.reply = some (.filled result) →
    ts.closedEventOfFill readers userId args result =
      TradingPlatform.closedEventOfFill ts.store userId args result
  closed : ∀ userId result, ts.reply = some (.closed result) →
    readers.closedEventOfReply userId result = TradingPlatform.closedEventOfReply userId result

/-- What `tostring` wrote to the hashes and to the reply is zero or of a magnitude
from 0.0001 up to and below 10 ^ 14. -/
structure InRange (ts : TextStore) : Prop where
  hash : ∀ p, ∀ h ∈ ts.store.hash p, ∀ text ∈ (ts.texts p).read, ∀ x,
    text = some (.tostring x) → SignificantDigits.InRange 14 x
  reply : ∀ reply ∈ ts.reply, ∀ field ∈ reply.numbers, ∀ x ∈ field,
    SignificantDigits.InRange 14 x

theorem Consistent.parsed_iff (documented : readers.Documented) (consistent : ts.Consistent readers)
    {p : PositionId} {h : PositionHash} (stored : ts.store.hash p = some h) :
    List.Forall₂ (ReadsAs readers) (ts.texts p).read h.numbers.read ↔
      ∀ text ∈ (ts.texts p).read, ∀ x, text = some (.tostring x) →
        SignificantDigits.InRange 14 x :=
  forall₂_readsAs_iff documented (consistent.track.of_stored stored).read
    (consistent.decimals.hash p h stored)

theorem Consistent.replied_iff (documented : readers.Documented) (consistent : ts.Consistent readers)
    {reply : ScriptReply} (replied : ts.reply = some reply) {field : Option ℚ}
    (listed : field ∈ reply.numbers) : ReadsAs readers (field.map .tostring) field ↔
      ∀ x ∈ field, SignificantDigits.InRange 14 x := by
  have stands : Option.Rel (FieldText.Stands readers) (field.map .tostring) field := by
    cases field with
    | none => exact .none
    | some x => exact .some rfl
  rw [readsAs_iff documented stands (consistent.decimals.reply reply replied field listed)]
  cases field with
  | none => simp
  | some x => simp

section Services
variable {p : PositionId} {h : PositionHash}

/-- The fields one by one, in the order of `NumericFields.read`. -/
theorem reads_of_parsed {texts : HashTexts} {fields : NumericFields ℚ}
    (parsed : List.Forall₂ (ReadsAs readers) texts.read fields.read) :
    ReadsAs readers texts.size fields.size ∧ ReadsAs readers texts.entryPrice fields.entryPrice ∧
      ReadsAs readers texts.avgPrice fields.avgPrice ∧
      ReadsAs readers texts.leverage fields.leverage ∧
      ReadsAs readers texts.margin fields.margin ∧
      ReadsAs readers texts.marginFromCash fields.marginFromCash ∧
      ReadsAs readers texts.marginFromBonus fields.marginFromBonus ∧
      ReadsAs readers texts.realizedPnl fields.realizedPnl := by
  simpa [NumericFields.read] using parsed

theorem published_eq (stored : ts.store.hash p = some h) (written : h.AllWritten)
    (parsed : List.Forall₂ (ReadsAs readers) (ts.texts p).read h.numbers.read)
    (statusOverride : Option PositionStatus) :
    ts.publishPositionUpdated readers p statusOverride =
      TradingPlatform.publishPositionUpdated ts.store p statusOverride := by
  obtain ⟨size, entry, avg, leverage, margin, cash, bonus, realized⟩ := reads_of_parsed parsed
  have stays : (h.avgPrice.orElse fun _ => h.entryPrice) = h.avgPrice := by
    obtain ⟨_, hasAvg⟩ := Option.isSome_iff_exists.mp written.avgPrice
    rw [hasAvg]
    rfl
  unfold publishPositionUpdated TradingPlatform.publishPositionUpdated
  simp only [stored, size.2, avg.orElse written.avgPrice, leverage.2, cash.2, bonus.2,
    realized.2, stays]
  rfl

theorem aggregated_eq
    (parsed : List.Forall₂ (ReadsAs readers) (ts.texts p).read h.numbers.read) :
    readers.positionAggregates (ts.texts p) =
      (h.margin.getD 0, h.realizedPnl.getD 0, h.size.getD 0) := by
  obtain ⟨size, -, -, -, margin, -, -, realized⟩ := reads_of_parsed parsed
  unfold DecimalReaders.positionAggregates
  dsimp only
  rw [size.1, margin.1, realized.1]
  rfl

theorem flipped_eq (written : h.AllWritten)
    (parsed : List.Forall₂ (ReadsAs readers) (ts.texts p).read h.numbers.read)
    (orderSize fillPrice eff : ℚ) :
    readers.flippedPosition (ts.texts p) orderSize fillPrice eff =
      (h.size.getD 0, h.entryPrice.getD 0, h.leverage.getD 0, h.margin.getD 0) := by
  obtain ⟨size, entry, -, leverage, margin, -, -, -⟩ := reads_of_parsed parsed
  obtain ⟨_, hasSize⟩ := Option.isSome_iff_exists.mp written.size
  obtain ⟨_, hasEntry⟩ := Option.isSome_iff_exists.mp written.entryPrice
  obtain ⟨_, hasLeverage⟩ := Option.isSome_iff_exists.mp written.leverage
  obtain ⟨_, hasMargin⟩ := Option.isSome_iff_exists.mp written.margin
  unfold DecimalReaders.flippedPosition
  rw [size.2, entry.orElse written.entryPrice, leverage.2, margin.2]
  simp only [PositionHash.numbers, hasSize, hasEntry, hasLeverage, hasMargin, Option.getD_some]

theorem netted_eq (track : TextsTrack readers ts.texts ts.store)
    (parsed : ∀ p, ∀ h ∈ ts.store.hash p,
      List.Forall₂ (ReadsAs readers) (ts.texts p).read h.numbers.read)
    {result : FillResult} (replied : ∀ field ∈ (ScriptReply.filled result).numbers,
      ReadsAs readers (field.map .tostring) field) (userId : UserId) (args : FillArgs) :
    ts.closedEventOfFill readers userId args result =
      TradingPlatform.closedEventOfFill ts.store userId args result := by
  have size := replied result.closedPositionSize (by simp [ScriptReply.numbers])
  have pnl := replied result.realizedPnl (by simp [ScriptReply.numbers])
  have margins (p : PositionId) :
      readers.exact (ts.texts p).marginFromCash =
        ((ts.store.hash p).getD {}).marginFromCash ∧
      readers.exact (ts.texts p).marginFromBonus =
        ((ts.store.hash p).getD {}).marginFromBonus := by
    cases stored : ts.store.hash p with
    | none =>
      have tracks := track p
      rw [stored] at tracks
      obtain ⟨-, -, -, -, -, cash, bonus, -, -⟩ := tracks
      generalize (ts.texts p).marginFromCash = cashText at cash
      generalize (ts.texts p).marginFromBonus = bonusText at bonus
      cases cash
      cases bonus
      exact ⟨rfl, rfl⟩
    | some h =>
      obtain ⟨-, -, -, -, -, cash, bonus, -⟩ := reads_of_parsed (parsed p h stored)
      exact ⟨cash.2, bonus.2⟩
  unfold closedEventOfFill TradingPlatform.closedEventOfFill
  refine congrArg (result.closedPositionId.map ·) (funext fun p => ?_)
  dsimp only
  rw [size.2, pnl.2, (margins p).1, (margins p).2]

theorem closed_eq {result : CloseResult} (replied : ∀ field ∈ (ScriptReply.closed result).numbers,
      ReadsAs readers (field.map .tostring) field) (userId : UserId) :
    readers.closedEventOfReply userId result =
      TradingPlatform.closedEventOfReply userId result := by
  have size := (replied (some result.closedSize) (by simp [ScriptReply.numbers])).2
  have pnl := (replied (some result.realizedPnl) (by simp [ScriptReply.numbers])).2
  have cash := (replied (some result.marginFromCash) (by simp [ScriptReply.numbers])).2
  have bonus := (replied (some result.marginFromBonus) (by simp [ScriptReply.numbers])).2
  rw [Option.map_some] at size pnl cash bonus
  unfold DecimalReaders.closedEventOfReply TradingPlatform.closedEventOfReply
  rw [size, pnl, cash, bonus]
  rfl

end Services

end TextStore

/-- After calls that are sent readable texts and leave decimals of at most 14
digits, everything is read back exactly when nothing that `tostring` wrote is out
of range. -/
theorem TextStore.readBack_iff {readers : DecimalReaders} (documented : readers.Documented)
    {sent : List SentCall} {ts : TextStore}
    (run : GuardedRun TextStore.step (TextStore.Exact readers) {} sent ts) :
    ts.ReadBack readers ↔ ts.InRange := by
  have consistent : ts.Consistent readers := run.invariant TextStore.consistent_empty
    fun _ _ _ exact taken before => before.step documented exact taken
  constructor
  · intro back
    refine ⟨fun p h stored => ?_, fun reply replied field listed => ?_⟩
    · exact (consistent.parsed_iff documented stored).mp (back.parsed p h stored)
    · exact (consistent.replied_iff documented replied listed).mp
        (back.replied reply replied field listed)
  · intro inRange
    have parsed : ∀ p, ∀ h ∈ ts.store.hash p,
        List.Forall₂ (ReadsAs readers) (ts.texts p).read h.numbers.read := fun p h stored =>
      (consistent.parsed_iff documented stored).mpr (inRange.hash p h stored)
    have replied : ∀ reply ∈ ts.reply, ∀ field ∈ reply.numbers,
        ReadsAs readers (field.map .tostring) field := fun reply replied field listed =>
      (consistent.replied_iff documented replied listed).mpr
        (inRange.reply reply replied field listed)
    refine ⟨parsed, replied, fun p statusOverride => ?_, fun p h stored =>
      TextStore.aggregated_eq (parsed p h stored), fun p h stored => TextStore.flipped_eq
      (consistent.written p h stored) (parsed p h stored), fun userId args result isReply =>
      TextStore.netted_eq consistent.track parsed (replied _ isReply) userId args,
      fun userId result isReply => TextStore.closed_eq (replied _ isReply) userId⟩
    cases stored : ts.store.hash p with
    | none =>
      simp [TextStore.publishPositionUpdated, TradingPlatform.publishPositionUpdated, stored]
    | some h =>
      exact TextStore.published_eq stored (consistent.written p h stored) (parsed p h stored)
        statusOverride

namespace SizeText

theorem unsigned_of_writes {text : List Char} {x : ℚ}
    (writes : SignificantDigits.Unsigned text x) : unsigned text = some x := by
  obtain ⟨whole, fraction, rfl, nonempty, digits, rfl⟩ := writes
  have wholeDigits : ∀ c ∈ whole, c.isDigit := fun c member =>
    digits c (List.mem_append_left _ member)
  have fractionDigits : ∀ c ∈ fraction, c.isDigit := fun c member =>
    digits c (List.mem_append_right _ member)
  have noDigit : (SignificantDigits.pointed fraction).takeWhile Char.isDigit = [] ∧
      (SignificantDigits.pointed fraction).dropWhile Char.isDigit =
        SignificantDigits.pointed fraction := by
    unfold SignificantDigits.pointed
    split_ifs
    · exact ⟨rfl, rfl⟩
    · exact ⟨rfl, rfl⟩
  have taken : (whole ++ SignificantDigits.pointed fraction).takeWhile Char.isDigit = whole := by
    rw [List.takeWhile_append_of_pos wholeDigits, noDigit.1, List.append_nil]
  have dropped : (whole ++ SignificantDigits.pointed fraction).dropWhile Char.isDigit =
      SignificantDigits.pointed fraction := by
    rw [List.dropWhile_append_of_pos wholeDigits, noDigit.2]
  have behind : (SignificantDigits.pointed fraction).drop 1 = fraction := by
    unfold SignificantDigits.pointed
    split_ifs with empty
    · rw [empty]
      rfl
    · rfl
  have pointed : SignificantDigits.pointed fraction = [] ∨
      (SignificantDigits.pointed fraction).head? = some '.' := by
    unfold SignificantDigits.pointed
    split_ifs <;> simp
  have all : fraction.all Char.isDigit := by simpa using fractionDigits
  unfold unsigned
  rw [taken, dropped, behind, if_pos ⟨pointed, all, by simp [nonempty]⟩]
  rfl

theorem unsigned_of_e {text : List Char} (exponent : 'e' ∈ text) : unsigned text = none := by
  unfold unsigned
  refine if_neg ?_
  rintro ⟨pointed, digits, -⟩
  rw [← List.takeWhile_append_dropWhile (p := Char.isDigit) (l := text)] at exponent
  rcases List.mem_append.mp exponent with whole | rest
  · exact absurd (List.mem_takeWhile_imp whole) (by decide)
  · generalize text.dropWhile Char.isDigit = behind at *
    cases behind with
    | nil => cases rest
    | cons c fraction =>
      rcases pointed with none | point
      · cases none
      · cases Option.some.inj point
        rcases List.mem_cons.mp rest with same | later
        · cases same
        · have digit := List.all_eq_true.mp digits 'e' later
          cases digit

theorem number_of_decimal {text : String} {x : ℚ}
    (decimal : SignificantDigits.Decimal text.toList x) : number text = some x := by
  unfold number
  generalize text.toList = chars at decimal
  cases decimal with
  | unsigned writes =>
    have read := unsigned_of_writes writes
    obtain ⟨whole, fraction, rfl, nonempty, digits, -⟩ := writes
    obtain ⟨c, rest, rfl⟩ := List.exists_cons_of_ne_nil nonempty
    have digit := digits c (by simp)
    have notMinus : c ≠ '-' := by
      rintro rfl
      cases digit
    have notPlus : c ≠ '+' := by
      rintro rfl
      cases digit
    simpa [notMinus, notPlus] using read
  | @negative text x writes =>
    have read := unsigned_of_writes writes
    simp [read]

theorem decimalParser_number : DecimalParser number where
  plain _ _ decimal _ := number_of_decimal decimal
  exponent text inText := by
    unfold number
    split_ifs with minus plus
    · obtain ⟨rest, chars⟩ := List.head?_eq_some_iff.mp minus
      rw [chars] at inText ⊢
      have later : 'e' ∈ rest := by simpa using inText
      simp [unsigned_of_e later]
    · obtain ⟨rest, chars⟩ := List.head?_eq_some_iff.mp plus
      rw [chars] at inText ⊢
      have later : 'e' ∈ rest := by simpa using inText
      simpa using unsigned_of_e later
    · exact unsigned_of_e inText

end SizeText

/-- Parsers that read what is a plain decimal and nothing else. -/
def plainReaders : DecimalReaders := ⟨SizeText.number, SizeText.number⟩

theorem documented_plainReaders : plainReaders.Documented :=
  ⟨SizeText.decimalParser_number, SizeText.decimalParser_number⟩

section Runs

/-- A number of at most eight decimals that fits into 14 digits. -/
def EightDecimals (x : ℚ) : Prop := (x * 10 ^ 8).den = 1 ∧ |(x * 10 ^ 8).num| < 10 ^ 14

instance (x : ℚ) : Decidable (EightDecimals x) := inferInstanceAs (Decidable (_ ∧ _))

theorem EightDecimals.hasDigits {x : ℚ} (eightDecimals : EightDecimals x) : HasDigits 14 x := by
  obtain ⟨whole, bound⟩ := eightDecimals
  refine ⟨(x * 10 ^ 8).num, -8, bound, ?_⟩
  rw [Rat.coe_int_num_of_den_eq_one whole, mul_assoc]
  norm_num

instance (text : String) (x : ℚ) : Decidable (plainReaders.Reads text x) :=
  inferInstanceAs (Decidable (SizeText.number text = some x ∧ SizeText.number text = some x))

instance (override : Option ℚ) (text : String) :
    Decidable (OverrideSent plainReaders override text) :=
  inferInstanceAs (Decidable (∀ x ∈ override, 0 < x → plainReaders.Reads text x))

instance : (sent : SentCall) → Decidable (sent.Sent plainReaders)
  | ⟨.placeOrder .., _, _⟩ => inferInstanceAs (Decidable True)
  | ⟨.atomicFillOrder args _ _, sizeText, priceText⟩ => inferInstanceAs (Decidable
      (plainReaders.Reads sizeText args.fillSize ∧ plainReaders.Reads priceText args.fillPrice))
  | ⟨.atomicCancelOrder .., _, _⟩ => inferInstanceAs (Decidable True)
  | ⟨.atomicClosePosition .., _, _⟩ => inferInstanceAs (Decidable True)
  | ⟨.atomicReopenPosition .., _, _⟩ => inferInstanceAs (Decidable True)
  | ⟨.atomicReopenPositionWithParams _ _ params, sizeText, priceText⟩ => inferInstanceAs
      (Decidable (OverrideSent plainReaders params.size sizeText ∧
        OverrideSent plainReaders params.entryPrice priceText))
  | ⟨.atomicUpdatePositionParams _ _ params, sizeText, priceText⟩ => inferInstanceAs
      (Decidable (OverrideSent plainReaders params.size sizeText ∧
        OverrideSent plainReaders params.entryPrice priceText))

/-- Every number in the store and the reply has at most eight decimals. -/
def TextStore.Short (ts : TextStore) : Prop :=
  (∀ row ∈ ts.store.positions.entries, ∀ field ∈ row.2.numbers.read, ∀ x ∈ field, EightDecimals x) ∧
    ∀ reply ∈ ts.reply, ∀ field ∈ reply.numbers, ∀ x ∈ field, EightDecimals x

instance (ts : TextStore) : Decidable ts.Short := inferInstanceAs (Decidable (_ ∧ _))

theorem TextStore.Short.decimals {ts : TextStore} (short : ts.Short) : ts.Decimals where
  hash p h stored field listed x given :=
    (short.1 ⟨p, h⟩ (AList.mem_lookup_iff.mp stored) field listed x given).hasDigits
  reply reply replied field listed x given :=
    (short.2 reply replied field listed x given).hasDigits

def TextStore.StaysShort (ts : TextStore) (sent : SentCall) : Prop :=
  sent.Sent plainReaders ∧ ∀ after ∈ ts.step sent, after.Short

instance (ts : TextStore) (sent : SentCall) : Decidable (ts.StaysShort sent) :=
  inferInstanceAs (Decidable (_ ∧ _))

theorem TextStore.StaysShort.exact {ts : TextStore} {sent : SentCall}
    (stays : ts.StaysShort sent) : ts.Exact plainReaders sent :=
  ⟨stays.1, fun after taken => (stays.2 after taken).decimals⟩

def coinOrder (size : ℚ) : Order :=
  { id := 1, userId := 7, symbol := "BTCUSD", side := .BUY, orderType := .MARKET, size := size
    stopLoss := .absent, takeProfit := .absent }

/-- A position of this size at 50000, and a close of a part of it at 50000. -/
def coinCalls (size closeSize : ℚ) (sizeText : String) : List SentCall :=
  [⟨.placeOrder 1 (coinOrder size), "", ""⟩,
   ⟨.atomicFillOrder ⟨1, 50000, size, 1000, .uuid 1, some 100⟩ [] [], sizeText, "50000"⟩,
   ⟨.atomicClosePosition ⟨.uuid 1, 50000, closeSize, 2000, false⟩, "", ""⟩]

/-- What is left of 0.00021 after a close of 0.0002 is published as a size of zero. -/
theorem TextStore.not_readBack_tiny : ∃ ts, GuardedRun TextStore.step
    (TextStore.Exact plainReaders) {} (coinCalls (21 / 100000) (2 / 10000) "0.00021") ts ∧
    ¬ ts.ReadBack plainReaders := by
  have evaluates : (runGuarded TextStore.step TextStore.StaysShort {}
      (coinCalls (21 / 100000) (2 / 10000) "0.00021")).map (fun ts =>
        ((ts.publishPositionUpdated plainReaders (.uuid 1) none).map (·.size),
          (TradingPlatform.publishPositionUpdated ts.store (.uuid 1) none).map (·.size))) =
      some (some 0, some (1 / 100000)) := by decide +kernel
  obtain ⟨ts, reached, sizes⟩ := Option.map_eq_some_iff.mp evaluates
  have run := GuardedRun.of_eval reached
  refine ⟨ts, run.weaken fun _ _ stays => stays.exact, fun back => ?_⟩
  obtain ⟨text, number⟩ := Prod.mk.inj sizes
  rw [back.published, number] at text
  exact absurd text (by decide +kernel)

/-- A close of half of it leaves a position and a reply that are read back. -/
theorem TextStore.readBack_iff_halved : ∃ ts, GuardedRun TextStore.step
    (TextStore.Exact plainReaders) {} (coinCalls (1 / 2) (1 / 4) "0.50") ts ∧
    ts.ReadBack plainReaders := by
  have evaluates : (runGuarded TextStore.step TextStore.StaysShort {}
      (coinCalls (1 / 2) (1 / 4) "0.50")).map (fun ts =>
        (ts.store.positions.keys, (ts.texts (.uuid 1)).read, ts.reply.map (·.numbers))) =
      some ([.uuid 1], [some (.tostring (1 / 4)), some (.passed "50000"), some (.passed "50000"),
        some (.tostring 100), some (.tostring 250), some (.tostring 125), some (.tostring 0),
        some (.tostring 0)], some [some (1 / 4), some 0, some 125, some 0]) := by decide +kernel
  obtain ⟨ts, reached, reads⟩ := Option.map_eq_some_iff.mp evaluates
  have run : GuardedRun TextStore.step (TextStore.Exact plainReaders) {}
      (coinCalls (1 / 2) (1 / 4) "0.50") ts :=
    (GuardedRun.of_eval reached).weaken fun _ _ stays => stays.exact
  obtain ⟨keys, texts, answer⟩ := by simpa only [Prod.mk.injEq] using reads
  refine ⟨ts, run, (TextStore.readBack_iff documented_plainReaders run).mpr
    ⟨fun p h stored => ?_, fun reply replied => ?_⟩⟩
  · have listed : p ∈ ts.store.positions.keys :=
      AList.mem_keys.mp (AList.lookup_isSome.mp (Option.isSome_of_mem stored))
    rw [keys, List.mem_singleton] at listed
    subst listed
    rw [texts]
    simp [SignificantDigits.InRange]
    norm_num
  · obtain ⟨same, answered, numbers⟩ := Option.map_eq_some_iff.mp answer
    cases Option.some.inj (answered.symm.trans replied)
    rw [numbers]
    simp [SignificantDigits.InRange]
    norm_num

end Runs

end TradingPlatform
