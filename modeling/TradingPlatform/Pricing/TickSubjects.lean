import TradingPlatform.Pricing.SymbolRouting

namespace TradingPlatform

/-- The subject that the price loop publishes to, `ticks.SYMBOL.GROUP` for a
price group and `ticks.SYMBOL` when there is none. -/
def publishedSubject (symbol : Symbol) : Option GroupId → String
  | none => ticksPrefix ++ symbol
  | some groupId => ticksPrefix ++ symbol ++ "." ++ groupId

/-- The price loop's subjects against what `handle_tick` makes of them. -/
structure DecodedAsEncoded (symbols : Set Symbol) (groups : Set GroupId) : Prop where
  group : ∀ symbol ∈ symbols, ∀ groupId ∈ groups,
    filedTick (publishedSubject symbol (some groupId)) =
      some (normalizeSymbol symbol, some groupId)
  globally : ∀ symbol ∈ symbols,
    filedTick (publishedSubject symbol none) = some (normalizeSymbol symbol, none)
  apart : ∀ symbol ∈ symbols, ∀ symbol' ∈ symbols, ∀ groupId groupId' : Option GroupId,
    (∀ g ∈ groupId, g ∈ groups) → (∀ g ∈ groupId', g ∈ groups) →
      publishedSubject symbol groupId = publishedSubject symbol' groupId' →
        symbol = symbol' ∧ groupId = groupId'

section Dots
variable {symbol p q : Symbol} {groupId : GroupId}

theorem toUpper_eq_dot {c : Char} : c.toUpper = '.' ↔ c = '.' := by
  constructor
  · intro dot
    by_cases lower : c.isLower
    · have letter : c.toUpper.isAlpha := by
        rw [Char.isAlpha_toUpper_eq_isAlpha]
        simp [Char.isAlpha, lower]
      rw [dot] at letter
      exact absurd letter (by decide)
    · rwa [Char.toUpper_eq_of_not_isLower lower] at dot
  · rintro rfl
    rfl

/-- Neither trimming nor upper-casing touches a dot. -/
theorem dot_mem_normalizeSymbol :
    '.' ∈ (normalizeSymbol symbol).toList ↔ '.' ∈ symbol.toList := by
  obtain ⟨before, after, padded, first, last⟩ := exists_strip Char.isWhitespace symbol.toList
  have solid : ¬ Char.isWhitespace '.' := by decide
  have noneBefore : '.' ∉ before := fun dot => solid (first _ dot)
  have noneAfter : '.' ∉ after := fun dot => solid (last _ dot)
  rw [toList_normalizeSymbol]
  conv_rhs => rw [padded]
  simp [toUpper_eq_dot, noneBefore, noneAfter]

theorem dot_mem_dropLast (nonempty : q ≠ "") : '.' ∈ (p ++ "." ++ q).toList.dropLast := by
  have after : q.toList ≠ [] := fun empty => nonempty (String.toList_inj.mp empty)
  have letters : (p ++ "." ++ q).toList = p.toList ++ ('.' :: q.toList) := by simp
  rw [letters, List.dropLast_append_of_ne_nil (List.cons_ne_nil _ _),
    List.dropLast_cons_of_ne_nil after]
  simp

/-- The parser never answers the empty group. -/
theorem filedTick_ne_empty {subject : String} {filed : Symbol} :
    filedTick subject ≠ some (filed, some "") := by
  unfold filedTick parseTickSubjectPerGroup
  cases stripTicksPrefix subject with
  | none => simp [parseSymbolFromTickSubject]
  | some rest =>
    simp only [Option.bind_some]
    cases rest.dropWhile (· ≠ '.') with
    | nil => simp
    | cons dot groupId =>
      by_cases empty : groupId = []
      · simp [empty]
      · have letters : String.ofList groupId ≠ "" := fun same => empty (by
          rw [← String.toList_ofList (l := groupId), same]
          rfl)
        simp [empty, letters]

end Dots

section Subjects
variable {symbol symbol' : Symbol} {groupId groupId' : GroupId}

theorem publishedSubject_none : publishedSubject symbol none = tickSubject symbol "" := rfl

theorem publishedSubject_some (nonempty : groupId ≠ "") :
    publishedSubject symbol (some groupId) = tickSubject symbol groupId := by
  rw [publishedSubject, tickSubject, if_neg nonempty]

theorem filedTick_group_iff : filedTick (publishedSubject symbol (some groupId)) =
    some (normalizeSymbol symbol, some groupId) ↔ '.' ∉ symbol.toList ∧ groupId ≠ "" := by
  constructor
  · intro decoded
    have nonempty : groupId ≠ "" := by
      rintro rfl
      exact filedTick_ne_empty decoded
    refine ⟨fun dot => ?_, nonempty⟩
    obtain ⟨p, q, rfl, noDot⟩ := exists_dot dot
    rw [publishedSubject_some nonempty, filedTick_dot noDot nonempty, Option.some.injEq,
      Prod.mk.injEq] at decoded
    have dotLater := dot_mem_normalizeSymbol.mpr dot
    rw [← decoded.1] at dotLater
    exact noDot (dot_mem_normalizeSymbol.mp dotLater)
  · rintro ⟨noDot, nonempty⟩
    rw [publishedSubject_some nonempty, filedTick_noDot noDot, if_neg nonempty]

theorem filedTick_global_iff : filedTick (publishedSubject symbol none) =
    some (normalizeSymbol symbol, none) ↔ '.' ∉ symbol.toList.dropLast := by
  by_cases dot : '.' ∈ symbol.toList
  · obtain ⟨p, q, rfl, noDot⟩ := exists_dot dot
    rw [publishedSubject_none, filedTick_global noDot]
    by_cases empty : q = ""
    · subst empty
      have letters : (p ++ "." ++ "").toList = p.toList ++ ['.'] := by simp
      simpa [letters] using noDot
    · have earlier := dot_mem_dropLast (p := p) empty
      rw [if_neg empty]
      exact ⟨fun decoded => absurd (congrArg Prod.snd (Option.some.inj decoded)) (by simp),
        fun none => absurd earlier none⟩
  · have noEarlier : '.' ∉ symbol.toList.dropLast := fun earlier =>
      dot (List.dropLast_subset _ earlier)
    rw [publishedSubject_none, filedTick_noDot dot, if_pos rfl]
    simp [noEarlier]

theorem publishedSubject_global_ne (noDot : '.' ∉ symbol.toList) :
    publishedSubject symbol none ≠ publishedSubject symbol' (some groupId) := by
  intro same
  have letters := congrArg String.toList same
  simp only [publishedSubject, String.toList_append, List.append_assoc,
    List.append_cancel_left_eq] at letters
  refine noDot ?_
  rw [letters]
  simp

theorem publishedSubject_group_inj (noDot : '.' ∉ symbol.toList) (noDot' : '.' ∉ symbol'.toList)
    (nonempty : groupId ≠ "")
    (same : publishedSubject symbol (some groupId) = publishedSubject symbol' (some groupId')) :
    symbol = symbol' ∧ groupId = groupId' := by
  have parsed := congrArg parseTickSubjectPerGroup same
  have split : ∀ s g : String, publishedSubject s (some g) = ticksPrefix ++ (s ++ "." ++ g) :=
    fun s g => by simp only [publishedSubject, String.append_assoc]
  rw [split, split, parseTickSubjectPerGroup_dot noDot, parseTickSubjectPerGroup_dot noDot',
    if_neg nonempty] at parsed
  split_ifs at parsed
  exact Prod.mk.inj (Option.some.inj parsed)

end Subjects

/-- The dot of a symbol is taken for the dot before a group. -/
theorem decodedAsEncoded_iff (symbols : Set Symbol) (groups : Set GroupId) :
    DecodedAsEncoded symbols groups ↔ ∀ symbol ∈ symbols, '.' ∉ symbol.toList.dropLast ∧
      ∀ groupId ∈ groups, '.' ∉ symbol.toList ∧ groupId ≠ "" := by
  constructor
  · intro decoded symbol published
    exact ⟨filedTick_global_iff.mp (decoded.globally symbol published),
      fun groupId isGroup => filedTick_group_iff.mp (decoded.group symbol published groupId isGroup)⟩
  · intro dotless
    refine ⟨fun symbol published groupId isGroup =>
        filedTick_group_iff.mpr ((dotless symbol published).2 groupId isGroup),
      fun symbol published => filedTick_global_iff.mpr (dotless symbol published).1, ?_⟩
    intro symbol published symbol' published' groupId groupId' known known' same
    cases groupId with
    | none =>
      cases groupId' with
      | none =>
        refine ⟨?_, rfl⟩
        have letters := congrArg String.toList same
        simp only [publishedSubject, String.toList_append, List.append_cancel_left_eq] at letters
        exact String.toList_inj.mp letters
      | some g' =>
        have noDot := ((dotless symbol published).2 g' (known' g' rfl)).1
        exact absurd same (publishedSubject_global_ne noDot)
    | some g =>
      obtain ⟨noDot, nonempty⟩ := (dotless symbol published).2 g (known g rfl)
      have noDot' := ((dotless symbol' published').2 g (known g rfl)).1
      cases groupId' with
      | none => exact absurd same.symm (publishedSubject_global_ne noDot')
      | some g' =>
        obtain ⟨sameSymbol, sameGroup⟩ := publishedSubject_group_inj noDot noDot' nonempty same
        exact ⟨sameSymbol, congrArg some sameGroup⟩

/-- The share class of a code is taken for a price group. -/
theorem not_decodedAsEncoded_dotted :
    (⟨"brk.b", none, some "Stocks", "USD"⟩ : CatalogRow).feedSymbol = some "BRK.B" ∧
    filedTick (publishedSubject "BRK.B" none) = some ("BRK", some "B") ∧
    filedTick (publishedSubject "BRK.B" (some "g")) = some ("BRK", some "B.g") ∧
    ¬ DecodedAsEncoded {"BRK.B"} {"g"} := by
  refine ⟨by decide +kernel, by decide +kernel, by decide +kernel, fun decoded => ?_⟩
  have global := decoded.globally "BRK.B" rfl
  exact filedTick_global_iff.mp global (by decide)

end TradingPlatform
