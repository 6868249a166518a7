import TradingPlatform.Leverage.TierTexts
import Mathlib.Data.List.Chain

namespace TradingPlatform

namespace LeverageTier

/-- The tier's leverage within the bounds of the user. -/
def clamped (t : LeverageTier) (minL maxL : ℤ) : Option ℚ :=
  if t.maxLeverage < 1 then none else some (min (max (t.maxLeverage : ℚ) minL) maxL)

/-- The tier for a notional: of those it is in, the one with the largest lower
bound. -/
structure Tightest (tiers : List LeverageTier) (notional : ℚ) (t : LeverageTier) : Prop where
  member : t ∈ tiers
  isIn : t.InTier notional
  greatest : ∀ other ∈ tiers, other.InTier notional → other.notionalFrom ≤ t.notionalFrom

structure Lowest (tiers : List LeverageTier) (t : LeverageTier) : Prop where
  member : t ∈ tiers
  least : ∀ other ∈ tiers, t.notionalFrom ≤ other.notionalFrom

/-- Bands from zero up, each from where the one before ends, the last one open. -/
structure Ladder (tiers : List LeverageTier) : Prop where
  rungs : ∃ ladder : List LeverageTier, ladder.Perm tiers ∧
    ladder.IsChain (fun t next => t.notionalTo = some next.notionalFrom) ∧
    (∃ t ∈ ladder, t.notionalFrom = 0) ∧ ∀ t ∈ ladder.getLast?, t.notionalTo = none
  permitted : ∀ t ∈ tiers, 1 ≤ t.maxLeverage

end LeverageTier

open LeverageTier

section Loops
variable {notional : ℚ} {tiers seen : List LeverageTier} {t : LeverageTier}
  {best : Option LeverageTier}

/-- What the first loop has found among the tiers that it has seen. -/
def FoundTightest (seen : List LeverageTier) (notional : ℚ) : Option LeverageTier → Prop
  | none => ∀ t ∈ seen, ¬ t.InTier notional
  | some t => Tightest seen notional t

def FoundLowest (seen : List LeverageTier) : Option LeverageTier → Prop
  | none => seen = []
  | some t => Lowest seen t

theorem FoundTightest.keepBest (found : FoundTightest seen notional best) (t : LeverageTier) :
    FoundTightest (seen ++ [t]) notional (LeverageTier.keepBest notional best t) := by
  unfold LeverageTier.keepBest
  split_ifs with isIn
  · cases best with
    | none =>
      refine ⟨by simp, isIn, fun other known otherIn => ?_⟩
      rcases List.mem_append.mp known with earlier | last
      · exact absurd otherIn (found other earlier)
      · rw [List.mem_singleton.mp last]
    | some b =>
      obtain ⟨member, bIn, greatest⟩ := found
      dsimp only
      split_ifs with larger
      · refine ⟨by simp, isIn, fun other known otherIn => ?_⟩
        rcases List.mem_append.mp known with earlier | last
        · exact (greatest other earlier otherIn).trans larger.le
        · rw [List.mem_singleton.mp last]
      · refine ⟨List.mem_append_left _ member, bIn, fun other known otherIn => ?_⟩
        rcases List.mem_append.mp known with earlier | last
        · exact greatest other earlier otherIn
        · rw [List.mem_singleton.mp last]
          exact not_lt.mp larger
  · cases best with
    | none =>
      intro other known
      rcases List.mem_append.mp known with earlier | last
      · exact found other earlier
      · rwa [List.mem_singleton.mp last]
    | some b =>
      obtain ⟨member, bIn, greatest⟩ := found
      refine ⟨List.mem_append_left _ member, bIn, fun other known otherIn => ?_⟩
      rcases List.mem_append.mp known with earlier | last
      · exact greatest other earlier otherIn
      · rw [List.mem_singleton.mp last] at otherIn
        exact absurd otherIn isIn

theorem FoundLowest.keepLowest (found : FoundLowest seen best) (t : LeverageTier) :
    FoundLowest (seen ++ [t]) (LeverageTier.keepLowest best t) := by
  unfold LeverageTier.keepLowest
  cases best with
  | none =>
    have empty : seen = [] := found
    subst empty
    exact ⟨by simp, by simp⟩
  | some b =>
    obtain ⟨member, least⟩ := found
    dsimp only
    split_ifs with smaller
    · refine ⟨by simp, fun other known => ?_⟩
      rcases List.mem_append.mp known with earlier | last
      · exact smaller.le.trans (least other earlier)
      · rw [List.mem_singleton.mp last]
    · refine ⟨List.mem_append_left _ member, fun other known => ?_⟩
      rcases List.mem_append.mp known with earlier | last
      · exact least other earlier
      · rw [List.mem_singleton.mp last]
        exact not_lt.mp smaller

/-- A loop that keeps what it has found, from the first tier to the last. -/
theorem foldl_found (Found : List LeverageTier → Option LeverageTier → Prop)
    {keep : Option LeverageTier → LeverageTier → Option LeverageTier}
    (each : ∀ seen best t, Found seen best → Found (seen ++ [t]) (keep best t))
    (found : Found seen best) (rest : List LeverageTier) :
    Found (seen ++ rest) (rest.foldl keep best) := by
  induction rest generalizing seen best with
  | nil => simpa using found
  | cons t rest ih => simpa using ih (each seen best t found)

theorem bestTier_found (tiers : List LeverageTier) (notional : ℚ) :
    FoundTightest tiers notional (bestTier notional tiers) := by
  have start : FoundTightest [] notional none := by simp [FoundTightest]
  exact foldl_found (fun seen => FoundTightest seen notional)
    (fun _ _ t found => found.keepBest t) start tiers

theorem lowest_found (tiers : List LeverageTier) :
    FoundLowest tiers (tiers.foldl LeverageTier.keepLowest none) := by
  have start : FoundLowest [] none := rfl
  exact foldl_found FoundLowest (fun _ _ t found => found.keepLowest t) start tiers

/-- An open-ended tier from below the notional is one that the first loop has
found. -/
theorem find_openEnded (noTier : ∀ t ∈ tiers, ¬ t.InTier notional) :
    (tiers.reverse.find? fun t => t.notionalTo = none ∧ t.notionalFrom ≤ notional) = none := by
  rw [List.find?_eq_none]
  intro t known
  have out := noTier t (List.mem_reverse.mp known)
  simp only [decide_eq_true_eq]
  rintro ⟨ends, fits⟩
  exact out ⟨fits, by simp [ends]⟩

theorem eq_of_notionalFrom (distinct : (tiers.map (·.notionalFrom)).Nodup) {other : LeverageTier}
    (member : t ∈ tiers) (member' : other ∈ tiers) (same : t.notionalFrom = other.notionalFrom) :
    t = other :=
  List.inj_on_of_nodup_map distinct member member' same

theorem symbolLeverage_tightest (distinct : (tiers.map (·.notionalFrom)).Nodup)
    (tightest : Tightest tiers notional t) :
    symbolLeverage notional tiers = some t.maxLeverage := by
  have found := bestTier_found tiers notional
  unfold symbolLeverage
  cases best : bestTier notional tiers with
  | none =>
    rw [best] at found
    exact absurd tightest.isIn (found t tightest.member)
  | some b =>
    rw [best] at found
    have same : b = t := eq_of_notionalFrom distinct found.member tightest.member
      (le_antisymm (tightest.greatest b found.member found.isIn)
        (found.greatest t tightest.member tightest.isIn))
    rw [same]

theorem symbolLeverage_noTier (noTier : ∀ t ∈ tiers, ¬ t.InTier notional) :
    symbolLeverage notional tiers = if 0 < notional then
      (tiers.foldl LeverageTier.keepLowest none).bind fun t =>
        if notional < t.notionalFrom then some t.maxLeverage else none
    else none := by
  have found := bestTier_found tiers notional
  unfold symbolLeverage
  cases best : bestTier notional tiers with
  | none =>
    simp only [find_openEnded noTier]
    cases tiers.foldl LeverageTier.keepLowest none <;> rfl
  | some b =>
    rw [best] at found
    exact absurd found.isIn (noTier b found.member)

theorem symbolLeverage_lowest (distinct : (tiers.map (·.notionalFrom)).Nodup)
    (noTier : ∀ t ∈ tiers, ¬ t.InTier notional) (lowest : Lowest tiers t) (positive : 0 < notional)
    (below : notional < t.notionalFrom) : symbolLeverage notional tiers = some t.maxLeverage := by
  have found := lowest_found tiers
  rw [symbolLeverage_noTier noTier, if_pos positive]
  cases best : tiers.foldl LeverageTier.keepLowest none with
  | none =>
    rw [best] at found
    have empty : tiers = [] := found
    subst empty
    exact absurd lowest.member (by simp)
  | some b =>
    rw [best] at found
    have same : b = t := eq_of_notionalFrom distinct found.member lowest.member
      (le_antisymm (found.least t lowest.member) (lowest.least b found.member))
    rw [Option.bind_some, same, if_pos below]

theorem symbolLeverage_none (noTier : ∀ t ∈ tiers, ¬ t.InTier notional)
    (noLowest : ¬ ∃ t, Lowest tiers t ∧ 0 < notional ∧ notional < t.notionalFrom) :
    symbolLeverage notional tiers = none := by
  have found := lowest_found tiers
  rw [symbolLeverage_noTier noTier]
  split_ifs with positive
  · cases best : tiers.foldl LeverageTier.keepLowest none with
    | none => rfl
    | some b =>
      rw [best] at found
      have above : ¬ notional < b.notionalFrom := fun below => noLowest ⟨b, found, positive, below⟩
      exact if_neg above
  · rfl

/-- The tiers decide the leverage, whatever their order. -/
theorem symbolLeverage_perm (distinct : (tiers.map (·.notionalFrom)).Nodup)
    {permuted : List LeverageTier} (perm : permuted.Perm tiers) :
    symbolLeverage notional permuted = symbolLeverage notional tiers := by
  have distinct' : (permuted.map (·.notionalFrom)).Nodup :=
    (perm.map _).nodup_iff.mpr distinct
  have found := bestTier_found tiers notional
  cases best : bestTier notional tiers with
  | some b =>
    rw [best] at found
    have tightest : Tightest permuted notional b :=
      ⟨perm.mem_iff.mpr found.member, found.isIn,
        fun other known => found.greatest other (perm.mem_iff.mp known)⟩
    rw [symbolLeverage_tightest distinct found, symbolLeverage_tightest distinct' tightest]
  | none =>
    rw [best] at found
    have noTier' : ∀ t ∈ permuted, ¬ t.InTier notional := fun t known =>
      found t (perm.mem_iff.mp known)
    have lowest_iff : ∀ t, Lowest permuted t ↔ Lowest tiers t := fun t =>
      ⟨fun lowest => ⟨perm.mem_iff.mp lowest.member,
          fun other known => lowest.least other (perm.mem_iff.mpr known)⟩,
        fun lowest => ⟨perm.mem_iff.mpr lowest.member,
          fun other known => lowest.least other (perm.mem_iff.mp known)⟩⟩
    by_cases exists_lowest : ∃ t, Lowest tiers t ∧ 0 < notional ∧ notional < t.notionalFrom
    · obtain ⟨t, lowest, positive, below⟩ := exists_lowest
      rw [symbolLeverage_lowest distinct found lowest positive below,
        symbolLeverage_lowest distinct' noTier' ((lowest_iff t).mpr lowest) positive below]
    · rw [symbolLeverage_none found exists_lowest, symbolLeverage_none noTier'
        (by simpa only [lowest_iff] using exists_lowest)]

/-- Above its first band a ladder leaves no notional out. -/
theorem exists_inTier {rest : List LeverageTier}
    (chain : (t :: rest).IsChain (fun t next => t.notionalTo = some next.notionalFrom))
    (ends : ∀ last ∈ (t :: rest).getLast?, last.notionalTo = none)
    (above : t.notionalFrom ≤ notional) : ∃ u ∈ t :: rest, u.InTier notional := by
  induction rest generalizing t with
  | nil =>
    have isOpen : t.notionalTo = none := ends t (by simp)
    exact ⟨t, by simp, above, by simp [isOpen]⟩
  | cons next rest ih =>
    obtain ⟨joined, later⟩ := List.isChain_cons_cons.mp chain
    by_cases within : notional < next.notionalFrom
    · exact ⟨t, by simp, above, by simpa [joined] using within⟩
    · obtain ⟨u, known, isIn⟩ := ih later (by simpa using ends) (not_lt.mp within)
      exact ⟨u, List.mem_cons_of_mem _ known, isIn⟩

theorem LeverageTier.Ladder.exists_inTier (ladder : Ladder tiers) (nonneg : 0 ≤ notional) :
    ∃ t ∈ tiers, t.InTier notional := by
  obtain ⟨rungs, perm, chain, ⟨t, known, zero⟩, ends⟩ := ladder.rungs
  obtain ⟨before, rest, rfl⟩ := List.append_of_mem known
  obtain ⟨u, isLater, isIn⟩ := TradingPlatform.exists_inTier (chain.right_of_append)
    (fun last isLast => ends last (by rw [List.getLast?_append]; simp [Option.mem_def.mp isLast]))
    (zero ▸ nonneg)
  exact ⟨u, perm.mem_iff.mp (List.mem_append_right _ isLater), isIn⟩

end Loops

namespace TierTexts
variable {parse : String → Option ℚ} {notional : ℚ} {rows : List TierTexts} {minL maxL : ℤ}
  {t : LeverageTier}

theorem effectiveLeverage_eq (parses : ∀ row ∈ rows, (row.read parse).isSome)
    (nonneg : 0 ≤ notional) (minPos : 1 ≤ minL) (ordered : minL ≤ maxL) :
    effectiveLeverage parse notional (some minL) (some maxL) (some rows) =
      (TradingPlatform.symbolLeverage notional (tiersOf parse rows)).bind fun s =>
        if s < 1 then none else some (min (max (s : ℚ) minL) maxL) := by
  rw [effectiveLeverage_read parses, TradingPlatform.effectiveLeverage]
  by_cases empty : tiersOf parse rows = []
  · have refused : minL < 1 ∨ maxL < 1 ∨ maxL < minL ∨ tiersOf parse rows = [] ∨ notional < 0 := by
      tauto
    have noLeverage : TradingPlatform.symbolLeverage notional [] = none := by
      simp [TradingPlatform.symbolLeverage, bestTier]
    rw [if_pos refused, empty, noLeverage, Option.bind_none]
  · have accepted : ¬ (minL < 1 ∨ maxL < 1 ∨ maxL < minL ∨ tiersOf parse rows = [] ∨
        notional < 0) := by
      have lower := not_lt.mpr nonneg
      simp only [empty, lower, or_false]
      omega
    rw [if_neg accepted]
    cases TradingPlatform.symbolLeverage notional (tiersOf parse rows) <;> rfl

theorem effectiveLeverage_tier (parses : ∀ row ∈ rows, (row.read parse).isSome)
    (nonneg : 0 ≤ notional) (minPos : 1 ≤ minL) (ordered : minL ≤ maxL)
    (chosen : TradingPlatform.symbolLeverage notional (tiersOf parse rows) = some t.maxLeverage) :
    effectiveLeverage parse notional (some minL) (some maxL) (some rows) = t.clamped minL maxL := by
  rw [effectiveLeverage_eq parses nonneg minPos ordered, chosen, Option.bind_some, clamped]

/-- The three searches come to the tightest tier, or below all tiers to the
lowest one. -/
theorem effectiveLeverage_spec (parses : ∀ row ∈ rows, (row.read parse).isSome)
    (distinct : ((tiersOf parse rows).map (·.notionalFrom)).Nodup) (nonneg : 0 ≤ notional)
    (minPos : 1 ≤ minL) (ordered : minL ≤ maxL) :
    (∀ permuted : List TierTexts, permuted.Perm rows →
      effectiveLeverage parse notional (some minL) (some maxL) (some permuted) =
        effectiveLeverage parse notional (some minL) (some maxL) (some rows)) ∧
    ((∃ t ∈ tiersOf parse rows, t.InTier notional) →
      ∃ t, Tightest (tiersOf parse rows) notional t ∧
        effectiveLeverage parse notional (some minL) (some maxL) (some rows) =
          t.clamped minL maxL) ∧
    ((∀ t ∈ tiersOf parse rows, ¬ t.InTier notional) →
      firstOpenEnded parse notional rows.reverse = some none ∧
      (∀ t, Lowest (tiersOf parse rows) t → 0 < notional → notional < t.notionalFrom →
        effectiveLeverage parse notional (some minL) (some maxL) (some rows) =
          t.clamped minL maxL) ∧
      ((¬ ∃ t, Lowest (tiersOf parse rows) t ∧ 0 < notional ∧ notional < t.notionalFrom) →
        effectiveLeverage parse notional (some minL) (some maxL) (some rows) = none)) ∧
    (∀ l ∈ effectiveLeverage parse notional (some minL) (some maxL) (some rows),
      (minL : ℚ) ≤ l ∧ l ≤ maxL) ∧
    (Ladder (tiersOf parse rows) →
      effectiveLeverage parse notional (some minL) (some maxL) (some rows) ≠ none) := by
  have tightest : (∃ t ∈ tiersOf parse rows, t.InTier notional) →
      ∃ t, Tightest (tiersOf parse rows) notional t := by
    rintro ⟨t, known, isIn⟩
    have found := bestTier_found (tiersOf parse rows) notional
    cases best : bestTier notional (tiersOf parse rows) with
    | none => exact absurd isIn ((best ▸ found : FoundTightest _ _ none) t known)
    | some b => exact ⟨b, (best ▸ found : FoundTightest _ _ (some b))⟩
  refine ⟨fun permuted perm => ?_, fun exists_tier => ?_, fun noTier => ⟨?_, ?_, fun noLowest => ?_⟩,
    fun l isResult => ?_, fun ladder => ?_⟩
  · have parses' : ∀ row ∈ permuted, (row.read parse).isSome := fun row known =>
      parses row (perm.mem_iff.mp known)
    have tiers : (tiersOf parse permuted).Perm (tiersOf parse rows) := perm.filterMap _
    rw [effectiveLeverage_eq parses' nonneg minPos ordered,
      effectiveLeverage_eq parses nonneg minPos ordered, symbolLeverage_perm distinct tiers]
  · obtain ⟨t, isTightest⟩ := tightest exists_tier
    exact ⟨t, isTightest, effectiveLeverage_tier parses nonneg minPos ordered
      (symbolLeverage_tightest distinct isTightest)⟩
  · have reversed : ∀ row ∈ rows.reverse, (row.read parse).isSome := fun row isRow =>
      parses row (List.mem_reverse.mp isRow)
    rw [firstOpenEnded_read reversed, tiersOf_reverse, find_openEnded noTier, Option.map_none]
  · intro t lowest positive below
    exact effectiveLeverage_tier parses nonneg minPos ordered
      (symbolLeverage_lowest distinct noTier lowest positive below)
  · rw [effectiveLeverage_eq parses nonneg minPos ordered, symbolLeverage_none noTier noLowest,
      Option.bind_none]
  · rw [effectiveLeverage_eq parses nonneg minPos ordered] at isResult
    obtain ⟨s, -, isClamped⟩ := Option.bind_eq_some_iff.mp isResult
    split_ifs at isClamped
    cases isClamped
    have bounds : (minL : ℚ) ≤ maxL := by exact_mod_cast ordered
    exact ⟨le_min (le_max_right _ _) bounds, min_le_right _ _⟩
  · obtain ⟨t, isTightest⟩ := tightest (ladder.exists_inTier nonneg)
    rw [effectiveLeverage_tier parses nonneg minPos ordered
      (symbolLeverage_tightest distinct isTightest), clamped,
      if_neg (not_lt.mpr (ladder.permitted t isTightest.member))]
    simp

section TwoRungs

/-- The decimals of the two rungs. -/
def readRung : String → Option ℚ
  | "1" => some 1
  | "1000" => some 1000
  | _ => none

def twoRungs : List TierTexts := [⟨"1", some "1000", 100⟩, ⟨"1000", some " ", 50⟩]

theorem tiersOf_twoRungs : tiersOf readRung twoRungs = [⟨1, some 1000, 100⟩, ⟨1000, none, 50⟩] := by
  decide +kernel

/-- A notional below the first rung has its leverage. -/
theorem effectiveLeverage_twoRungs : effectiveLeverage readRung (1 / 250) (some 1) (some 80)
    (some twoRungs) = some 80 := by
  have parses : ∀ row ∈ twoRungs, (row.read readRung).isSome := by decide +kernel
  have distinct : ((tiersOf readRung twoRungs).map (·.notionalFrom)).Nodup := by
    rw [tiersOf_twoRungs]
    decide +kernel
  have noTier : ∀ t ∈ tiersOf readRung twoRungs, ¬ t.InTier (1 / 250) := by
    rw [tiersOf_twoRungs]
    decide +kernel
  have lowest : Lowest (tiersOf readRung twoRungs) ⟨1, some 1000, 100⟩ := by
    rw [tiersOf_twoRungs]
    exact ⟨by simp, by decide +kernel⟩
  have clamps : (⟨1, some 1000, 100⟩ : LeverageTier).clamped 1 80 = some 80 := by decide +kernel
  have positive : (0 : ℚ) < 1 / 250 := by norm_num
  have spec := effectiveLeverage_spec parses distinct positive.le (le_refl 1)
    (by decide : (1 : ℤ) ≤ 80)
  rw [← clamps]
  exact (spec.2.2.1 noTier).2.1 _ lowest positive (by norm_num)

/-- Below all tiers too a leverage under 1 is none, and not the user's least. -/
theorem effectiveLeverage_zeroLowest :
    tiersOf readRung [⟨"1", none, 0⟩] = [⟨1, none, 0⟩] ∧
    Lowest [⟨1, none, 0⟩] ⟨1, none, 0⟩ ∧ ¬ LeverageTier.InTier ⟨1, none, 0⟩ (1 / 2) ∧
    effectiveLeverage readRung (1 / 2) (some 1) (some 100) (some [⟨"1", none, 0⟩]) ≠
      some (min (max ((0 : ℤ) : ℚ) 1) 100) := by
  refine ⟨by decide +kernel, ⟨by simp, by simp⟩, by decide +kernel, by decide +kernel⟩

end TwoRungs

end TierTexts

end TradingPlatform
