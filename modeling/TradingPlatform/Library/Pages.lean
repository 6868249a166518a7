import Mathlib.Data.List.Sort
import Mathlib.Order.Basic
import Mathlib.Tactic.Linarith

/-! Listings that are served a page at a time. -/

namespace Pages
variable {σ α C : Type*}

/-- A reader's requests to the end: each is answered from the state at its time
with some items, and the next one follows the cursor that came back. -/
inductive Walk (serve : σ → Option C → List α × Option C) : Option C → List (σ × List α) → Prop
  | last {s cursor items} : serve s cursor = (items, none) → Walk serve cursor [(s, items)]
  | more {s cursor items next rest} : serve s cursor = (items, some next) →
      Walk serve (some next) rest → Walk serve cursor ((s, items) :: rest)

/-- All the items of a reader's pages, as they came. -/
def collected (visits : List (σ × List α)) : List α := visits.flatMap Prod.snd

@[simp] theorem collected_cons (visit : σ × List α) (visits : List (σ × List α)) :
    collected (visit :: visits) = visit.2 ++ collected visits := List.flatMap_cons

@[simp] theorem collected_nil : collected ([] : List (σ × List α)) = [] := rfl

theorem Walk.of_same {serve : σ → Option C → List α × Option C} {cursor other : Option C}
    {visits : List (σ × List α)} (same : ∀ s, serve s other = serve s cursor)
    (walk : Walk serve cursor visits) : Walk serve other visits := by
  cases walk with
  | last served => exact .last ((same _).trans served)
  | more served rest => exact .more ((same _).trans served) rest

/-- The same pages with their items and cursors written in another form, for
the cursors that come up. -/
structure Encodes {β D : Type*} (serve : σ → Option C → List α × Option C)
    (other : σ → Option D → List β × Option D) (f : σ → α → β) (encode : C → D)
    (ok : Option C → Prop) : Prop where
  page : ∀ s c, ok c →
    other s (c.map encode) = ((serve s c).1.map (f s), (serve s c).2.map encode)
  stays : ∀ s c next, ok c → (serve s c).2 = some next → ok (some next)

/-- Pages whose items and cursors are written in another form are read alike. -/
theorem walk_encoded {β D : Type*} {serve : σ → Option C → List α × Option C}
    {other : σ → Option D → List β × Option D} {f : σ → α → β} {encode : C → D}
    {ok : Option C → Prop} (encodes : Encodes serve other f encode ok)
    {visits : List (σ × List β)} {c : Option C} (start : ok c) :
    Walk other (c.map encode) visits ↔ ∃ plain, Walk serve c plain ∧
      visits = plain.map fun visit => (visit.1, visit.2.map (f visit.1)) := by
  constructor
  · intro walk
    generalize at_ : c.map encode = written at walk
    induction walk generalizing c with
    | @last s written items served =>
      rw [← at_, encodes.page s c start] at served
      obtain ⟨same, ended⟩ := Prod.mk.inj served
      refine ⟨[(s, (serve s c).1)], .last ?_, by rw [← same]; rfl⟩
      exact Prod.ext rfl (Option.map_eq_none_iff.mp ended)
    | @more s written items next rest served _ ih =>
      rw [← at_, encodes.page s c start] at served
      obtain ⟨same, goesOn⟩ := Prod.mk.inj served
      obtain ⟨plainNext, found, shown⟩ := Option.map_eq_some_iff.mp goesOn
      obtain ⟨plain, walk, rfl⟩ := ih (encodes.stays s c plainNext start found) (by simp [shown])
      refine ⟨(s, (serve s c).1) :: plain, .more (Prod.ext rfl found) walk, ?_⟩
      rw [List.map_cons, same]
  · rintro ⟨plain, walk, rfl⟩
    induction walk with
    | @last s cursor items served =>
      exact .last (by rw [encodes.page s cursor start, served]; rfl)
    | @more s cursor items next rest served _ ih =>
      have onward := ih (encodes.stays s _ next start (by rw [served]))
      exact .more (by rw [encodes.page s cursor start, served]; rfl) onward

theorem mem_collected {a : α} {visits : List (σ × List α)} :
    a ∈ collected visits ↔ ∃ visit ∈ visits, a ∈ visit.2 := List.mem_flatMap

/-- What the items keep of the rows they are made from, all of them keep. -/
theorem map_collected {β K : Type*} {f : σ → α → β} {g : β → K} {key : α → K}
    (same : ∀ s a, g (f s a) = key a) (visits : List (σ × List α)) :
    (collected (visits.map fun visit => (visit.1, visit.2.map (f visit.1)))).map g =
      (collected visits).map key := by
  induction visits with
  | nil => rfl
  | cons visit visits ih =>
    simp only [List.map_cons, collected_cons, List.map_append, ih, List.map_map]
    congr 1
    exact List.map_congr_left fun a _ => same visit.1 a

theorem collected_map {β : Type*} {f : α → β} (visits : List (σ × List α)) :
    collected (visits.map fun visit => (visit.1, visit.2.map f)) = (collected visits).map f := by
  simp only [collected, List.flatMap_map, List.map_flatMap]

section Offsets

/-- `n as usize` -/
def asUsize (n : ℤ) : ℕ := (n % 2 ^ 64).toNat

theorem asUsize_natCast {n : ℕ} (small : n < 2 ^ 64) : asUsize n = n := by
  have same : (n : ℤ) % 2 ^ 64 = n := Int.emod_eq_of_lt (by omega) (by exact_mod_cast small)
  rw [asUsize, same, Int.toNat_natCast]

theorem asUsize_of_neg {n : ℤ} (negative : n < 0) (i64 : -2 ^ 63 ≤ n) : 2 ^ 63 ≤ asUsize n := by
  have wraps : n % 2 ^ 64 = n + 2 ^ 64 := by omega
  rw [asUsize, wraps]
  omega

/-- The page at an offset, and the offset of the next one. -/
def offsetPage (limit : ℤ) (rows : List α) (cursor : Option ℤ) : List α × Option ℤ :=
  let offset := cursor.getD 0
  let items := (rows.drop (asUsize offset)).take (asUsize limit)
  (items, if offset + items.length < rows.length then some (offset + limit) else none)

variable {limit : ℤ} {rows items : List α} {visits : List (σ × List α)} {n : ℕ}

theorem offsetPage_of_neg (small : rows.length < 2 ^ 63) (negative : limit < 0)
    (i64 : -2 ^ 63 ≤ limit) (inside : n ≤ rows.length) :
    offsetPage limit rows (some (n : ℤ)) = (rows.drop n, none) := by
  have wide := asUsize_of_neg negative i64
  have whole : (rows.drop n).take (asUsize limit) = rows.drop n :=
    List.take_of_length_le (by rw [List.length_drop]; omega)
  simp only [offsetPage, Option.getD_some, asUsize_natCast (by omega : n < 2 ^ 64), whole,
    List.length_drop]
  rw [if_neg (by omega)]

theorem offsetPage_of_pos (small : rows.length < 2 ^ 63) {k : ℕ} (i64 : k < 2 ^ 63)
    (inside : n ≤ rows.length) : offsetPage (k : ℤ) rows (some (n : ℤ)) =
      ((rows.drop n).take k,
        if n + min k (rows.length - n) < rows.length then some ((n + k : ℕ) : ℤ)
        else none) := by
  simp only [offsetPage, Option.getD_some, asUsize_natCast (by omega : n < 2 ^ 64),
    asUsize_natCast (by omega : k < 2 ^ 64), List.length_take, List.length_drop]
  congr 1
  push_cast
  norm_cast

/-- The next offset is inside the rows again. -/
theorem offsetPage_next (small : rows.length < 2 ^ 63) (i64 : -2 ^ 63 ≤ limit)
    (upper : limit < 2 ^ 63) (inside : n ≤ rows.length) {next : ℤ}
    (goesOn : (offsetPage limit rows (some (n : ℤ))).2 = some next) :
    ∃ k : ℕ, next = k ∧ k ≤ rows.length := by
  rcases lt_or_ge limit 0 with negative | positive
  · rw [offsetPage_of_neg small negative i64 inside] at goesOn
    exact nomatch goesOn
  · obtain ⟨size, rfl⟩ := Int.eq_ofNat_of_zero_le positive
    rw [offsetPage_of_pos small (by exact_mod_cast upper) inside] at goesOn
    dsimp only at goesOn
    split at goesOn
    next => exact ⟨n + size, (Option.some.inj goesOn).symm, by omega⟩
    next => exact nomatch goesOn

/-- A reader who follows the offsets to the end has read every row from where
it began, once and in order. -/
theorem collected_of_offsets (small : rows.length < 2 ^ 63) (i64 : -2 ^ 63 ≤ limit)
    (upper : limit < 2 ^ 63) {cursor : Option ℤ}
    (walk : Walk (fun _ : σ => offsetPage limit rows) cursor visits) :
    ∀ n ≤ rows.length, cursor = some (n : ℤ) → collected visits = rows.drop n := by
  induction walk with
  | @last s cursor items served =>
    intro n inside at_
    subst at_
    simp only [collected_cons, collected_nil, List.append_nil]
    rcases lt_or_ge limit 0 with negative | positive
    · rw [offsetPage_of_neg small negative i64 inside] at served
      exact (Prod.mk.inj served).1.symm
    · obtain ⟨size, rfl⟩ := Int.eq_ofNat_of_zero_le positive
      rw [offsetPage_of_pos small (by exact_mod_cast upper) inside] at served
      obtain ⟨page, ended⟩ := Prod.mk.inj served
      have whole : rows.length ≤ n + size := by
        by_contra short
        rw [if_pos (by omega)] at ended
        exact nomatch ended
      rw [← page]
      exact List.take_of_length_le (by rw [List.length_drop]; omega)
  | @more s cursor items next rest served _ ih =>
    intro n inside at_
    subst at_
    rw [collected_cons]
    rcases lt_or_ge limit 0 with negative | positive
    · rw [offsetPage_of_neg small negative i64 inside] at served
      exact nomatch (Prod.mk.inj served).2
    · obtain ⟨size, rfl⟩ := Int.eq_ofNat_of_zero_le positive
      rw [offsetPage_of_pos small (by exact_mod_cast upper) inside] at served
      obtain ⟨page, goesOn⟩ := Prod.mk.inj served
      split at goesOn
      next room =>
        have onward := ih (n + size) (by omega) goesOn.symm
        rw [onward, ← page, ← List.drop_drop, List.take_append_drop]
      next => exact nomatch goesOn

/-- With a limit of zero the same offset comes back for ever. -/
theorem not_walk_of_zero {cursor : Option ℤ}
    (walk : Walk (fun _ : σ => offsetPage 0 rows) cursor visits) :
    ∀ n < rows.length, cursor = some (n : ℤ) → rows.length < 2 ^ 63 → False := by
  induction walk with
  | @last s cursor items served =>
    intro n inside at_ small
    subst at_
    have page := offsetPage_of_pos (k := 0) small (by norm_num) inside.le
    rw [if_pos (by omega)] at page
    exact nomatch (Prod.mk.inj (page.symm.trans served)).2
  | @more s cursor items next rest served _ ih =>
    intro n inside at_ small
    subst at_
    have page := offsetPage_of_pos (k := 0) small (by norm_num) inside.le
    rw [if_pos (by omega)] at page
    exact ih n inside (Prod.mk.inj (page.symm.trans served)).2.symm small

/-- With any other limit the offsets come to an end. -/
theorem exists_offsets (s : σ) (small : rows.length < 2 ^ 63) (i64 : -2 ^ 63 ≤ limit)
    (upper : limit < 2 ^ 63) (moves : limit ≠ 0 ∨ rows = []) (inside : n ≤ rows.length) :
    ∃ visits, Walk (fun _ : σ => offsetPage limit rows) (some (n : ℤ)) visits := by
  rcases lt_or_ge limit 0 with negative | positive
  · exact ⟨_, .last (s := s) (offsetPage_of_neg small negative i64 inside)⟩
  obtain ⟨size, rfl⟩ := Int.eq_ofNat_of_zero_le positive
  have narrow : size < 2 ^ 63 := by exact_mod_cast upper
  induction left : rows.length - n using Nat.strong_induction_on generalizing n with
  | _ left ih =>
    have page := offsetPage_of_pos small narrow inside
    by_cases room : n + min size (rows.length - n) < rows.length
    · rw [if_pos room] at page
      have forward : 0 < size := by
        rcases moves with nonzero | empty
        · omega
        · simp [empty] at room
      obtain ⟨rest, walk⟩ := ih (rows.length - (n + size)) (by omega)
        (show n + size ≤ rows.length by omega) rfl
      exact ⟨_, .more (s := s) page walk⟩
    · rw [if_neg room] at page
      exact ⟨_, .last (s := s) page⟩

end Offsets

section Keysets
variable {K : Type*} [LinearOrder K] {key : α → K} {rows : σ → α → Prop}
  {serve : σ → Option K → List α × Option K}

/-- A key comes after the cursor in the order from the greatest. -/
def Past (cursor : Option K) (k : K) : Prop := ∀ c ∈ cursor, k < c

/-- What the page of a listing by keys, from the greatest, consists of: it
splits the rows past its cursor into its own and those past the next cursor. -/
structure Serves (key : α → K) (rows : σ → α → Prop) (s : σ) (cursor : Option K)
    (page : List α × Option K) : Prop where
  sound : ∀ a ∈ page.1, rows s a ∧ Past cursor (key a)
  sorted : page.1.Pairwise fun a b => key b < key a
  split : ∀ a, rows s a → Past cursor (key a) → a ∈ page.1 ∨ ∃ next ∈ page.2, key a < next
  last : ∀ next ∈ page.2, ∃ a ∈ page.1, key a = next ∧ ∀ b ∈ page.1, key a ≤ key b

theorem Serves.past_next {s : σ} {cursor : Option K} {page : List α × Option K} {next : K}
    (serves : Serves key rows s cursor page) (member : next ∈ page.2) : Past cursor next := by
  obtain ⟨a, shown, same, _⟩ := serves.last next member
  exact same ▸ (serves.sound a shown).2

theorem Past.of_next {cursor : Option K} {next k : K} (past : Past cursor next) (below : k < next) :
    Past cursor k := fun c member => below.trans (past c member)

/-- Whatever happens to the rows between the requests, the pages hold no row
twice and are in order, each item was there at its time, and a row that was
there at every request is among them. -/
theorem collected_of_serves (serves : ∀ s cursor, Serves key rows s cursor (serve s cursor))
    {cursor : Option K} {visits : List (σ × List α)} (walk : Walk serve cursor visits) :
    (collected visits).Pairwise (fun a b => key b < key a) ∧
      (∀ a ∈ collected visits, Past cursor (key a)) ∧
      (∀ visit ∈ visits, ∀ a ∈ visit.2, rows visit.1 a) ∧
      ∀ a, (∀ visit ∈ visits, rows visit.1 a) → Past cursor (key a) → a ∈ collected visits := by
  induction walk with
  | @last s cursor items served =>
    have page := serves s cursor
    rw [served] at page
    simp only [collected_cons, collected_nil, List.append_nil, List.mem_singleton, forall_eq]
    refine ⟨page.sorted, fun a member => (page.sound a member).2,
      fun a member => (page.sound a member).1, fun a there past => ?_⟩
    exact (page.split a there past).resolve_right (by simp)
  | @more s cursor items next rest served _ ih =>
    have page := serves s cursor
    rw [served] at page
    obtain ⟨sorted, below, sound, complete⟩ := ih
    have further := page.past_next rfl
    obtain ⟨end_, _, same, floor⟩ := page.last next rfl
    simp only [collected_cons, List.mem_cons, forall_eq_or_imp]
    refine ⟨?_, ?_, ⟨fun a member => (page.sound a member).1, sound⟩, ?_⟩
    · rw [List.pairwise_append]
      refine ⟨page.sorted, sorted, fun a first b later => ?_⟩
      have under := below b later next rfl
      exact under.trans_le (same ▸ floor a first)
    · intro a member
      rcases List.mem_append.mp member with first | later
      · exact (page.sound a first).2
      · exact further.of_next (below a later next rfl)
    · intro a there past
      rcases page.split a there.1 past with here | ⟨c, same, under⟩
      · exact List.mem_append_left _ here
      · cases same
        have later := complete a there.2 fun c member => by cases member; exact under
        exact List.mem_append_right _ later

/-- The rows past the cursor from the greatest key. -/
def inOrder (key : α → K) (listed : List α) (cursor : Option K) : List α :=
  (listed.filter fun a => cursor.all (key a < ·)).insertionSort fun a b => key b ≤ key a

/-- The page of a listing by keys: one row more than the page shows is fetched,
and the cursor is the key of the last one shown. -/
def keysetPage (key : α → K) (limit : ℕ) (listed : List α) (cursor : Option K) :
    List α × Option K :=
  let fetched := (inOrder key listed cursor).take (limit + 1)
  let page := fetched.take limit
  (page, if limit < fetched.length then page.getLast?.map key else none)

variable {limit : ℕ} {listed : List α} {cursor : Option K}

theorem mem_inOrder {a : α} : a ∈ inOrder key listed cursor ↔ a ∈ listed ∧ Past cursor (key a) := by
  simp only [inOrder, List.mem_insertionSort, List.mem_filter, Past]
  cases cursor <;> simp

private theorem keysetPage_eq : keysetPage key limit listed cursor =
    ((inOrder key listed cursor).take limit,
      if limit < (inOrder key listed cursor).length then
        ((inOrder key listed cursor).take limit).getLast?.map key else none) := by
  have inner : ((inOrder key listed cursor).take (limit + 1)).take limit =
      (inOrder key listed cursor).take limit := by
    rw [List.take_take, min_eq_left (by omega)]
  have room : limit < ((inOrder key listed cursor).take (limit + 1)).length ↔
      limit < (inOrder key listed cursor).length := by
    rw [List.length_take]
    omega
  simp only [keysetPage, inner, room]

private theorem inOrder_sorted (keys : (listed.map key).Nodup) :
    (inOrder key listed cursor).Pairwise fun a b => key b < key a := by
  have sorted : (inOrder key listed cursor).Pairwise fun a b => key b ≤ key a :=
    haveI : Std.Total fun a b => key b ≤ key a := ⟨fun a b => le_total (key b) (key a)⟩
    haveI : IsTrans α fun a b => key b ≤ key a := ⟨fun _ _ _ ab bc => bc.trans ab⟩
    List.pairwise_insertionSort _ _
  have apart : (inOrder key listed cursor).Pairwise fun a b => key a ≠ key b := by
    have kept : ((listed.filter fun a => cursor.all (key a < ·)).map key).Nodup :=
      keys.sublist (List.filter_sublist.map key)
    have moved := ((List.perm_insertionSort (fun a b => key b ≤ key a)
      (listed.filter fun a => cursor.all (key a < ·))).map key).nodup_iff.mpr kept
    exact List.pairwise_map.mp moved
  refine (sorted.and apart).imp fun both => lt_of_le_of_ne both.1 both.2.symm

/-- The page of a listing by keys does what is asked of it where no two rows
have one key. -/
theorem keysetPage_serves (all : σ → List α) (s : σ) (positive : 0 < limit)
    (keys : ((all s).map key).Nodup) :
    Serves key (fun s a => a ∈ all s) s cursor (keysetPage key limit (all s) cursor) := by
  generalize same : all s = listed at keys
  have sorted : (inOrder key listed cursor).Pairwise fun a b => key b < key a :=
    inOrder_sorted keys
  have cut := List.take_append_drop limit (inOrder key listed cursor)
  rw [keysetPage_eq]
  refine ⟨fun a member => same ▸ mem_inOrder.mp (List.mem_of_mem_take member),
    sorted.sublist (List.take_sublist _ _), fun a there past => ?_, fun next member => ?_⟩
  · have listed_ := mem_inOrder.mpr ⟨same ▸ there, past⟩
    rw [← cut] at listed_
    rcases List.mem_append.mp listed_ with here | later
    · exact .inl here
    have room : limit < (inOrder key listed cursor).length := by
      have nonempty := List.length_pos_of_mem later
      rw [List.length_drop] at nonempty
      omega
    have shown : (inOrder key listed cursor).take limit ≠ [] := by
      rw [ne_eq, List.take_eq_nil_iff, not_or]
      exact ⟨by omega, List.ne_nil_of_length_pos (by omega)⟩
    refine .inr ⟨key (((inOrder key listed cursor).take limit).getLast shown), ?_, ?_⟩
    · simp [room, List.getLast?_eq_getLast_of_ne_nil shown]
    · rw [← cut] at sorted
      exact (List.pairwise_append.mp sorted).2.2 _ (List.getLast_mem shown) a later
  · split at member
    next =>
      obtain ⟨end_, atEnd, same⟩ := Option.mem_map.mp member
      obtain ⟨front, whole⟩ := List.getLast?_eq_some_iff.mp atEnd
      have page := sorted.sublist (List.take_sublist limit _)
      refine ⟨end_, List.mem_of_getLast? atEnd, same, fun b other => ?_⟩
      rw [whole] at page other
      rcases List.mem_append.mp other with before | here
      · exact ((List.pairwise_append.mp page).2.2 b before end_ (by simp)).le
      · rw [List.mem_singleton.mp here]
    next => exact nomatch member

/-- Past a further cursor there are fewer rows, if one had its key. -/
theorem length_inOrder_lt {next : K} (further : Past cursor next) {a : α}
    (there : a ∈ inOrder key listed cursor) (same : key a = next) :
    (inOrder key listed (some next)).length < (inOrder key listed cursor).length := by
  have nested : listed.filter (fun b => (some next).all (key b < ·)) =
      (listed.filter fun b => cursor.all (key b < ·)).filter
        fun b => (some next).all (key b < ·) := by
    rw [List.filter_filter]
    refine List.filter_congr fun b _ => ?_
    have onward : key b < next → cursor.all (key b < ·) = true := by
      intro below
      have past := further.of_next below
      cases cursor with
      | none => rfl
      | some c => simpa using past c rfl
    by_cases below : key b < next
    · simp [below, onward below]
    · simp [below]
  have member : a ∈ listed.filter fun b => cursor.all (key b < ·) := by
    simpa [inOrder] using there
  simp only [inOrder, List.length_insertionSort]
  rw [nested]
  refine List.length_filter_lt_length_iff_exists.mpr ⟨a, member, ?_⟩
  simp [same]

/-- While the rows stay as they are, the pages come to an end. -/
theorem exists_keysets (all : σ → List α) (s : σ) (positive : 0 < limit)
    (keys : ((all s).map key).Nodup) (cursor : Option K) :
    ∃ visits, Walk (fun s => keysetPage key limit (all s)) cursor visits ∧
      ∀ visit ∈ visits, visit.1 = s := by
  induction left : (inOrder key (all s) cursor).length using Nat.strong_induction_on
    generalizing cursor with
  | _ left ih =>
    obtain ⟨⟨items, next⟩, served⟩ : ∃ page, keysetPage key limit (all s) cursor = page := ⟨_, rfl⟩
    cases next with
    | none => exact ⟨_, .last (s := s) served, by simp⟩
    | some next =>
      have page : Serves key (fun s a => a ∈ all s) s cursor (keysetPage key limit (all s) cursor) :=
        keysetPage_serves all s positive keys
      rw [served] at page
      obtain ⟨end_, shown, same, _⟩ := page.last next rfl
      have fewer := length_inOrder_lt (page.past_next rfl)
        (mem_inOrder.mpr (page.sound end_ shown)) same
      obtain ⟨rest, walk, stays⟩ := ih _ (left ▸ fewer) (some next) rfl
      exact ⟨_, .more (s := s) served walk, by simpa using stays⟩

end Keysets
end Pages
