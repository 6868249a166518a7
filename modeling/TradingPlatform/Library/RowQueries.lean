import TradingPlatform.Library.FiniteTable

/-! Statements that read one row of a table, or update some of its rows. -/

namespace RowQueries
variable {K V : Type*} [DecidableEq K] {table : FiniteTable K V} {p : V → Bool} {f : V → V}

/-- `SELECT … WHERE p`, of which one row is fetched: it is any of those that
there are. A choice that the database cannot make has no answer. -/
def selectOne (table : FiniteTable K V) (p : V → Bool) : Option K → Option (Option (K × V))
  | some k => ((table.lookup k).filter p).map fun row => some (k, row)
  | none => if table.entries.any fun row => p row.2 then none else some none

theorem stored_of_selectOne {choice : Option K} {k : K} {row : V}
    (selected : selectOne table p choice = some (some (k, row))) :
    table.lookup k = some row ∧ p row = true := by
  cases choice with
  | none =>
    simp only [selectOne] at selected
    split at selected <;> simp at selected
  | some chosen =>
    obtain ⟨found, kept, same⟩ := Option.map_eq_some_iff.mp selected
    obtain ⟨rfl, rfl⟩ := Prod.mk.inj (Option.some.inj same)
    exact Option.filter_eq_some_iff.mp kept

theorem none_of_selectOne {choice : Option K} (selected : selectOne table p choice = some none)
    {k : K} {row : V} (stored : table.lookup k = some row) : p row = false := by
  cases choice with
  | none =>
    by_contra holds
    have listed : (table.entries.any fun row => p row.2) = true :=
      List.any_eq_true.mpr ⟨⟨k, row⟩, AList.mem_lookup_iff.mp stored, by simpa using holds⟩
    rw [selectOne, if_pos listed] at selected
    exact nomatch selected
  | some chosen =>
    obtain ⟨found, kept, same⟩ := Option.map_eq_some_iff.mp selected
    exact nomatch same

/-- What `SELECT … WHERE p ORDER BY … LIMIT limit` may fetch: rows that the order
does not tell apart come in any order, and any of them are left out. -/
structure Fetched (table : FiniteTable K V) (p : V → Bool) (before : V → V → Bool) (limit : ℕ)
    (rows : List (K × V)) : Prop where
  stored : ∀ row ∈ rows, table.lookup row.1 = some row.2 ∧ p row.2 = true
  nodup : (rows.map Prod.fst).Nodup
  ordered : rows.Pairwise fun a b => before b.2 a.2 = false
  few : rows.length ≤ limit
  rest : ∀ row ∈ table.entries, p row.2 = true → row.1 ∉ rows.map Prod.fst →
    rows.length = limit ∧ ∀ a ∈ rows, before row.2 a.2 = false

instance [DecidableEq V] {before : V → V → Bool} {limit : ℕ} {rows : List (K × V)} :
    Decidable (Fetched table p before limit rows) :=
  decidable_of_iff ((∀ row ∈ rows, table.lookup row.1 = some row.2 ∧ p row.2 = true) ∧
      (rows.map Prod.fst).Nodup ∧ (rows.Pairwise fun a b => before b.2 a.2 = false) ∧
      rows.length ≤ limit ∧
      ∀ row ∈ table.entries, p row.2 = true → row.1 ∉ rows.map Prod.fst →
        rows.length = limit ∧ ∀ a ∈ rows, before row.2 a.2 = false)
    ⟨fun ⟨stored, nodup, ordered, few, rest⟩ => ⟨stored, nodup, ordered, few, rest⟩,
      fun fetched => ⟨fetched.stored, fetched.nodup, fetched.ordered, fetched.few, fetched.rest⟩⟩

/-- `UPDATE … WHERE p` -/
def updateWhere (table : FiniteTable K V) (p : V → Bool) (f : V → V) : FiniteTable K V where
  entries := table.entries.map fun row => ⟨row.1, if p row.2 then f row.2 else row.2⟩
  nodupKeys := by
    have keys : (table.entries.map fun row =>
        (⟨row.1, if p row.2 then f row.2 else row.2⟩ : Sigma fun _ : K => V)).keys =
          table.entries.keys := by
      simp only [List.keys, List.map_map]
      rfl
    unfold List.NodupKeys
    rw [keys]
    exact table.keys_nodup

theorem lookup_updateWhere (k : K) : (updateWhere table p f).lookup k =
    (table.lookup k).map fun row => if p row then f row else row := by
  cases stored : table.lookup k with
  | none =>
    have absent : k ∉ table.entries.keys := AList.lookup_eq_none.mp stored
    refine AList.lookup_eq_none.mpr fun there => absent ?_
    obtain ⟨row, member, same⟩ := List.mem_map.mp there
    obtain ⟨before, listed, rfl⟩ := List.mem_map.mp member
    exact List.mem_map.mpr ⟨before, listed, same⟩
  | some row =>
    apply AList.mem_lookup_iff.mpr
    exact List.mem_map.mpr ⟨⟨k, row⟩, AList.mem_lookup_iff.mp stored, rfl⟩

theorem mem_updateWhere {k : K} : k ∈ updateWhere table p f ↔ k ∈ table := by
  rw [← AList.lookup_isSome, ← AList.lookup_isSome, lookup_updateWhere, Option.isSome_map]

end RowQueries
