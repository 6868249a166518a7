import TradingPlatform.Summary.AccountSummary

namespace TradingPlatform

open Grouping

section NetMargin
variable {α β κ : Type} [DecidableEq κ]

/-- The margin of one group: its share that longs and shorts leave over. -/
def groupMargin (size signed margin : α → ℚ) (xs : List α) : ℚ :=
  if 0 < (xs.map size).sum then
    min (|(xs.map signed).sum| / (xs.map size).sum) 1 * (xs.map margin).sum
  else 0

/-- The margin of a portfolio netted within the groups that a key makes. -/
def netMargin (key : α → κ) (size signed margin : α → ℚ) (xs : List α) : ℚ :=
  ∑ k ∈ (xs.map key).toFinset, groupMargin size signed margin (xs.filter (key · = k))

variable {size signed margin : α → ℚ} {xs ys : List α}

theorem groupMargin_perm (same : xs.Perm ys) :
    groupMargin size signed margin xs = groupMargin size signed margin ys := by
  unfold groupMargin
  rw [(same.map size).sum_eq, (same.map signed).sum_eq, (same.map margin).sum_eq]

theorem netMargin_perm (key : α → κ) (same : xs.Perm ys) :
    netMargin key size signed margin xs = netMargin key size signed margin ys := by
  unfold netMargin
  rw [List.toFinset_eq_of_perm _ _ (same.map key)]
  exact Finset.sum_congr rfl fun k _ => groupMargin_perm (same.filter _)

/-- Elements without margin that fill whole groups do not count. -/
theorem netMargin_filter (key : α → κ) (p : α → Bool) (none : ∀ x ∈ xs, ¬ p x → margin x = 0)
    (whole : ∀ x ∈ xs, ∀ y ∈ xs, key y = key x → p y = p x) :
    netMargin key size signed margin (xs.filter p) = netMargin key size signed margin xs := by
  unfold netMargin
  have keys : ((xs.filter p).map key).toFinset ⊆ (xs.map key).toFinset := by
    intro k member
    rw [List.mem_toFinset, List.mem_map] at member ⊢
    obtain ⟨x, kept, keyed⟩ := member
    exact ⟨x, List.mem_of_mem_filter kept, keyed⟩
  rw [Finset.sum_subset keys]
  · refine Finset.sum_congr rfl fun k member => ?_
    obtain ⟨x, inList, rfl⟩ := List.mem_map.mp (List.mem_toFinset.mp member)
    by_cases kept : p x
    · congr 1
      rw [List.filter_filter]
      refine List.filter_congr fun y later => ?_
      by_cases same : key y = key x
      · simp [same, whole x inList y later same, kept]
      · simp [same]
    · have empty : (xs.filter p).filter (key · = key x) = [] := by
        refine List.filter_eq_nil_iff.mpr fun y later => ?_
        obtain ⟨inList', holds⟩ := List.mem_filter.mp later
        intro same
        rw [whole x inList y inList' (of_decide_eq_true same)] at holds
        exact kept holds
      have noMargin : ((xs.filter (key · = key x)).map margin).sum = 0 := by
        refine List.sum_eq_zero fun m isMargin => ?_
        obtain ⟨y, grouped, rfl⟩ := List.mem_map.mp isMargin
        obtain ⟨inList', same⟩ := List.mem_filter.mp grouped
        refine none y inList' fun holds => kept ?_
        rw [← whole x inList y inList' (of_decide_eq_true same)]
        exact holds
      rw [empty, groupMargin, groupMargin, noMargin]
      simp
  · intro k _ absent
    have empty : (xs.filter p).filter (key · = k) = [] := by
      refine List.filter_eq_nil_iff.mpr fun y later same => absent ?_
      rw [List.mem_toFinset, List.mem_map]
      exact ⟨y, later, of_decide_eq_true same⟩
    rw [empty, groupMargin]
    simp

theorem NetGroup.foldl_add (g : NetGroup) (size signed margin : α → ℚ) (xs : List α) :
    xs.foldl (fun g x => g.add (size x) (signed x) (margin x)) g =
      ⟨g.totalAbsSize + (xs.map size).sum, g.netSignedSize + (xs.map signed).sum,
        g.totalMargin + (xs.map margin).sum, g.quoteCurrency⟩ := by
  induction xs generalizing g with
  | nil => simp
  | cons x rest ih =>
    rw [List.foldl_cons, ih]
    simp [NetGroup.add, add_assoc]

theorem NetGroup.marginUsd_foldl (rates : Rates) (quote : String) (size signed margin : α → ℚ)
    (xs : List α) :
    (xs.foldl (fun g x => NetGroup.add g (size x) (signed x) (margin x)) (.start quote)).marginUsd
        rates =
      groupMargin size signed margin xs * usdFactor rates quote := by
  rw [foldl_add]
  unfold marginUsd groupMargin
  by_cases supported : quoteCurrencySupported rates quote
  · simp only [start, supported, and_true, zero_add, ite_mul, zero_mul]
    rw [convertWithRates_usd supported]
    rfl
  · simp only [start, supported, usdFactor_of_not_supported supported, and_false, if_false,
      mul_zero, Bool.false_eq_true]

/-- Both loops over groups compute the net margin in USD, given one quote
currency to a group. -/
theorem total_marginUsd {rates : Rates} (key : α → κ) (quote : α → String) (factor : α → ℚ)
    (converts : ∀ x ∈ xs, ∀ y ∈ xs, key y = key x → factor y = usdFactor rates (quote x)) :
    FiniteTable.total (fun _ (g : NetGroup) => g.marginUsd rates)
      (grouped key (fun x => NetGroup.start (quote x))
        (fun g x => g.add (size x) (signed x) (margin x)) xs) =
      netMargin key size signed (fun x => margin x * factor x) xs := by
  rw [total_grouped]
  refine Finset.sum_congr rfl fun k _ => ?_
  cases group : xs.filter (key · = k) with
  | nil => simp [entry, groupMargin]
  | cons x rest =>
    have inGroup : ∀ y ∈ x :: rest, y ∈ xs ∧ key y = k := by
      intro y member
      rw [← group] at member
      exact ⟨List.mem_of_mem_filter member, of_decide_eq_true (List.mem_filter.mp member).2⟩
    obtain ⟨isMember, keyed⟩ := inGroup x List.mem_cons_self
    have inUsd : ((x :: rest).map fun y => margin y * factor y).sum =
        ((x :: rest).map margin).sum * usdFactor rates (quote x) := by
      rw [← List.sum_map_mul_right]
      congr 1
      apply List.map_congr_left
      intro y member
      obtain ⟨later, sameKey⟩ := inGroup y member
      rw [converts x isMember y later (sameKey.trans keyed.symm)]
    rw [entry, Option.elim_some, NetGroup.marginUsd_foldl, groupMargin,
      groupMargin, inUsd, ite_mul, zero_mul, mul_assoc]

end NetMargin

theorem addUsd_eq (rates : Rates) (quote : String) (amount total : ℚ) :
    addUsd rates quote amount total = total + amount * usdFactor rates quote := by
  unfold addUsd
  split_ifs with supported
  · rw [convertWithRates_usd supported]
  · rw [usdFactor_of_not_supported supported, mul_zero, add_zero]

theorem sumUsd_eq {α : Type} (rates : Rates) (quote : α → String) (amount : α → ℚ) (xs : List α) :
    sumUsd rates quote amount xs = (xs.map fun x => amount x * usdFactor rates (quote x)).sum := by
  have general (total : ℚ) : xs.foldl (fun total x => addUsd rates (quote x) (amount x) total)
      total = total + (xs.map fun x => amount x * usdFactor rates (quote x)).sum := by
    induction xs generalizing total with
    | nil => simp
    | cons x rest ih =>
      rw [List.foldl_cons, addUsd_eq, ih, List.map_cons, List.sum_cons, add_assoc]
  rw [sumUsd, general 0, zero_add]

namespace SummaryInput
variable (inp : SummaryInput)

/-- The hash of a row's position. -/
def hashOf (row : DbPosition) : PositionHash := (inp.store.hash (.uuid row.uuid)).getD {}

def symbolOf (row : DbPosition) : SymbolRow := (inp.symbols.lookup row.symbolId).getD ⟨"", ""⟩

/-- An amount in the quote currency of the row's symbol, in USD. -/
def usd (row : DbPosition) (amount : ℚ) : ℚ :=
  amount * usdFactor inp.rates (inp.symbolOf row).quoteCurrency

def openRows : List DbPosition := inp.rows.filter fun row => isOpen row.status

def closedRows : List DbPosition := inp.rows.filter fun row => !isOpen row.status

def openMarginUsd : ℚ := (inp.openRows.map fun row => inp.usd row row.marginUsed).sum

/-- PnL of the open rows less the swap that they have accumulated. -/
def openPnlUsd : ℚ :=
  (inp.openRows.map fun row => inp.usd row row.pnl).sum -
    (inp.openRows.map (·.accumulatedSwapUsd)).sum

def closedPnlUsd : ℚ := (inp.closedRows.map fun row => inp.usd row (closedPnl row)).sum

def netMarginUsd {κ : Type} [DecidableEq κ] (key : DbPosition → κ) : ℚ :=
  netMargin key (·.size) rowSigned (fun row => inp.usd row row.marginUsed) inp.openRows

/-- The margin of the mode, netted within the groups of the key. -/
def marginUsd {κ : Type} [DecidableEq κ] (key : DbPosition → κ) : ℚ :=
  match inp.mode with
  | .hedged => inp.openMarginUsd
  | .net => inp.netMarginUsd key

/-- A row agrees with the hash of its position, names the symbol that the
hash's code stands for, and while open carries the current unrealised PnL. -/
structure MirrorsHash (row : DbPosition) : Prop where
  symbolRow : (inp.symbols.lookup row.symbolId).isSome
  symbol : (inp.hashOf row).symbol = some (inp.symbolOf row).code
  quote : inp.symbolMap (normalizeSymbol (inp.symbolOf row).code) =
    some (normalizeSymbol (inp.symbolOf row).quoteCurrency)
  side : (inp.hashOf row).side = some row.side
  size : (inp.hashOf row).size = some row.size
  margin : (inp.hashOf row).margin = some row.marginUsed
  status : (inp.hashOf row).status = some row.status
  pnl : isOpen row.status → row.pnl = (inp.unrealizedQuote (inp.hashOf row)).1

instance (row : DbPosition) : Decidable (inp.MirrorsHash row) :=
  decidable_of_iff
    ((inp.symbols.lookup row.symbolId).isSome ∧
      (inp.hashOf row).symbol = some (inp.symbolOf row).code ∧
      inp.symbolMap (normalizeSymbol (inp.symbolOf row).code) =
        some (normalizeSymbol (inp.symbolOf row).quoteCurrency) ∧
      (inp.hashOf row).side = some row.side ∧ (inp.hashOf row).size = some row.size ∧
      (inp.hashOf row).margin = some row.marginUsed ∧
      (inp.hashOf row).status = some row.status ∧
      (isOpen row.status → row.pnl = (inp.unrealizedQuote (inp.hashOf row)).1))
    ⟨fun ⟨a, b, c, d, e, f, g, h⟩ => ⟨a, b, c, d, e, f, g, h⟩,
      fun ⟨a, b, c, d, e, f, g, h⟩ => ⟨a, b, c, d, e, f, g, h⟩⟩

def uuidOf : PositionId → Option ℕ
  | .uuid n => some n
  | .legacy _ => none

/-- The rows whose positions are listed in Redis. -/
def listedRows : List DbPosition := inp.rows.filter fun row => .uuid row.uuid ∈ inp.ids

/-- The rows mirror the hashes listed in Redis, no open position is unlisted,
and the snapshot converts every quote currency of theirs. -/
structure Mirrored : Prop where
  ids : (inp.ids.filterMap uuidOf).Perm (inp.listedRows.map (·.uuid))
  listed : ∀ row ∈ inp.rows, isOpen row.status → .uuid row.uuid ∈ inp.ids
  rows : ∀ row ∈ inp.rows, inp.MirrorsHash row
  supported : ∀ row ∈ inp.rows,
    quoteCurrencySupported inp.rates (inp.symbolOf row).quoteCurrency

instance : Decidable inp.Mirrored :=
  decidable_of_iff
    ((inp.ids.filterMap uuidOf).Perm (inp.listedRows.map (·.uuid)) ∧
      (∀ row ∈ inp.rows, isOpen row.status → .uuid row.uuid ∈ inp.ids) ∧
      (∀ row ∈ inp.rows, inp.MirrorsHash row) ∧ ∀ row ∈ inp.rows,
        quoteCurrencySupported inp.rates (inp.symbolOf row).quoteCurrency)
    ⟨fun ⟨ids, listed, rows, supported⟩ => ⟨ids, listed, rows, supported⟩,
      fun ⟨ids, listed, rows, supported⟩ => ⟨ids, listed, rows, supported⟩⟩

/-- `Mirrored` without the condition on the snapshot. -/
structure RowsMirrored : Prop where
  ids : (inp.ids.filterMap uuidOf).Perm (inp.listedRows.map (·.uuid))
  listed : ∀ row ∈ inp.rows, isOpen row.status → .uuid row.uuid ∈ inp.ids
  rows : ∀ row ∈ inp.rows, inp.MirrorsHash row

instance : Decidable inp.RowsMirrored :=
  decidable_of_iff
    ((inp.ids.filterMap uuidOf).Perm (inp.listedRows.map (·.uuid)) ∧
      (∀ row ∈ inp.rows, isOpen row.status → .uuid row.uuid ∈ inp.ids) ∧
      ∀ row ∈ inp.rows, inp.MirrorsHash row)
    ⟨fun ⟨ids, listed, rows⟩ => ⟨ids, listed, rows⟩,
      fun ⟨ids, listed, rows⟩ => ⟨ids, listed, rows⟩⟩

/-- The snapshot converts the row's quote currency. -/
def covered (row : DbPosition) : Bool :=
  quoteCurrencySupported inp.rates (inp.symbolOf row).quoteCurrency

variable {inp}

theorem Mirrored.rowsMirrored (mirrored : inp.Mirrored) : inp.RowsMirrored :=
  ⟨mirrored.ids, mirrored.listed, mirrored.rows⟩

theorem RowsMirrored.joined_eq (mirrored : inp.RowsMirrored) (wanted : PositionStatus → Bool) :
    inp.joined wanted = (inp.rows.filter fun row => wanted row.status).map
      fun row => (row, inp.symbolOf row) := by
  have symbols : ∀ row ∈ inp.rows, (inp.symbols.lookup row.symbolId).isSome :=
    fun row member => (mirrored.rows row member).symbolRow
  unfold joined
  revert symbols
  generalize inp.rows = rows
  intro symbols
  induction rows with
  | nil => rfl
  | cons row rest ih =>
    obtain ⟨s, hasSymbol⟩ := Option.isSome_iff_exists.mp (symbols row List.mem_cons_self)
    have others := ih fun other member => symbols other (List.mem_cons_of_mem row member)
    rw [List.filterMap_cons, others, List.filter_cons]
    split_ifs
    · simp [symbolOf, hasSymbol]
    · rfl

/-- The trimmed quote currency of the database path converts as it is. -/
theorem usdFactor_trim (rates : Rates) (quote : String) :
    usdFactor rates (trim quote) = usdFactor rates quote :=
  usdFactor_congr (normCurrency_congr (normalizeSymbol_trim quote))

theorem RowsMirrored.sumUsd_joined (mirrored : inp.RowsMirrored) (wanted : PositionStatus → Bool)
    (amount : DbPosition → ℚ) :
    sumUsd inp.rates (fun p : DbPosition × SymbolRow => trim p.2.quoteCurrency)
      (fun p => amount p.1) (inp.joined wanted) =
    ((inp.rows.filter fun row => wanted row.status).map fun row =>
      inp.usd row (amount row)).sum := by
  rw [mirrored.joined_eq, sumUsd_eq, List.map_map]
  refine congrArg List.sum (List.map_congr_left fun row _ => ?_)
  simp only [Function.comp_apply, usd, usdFactor_trim]

theorem RowsMirrored.dbMargin (mirrored : inp.RowsMirrored) :
    FiniteTable.total (fun _ (g : NetGroup) => g.marginUsd inp.rates) inp.dbGroups =
      inp.netMarginUsd (·.symbolId) := by
  have regrouped : inp.dbGroups = grouped (fun row : DbPosition => row.symbolId)
      (fun row => NetGroup.start (trim (inp.symbolOf row).quoteCurrency))
      (fun g row => g.add row.size (rowSigned row) row.marginUsed) inp.openRows := by
    unfold dbGroups
    rw [mirrored.joined_eq, grouped, List.foldl_map]
    rfl
  rw [regrouped, total_marginUsd _ _ fun row => usdFactor inp.rates (inp.symbolOf row).quoteCurrency]
  · rfl
  · intro row member other _ same
    have symbol : inp.symbolOf other = inp.symbolOf row := by
      unfold symbolOf
      rw [same]
    rw [usdFactor_trim, symbol]

theorem RowsMirrored.fromDb (mirrored : inp.RowsMirrored) : inp.fetchPositionAggregatesFromDb =
    (inp.marginUsd (·.symbolId), inp.closedPnlUsd, inp.openPnlUsd) := by
  have closed : inp.sumClosedRealizedPnlUsd = inp.closedPnlUsd := mirrored.sumUsd_joined _ _
  have pnl := mirrored.sumUsd_joined isOpen (·.pnl)
  have margin := mirrored.sumUsd_joined isOpen (·.marginUsed)
  unfold fetchPositionAggregatesFromDb marginUsd
  dsimp only
  rw [closed, pnl, mirrored.dbMargin, margin]
  cases inp.mode <;> rfl

/-- The quote currency as the Redis path reads it. -/
def redisQuote (inp : SummaryInput) (row : DbPosition) : String :=
  normalizeSymbol (inp.symbolOf row).quoteCurrency

theorem redisQuote_converts (row : DbPosition) :
    quoteCurrencySupported inp.rates (inp.redisQuote row) = inp.covered row ∧
    usdFactor inp.rates (inp.redisQuote row) =
      usdFactor inp.rates (inp.symbolOf row).quoteCurrency := by
  have same := normCurrency_congr (normalizeSymbol_normalizeSymbol (inp.symbolOf row).quoteCurrency)
  exact ⟨quoteCurrencySupported_congr same, usdFactor_congr same⟩

theorem usd_of_not_covered {row : DbPosition} (uncovered : ¬ inp.covered row) (amount : ℚ) :
    inp.usd row amount = 0 := by
  rw [usd, usdFactor_of_not_supported uncovered, mul_zero]

def addRow (inp : SummaryInput) (groups : FiniteTable (Symbol × GroupId) NetGroup)
    (row : DbPosition) : FiniteTable (Symbol × GroupId) NetGroup :=
  addTo (fun row => hashKey (inp.hashOf row)) (fun row => NetGroup.start (inp.redisQuote row))
    (fun g row => g.add row.size (rowSigned row) row.marginUsed) groups row

/-- The margin part of an open position that its row mirrors. -/
theorem RowsMirrored.chargeMargin_eq (mirrored : inp.RowsMirrored) {row : DbPosition}
    (member : row ∈ inp.rows) (covered : inp.covered row) (totals : RedisTotals) :
    inp.chargeMargin totals (inp.redisQuote row) (inp.hashOf row) = some
      (match inp.mode with
      | .hedged => { totals with marginUsed := totals.marginUsed + inp.usd row row.marginUsed }
      | .net => { totals with netGroups := inp.addRow totals.netGroups row }) := by
  obtain ⟨same, factor⟩ := inp.redisQuote_converts row
  have supported := same.trans covered
  have mirrors := mirrored.rows row member
  unfold chargeMargin
  cases inp.mode with
  | hedged =>
    dsimp only
    rw [convertWithRates_usd supported, factor, mirrors.margin]
    rfl
  | net =>
    have signed : hashSigned (inp.hashOf row) = rowSigned row := by
      unfold hashSigned rowSigned
      rw [mirrors.side, mirrors.size]
      cases row.side <;> rfl
    dsimp only
    rw [addRow, addTo, addTo, mirrors.size, mirrors.margin, signed]
    rfl

/-- A round of the loop up to the check of the quote currency. -/
theorem RowsMirrored.redisStep_quoted (mirrored : inp.RowsMirrored) {row : DbPosition}
    (member : row ∈ inp.rows) :
    inp.symbolMap (normalizeSymbol (((inp.store.hash (.uuid row.uuid)).getD {}).symbol.getD "")) =
      some (inp.redisQuote row) := by
  have hash : (inp.store.hash (.uuid row.uuid)).getD {} = inp.hashOf row := rfl
  have mirrors := mirrored.rows row member
  rw [hash, mirrors.symbol]
  exact mirrors.quote

theorem RowsMirrored.redisStep_uncovered (mirrored : inp.RowsMirrored) {row : DbPosition}
    (member : row ∈ inp.rows) (uncovered : ¬ inp.covered row) (totals : RedisTotals) :
    inp.redisStep totals (.uuid row.uuid) = totals := by
  have unsupported : ¬ quoteCurrencySupported inp.rates (inp.redisQuote row) := by
    rwa [(inp.redisQuote_converts row).1]
  unfold redisStep
  dsimp only
  rw [mirrored.redisStep_quoted member]
  dsimp only
  rw [if_neg unsupported]

theorem RowsMirrored.redisStep_open (mirrored : inp.RowsMirrored) {row : DbPosition}
    (member : row ∈ inp.rows) (covered : inp.covered row) (opened : isOpen row.status)
    (totals : RedisTotals) :
    ∃ realized, inp.redisStep totals (.uuid row.uuid) =
      { (match inp.mode with
        | .hedged => { totals with marginUsed := totals.marginUsed + inp.usd row row.marginUsed }
        | .net => { totals with netGroups := inp.addRow totals.netGroups row } : RedisTotals) with
        unrealizedPnl := totals.unrealizedPnl + inp.usd row row.pnl
        realizedPnl := realized } := by
  obtain ⟨same, factor⟩ := inp.redisQuote_converts row
  have supported := same.trans covered
  have mirrors := mirrored.rows row member
  have hash : (inp.store.hash (.uuid row.uuid)).getD {} = inp.hashOf row := rfl
  have status : (inp.hashOf row).status = some .OPEN := by
    rw [mirrors.status, of_decide_eq_true opened]
  unfold redisStep
  dsimp only
  rw [mirrored.redisStep_quoted member, hash]
  dsimp only
  rw [if_pos supported, convertWithRates_usd supported]
  dsimp only
  rw [if_pos status, mirrored.chargeMargin_eq member covered, convertWithRates_usd supported,
    factor, ← mirrors.pnl opened]
  cases inp.mode <;> exact ⟨_, rfl⟩

theorem RowsMirrored.redisStep_closed (mirrored : inp.RowsMirrored) {row : DbPosition}
    (member : row ∈ inp.rows) (covered : inp.covered row) (closed : ¬ isOpen row.status)
    (totals : RedisTotals) :
    ∃ realized, inp.redisStep totals (.uuid row.uuid) = { totals with realizedPnl := realized } := by
  have supported := (inp.redisQuote_converts row).1.trans covered
  have mirrors := mirrored.rows row member
  have hash : (inp.store.hash (.uuid row.uuid)).getD {} = inp.hashOf row := rfl
  have status : (inp.hashOf row).status ≠ some .OPEN := by
    rw [mirrors.status]
    exact fun same => closed (decide_eq_true (Option.some.inj same))
  unfold redisStep
  dsimp only
  rw [mirrored.redisStep_quoted member, hash]
  dsimp only
  rw [if_pos supported, convertWithRates_usd supported]
  dsimp only
  rw [if_neg status]
  exact ⟨_, rfl⟩

/-- What the loop over the positions of some rows adds up. -/
theorem RowsMirrored.foldl_redisStep (mirrored : inp.RowsMirrored) {xs : List DbPosition}
    (inRows : ∀ row ∈ xs, row ∈ inp.rows) (totals : RedisTotals) :
    ∃ realized, xs.foldl (fun totals row => inp.redisStep totals (.uuid row.uuid)) totals =
      { marginUsed := totals.marginUsed + (match inp.mode with
          | .hedged => ((xs.filter fun row => isOpen row.status).map
              fun row => inp.usd row row.marginUsed).sum
          | .net => 0)
        unrealizedPnl := totals.unrealizedPnl + ((xs.filter fun row => isOpen row.status).map
          fun row => inp.usd row row.pnl).sum
        realizedPnl := realized
        netGroups := match inp.mode with
          | .hedged => totals.netGroups
          | .net => ((xs.filter fun row => isOpen row.status).filter inp.covered).foldl inp.addRow
              totals.netGroups } := by
  induction xs generalizing totals with
  | nil => cases inp.mode <;> exact ⟨totals.realizedPnl, by simp⟩
  | cons row rest ih =>
    have member : row ∈ inp.rows := inRows row List.mem_cons_self
    have others := ih fun other later => inRows other (List.mem_cons_of_mem row later)
    rw [List.foldl_cons]
    by_cases covered : inp.covered row
    · by_cases opened : isOpen row.status
      · obtain ⟨realized, stepped⟩ := mirrored.redisStep_open member covered opened totals
        have kept : (row :: rest).filter (fun row => isOpen row.status) =
          row :: rest.filter fun row => isOpen row.status := List.filter_cons_of_pos opened
        rw [stepped, kept, List.filter_cons_of_pos covered]
        obtain ⟨final, folded⟩ := others { (match inp.mode with
          | .hedged => { totals with marginUsed := totals.marginUsed + inp.usd row row.marginUsed }
          | .net => { totals with netGroups := inp.addRow totals.netGroups row } : RedisTotals) with
          unrealizedPnl := totals.unrealizedPnl + inp.usd row row.pnl
          realizedPnl := realized }
        refine ⟨final, folded.trans ?_⟩
        cases inp.mode <;> simp [add_assoc]
      · obtain ⟨realized, stepped⟩ := mirrored.redisStep_closed member covered opened totals
        have skipped : (row :: rest).filter (fun row => isOpen row.status) =
          rest.filter fun row => isOpen row.status := List.filter_cons_of_neg opened
        rw [stepped, skipped]
        exact others { totals with realizedPnl := realized }
    · rw [mirrored.redisStep_uncovered member covered]
      obtain ⟨final, folded⟩ := others totals
      refine ⟨final, folded.trans ?_⟩
      by_cases opened : isOpen row.status
      · have kept : (row :: rest).filter (fun row => isOpen row.status) =
          row :: rest.filter fun row => isOpen row.status := List.filter_cons_of_pos opened
        rw [kept, List.filter_cons_of_neg covered]
        simp [usd_of_not_covered covered]
      · have skipped : (row :: rest).filter (fun row => isOpen row.status) =
          rest.filter fun row => isOpen row.status := List.filter_cons_of_neg opened
        rw [skipped]

theorem foldl_ids (ids : List PositionId) (totals : RedisTotals) :
    ids.foldl inp.redisStep totals =
      (ids.filterMap uuidOf).foldl (fun totals n => inp.redisStep totals (.uuid n)) totals := by
  induction ids generalizing totals with
  | nil => rfl
  | cons p rest ih => cases p <;> exact ih _

/-- Rows of one symbol and group have one quote currency. -/
theorem RowsMirrored.redisQuote_eq (mirrored : inp.RowsMirrored) {row other : DbPosition}
    (member : row ∈ inp.rows) (later : other ∈ inp.rows)
    (same : hashKey (inp.hashOf other) = hashKey (inp.hashOf row)) :
    inp.redisQuote other = inp.redisQuote row := by
  have codes : normalizeSymbol (inp.symbolOf other).code =
      normalizeSymbol (inp.symbolOf row).code := by
    have symbols := congrArg Prod.fst same
    rw [hashKey, hashKey, (mirrored.rows other later).symbol, (mirrored.rows row member).symbol]
      at symbols
    exact congrArg normalizeSymbol symbols
  have mapped := (mirrored.rows other later).quote
  rw [codes, (mirrored.rows row member).quote] at mapped
  exact (Option.some.inj mapped).symm

theorem RowsMirrored.redisMargin (mirrored : inp.RowsMirrored) {xs : List DbPosition}
    (inRows : ∀ row ∈ xs, row ∈ inp.rows) :
    FiniteTable.total (fun _ (g : NetGroup) => g.marginUsd inp.rates)
        ((xs.filter inp.covered).foldl inp.addRow ∅) =
      netMargin (fun row => hashKey (inp.hashOf row)) (·.size) rowSigned
        (fun row => inp.usd row row.marginUsed) xs := by
  have regrouped : (xs.filter inp.covered).foldl inp.addRow ∅ =
    grouped (fun row => hashKey (inp.hashOf row)) (fun row => NetGroup.start (inp.redisQuote row))
    (fun g row => g.add row.size (rowSigned row) row.marginUsed) (xs.filter inp.covered) := rfl
  have oneQuote : ∀ row ∈ xs, ∀ other ∈ xs, hashKey (inp.hashOf other) = hashKey (inp.hashOf row) →
      inp.redisQuote other = inp.redisQuote row := fun row member other later =>
    mirrored.redisQuote_eq (inRows row member) (inRows other later)
  rw [regrouped, total_marginUsd _ _ fun row => usdFactor inp.rates (inp.symbolOf row).quoteCurrency]
  · refine netMargin_filter _ inp.covered (fun row _ uncovered => usd_of_not_covered uncovered _) ?_
    intro row member other later same
    rw [← (inp.redisQuote_converts other).1, ← (inp.redisQuote_converts row).1,
      oneQuote row member other later same]
  · intro row member other later same
    rw [← (inp.redisQuote_converts other).2,
      oneQuote row (List.mem_of_mem_filter member) other (List.mem_of_mem_filter later) same]

theorem RowsMirrored.fromRedis (mirrored : inp.RowsMirrored) :
    ∃ realized, inp.fetchPositionAggregatesFromRedis =
      (inp.marginUsd (fun row => hashKey (inp.hashOf row)), inp.openPnlUsd, realized) := by
  obtain ⟨xs, listed, same⟩ : ∃ xs : List DbPosition, inp.ids.filterMap uuidOf = xs.map (·.uuid) ∧
      xs.Perm inp.listedRows := by
    have composed := congrFun (congrFun (List.eq_map_comp_perm fun row : DbPosition => row.uuid)
      (inp.ids.filterMap uuidOf)) inp.listedRows
    exact (eq_iff_iff.mp composed).mpr mirrored.ids
  have inRows : ∀ row ∈ xs, row ∈ inp.rows :=
    fun row member => List.mem_of_mem_filter (same.mem_iff.mp member)
  have openListed : inp.listedRows.filter (fun row => isOpen row.status) = inp.openRows := by
    unfold listedRows openRows
    rw [List.filter_filter]
    apply List.filter_congr
    intro row member
    by_cases opened : isOpen row.status
    · simp [opened, mirrored.listed row member opened]
    · simp [opened]
  have openSame : (xs.filter fun row => isOpen row.status).Perm inp.openRows :=
    openListed ▸ same.filter _
  obtain ⟨realized, folded⟩ := mirrored.foldl_redisStep inRows {}
  refine ⟨realized, ?_⟩
  unfold fetchPositionAggregatesFromRedis
  rw [foldl_ids, listed, List.foldl_map, folded]
  have pnl := (openSame.map fun row => inp.usd row row.pnl).sum_eq
  have margin := (openSame.map fun row => inp.usd row row.marginUsed).sum_eq
  have openRows : ∀ row ∈ xs.filter fun row => isOpen row.status, row ∈ inp.rows :=
    fun row member => inRows row (List.mem_of_mem_filter member)
  have net := mirrored.redisMargin openRows
  dsimp only
  rw [pnl, margin, zero_add, zero_add]
  unfold marginUsd openMarginUsd netMarginUsd openPnlUsd
  cases inp.mode with
  | hedged => simp only [FiniteTable.total_empty, add_zero]; rfl
  | net =>
    simp only [zero_add]
    rw [net, netMargin_perm _ openSame]
    rfl

end SummaryInput

/-- The five figures that both paths must agree on. -/
structure AccountSummary.SameFigures (first second : AccountSummary) : Prop where
  marginUsed : first.marginUsed = second.marginUsed
  unrealizedPnl : first.unrealizedPnl = second.unrealizedPnl
  equity : first.equity = second.equity
  freeMargin : first.freeMargin = second.freeMargin
  marginLevel : first.marginLevel = second.marginLevel

/-- The paths agree exactly when the closed positions have made in USD what
the open ones show, less their swap, and netting by symbol and group gives the
same margin as netting by symbol. -/
theorem SummaryInput.sameFigures_iff {inp : SummaryInput} (mirrored : inp.Mirrored) :
    (inp.computeAccountSummaryInner true).SameFigures (inp.computeAccountSummaryInner false) ↔
      inp.closedPnlUsd = inp.openPnlUsd ∧ (inp.mode = .net →
        inp.netMarginUsd (fun row => hashKey (inp.hashOf row)) = inp.netMarginUsd (·.symbolId)) := by
  obtain ⟨realized, redis⟩ := mirrored.rowsMirrored.fromRedis
  have db := mirrored.rowsMirrored.fromDb
  have margins : inp.marginUsd (fun row => hashKey (inp.hashOf row)) =
      inp.marginUsd (·.symbolId) ↔ (inp.mode = .net →
        inp.netMarginUsd (fun row => hashKey (inp.hashOf row)) = inp.netMarginUsd (·.symbolId)) := by
    unfold marginUsd
    cases inp.mode <;> simp
  rw [← margins]
  constructor
  · intro same
    have margin := same.marginUsed
    have pnl := same.unrealizedPnl
    simp only [computeAccountSummaryInner, redis, db, if_true, Bool.false_eq_true, if_false] at margin pnl
    exact ⟨pnl.symm, margin⟩
  · rintro ⟨pnl, margin⟩
    constructor <;> simp only [computeAccountSummaryInner, redis, db, if_true, Bool.false_eq_true,
      if_false, pnl, margin]

section Examples

/-- A long position of 2 bought at 10, now at 12, and one closed with a PnL. -/
def twoPositions (closedPnl : ℚ) : SummaryInput where
  mode := .net
  rates := fun code => if code = "USD" then some 1 else if code = "HUF" then some 360 else none
  symbols := (∅ : FiniteTable SymbolId SymbolRow).insert 1 ⟨"EURHUF", "huf"⟩
  store := (Store.empty.hset (.uuid 1) fun h =>
    { h with
      symbol := some "EURHUF", groupId := some "g", side := some .LONG, size := some 2
      avgPrice := some 10, margin := some 20, status := some .OPEN }).hset (.uuid 2) fun h =>
    { h with
      symbol := some "EURHUF", groupId := some "g", side := some .SHORT, size := some 0
      avgPrice := some 10, margin := some 5, status := some .CLOSED
      realizedPnl := some closedPnl }
  ids := [.uuid 2, .uuid 1]
  prices := fun key => if key = "prices:EURHUF:g" then some (12, 13) else none
  rows :=
    [{ uuid := 1, symbolId := 1, side := .LONG, size := 2, marginUsed := 20, pnl := 4
       status := .OPEN },
     { uuid := 2, symbolId := 1, side := .SHORT, size := 0, marginUsed := 5, pnl := closedPnl
       status := .CLOSED }]
  availableBalance := 100

/-- Nothing made by the closed position: the database path takes its 0 for the
unrealised 4 of the open one. -/
theorem not_sameFigures_twoPositions : (twoPositions 0).Mirrored ∧
    ¬ ((twoPositions 0).computeAccountSummaryInner true).SameFigures
      ((twoPositions 0).computeAccountSummaryInner false) := by
  refine ⟨by decide +kernel, fun same => ?_⟩
  exact absurd same.equity (by decide +kernel)

theorem sameFigures_twoPositions : ((twoPositions 4).computeAccountSummaryInner true).SameFigures
    ((twoPositions 4).computeAccountSummaryInner false) := by
  have mirrored : (twoPositions 4).Mirrored := by decide +kernel
  exact (SummaryInput.sameFigures_iff mirrored).mpr ⟨by decide +kernel, fun _ => by decide +kernel⟩

end Examples

end TradingPlatform
