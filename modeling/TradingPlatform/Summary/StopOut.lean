import TradingPlatform.Engine.CloseAll
import TradingPlatform.Summary.SummaryRuns

namespace TradingPlatform

/-- How a percentage is printed with two decimals and read back as a number.
Neither step crosses zero. -/
structure PrintedLevel where
  shown : ℚ → ℚ
  nonneg : ∀ level, 0 ≤ level → 0 ≤ shown level
  nonpos : ∀ level, level ≤ 0 → shown level ≤ 0

/-- The level as the triggers parse it; `inf` is not finite. -/
def MarginLevel.printed (printed : PrintedLevel) : MarginLevel → MarginLevel
  | .inf => .inf
  | .percent q => .percent (printed.shown q)

/-- The cooldown keys of a user and the published `cmd.position.close_all`. -/
structure TriggerDesk where
  stopOutTriggered : Bool := false
  liquidationTriggered : Bool := false
  published : List CloseAllRequest := []

namespace TriggerDesk
variable (userId : UserId) (level : MarginLevel) (desk : TriggerDesk)

/-- `try_publish_stop_out_close_all` -/
def tryPublishStopOutCloseAll (stopOutThreshold : Option ℚ) : TriggerDesk :=
  match stopOutThreshold with
  | none => desk
  | some threshold =>
    if ¬ level.Below threshold then desk
    else if desk.stopOutTriggered then desk
    else { desk with
      stopOutTriggered := true
      published := desk.published ++ [⟨userId, none⟩] }

/-- `try_publish_liquidation_close_all` -/
def tryPublishLiquidationCloseAll : TriggerDesk :=
  if ¬ level.Below 0 then desk
  else if desk.liquidationTriggered then desk
  else { desk with
    liquidationTriggered := true
    published := desk.published ++ [⟨userId, some "liquidated"⟩] }

end TriggerDesk

/-- One run of the summary up to its two triggers, with the engine that takes
the commands. `reply` lists the user's positions for each of them. -/
structure StopOutRun where
  userId : UserId
  inp : SummaryInput
  indexAvailable : Bool
  threshold : ℚ
  printed : PrintedLevel
  cache : OrderCache
  clock : PositionId → Millis
  reply : List PositionId

namespace StopOutRun
variable (r : StopOutRun)

def summary : AccountSummary := r.inp.computeAccountSummaryInner r.indexAvailable

/-- `equity / margin_used * 100`, before it is printed. -/
def level : ℚ := r.summary.equity / r.summary.marginUsed * 100

/-- What `compute_and_cache_account_summary_with_prices` publishes when no
cooldown key is set. -/
def published : List CloseAllRequest :=
  let level := r.summary.marginLevel.printed r.printed
  let desk : TriggerDesk := {}
  ((desk.tryPublishStopOutCloseAll r.userId level (some r.threshold)).tryPublishLiquidationCloseAll
    r.userId level).published

/-- The engine's store once it has handled them all. -/
def closed : Store :=
  r.published.foldl (fun st request =>
    handleCloseAllPositions r.cache r.clock request r.reply st) r.inp.store

/-- Margin in use, a positive threshold, and open positions that the engine
has a tick for. -/
structure Margined : Prop where
  margin_pos : 0 < r.summary.marginUsed
  threshold_pos : 0 < r.threshold
  listing : Smembers r.reply (r.inp.store.userPositions r.userId)
  closable : ∀ p ∈ r.inp.store.userPositions r.userId, ∀ h ∈ r.inp.store.hash p,
    h.status = some .OPEN → h.Closable r.cache p

/-- Every position of the user that was open has ended in this status. -/
def AllEnd (status : PositionStatus) : Prop :=
  ∀ p ∈ r.inp.store.userPositions r.userId, ∀ h ∈ r.inp.store.hash p, h.status = some .OPEN →
    ∃ g, r.closed.hash p = some g ∧ g.status = some status

/-- Stop-out and liquidation are told apart by the exact level. -/
structure ToldApart : Prop where
  none : r.threshold ≤ r.level → r.published = []
  stopOut : 0 ≤ r.level → r.level < r.threshold →
    r.published = [⟨r.userId, .none⟩] ∧ r.AllEnd .CLOSED
  liquidation : r.level < 0 →
    r.published = [⟨r.userId, some "liquidated"⟩] ∧ r.AllEnd .LIQUIDATED

variable {r}

theorem marginLevel_eq (margined : r.Margined) : r.summary.marginLevel = .percent r.level :=
  if_pos margined.margin_pos

theorem published_eq (margined : r.Margined) : r.published =
    (if r.printed.shown r.level < r.threshold then [⟨r.userId, none⟩] else []) ++
      if r.printed.shown r.level < 0 then [⟨r.userId, some "liquidated"⟩] else [] := by
  unfold published
  rw [marginLevel_eq margined]
  dsimp only [MarginLevel.printed]
  generalize r.printed.shown r.level = shown
  unfold TriggerDesk.tryPublishStopOutCloseAll TriggerDesk.tryPublishLiquidationCloseAll
  by_cases below : shown < r.threshold
  · by_cases negative : shown < 0 <;> simp [MarginLevel.Below, below, negative]
  · by_cases negative : shown < 0 <;> simp [MarginLevel.Below, below, negative]

/-- The one stop-out request closes all positions. -/
theorem allEnd_of_published (margined : r.Margined) {request : CloseAllRequest}
    (one : r.published = [request]) : r.AllEnd request.finalStatus := by
  intro p listed h stored isOpen
  have closed : r.closed =
      handleCloseAllPositions r.cache r.clock request r.reply r.inp.store := by
    rw [closed, one]
    rfl
  rw [closed]
  exact handleCloseAllPositions_closes margined.listing.1
    (margined.listing.mem_iff.mpr listed) stored isOpen (margined.closable p listed h stored isOpen)

theorem toldApart_iff (margined : r.Margined) : r.ToldApart ↔
    0 ≤ r.level ∧ (r.printed.shown r.level < r.threshold ↔ r.level < r.threshold) := by
  have requests := published_eq margined
  constructor
  · intro told
    have nonneg : 0 ≤ r.level := by
      by_contra negative
      have shown : r.printed.shown r.level < r.threshold :=
        (r.printed.nonpos _ (not_le.mp negative).le).trans_lt margined.threshold_pos
      have only := (told.liquidation (not_le.mp negative)).1
      rw [requests, if_pos shown, List.singleton_append] at only
      have first := (List.cons.inj only).1
      cases first
    refine ⟨nonneg, ?_, ?_⟩
    · intro shown
      by_contra above
      have nothing := told.none (not_lt.mp above)
      rw [requests, if_pos shown] at nothing
      cases nothing
    · intro below
      by_contra hidden
      have only := (told.stopOut nonneg below).1
      rw [requests, if_neg hidden, List.nil_append,
        if_neg (not_lt.mpr (r.printed.nonneg _ nonneg))] at only
      cases only
  · rintro ⟨nonneg, sameSide⟩
    have notNegative : ¬ r.printed.shown r.level < 0 := not_lt.mpr (r.printed.nonneg _ nonneg)
    refine ⟨?_, ?_, ?_⟩
    · intro above
      rw [requests, if_neg fun shown => absurd (sameSide.mp shown) (not_lt.mpr above),
        if_neg notNegative, List.nil_append]
    · intro _ below
      have only : r.published = [⟨r.userId, none⟩] := by
        rw [requests, if_pos (sameSide.mpr below), if_neg notNegative, List.append_nil]
      have ended := allEnd_of_published margined only
      rw [finalStatus_stopOut] at ended
      exact ⟨only, ended⟩
    · intro negative
      exact absurd negative (not_lt.mpr nonneg)

/-- Printing with two decimals, the rest cut off. -/
def cutOff : PrintedLevel where
  shown level := if 0 ≤ level then ⌊level * 100⌋ / 100 else -(⌊-level * 100⌋ / 100)
  nonneg level nonneg := by
    rw [if_pos nonneg]
    positivity
  nonpos level nonpos := by
    split_ifs with nonneg
    · have zero : level = 0 := nonpos.antisymm nonneg
      simp [zero]
    · have floored : 0 ≤ ⌊-level * 100⌋ := Int.floor_nonneg.mpr (by linarith)
      have cast : (0 : ℚ) ≤ ⌊-level * 100⌋ := by exact_mod_cast floored
      linarith [div_nonneg cast (by norm_num : (0 : ℚ) ≤ 100)]

section Samples

/-- A wallet with this balance and one position of a margin of 10 that has
lost 10, with a threshold of 50 percent. -/
def sampleRun (balance : ℚ) : StopOutRun where
  userId := 7
  inp :=
    { mode := .hedged
      rates := fun _ => none
      symbols := (∅ : FiniteTable SymbolId SymbolRow).insert 1 ⟨"EURUSD", "USD"⟩
      store := (Store.empty.sadd 7 (.uuid 1)).hset (.uuid 1) fun _ =>
        { userId := some 7, symbol := some "EURUSD", groupId := some "", side := some .LONG
          size := some 1, entryPrice := some 100, avgPrice := some 100, leverage := some 10
          margin := some 10, unrealizedPnl := some (-10), realizedPnl := some 0
          status := some .OPEN }
      ids := [.uuid 1]
      rows := []
      availableBalance := balance }
  indexAvailable := true
  threshold := 50
  printed := cutOff
  cache := OrderCache.new.updateTick ⟨"EURUSD", 90, 91⟩ none
  clock := fun _ => 5
  reply := [.uuid 1]

theorem margined_sampleRun (balance : ℚ) (margin : (sampleRun balance).summary.marginUsed = 10) :
    (sampleRun balance).Margined where
  margin_pos := by rw [margin]; norm_num
  threshold_pos := by norm_num [sampleRun]
  listing := by
    have listed : ((sampleRun balance).inp.store.userPositions 7) = {.uuid 1} := by
      simp [sampleRun, Store.sadd, Store.empty]
    exact ⟨List.nodup_singleton _, by rw [sampleRun] at listed ⊢; simpa using listed.symm⟩
  closable p listed h stored isOpen := by
    have isFirst : p = .uuid 1 := by
      simpa [sampleRun, Store.sadd, Store.empty] using listed
    subst isFirst
    have read : h = ((sampleRun balance).inp.store.hash (.uuid 1)).getD {} := by
      rw [Option.mem_def.mp stored]
      rfl
    subst read
    have tick : (OrderCache.new.updateTick ⟨"EURUSD", 90, 91⟩ none).closingTick "EURUSD"
      (some "") = some ⟨"EURUSD", 90, 91⟩ := by decide +kernel
    exact ⟨⟨1, rfl⟩, ⟨.LONG, rfl⟩, "EURUSD", rfl, _, tick⟩

/-- A level of 30 percent is a stop-out, and closes the position. -/
theorem toldApart_stopOut : (sampleRun 13).level = 30 ∧ (sampleRun 13).ToldApart := by
  have level : (sampleRun 13).level = 30 := by decide +kernel
  have margined := margined_sampleRun 13 (by decide +kernel)
  refine ⟨level, (toldApart_iff margined).mpr ?_⟩
  rw [level]
  decide +kernel

/-- At a level of -10 percent both requests go out, and the position that was
to end liquidated is closed by the first. -/
theorem not_toldApart_negative : (sampleRun 9).Margined ∧ (sampleRun 9).level = -10 ∧
    ((sampleRun 9).closed.hash (.uuid 1)).map (·.status) = some (some .CLOSED) ∧
    ¬ (sampleRun 9).ToldApart := by
  have level : (sampleRun 9).level = -10 := by decide +kernel
  refine ⟨margined_sampleRun 9 (by decide +kernel), level, by decide +kernel, ?_⟩
  intro told
  have both : (sampleRun 9).published = [⟨7, none⟩, ⟨7, some "liquidated"⟩] := by decide +kernel
  have negative : (sampleRun 9).level < 0 := by
    rw [level]
    norm_num
  have only := (told.liquidation negative).1
  rw [both] at only
  cases only

end Samples

end StopOutRun

end TradingPlatform
