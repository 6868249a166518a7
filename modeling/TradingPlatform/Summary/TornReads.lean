import TradingPlatform.Library.StepRuns
import TradingPlatform.Summary.SummaryRuns

namespace TradingPlatform

open StepRuns

namespace SummaryRuns
variable {shown : ℚ → ℚ} {marginUsed : FiniteTable PositionId MarkedPosition → ℚ}
variable {s after : SummaryRuns}

/-- For every published command, the true level was below the threshold at an
instant between the reads of the run that published it. -/
def Justified (s : SummaryRuns) : Prop :=
  ∀ command ∈ s.commands, ∃ level ∈ command.trueLevels, level.Below command.threshold

/-- When everything has finished, the summary cached last is the true one. -/
def FinallyTrue (marginUsed : FiniteTable PositionId MarkedPosition → ℚ) (s : SummaryRuns) :
    Prop :=
  s.closes = [] → s.due = 0 → s.phase = .idle → ∀ figures, s.cached = some figures →
    figures = s.trueFigures marginUsed

/-- The bonus and the cash that a run reads are no less than what the wallet
would have held at its first read, had every close been settled. -/
def NotShort (s : SummaryRuns) : SummaryPhase → Prop
  | .bonusRead _ _ bonus =>
    s.settledTotal ≤ s.wallet.availableBalance + s.wallet.lockedBalance + bonus
  | _ => True

instance (s : SummaryRuns) : DecidablePred s.NotShort
  | .bonusRead _ _ bonus => inferInstanceAs
      (Decidable (s.settledTotal ≤ s.wallet.availableBalance + s.wallet.lockedBalance + bonus))
  | .idle => .isTrue trivial
  | .started => .isTrue trivial
  | .aggregatesRead _ _ => .isTrue trivial
  | .cashRead _ => .isTrue trivial
  | .thresholdsRead _ _ => .isTrue trivial

/-- No run reads a wallet that is short of closes which its first read has
already left out. -/
def Untorn (s : SummaryRuns) : SummaryRunAction → Prop
  | .readCash => s.NotShort s.phase
  | _ => True

instance (s : SummaryRuns) : DecidablePred s.Untorn
  | .readCash => inferInstanceAs (Decidable (s.NotShort s.phase))
  | .fill _ _ => .isTrue trivial
  | .closeScript _ => .isTrue trivial
  | .settle _ => .isTrue trivial
  | .start _ => .isTrue trivial
  | .readAggregates => .isTrue trivial
  | .readBonus => .isTrue trivial
  | .readThresholds _ => .isTrue trivial
  | .finish _ _ => .isTrue trivial

section Levels

/-- At least the equity and the same margin: no lower level. -/
theorem below_of_equity_le (monotone : Monotone shown) {low high : SummaryFigures} {threshold : ℚ}
    (margin : low.marginUsed = high.marginUsed) (equity : low.equity ≤ high.equity)
    (below : (high.marginLevel shown).Below threshold) :
    (low.marginLevel shown).Below threshold := by
  unfold SummaryFigures.marginLevel at below ⊢
  rw [margin]
  split_ifs at below ⊢ with positive
  · refine lt_of_le_of_lt (monotone ?_) below
    have divided := div_le_div_of_nonneg_right equity positive.le
    exact mul_le_mul_of_nonneg_right divided (by norm_num)
  · exact below

theorem below_of_triggered {level : MarginLevel} {stopOut : Option ℚ} {free free' : Bool}
    {threshold : ℚ} (member : threshold ∈ triggered level stopOut free free') :
    level.Below threshold := by
  unfold triggered at member
  rcases List.mem_append.mp member with stop | liquidation
  · cases stopOut with
    | none => cases stop
    | some limit =>
      dsimp only at stop
      split_ifs at stop with below
      · rw [List.mem_singleton.mp stop]
        exact below.1
      · cases stop
  · split_ifs at liquidation with below
    · rw [List.mem_singleton.mp liquidation]
      exact below.1
    · cases liquidation

end Levels

/-- A level that is no higher than the one of the figures has been the true one
since the first read. -/
def Reached (shown : ℚ → ℚ) (s : SummaryRuns) (marginUsed unrealized : ℚ) : Prop :=
  ∃ figures : SummaryFigures, figures.marginLevel shown ∈ s.trueLevels ∧
    figures.marginUsed = marginUsed ∧ figures.equity = s.settledTotal + unrealized

/-- What the run keeps true of its reads. -/
def Reads (shown : ℚ → ℚ) (s : SummaryRuns) : SummaryPhase → Prop
  | .idle => True
  | .started => True
  | .aggregatesRead margin unrealized => s.Reached shown margin unrealized
  | .bonusRead margin unrealized _ => s.Reached shown margin unrealized
  | .cashRead figures => s.Reached shown figures.marginUsed figures.unrealizedPnl ∧
      s.settledTotal ≤ figures.balance + figures.bonus
  | .thresholdsRead figures _ => s.Reached shown figures.marginUsed figures.unrealizedPnl ∧
      s.settledTotal ≤ figures.balance + figures.bonus

/-- What the run has read is what there is. -/
def Exact (marginUsed : FiniteTable PositionId MarkedPosition → ℚ) (s : SummaryRuns) :
    SummaryPhase → Prop
  | .idle => ∀ figures, s.cached = some figures → figures = s.trueFigures marginUsed
  | .started => True
  | .aggregatesRead margin unrealized =>
    margin = marginUsed s.positions ∧ unrealized = s.unrealizedPnl
  | .bonusRead margin unrealized bonus =>
    margin = marginUsed s.positions ∧ unrealized = s.unrealizedPnl ∧ bonus = s.wallet.bonusBalance
  | .cashRead figures => figures = s.trueFigures marginUsed
  | .thresholdsRead figures _ => figures = s.trueFigures marginUsed

/-- The summary is exact as soon as no close waits and no run is owed. -/
def Settled (marginUsed : FiniteTable PositionId MarkedPosition → ℚ) (s : SummaryRuns) : Prop :=
  s.closes = [] → s.due = 0 → s.Exact marginUsed s.phase

theorem trueFigures_settled (none : s.closes = []) : s.trueFigures marginUsed =
    ⟨s.wallet.availableBalance + s.wallet.lockedBalance, s.wallet.bonusBalance, s.unrealizedPnl,
      marginUsed s.positions⟩ := by
  unfold trueFigures trueWallet
  rw [none]
  rfl

theorem Reached.grow {margin unrealized : ℚ} (reached : s.Reached shown margin unrealized)
    (levels : s.trueLevels <+: after.trueLevels) (total : after.settledTotal = s.settledTotal) :
    after.Reached shown margin unrealized := by
  obtain ⟨figures, member, margin, equity⟩ := reached
  exact ⟨figures, levels.subset member, margin, total ▸ equity⟩

theorem Reads.grow {phase : SummaryPhase} (reads : s.Reads shown phase)
    (levels : s.trueLevels <+: after.trueLevels) (total : after.settledTotal = s.settledTotal) :
    after.Reads shown phase := by
  cases phase with
  | idle => trivial
  | started => trivial
  | aggregatesRead margin unrealized => exact Reached.grow reads levels total
  | bonusRead margin unrealized bonus => exact Reached.grow reads levels total
  | cashRead figures => exact ⟨reads.1.grow levels total, total ▸ reads.2⟩
  | thresholdsRead figures stopOut => exact ⟨reads.1.grow levels total, total ▸ reads.2⟩

section Observed

theorem observed_phase (s : SummaryRuns) : (s.observed shown marginUsed).phase = s.phase := by
  unfold observed
  split_ifs <;> rfl

theorem observed_due (s : SummaryRuns) : (s.observed shown marginUsed).due = s.due := by
  unfold observed
  split_ifs <;> rfl

theorem observed_closes (s : SummaryRuns) : (s.observed shown marginUsed).closes = s.closes := by
  unfold observed
  split_ifs <;> rfl

theorem observed_commands (s : SummaryRuns) :
    (s.observed shown marginUsed).commands = s.commands := by
  unfold observed
  split_ifs <;> rfl

theorem observed_levels (s : SummaryRuns) :
    s.trueLevels <+: (s.observed shown marginUsed).trueLevels := by
  unfold observed
  split_ifs
  · exact List.prefix_append _ _
  · exact List.prefix_refl _

theorem observed_total (s : SummaryRuns) :
    (s.observed shown marginUsed).settledTotal = s.settledTotal := by
  unfold observed
  split_ifs <;> rfl

end Observed

/-- The invariant of the runs. -/
structure Sound (shown : ℚ → ℚ) (marginUsed : FiniteTable PositionId MarkedPosition → ℚ)
    (s : SummaryRuns) : Prop where
  reads : s.Reads shown s.phase
  justified : s.Justified

theorem sound_opened (wallet : Wallet) : Sound shown marginUsed (opened wallet) where
  reads := trivial
  justified _ member := by cases member

/-- The account changes and the run goes on where it was. -/
theorem Sound.elsewhere (sound : Sound shown marginUsed s) (phase : after.phase = s.phase)
    (levels : after.trueLevels = s.trueLevels) (total : after.settledTotal = s.settledTotal)
    (commands : after.commands = s.commands) :
    Sound shown marginUsed (after.observed shown marginUsed) where
  reads := by
    rw [observed_phase, phase]
    refine sound.reads.grow ?_ ((observed_total after).trans total)
    rw [← levels]
    exact observed_levels after
  justified := by
    unfold Justified
    rw [observed_commands, commands]
    exact sound.justified

theorem Sound.step (monotone : Monotone shown) (sound : Sound shown marginUsed s)
    {action : SummaryRunAction} (untorn : s.Untorn action)
    (taken : s.step shown marginUsed action = some after) : Sound shown marginUsed after := by
  cases action with
  | fill p position =>
    cases taken
    exact sound.elsewhere rfl rfl rfl rfl
  | closeScript p =>
    simp only [SummaryRuns.step] at taken
    split at taken
    next position _ =>
      cases taken
      exact sound.elsewhere rfl rfl rfl rfl
    next => cases taken
  | settle i =>
    simp only [SummaryRuns.step] at taken
    split at taken
    next close _ =>
      cases taken
      exact sound.elsewhere rfl rfl rfl rfl
    next => cases taken
  | start handler =>
    simp only [SummaryRuns.step] at taken
    split_ifs at taken
    · cases taken
      exact ⟨trivial, sound.justified⟩
    · cases taken
      exact ⟨trivial, sound.justified⟩
  | readAggregates =>
    simp only [SummaryRuns.step] at taken
    split_ifs at taken
    cases taken
    refine ⟨⟨s.trueFigures marginUsed, List.mem_singleton_self _, rfl, ?_⟩, sound.justified⟩
    rfl
  | readBonus =>
    simp only [SummaryRuns.step] at taken
    split at taken
    next margin unrealized phase =>
      cases taken
      have reads := sound.reads
      rw [phase] at reads
      exact ⟨reads, sound.justified⟩
    next => cases taken
  | readCash =>
    simp only [SummaryRuns.step] at taken
    split at taken
    next margin unrealized bonus phase =>
      cases taken
      have reads := sound.reads
      rw [phase] at reads
      have short : s.NotShort s.phase := untorn
      rw [phase] at short
      exact ⟨⟨reads, short⟩, sound.justified⟩
    next => cases taken
  | readThresholds stopOut =>
    simp only [SummaryRuns.step] at taken
    split at taken
    next figures phase =>
      cases taken
      have reads := sound.reads
      rw [phase] at reads
      exact ⟨reads, sound.justified⟩
    next => cases taken
  | finish free free' =>
    simp only [SummaryRuns.step] at taken
    split at taken
    next figures stopOut phase =>
      cases taken
      have reads := sound.reads
      rw [phase] at reads
      obtain ⟨⟨first, member, margin, equity⟩, enough⟩ := reads
      refine ⟨trivial, fun command published => ?_⟩
      rcases List.mem_append.mp published with before | now
      · exact sound.justified command before
      · obtain ⟨threshold, trigger, rfl⟩ := List.mem_map.mp now
        refine ⟨_, member, below_of_equity_le monotone margin ?_ (below_of_triggered trigger)⟩
        rw [equity, SummaryFigures.equity]
        linarith
    next => cases taken

/-- Whatever happens to the account, either a close waits or a run is owed. -/
theorem Settled.step (settled : s.Settled marginUsed) {action : SummaryRunAction}
    (taken : s.step shown marginUsed action = some after) : after.Settled marginUsed := by
  cases action with
  | fill p position =>
    cases taken
    intro _ due
    rw [observed_due] at due
    exact absurd due (Nat.succ_ne_zero _)
  | closeScript p =>
    simp only [SummaryRuns.step] at taken
    split at taken
    next position _ =>
      cases taken
      intro closes
      rw [observed_closes] at closes
      exact absurd closes (List.append_ne_nil_of_right_ne_nil _ (List.cons_ne_nil _ _))
    next => cases taken
  | settle i =>
    simp only [SummaryRuns.step] at taken
    split at taken
    next close _ =>
      cases taken
      intro _ due
      rw [observed_due] at due
      exact absurd due (Nat.succ_ne_zero _)
    next => cases taken
  | start handler =>
    simp only [SummaryRuns.step] at taken
    split_ifs at taken
    · cases taken
      exact fun _ _ => trivial
    · cases taken
      exact fun _ _ => trivial
  | readAggregates =>
    simp only [SummaryRuns.step] at taken
    split_ifs at taken
    cases taken
    exact fun _ _ => ⟨rfl, rfl⟩
  | readBonus =>
    simp only [SummaryRuns.step] at taken
    split at taken
    next margin unrealized phase =>
      cases taken
      intro closes due
      have exactly := settled closes due
      rw [phase] at exactly
      exact ⟨exactly.1, exactly.2, rfl⟩
    next => cases taken
  | readCash =>
    simp only [SummaryRuns.step] at taken
    split at taken
    next margin unrealized bonus phase =>
      cases taken
      intro closes due
      have exactly := settled closes due
      rw [phase] at exactly
      obtain ⟨rfl, rfl, rfl⟩ := exactly
      exact (trueFigures_settled closes).symm
    next => cases taken
  | readThresholds stopOut =>
    simp only [SummaryRuns.step] at taken
    split at taken
    next figures phase =>
      cases taken
      intro closes due
      have exactly := settled closes due
      rw [phase] at exactly
      exact exactly
    next => cases taken
  | finish free free' =>
    simp only [SummaryRuns.step] at taken
    split at taken
    next figures stopOut phase =>
      cases taken
      intro closes due
      have exactly := settled closes due
      rw [phase] at exactly
      rintro _ ⟨⟩
      exact exactly
    next => cases taken

/-- As long as no run reads a wallet short of closes that its first read has
left out, every command was justified at an instant between the reads; and the
summary that is cached last is the true one. -/
theorem justified_of_run (monotone : Monotone shown) {wallet : Wallet}
    {actions : List SummaryRunAction}
    (run : GuardedRun (step shown marginUsed) Untorn (opened wallet) actions s) :
    s.Justified ∧ s.FinallyTrue marginUsed := by
  have sound : Sound shown marginUsed s := run.invariant (sound_opened wallet)
    fun _ _ _ untorn taken held => held.step monotone untorn taken
  have settled : s.Settled marginUsed := run.invariant (fun _ _ _ none => nomatch none)
    fun _ _ _ _ taken held => held.step taken
  refine ⟨sound.justified, fun closes due idle => ?_⟩
  have exactly := settled closes due
  rw [idle] at exactly
  exact exactly

section Runs

def marked (pnl : ℚ) : MarkedPosition := ⟨100, pnl, 0, (0, 0)⟩

def oneRun : List SummaryRunAction :=
  [.start true, .readAggregates, .readBonus, .readCash, .readThresholds (some 50),
    .finish true true]

/-- A position that has lost most of the balance. -/
def losingRun : List SummaryRunAction := .fill (.uuid 1) (marked (-160)) :: oneRun

theorem justified_losingRun : ∃ s : SummaryRuns,
    GuardedRun (step id hedgedMargin) Untorn (opened (.cash 200 0)) losingRun s ∧ s.Justified ∧
      s.FinallyTrue hedgedMargin ∧ s.commands = [⟨50, [.percent 40]⟩] := by
  have evaluates : (runGuarded (step id hedgedMargin) Untorn (opened (.cash 200 0)) losingRun).map
      (·.commands) = some [⟨50, [.percent 40]⟩] := by decide +kernel
  obtain ⟨s, reached, commands⟩ := Option.map_eq_some_iff.mp evaluates
  obtain ⟨justified, finally_⟩ := justified_of_run monotone_id (.of_eval reached)
  exact ⟨s, .of_eval reached, justified, finally_, commands⟩

/-- A gain of 900 is closed, and the run reads the balance before it is paid. -/
def tornRun : List SummaryRunAction :=
  [.fill (.uuid 1) (marked 900), .fill (.uuid 2) (marked (-1000)), .closeScript (.uuid 1)] ++ oneRun

/-- The account is liquidated at a true level of 100. -/
theorem tornRun_unjustified : ∃ s : SummaryRuns,
    Run (step id hedgedMargin) (opened (.cash 200 0)) tornRun s ∧ ¬s.Justified := by
  have evaluates : (runGuarded (step id hedgedMargin) (fun _ _ => True) (opened (.cash 200 0))
      tornRun).map (·.commands) = some [⟨50, [.percent 100]⟩, ⟨0, [.percent 100]⟩] := by
    decide +kernel
  obtain ⟨s, reached, commands⟩ := Option.map_eq_some_iff.mp evaluates
  refine ⟨s, .of_eval reached, fun justified => ?_⟩
  obtain ⟨level, member, below⟩ := justified ⟨0, [.percent 100]⟩ (by rw [commands]; simp)
  rw [List.mem_singleton.mp member] at below
  exact absurd below (by decide)

end Runs

end SummaryRuns

end TradingPlatform
