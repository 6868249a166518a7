import Mathlib.Data.Set.Finite.Lattice
import Mathlib.Order.Bounds.Basic
import TradingPlatform.Sessions.MarketSessions

namespace TradingPlatform

open LeastSoFar

namespace SessionTemplate

/-- The first window of the date's weekday. -/
def firstWindow (m : SessionTemplate) (date : ℤ) : Option WindowRow :=
  m.windows.find? fun w => w.dayOfWeek = pgDow date

/-- Inside a window on a day that is not a closed holiday, and before the
closing time of a half day. -/
def OpenInside (m : SessionTemplate) (t : ℤ) : Prop :=
  (∃ w ∈ m.windows, w.dayOfWeek = pgDow (m.localDate t) ∧ w.openTime < m.localTime t ∧
    m.localTime t < w.closeTime) ∧
  ∀ holiday ∈ m.holidays.lookup (m.localDate t), ∃ name halfClose,
    holiday = .halfDay name halfClose ∧ m.localTime t < halfClose

/-- The same with all end points. -/
def OpenWithin (m : SessionTemplate) (t : ℤ) : Prop :=
  (∃ w ∈ m.windows, w.dayOfWeek = pgDow (m.localDate t) ∧ w.openTime ≤ m.localTime t ∧
    m.localTime t ≤ w.closeTime) ∧
  ∀ holiday ∈ m.holidays.lookup (m.localDate t), ∃ name halfClose,
    holiday = .halfDay name halfClose ∧ m.localTime t ≤ halfClose

/-- `is_open` of the session status. -/
def isOpen (m : SessionTemplate) (t : ℤ) : Bool := (m.getSessionStatus t).isOpen

/-- The status agrees with the windows and holidays, and its next open and
next close with the status at other instants. -/
structure Agrees (m : SessionTemplate) : Prop where
  inside : ∀ t, m.OpenInside t → m.isOpen t = true
  within : ∀ t, m.isOpen t = true → m.OpenWithin t
  nextOpen : ∀ t opening, m.isOpen t = false →
    (m.getSessionStatus t).nextOpenAt = some opening → t < opening ∧ m.isOpen opening = true ∧
      ∀ x, t ≤ x → x < opening → m.isOpen x = false
  nextClose : ∀ t closing, m.isOpen t = true →
    (m.getSessionStatus t).nextCloseAt = some closing → t < closing ∧
      (∀ x, t ≤ x → x < closing → m.isOpen x = true) ∧ m.isOpen (closing + 1) = false
  reachable : ∀ t x, m.isOpen t = false → t < x → m.localDate x ≤ m.localDate t + 14 →
    m.isOpen x = true → (m.getSessionStatus t).nextOpenAt.isSome = true

/-- Right after a window that can be the active one, no other window is open. -/
def Separate (m : SessionTemplate) : Prop :=
  ∀ dow time w, m.activeWindow dow time = some w → time < w.closeTime →
    m.activeWindow dow (w.closeTime + 1) = none

/-- On the weekday of a half day the first window opens before the half-day
close, and no window opens after the first one has closed on that day. -/
def HalfDaysFit (m : SessionTemplate) : Prop :=
  ∀ date name halfClose, m.holidays.lookup date = some (.halfDay name halfClose) →
    ∀ first, m.firstWindow date = some first → first.openTime < halfClose ∧
      ∀ w ∈ m.windows, w.dayOfWeek = pgDow date → w.openTime ≤ min first.closeTime halfClose

/-- The openings after `t` among which the next one is searched. -/
def openings (m : SessionTemplate) (t : ℤ) (maxDays : ℕ) : Set ℤ :=
  {y | ∃ dayOff ≤ maxDays, (∀ name, m.holidays.lookup (m.localDate t + dayOff) ≠ some (.closed name)) ∧
    ∃ w ∈ m.windows, w.dayOfWeek = pgDow (m.localDate t + dayOff) ∧
      y = m.localNaiveToUtc (m.localDate t + dayOff) w.openTime ∧ t < y}

variable {m : SessionTemplate} {t x date time : ℤ} {w : WindowRow}

theorem localDate_localNaiveToUtc (early : 0 ≤ time) (late : time < dayLength) :
    m.localDate (m.localNaiveToUtc date time) = date := by
  unfold localDate localNaiveToUtc dayLength at *
  omega

theorem localTime_localNaiveToUtc (early : 0 ≤ time) (late : time < dayLength) :
    m.localTime (m.localNaiveToUtc date time) = time := by
  unfold localTime localNaiveToUtc dayLength at *
  omega

theorem localNaiveToUtc_local (m : SessionTemplate) (t : ℤ) :
    m.localNaiveToUtc (m.localDate t) (m.localTime t) = t := by
  unfold localNaiveToUtc localDate localTime dayLength
  omega

theorem localTime_bounds (m : SessionTemplate) (t : ℤ) :
    0 ≤ m.localTime t ∧ m.localTime t < dayLength := by
  unfold localTime dayLength
  omega

theorem localDate_mono (m : SessionTemplate) (le : t ≤ x) : m.localDate t ≤ m.localDate x := by
  unfold localDate dayLength
  omega

theorem localTime_lt (same : m.localDate t = m.localDate x) (before : t < x) :
    m.localTime t < m.localTime x := by
  unfold localDate localTime dayLength at *
  omega

/-- A time of the current date is still to come when it is later in the day. -/
theorem lt_localNaiveToUtc_iff : t < m.localNaiveToUtc (m.localDate t) time ↔ m.localTime t < time := by
  unfold localNaiveToUtc localDate localTime dayLength
  omega

theorem pgDow_bounds (date : ℤ) : 0 ≤ pgDow date ∧ pgDow date ≤ 6 := by
  unfold pgDow
  omega

theorem activeWindow_some {dow : ℤ} (active : m.activeWindow dow time = some w) :
    w ∈ m.windows ∧ w.dayOfWeek = dow ∧ w.openTime ≤ time ∧ time ≤ w.closeTime := by
  have holds := List.find?_some active
  exact ⟨List.mem_of_find?_eq_some active, of_decide_eq_true holds⟩

theorem exists_activeWindow {dow time : ℤ} (member : w ∈ m.windows) (day : w.dayOfWeek = dow)
    (opened : w.openTime ≤ time) (unclosed : time ≤ w.closeTime) :
    ∃ v, m.activeWindow dow time = some v := by
  apply Option.isSome_iff_exists.mp
  exact List.find?_isSome.mpr ⟨w, member, decide_eq_true ⟨day, opened, unclosed⟩⟩

theorem firstWindow_some (first : m.firstWindow date = some w) :
    w ∈ m.windows ∧ w.dayOfWeek = pgDow date := by
  have holds := List.find?_some first
  exact ⟨List.mem_of_find?_eq_some first, of_decide_eq_true holds⟩

theorem exists_firstWindow (member : w ∈ m.windows) (day : w.dayOfWeek = pgDow date) :
    ∃ first, m.firstWindow date = some first := by
  apply Option.isSome_iff_exists.mp
  exact List.find?_isSome.mpr ⟨w, member, decide_eq_true day⟩

/-- The first match of an ordered list comes before every other match. -/
theorem find_pairwise {α : Type*} {r : α → α → Prop} {p : α → Bool} {l : List α} {a b : α}
    (ordered : l.Pairwise r) (found : l.find? p = some a) (member : b ∈ l) (holds : p b = true) :
    a = b ∨ r a b := by
  induction l with
  | nil => cases member
  | cons c rest ih =>
    obtain ⟨before, rest_ordered⟩ := List.pairwise_cons.mp ordered
    by_cases first : p c = true
    · rw [List.find?_cons_of_pos first] at found
      cases found
      rcases List.mem_cons.mp member with same | later
      · exact .inl same.symm
      · exact .inr (before b later)
    · rw [List.find?_cons_of_neg first] at found
      rcases List.mem_cons.mp member with same | later
      · exact absurd (same ▸ holds) first
      · exact ih rest_ordered found later

theorem Valid.firstWindow_le (valid : m.Valid) {first : WindowRow}
    (isFirst : m.firstWindow date = some first) (member : w ∈ m.windows)
    (day : w.dayOfWeek = pgDow date) : first.openTime ≤ w.openTime := by
  have sameDay := (firstWindow_some isFirst).2.trans day.symm
  rcases find_pairwise valid.sorted isFirst member (decide_eq_true day) with same | earlier | ⟨_, le⟩
  · exact same ▸ le_rfl
  · omega
  · exact le

theorem scanDay_finds {S : Set ℤ} {best : Option ℤ} {closed : ℤ → Bool} (found : Finds S best) :
    Finds (S ∪ {y | closed date = false ∧ ∃ w ∈ m.windows, w.dayOfWeek = pgDow date ∧
      y = m.localNaiveToUtc date w.openTime ∧ t < y}) (m.scanDay t closed date best) := by
  unfold scanDay
  split_ifs with holiday
  · refine found.congr ?_
    rw [holiday]
    simp
  · have each : ∀ (S : Set ℤ) (best : Option ℤ) (w : WindowRow), Finds S best →
        Finds (S ∪ {y | w.dayOfWeek = pgDow date ∧ y = m.localNaiveToUtc date w.openTime ∧ t < y})
          (if w.dayOfWeek = pgDow date ∧ t < m.localNaiveToUtc date w.openTime then
            keep best (m.localNaiveToUtc date w.openTime) else best) := by
      intro S best w found
      split_ifs with candidate
      · refine (found.keep _).congr ?_
        ext y
        simp only [Set.mem_union, Set.mem_singleton_iff, Set.mem_ofPred_eq]
        refine or_congr_right ⟨?_, fun member => member.2.1⟩
        rintro rfl
        exact ⟨candidate.1, rfl, candidate.2⟩
      · refine found.congr ?_
        ext y
        simp only [Set.mem_union, Set.mem_ofPred_eq]
        refine ⟨.inl, fun member => member.resolve_right ?_⟩
        rintro ⟨day, rfl, later⟩
        exact candidate ⟨day, later⟩
    refine (Finds.foldl each m.windows found).congr ?_
    have opens : closed date = false := by simpa using holiday
    ext y
    simp only [Set.mem_union, Set.mem_ofPred_eq, opens, true_and]

theorem closedHolidayDates_eq_false {first last : ℤ} (lower : first ≤ date) (upper : date ≤ last) :
    m.closedHolidayDates first last date = false ↔
      ∀ name, m.holidays.lookup date ≠ some (.closed name) := by
  unfold closedHolidayDates
  cases found : m.holidays.lookup date with
  | none => simp
  | some holiday =>
    cases holiday with
    | closed name => simp [lower, upper]
    | halfDay name closeTime => simp

/-- The search finds the least opening. -/
theorem finds_nextOpen (m : SessionTemplate) (t : ℤ) (maxDays : ℕ) :
    Finds (m.openings t maxDays) (m.nextOpen t maxDays) := by
  let closed := m.closedHolidayDates (m.localDate t) (m.localDate t + (maxDays + 31))
  have each : ∀ (S : Set ℤ) (best : Option ℤ) (dayOff : ℕ), Finds S best →
      Finds (S ∪ {y | closed (m.localDate t + dayOff) = false ∧ ∃ w ∈ m.windows,
        w.dayOfWeek = pgDow (m.localDate t + dayOff) ∧
          y = m.localNaiveToUtc (m.localDate t + dayOff) w.openTime ∧ t < y})
        (m.scanDay t closed (m.localDate t + dayOff) best) :=
    fun _ _ _ found => scanDay_finds found
  have search := Finds.foldl each (List.range (maxDays + 1)) finds_none
  refine search.congr ?_
  ext y
  simp only [Set.empty_union, openings, Set.mem_ofPred_eq, List.mem_range, Nat.lt_succ_iff]
  constructor
  · rintro ⟨dayOff, near, opens, candidate⟩
    exact ⟨dayOff, near, (closedHolidayDates_eq_false (by omega) (by omega)).mp opens, candidate⟩
  · rintro ⟨dayOff, near, opens, candidate⟩
    exact ⟨dayOff, near, (closedHolidayDates_eq_false (by omega) (by omega)).mpr opens, candidate⟩

/-- When the market is open: in an active window of a date without holiday, or
in the first window of a half day until its earlier close. -/
theorem Valid.isOpen_iff (valid : m.Valid) : m.isOpen t = true ↔
    (m.holidays.lookup (m.localDate t) = none ∧
      ∃ w, m.activeWindow (pgDow (m.localDate t)) (m.localTime t) = some w) ∨
    ∃ name halfClose first, m.holidays.lookup (m.localDate t) = some (.halfDay name halfClose) ∧
      m.firstWindow (m.localDate t) = some first ∧ first.openTime ≤ m.localTime t ∧
      m.localTime t < min first.closeTime halfClose := by
  unfold isOpen getSessionStatus
  rw [valid.not24_7, if_neg Bool.false_ne_true, if_neg valid.nonempty]
  cases found : m.holidays.lookup (m.localDate t) with
  | none =>
    simp only [regularStatus]
    cases active : m.activeWindow (pgDow (m.localDate t)) (m.localTime t) <;> simp
  | some holiday =>
    cases holiday with
    | closed name => simp
    | halfDay name halfClose =>
      simp only [halfDayStatus]
      cases first : m.firstWindow (m.localDate t) with
      | none =>
        rw [firstWindow] at first
        rw [first]
        simp
      | some w =>
        rw [firstWindow] at first
        rw [first]
        dsimp only
        split_ifs <;> simp <;> omega

theorem localDate_of_opening {y : ℤ} (valid : m.Valid) (member : w ∈ m.windows)
    (at_ : y = m.localNaiveToUtc date w.openTime) :
    m.localDate y = date ∧ m.localTime y = w.openTime := by
  have times := valid.times w member
  have late : w.openTime < dayLength := by
    unfold lastSecond dayLength at *
    omega
  rw [at_]
  exact ⟨localDate_localNaiveToUtc times.1 late, localTime_localNaiveToUtc times.1 late⟩

/-- Before the first window of a half day, that window is the next opening. -/
theorem Valid.nextOpen_first (valid : m.Valid) {name : String} {halfClose : ℤ} {first : WindowRow}
    (found : m.holidays.lookup (m.localDate t) = some (.halfDay name halfClose))
    (isFirst : m.firstWindow (m.localDate t) = some first)
    (before : m.localTime t < first.openTime) (maxDays : ℕ) :
    m.nextOpen t maxDays = some (m.localNaiveToUtc (m.localDate t) first.openTime) := by
  obtain ⟨member, day⟩ := firstWindow_some isFirst
  have search := finds_nextOpen m t maxDays
  have candidate : m.localNaiveToUtc (m.localDate t) first.openTime ∈ m.openings t maxDays := by
    refine ⟨0, Nat.zero_le _, fun name same => ?_, first, member, ?_, ?_, ?_⟩
    · rw [Nat.cast_zero, add_zero, found] at same
      cases same
    · rw [Nat.cast_zero, add_zero]
      exact day
    · rw [Nat.cast_zero, add_zero]
    · exact lt_localNaiveToUtc_iff.mpr before
  obtain ⟨least, isLeast⟩ := search.isSome candidate
  rw [isLeast] at search
  obtain ⟨dayOff, _, _, w, memberW, dayW, same, _⟩ := search.mem
  have atMost := search.le candidate
  have timesW := valid.times w memberW
  have timesFirst := valid.times first member
  rw [isLeast, same]
  cases dayOff with
  | zero =>
    rw [Nat.cast_zero, add_zero] at dayW same
    have le := valid.firstWindow_le isFirst memberW dayW
    rw [Nat.cast_zero, add_zero]
    congr 1
    unfold localNaiveToUtc at *
    omega
  | succ later =>
    exfalso
    rw [Nat.cast_succ] at same
    unfold localNaiveToUtc dayLength lastSecond at *
    omega

/-- A closed market announces the opening that the search finds. -/
theorem Valid.closed_nextOpen (valid : m.Valid) (closed : m.isOpen t = false) :
    ∃ maxDays, 14 ≤ maxDays ∧ (m.getSessionStatus t).nextOpenAt = m.nextOpen t maxDays := by
  have far : 14 ≤ 400 := by omega
  unfold isOpen getSessionStatus at closed
  unfold getSessionStatus
  rw [valid.not24_7, if_neg Bool.false_ne_true, if_neg valid.nonempty] at closed ⊢
  cases found : m.holidays.lookup (m.localDate t) with
  | none =>
    rw [found] at closed
    simp only [regularStatus] at closed ⊢
    cases active : m.activeWindow (pgDow (m.localDate t)) (m.localTime t) with
    | none => exact ⟨14, le_rfl, rfl⟩
    | some w =>
      rw [active] at closed
      cases closed
  | some holiday =>
    rw [found] at closed
    cases holiday with
    | closed name =>
      dsimp only
      exact ⟨400, far, rfl⟩
    | halfDay name halfClose =>
      simp only [halfDayStatus] at closed ⊢
      cases first : m.firstWindow (m.localDate t) with
      | none =>
        rw [firstWindow] at first
        rw [first]
        dsimp only
        exact ⟨400, far, rfl⟩
      | some w =>
        have isFirst := first
        rw [firstWindow] at first
        rw [first] at closed ⊢
        dsimp only at closed ⊢
        split_ifs at closed ⊢ with before unclosed
        · exact ⟨400, far, (valid.nextOpen_first found isFirst before 400).symm⟩
        · dsimp only
          exact ⟨400, far, rfl⟩

/-- An open market announces the close of its active window, or the close of
the half day. -/
theorem Valid.open_nextClose (valid : m.Valid) {closing : ℤ} (opened : m.isOpen t = true)
    (next : (m.getSessionStatus t).nextCloseAt = some closing) : t < closing ∧
      ((m.holidays.lookup (m.localDate t) = none ∧
        ∃ w, m.activeWindow (pgDow (m.localDate t)) (m.localTime t) = some w ∧
          closing = m.localNaiveToUtc (m.localDate t) w.closeTime) ∨
      ∃ name halfClose first,
        m.holidays.lookup (m.localDate t) = some (.halfDay name halfClose) ∧
        m.firstWindow (m.localDate t) = some first ∧ first.openTime ≤ m.localTime t ∧
        closing = m.localNaiveToUtc (m.localDate t) (min first.closeTime halfClose)) := by
  unfold isOpen getSessionStatus at opened
  unfold getSessionStatus at next
  rw [valid.not24_7, if_neg Bool.false_ne_true, if_neg valid.nonempty] at opened next
  cases found : m.holidays.lookup (m.localDate t) with
  | none =>
    rw [found] at next
    simp only [regularStatus] at next
    cases active : m.activeWindow (pgDow (m.localDate t)) (m.localTime t) with
    | none =>
      rw [active] at next
      cases next
    | some w =>
      rw [active] at next
      simp only [nextClose] at next
      split_ifs at next with later
      cases next
      exact ⟨later, .inl ⟨rfl, w, rfl, rfl⟩⟩
  | some holiday =>
    rw [found] at next opened
    cases holiday with
    | closed name => cases next
    | halfDay name halfClose =>
      simp only [halfDayStatus] at next opened
      cases first : m.firstWindow (m.localDate t) with
      | none =>
        rw [firstWindow] at first
        rw [first] at next
        cases next
      | some w =>
        have isFirst := first
        rw [firstWindow] at first
        rw [first] at next
        dsimp only at next
        split_ifs at next with before unclosed later
        cases next
        exact ⟨later, .inr ⟨name, halfClose, w, rfl, rfl, not_lt.mp before, rfl⟩⟩

/-- An open instant belongs to a stretch that begins with the opening of a
window on a date that is not closed. -/
theorem Valid.opened_since (valid : m.Valid) (opened : m.isOpen x = true) :
    (∀ name, m.holidays.lookup (m.localDate x) ≠ some (.closed name)) ∧
      ∃ w ∈ m.windows, w.dayOfWeek = pgDow (m.localDate x) ∧ w.openTime ≤ m.localTime x ∧
        ∀ t ≤ x, m.localNaiveToUtc (m.localDate x) w.openTime ≤ t → m.isOpen t = true := by
  -- from the opening to `x` the date stays and the time of day grows
  have between : ∀ {w : WindowRow}, w ∈ m.windows → ∀ t ≤ x,
      m.localNaiveToUtc (m.localDate x) w.openTime ≤ t →
      m.localDate t = m.localDate x ∧ w.openTime ≤ m.localTime t ∧
        m.localTime t ≤ m.localTime x := by
    intro w member t before since
    have times := valid.times w member
    unfold localNaiveToUtc localDate localTime dayLength lastSecond at *
    omega
  rcases valid.isOpen_iff.mp opened with ⟨regular, w, active⟩ |
    ⟨name, halfClose, first, half, isFirst, since, unclosed⟩
  · obtain ⟨member, day, since, unclosed⟩ := activeWindow_some active
    refine ⟨fun name same => ?_, w, member, day, since, fun t before after => ?_⟩
    · rw [regular] at same
      cases same
    · obtain ⟨sameDate, later, earlier⟩ := between member t before after
      refine valid.isOpen_iff.mpr (.inl ⟨by rw [sameDate]; exact regular, ?_⟩)
      rw [sameDate]
      exact exists_activeWindow member day later (earlier.trans unclosed)
  · obtain ⟨member, day⟩ := firstWindow_some isFirst
    refine ⟨fun other same => ?_, first, member, day, since, fun t before after => ?_⟩
    · rw [half] at same
      cases same
    · obtain ⟨sameDate, later, earlier⟩ := between member t before after
      refine valid.isOpen_iff.mpr (.inr ⟨name, halfClose, first, ?_, ?_, later, ?_⟩)
      · rw [sameDate]
        exact half
      · rw [sameDate]
        exact isFirst
      · exact earlier.trans_lt unclosed

/-- The opening of the stretch of `x` is searched from every closed instant before. -/
theorem Valid.exists_opening (valid : m.Valid) (closed : m.isOpen t = false) (before : t ≤ x)
    (opened : m.isOpen x = true) {maxDays : ℕ}
    (near : m.localDate x ≤ m.localDate t + maxDays) :
    ∃ y ∈ m.openings t maxDays, y ≤ x := by
  obtain ⟨notClosed, w, member, day, since, stretch⟩ := valid.opened_since opened
  have later : t < m.localNaiveToUtc (m.localDate x) w.openTime := by
    refine not_le.mp fun passed => ?_
    rw [stretch t before passed] at closed
    cases closed
  have forward := localDate_mono m before
  have dayOff : m.localDate t + (m.localDate x - m.localDate t).toNat = m.localDate x := by omega
  refine ⟨m.localNaiveToUtc (m.localDate x) w.openTime,
    ⟨(m.localDate x - m.localDate t).toNat, by omega, ?_, w, member, ?_, ?_, later⟩, ?_⟩
  · rw [dayOff]
    exact notClosed
  · rw [dayOff]
    exact day
  · rw [dayOff]
  · conv_rhs => rw [← localNaiveToUtc_local m x]
    unfold localNaiveToUtc
    omega

/-- A stricter search stops at the same element when that one passes. -/
theorem find_of_implies {α : Type*} {p q : α → Bool} {l : List α} {a : α}
    (found : l.find? p = some a) (holds : q a = true) (stricter : ∀ b, q b = true → p b = true) :
    l.find? q = some a := by
  induction l with
  | nil => cases found
  | cons c rest ih =>
    by_cases first : p c = true
    · rw [List.find?_cons_of_pos first] at found
      cases found
      exact List.find?_cons_of_pos holds
    · rw [List.find?_cons_of_neg first] at found
      rw [List.find?_cons_of_neg fun passes => first (stricter c passes)]
      exact ih found

theorem activeWindow_first {first : WindowRow} (isFirst : m.firstWindow date = some first)
    (since : first.openTime ≤ time) (unclosed : time ≤ first.closeTime) :
    m.activeWindow (pgDow date) time = some first := by
  refine find_of_implies isFirst ?_ fun w holds => ?_
  · exact decide_eq_true ⟨(firstWindow_some isFirst).2, since, unclosed⟩
  · have parts := of_decide_eq_true holds
    exact decide_eq_true parts.1

theorem Valid.localTime_le (valid : m.Valid) (opened : m.isOpen t = true) :
    m.localTime t ≤ lastSecond := by
  rcases valid.isOpen_iff.mp opened with ⟨_, w, active⟩ | ⟨_, _, first, _, isFirst, _, unclosed⟩
  · obtain ⟨member, _, _, before⟩ := activeWindow_some active
    exact before.trans (valid.times w member).2.2
  · have times := valid.times first (firstWindow_some isFirst).1
    omega

/-- On a half day that fits, the first window covers what the others open. -/
theorem Valid.covered_by_first (valid : m.Valid) (separate : m.Separate) {first : WindowRow}
    (isFirst : m.firstWindow date = some first) (member : w ∈ m.windows)
    (day : w.dayOfWeek = pgDow date) (overlaps : w.openTime ≤ first.closeTime) :
    w.closeTime ≤ first.closeTime := by
  have times := valid.times first (firstWindow_some isFirst).1
  have nothing := separate _ _ first (activeWindow_first isFirst le_rfl times.2.1.le) times.2.1
  by_contra longer
  have reopened : ∃ v, m.activeWindow (pgDow date) (first.closeTime + 1) = some v :=
    exists_activeWindow member day (by omega) (by omega)
  obtain ⟨v, active⟩ := reopened
  rw [nothing] at active
  cases active

theorem Valid.inside (valid : m.Valid) (separate : m.Separate) (fits : m.HalfDaysFit)
    (inside : m.OpenInside t) : m.isOpen t = true := by
  obtain ⟨⟨w, member, day, after, before⟩, holiday⟩ := inside
  cases found : m.holidays.lookup (m.localDate t) with
  | none => exact valid.isOpen_iff.mpr (.inl ⟨found, exists_activeWindow member day after.le before.le⟩)
  | some h =>
    obtain ⟨name, halfClose, rfl, early⟩ := holiday h found
    obtain ⟨first, isFirst⟩ := exists_firstWindow member day
    obtain ⟨_, opens⟩ := fits _ name halfClose found first isFirst
    have overlap := (opens w member day).trans (min_le_left _ _)
    have covered := valid.covered_by_first separate isFirst member day overlap
    have since := valid.firstWindow_le isFirst member day
    refine valid.isOpen_iff.mpr (.inr ⟨name, halfClose, first, found, isFirst, by omega, ?_⟩)
    exact lt_min (by omega) early

theorem Valid.within (valid : m.Valid) (opened : m.isOpen t = true) : m.OpenWithin t := by
  rcases valid.isOpen_iff.mp opened with ⟨regular, w, active⟩ |
    ⟨name, halfClose, first, half, isFirst, since, unclosed⟩
  · obtain ⟨member, day, since, unclosed⟩ := activeWindow_some active
    refine ⟨⟨w, member, day, since, unclosed⟩, fun holiday found => ?_⟩
    rw [regular] at found
    cases found
  · obtain ⟨member, day⟩ := firstWindow_some isFirst
    obtain ⟨beforeClose, beforeHalf⟩ := lt_min_iff.mp unclosed
    refine ⟨⟨first, member, day, since, beforeClose.le⟩, fun holiday found => ?_⟩
    rw [half] at found
    cases found
    exact ⟨name, halfClose, rfl, beforeHalf.le⟩

/-- The opening that is found is one at which the market opens. -/
theorem Valid.opens_at (valid : m.Valid) (fits : m.HalfDaysFit) {opening : ℤ} {maxDays : ℕ}
    (closed : m.isOpen t = false) (next : m.nextOpen t maxDays = some opening) :
    m.isOpen opening = true := by
  have search := finds_nextOpen m t maxDays
  rw [next] at search
  obtain ⟨dayOff, near, notClosed, w, member, day, same, later⟩ := search.mem
  obtain ⟨date, time⟩ := localDate_of_opening valid member same
  have times := valid.times w member
  cases found : m.holidays.lookup (m.localDate t + dayOff) with
  | none =>
    refine valid.isOpen_iff.mpr (.inl ⟨by rw [date]; exact found, ?_⟩)
    rw [date, time]
    exact exists_activeWindow member day le_rfl times.2.1.le
  | some holiday =>
    cases holiday with
    | closed name => exact absurd found (notClosed name)
    | halfDay name halfClose =>
      obtain ⟨first, isFirst⟩ := exists_firstWindow member day
      obtain ⟨early, opens⟩ := fits _ name halfClose found first isFirst
      obtain ⟨memberFirst, dayFirst⟩ := firstWindow_some isFirst
      have timesFirst := valid.times first memberFirst
      have le := valid.firstWindow_le isFirst member day
      have notAfterFirst : t < m.localNaiveToUtc (m.localDate t + dayOff) first.openTime := by
        refine not_le.mp fun passed => ?_
        have today : dayOff = 0 := by
          unfold localNaiveToUtc localDate dayLength at *
          omega
        subst today
        rw [Nat.cast_zero, add_zero] at found isFirst opens day same passed
        have since : first.openTime ≤ m.localTime t :=
          not_lt.mp fun before => passed.not_gt (lt_localNaiveToUtc_iff.mpr before)
        have past : min first.closeTime halfClose ≤ m.localTime t := by
          refine not_lt.mp fun unclosed => ?_
          rw [valid.isOpen_iff.mpr (.inr ⟨name, halfClose, first, found, isFirst, since, unclosed⟩)]
            at closed
          cases closed
        have opened := (opens w member day).trans past
        rw [same, lt_localNaiveToUtc_iff] at later
        omega
      have atMost := search.le ⟨dayOff, near, notClosed, first, memberFirst, dayFirst, rfl, notAfterFirst⟩
      have isFirstOpening : w.openTime = first.openTime := by
        rw [same] at atMost
        unfold localNaiveToUtc at atMost
        omega
      refine valid.isOpen_iff.mpr (.inr ⟨name, halfClose, first, ?_, ?_, ?_, ?_⟩)
      · rw [date]
        exact found
      · rw [date]
        exact isFirst
      · rw [time]
        exact le
      · rw [time, isFirstOpening]
        exact lt_min timesFirst.2.1 early

theorem Valid.nextOpen_agrees (valid : m.Valid) (fits : m.HalfDaysFit) {opening : ℤ}
    (closed : m.isOpen t = false)
    (next : (m.getSessionStatus t).nextOpenAt = some opening) : t < opening ∧
      m.isOpen opening = true ∧ ∀ x, t ≤ x → x < opening → m.isOpen x = false := by
  obtain ⟨maxDays, _, searched⟩ := valid.closed_nextOpen closed
  have found : m.nextOpen t maxDays = some opening := searched.symm.trans next
  have search := finds_nextOpen m t maxDays
  rw [found] at search
  obtain ⟨dayOff, near, _, w, member, _, same, later⟩ := search.mem
  refine ⟨later, valid.opens_at fits closed found, fun x from_ before => ?_⟩
  cases opened : m.isOpen x with
  | false => rfl
  | true =>
    have date := (localDate_of_opening valid member same).1
    have upTo := localDate_mono m before.le
    have reached : m.localDate x ≤ m.localDate t + maxDays := by omega
    obtain ⟨y, opens, early⟩ := valid.exists_opening closed from_ opened reached
    exact absurd (search.le opens) (by omega)

theorem Valid.reachable (valid : m.Valid) (closed : m.isOpen t = false) (before : t < x)
    (near : m.localDate x ≤ m.localDate t + 14) (opened : m.isOpen x = true) :
    (m.getSessionStatus t).nextOpenAt.isSome = true := by
  obtain ⟨maxDays, far, searched⟩ := valid.closed_nextOpen closed
  have reached : m.localDate x ≤ m.localDate t + maxDays := by omega
  obtain ⟨y, opens, _⟩ := valid.exists_opening closed before.le opened reached
  obtain ⟨least, found⟩ := (finds_nextOpen m t maxDays).isSome opens
  rw [searched, found]
  rfl

/-- The instants from `t` to a later time of its date, and the next one. -/
theorem until_of_today {closing : ℤ} (later : t < m.localNaiveToUtc (m.localDate t) closing)
    (late : closing + 1 < dayLength) :
    (∀ x, t ≤ x → x < m.localNaiveToUtc (m.localDate t) closing →
      m.localDate x = m.localDate t ∧ m.localTime t ≤ m.localTime x ∧ m.localTime x < closing) ∧
    m.localDate (m.localNaiveToUtc (m.localDate t) closing + 1) = m.localDate t ∧
    m.localTime (m.localNaiveToUtc (m.localDate t) closing + 1) = closing + 1 := by
  unfold localNaiveToUtc localDate localTime dayLength at *
  refine ⟨fun x from_ before => ?_, ?_⟩ <;> omega

theorem Valid.nextClose_agrees (valid : m.Valid) (separate : m.Separate) {closing : ℤ}
    (opened : m.isOpen t = true) (next : (m.getSessionStatus t).nextCloseAt = some closing) :
    t < closing ∧ (∀ x, t ≤ x → x < closing → m.isOpen x = true) ∧
      m.isOpen (closing + 1) = false := by
  obtain ⟨later, ⟨regular, w, active, rfl⟩ |
    ⟨name, halfClose, first, half, isFirst, since, rfl⟩⟩ := valid.open_nextClose opened next
  · obtain ⟨member, day, since, _⟩ := activeWindow_some active
    have times := valid.times w member
    have late : w.closeTime + 1 < dayLength := by
      unfold lastSecond dayLength at *
      omega
    obtain ⟨until_, date, time⟩ := until_of_today later late
    refine ⟨later, fun x from_ before => ?_, ?_⟩
    · obtain ⟨sameDate, after, unclosed⟩ := until_ x from_ before
      refine valid.isOpen_iff.mpr (.inl ⟨by rw [sameDate]; exact regular, ?_⟩)
      rw [sameDate]
      exact exists_activeWindow member day (since.trans after) unclosed.le
    · have nothing := separate _ _ w active (lt_localNaiveToUtc_iff.mp later)
      refine Bool.eq_false_iff.mpr fun reopened => ?_
      rcases valid.isOpen_iff.mp reopened with ⟨_, v, stillActive⟩ | ⟨_, _, _, half, _⟩
      · rw [date, time, nothing] at stillActive
        cases stillActive
      · rw [date, regular] at half
        cases half
  · have times := valid.times first (firstWindow_some isFirst).1
    have late : min first.closeTime halfClose + 1 < dayLength := by
      unfold lastSecond dayLength at *
      omega
    obtain ⟨until_, date, time⟩ := until_of_today later late
    refine ⟨later, fun x from_ before => ?_, ?_⟩
    · obtain ⟨sameDate, after, unclosed⟩ := until_ x from_ before
      refine valid.isOpen_iff.mpr (.inr ⟨name, halfClose, first, ?_, ?_, since.trans after, unclosed⟩)
      · rw [sameDate]
        exact half
      · rw [sameDate]
        exact isFirst
    · refine Bool.eq_false_iff.mpr fun reopened => ?_
      rcases valid.isOpen_iff.mp reopened with ⟨regular, _⟩ |
        ⟨other, otherClose, v, otherHalf, otherFirst, _, unclosed⟩
      · rw [date, half] at regular
        cases regular
      · rw [date, half] at otherHalf
        rw [date, isFirst] at otherFirst
        cases otherHalf
        cases otherFirst
        rw [time] at unclosed
        omega

/-- Every weekday has a date without holiday. -/
theorem exists_regular_date (m : SessionTemplate) {dow : ℤ} (lower : 0 ≤ dow) (upper : dow ≤ 6) :
    ∃ date, pgDow date = dow ∧ m.holidays.lookup date = none := by
  obtain ⟨bound, above⟩ := m.holidays.keys.toFinset.bddAbove
  refine ⟨7 * (bound.natAbs + 1) + dow + 3, ?_, ?_⟩
  · unfold pgDow
    omega
  · refine AList.lookup_eq_none.mpr fun member => ?_
    have small := above (Finset.mem_coe.mpr (List.mem_toFinset.mpr (AList.mem_keys.mp member)))
    omega

theorem Valid.nextCloseAt_regular (valid : m.Valid)
    (regular : m.holidays.lookup (m.localDate t) = none)
    (active : m.activeWindow (pgDow (m.localDate t)) (m.localTime t) = some w) :
    (m.getSessionStatus t).nextCloseAt = m.nextClose w t := by
  unfold getSessionStatus
  rw [valid.not24_7, if_neg Bool.false_ne_true, if_neg valid.nonempty, regular]
  simp only [regularStatus, active]

theorem Valid.separate_of_agrees (valid : m.Valid) (agrees : m.Agrees) : m.Separate := by
  intro dow time w active unclosed
  obtain ⟨member, day, since, _⟩ := activeWindow_some active
  have times := valid.times w member
  have days := valid.day w member
  obtain ⟨date, weekday, regular⟩ := exists_regular_date m (day ▸ days.1) (day ▸ days.2)
  have late : w.closeTime + 1 < dayLength := by
    unfold lastSecond dayLength at *
    omega
  have early : 0 ≤ time := times.1.trans since
  have atDate : m.localDate (m.localNaiveToUtc date time) = date :=
    localDate_localNaiveToUtc early (by omega)
  have atTime : m.localTime (m.localNaiveToUtc date time) = time :=
    localTime_localNaiveToUtc early (by omega)
  have stillActive : m.activeWindow (pgDow (m.localDate (m.localNaiveToUtc date time)))
      (m.localTime (m.localNaiveToUtc date time)) = some w := by
    rw [atDate, atTime, weekday]
    exact active
  have stillRegular : m.holidays.lookup (m.localDate (m.localNaiveToUtc date time)) = none := by
    rw [atDate]
    exact regular
  have opened := valid.isOpen_iff.mpr (.inl ⟨stillRegular, w, stillActive⟩)
  have later : m.localNaiveToUtc date time < m.localNaiveToUtc (m.localDate (m.localNaiveToUtc date time))
      w.closeTime := lt_localNaiveToUtc_iff.mpr (by rw [atTime]; exact unclosed)
  have next : (m.getSessionStatus (m.localNaiveToUtc date time)).nextCloseAt =
      some (m.localNaiveToUtc (m.localDate (m.localNaiveToUtc date time)) w.closeTime) := by
    rw [valid.nextCloseAt_regular stillRegular stillActive, nextClose, if_pos later]
  obtain ⟨_, _, closed⟩ := agrees.nextClose _ _ opened next
  obtain ⟨_, afterDate, afterTime⟩ := until_of_today later late
  cases after : m.activeWindow dow (w.closeTime + 1) with
  | none => rfl
  | some v =>
    have reopened := valid.isOpen_iff.mpr (.inl ⟨by rw [afterDate]; exact stillRegular, v, by
      rw [afterDate, afterTime, atDate, weekday]; exact after⟩)
    rw [closed] at reopened
    cases reopened

/-- The opening announced by a market that agrees with itself is not after any
candidate. -/
theorem Valid.announces (valid : m.Valid) (agrees : m.Agrees) (closed : m.isOpen t = false)
    {y : ℤ} (candidate : ∀ maxDays, 14 ≤ maxDays → y ∈ m.openings t maxDays) :
    ∃ opening, m.isOpen opening = true ∧ opening ≤ y ∧ ∃ maxDays, opening ∈ m.openings t maxDays := by
  obtain ⟨maxDays, far, searched⟩ := valid.closed_nextOpen closed
  have search := finds_nextOpen m t maxDays
  obtain ⟨opening, found⟩ := search.isSome (candidate maxDays far)
  rw [found] at search
  exact ⟨opening, (agrees.nextOpen t opening closed (searched.trans found)).2.1,
    search.le (candidate maxDays far), maxDays, search.mem⟩

theorem Valid.fits_of_agrees (valid : m.Valid) (agrees : m.Agrees) : m.HalfDaysFit := by
  intro date name halfClose half first isFirst
  obtain ⟨memberFirst, dayFirst⟩ := firstWindow_some isFirst
  have times := valid.times first memberFirst
  have notClosed : ∀ other, m.holidays.lookup date ≠ some (.closed other) := by
    intro other same
    rw [half] at same
    cases same
  -- an open instant of the half day is before its close
  have unclosed : ∀ x, m.localDate x = date → m.isOpen x = true →
      first.openTime ≤ m.localTime x ∧ m.localTime x < min first.closeTime halfClose := by
    intro x atDate opened
    rcases valid.isOpen_iff.mp opened with ⟨regular, _⟩ |
      ⟨other, otherClose, v, otherHalf, otherFirst, since, before⟩
    · rw [atDate, half] at regular
      cases regular
    · rw [atDate, half] at otherHalf
      rw [atDate, isFirst] at otherFirst
      cases otherHalf
      cases otherFirst
      exact ⟨since, before⟩
  have early : first.openTime < halfClose := by
    -- right before the first window the opening of that window is announced
    let t := m.localNaiveToUtc date first.openTime - 1
    have before : m.localDate t = date ∧ m.localTime t = first.openTime - 1 ∨
        m.localDate t = date - 1 ∧ m.localTime t = dayLength - 1 := by
      unfold lastSecond at times
      simp only [t]
      unfold localNaiveToUtc localDate localTime dayLength
      omega
    have closed : m.isOpen t = false := by
      refine Bool.eq_false_iff.mpr fun opened => ?_
      rcases before with ⟨sameDate, time⟩ | ⟨_, time⟩
      · have since := (unclosed t sameDate opened).1
        omega
      · have last := valid.localTime_le opened
        unfold lastSecond at last
        unfold dayLength at time
        omega
    have candidate : ∀ maxDays, 14 ≤ maxDays →
        m.localNaiveToUtc date first.openTime ∈ m.openings t maxDays := by
      intro maxDays far
      have dayOff : m.localDate t + (date - m.localDate t).toNat = date := by omega
      refine ⟨(date - m.localDate t).toNat, by omega, ?_, first, memberFirst, ?_, ?_,
        Int.sub_lt_self _ Int.one_pos⟩
      · rw [dayOff]
        exact notClosed
      · rw [dayOff]
        exact dayFirst
      · rw [dayOff]
    obtain ⟨opening, opened, atMost, _, _, _, _, _, _, _, _, later⟩ :=
      valid.announces agrees closed candidate
    have same : opening = m.localNaiveToUtc date first.openTime := by
      simp only [t] at later
      omega
    subst same
    obtain ⟨atDate, atTime⟩ := localDate_of_opening valid memberFirst rfl
    have inTime := (unclosed _ atDate opened).2
    rw [atTime] at inTime
    exact (lt_min_iff.mp inTime).2
  refine ⟨early, fun w member day => not_lt.mp fun late => ?_⟩
  -- at the close of the half day the opening of a later window is announced
  have timesW := valid.times w member
  have atDate : m.localDate (m.localNaiveToUtc date (min first.closeTime halfClose)) = date :=
    localDate_localNaiveToUtc (by omega) (by unfold lastSecond dayLength at *; omega)
  have atTime : m.localTime (m.localNaiveToUtc date (min first.closeTime halfClose)) =
      min first.closeTime halfClose :=
    localTime_localNaiveToUtc (by omega) (by unfold lastSecond dayLength at *; omega)
  have closed : m.isOpen (m.localNaiveToUtc date (min first.closeTime halfClose)) = false := by
    refine Bool.eq_false_iff.mpr fun opened => ?_
    have before := (unclosed _ atDate opened).2
    rw [atTime] at before
    exact before.false
  have candidate : ∀ maxDays, 14 ≤ maxDays → m.localNaiveToUtc date w.openTime ∈
      m.openings (m.localNaiveToUtc date (min first.closeTime halfClose)) maxDays := by
    intro maxDays _
    refine ⟨0, Nat.zero_le _, ?_, w, member, ?_, ?_, ?_⟩
    · rw [atDate, Nat.cast_zero, add_zero]
      exact notClosed
    · rw [atDate, Nat.cast_zero, add_zero]
      exact day
    · rw [atDate, Nat.cast_zero, add_zero]
    · unfold localNaiveToUtc
      omega
  obtain ⟨opening, opened, atMost, _, _, _, _, _, _, _, _, later⟩ :=
    valid.announces agrees closed candidate
  have sameDate : m.localDate opening = date := by
    have lower := localDate_mono m later.le
    have upper := localDate_mono m atMost
    rw [(localDate_of_opening valid member rfl).1] at upper
    omega
  have before := (unclosed opening sameDate opened).2
  have after := localTime_lt (atDate.trans sameDate.symm) later
  omega

/-- The status agrees with itself exactly when no window opens right after
another and the half days fit the windows. -/
theorem agrees_iff (valid : m.Valid) : m.Agrees ↔ m.Separate ∧ m.HalfDaysFit := by
  constructor
  · exact fun agrees => ⟨valid.separate_of_agrees agrees, valid.fits_of_agrees agrees⟩
  · rintro ⟨separate, fits⟩
    exact
      { inside := fun _ inside => valid.inside separate fits inside
        within := fun _ opened => valid.within opened
        nextOpen := fun _ _ closed next => valid.nextOpen_agrees fits closed next
        nextClose := fun _ _ opened next => valid.nextClose_agrees separate opened next
        reachable := fun _ _ closed before near opened => valid.reachable closed before near opened }

def clock (hours minutes : ℤ) : ℤ := (hours * 60 + minutes) * 60000000000

/-- The Monday of the commodities template, in Chicago winter time, with a
half day on Monday 1970-01-05 that closes at 12:00. -/
def commoditiesMonday : SessionTemplate where
  is24_7 := false
  offset := -clock 6 0
  windows := [⟨1, clock 0 0, clock 16 0⟩, ⟨1, clock 17 0, lastSecond⟩]
  holidays := (∅ : FiniteTable ℤ Holiday).insert 4 (.halfDay "Holiday" (clock 12 0))

theorem valid_commoditiesMonday : commoditiesMonday.Valid where
  not24_7 := rfl
  nonempty := nofun
  day := by decide +kernel
  times := by decide +kernel
  sorted := by decide +kernel

/-- At 13:00 on the half day 17:00 is announced, when the market stays closed. -/
theorem not_agrees_commoditiesMonday :
    commoditiesMonday.Valid ∧ ¬ commoditiesMonday.Agrees := by
  let t := commoditiesMonday.localNaiveToUtc 4 (clock 13 0)
  let evening := commoditiesMonday.localNaiveToUtc 4 (clock 17 0)
  have closed : commoditiesMonday.isOpen t = false := by decide +kernel
  have announced : (commoditiesMonday.getSessionStatus t).nextOpenAt = some evening := by
    decide +kernel
  have stillClosed : commoditiesMonday.isOpen evening = false := by decide +kernel
  refine ⟨valid_commoditiesMonday, fun agrees => ?_⟩
  have opened := (agrees.nextOpen t evening closed announced).2.1
  rw [stillClosed] at opened
  cases opened

/-- The stocks template in New York winter time, with a half day on a Friday
and a closed Monday. -/
def stocks : SessionTemplate where
  is24_7 := false
  offset := -clock 5 0
  windows := [⟨1, clock 9 30, clock 16 0⟩, ⟨2, clock 9 30, clock 16 0⟩,
    ⟨3, clock 9 30, clock 16 0⟩, ⟨4, clock 9 30, clock 16 0⟩, ⟨5, clock 9 30, clock 16 0⟩]
  holidays := ((∅ : FiniteTable ℤ Holiday).insert 1 (.halfDay "Half day" (clock 13 0))).insert 4
    (.closed "Holiday")

theorem valid_stocks : stocks.Valid where
  not24_7 := rfl
  nonempty := nofun
  day := by decide +kernel
  times := by decide +kernel
  sorted := by decide +kernel

theorem agrees_stocks : stocks.Agrees := by
  have hours : ∀ w ∈ stocks.windows, w.openTime = clock 9 30 ∧ w.closeTime = clock 16 0 := by
    decide +kernel
  have morning : clock 9 30 < clock 13 0 ∧ clock 9 30 ≤ min (clock 16 0) (clock 13 0) := by
    decide +kernel
  have separate : stocks.Separate := by
    intro dow time w active _
    refine List.find?_eq_none.mpr fun v member passes => ?_
    have unclosed := (of_decide_eq_true passes).2.2
    rw [(hours v member).2, (hours w (activeWindow_some active).1).2] at unclosed
    omega
  have fits : stocks.HalfDaysFit := by
    intro date name halfClose half first isFirst
    have closing : halfClose = clock 13 0 := by
      by_cases second : date = 4
      · subst second
        cases (AList.lookup_insert _).symm.trans half
      · have found := (AList.lookup_insert_ne second).symm.trans half
        by_cases same : date = 1
        · subst same
          cases (AList.lookup_insert _).symm.trans found
          rfl
        · cases (AList.lookup_insert_ne same).symm.trans found
    obtain ⟨opens, closes⟩ := hours first (firstWindow_some isFirst).1
    rw [closing, opens, closes]
    refine ⟨morning.1, fun w member _ => ?_⟩
    rw [(hours w member).1]
    exact morning.2
  exact (agrees_iff valid_stocks).mpr ⟨separate, fits⟩

end SessionTemplate

end TradingPlatform
