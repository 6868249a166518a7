import TradingPlatform.Library.FiniteTable
import TradingPlatform.Library.LeastSoFar

namespace TradingPlatform

open LeastSoFar

/-- Instants are nanoseconds since 1970-01-01 00:00 UTC, dates are days since
then, and times of day are nanoseconds since midnight. -/
def dayLength : ℤ := 86400000000000

/-- 23:59:59, the last time that an admin can enter. -/
def lastSecond : ℤ := 86399000000000

/-- A row of `session_template_windows`. -/
structure WindowRow where
  dayOfWeek : ℤ
  openTime : ℤ
  closeTime : ℤ
  deriving DecidableEq, Repr

/-- A row of `market_holidays`; the CHECKs give every half day its closing time. -/
inductive Holiday
  | closed (name : String)
  | halfDay (name : String) (closeTime : ℤ)
  deriving DecidableEq, Repr

structure SessionStatus where
  isOpen : Bool
  is24_7 : Bool
  nextOpenAt : Option ℤ
  nextCloseAt : Option ℤ
  holidayName : Option String
  holidayType : Option String
  deriving DecidableEq, Repr

/-- A session template with a fixed-offset timezone, its windows as
`load_windows` orders them, and its holidays. -/
structure SessionTemplate where
  is24_7 : Bool
  offset : ℤ
  windows : List WindowRow
  holidays : FiniteTable ℤ Holiday

namespace SessionTemplate

/-- `pg_dow` of a date: 0 is Sunday, and 1970-01-01 was a Thursday. -/
def pgDow (date : ℤ) : ℤ := (date + 4) % 7

def localDate (m : SessionTemplate) (now : ℤ) : ℤ := (now + m.offset) / dayLength

def localTime (m : SessionTemplate) (now : ℤ) : ℤ := (now + m.offset) % dayLength

/-- `local_naive_to_utc`; no local time is skipped at a fixed offset. -/
def localNaiveToUtc (m : SessionTemplate) (date time : ℤ) : ℤ :=
  date * dayLength + time - m.offset

/-- `load_closed_holiday_dates_inclusive` -/
def closedHolidayDates (m : SessionTemplate) (first last date : ℤ) : Bool :=
  match m.holidays.lookup date with
  | some (.closed _) => first ≤ date ∧ date ≤ last
  | _ => false

/-- `is_within_windows`, with the window that it returns. -/
def activeWindow (m : SessionTemplate) (dow time : ℤ) : Option WindowRow :=
  m.windows.find? fun w => w.dayOfWeek = dow ∧ w.openTime ≤ time ∧ time ≤ w.closeTime

/-- The windows of one day of the loop in `compute_next_open_utc_with_closed_days`. -/
def scanDay (m : SessionTemplate) (now : ℤ) (closed : ℤ → Bool) (date : ℤ)
    (best : Option ℤ) : Option ℤ :=
  if closed date then best
  else
    m.windows.foldl (fun best w =>
      if w.dayOfWeek = pgDow date ∧ now < m.localNaiveToUtc date w.openTime then
        keep best (m.localNaiveToUtc date w.openTime)
      else best) best

/-- `compute_next_open_utc_with_closed_days` -/
def computeNextOpen (m : SessionTemplate) (now : ℤ) (maxDays : ℕ) (closed : ℤ → Bool) :
    Option ℤ :=
  (List.range (maxDays + 1)).foldl
    (fun best (dayOff : ℕ) => m.scanDay now closed (m.localDate now + dayOff) best) none

/-- `compute_next_open_respecting_closed_holidays` -/
def nextOpen (m : SessionTemplate) (now : ℤ) (maxDays : ℕ) : Option ℤ :=
  m.computeNextOpen now maxDays
    (m.closedHolidayDates (m.localDate now) (m.localDate now + (maxDays + 31)))

/-- `compute_next_close_utc` -/
def nextClose (m : SessionTemplate) (active : WindowRow) (now : ℤ) : Option ℤ :=
  let close := m.localNaiveToUtc (m.localDate now) active.closeTime
  if now < close then some close else none

/-- `get_session_status` of a date without holiday. -/
def regularStatus (m : SessionTemplate) (now : ℤ) : SessionStatus :=
  match m.activeWindow (pgDow (m.localDate now)) (m.localTime now) with
  | some w => ⟨true, false, none, m.nextClose w now, none, none⟩
  | none => ⟨false, false, m.nextOpen now 14, none, none, none⟩

/-- `get_session_status` of a half day. -/
def halfDayStatus (m : SessionTemplate) (now : ℤ) (name : String) (halfClose : ℤ) :
    SessionStatus :=
  let today := m.localDate now
  match m.windows.find? fun w => w.dayOfWeek = pgDow today with
  | none => ⟨false, false, m.nextOpen now 400, none, some name, some "half_day"⟩
  | some w =>
    let effectiveClose := min w.closeTime halfClose
    if m.localTime now < w.openTime then
      ⟨false, false, some (m.localNaiveToUtc today w.openTime), none, some name, some "half_day"⟩
    else if m.localTime now < effectiveClose then
      let close := m.localNaiveToUtc today effectiveClose
      ⟨true, false, none, if now < close then some close else none, some name, some "half_day"⟩
    else ⟨false, false, m.nextOpen now 400, none, some name, some "half_day"⟩

/-- `get_session_status` for the resolved template. -/
def getSessionStatus (m : SessionTemplate) (now : ℤ) : SessionStatus :=
  if m.is24_7 then ⟨true, true, none, none, none, none⟩
  else if m.windows = [] then ⟨false, false, none, none, none, none⟩
  else
    match m.holidays.lookup (m.localDate now) with
    | some (.closed name) =>
      ⟨false, false, m.nextOpen now 400, none, some name, some "closed"⟩
    | some (.halfDay name halfClose) => m.halfDayStatus now name halfClose
    | none => m.regularStatus now

/-- What `validate_windows` and the tables guarantee, and the order in which
`load_windows` reads the rows. -/
structure Valid (m : SessionTemplate) : Prop where
  not24_7 : m.is24_7 = false
  nonempty : m.windows ≠ []
  day : ∀ w ∈ m.windows, 0 ≤ w.dayOfWeek ∧ w.dayOfWeek ≤ 6
  times : ∀ w ∈ m.windows, 0 ≤ w.openTime ∧ w.openTime < w.closeTime ∧ w.closeTime ≤ lastSecond
  sorted : m.windows.Pairwise fun w v =>
    w.dayOfWeek < v.dayOfWeek ∨ w.dayOfWeek = v.dayOfWeek ∧ w.openTime ≤ v.openTime

end SessionTemplate

end TradingPlatform
