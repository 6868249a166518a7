import TradingPlatform.Sessions.AdminSessions
import TradingPlatform.Pricing.PlainSymbols

namespace TradingPlatform

section Digits

theorem digitChar_cases {d : ℕ} (digit : d < 10) :
    Nat.digitChar d ≠ ':' ∧ Char.isWhitespace (Nat.digitChar d) = false ∧
      (Nat.digitChar d = '0' ↔ d = 0) := by
  interval_cases d <;> decide

theorem mem_twoDigits {n : ℕ} (small : n < 100) {c : Char} (within : c ∈ twoDigits n) :
    c ≠ ':' ∧ Char.isWhitespace c = false := by
  have tens : n / 10 < 10 := by omega
  have ones : n % 10 < 10 := by omega
  rcases List.mem_cons.mp within with rfl | last
  · exact ⟨(digitChar_cases tens).1, (digitChar_cases tens).2.1⟩
  · rw [List.mem_singleton.mp last]
    exact ⟨(digitChar_cases ones).1, (digitChar_cases ones).2.1⟩

theorem twoDigits_zero : twoDigits 0 = ['0', '0'] := rfl

/-- Only zero is printed with two zeros. -/
theorem twoDigits_eq_zeros {n : ℕ} (small : n < 100) : twoDigits n = ['0', '0'] ↔ n = 0 := by
  have tens : n / 10 < 10 := by omega
  have ones : n % 10 < 10 := by omega
  simp only [twoDigits, List.cons.injEq, and_true, (digitChar_cases tens).2.2,
    (digitChar_cases ones).2.2]
  omega

/-- Zeros go as long as they are a whole group after a colon. -/
theorem dropZeros_group {n : ℕ} (small : n < 100) (rest : List Char) :
    dropZeros ((twoDigits n).reverse ++ ':' :: rest) =
      if n = 0 then dropZeros rest else (twoDigits n).reverse ++ ':' :: rest := by
  split_ifs with zero
  · rw [zero, twoDigits_zero]
    rfl
  · have solid : ¬ (Nat.digitChar (n % 10) = '0' ∧ Nat.digitChar (n / 10) = '0') := by
      rw [(digitChar_cases (by omega : n % 10 < 10)).2.2,
        (digitChar_cases (by omega : n / 10 < 10)).2.2]
      omega
    simp only [twoDigits, List.reverse_cons, List.reverse_nil, List.nil_append, List.cons_append]
    generalize Nat.digitChar (n % 10) = ones at solid
    generalize Nat.digitChar (n / 10) = tens at solid
    unfold dropZeros
    split
    · rename_i same
      simp only [List.cons.injEq] at same
      exact absurd ⟨same.1, same.2.1⟩ solid
    · rfl

theorem dropZeros_pair (a b : Char) : dropZeros [a, b] = [a, b] := by
  unfold dropZeros
  split
  · rename_i same
    simp at same
  · rfl

theorem dropZeros_last (n : ℕ) : dropZeros (twoDigits n).reverse = (twoDigits n).reverse :=
  dropZeros_pair _ _

theorem twoDigits_reverse_reverse (n : ℕ) : (twoDigits n).reverse.reverse = twoDigits n :=
  List.reverse_reverse _

end Digits

section Printed
variable {h m s : ℕ}

theorem toList_hmsText : (hmsText h m s).toList =
    twoDigits h ++ ':' :: (twoDigits m ++ ':' :: twoDigits s) := by
  simp [hmsText]

theorem trim_hmsText (hours : h < 100) (minutes : m < 100) (seconds : s < 100) :
    trim (hmsText h m s) = hmsText h m s := by
  have solid : ∀ c ∈ (hmsText h m s).toList, Char.isWhitespace c = false := by
    intro c within
    rw [toList_hmsText] at within
    simp only [List.mem_append, List.mem_cons] at within
    rcases within with inHours | rfl | inMinutes | rfl | inSeconds
    · exact (mem_twoDigits hours inHours).2
    · decide
    · exact (mem_twoDigits minutes inMinutes).2
    · decide
    · exact (mem_twoDigits seconds inSeconds).2
  have trimmed : trim (hmsText h m s) =
    String.ofList (strip Char.isWhitespace (hmsText h m s).toList) := rfl
  rw [trimmed, strip_eq_self solid, String.ofList_toList]

theorem count_colon_twoDigits {n : ℕ} (small : n < 100) : (twoDigits n).count ':' = 0 :=
  List.count_eq_zero.mpr fun within => (mem_twoDigits small within).1 rfl

theorem count_colon (hours : h < 100) (minutes : m < 100) (seconds : s < 100) :
    (hmsText h m s).toList.count ':' = 2 := by
  rw [toList_hmsText]
  simp [List.count_append, count_colon_twoDigits hours, count_colon_twoDigits minutes,
    count_colon_twoDigits seconds]

theorem zeros_suffix (seconds : s < 100) :
    ":00".toList <:+ (hmsText h m s).toList ↔ s = 0 := by
  have split : (hmsText h m s).toList = (twoDigits h ++ ':' :: twoDigits m) ++ ':' :: twoDigits s := by
    rw [toList_hmsText]
    simp
  have same : ":00".toList = ':' :: ['0', '0'] := rfl
  rw [split, same]
  constructor
  · rintro ⟨before, joined⟩
    have lasts := (List.append_inj' joined rfl).2
    exact (twoDigits_eq_zeros seconds).mp (List.cons.inj lasts).2.symm
  · rintro rfl
    exact ⟨_, rfl⟩

theorem trimHms_hmsText (hours : h < 100) (minutes : m < 100) (seconds : s < 100) :
    trimHms (hmsText h m s) = if s = 0 then if m = 0 then hourText h else hmText h m
      else hmsText h m s := by
  simp only [trimHms, trim_hmsText hours minutes seconds, count_colon hours minutes seconds,
    zeros_suffix seconds, and_true]
  split_ifs with noSeconds noMinutes
  · rw [noSeconds, noMinutes]
    have reversed : (hmsText h 0 0).toList.reverse =
        (twoDigits 0).reverse ++ ':' :: ((twoDigits 0).reverse ++ ':' :: (twoDigits h).reverse) := by
      rw [toList_hmsText]
      simp
    rw [reversed, dropZeros_group (by omega), if_pos rfl, dropZeros_group (by omega), if_pos rfl,
      dropZeros_last, twoDigits_reverse_reverse, hourText]
  · rw [noSeconds]
    have reversed : (hmsText h m 0).toList.reverse =
        (twoDigits 0).reverse ++ ':' :: ((twoDigits m).reverse ++ ':' :: (twoDigits h).reverse) := by
      rw [toList_hmsText]
      simp
    rw [reversed, dropZeros_group (by omega), if_pos rfl, dropZeros_group minutes,
      if_neg noMinutes, hmText]
    simp
  · rfl

end Printed

section ReadBack
variable {parseFromStr : TimeFormat → String → Option NaiveTime}

theorem trim_solid {text : List Char} (solid : ∀ c ∈ text, Char.isWhitespace c = false) :
    trim (String.ofList text) = String.ofList text := by
  have trimmed : trim (String.ofList text) =
    String.ofList (strip Char.isWhitespace (String.ofList text).toList) := rfl
  rw [trimmed, String.toList_ofList, strip_eq_self solid]

theorem trim_hmText {h m : ℕ} (hours : h < 100) (minutes : m < 100) :
    trim (hmText h m) = hmText h m := by
  refine trim_solid fun c within => ?_
  simp only [List.mem_append, List.mem_cons] at within
  rcases within with inHours | rfl | inMinutes
  · exact (mem_twoDigits hours inHours).2
  · decide
  · exact (mem_twoDigits minutes inMinutes).2

theorem trim_hourText {h : ℕ} (hours : h < 100) : trim (hourText h) = hourText h :=
  trim_solid fun _ within => (mem_twoDigits hours within).2

/-- What the admin reads of a stored time is read back as that time, unless it
is on the hour. -/
theorem parseTime_toDto (formats : TimeFormats parseFromStr) {seconds : ℕ}
    (stored : seconds ≤ 86400) :
    parseTime parseFromStr (trimHms (toChar ((seconds : ℤ) * 1000000000))) =
      if seconds % 3600 = 0 then none else some ⟨seconds, false⟩ := by
  have whole : ((seconds : ℤ) * 1000000000 / 1000000000).toNat = seconds := by omega
  have hours : seconds / 3600 < 100 := by omega
  have minutes : seconds / 60 % 60 < 100 := by omega
  have rest : seconds % 60 < 100 := by omega
  have printed : trimHms (toChar ((seconds : ℤ) * 1000000000)) =
      if seconds % 60 = 0 then if seconds / 60 % 60 = 0 then hourText (seconds / 3600)
        else hmText (seconds / 3600) (seconds / 60 % 60)
      else hmsText (seconds / 3600) (seconds / 60 % 60) (seconds % 60) := by
    rw [← trimHms_hmsText hours minutes rest, toChar, whole]
  rw [printed]
  by_cases onTheHour : seconds % 3600 = 0
  · have noSeconds : seconds % 60 = 0 := by omega
    have noMinutes : seconds / 60 % 60 = 0 := by omega
    have hour : seconds / 3600 ≤ 24 := by omega
    rw [if_pos onTheHour, if_pos noSeconds, if_pos noMinutes, parseTime, trim_hourText hours,
      formats.noMinutes _ _ hour, formats.noMinutes _ _ hour, Option.or_none]
  · have hour : seconds / 3600 < 24 := by omega
    have minute : seconds / 60 % 60 < 60 := by omega
    rw [if_neg onTheHour]
    by_cases noSeconds : seconds % 60 = 0
    · have someMinutes : seconds / 60 % 60 ≠ 0 := by omega
      have total : 3600 * (seconds / 3600) + 60 * (seconds / 60 % 60) = seconds := by omega
      rw [if_pos noSeconds, if_neg someMinutes, parseTime, trim_hmText hours minutes,
        formats.noSeconds _ _ hour minute, formats.short _ _ hour minute, total, Option.none_or]
    · have second : seconds % 60 < 60 := by omega
      have total : 3600 * (seconds / 3600) + 60 * (seconds / 60 % 60) + seconds % 60 = seconds := by
        omega
      rw [if_neg noSeconds, parseTime, trim_hmsText hours minutes rest,
        formats.full _ _ _ hour minute second, total, Option.some_or]

/-- What a stored row is known by: a weekday and whole seconds, in order. -/
structure WindowRow.Stored (w : WindowRow) : Prop where
  day : 0 ≤ w.dayOfWeek ∧ w.dayOfWeek ≤ 6
  times : ∃ o c : ℕ, o < c ∧ c ≤ 86400 ∧ w.openTime = (o : ℤ) * 1000000000 ∧
    w.closeTime = (c : ℤ) * 1000000000

/-- The row has a time without minutes and seconds. -/
def WindowRow.OnTheHour (w : WindowRow) : Prop :=
  w.openTime % 3600000000000 = 0 ∨ w.closeTime % 3600000000000 = 0

end ReadBack

section Rows
variable {parseFromStr : TimeFormat → String → Option NaiveTime} {w : WindowRow}
  {rows : List WindowRow} {windows : List WindowDto}

theorem timeOf_eq_ok {text : String} {t : NaiveTime} :
    timeOf parseFromStr text = .ok t ↔ parseTime parseFromStr text = some t := by
  unfold timeOf
  cases parseTime parseFromStr text <;> simp

theorem validateEach_cons {window : WindowDto} :
    validateEach parseFromStr (window :: windows) = .ok () ↔
      (0 ≤ window.dayOfWeek ∧ window.dayOfWeek ≤ 6) ∧
      (∃ o c, parseTime parseFromStr window.openTime = some o ∧
        parseTime parseFromStr window.closeTime = some c ∧ o.Before c) ∧
      validateEach parseFromStr windows = .ok () := by
  simp only [← timeOf_eq_ok]
  rw [validateEach]
  by_cases day : 0 ≤ window.dayOfWeek ∧ window.dayOfWeek ≤ 6
  · cases timeOf parseFromStr window.openTime with
    | error e => simp [day, bind, Except.bind]
    | ok o =>
      cases timeOf parseFromStr window.closeTime with
      | error e => simp [day, bind, Except.bind]
      | ok c => by_cases before : o.Before c <;>
          simp [day, before, bind, Except.bind, throw, throwThe, MonadExceptOf.throw]
  · simp [day, bind, Except.bind, throw, throwThe, MonadExceptOf.throw]

theorem insertWindows_cons {window : WindowDto} :
    insertWindows parseFromStr (window :: windows) = .ok rows ↔
      ∃ o c later, parseTime parseFromStr window.openTime = some o ∧
        parseTime parseFromStr window.closeTime = some c ∧ o.Before c ∧
        (0 ≤ window.dayOfWeek ∧ window.dayOfWeek ≤ 6 ∧ o.stored < c.stored) ∧
        insertWindows parseFromStr windows = .ok later ∧
        rows = ⟨window.dayOfWeek, o.stored, c.stored⟩ :: later := by
  simp only [← timeOf_eq_ok]
  rw [insertWindows]
  cases timeOf parseFromStr window.openTime with
  | error e => simp [bind, Except.bind]
  | ok o =>
    cases timeOf parseFromStr window.closeTime with
    | error e => simp [bind, Except.bind]
    | ok c =>
      by_cases before : o.Before c
      · by_cases check : 0 ≤ window.dayOfWeek ∧ window.dayOfWeek ≤ 6 ∧ o.stored < c.stored
        · cases insertWindows parseFromStr windows with
          | error e => simp [before, check, bind, Except.bind]
          | ok later => simp [before, check, bind, Except.bind, pure, Except.pure, eq_comm]
        · simp [before, check, bind, Except.bind, throw, throwThe, MonadExceptOf.throw]
      · simp [before, bind, Except.bind, throw, throwThe, MonadExceptOf.throw]

theorem toDto_openTime (w : WindowRow) : w.toDto.openTime = trimHms (toChar w.openTime) := by
  rw [WindowRow.toDto]

theorem toDto_closeTime (w : WindowRow) : w.toDto.closeTime = trimHms (toChar w.closeTime) := by
  rw [WindowRow.toDto]

theorem parseTime_stored (formats : TimeFormats parseFromStr) {time : ℤ} {seconds : ℕ}
    (isTime : time = (seconds : ℤ) * 1000000000) (bound : seconds ≤ 86400) :
    parseTime parseFromStr (trimHms (toChar time)) =
      if time % 3600000000000 = 0 then none else some ⟨seconds, false⟩ := by
  have hour : time % 3600000000000 = 0 ↔ seconds % 3600 = 0 := by omega
  rw [isTime, parseTime_toDto formats bound, ← isTime]
  simp only [hour]

theorem offHour_of_parseTime (formats : TimeFormats parseFromStr) (stored : w.Stored)
    {o c : NaiveTime} (isOpen : parseTime parseFromStr w.toDto.openTime = some o)
    (isClose : parseTime parseFromStr w.toDto.closeTime = some c) : ¬ w.OnTheHour := by
  obtain ⟨-, o', c', order, bound, openTime, closeTime⟩ := stored
  have opens := parseTime_stored formats openTime (by omega)
  have closes := parseTime_stored formats closeTime bound
  rintro (hour | hour)
  · rw [toDto_openTime, opens, if_pos hour] at isOpen
    cases isOpen
  · rw [toDto_closeTime, closes, if_pos hour] at isClose
    cases isClose

/-- The service reads a window that it has stored. -/
theorem parseTime_of_offHour (formats : TimeFormats parseFromStr) (stored : w.Stored)
    (offHour : ¬ w.OnTheHour) : ∃ o c, parseTime parseFromStr w.toDto.openTime = some o ∧
      parseTime parseFromStr w.toDto.closeTime = some c ∧ o.Before c ∧ o.stored = w.openTime ∧
        c.stored = w.closeTime := by
  obtain ⟨-, o, c, order, bound, openTime, closeTime⟩ := stored
  obtain ⟨openOff, closeOff⟩ := not_or.mp offHour
  have opens := parseTime_stored formats openTime (by omega)
  have closes := parseTime_stored formats closeTime bound
  rw [toDto_openTime, toDto_closeTime, opens, closes, if_neg openOff, if_neg closeOff]
  refine ⟨⟨o, false⟩, ⟨c, false⟩, rfl, rfl, .inl order, ?_, ?_⟩
  · simp [NaiveTime.stored, NaiveTime.sinceMidnight, openTime]
  · simp [NaiveTime.stored, NaiveTime.sinceMidnight, closeTime]

theorem validateEach_toDto (formats : TimeFormats parseFromStr) (stored : ∀ w ∈ rows, w.Stored) :
    validateEach parseFromStr (rows.map (·.toDto)) = .ok () ↔ ∀ w ∈ rows, ¬ w.OnTheHour := by
  induction rows with
  | nil => simp [validateEach]
  | cons w rows ih =>
    have first := stored w List.mem_cons_self
    have later := ih fun v isLater => stored v (List.mem_cons_of_mem _ isLater)
    rw [List.map_cons, validateEach_cons, later, List.forall_mem_cons]
    have day : 0 ≤ w.toDto.dayOfWeek ∧ w.toDto.dayOfWeek ≤ 6 := first.day
    constructor
    · rintro ⟨-, ⟨o, c, isOpen, isClose, -⟩, rest⟩
      exact ⟨offHour_of_parseTime formats first isOpen isClose, rest⟩
    · rintro ⟨offHour, rest⟩
      obtain ⟨o, c, isOpen, isClose, before, -, -⟩ := parseTime_of_offHour formats first offHour
      exact ⟨day, ⟨o, c, isOpen, isClose, before⟩, rest⟩

/-- Windows that are off the hour are stored again as they were. -/
theorem insertWindows_toDto (formats : TimeFormats parseFromStr) (stored : ∀ w ∈ rows, w.Stored)
    (offHour : ∀ w ∈ rows, ¬ w.OnTheHour) :
    insertWindows parseFromStr (rows.map (·.toDto)) = .ok rows := by
  induction rows with
  | nil => rfl
  | cons w rows ih =>
    have later := ih (fun v isLater => stored v (List.mem_cons_of_mem _ isLater))
      fun v isLater => offHour v (List.mem_cons_of_mem _ isLater)
    have first := stored w List.mem_cons_self
    obtain ⟨o, c, isOpen, isClose, before, sameOpen, sameClose⟩ :=
      parseTime_of_offHour formats first (offHour w List.mem_cons_self)
    have order : o.stored < c.stored := by
      obtain ⟨-, o', c', order, -, isOpen', isClose'⟩ := first
      omega
    rw [List.map_cons, insertWindows_cons]
    refine ⟨o, c, rows, isOpen, isClose, before, ⟨first.day.1, first.day.2, order⟩, later, ?_⟩
    rw [sameOpen, sameClose]
    rfl

theorem sinceMidnight_le (formats : TimeFormats parseFromStr) {text : String} {t : NaiveTime}
    (isTime : parseTime parseFromStr text = some t) : t.sinceMidnight ≤ 86400 := by
  have range : t.seconds < 86400 := by
    unfold parseTime at isTime
    cases full : parseFromStr .hms (trim text) with
    | none =>
      rw [full, Option.none_or] at isTime
      exact formats.ranged .hm _ t isTime
    | some t' =>
      rw [full, Option.some_or] at isTime
      cases isTime
      exact formats.ranged .hms _ t full
  unfold NaiveTime.sinceMidnight
  split_ifs <;> omega

theorem onTheHour_of_parseTime {text : String} {t : NaiveTime}
    (isTime : parseTime parseFromStr text = some t) :
    OnTheHour parseFromStr text ↔ t.stored % 3600000000000 = 0 := by
  have stored : t.stored % 3600000000000 = 0 ↔ t.sinceMidnight % 3600 = 0 := by
    unfold NaiveTime.stored
    omega
  rw [stored]
  constructor
  · rintro ⟨t', isTime', hour⟩
    cases isTime.symm.trans isTime'
    exact hour
  · exact fun hour => ⟨t, isTime, hour⟩

/-- What `insert_windows` leaves in the table. -/
theorem insertWindows_stored (formats : TimeFormats parseFromStr)
    (inserted : insertWindows parseFromStr windows = .ok rows) : (∀ w ∈ rows, w.Stored) ∧
      ((∀ w ∈ rows, ¬ w.OnTheHour) ↔ ∀ window ∈ windows,
        ¬ OnTheHour parseFromStr window.openTime ∧ ¬ OnTheHour parseFromStr window.closeTime) ∧
      (windows ≠ [] → rows ≠ []) := by
  induction windows generalizing rows with
  | nil =>
    cases inserted
    simp
  | cons window windows ih =>
    obtain ⟨o, c, later, isOpen, isClose, -, check, insertedLater, rfl⟩ :=
      insertWindows_cons.mp inserted
    obtain ⟨stored, offHour, -⟩ := ih insertedLater
    have first : (⟨window.dayOfWeek, o.stored, c.stored⟩ : WindowRow).Stored := by
      refine ⟨⟨check.1, check.2.1⟩, o.sinceMidnight, c.sinceMidnight, ?_,
        sinceMidnight_le formats isClose, rfl, rfl⟩
      have order := check.2.2
      unfold NaiveTime.stored at order
      omega
    refine ⟨List.forall_mem_cons.mpr ⟨first, stored⟩, ?_, by simp⟩
    rw [List.forall_mem_cons, List.forall_mem_cons, offHour, onTheHour_of_parseTime isOpen,
      onTheHour_of_parseTime isClose, WindowRow.OnTheHour, not_or]

end Rows

section SaveBack
variable {parseFromStr : TimeFormat → String → Option NaiveTime} {db : List TemplateRecord}
  {id : TemplateId} {form : TemplateForm} {dto : TemplateDto} {record : TemplateRecord}

theorem clearOtherDefaults_eq (db : List TemplateRecord) (market : Option String) (id : TemplateId) : ∃ clear : TemplateRecord → TemplateRecord,
    (∀ r, (clear r).id = r.id ∧ (clear r).name = r.name ∧ (r.id = id → clear r = r)) ∧
      clearOtherDefaults db market id = db.map clear := by
  cases market with
  | none => exact ⟨fun r => r, by simp, by simp [clearOtherDefaults]⟩
  | some m =>
    refine ⟨_, fun r => ?_, rfl⟩
    split_ifs with other
    · exact ⟨rfl, rfl, fun same => absurd same other.2⟩
    · simp

/-- A table in which the template has its one row. -/
structure HasTemplate (db : List TemplateRecord) (record : TemplateRecord) : Prop where
  member : record ∈ db
  sole : ∀ r ∈ db, r.id = record.id → r = record

theorem HasTemplate.find? (has : HasTemplate db record) :
    db.find? (·.id = record.id) = some record := by
  cases found : db.find? (·.id = record.id) with
  | none =>
    have missing := List.find?_eq_none.mp found record has.member
    simp at missing
  | some r =>
    have same : r.id = record.id := by simpa using List.find?_some found
    rw [has.sole r (List.mem_of_find?_eq_some found) same]

/-- What an accepted `create_template` leaves. -/
theorem createTemplate_ok (created : (createTemplate parseFromStr db id form).1 = .ok dto) :
    ∃ rows, validateForm parseFromStr form = .ok () ∧ formRows parseFromStr form = .ok rows ∧
      HasTemplate (createTemplate parseFromStr db id form).2 (form.toRecord id rows) ∧
      ∀ r ∈ (createTemplate parseFromStr db id form).2, r.name = form.name → r.id = id := by
  unfold createTemplate at created ⊢
  cases valid : validateForm parseFromStr form with
  | error e => simp [valid] at created
  | ok u =>
    simp only [valid] at created ⊢
    by_cases taken : ∃ r ∈ db, r.id = id ∨ r.name = form.name ∨
        r.isDefaultForMarket ≠ none ∧ r.isDefaultForMarket = form.isDefaultForMarket
    · simp [if_pos taken] at created
    · rw [if_neg taken] at created ⊢
      cases inserted : formRows parseFromStr form with
      | error e => simp [inserted] at created
      | ok rows =>
        obtain ⟨clear, same, cleared⟩ := clearOtherDefaults_eq db
          form.isDefaultForMarket id
        refine ⟨rows, trivial, rfl, ⟨by simp [committed, TemplateForm.toRecord], ?_⟩, ?_⟩
        · intro r known sameId
          simp only [committed, cleared, List.mem_append, List.mem_map, List.mem_singleton] at known
          rcases known with ⟨old, isOld, rfl⟩ | isNew
          · exact absurd ⟨old, isOld, .inl ((same old).1.symm.trans sameId)⟩ taken
          · exact isNew
        · intro r known sameName
          simp only [committed, cleared, List.mem_append, List.mem_map, List.mem_singleton] at known
          rcases known with ⟨old, isOld, rfl⟩ | rfl
          · exact absurd ⟨old, isOld, .inr (.inl ((same old).2.1.symm.trans sameName))⟩ taken
          · rfl

theorem validateForm_eq_ok : validateForm parseFromStr form = .ok () ↔
    validateMarketDefault form.isDefaultForMarket = .ok () ∧ (form.is24_7 = false →
      form.windows ≠ [] ∧ validateEach parseFromStr form.windows = .ok ()) := by
  unfold validateForm validateWindows
  cases validateMarketDefault form.isDefaultForMarket with
  | error e => simp [bind, Except.bind]
  | ok u =>
    cases form.is24_7 with
    | true => simp [bind, Except.bind, pure, Except.pure]
    | false => by_cases empty : form.windows = [] <;> simp [empty, bind, Except.bind]

/-- The template is read back with its windows in the order of the query. -/
theorem returned_form (has : HasTemplate db record)
    (isReturned : getTemplate db record.id = some dto ∨
      dto ∈ listTemplates db ∧ dto.id = record.id) : dto = record.toDto := by
  rcases isReturned with got | ⟨listed, same⟩
  · rw [getTemplate, has.find?, Option.map_some, Option.some.injEq] at got
    exact got.symm
  · obtain ⟨r, known, rfl⟩ := List.mem_map.mp listed
    rw [has.sole r (List.mem_mergeSort.mp known) same]

/-- An update of a template that is there writes its windows. -/
theorem updateTemplate_ok (form : TemplateForm) (has : HasTemplate db record)
    (named : ∀ r ∈ db, r.name = form.name → r.id = record.id) {rows : List WindowRow}
    (valid : validateForm parseFromStr form = .ok ())
    (inserted : formRows parseFromStr form = .ok rows) :
    (∃ dto, (updateTemplate parseFromStr db record.id form).1 = .ok dto) ∧
      windowsOf (updateTemplate parseFromStr db record.id form).2 record.id = rows := by
  have noOther : ¬ ((∃ r ∈ db, r.id = record.id) ∧
      ∃ r ∈ db, r.id ≠ record.id ∧ r.name = form.name) := by
    rintro ⟨-, r, known, differ, sameName⟩
    exact differ (named r known sameName)
  have present : ¬ (rows ≠ [] ∧ ∀ r ∈ db, r.id ≠ record.id) := fun missing =>
    missing.2 record has.member rfl
  obtain ⟨clear, same, cleared⟩ := clearOtherDefaults_eq db form.isDefaultForMarket record.id
  have after : updateTemplate parseFromStr db record.id form =
      committed ((db.map clear).map fun r =>
        if r.id = record.id then form.toRecord record.id rows else r) record.id "update" := by
    unfold updateTemplate
    simp only [valid, inserted]
    rw [if_neg noOther, if_neg present, cleared]
  have written : HasTemplate ((db.map clear).map fun r =>
      if r.id = record.id then form.toRecord record.id rows else r)
      (form.toRecord record.id rows) := by
    constructor
    · rw [List.map_map, List.mem_map]
      exact ⟨record, has.member, by simp [(same record).1]⟩
    · intro r known sameId
      obtain ⟨old, -, rfl⟩ := List.mem_map.mp known
      by_cases own : old.id = record.id
      · rw [if_pos own]
      · rw [if_neg own] at sameId
        exact absurd sameId own
  have found := written.find?
  have sameId : (form.toRecord record.id rows).id = record.id := rfl
  rw [sameId] at found
  rw [after, committed, getTemplate, windowsOf, found]
  exact ⟨⟨_, rfl⟩, rfl⟩

/-- A template is saved back as it was read exactly if none of its windows opens
or closes on the hour: `trim_hms` takes every group of zeros off. -/
theorem savesBack_iff (formats : TimeFormats parseFromStr) (not24_7 : form.is24_7 = false)
    (created : (createTemplate parseFromStr db id form).1 = .ok dto) {returned : TemplateDto}
    (isReturned : getTemplate (createTemplate parseFromStr db id form).2 id = some returned ∨
      returned ∈ listTemplates (createTemplate parseFromStr db id form).2 ∧ returned.id = id)
    {windows : List WindowDto} (order : windows.Perm returned.form.windows) :
    SavesBack parseFromStr (createTemplate parseFromStr db id form).2 id
        { returned.form with windows := windows } ↔
      ∀ window ∈ form.windows, ¬ OnTheHour parseFromStr window.openTime ∧
        ¬ OnTheHour parseFromStr window.closeTime := by
  obtain ⟨rows, valid, inserted, has, named⟩ := createTemplate_ok created
  have isTemplate := returned_form has isReturned
  subst isTemplate
  obtain ⟨market, weekly⟩ := validateForm_eq_ok.mp valid
  obtain ⟨nonempty, -⟩ := weekly not24_7
  have insertedRows : insertWindows parseFromStr form.windows = .ok rows := by
    rw [← inserted, formRows, not24_7]
    rfl
  obtain ⟨stored, offHour, filled⟩ := insertWindows_stored formats insertedRows
  have sorted : windows.Perm (rows.map (·.toDto)) := order.trans ((List.mergeSort_perm _ _).map _)
  obtain ⟨rows', isMap, perm⟩ : ∃ rows' : List WindowRow,
      windows = rows'.map (·.toDto) ∧ rows'.Perm rows := by
    have split := congrFun (congrFun (List.eq_map_comp_perm WindowRow.toDto) windows) rows
    obtain ⟨rows', isMap, perm⟩ : Relation.Comp _ _ windows rows := split ▸ sorted
    exact ⟨rows', isMap, perm⟩
  have stored' : ∀ w ∈ rows', w.Stored := fun w known => stored w (perm.mem_iff.mp known)
  rw [← offHour]
  let saved : TemplateForm := { (form.toRecord id rows).toDto.form with windows := windows }
  have savedWindows : saved.windows = rows'.map (·.toDto) := isMap
  have isValid : validateForm parseFromStr saved = .ok () ↔ _ := validateForm_eq_ok
  constructor
  · rintro ⟨⟨answer, accepted⟩, -⟩ w known
    change (updateTemplate parseFromStr _ id saved).1 = .ok answer at accepted
    cases again : validateForm parseFromStr saved with
    | error e => simp [updateTemplate, again] at accepted
    | ok u =>
      obtain ⟨-, checked⟩ := (isValid.mp again).2 not24_7
      rw [savedWindows] at checked
      exact (validateEach_toDto formats stored').mp checked w (perm.mem_iff.mpr known)
  · intro off
    have off' : ∀ w ∈ rows', ¬ w.OnTheHour := fun w known => off w (perm.mem_iff.mp known)
    have again : validateForm parseFromStr saved = .ok () := by
      refine isValid.mpr ⟨market, fun _ => ⟨?_, ?_⟩⟩
      · intro empty
        have noRows : rows' = [] := List.map_eq_nil_iff.mp (isMap.symm.trans empty)
        exact filled nonempty (List.nil_perm.mp (noRows ▸ perm))
      · rw [savedWindows]
        exact (validateEach_toDto formats stored').mpr off'
    have rewritten : formRows parseFromStr saved = .ok rows' := by
      have weekly : saved.is24_7 = false := not24_7
      rw [formRows, if_neg (by simp [weekly]), savedWindows]
      exact insertWindows_toDto formats stored' off'
    obtain ⟨accepted, written⟩ := updateTemplate_ok saved has named again rewritten
    refine ⟨accepted, fun w => ?_⟩
    have sameId : (form.toRecord id rows).id = id := rfl
    have found := has.find?
    rw [sameId] at written found
    rw [written, windowsOf, found]
    exact perm.mem_iff

end SaveBack

section OneWindow

def readDigits (tens ones : Char) : Option ℕ :=
  if tens.isDigit ∧ ones.isDigit then some (10 * (tens.toNat - 48) + (ones.toNat - 48)) else none

def readHms : List Char → Option NaiveTime
  | [a, b, ':', c, d, ':', e, f] =>
    (readDigits a b).bind fun h => (readDigits c d).bind fun m => (readDigits e f).bind fun s =>
      if h < 24 ∧ m < 60 ∧ s < 60 then some ⟨3600 * h + 60 * m + s, false⟩ else none
  | _ => none

def readHm : List Char → Option NaiveTime
  | [a, b, ':', c, d] =>
    (readDigits a b).bind fun h => (readDigits c d).bind fun m =>
      if h < 24 ∧ m < 60 then some ⟨3600 * h + 60 * m, false⟩ else none
  | _ => none

/-- The two formats on times with all their digits. -/
def readTime (format : TimeFormat) (text : String) : Option NaiveTime :=
  match format with
  | .hms => readHms text.toList
  | .hm => readHm text.toList

theorem readDigits_twoDigits {n : ℕ} (small : n < 60) :
    readDigits (Nat.digitChar (n / 10)) (Nat.digitChar (n % 10)) = some n := by
  have all : ∀ n < 60, readDigits (Nat.digitChar (n / 10)) (Nat.digitChar (n % 10)) = some n := by
    decide +kernel
  exact all n small

theorem readHms_range {text : List Char} {t : NaiveTime} (isTime : readHms text = some t) :
    t.seconds < 86400 := by
  unfold readHms at isTime
  split at isTime
  · simp only [Option.bind_eq_some_iff] at isTime
    obtain ⟨h, -, m, -, s, -, inRange⟩ := isTime
    split_ifs at inRange with range
    cases inRange
    dsimp only
    omega
  · cases isTime

theorem readHm_range {text : List Char} {t : NaiveTime} (isTime : readHm text = some t) :
    t.seconds < 86400 := by
  unfold readHm at isTime
  split at isTime
  · simp only [Option.bind_eq_some_iff] at isTime
    obtain ⟨h, -, m, -, inRange⟩ := isTime
    split_ifs at inRange with range
    cases inRange
    dsimp only
    omega
  · cases isTime

theorem readTime_formats : TimeFormats readTime where
  full h m s hours minutes seconds := by
    simp [readTime, readHms, toList_hmsText, twoDigits, hours, minutes, seconds,
      readDigits_twoDigits (hours.trans (by decide)), readDigits_twoDigits minutes,
      readDigits_twoDigits seconds]
  short h m hours minutes := by
    simp [readTime, readHm, hmText, twoDigits, hours, minutes,
      readDigits_twoDigits (hours.trans (by decide)), readDigits_twoDigits minutes]
  noSeconds h m _ _ := by simp [readTime, readHms, hmText, twoDigits]
  noMinutes format h _ := by cases format <;> simp [readTime, readHms, readHm, hourText, twoDigits]
  ranged format text t isTime := by
    cases format with
    | hms => exact readHms_range isTime
    | hm => exact readHm_range isTime

/-- A template with the one window. -/
def oneWindow (openTime closeTime : String) : TemplateForm :=
  ⟨"weekly", false, some "forex", [⟨1, openTime, closeTime⟩]⟩

theorem savesBack_offHour : ∃ returned,
    getTemplate (createTemplate readTime [] 7 (oneWindow "09:30:15" "16:45")).2 7 = some returned ∧
    SavesBack readTime (createTemplate readTime [] 7 (oneWindow "09:30:15" "16:45")).2 7
      returned.form := by
  have created : (createTemplate readTime [] 7 (oneWindow "09:30:15" "16:45")).1 =
      .ok ⟨7, oneWindow "09:30:15" "16:45"⟩ := by
    decide +kernel
  have got : getTemplate (createTemplate readTime [] 7 (oneWindow "09:30:15" "16:45")).2 7 =
      some ⟨7, oneWindow "09:30:15" "16:45"⟩ := by
    decide +kernel
  have times : parseTime readTime "09:30:15" = some ⟨34215, false⟩ ∧
      parseTime readTime "16:45" = some ⟨60300, false⟩ := by
    decide +kernel
  refine ⟨_, got, (savesBack_iff readTime_formats rfl created (.inl got) (.refl _)).mpr ?_⟩
  intro window known
  rw [List.mem_singleton.mp known]
  constructor
  · rintro ⟨t, isTime, hour⟩
    cases times.1.symm.trans isTime
    exact absurd hour (by decide)
  · rintro ⟨t, isTime, hour⟩
    cases times.2.symm.trans isTime
    exact absurd hour (by decide)

/-- Nine o'clock is returned as `09`, which no format accepts. -/
theorem not_savesBack_nine : ∃ returned,
    getTemplate (createTemplate readTime [] 7 (oneWindow "09:00" "17:30")).2 7 = some returned ∧
    returned.form.windows = [⟨1, "09", "17:30"⟩] ∧
    (updateTemplate readTime (createTemplate readTime [] 7 (oneWindow "09:00" "17:30")).2 7
      returned.form).1 = .error (.invalidTime "09") ∧
    ¬ SavesBack readTime (createTemplate readTime [] 7 (oneWindow "09:00" "17:30")).2 7
      returned.form := by
  have got : getTemplate (createTemplate readTime [] 7 (oneWindow "09:00" "17:30")).2 7 =
      some ⟨7, oneWindow "09" "17:30"⟩ := by
    decide +kernel
  have refused : (updateTemplate readTime
      (createTemplate readTime [] 7 (oneWindow "09:00" "17:30")).2 7 (oneWindow "09" "17:30")).1 =
        .error (.invalidTime "09") := by
    decide +kernel
  refine ⟨_, got, rfl, refused, ?_⟩
  rintro ⟨⟨dto, accepted⟩, -⟩
  cases refused.symm.trans accepted

end OneWindow

end TradingPlatform
