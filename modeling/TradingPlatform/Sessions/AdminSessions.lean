import TradingPlatform.Sessions.MarketSessions
import TradingPlatform.Summary.FxRates
import Mathlib.Data.List.Sort

namespace TradingPlatform

/-- The formats `%H:%M:%S` and `%H:%M` of `parse_time`. -/
inductive TimeFormat
  | hms
  | hm
  deriving DecidableEq, Repr

/-- `NaiveTime` to the second; a leap second counts with the second before it. -/
structure NaiveTime where
  seconds : ℕ
  leap : Bool
  deriving DecidableEq, Repr

namespace NaiveTime

/-- The order of `NaiveTime`. -/
def Before (o c : NaiveTime) : Prop :=
  o.seconds < c.seconds ∨ o.seconds = c.seconds ∧ o.leap = false ∧ c.leap = true

instance (o c : NaiveTime) : Decidable (o.Before c) :=
  inferInstanceAs (Decidable (_ ∨ _))

/-- The seconds since midnight that go to the database. -/
def sinceMidnight (t : NaiveTime) : ℕ := t.seconds + if t.leap then 1 else 0

/-- The `TIME` of a time, in nanoseconds. -/
def stored (t : NaiveTime) : ℤ := (t.sinceMidnight : ℤ) * 1000000000

end NaiveTime

inductive SessionError
  | invalidMarket (market : String)
  | noWindows
  | dayOfWeek
  | invalidTime (text : String)
  | openNotBeforeClose
  | windowOrder (dayOfWeek : ℤ)
  | uniqueViolation
  | checkViolation
  | foreignKeyViolation
  | missing (after : String)
  deriving DecidableEq, Repr

/-- The texts of the service's own errors; the rest are the database's. -/
def SessionError.message : SessionError → Option String
  | invalidMarket market => some ("Invalid is_default_for_market: " ++ market)
  | noWindows => some "Non 24/7 templates require at least one window"
  | dayOfWeek => some "day_of_week must be 0–6"
  | invalidTime text => some ("Invalid time '" ++ text ++ "'")
  | openNotBeforeClose => some "open_time must be before close_time"
  | windowOrder day => some ("Each window must have open_time < close_time (day " ++ toString day ++ ")")
  | missing after => some ("template missing after " ++ after)
  | uniqueViolation | checkViolation | foreignKeyViolation => none

/-- `SessionTemplateWindowDto` -/
structure WindowDto where
  dayOfWeek : ℤ
  openTime : String
  closeTime : String
  deriving DecidableEq, Repr

abbrev TemplateId := ℕ

/-- What `create_template` and `update_template` are called with. -/
structure TemplateForm where
  name : String
  is24_7 : Bool
  isDefaultForMarket : Option String
  windows : List WindowDto
  deriving DecidableEq, Repr

/-- A row of `market_session_templates` with its rows of
`session_template_windows`. -/
structure TemplateRecord where
  id : TemplateId
  name : String
  is24_7 : Bool
  isDefaultForMarket : Option String
  windows : List WindowRow
  deriving DecidableEq, Repr

/-- `MarketSessionTemplateDto` -/
structure TemplateDto where
  id : TemplateId
  form : TemplateForm
  deriving DecidableEq, Repr

section Texts

/-- A number below a hundred with both digits. -/
def twoDigits (n : ℕ) : List Char := [Nat.digitChar (n / 10), Nat.digitChar (n % 10)]

def hourText (h : ℕ) : String := String.ofList (twoDigits h)

def hmText (h m : ℕ) : String := String.ofList (twoDigits h ++ ':' :: twoDigits m)

def hmsText (h m s : ℕ) : String :=
  String.ofList (twoDigits h ++ ':' :: twoDigits m ++ ':' :: twoDigits s)

/-- `to_char(time, 'HH24:MI:SS')` -/
def toChar (time : ℤ) : String :=
  let s := (time / 1000000000).toNat
  hmsText (s / 3600) (s / 60 % 60) (s % 60)

/-- The loop of `trim_end_matches(":00")`, on the reversed text. -/
def dropZeros : List Char → List Char
  | '0' :: '0' :: ':' :: rest => dropZeros rest
  | text => text

def trimHms (s : String) : String :=
  let t := trim s
  if ":00".toList <:+ t.toList ∧ t.toList.count ':' = 2 then
    String.ofList (dropZeros t.toList.reverse).reverse
  else t

def WindowRow.toDto (w : WindowRow) : WindowDto :=
  ⟨w.dayOfWeek, trimHms (toChar w.openTime), trimHms (toChar w.closeTime)⟩

end Texts

section Service
variable (parseFromStr : TimeFormat → String → Option NaiveTime)

def parseTime (s : String) : Option NaiveTime :=
  (parseFromStr .hms (trim s)).or (parseFromStr .hm (trim s))

def timeOf (s : String) : Except SessionError NaiveTime :=
  match parseTime parseFromStr s with
  | some t => .ok t
  | none => .error (.invalidTime s)

def validMarkets : List String := ["crypto", "forex", "commodities", "indices", "stocks"]

def validateMarketDefault (market : Option String) : Except SessionError Unit :=
  match market with
  | none => .ok ()
  | some m => if m ∈ validMarkets then .ok () else .error (.invalidMarket m)

/-- The loop of `validate_windows`. -/
def validateEach : List WindowDto → Except SessionError Unit
  | [] => .ok ()
  | w :: rest => do
    if ¬ (0 ≤ w.dayOfWeek ∧ w.dayOfWeek ≤ 6) then throw .dayOfWeek
    let o ← timeOf parseFromStr w.openTime
    let c ← timeOf parseFromStr w.closeTime
    if ¬ o.Before c then throw .openNotBeforeClose
    validateEach rest

def validateWindows (windows : List WindowDto) : Except SessionError Unit :=
  if windows = [] then .error .noWindows else validateEach parseFromStr windows

/-- The rows of `insert_windows`, with the CHECKs of the table. -/
def insertWindows : List WindowDto → Except SessionError (List WindowRow)
  | [] => .ok []
  | w :: rest => do
    let o ← timeOf parseFromStr w.openTime
    let c ← timeOf parseFromStr w.closeTime
    if ¬ o.Before c then throw (.windowOrder w.dayOfWeek)
    if ¬ (0 ≤ w.dayOfWeek ∧ w.dayOfWeek ≤ 6 ∧ o.stored < c.stored) then throw .checkViolation
    let rows ← insertWindows rest
    return ⟨w.dayOfWeek, o.stored, c.stored⟩ :: rows

/-- What is checked before the transaction begins. -/
def validateForm (form : TemplateForm) : Except SessionError Unit := do
  validateMarketDefault form.isDefaultForMarket
  if form.is24_7 then return () else validateWindows parseFromStr form.windows

/-- The windows that a form writes. -/
def formRows (form : TemplateForm) : Except SessionError (List WindowRow) :=
  if form.is24_7 then .ok [] else insertWindows parseFromStr form.windows

def clearOtherDefaults (db : List TemplateRecord) (market : Option String) (exceptId : TemplateId) :
    List TemplateRecord :=
  match market with
  | none => db
  | some m => db.map fun r =>
      if r.isDefaultForMarket = some m ∧ r.id ≠ exceptId then { r with isDefaultForMarket := none }
      else r

/-- `ORDER BY day_of_week, open_time` -/
def WindowRow.le (w v : WindowRow) : Bool :=
  w.dayOfWeek < v.dayOfWeek ∨ w.dayOfWeek = v.dayOfWeek ∧ w.openTime ≤ v.openTime

def TemplateRecord.toDto (r : TemplateRecord) : TemplateDto where
  id := r.id
  form :=
    { name := r.name
      is24_7 := r.is24_7
      isDefaultForMarket := r.isDefaultForMarket
      windows := (r.windows.mergeSort WindowRow.le).map (·.toDto) }

def getTemplate (db : List TemplateRecord) (id : TemplateId) : Option TemplateDto :=
  (db.find? (·.id = id)).map (·.toDto)

def listTemplates (db : List TemplateRecord) : List TemplateDto :=
  (db.mergeSort fun r q => r.name ≤ q.name).map (·.toDto)

def TemplateForm.toRecord (form : TemplateForm) (id : TemplateId) (rows : List WindowRow) :
    TemplateRecord :=
  ⟨id, form.name, form.is24_7, form.isDefaultForMarket, rows⟩

/-- The end of a transaction: what `get_template` then answers. -/
def committed (db : List TemplateRecord) (id : TemplateId) (after : String) :
    Except SessionError TemplateDto × List TemplateRecord :=
  ((getTemplate db id).elim (.error (.missing after)) .ok, db)

/-- `create_template` with the fresh id; the new row is inserted before the
other default of its market is cleared. -/
def createTemplate (db : List TemplateRecord) (id : TemplateId) (form : TemplateForm) :
    Except SessionError TemplateDto × List TemplateRecord :=
  match validateForm parseFromStr form with
  | .error e => (.error e, db)
  | .ok _ =>
    if ∃ r ∈ db, r.id = id ∨ r.name = form.name ∨
        r.isDefaultForMarket ≠ none ∧ r.isDefaultForMarket = form.isDefaultForMarket then
      (.error .uniqueViolation, db)
    else
      match formRows parseFromStr form with
      | .error e => (.error e, db)
      | .ok rows =>
        committed (clearOtherDefaults db form.isDefaultForMarket id ++ [form.toRecord id rows]) id
          "insert"

def updateTemplate (db : List TemplateRecord) (id : TemplateId) (form : TemplateForm) :
    Except SessionError TemplateDto × List TemplateRecord :=
  match validateForm parseFromStr form with
  | .error e => (.error e, db)
  | .ok _ =>
    if (∃ r ∈ db, r.id = id) ∧ ∃ r ∈ db, r.id ≠ id ∧ r.name = form.name then
      (.error .uniqueViolation, db)
    else
      match formRows parseFromStr form with
      | .error e => (.error e, db)
      | .ok rows =>
        if rows ≠ [] ∧ ∀ r ∈ db, r.id ≠ id then (.error .foreignKeyViolation, db)
        else
          committed ((clearOtherDefaults db form.isDefaultForMarket id).map fun r =>
            if r.id = id then form.toRecord id rows else r) id "update"

/-- The stored windows of a template. -/
def windowsOf (db : List TemplateRecord) (id : TemplateId) : List WindowRow :=
  (db.find? (·.id = id)).elim [] (·.windows)

/-- Saving the form succeeds and leaves the stored windows what they are. -/
def SavesBack (db : List TemplateRecord) (id : TemplateId) (form : TemplateForm) : Prop :=
  (∃ dto, (updateTemplate parseFromStr db id form).1 = .ok dto) ∧
    ∀ w, w ∈ windowsOf (updateTemplate parseFromStr db id form).2 id ↔ w ∈ windowsOf db id

/-- What the two formats accept of printed times. -/
structure TimeFormats : Prop where
  full : ∀ h m s, h < 24 → m < 60 → s < 60 →
    parseFromStr .hms (hmsText h m s) = some ⟨3600 * h + 60 * m + s, false⟩
  short : ∀ h m, h < 24 → m < 60 → parseFromStr .hm (hmText h m) = some ⟨3600 * h + 60 * m, false⟩
  noSeconds : ∀ h m, h < 24 → m < 60 → parseFromStr .hms (hmText h m) = none
  noMinutes : ∀ format h, h ≤ 24 → parseFromStr format (hourText h) = none
  ranged : ∀ format text, ∀ t ∈ parseFromStr format text, t.seconds < 86400

/-- The text is read as a time without minutes and seconds. -/
def OnTheHour (text : String) : Prop :=
  ∃ t ∈ parseTime parseFromStr text, t.sinceMidnight % 3600 = 0

end Service

end TradingPlatform
