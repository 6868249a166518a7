import TradingPlatform.Library.RowQueries
import TradingPlatform.Library.StepRuns

namespace TradingPlatform.Notifications
open RowQueries StepRuns

/-- The fields of `meta` that the program reads. -/
structure Meta where
  positionId : Option String
  targetUserId : Option String
  userId : Option String
  deriving DecidableEq, Repr

structure Notice where
  kind : String
  title : String
  message : String
  createdAt : ℤ
  read : Bool
  about : Meta
  deriving DecidableEq, Repr

/-- A row of the table, stored under its id. -/
structure Row extends Notice where
  userId : String
  deriving DecidableEq, Repr

/-- `NotificationPushPayload` -/
structure Notification extends Notice where
  id : String
  deriving DecidableEq, Repr

abbrev Table := FiniteTable String Row

def Row.toNotification (row : Row) (id : String) : Notification := { row.toNotice with id }

section Routes
variable (rows : Table) (user : String)

/-- Which rows `get_notifications` lists to a caller who is let at these users. -/
def selects (allowed : Option (List String)) (row : Row) : Bool :=
  let unreferenced := row.about.targetUserId.isNone && row.about.userId.isNone
  decide (row.userId = user) &&
    match allowed with
    | none => true
    | some [] => unreferenced
    | some ids => unreferenced || row.about.targetUserId.any (ids.contains ·) ||
        row.about.userId.any (ids.contains ·)

def newer (row row' : Row) : Bool := row'.createdAt < row.createdAt

/-- `get_notifications`: without a scope, or when the statement fails, nothing.
It has no answer that the database cannot give. -/
def getNotifications (allowed : Option (Option (List String)))
    (fetched : Option (List (String × Row))) : Option (List Notification) :=
  match allowed, fetched with
  | none, _ => some []
  | some _, none => some []
  | some allowed, some fetched =>
    if Fetched rows (selects user allowed) newer 100 fetched then
      some (fetched.map fun row => row.2.toNotification row.1)
    else none

def markNotificationRead (id : String) : Table :=
  match rows.lookup id with
  | some row =>
    if row.userId = user ∧ row.read = false then rows.insert id { row with read := true } else rows
  | none => rows

def markAllNotificationsRead : Table :=
  updateWhere rows (fun row => row.userId = user && !row.read) fun row => { row with read := true }

end Routes

/-- The kinds whose events carry no `userId`. -/
def depositKinds : List String := ["DEPOSIT_REQUEST", "DEPOSIT_APPROVED", "DEPOSIT_REJECTED"]

/-- The `userId` that the event of a new row names; the gateway sends an event
that names none to everyone. -/
def Row.audience (row : Row) : Option String :=
  if depositKinds.contains row.kind then none else some row.userId

structure Event where
  audience : Option String
  payload : Notification
  deriving DecidableEq, Repr

/-- `useNotificationsStore` -/
structure Store where
  items : List Notification
  unreadCount : ℕ
  isLoading : Bool
  deriving DecidableEq, Repr

def closeKinds : List String := ["POSITION_SL", "POSITION_TP", "POSITION_LIQUIDATED"]

/-- The notice that a position was closed, of which one is shown. -/
def Notification.closes (n : Notification) : Bool :=
  closeKinds.contains n.kind && n.about.positionId.isSome

/-- `${n.kind}:${n.meta.positionId}:${n.message}` -/
def Notification.key (n : Notification) : String :=
  n.kind ++ ":" ++ n.about.positionId.getD "" ++ ":" ++ n.message

/-- The `filter` of a loaded list, with the keys seen so far. -/
def withoutRepeats : List String → List Notification → List Notification
  | _, [] => []
  | seen, n :: rest =>
    if n.closes then
      if seen.contains n.key then withoutRepeats seen rest
      else n :: withoutRepeats (n.key :: seen) rest
    else n :: withoutRepeats seen rest

namespace Store
variable (s : Store)

def push (notification : Notification) : Store :=
  if notification.id = "" ∨ s.items.any (·.id = notification.id) then s
  else if notification.closes = true ∧ s.items.any (fun item => closeKinds.contains item.kind &&
      decide (item.about.positionId = notification.about.positionId) &&
      decide (item.message = notification.message)) then s
  else
    { s with
      items := notification :: s.items
      unreadCount := s.unreadCount + 1 }

/-- `markRead`, once the service has answered. -/
def markedRead (id : String) : Store :=
  match s.items.find? (·.id = id) with
  | some item =>
    if item.read then s
    else
      { s with
        items := s.items.map fun item => if item.id = id then { item with read := true } else item
        unreadCount := s.unreadCount - 1 }
  | none => s

def markedAllRead : Store :=
  { s with
    items := s.items.map fun item => { item with read := true }
    unreadCount := 0 }

def clear : Store := { s with items := [], unreadCount := 0 }

/-- `loadNotifications`, once the service has listed these. -/
def loaded (raw : List Notification) : Store :=
  let items := withoutRepeats [] raw
  { s with
    items := items
    unreadCount := (items.filter fun n => !n.read).length }

end Store

inductive Request
  | markRead (id : String)
  | markAllRead
  | load
  deriving DecidableEq, Repr

/-- What a request comes back with; `failed` with the HTTP status, if any. -/
inductive Answer
  | marked
  | listed (items : List Notification)
  | failed (status : Option ℕ)
  deriving DecidableEq, Repr

structure Call where
  request : Request
  answer : Option Answer
  deriving DecidableEq, Repr

/-- The rest of a call of the store, and its `finally`. -/
def Store.settled (s : Store) : Request → Answer → Store
  | .markRead id, .marked => s.markedRead id
  | .markAllRead, .marked => s.markedAllRead
  | .load, .listed raw => { s.loaded raw with isLoading := false }
  | .load, .failed status =>
    if status = some 401 ∨ status = some 404 ∨ status = some 500 then
      { s.clear with isLoading := false }
    else { s with isLoading := false }
  | _, _ => s

/-- The table, the events that are to be published and those that were, the page
of one user, and the requests of the page. `made` are the ids that the page drew
itself, for notices of its own. -/
structure World where
  rows : Table
  pending : List Event
  published : List Event
  made : List String
  page : Store
  calls : List Call

inductive Outcome
  /-- The request does not reach its statement. -/
  | refused (status : Option ℕ)
  /-- The statement is executed; the answer may be lost. -/
  | done (heard : Bool)
  | listed (allowed : Option (Option (List String))) (fetched : Option (List (String × Row)))
  deriving DecidableEq, Repr

inductive Action
  | inserts (id : String) (row : Row)
  | publishes (i : ℕ)
  | delivers (i : ℕ)
  | makes (notification : Notification)
  | marksRead (id : String)
  | marksAllRead
  | loads
  | clears
  | setsLoading (isLoading : Bool)
  | serves (i : ℕ) (outcome : Outcome)
  | receives (i : ℕ)
  /-- A request of another page, of this user or of another one. -/
  | marksElsewhere (user : String) (id : Option String)
  deriving DecidableEq, Repr

namespace World
variable (me : String) (s : World)

/-- What a request does to the table, and what it answers. -/
def served (rows : Table) : Request → Outcome → Option (Table × Answer)
  | _, .refused status => some (rows, .failed status)
  | .markRead id, .done heard =>
    some (markNotificationRead rows me id, if heard then .marked else .failed none)
  | .markAllRead, .done heard =>
    some (markAllNotificationsRead rows me, if heard then .marked else .failed none)
  | .load, .listed allowed fetched =>
    (getNotifications rows me allowed fetched).map fun items => (rows, .listed items)
  | _, _ => none

def asks (request : Request) : World :=
  { s with calls := s.calls ++ [⟨request, none⟩] }

def step : Action → Option World
  | .inserts id row =>
    -- New ids are drawn; every notice is stored unread.
    if s.rows.lookup id = none ∧ id ∉ s.made ∧ row.read = false then
      some { s with
        rows := s.rows.insert id row
        pending := s.pending ++ [⟨row.audience, row.toNotification id⟩] }
    else none
  | .publishes i => (s.pending[i]?).map fun event =>
    { s with
      pending := s.pending.eraseIdx i
      published := s.published ++ [event] }
  | .delivers i => (s.published[i]?).bind fun event =>
    if event.audience.all (· = me) then some { s with page := s.page.push event.payload } else none
  | .makes notification =>
    if notification.id ≠ "" ∧ s.rows.lookup notification.id = none ∧ notification.id ∉ s.made ∧
        notification.read = false then
      some { s with
        made := s.made ++ [notification.id]
        page := s.page.push notification }
    else none
  | .marksRead id =>
    if s.page.items.any (·.id = id) then some (s.asks (.markRead id)) else none
  | .marksAllRead => some (s.asks .markAllRead)
  | .loads =>
    if s.page.isLoading then some s
    else some ({ s with page := { s.page with isLoading := true } }.asks .load)
  | .clears => some { s with page := s.page.clear }
  | .setsLoading isLoading => some { s with page := { s.page with isLoading := isLoading } }
  | .serves i outcome => (s.calls[i]?).bind fun call =>
    if call.answer.isSome then none
    else (served me s.rows call.request outcome).map fun (rows, answer) =>
      { s with
        rows := rows
        calls := s.calls.set i { call with answer := some answer } }
  | .receives i => (s.calls[i]?).bind fun call => call.answer.map fun answer =>
    { s with
      calls := s.calls.eraseIdx i
      page := s.page.settled call.request answer }
  | .marksElsewhere user id =>
    some { s with
      rows := match id with
        | some id => markNotificationRead s.rows user id
        | none => markAllNotificationsRead s.rows user }

/-- A page that was just opened, over a table with these rows. -/
def opened (rows : Table) : World where
  rows := rows
  pending := []
  published := []
  made := []
  page := ⟨[], 0, false⟩
  calls := []

end World

end TradingPlatform.Notifications
