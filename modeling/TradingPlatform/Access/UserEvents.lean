import TradingPlatform.Access.Scope
import TradingPlatform.Auth.RequestTexts
import TradingPlatform.Library.Pages
import Mathlib.Data.Prod.Lex

namespace TradingPlatform.Access
open Pages RequestTexts

/-- A row of `user_events` but its id. -/
structure UserEvent where
  subjectUserId : Uuid
  actorUserId : Option Uuid
  eventType : String
  category : String
  ip : Option String
  userAgent : Option String
  deviceClass : String
  deviceOs : Option String
  deviceBrowser : Option String
  /-- The text of `meta`. -/
  info : String
  /-- In microseconds, which a `TIMESTAMPTZ` counts. -/
  createdAt : ℤ
  deriving DecidableEq, Repr

structure UserEventListItem where
  id : Uuid
  subjectUserId : Uuid
  subjectEmail : String
  subjectName : String
  actorUserId : Option Uuid
  actorEmail : Option String
  actorName : Option String
  eventType : String
  category : String
  ip : Option String
  userAgent : Option String
  deviceClass : String
  deviceOs : Option String
  deviceBrowser : Option String
  info : String
  createdAt : ℤ
  deriving DecidableEq, Repr

structure ListUserEventsResponse where
  items : List UserEventListItem
  cursor : Option String
  hasMore : Bool
  total : ℕ
  deriving DecidableEq, Repr

structure AdminUserEventsQuery where
  userId : Option Uuid := none
  category : Option String := none
  eventType : Option String := none
  search : Option String := none
  deviceClass : Option String := none
  from_ : Option String := none
  to_ : Option String := none
  cursor : Option String := none
  limit : Option ℤ := none
  deriving DecidableEq, Repr

/-- The texts of the libraries for times, UUIDs and letter case. -/
structure EventFormats where
  parseRfc3339 : String → Option ℤ
  showRfc3339 : ℤ → String
  /-- The first instant of a day in `%Y-%m-%d`. -/
  parseDay : String → Option ℤ
  parseUuid : String → Option Uuid
  showUuid : Uuid → String
  /-- `str::to_lowercase` -/
  toLowercase : String → String
  /-- SQL `LOWER` -/
  lower : String → String

/-- The tables at the time of a request. -/
structure EventsDesk where
  tables : Tables
  events : FiniteTable Uuid UserEvent
  now : ℤ

/-- SQL `LIKE`, the pattern first. -/
def like : List Char → List Char → Bool
  | [], s => s = []
  | '%' :: p, s => s.tails.any (like p)
  | '_' :: p, s => match s with
    | [] => false
    | _ :: s => like p s
  | '\\' :: c :: p, s => match s with
    | [] => false
    | x :: s => x = c && like p s
  | c :: p, s => match s with
    | [] => false
    | x :: s => x = c && like p s

/-- The order of the listing, from the latest. -/
def eventKey (row : Uuid × UserEvent) : ℤ ×ₗ Uuid := toLex (row.2.createdAt, row.1)

section Source
variable (formats : EventFormats)

def microseconds (seconds : ℤ) : ℤ := seconds * 1000000

def parseDatetime (s : String) : Option ℤ := (formats.parseRfc3339 s).or (formats.parseDay s)

/-- The end of a day, where only a day is given. -/
def parseDatetimeEnd (s : String) : Option ℤ :=
  (formats.parseRfc3339 s).or ((formats.parseDay s).map (· + microseconds (23 * 3600 + 59 * 60 + 59)))

/-- A cursor is a time and an id with a bar between them. -/
def parseCursor (cursor : Option String) : Option (ℤ ×ₗ Uuid) :=
  cursor.bind fun c =>
    let ts := formats.parseRfc3339 (String.ofList (c.toList.takeWhile (· ≠ '|')))
    let id := match c.toList.dropWhile (· ≠ '|') with
      | [] => none
      | _ :: rest => formats.parseUuid (String.ofList rest)
    match ts, id with
    | some t, some uid => some (toLex (t, uid))
    | _, _ => none

def showCursor (key : ℤ ×ₗ Uuid) : String :=
  formats.showRfc3339 (ofLex key).1 ++ "|" ++ formats.showUuid (ofLex key).2

/-- `first_name || ' ' || last_name`, which is NULL when one of them is. -/
def User.fullName (user : User) : Option String :=
  match user.firstName, user.lastName with
  | some first, some last => some (first ++ " " ++ last)
  | _, _ => none

/-- The `WHERE` of the listing but for the cursor. -/
def eventMatches (q : AdminUserEventsQuery) (allowed : Option (List Uuid)) (now : ℤ)
    (e : UserEvent) (su : User) : Bool :=
  let since := (q.from_.bind (parseDatetime formats)).getD (now - microseconds (30 * 86400))
  let until_ := q.to_.bind (parseDatetimeEnd formats)
  let pattern := (nonblank q.search).map fun s => ("%" ++ formats.toLowercase s ++ "%").toList
  !su.deleted && since ≤ e.createdAt && until_.all (e.createdAt ≤ ·) &&
    q.userId.all (e.subjectUserId = ·) &&
    ((nonblank q.category).filter (· ≠ "all")).all (e.category = ·) &&
    (nonblank q.eventType).all (fun kind =>
      e.eventType = kind || like (kind ++ ".%").toList e.eventType.toList) &&
    pattern.all (fun p => like p (formats.lower su.email).toList ||
      su.fullName.any (fun name => like p (formats.lower name).toList) ||
      like p (formats.lower e.eventType).toList) &&
    allowed.all (fun ids => su.groupId.any (· ∈ ids)) &&
    ((nonblank q.deviceClass).filter (· ≠ "all")).all (e.deviceClass = ·)

/-- The events that a query is about. -/
def eventRows (d : EventsDesk) (q : AdminUserEventsQuery) (allowed : Option (List Uuid)) :
    List (Uuid × UserEvent) :=
  (d.events.entries.map fun row => (row.1, row.2)).filter fun row =>
    (d.tables.users.lookup row.2.subjectUserId).any (eventMatches formats q allowed d.now row.2)

/-- The item of an event whose subject is there. -/
def eventItem (t : Tables) (row : Uuid × UserEvent) : UserEventListItem :=
  let subject := t.users.lookup row.2.subjectUserId
  let actor := row.2.actorUserId.bind t.users.lookup
  { id := row.1
    subjectUserId := row.2.subjectUserId
    subjectEmail := (subject.map (·.email)).getD ""
    subjectName := (subject.bind User.fullName).getD ""
    actorUserId := row.2.actorUserId
    actorEmail := actor.map (·.email)
    actorName := actor.bind User.fullName
    eventType := row.2.eventType
    category := row.2.category
    ip := row.2.ip
    userAgent := row.2.userAgent
    deviceClass := if row.2.deviceClass = "" then "unknown" else row.2.deviceClass
    deviceOs := row.2.deviceOs
    deviceBrowser := row.2.deviceBrowser
    info := row.2.info
    createdAt := row.2.createdAt }

def pageLimit (q : AdminUserEventsQuery) : ℕ := (max 1 (min 100 (q.limit.getD 50))).toNat

/-- `UserEventsService::list` -/
def listEvents (d : EventsDesk) (q : AdminUserEventsQuery) (allowed : Option (List Uuid)) :
    Except Failure ListUserEventsResponse :=
  if allowed = some [] then .ok ⟨[], none, false, 0⟩
  else
    let limit := pageLimit q
    let rows := (inOrder eventKey (eventRows formats d q allowed) (parseCursor formats q.cursor)).take
      (limit + 1)
    -- a NULL is not read into the `String` of a subject's name
    if rows.any fun row => (d.tables.users.lookup row.2.subjectUserId).any (·.fullName.isNone) then
      .error .database
    else
      let hasMore := limit < rows.length
      let pageRows := rows.take limit
      .ok
        { items := pageRows.map (eventItem d.tables)
          cursor := if hasMore then pageRows.getLast?.map fun row => showCursor formats (eventKey row)
            else none
          hasMore
          total := (eventRows formats d q allowed).length }

/-- The groups that a caller of the listing is held to. -/
def eventScope (t : Tables) (claims : Claims) : Except Failure (Option (List Uuid)) :=
  if claims.isAdmin || claims.isSuperAdmin then .ok none else resolveAllowedGroupIds t claims

def listUserEvents (d : EventsDesk) (claims : Claims) (q : AdminUserEventsQuery) :
    Except Failure ListUserEventsResponse := do
  checkPermission d.tables claims "user_events:view"
  let allowed ← eventScope d.tables claims
  match q.userId with
  | some userId => ensureUserInAllowedGroups d.tables allowed userId
  | none => .ok ()
  listEvents formats d q allowed

end Source
end TradingPlatform.Access
