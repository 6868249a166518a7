import TradingPlatform.Access.Scope
import TradingPlatform.Auth.RequestTexts
import TradingPlatform.Library.RowQueries
import TradingPlatform.Library.StepRuns

namespace TradingPlatform.SignIn
open Access (Uuid Tables checkPermission)
open RequestTexts (trimText nonblank)
open RowQueries

/-- `user_status` -/
inductive UserStatus
  | active
  | disabled
  | suspended
  deriving DecidableEq, Repr

/-- A row of `users` but its id. The last field is in no column: the password
hash with which the row was inserted. -/
structure User where
  email : String
  passwordHash : String
  role : String
  status : UserStatus
  groupId : Option Uuid
  referralCode : Option String
  referredByUserId : Option Uuid
  /-- `deleted_at IS NOT NULL` -/
  deleted : Bool
  firstHash : String
  deriving DecidableEq, Repr

/-- A row of `user_groups` but its id. -/
structure Group where
  signupSlug : Option String
  active : Bool
  deriving DecidableEq, Repr

/-- The claims of an access token. -/
structure Claims where
  sub : Uuid
  email : String
  role : String
  groupId : Option Uuid
  exp : ℤ
  iat : ℤ
  deriving DecidableEq, Repr

/-- What an access token was made for. -/
inductive Grounds
  | registered
  | password (text : String)
  | impersonated (actor : Access.Claims) (tables : Tables)
  | refreshed (token : String) (session : Uuid) (checkedAt : ℤ)

/-- An access token for a user, made from the row that was read or inserted. -/
structure Grant where
  user : Uuid
  row : User
  claims : Claims
  grounds : Grounds

/-- A row of `user_sessions` but its id. The last two fields are in no column:
the refresh token and the access token that came with it. -/
structure UserSession where
  userId : Uuid
  refreshTokenHash : String
  isRevoked : Bool
  expiresAt : ℤ
  token : String
  opening : Grant

/-- A row of `password_reset_tokens` but its id. -/
structure ResetToken where
  userId : Uuid
  tokenHash : String
  expiresAt : ℤ
  usedAt : Option ℤ
  deriving DecidableEq, Repr

/-- A code that is mailed to the address of a user. -/
structure Mail where
  user : Uuid
  email : String
  code : String
  at_ : ℤ
  deriving DecidableEq, Repr

/-- A reset token that is given out for a code. -/
structure Verified where
  user : Uuid
  presented : String
  token : String
  at_ : ℤ
  deriving DecidableEq, Repr

/-- A new password that is set for a text. -/
structure Change where
  user : Uuid
  presented : String
  passwordHash : String
  at_ : ℤ
  deriving DecidableEq, Repr

/-- Hashes, letter case and the times to live in seconds. -/
structure Service where
  hashPassword : ℕ → String → String
  /-- There is no answer if the hash cannot be parsed. -/
  verifyPassword : String → String → Option Bool
  hashToken : String → String
  toLowercase : String → String
  /-- `LOWER` of the database -/
  lower : String → String
  accessTtl : ℤ
  refreshTtl : ℤ

structure RegisterRequest where
  email : String
  password : String
  referralCode : Option String
  groupId : Option Uuid
  signupRef : Option String
  deriving DecidableEq, Repr

/-- The statement that a call has to execute next. -/
inductive Task
  | idle
  | findSlug (form : RegisterRequest) (slug : String)
  | findReferrerGroup (form : RegisterRequest) (code : String)
  | checkReferrerGroup (form : RegisterRequest) (group : Uuid)
  | checkEmail (form : RegisterRequest) (group : Option Uuid)
  | findReferrer (form : RegisterRequest) (group : Option Uuid) (code : String)
  | checkGroup (form : RegisterRequest) (group : Uuid) (referredBy : Option Uuid)
  | ensureDefault (form : RegisterRequest) (group : Uuid) (referredBy : Option Uuid)
  | insertUser (form : RegisterRequest) (group : Uuid) (referredBy : Option Uuid)
  | insertSession (user : Uuid) (row : User) (grounds : Grounds)
  | answer (grant : Grant) (token : String)
  | findUser (email password : String)
  | checkSession (token : String)
  | readUser (token : String) (session user : Uuid) (checkedAt : ℤ)
  | revoke (user : Uuid) (token : String)
  | checkActor (actor : Access.Claims) (target : Uuid)
  | readTarget (actor : Access.Claims) (target : Uuid) (tables : Tables)
  | findReset (email : String)
  | insertReset (user : Uuid) (email : String)
  | findVerify (email otp : String)
  | matchCode (user : Uuid) (otp : String)
  | storeToken (row user : Uuid) (otp : String) (checkedAt : ℤ)
  | matchToken (token password : String)
  | setPassword (user : Uuid) (token password : String) (checkedAt : ℤ)
  | markUsed (token : String) (checkedAt : ℤ)

/-- The tables, and the calls that are running. The columns of `users` that
permissions are read from are in `tables`. The last four lists are in no table. -/
structure Accounts where
  tables : Tables
  users : FiniteTable Uuid User
  groups : FiniteTable Uuid Group
  sessions : FiniteTable Uuid UserSession
  resetTokens : FiniteTable Uuid ResetToken
  tasks : ℕ → Task
  grants : List Grant
  mails : List Mail
  verified : List Verified
  changes : List Change

/-- What a statement writes. -/
inductive Effect
  | nothing
  | defaultGroup
  | insertUser (id : Uuid) (row : User)
  | insertSession (id : Uuid) (session : UserSession)
  | grants (grant : Grant)
  | revoke (user : Uuid) (hash : String)
  | insertReset (id : Uuid) (row : ResetToken) (mail : Mail)
  | storeToken (id : Uuid) (hash : String) (expiresAt : ℤ) (verified : Verified)
  | setPassword (change : Change)
  | markUsed (hash : String) (usedAt : ℤ)

/-- How a call is refused: with an error of a code, with a plain one, or with
the text of a library. -/
inductive Refusal
  | coded (status : ℕ) (code message : String)
  | plain (status : ℕ) (error : String)
  | denied (failure : Access.Failure)
  | internal
  deriving DecidableEq, Repr

inductive Answer
  | tokens (access : Claims) (refresh : String)
  | access (claims : Claims)
  | resetToken (token : String)
  | message (text : String)
  | noContent
  deriving DecidableEq, Repr

/-- How a call goes on: with its next statement, or with its answer. -/
inductive Next
  | goTo (task : Task)
  | reply (answer : Except Refusal Answer)

def Next.task : Next → Task
  | .goTo task => task
  | .reply _ => .idle

/-- What the code and the database draw for a statement: an id that no row
has, a secret, a salt, a referral code, and which of the rows that are asked
for is fetched. -/
structure Draw where
  id : Uuid := 0
  secret : String := ""
  salt : ℕ := 0
  referralCode : String := ""
  pick : Option Uuid := none

inductive Action
  | register (t : ℕ) (form : RegisterRequest)
  | login (t : ℕ) (email password : String)
  | refresh (t : ℕ) (token : String)
  | logout (t : ℕ) (user : Uuid) (token : String)
  | impersonate (t : ℕ) (actor : Access.Claims) (target : Uuid)
  | resetRequest (t : ℕ) (email : String)
  | resetVerify (t : ℕ) (email otp : String)
  | resetConfirm (t : ℕ) (token password : String)
  /-- The next statement of a call at the time `now`, unless the database fails. -/
  | advance (t : ℕ) (now : ℤ) (draw : Draw) (fails : Bool)
  /-- Another route changes users, but no password, or inserts some, and other tables. -/
  | edit (users : FiniteTable Uuid User) (groups : FiniteTable Uuid Group) (tables : Tables)

/-- A time in seconds, of one in microseconds. -/
def timestamp (now : ℤ) : ℤ := now / 1000000

def seconds (n : ℤ) : ℤ := n * 1000000

def minutes (n : ℤ) : ℤ := seconds (n * 60)

/-- `00000000-0000-0000-0000-000000000001` -/
def defaultGroupId : Uuid := 1

section Source
variable (service : Service)

def Claims.new (now : ℤ) (user : Uuid) (row : User) : Claims where
  sub := user
  email := row.email
  role := row.role
  groupId := row.groupId
  exp := timestamp (now + seconds service.accessTtl)
  iat := timestamp now

def registrationFailed (code message : String) : Next := .reply (.error (.coded 400 code message))

/-- The checks with which `AuthService::register` begins. -/
def startRegister (form : RegisterRequest) (group : Option Uuid) : Next :=
  if form.password.utf8ByteSize < 8 then
    registrationFailed "INVALID_PASSWORD" "Password must be at least 8 characters"
  else if !form.password.toList.any Char.isDigit then
    registrationFailed "INVALID_PASSWORD" "Password must contain at least one number"
  else .goTo (.checkEmail form group)

/-- The route goes on after it has looked for a group by its slug. -/
def afterSlug (form : RegisterRequest) (group : Option Uuid) : Next :=
  match group, nonblank form.referralCode with
  | none, some code => .goTo (.findReferrerGroup form code)
  | group, _ => startRegister form group

def chooseGroup (form : RegisterRequest) (group referrerGroup referredBy : Option Uuid) : Next :=
  match group.or referrerGroup with
  | some group => .goTo (.checkGroup form group referredBy)
  | none => .goTo (.ensureDefault form defaultGroupId referredBy)

namespace Accounts
variable (s : Accounts)

def activeGroup (group : Uuid) : Bool := (s.groups.lookup group).any (·.active)

def invalidCredentials (message : String) : Next :=
  .reply (.error (.coded 401 "INVALID_CREDENTIALS" message))

def invalidRefreshToken (message : String) : Next :=
  .reply (.error (.coded 401 "INVALID_REFRESH_TOKEN" message))

def badRequest (error : String) : Next := .reply (.error (.plain 400 error))

/-- A call's next statement, at the time `now`. -/
def statement (now : ℤ) (draw : Draw) : Task → Option (Effect × Next)
  | .idle => some (.nothing, .goTo .idle)
  | .findSlug form slug => do
    let found ← selectOne s.groups (fun group => group.signupSlug = some slug && group.active) draw.pick
    some (.nothing, afterSlug form ((found.map (·.1)).or form.groupId))
  | .findReferrerGroup form code => do
    let found ← selectOne s.users (fun user => user.referralCode = some code && !user.deleted) draw.pick
    match found.bind (·.2.groupId) with
    | none => some (.nothing, startRegister form none)
    | some group => some (.nothing, .goTo (.checkReferrerGroup form group))
  | .checkReferrerGroup form group =>
    some (.nothing, startRegister form (if s.activeGroup group then some group else none))
  | .checkEmail form group => do
    let found ← selectOne s.users
      (fun user => user.email = service.toLowercase form.email && !user.deleted) draw.pick
    match found, form.referralCode with
    | some _, _ => some (.nothing, registrationFailed "EMAIL_EXISTS" "Email already registered")
    | none, some code => some (.nothing, .goTo (.findReferrer form group code))
    | none, none => some (.nothing, chooseGroup form group none none)
  | .findReferrer form group code => do
    let found ← selectOne s.users (fun user => user.referralCode = some code && !user.deleted) draw.pick
    some (.nothing, chooseGroup form group (found.bind (·.2.groupId)) (found.map (·.1)))
  | .checkGroup form group referredBy =>
    some (.nothing,
      .goTo (.ensureDefault form (if s.activeGroup group then group else defaultGroupId) referredBy))
  | .ensureDefault form group referredBy =>
    some (.defaultGroup, .goTo (.insertUser form group referredBy))
  | .insertUser form group referredBy =>
    let hash := service.hashPassword draw.salt form.password
    let row : User :=
      { email := service.toLowercase form.email
        passwordHash := hash
        role := "user"
        status := .active
        groupId := some group
        referralCode := some draw.referralCode
        referredByUserId := referredBy
        deleted := false
        firstHash := hash }
    -- both columns are unique
    if s.users.entries.any fun user =>
        user.2.email = row.email || user.2.referralCode = row.referralCode then
      some (.nothing, .reply (.error .internal))
    else some (.insertUser draw.id row, .goTo (.insertSession draw.id row .registered))
  | .insertSession user row grounds =>
    let hash := service.hashToken draw.secret
    -- no two of the random tokens have one hash
    if s.sessions.entries.any fun session => session.2.refreshTokenHash = hash then none
    else
      let grant : Grant := ⟨user, row, .new service now user row, grounds⟩
      some (.insertSession draw.id
        { userId := user
          refreshTokenHash := hash
          isRevoked := false
          expiresAt := now + seconds service.refreshTtl
          token := draw.secret
          opening := grant }, .goTo (.answer grant draw.secret))
  -- the row for `audit_logs` is inserted, and the call answers
  | .answer grant token => some (.grants grant, .reply (.ok (.tokens grant.claims token)))
  | .findUser email password => do
    let found ← selectOne s.users
      (fun user => service.lower user.email = service.toLowercase email && !user.deleted) draw.pick
    match found with
    | none => some (.nothing, invalidCredentials "Invalid credentials")
    | some (id, user) =>
      if user.status ≠ .active then some (.nothing, invalidCredentials "Account is not active")
      else match service.verifyPassword password user.passwordHash with
        | none => some (.nothing, .reply (.error .internal))
        | some false => some (.nothing, invalidCredentials "Invalid credentials")
        | some true => some (.nothing, .goTo (.insertSession id user (.password password)))
  | .checkSession token => do
    let found ← selectOne s.sessions (fun session =>
      session.refreshTokenHash = service.hashToken token && !session.isRevoked &&
        now < session.expiresAt) draw.pick
    match found with
    | none => some (.nothing, invalidRefreshToken "Invalid refresh token")
    | some (id, session) => some (.nothing, .goTo (.readUser token id session.userId now))
  | .readUser token session user checkedAt =>
    match (s.users.lookup user).filter (!·.deleted) with
    | none => some (.nothing, .reply (.error .internal))
    | some row =>
      if row.status ≠ .active then some (.nothing, invalidRefreshToken "Account is not active")
      else
        let grant : Grant :=
          ⟨user, row, .new service now user row, .refreshed token session checkedAt⟩
        some (.grants grant, .reply (.ok (.access grant.claims)))
  | .revoke user token =>
    some (.revoke user (service.hashToken token), .reply (.ok .noContent))
  | .checkActor actor target => match checkPermission s.tables actor "users:edit" with
    | .error failure => some (.nothing, .reply (.error (.denied failure)))
    | .ok _ => some (.nothing, .goTo (.readTarget actor target s.tables))
  | .readTarget actor target tables =>
    match (s.users.lookup target).filter (!·.deleted) with
    | none => some (.nothing, .reply (.error (.coded 400 "IMPERSONATE_FAILED" "User not found")))
    | some row => some (.nothing, .goTo (.insertSession target row (.impersonated actor tables)))
  | .findReset email => do
    let found ← selectOne s.users (fun user => user.email = email && !user.deleted) draw.pick
    match found with
    | none => some (.nothing, .reply (.ok (.message "If an account exists, an OTP has been sent.")))
    | some (id, _) => some (.nothing, .goTo (.insertReset id email))
  | .insertReset user email =>
    if draw.secret.length = 6 && draw.secret.toList.all Char.isDigit then
      some (.insertReset draw.id
        { userId := user
          tokenHash := service.hashToken draw.secret
          expiresAt := now + minutes 10
          usedAt := none } ⟨user, email, draw.secret, now⟩,
        .reply (.ok (.message "OTP sent to your email.")))
    else none
  | .findVerify email otp => do
    let found ← selectOne s.users (fun user => user.email = email && !user.deleted) draw.pick
    match found with
    | none => some (.nothing, badRequest "Invalid email or OTP")
    | some (id, _) => some (.nothing, .goTo (.matchCode id otp))
  | .matchCode user otp => do
    let found ← selectOne s.resetTokens (fun row =>
      row.userId = user && row.tokenHash = service.hashToken otp && row.usedAt.isNone &&
        now < row.expiresAt) draw.pick
    match found with
    | none => some (.nothing, badRequest "Invalid or expired OTP")
    | some (id, _) => some (.nothing, .goTo (.storeToken id user otp now))
  | .storeToken row user otp checkedAt =>
    some (.storeToken row (service.hashToken draw.secret) (checkedAt + minutes 15)
        ⟨user, otp, draw.secret, checkedAt⟩,
      .reply (.ok (.resetToken draw.secret)))
  | .matchToken token password => do
    let found ← selectOne s.resetTokens (fun row =>
      row.tokenHash = service.hashToken token && row.usedAt.isNone && now < row.expiresAt) draw.pick
    match found with
    | none => some (.nothing, badRequest "Invalid or expired reset link")
    | some (_, row) => some (.nothing, .goTo (.setPassword row.userId token password now))
  | .setPassword user token password checkedAt =>
    some (.setPassword ⟨user, token, service.hashPassword draw.salt password, checkedAt⟩,
      .goTo (.markUsed token checkedAt))
  | .markUsed token checkedAt =>
    some (.markUsed (service.hashToken token) checkedAt,
      .reply (.ok (.message "Password updated successfully.")))

/-- How a call goes on when its statement fails. -/
def onFailure : Task → Next
  | .findSlug form _ => afterSlug form form.groupId
  | .findReferrerGroup form _ | .checkReferrerGroup form _ => startRegister form none
  | .markUsed _ _ => .reply (.ok (.message "Password updated successfully."))
  | _ => .reply (.error .internal)

def write : Effect → Accounts
  | .nothing => s
  -- `ON CONFLICT (id) DO NOTHING`
  | .defaultGroup =>
    if defaultGroupId ∈ s.groups then s
    else { s with groups := s.groups.insert defaultGroupId ⟨none, true⟩ }
  | .insertUser id row => { s with users := s.users.insert id row }
  | .insertSession id session => { s with sessions := s.sessions.insert id session }
  | .grants grant => { s with grants := grant :: s.grants }
  | .revoke user hash =>
    { s with
      sessions := updateWhere s.sessions
        (fun session => session.userId = user && session.refreshTokenHash = hash)
        fun session => { session with isRevoked := true } }
  | .insertReset id row mail =>
    { s with resetTokens := s.resetTokens.insert id row, mails := mail :: s.mails }
  | .storeToken id tokenHash expiresAt verified =>
    { s with
      resetTokens := match s.resetTokens.lookup id with
        | none => s.resetTokens
        | some row => s.resetTokens.insert id { row with tokenHash, expiresAt }
      verified := verified :: s.verified }
  | .setPassword change =>
    { s with
      users := match s.users.lookup change.user with
        | none => s.users
        | some row => s.users.insert change.user { row with passwordHash := change.passwordHash }
      changes := change :: s.changes }
  | .markUsed hash usedAt =>
    { s with
      resetTokens := updateWhere s.resetTokens (·.tokenHash = hash)
        fun row => { row with usedAt := some usedAt } }

def setTask (t : ℕ) (task : Task) : Accounts :=
  { s with tasks := Function.update s.tasks t task }

end Accounts

/-- How a call begins. -/
def begin : Action → Option (ℕ × Next)
  | .register t form => some (t, match form.signupRef.map trimText with
    | none | some "" => afterSlug form form.groupId
    | some slug => .goTo (.findSlug form slug))
  | .login t email password => some (t, .goTo (.findUser email password))
  | .refresh t token => some (t, .goTo (.checkSession token))
  | .logout t user token => some (t, .goTo (.revoke user token))
  | .impersonate t actor target => some (t, .goTo (.checkActor actor target))
  | .resetRequest t email =>
    let email := service.toLowercase (trimText email)
    some (t, if email = "" then Accounts.badRequest "Email is required" else .goTo (.findReset email))
  | .resetVerify t email otp =>
    let email := service.toLowercase (trimText email)
    let otp := trimText otp
    some (t,
      if email = "" || otp.utf8ByteSize ≠ 6 || !otp.toList.all Char.isDigit then
        Accounts.badRequest "Invalid email or OTP"
      else .goTo (.findVerify email otp))
  | .resetConfirm t token password =>
    some (t,
      if password.utf8ByteSize < 8 then
        Accounts.badRequest "Password must be at least 8 characters"
      else .goTo (.matchToken token password))
  | .advance .. => none
  | .edit .. => none

/-- No user is gone and no password another, and a new user has a first one. -/
def keepsPasswords (before after : FiniteTable Uuid User) : Bool :=
  (before.entries.all fun row => (after.lookup row.1).any fun user =>
    user.passwordHash = row.2.passwordHash && user.firstHash = row.2.firstHash) &&
  after.entries.all fun row => row.1 ∈ before || row.2.passwordHash = row.2.firstHash

def Accounts.step (s : Accounts) (action : Action) : Option Accounts :=
  match action with
  | .edit users groups tables =>
    if keepsPasswords s.users users then some { s with users, groups, tables } else none
  | .advance t now draw fails =>
    match s.tasks t with
    | .idle => none
    | task =>
      if fails then some (s.setTask t (Accounts.onFailure task).task)
      else if draw.id ∈ s.users ∨ draw.id ∈ s.sessions ∨ draw.id ∈ s.resetTokens then none
      else (s.statement service now draw task).map fun (effect, next) =>
        (s.write effect).setTask t next.task
  | start => match begin service start with
    | none => none
    | some (t, next) => match s.tasks t with
      | .idle => some (s.setTask t next.task)
      | _ => none

/-- No session yet and no call. -/
def Accounts.fresh (users : FiniteTable Uuid User) (groups : FiniteTable Uuid Group)
    (tables : Tables) : Accounts where
  tables
  users := updateWhere users (fun _ => true) fun row => { row with firstHash := row.passwordHash }
  groups
  sessions := ∅
  resetTokens := ∅
  tasks _ := .idle
  grants := []
  mails := []
  verified := []
  changes := []

end Source
end TradingPlatform.SignIn
