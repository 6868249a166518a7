import TradingPlatform.Access.Scope
import TradingPlatform.Auth.RequestTexts
import TradingPlatform.Library.StepRuns
import Mathlib.Data.List.Sort

namespace TradingPlatform.Kyc
open Access
open RequestTexts (trimText)

/-- `kyc_status_check` -/
inductive Status
  | draft
  | pending
  | underReview
  | approved
  | rejected
  deriving DecidableEq, Repr

/-- A row of `kyc_submissions` but its id. -/
structure Submission where
  userId : Uuid
  status : Status
  identityDocType : Option String := none
  addressDocType : Option String := none
  rejectionReason : Option String := none
  submittedAt : ℕ
  reviewedAt : Option ℕ := none
  reviewedById : Option Uuid := none
  deriving DecidableEq, Repr

/-- What an upload brings. -/
structure NewDocument where
  documentType : String
  fileName : String
  contentType : Option String
  data : List UInt8
  deriving DecidableEq, Repr

/-- A row of `kyc_documents` but its id. The last two fields are in no column:
who has uploaded it and what. -/
structure Document where
  submissionId : Uuid
  documentType : String
  fileName : String
  filePath : String
  fileSizeBytes : ℕ
  contentType : Option String
  uploadedBy : Uuid
  data : List UInt8
  deriving DecidableEq, Repr

/-- The texts of the libraries for UUIDs and paths. -/
structure KycFormats where
  parseUuid : String → Option Uuid
  showUuid : Uuid → String
  /-- `PathBuf::extension` -/
  extension : String → Option String

/-- A field of the multipart form. -/
inductive Field
  | submissionId (text : String)
  | documentType (text : String)
  | file (contentType fileName : Option String) (bytes : List UInt8)
  | other
  deriving DecidableEq, Repr

/-- What has been read of the form. -/
structure Form where
  submissionId : Option Uuid := none
  documentType : Option String := none
  file : Option (Option String × Option String × List UInt8) := none
  deriving DecidableEq, Repr

inductive Verdict
  | approve
  | reject (reason : String)
  deriving DecidableEq, Repr

/-- A reviewer who has passed the checks for a submission, with the tables
from which the permission and the scope were read. -/
structure Vetting where
  claims : Claims
  submission : Uuid
  user : Uuid
  permissionTables : Tables
  scopeTables : Tables

/-- The statement that a call has to execute next. -/
inductive Task
  | idle
  | checkOwner (user : Uuid) (doc : NewDocument) (submission : Uuid)
  | readStatus (user : Uuid) (doc : NewDocument) (submission : Uuid)
  | insertDraft (user : Uuid) (doc : NewDocument)
  | insertDocument (user : Uuid) (doc : NewDocument) (submission : Uuid) (status : Status)
  | readLatest (user : Uuid) (types : String × String)
  | findIdentity (user : Uuid) (types : String × String) (submission : Uuid) (status : Status)
  | findAddress (user : Uuid) (types : String × String) (submission : Uuid) (status : Status)
      (hasIdentity : Bool)
  | markPending (user : Uuid) (types : String × String) (submission : Uuid) (status : Status)
  | checkReviewer (claims : Claims) (verdict : Verdict) (submission : Uuid)
  | readSubmission (claims : Claims) (verdict : Verdict) (submission : Uuid) (permitted : Tables)
  | checkScope (claims : Claims) (verdict : Verdict) (submission : Uuid) (permitted : Tables)
      (user : Uuid) (status : Status)
  | mark (claims : Claims) (verdict : Verdict) (submission : Uuid) (status : Status)

/-- The tables, the files by their paths under the upload directory and the
calls that are running. `vetted` is in no table. -/
structure Desk where
  tables : Tables
  submissions : FiniteTable Uuid Submission
  documents : FiniteTable Uuid Document
  files : FiniteTable String (List UInt8)
  tasks : ℕ → Task
  vetted : List Vetting

/-- What a statement writes. -/
inductive Effect
  | nothing
  | draft (id user : Uuid) (now : ℕ)
  | document (id : Uuid) (doc : Document)
  | pending (submission user : Uuid) (types : String × String) (now : ℕ)
  | marked (submission : Uuid) (claims : Claims) (verdict : Verdict) (now : ℕ)
  | vets (vetting : Vetting)

/-- How a call goes on: with its next statement, or with its answer. -/
inductive Next
  | goTo (task : Task)
  | reply (answer : Except Failure Unit)

def Next.task : Next → Task
  | .goTo task => task
  | .reply _ => .idle

inductive Action
  | upload (t : ℕ) (user : Uuid) (fields : List Field)
  | submit (t : ℕ) (user : Uuid) (identityDocType addressDocType : String)
  | review (t : ℕ) (claims : Claims) (verdict : Verdict) (submission : Uuid)
  /-- The next statement of a call at the time `now`, with an id that no row
  has, unless the database or the disk fails. -/
  | advance (t : ℕ) (now : ℕ) (id : Uuid) (fails : Bool)
  /-- Another route changes the other tables. -/
  | reassign (tables : Tables)

def errResponse (code message : String) : Failure := .response 400 code message

def allowedTypes : List String := ["image/jpeg", "image/png", "image/webp", "application/pdf"]

def maxFileBytes : ℕ := 10 * 1024 * 1024

def validDocTypes : List String := ["identity_front", "identity_back", "proof_of_address"]

def validIdentityTypes : List String := ["passport", "national_id", "driving_licence"]

def validAddressTypes : List String := ["utility", "bank_statement", "tax", "other"]

section Source
variable (formats : KycFormats)

def readField (form : Form) : Field → Except Failure Form
  | .submissionId text => .ok { form with submissionId := formats.parseUuid (trimText text) }
  | .documentType text =>
    if trimText text ∈ validDocTypes then .ok { form with documentType := some (trimText text) }
    else .ok form
  | .file contentType fileName bytes =>
    if contentType.any fun ct => allowedTypes.all fun a => ¬ a.toList <+: ct.toList then
      .error (errResponse "INVALID_TYPE" "Allowed: image/jpeg, image/png, image/webp, application/pdf")
    else if maxFileBytes < bytes.length then
      .error (errResponse "FILE_TOO_LARGE" "Max 10 MB per file")
    else .ok { form with file := some (contentType, fileName, bytes) }
  | .other => .ok form

/-- The submission that is named and the document, read from the form. -/
def readForm (fields : List Field) : Except Failure (Option Uuid × NewDocument) := do
  let form ← fields.foldlM (readField formats) {}
  match form.documentType, form.file with
  | none, _ => .error (errResponse "VALIDATION" "document_type required")
  | some _, none => .error (errResponse "VALIDATION" "file required")
  | some documentType, some (contentType, fileName, data) =>
    .ok (form.submissionId, ⟨documentType, fileName.getD "document", contentType, data⟩)

/-- The document types of `submit_kyc`. -/
def readTypes (identityDocType addressDocType : String) : Except Failure (String × String) :=
  let identity := trimText identityDocType
  let address := trimText addressDocType
  if identity ∉ validIdentityTypes then
    .error (errResponse "VALIDATION"
      "identity_doc_type must be one of: passport, national_id, driving_licence")
  else if address ∉ validAddressTypes then
    .error (errResponse "VALIDATION"
      "address_doc_type must be one of: utility, bank_statement, tax, other")
  else .ok (identity, address)

/-- `{sub_id}/{doc_type}_{doc_id}.{ext}` -/
def filePath (submission id : Uuid) (doc : NewDocument) : String :=
  formats.showUuid submission ++ "/" ++ doc.documentType ++ "_" ++ formats.showUuid id ++ "." ++
    (formats.extension doc.fileName).getD "bin"

namespace Desk
variable (s : Desk)

/-- `SELECT … WHERE user_id = $1 ORDER BY submitted_at DESC LIMIT 1` -/
def latest (user : Uuid) : Option (Uuid × Submission) :=
  let rows : List (Uuid × Submission) :=
    (s.submissions.entries.map fun row => (row.1, row.2)).filter fun row => row.2.userId = user
  (rows.insertionSort fun a b => b.2.submittedAt ≤ a.2.submittedAt).head?

def hasDocument (submission : Uuid) (types : List String) : Bool :=
  s.documents.entries.any fun row => row.2.submissionId = submission ∧ row.2.documentType ∈ types

def notFound (message : String) : Failure := .response 404 "NOT_FOUND" message

/-- Whether a submission can be reviewed in its status. -/
def reviewable (verdict : Verdict) : Status → Except Failure Unit
  | .pending | .underReview => .ok ()
  | .approved => match verdict with
    | .approve => .error (errResponse "ALREADY_APPROVED" "Submission is already approved")
    | .reject _ =>
      .error (errResponse "INVALID_STATUS" "Submission cannot be rejected in current status")
  | .rejected => match verdict with
    | .approve =>
      .error (errResponse "INVALID_STATUS" "Submission cannot be approved in current status")
    | .reject _ => .error (errResponse "ALREADY_REJECTED" "Submission is already rejected")
  | .draft => match verdict with
    | .approve =>
      .error (errResponse "INVALID_STATUS" "Submission cannot be approved in current status")
    | .reject _ =>
      .error (errResponse "INVALID_STATUS" "Submission cannot be rejected in current status")

/-- A call's next statement, at the time `now`. -/
def statement (now : ℕ) (id : Uuid) : Task → Effect × Next
  | .idle => (.nothing, .goTo .idle)
  | .checkOwner user doc submission =>
    if (s.submissions.lookup submission).any (·.userId = user) then
      (.nothing, .goTo (.readStatus user doc submission))
    else (.nothing, .reply (.error (forbidden "Submission not found or not yours")))
  | .readStatus user doc submission =>
    match s.submissions.lookup submission with
    | none => (.nothing, .reply (.error .database))
    | some row =>
      if row.status = .approved then (.nothing, .reply (.error
        (errResponse "VALIDATION" "Cannot add documents to an approved submission")))
      else (.nothing, .goTo (.insertDocument user doc submission row.status))
  | .insertDraft user doc =>
    if user ∈ s.tables.users then (.draft id user now, .goTo (.insertDocument user doc id .draft))
    else (.nothing, .reply (.error .database))
  | .insertDocument user doc submission _ =>
    if submission ∈ s.submissions then
      (.document id
        { submissionId := submission
          documentType := doc.documentType
          fileName := doc.fileName
          filePath := filePath formats submission id doc
          fileSizeBytes := doc.data.length
          contentType := doc.contentType
          uploadedBy := user
          data := doc.data }, .reply (.ok ()))
    -- the file that has been written is removed again
    else (.nothing, .reply (.error .database))
  | .readLatest user types =>
    match s.latest user with
    | none => (.nothing, .reply (.error (errResponse "VALIDATION"
        "Upload at least one identity and one proof-of-address document first, then submit")))
    | some (submission, row) => match row.status with
      | .approved => (.nothing, .reply (.error (errResponse "VALIDATION" "You are already verified")))
      | .pending | .underReview =>
        (.nothing, .reply (.error (errResponse "VALIDATION" "Submission already under review")))
      | .draft | .rejected => (.nothing, .goTo (.findIdentity user types submission row.status))
  | .findIdentity user types submission status =>
    (.nothing, .goTo (.findAddress user types submission status
      (s.hasDocument submission ["identity_front", "identity_back"])))
  | .findAddress user types submission status hasIdentity =>
    if hasIdentity && s.hasDocument submission ["proof_of_address"] then
      (.nothing, .goTo (.markPending user types submission status))
    else (.nothing, .reply (.error (errResponse "VALIDATION"
      "Upload at least one identity document and one proof-of-address document before submitting")))
  | .markPending user types submission _ => (.pending submission user types now, .reply (.ok ()))
  | .checkReviewer claims verdict submission =>
    match checkPermissionProfileOnly s.tables claims "kyc:approve", verdict with
    | .error failure, _ => (.nothing, .reply (.error failure))
    | .ok _, .approve => (.nothing, .goTo (.readSubmission claims verdict submission s.tables))
    | .ok _, .reject reason =>
      if trimText reason = "" then
        (.nothing, .reply (.error (errResponse "VALIDATION" "rejection_reason is required")))
      else (.nothing, .goTo (.readSubmission claims verdict submission s.tables))
  | .readSubmission claims verdict submission permitted =>
    match s.submissions.lookup submission with
    | none => (.nothing, .reply (.error (notFound "Submission not found")))
    | some row =>
      (.nothing, .goTo (.checkScope claims verdict submission permitted row.userId row.status))
  | .checkScope claims verdict submission permitted user status =>
    match resolveAllowedUserIdsForTrading s.tables claims with
    | .error failure => (.nothing, .reply (.error failure))
    | .ok allowed =>
      if allowed.any (user ∉ ·) then
        (.nothing, .reply (.error (notFound "Submission not found")))
      else match reviewable verdict status with
        | .error failure => (.nothing, .reply (.error failure))
        | .ok _ => (.vets ⟨claims, submission, user, permitted, s.tables⟩,
            .goTo (.mark claims verdict submission status))
  | .mark claims verdict submission _ => (.marked submission claims verdict now, .reply (.ok ()))

/-- UPDATE of a submission, if it is there. -/
def updateSubmission (submission : Uuid) (f : Submission → Submission) : Desk :=
  match s.submissions.lookup submission with
  | none => s
  | some row => { s with submissions := s.submissions.insert submission (f row) }

def write : Effect → Desk
  | .nothing => s
  | .draft id user now =>
    { s with submissions :=
        s.submissions.insert id { userId := user, status := .draft, submittedAt := now } }
  | .document id doc =>
    { s with documents := s.documents.insert id doc, files := s.files.insert doc.filePath doc.data }
  | .pending submission user types now =>
    s.updateSubmission submission fun row =>
      if row.userId = user then
        { row with
          status := .pending
          identityDocType := some types.1
          addressDocType := some types.2
          submittedAt := now }
      else row
  | .marked submission claims verdict now =>
    s.updateSubmission submission fun row =>
      match verdict with
      | .approve =>
        { row with status := .approved, reviewedAt := some now, reviewedById := some claims.sub }
      | .reject reason =>
        { row with
          status := .rejected
          rejectionReason := some (trimText reason)
          reviewedAt := some now
          reviewedById := some claims.sub }
  | .vets vetting => { s with vetted := vetting :: s.vetted }

def setTask (t : ℕ) (task : Task) : Desk := { s with tasks := Function.update s.tasks t task }

end Desk

/-- How a call begins. -/
def begin (formats : KycFormats) : Action → Option (ℕ × Next)
  | .upload t user fields => some (t, match readForm formats fields with
    | .error failure => .reply (.error failure)
    | .ok (some submission, doc) => .goTo (.checkOwner user doc submission)
    | .ok (none, doc) => .goTo (.insertDraft user doc))
  | .submit t user identityDocType addressDocType =>
    some (t, match readTypes identityDocType addressDocType with
    | .error failure => .reply (.error failure)
    | .ok types => .goTo (.readLatest user types))
  | .review t claims verdict submission => some (t, .goTo (.checkReviewer claims verdict submission))
  | .advance .. => none
  | .reassign _ => none

def Desk.step (s : Desk) (action : Action) : Option Desk :=
  match action with
  | .reassign tables => some { s with tables }
  | .advance t now id fails =>
    match s.tasks t with
    | .idle => none
    | task =>
      if fails then some (s.setTask t .idle)
      else if id ∈ s.submissions ∨ id ∈ s.documents then none
      else
        let (effect, next) := s.statement formats now id task
        some ((s.write effect).setTask t next.task)
  | start =>
    match begin formats start with
    | none => none
    | some (t, next) =>
      match s.tasks t with
      | .idle => some (s.setTask t next.task)
      | _ => none

/-- No submission yet and no call. -/
def Desk.fresh (tables : Tables) : Desk where
  tables
  submissions := ∅
  documents := ∅
  files := ∅
  tasks _ := .idle
  vetted := []

/-- The file of a document of the submission. -/
def readDocument (s : Desk) (submission id : Uuid) : Except Failure (List UInt8) :=
  match (s.documents.lookup id).filter (·.submissionId = submission) with
  | none => .error (Desk.notFound "Document not found")
  | some doc => match s.files.lookup doc.filePath with
    | none => .error (Desk.notFound "File not found")
    | some data => .ok data

/-- `stream_my_document` -/
def streamMyDocument (s : Desk) (user submission id : Uuid) : Except Failure (List UInt8) :=
  if (s.submissions.lookup submission).any (·.userId = user) then readDocument s submission id
  else .error (Desk.notFound "Document not found")

/-- `stream_document` of the admin routes -/
def streamDocument (s : Desk) (claims : Claims) (submission id : Uuid) :
    Except Failure (List UInt8) := do
  checkPermission s.tables claims "kyc:view"
  match s.submissions.lookup submission with
  | none => .error (Desk.notFound "Submission not found")
  | some row =>
    let allowed ← resolveAllowedUserIdsForTrading s.tables claims
    if allowed.any (row.userId ∉ ·) then .error (Desk.notFound "Document not found")
    else readDocument s submission id

end Source
end TradingPlatform.Kyc
