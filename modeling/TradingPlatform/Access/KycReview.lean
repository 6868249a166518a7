import TradingPlatform.Access.KycDesk

namespace TradingPlatform.Kyc
open Access StepRuns

/-- The types of an identity and an address document are named. -/
def ValidTypes (types : String × String) : Prop :=
  types.1 ∈ validIdentityTypes ∧ types.2 ∈ validAddressTypes

def Submission.Typed (row : Submission) : Prop :=
  ∃ types, ValidTypes types ∧ row.identityDocType = some types.1 ∧ row.addressDocType = some types.2

/-- The reviewer may approve, and is let at the user. -/
def Vetting.Authorized (v : Vetting) : Prop :=
  checkPermissionProfileOnly v.permissionTables v.claims "kyc:approve" = .ok () ∧
    AdmitsTrading v.scopeTables v.claims v.user

def NewDocument.Valid (doc : NewDocument) : Prop :=
  doc.documentType ∈ validDocTypes ∧ doc.data.length ≤ maxFileBytes

namespace Desk
variable (formats : KycFormats) (s : Desk)

def Owns (user submission : Uuid) : Prop :=
  ∃ row, s.submissions.lookup submission = some row ∧ row.userId = user

def HasDocument (submission : Uuid) (types : List String) : Prop :=
  ∃ d doc, s.documents.lookup d = some doc ∧ doc.submissionId = submission ∧
    doc.documentType ∈ types

/-- There are documents of both kinds. -/
def Documented (submission : Uuid) : Prop :=
  s.HasDocument submission ["identity_front", "identity_back"] ∧
    s.HasDocument submission ["proof_of_address"]

/-- The submission is all there: documents of both kinds and their types. -/
def Filled (submission : Uuid) : Prop :=
  s.Documented submission ∧
    ∃ row, s.submissions.lookup submission = some row ∧ row.Typed

/-- A document was uploaded by the owner of its submission, and its file is
there, under a path of its own. -/
structure Stored (id : Uuid) (doc : Document) : Prop where
  owned : s.Owns doc.uploadedBy doc.submissionId
  type : doc.documentType ∈ validDocTypes
  size : doc.data.length ≤ maxFileBytes ∧ doc.fileSizeBytes = doc.data.length
  path : ∃ extension, doc.filePath = formats.showUuid doc.submissionId ++ "/" ++ doc.documentType ++
    "_" ++ formats.showUuid id ++ "." ++ extension
  file : s.files.lookup doc.filePath = some doc.data

/-- A reviewer passed the checks for the submission. -/
def Vetted (submission : Uuid) (claims : Claims) : Prop :=
  ∃ v ∈ s.vetted, v.claims = claims ∧ v.submission = submission ∧ s.Owns v.user submission

/-- What a call has found out holds. -/
def TaskSound : Task → Prop
  | .idle => True
  | .checkOwner _ doc _ => doc.Valid
  | .readStatus user doc submission => doc.Valid ∧ s.Owns user submission
  | .insertDraft _ doc => doc.Valid
  | .insertDocument user doc submission status =>
    doc.Valid ∧ s.Owns user submission ∧ status ≠ .approved
  | .readLatest _ types => ValidTypes types
  | .findIdentity user types submission status =>
    ValidTypes types ∧ s.Owns user submission ∧ (status = .draft ∨ status = .rejected)
  | .findAddress user types submission status hasIdentity =>
    ValidTypes types ∧ s.Owns user submission ∧ (status = .draft ∨ status = .rejected) ∧
      (hasIdentity = true → s.HasDocument submission ["identity_front", "identity_back"])
  | .markPending user types submission status =>
    ValidTypes types ∧ s.Owns user submission ∧ (status = .draft ∨ status = .rejected) ∧
      s.Documented submission
  | .checkReviewer _ _ _ => True
  | .readSubmission claims _ _ permitted =>
    checkPermissionProfileOnly permitted claims "kyc:approve" = .ok ()
  | .checkScope claims _ submission permitted user status =>
    checkPermissionProfileOnly permitted claims "kyc:approve" = .ok () ∧ s.Owns user submission ∧
      (status ≠ .draft → s.Filled submission)
  | .mark claims _ submission status =>
    (status = .pending ∨ status = .underReview) ∧ s.Filled submission ∧ s.Vetted submission claims

/-- The invariant. -/
structure Sound : Prop where
  complete : ∀ id row, s.submissions.lookup id = some row → row.status ≠ .draft → s.Filled id
  reviewed : ∀ id row, s.submissions.lookup id = some row →
    row.status = .approved ∨ row.status = .rejected →
      ∃ claims, row.reviewedById = some claims.sub ∧ s.Vetted id claims
  authorized : ∀ v ∈ s.vetted, v.Authorized
  documents : ∀ id doc, s.documents.lookup id = some doc → s.Stored formats id doc
  tasks : ∀ t, s.TaskSound (s.tasks t)

end Desk

/-- What no statement takes back. -/
structure Grows (s s' : Desk) : Prop where
  rows : ∀ id row, s.submissions.lookup id = some row → ∃ later,
    s'.submissions.lookup id = some later ∧ later.userId = row.userId ∧ (row.Typed → later.Typed)
  documents : ∀ id doc, s.documents.lookup id = some doc → s'.documents.lookup id = some doc
  vetted : ∀ v ∈ s.vetted, v ∈ s'.vetted

namespace Grows
variable {s s' : Desk} {user submission : Uuid} {types : List String} {claims : Claims}

theorem refl (s : Desk) : Grows s s where
  rows := fun _ row stored => ⟨row, stored, rfl, id⟩
  documents := fun _ _ => id
  vetted := fun _ => id

theorem owns (grows : Grows s s') (owns : s.Owns user submission) : s'.Owns user submission := by
  obtain ⟨row, stored, same⟩ := owns
  obtain ⟨later, stored', kept, _⟩ := grows.rows submission row stored
  exact ⟨later, stored', kept.trans same⟩

theorem hasDocument (grows : Grows s s') (has : s.HasDocument submission types) :
    s'.HasDocument submission types := by
  obtain ⟨d, doc, stored, rest⟩ := has
  exact ⟨d, doc, grows.documents d doc stored, rest⟩

theorem documented (grows : Grows s s') (documented : s.Documented submission) :
    s'.Documented submission :=
  documented.imp grows.hasDocument grows.hasDocument

theorem filled (grows : Grows s s') (filled : s.Filled submission) : s'.Filled submission := by
  obtain ⟨documented, row, stored, typed⟩ := filled
  obtain ⟨later, stored', _, kept⟩ := grows.rows submission row stored
  exact ⟨grows.documented documented, later, stored', kept typed⟩

theorem wasVetted (grows : Grows s s') (vetted : s.Vetted submission claims) :
    s'.Vetted submission claims := by
  obtain ⟨v, member, same, about, owns⟩ := vetted
  exact ⟨v, grows.vetted v member, same, about, grows.owns owns⟩

theorem taskSound (grows : Grows s s') {task : Task} (sound : s.TaskSound task) :
    s'.TaskSound task := by
  cases task with
  | idle | checkReviewer => trivial
  | checkOwner | insertDraft | readLatest | readSubmission => exact sound
  | readStatus => exact ⟨sound.1, grows.owns sound.2⟩
  | insertDocument => exact ⟨sound.1, grows.owns sound.2.1, sound.2.2⟩
  | findIdentity => exact ⟨sound.1, grows.owns sound.2.1, sound.2.2⟩
  | findAddress =>
    exact ⟨sound.1, grows.owns sound.2.1, sound.2.2.1, fun has => grows.hasDocument (sound.2.2.2 has)⟩
  | markPending => exact ⟨sound.1, grows.owns sound.2.1, sound.2.2.1, grows.documented sound.2.2.2⟩
  | checkScope => exact ⟨sound.1, grows.owns sound.2.1, fun read => grows.filled (sound.2.2 read)⟩
  | mark => exact ⟨sound.1, grows.filled sound.2.1, grows.wasVetted sound.2.2⟩

end Grows

/-- What makes an effect keep the invariant. -/
def Desk.Allows (formats : KycFormats) (s : Desk) : Effect → Prop
  | .nothing => True
  | .draft id _ _ => id ∉ s.submissions
  | .document id doc => id ∉ s.documents ∧ ∃ new : NewDocument, new.Valid ∧
      s.Owns doc.uploadedBy doc.submissionId ∧ doc.documentType = new.documentType ∧
      doc.filePath = filePath formats doc.submissionId id new ∧ doc.data = new.data ∧
      doc.fileSizeBytes = new.data.length
  | .pending submission user types _ =>
    ValidTypes types ∧ s.Owns user submission ∧ s.Documented submission
  | .marked submission claims _ _ => s.Filled submission ∧ s.Vetted submission claims
  | .vets v => v.Authorized ∧ s.Owns v.user v.submission

section Writes
variable {formats : KycFormats} {s : Desk} {effect : Effect}

theorem lookup_updateSubmission {submission id : Uuid} {f : Submission → Submission} :
    (s.updateSubmission submission f).submissions.lookup id =
      if id = submission then (s.submissions.lookup id).map f else s.submissions.lookup id := by
  unfold Desk.updateSubmission
  cases stored : s.submissions.lookup submission with
  | none =>
    by_cases same : id = submission
    · subst same
      simp [stored]
    · simp [same]
  | some row =>
    by_cases same : id = submission
    · subst same
      simp [stored]
    · simp [same, AList.lookup_insert_ne same]

@[simp] theorem updateSubmission_documents {submission : Uuid} {f : Submission → Submission} :
    (s.updateSubmission submission f).documents = s.documents := by
  unfold Desk.updateSubmission
  split <;> rfl

@[simp] theorem updateSubmission_vetted {submission : Uuid} {f : Submission → Submission} :
    (s.updateSubmission submission f).vetted = s.vetted := by
  unfold Desk.updateSubmission
  split <;> rfl

@[simp] theorem updateSubmission_files {submission : Uuid} {f : Submission → Submission} :
    (s.updateSubmission submission f).files = s.files := by
  unfold Desk.updateSubmission
  split <;> rfl

@[simp] theorem updateSubmission_tasks {submission : Uuid} {f : Submission → Submission} :
    (s.updateSubmission submission f).tasks = s.tasks := by
  unfold Desk.updateSubmission
  split <;> rfl

/-- A change of one row that keeps its owner and its types. -/
theorem grows_updateSubmission {submission : Uuid} {f : Submission → Submission}
    (owner : ∀ row, (f row).userId = row.userId) (typed : ∀ row, row.Typed → (f row).Typed) :
    Grows s (s.updateSubmission submission f) where
  rows := by
    intro id row stored
    rw [lookup_updateSubmission]
    by_cases same : id = submission
    · rw [if_pos same, stored]
      exact ⟨f row, rfl, owner row, typed row⟩
    · rw [if_neg same]
      exact ⟨row, stored, rfl, fun typed => typed⟩
  documents := by simp
  vetted := by simp

theorem grows_write (allows : s.Allows formats effect) : Grows s (s.write effect) := by
  cases effect with
  | nothing => exact .refl s
  | draft id user now =>
    refine ⟨fun id' row stored => ⟨row, ?_, rfl, fun typed => typed⟩, fun _ _ stored => stored,
      fun _ member => member⟩
    have apart : id' ≠ id := by
      rintro rfl
      exact allows (AList.lookup_isSome.mp (by rw [stored]; rfl))
    simpa only [Desk.write, AList.lookup_insert_ne apart] using stored
  | document id doc =>
    refine ⟨fun _ row stored => ⟨row, stored, rfl, fun typed => typed⟩, fun id' doc' stored => ?_,
      fun _ member => member⟩
    have apart : id' ≠ id := by
      rintro rfl
      exact allows.1 (AList.lookup_isSome.mp (by rw [stored]; rfl))
    simpa only [Desk.write, AList.lookup_insert_ne apart] using stored
  | pending submission user types now =>
    refine grows_updateSubmission (fun row => ?_) fun row typed => ?_
    · split <;> rfl
    · split
      next => exact ⟨types, allows.1, rfl, rfl⟩
      next => exact typed
  | marked submission claims verdict now =>
    refine grows_updateSubmission (fun row => ?_) fun row typed => ?_
    · cases verdict <;> rfl
    · cases verdict <;> exact typed
  | vets v =>
    exact ⟨fun _ row stored => ⟨row, stored, rfl, fun typed => typed⟩, fun _ _ stored => stored,
      fun _ member => List.mem_cons_of_mem _ member⟩

/-- What two texts have before the first of a character, and after it. -/
theorem split_at_first {α : Type*} {c : α} {l l' r r' : List α} (free : c ∉ l) (free' : c ∉ l')
    (same : l ++ c :: r = l' ++ c :: r') : l = l' ∧ r = r' := by
  induction l generalizing l' with
  | nil =>
    cases l' with
    | nil => exact ⟨rfl, (List.cons.inj same).2⟩
    | cons x l' => exact absurd (List.cons.inj same).1 fun here => free' (here ▸ List.mem_cons_self)
  | cons x l ih =>
    cases l' with
    | nil => exact absurd (List.cons.inj same).1 fun here => free (here ▸ List.mem_cons_self)
    | cons y l' =>
      obtain ⟨head, tail⟩ := List.cons.inj same
      have rest := ih (fun member => free (List.mem_cons_of_mem _ member))
        (fun member => free' (List.mem_cons_of_mem _ member)) tail
      exact ⟨by rw [head, rest.1], rest.2⟩

/-- UUIDs have texts of their own, without a slash or a dot. -/
structure KycFormats.Distinct (formats : KycFormats) : Prop where
  injective : Function.Injective formats.showUuid
  slashes : ∀ u, '/' ∉ (formats.showUuid u).toList
  dots : ∀ u, '.' ∉ (formats.showUuid u).toList

/-- The path of a document tells its id. -/
theorem id_of_path (distinct : formats.Distinct) {a b d e : Uuid} {type type' rest rest' : String}
    (valid : type ∈ validDocTypes) (valid' : type' ∈ validDocTypes)
    (same : formats.showUuid a ++ "/" ++ type ++ "_" ++ formats.showUuid d ++ "." ++ rest =
      formats.showUuid b ++ "/" ++ type' ++ "_" ++ formats.showUuid e ++ "." ++ rest') : d = e := by
  have texts := congrArg String.toList same
  simp only [String.toList_append, List.append_assoc] at texts
  have slash : "/".toList = ['/'] := rfl
  have dot : ".".toList = ['.'] := rfl
  have bar : "_".toList = ['_'] := rfl
  rw [slash, dot, bar] at texts
  have named := (split_at_first (distinct.slashes a) (distinct.slashes b)
    (by simpa only [List.singleton_append] using texts)).2
  have free (type : String) (valid : type ∈ validDocTypes) (u : Uuid) :
      '.' ∉ type.toList ++ '_' :: (formats.showUuid u).toList := by
    have noDot : '.' ∉ type.toList := by
      simp only [validDocTypes, List.mem_cons, List.not_mem_nil, or_false] at valid
      rcases valid with rfl | rfl | rfl <;> decide
    simp only [List.mem_append, List.mem_cons, not_or]
    exact ⟨noDot, by decide, distinct.dots u⟩
  have front := (split_at_first (free type valid d) (free type' valid' e)
    (by simpa only [List.append_assoc, List.cons_append, List.singleton_append] using named)).1
  have shown : formats.showUuid d = formats.showUuid e := by
    simp only [validDocTypes, List.mem_cons, List.not_mem_nil, or_false] at valid valid'
    -- no two of the types can stand before the same text
    rcases valid with rfl | rfl | rfl <;> rcases valid' with rfl | rfl | rfl <;>
      simp at front <;> exact String.toList_inj.mp front
  exact distinct.injective shown

end Writes

section Invariant
variable {formats : KycFormats} {s : Desk} {effect : Effect}

/-- A document that is there stays as it is when another one is filed. -/
theorem Desk.Stored.write (distinct : formats.Distinct) (allows : s.Allows formats effect) {id : Uuid}
    {doc : Document} (there : id ∈ s.documents) (stored : s.Stored formats id doc) :
    (s.write effect).Stored formats id doc := by
  have owned := (grows_write allows).owns stored.owned
  refine ⟨owned, stored.type, stored.size, stored.path, ?_⟩
  cases effect with
  | nothing | draft | vets => exact stored.file
  | pending | marked => simpa [Desk.write] using stored.file
  | document new added =>
    obtain ⟨fresh, source, valid, _, type, path, _⟩ := allows
    have apart : doc.filePath ≠ added.filePath := by
      intro same
      obtain ⟨extension, named⟩ := stored.path
      have texts : formats.showUuid doc.submissionId ++ "/" ++ doc.documentType ++ "_" ++
          formats.showUuid id ++ "." ++ extension =
          formats.showUuid added.submissionId ++ "/" ++ source.documentType ++ "_" ++
            formats.showUuid new ++ "." ++ (formats.extension source.fileName).getD "bin" := by
        rw [← named, same, path]
        rfl
      have one := id_of_path distinct stored.type valid.1 texts
      exact fresh (one ▸ there)
    simpa only [Desk.write, AList.lookup_insert_ne apart] using stored.file

/-- A row after a write is one from before it, or the one that is written. -/
theorem row_of_write {id : Uuid} {row : Submission}
    (stored : (s.write effect).submissions.lookup id = some row) :
    s.submissions.lookup id = some row ∨
      (∃ user now, effect = .draft id user now ∧
        row = { userId := user, status := .draft, submittedAt := now }) ∨
      (∃ user types now, effect = .pending id user types now ∧ row.status = .pending) ∨
      ∃ claims verdict now, effect = .marked id claims verdict now ∧
        row.reviewedById = some claims.sub := by
  cases effect with
  | nothing | document | vets => exact .inl stored
  | draft new user now =>
    by_cases same : id = new
    · subst same
      simp only [Desk.write, AList.lookup_insert, Option.some.injEq] at stored
      exact .inr (.inl ⟨user, now, rfl, stored.symm⟩)
    · simp only [Desk.write, AList.lookup_insert_ne same] at stored
      exact .inl stored
  | pending submission user types now =>
    rw [Desk.write, lookup_updateSubmission] at stored
    by_cases same : id = submission
    · subst same
      rw [if_pos rfl] at stored
      obtain ⟨before, there, rfl⟩ := Option.map_eq_some_iff.mp stored
      by_cases owner : before.userId = user
      · rw [if_pos owner]
        exact .inr (.inr (.inl ⟨user, types, now, rfl, rfl⟩))
      · rw [if_neg owner]
        exact .inl there
    · rw [if_neg same] at stored
      exact .inl stored
  | marked submission claims verdict now =>
    rw [Desk.write, lookup_updateSubmission] at stored
    by_cases same : id = submission
    · subst same
      rw [if_pos rfl] at stored
      obtain ⟨before, _, rfl⟩ := Option.map_eq_some_iff.mp stored
      exact .inr (.inr (.inr ⟨claims, verdict, now, rfl, by cases verdict <;> rfl⟩))
    · rw [if_neg same] at stored
      exact .inl stored

/-- The document that is filed. -/
theorem stored_of_document {id : Uuid} {doc : Document} (allows : s.Allows formats (.document id doc)) :
    (s.write (.document id doc)).Stored formats id doc := by
  have owned := (grows_write allows).owns allows.2.choose_spec.2.1
  obtain ⟨_, source, valid, _, type, path, data, size⟩ := allows
  refine ⟨owned, by rw [type]; exact valid.1, by rw [data, size]; exact ⟨valid.2, rfl⟩, ?_, ?_⟩
  · exact ⟨_, by rw [path, type]; rfl⟩
  · simp [Desk.write]

theorem tasks_write : (s.write effect).tasks = s.tasks := by
  cases effect with
  | nothing | draft | document | vets => rfl
  | pending | marked => simp [Desk.write]

/-- An effect that its call may have keeps the invariant. -/
theorem Desk.Sound.write (sound : s.Sound formats) (distinct : formats.Distinct)
    (allows : s.Allows formats effect) : (s.write effect).Sound formats := by
  have grows := grows_write allows
  refine ⟨fun id row stored advanced => ?_, fun id row stored reviewed => ?_, ?_, ?_, fun t => ?_⟩
  · rcases row_of_write stored with before | ⟨user, now, rfl, rfl⟩ | ⟨user, types, now, rfl, _⟩ |
      ⟨claims, verdict, now, rfl, _⟩
    · exact grows.filled (sound.complete id row before advanced)
    · exact absurd rfl advanced
    · obtain ⟨valid, ⟨before, there, owner⟩, documented⟩ := allows
      refine ⟨grows.documented documented, { before with
        status := .pending
        identityDocType := some types.1
        addressDocType := some types.2
        submittedAt := now }, ?_, types, valid, rfl, rfl⟩
      rw [Desk.write, lookup_updateSubmission, if_pos rfl, there, Option.map_some, if_pos owner]
    · exact grows.filled allows.1
  · rcases row_of_write stored with before | ⟨user, now, rfl, rfl⟩ | ⟨user, types, now, rfl, pending⟩ |
      ⟨claims, verdict, now, rfl, reviewer⟩
    · obtain ⟨claims, reviewer, vetted⟩ := sound.reviewed id row before reviewed
      exact ⟨claims, reviewer, grows.wasVetted vetted⟩
    · simp at reviewed
    · simp [pending] at reviewed
    · exact ⟨claims, reviewer, grows.wasVetted allows.2⟩
  · intro v member
    cases effect with
    | nothing | draft | document => exact sound.authorized v member
    | pending | marked => exact sound.authorized v (by simpa [Desk.write] using member)
    | vets new =>
      rcases List.mem_cons.mp member with rfl | before
      · exact allows.1
      · exact sound.authorized v before
  · intro id doc stored
    have kept (there : s.documents.lookup id = some doc) : (s.write effect).Stored formats id doc :=
      (sound.documents id doc there).write distinct allows
        (AList.lookup_isSome.mp (by rw [there]; rfl))
    cases effect with
    | nothing | draft | vets => exact kept stored
    | pending | marked => exact kept (by simpa [Desk.write] using stored)
    | document new added =>
      by_cases same : id = new
      · subst same
        have filed : added = doc := by simpa [Desk.write] using stored
        subst filed
        exact stored_of_document allows
      · exact kept (by simpa only [Desk.write, AList.lookup_insert_ne same] using stored)
  · rw [tasks_write]
    exact grows.taskSound (sound.tasks t)

theorem hasDocument_iff {submission : Uuid} {types : List String} :
    s.hasDocument submission types = true ↔ s.HasDocument submission types := by
  simp only [Desk.hasDocument, Desk.HasDocument, List.any_eq_true, decide_eq_true_eq]
  constructor
  · rintro ⟨⟨d, doc⟩, member, holds⟩
    exact ⟨d, doc, AList.mem_lookup_iff.mpr member, holds⟩
  · rintro ⟨d, doc, stored, holds⟩
    exact ⟨⟨d, doc⟩, AList.mem_lookup_iff.mp stored, holds⟩

theorem latest_stored {user submission : Uuid} {row : Submission}
    (found : s.latest user = some (submission, row)) :
    s.submissions.lookup submission = some row ∧ row.userId = user := by
  have member := List.mem_of_mem_head? found
  rw [List.mem_insertionSort, List.mem_filter, List.mem_map] at member
  obtain ⟨⟨entry, there, same⟩, owner⟩ := member
  obtain ⟨rfl, rfl⟩ := Prod.mk.inj same
  exact ⟨AList.mem_lookup_iff.mpr there, by simpa using owner⟩

theorem owns_of_any {user submission : Uuid}
    (owner : (s.submissions.lookup submission).any (·.userId = user) = true) :
    s.Owns user submission := by
  obtain ⟨row, stored, same⟩ := (Option.any_eq_true _ _).mp owner
  exact ⟨row, stored, by simpa using same⟩

/-- What a call's next statement writes is allowed, and what the call has then
found out holds. -/
theorem statement_sound (sound : s.Sound formats) (now : ℕ) {id : Uuid} (newRow : id ∉ s.submissions)
    (newDocument : id ∉ s.documents) {task : Task} (holds : s.TaskSound task) :
    s.Allows formats (s.statement formats now id task).1 ∧
      (s.write (s.statement formats now id task).1).TaskSound
        (s.statement formats now id task).2.task := by
  cases task with
  | idle => exact ⟨trivial, trivial⟩
  | checkOwner user doc submission =>
    simp only [Desk.statement]
    split
    next owner => exact ⟨trivial, holds, owns_of_any owner⟩
    next => exact ⟨trivial, trivial⟩
  | readStatus user doc submission =>
    simp only [Desk.statement]
    split
    next => exact ⟨trivial, trivial⟩
    next row stored =>
      split
      next => exact ⟨trivial, trivial⟩
      next open_ => exact ⟨trivial, holds.1, holds.2, open_⟩
  | insertDraft user doc =>
    simp only [Desk.statement]
    split
    next =>
      refine ⟨newRow, holds, ?_, by simp⟩
      exact ⟨_, AList.lookup_insert _, rfl⟩
    next => exact ⟨trivial, trivial⟩
  | insertDocument user doc submission status =>
    simp only [Desk.statement]
    split
    next => exact ⟨⟨newDocument, doc, holds.1, holds.2.1, rfl, rfl, rfl, rfl⟩, trivial⟩
    next => exact ⟨trivial, trivial⟩
  | readLatest user types =>
    simp only [Desk.statement]
    split
    next => exact ⟨trivial, trivial⟩
    next submission row found =>
      obtain ⟨stored, owner⟩ := latest_stored found
      have owns : s.Owns user submission := ⟨row, stored, owner⟩
      split
      next => exact ⟨trivial, trivial⟩
      next => exact ⟨trivial, trivial⟩
      next => exact ⟨trivial, trivial⟩
      next read => exact ⟨trivial, holds, owns, .inl read⟩
      next read => exact ⟨trivial, holds, owns, .inr read⟩
  | findIdentity user types submission status =>
    exact ⟨trivial, holds.1, holds.2.1, holds.2.2, fun found => hasDocument_iff.mp found⟩
  | findAddress user types submission status hasIdentity =>
    simp only [Desk.statement]
    split
    next found =>
      obtain ⟨identity, address⟩ := Bool.and_eq_true_iff.mp found
      exact ⟨trivial, holds.1, holds.2.1, holds.2.2.1, holds.2.2.2 identity,
        hasDocument_iff.mp address⟩
    next => exact ⟨trivial, trivial⟩
  | markPending user types submission status => exact ⟨⟨holds.1, holds.2.1, holds.2.2.2⟩, trivial⟩
  | checkReviewer claims verdict submission =>
    simp only [Desk.statement]
    split
    next => exact ⟨trivial, trivial⟩
    next permitted => exact ⟨trivial, permitted⟩
    next permitted =>
      split
      next => exact ⟨trivial, trivial⟩
      next => exact ⟨trivial, permitted⟩
  | readSubmission claims verdict submission permitted =>
    simp only [Desk.statement]
    split
    next => exact ⟨trivial, trivial⟩
    next row stored =>
      exact ⟨trivial, holds, ⟨row, stored, rfl⟩, sound.complete submission row stored⟩
  | checkScope claims verdict submission permitted user status =>
    simp only [Desk.statement]
    split
    next => exact ⟨trivial, trivial⟩
    next allowed resolved =>
      split
      next => exact ⟨trivial, trivial⟩
      next inScope =>
        have admitted : AdmitsTrading s.tables claims user := by
          refine ⟨allowed, resolved, fun ids same => ?_⟩
          by_contra outside
          exact inScope (by rw [Option.mem_def.mp same]; simpa using outside)
        split
        next => exact ⟨trivial, trivial⟩
        next may =>
          have reviewed : status = .pending ∨ status = .underReview := by
            cases status <;> cases verdict <;> simp [Desk.reviewable] at may ⊢
          refine ⟨⟨⟨holds.1, admitted⟩, holds.2.1⟩, reviewed, holds.2.2 ?_, ?_⟩
          · rintro rfl
            simp at reviewed
          · exact ⟨_, List.mem_cons_self, rfl, rfl, holds.2.1⟩
  | mark claims verdict submission status => exact ⟨⟨holds.2.1, holds.2.2⟩, trivial⟩

/-- The form holds what a document needs, as far as it has been read. -/
def Form.Valid (form : Form) : Prop :=
  (∀ type ∈ form.documentType, type ∈ validDocTypes) ∧
    ∀ file ∈ form.file, file.2.2.length ≤ maxFileBytes

theorem readField_valid {form after : Form} {field : Field} (valid : form.Valid)
    (read : readField formats form field = .ok after) : after.Valid := by
  cases field with
  | submissionId text =>
    cases read
    exact valid
  | documentType text =>
    simp only [readField] at read
    split at read
    next known =>
      cases read
      exact ⟨fun type same => by cases same; exact known, valid.2⟩
    next =>
      cases read
      exact valid
  | file contentType fileName bytes =>
    simp only [readField] at read
    split at read
    next => exact nomatch read
    next =>
      split at read
      next => exact nomatch read
      next small =>
        cases read
        exact ⟨valid.1, fun file same => by cases same; exact Nat.not_lt.mp small⟩
  | other =>
    cases read
    exact valid

theorem foldlM_valid {form after : Form} {fields : List Field} (valid : form.Valid)
    (read : fields.foldlM (readField formats) form = .ok after) : after.Valid := by
  induction fields generalizing form with
  | nil =>
    cases read
    exact valid
  | cons field fields ih =>
    rw [List.foldlM_cons] at read
    cases first : readField formats form field with
    | error failure =>
      rw [first] at read
      exact nomatch read
    | ok next =>
      rw [first] at read
      exact ih (readField_valid valid first) read

theorem readForm_valid {fields : List Field} {named : Option Uuid} {doc : NewDocument}
    (read : readForm formats fields = .ok (named, doc)) : doc.Valid := by
  unfold readForm at read
  cases folded : fields.foldlM (readField formats) {} with
  | error failure =>
    rw [folded] at read
    exact nomatch read
  | ok form =>
    have valid : form.Valid := foldlM_valid ⟨by simp, by simp⟩ folded
    simp only [folded, bind, Except.bind] at read
    split at read
    next => exact nomatch read
    next => exact nomatch read
    next type contentType fileName data known filed =>
      cases read
      exact ⟨valid.1 type known, valid.2 _ filed⟩

theorem readTypes_valid {identity address : String} {types : String × String}
    (read : readTypes identity address = .ok types) : ValidTypes types := by
  simp only [readTypes] at read
  split at read
  next => exact nomatch read
  next known =>
    split at read
    next => exact nomatch read
    next known' =>
      cases read
      exact ⟨not_not.mp known, not_not.mp known'⟩

theorem begin_sound {action : Action} {t : ℕ} {next : Next}
    (begins : begin formats action = some (t, next)) : s.TaskSound next.task := by
  cases action with
  | upload t user fields =>
    obtain ⟨_, rfl⟩ := Prod.mk.inj (Option.some.inj begins)
    split
    next => trivial
    next read => exact readForm_valid read
    next read => exact readForm_valid read
  | submit t user identity address =>
    obtain ⟨_, rfl⟩ := Prod.mk.inj (Option.some.inj begins)
    split
    next => trivial
    next read => exact readTypes_valid read
  | review t claims verdict submission =>
    obtain ⟨_, rfl⟩ := Prod.mk.inj (Option.some.inj begins)
    trivial
  | advance | reassign => exact nomatch begins

/-- The calls and the other tables change while the rows and files stay. -/
theorem Desk.Sound.of_rows (sound : s.Sound formats) {tables : Tables} {tasks : ℕ → Task}
    (holds : ∀ t, s.TaskSound (tasks t)) : { s with tables, tasks }.Sound formats := by
  have grows : Grows s { s with tables, tasks } :=
    ⟨fun _ row stored => ⟨row, stored, rfl, fun typed => typed⟩, fun _ _ stored => stored,
      fun _ member => member⟩
  refine ⟨fun id row stored advanced => ?_, fun id row stored reviewed => ?_, sound.authorized,
    fun id doc stored => ?_, fun t => grows.taskSound (holds t)⟩
  · exact grows.filled (sound.complete id row stored advanced)
  · obtain ⟨claims, reviewer, vetted⟩ := sound.reviewed id row stored reviewed
    exact ⟨claims, reviewer, grows.wasVetted vetted⟩
  · have before := sound.documents id doc stored
    exact ⟨grows.owns before.owned, before.type, before.size, before.path, before.file⟩

theorem Desk.Sound.setTask (sound : s.Sound formats) {t : ℕ} {task : Task}
    (holds : s.TaskSound task) : (s.setTask t task).Sound formats := by
  refine sound.of_rows fun u => ?_
  by_cases same : u = t
  · subst same
    simpa using holds
  · simpa [same] using sound.tasks u

/-- A call that begins does so where its task is idle. -/
theorem step_of_begin {start : Action} {t : ℕ} {next : Next} {after : Desk}
    (begins : begin formats start = some (t, next)) (taken : s.step formats start = some after) :
    after = s.setTask t next.task := by
  cases start with
  | reassign | advance => simp [begin] at begins
  | upload | submit | review =>
    simp only [Desk.step, begins] at taken
    split at taken
    next => exact (Option.some.inj taken).symm
    next => simp at taken

/-- What one step can do: a call begins or stops, its statement is executed, or
the other tables change. -/
theorem step_cases {action : Action} {after : Desk} (taken : s.step formats action = some after) :
    (∃ tables, after = { s with tables }) ∨
    (∃ t, after = s.setTask t .idle) ∨
    (∃ start t next, begin formats start = some (t, next) ∧ after = s.setTask t next.task) ∨
    ∃ t now id, action = .advance t now id false ∧ id ∉ s.submissions ∧ id ∉ s.documents ∧
      after = (s.write (s.statement formats now id (s.tasks t)).1).setTask t
        (s.statement formats now id (s.tasks t)).2.task := by
  cases action with
  | reassign tables => exact .inl ⟨tables, (Option.some.inj taken).symm⟩
  | advance t now id fails =>
    simp only [Desk.step] at taken
    split at taken
    next => simp at taken
    next =>
      split at taken
      next => exact .inr (.inl ⟨t, (Option.some.inj taken).symm⟩)
      next runs =>
        split at taken
        next => simp at taken
        next isNew =>
          rw [not_or] at isNew
          refine .inr (.inr (.inr ⟨t, now, id, ?_, isNew.1, isNew.2, (Option.some.inj taken).symm⟩))
          simp [Bool.eq_false_of_not_eq_true runs]
  | upload t user fields =>
    exact .inr (.inr (.inl ⟨.upload t user fields, t, _, rfl, step_of_begin rfl taken⟩))
  | submit t user identity address =>
    exact .inr (.inr (.inl ⟨.submit t user identity address, t, _, rfl, step_of_begin rfl taken⟩))
  | review t claims verdict submission =>
    exact .inr (.inr (.inl ⟨.review t claims verdict submission, t, _, rfl, step_of_begin rfl taken⟩))

theorem Desk.Sound.step (sound : s.Sound formats) (distinct : formats.Distinct) {action : Action}
    {after : Desk} (taken : s.step formats action = some after) : after.Sound formats := by
  rcases step_cases taken with ⟨tables, rfl⟩ | ⟨t, rfl⟩ | ⟨start, t, next, begun, rfl⟩ |
    ⟨t, now, id, _, newRow, newDocument, rfl⟩
  · exact sound.of_rows sound.tasks
  · exact sound.setTask trivial
  · exact sound.setTask (begin_sound begun)
  · obtain ⟨allows, holds⟩ := statement_sound sound now newRow newDocument (sound.tasks t)
    exact (sound.write distinct allows).setTask holds

theorem sound_fresh (tables : Tables) : (Desk.fresh tables).Sound formats where
  complete := fun _ _ stored => nomatch stored
  reviewed := fun _ _ stored => nomatch stored
  authorized := fun _ member => nomatch member
  documents := fun _ _ stored => nomatch stored
  tasks := fun _ => trivial

theorem sound_of_run {tables : Tables} {actions : List Action} (distinct : formats.Distinct)
    (run : Run (Desk.step formats) (Desk.fresh tables) actions s) : s.Sound formats :=
  run.invariant (sound_fresh tables) fun _ _ _ _ taken sound => sound.step distinct taken

/-- What reading the file of a document gives. -/
theorem readDocument_eq (sound : s.Sound formats) {submission id : Uuid} {data : List UInt8} :
    readDocument s submission id = .ok data ↔
      ∃ doc, s.documents.lookup id = some doc ∧ doc.submissionId = submission ∧ doc.data = data := by
  unfold readDocument
  cases stored : s.documents.lookup id with
  | none => simp
  | some doc =>
    have file := (sound.documents id doc stored).file
    by_cases about : doc.submissionId = submission
    · simp [Option.filter, about, file]
    · simp [Option.filter, about]

/-- The row of a document's submission is the uploader's. -/
theorem row_of_document (sound : s.Sound formats) {id : Uuid} {doc : Document}
    (stored : s.documents.lookup id = some doc) :
    ∃ row, s.submissions.lookup doc.submissionId = some row ∧ row.userId = doc.uploadedBy :=
  (sound.documents id doc stored).owned

/-- In every run a document is given out as it was uploaded, to the user who
uploaded it and to callers with the permission who are let at that user, and to
nobody else. -/
theorem served_of_run {tables : Tables} {actions : List Action} (distinct : formats.Distinct)
    (run : Run (Desk.step formats) (Desk.fresh tables) actions s) (submission id : Uuid)
    (data : List UInt8) :
    (∀ user, streamMyDocument s user submission id = .ok data ↔
      ∃ doc, s.documents.lookup id = some doc ∧ doc.submissionId = submission ∧
        doc.uploadedBy = user ∧ doc.data = data) ∧
    ∀ claims, streamDocument s claims submission id = .ok data ↔
      checkPermission s.tables claims "kyc:view" = .ok () ∧
        ∃ doc, s.documents.lookup id = some doc ∧ doc.submissionId = submission ∧
          AdmitsTrading s.tables claims doc.uploadedBy ∧ doc.data = data := by
  have sound := sound_of_run distinct run
  constructor
  · intro user
    unfold streamMyDocument
    split
    next owner =>
      rw [readDocument_eq sound]
      refine exists_congr fun doc => and_congr_right fun stored => and_congr_right fun about => ?_
      obtain ⟨row, there, uploader⟩ := row_of_document sound stored
      obtain ⟨row', there', same⟩ := owns_of_any owner
      rw [about] at there
      cases there.symm.trans there'
      simp [← uploader, same]
    next stranger =>
      refine ⟨fun refused => by simp at refused, ?_⟩
      rintro ⟨doc, stored, rfl, rfl, _⟩
      obtain ⟨row, there, uploader⟩ := row_of_document sound stored
      exact absurd (by simp [there, uploader]) stranger
  · intro claims
    unfold streamDocument
    cases checkPermission s.tables claims "kyc:view" with
    | error => simp [bind, Except.bind]
    | ok =>
      cases there : s.submissions.lookup submission with
      | none =>
        simp only [bind, Except.bind]
        refine ⟨fun refused => by simp at refused, ?_⟩
        rintro ⟨_, doc, stored, rfl, _⟩
        obtain ⟨row, there', _⟩ := row_of_document sound stored
        simp [there] at there'
      | some row =>
        obtain ⟨allowed, resolved⟩ := resolves s.tables claims
        have scope : AdmitsTrading s.tables claims row.userId ↔
            allowed.any (row.userId ∉ ·) = false := by
          cases allowed <;> simp [AdmitsTrading, resolved]
        simp only [bind, Except.bind, resolved]
        split
        next outside =>
          refine ⟨fun refused => by simp at refused, ?_⟩
          rintro ⟨_, doc, stored, rfl, admitted, _⟩
          obtain ⟨row', there', uploader⟩ := row_of_document sound stored
          cases there.symm.trans there'
          rw [← uploader, scope, outside] at admitted
          simp at admitted
        next inside =>
          rw [readDocument_eq sound]
          simp only [true_and]
          refine exists_congr fun doc => and_congr_right fun stored => and_congr_right fun about => ?_
          obtain ⟨row', there', uploader⟩ := row_of_document sound stored
          rw [about] at there'
          cases there.symm.trans there'
          have within : allowed.any (row.userId ∉ ·) = false := Bool.eq_false_of_not_eq_true inside
          rw [← uploader, scope, within]
          simp only [true_and]

end Invariant

section Finality
variable {formats : KycFormats} {s : Desk} {effect : Effect}

/-- The submission that a call is about to write to, and the status in which
the call has seen it. -/
def Task.seen : Task → Option (Uuid × Status)
  | .insertDocument _ _ submission status | .markPending _ _ submission status
  | .mark _ _ submission status => some (submission, status)
  | _ => none

/-- A call writes to a submission while this has the status in which the call
has seen it. -/
def Desk.Prompt (s : Desk) : Action → Prop
  | .advance t _ _ _ =>
    ∀ seen ∈ (s.tasks t).seen, (s.submissions.lookup seen.1).map (·.status) = some seen.2
  | _ => True

instance (s : Desk) (action : Action) : Decidable (s.Prompt action) := by
  unfold Desk.Prompt
  split <;> infer_instance

/-- The submission that an effect changes or adds a document to. -/
def Effect.target : Effect → Option Uuid
  | .nothing | .draft .. | .vets _ => none
  | .document _ doc => some doc.submissionId
  | .pending submission .. | .marked submission .. => some submission

theorem seen_of_target {now : ℕ} {new submission : Uuid} {task : Task} (holds : s.TaskSound task)
    (target : (s.statement formats now new task).1.target = some submission) :
    ∃ status, task.seen = some (submission, status) ∧ status ≠ .approved := by
  cases task with
  | idle | findIdentity => exact nomatch target
  | insertDocument user doc named status =>
    simp only [Desk.statement] at target
    split at target
    next =>
      obtain rfl : named = submission := Option.some.inj target
      exact ⟨status, rfl, holds.2.2⟩
    next => exact nomatch target
  | markPending user types named status =>
    obtain rfl : named = submission := Option.some.inj target
    have early := holds.2.2.1
    refine ⟨status, rfl, ?_⟩
    rintro rfl
    simp at early
  | mark claims verdict named status =>
    obtain rfl : named = submission := Option.some.inj target
    have waiting := holds.1
    refine ⟨status, rfl, ?_⟩
    rintro rfl
    simp at waiting
  | checkOwner | insertDraft | readStatus | readLatest | findAddress | checkReviewer |
      readSubmission | checkScope =>
    simp only [Desk.statement] at target
    repeat' split at target
    all_goals exact nomatch target

/-- An effect on another submission leaves this one and its documents. -/
theorem write_elsewhere (allows : s.Allows formats effect) {id : Uuid} {row : Submission}
    (stored : s.submissions.lookup id = some row) (elsewhere : effect.target ≠ some id) :
    (s.write effect).submissions.lookup id = some row ∧
      ∀ d doc, doc.submissionId = id →
        ((s.write effect).documents.lookup d = some doc ↔ s.documents.lookup d = some doc) := by
  cases effect with
  | nothing | vets => exact ⟨stored, fun _ _ _ => Iff.rfl⟩
  | draft new user now =>
    have apart : id ≠ new := by
      rintro rfl
      exact allows (AList.lookup_isSome.mp (by rw [stored]; rfl))
    exact ⟨by simpa only [Desk.write, AList.lookup_insert_ne apart] using stored,
      fun _ _ _ => Iff.rfl⟩
  | document new added =>
    refine ⟨stored, fun d doc about => ?_⟩
    by_cases same : d = new
    · subst same
      have missing : s.documents.lookup d = none := AList.lookup_eq_none.mpr allows.1
      have other : added ≠ doc := by
        rintro rfl
        exact elsewhere (congrArg some about)
      simp [Desk.write, missing, other]
    · simp only [Desk.write, AList.lookup_insert_ne same]
  | pending submission user types now =>
    have apart : id ≠ submission := fun same => elsewhere (congrArg some same.symm)
    refine ⟨by rw [Desk.write, lookup_updateSubmission, if_neg apart, stored], ?_⟩
    simp [Desk.write]
  | marked submission claims verdict now =>
    have apart : id ≠ submission := fun same => elsewhere (congrArg some same.symm)
    refine ⟨by rw [Desk.write, lookup_updateSubmission, if_neg apart, stored], ?_⟩
    simp [Desk.write]

/-- The submission is as it was in `start`, and so are its documents. -/
structure Keeps (formats : KycFormats) (start : Desk) (id : Uuid) (row : Submission) (s : Desk) :
    Prop where
  sound : s.Sound formats
  row : s.submissions.lookup id = some row
  documents : ∀ d doc, doc.submissionId = id →
    (s.documents.lookup d = some doc ↔ start.documents.lookup d = some doc)

theorem Keeps.step {start after : Desk} {action : Action} {id : Uuid} {row : Submission}
    (keeps : Keeps formats start id row s) (distinct : formats.Distinct)
    (approved : row.status = .approved) (prompt : s.Prompt action)
    (taken : s.step formats action = some after) : Keeps formats start id row after := by
  obtain ⟨sound, stored, documents⟩ := keeps
  have still := sound.step distinct taken
  rcases step_cases taken with ⟨tables, rfl⟩ | ⟨t, rfl⟩ | ⟨begins, t, next, begun, rfl⟩ |
    ⟨t, now, new, rfl, newRow, newDocument, rfl⟩
  · exact ⟨still, stored, documents⟩
  · exact ⟨still, stored, documents⟩
  · exact ⟨still, stored, documents⟩
  · obtain ⟨allows, _⟩ := statement_sound sound now newRow newDocument (sound.tasks t)
    have elsewhere : (s.statement formats now new (s.tasks t)).1.target ≠ some id := by
      intro target
      obtain ⟨status, seen, open_⟩ := seen_of_target (sound.tasks t) target
      have same := prompt (id, status) seen
      rw [stored] at same
      exact open_ ((Option.some.inj same).symm.trans approved)
    obtain ⟨kept, same⟩ := write_elsewhere allows stored elsewhere
    exact ⟨still, kept, fun d doc about => (same d doc about).trans (documents d doc about)⟩

/-- What is approved stays as it is, with its documents: as long as no call
writes to a submission whose status has changed since the call read it, every
later submit, upload and review of it is refused. -/
theorem approved_final {tables : Tables} {earlier later : List Action} (distinct : formats.Distinct)
    (run : Run (Desk.step formats) (Desk.fresh tables) earlier s) {id : Uuid} {row : Submission}
    (stored : s.submissions.lookup id = some row) (approved : row.status = .approved) {after : Desk}
    (rest : GuardedRun (Desk.step formats) Desk.Prompt s later after) :
    after.submissions.lookup id = some row ∧ ∀ d doc, doc.submissionId = id →
      (after.documents.lookup d = some doc ↔ s.documents.lookup d = some doc) := by
  have begins : Keeps formats s id row s :=
    ⟨sound_of_run distinct run, stored, fun _ _ _ => Iff.rfl⟩
  have ends : Keeps formats s id row after := by
    refine rest.invariant begins ?_
    intro _ _ _ prompt taken keeps
    exact keeps.step distinct approved prompt taken
  exact ⟨ends.row, ends.documents⟩

end Finality

section Runs

/-- The texts of UUIDs that differ in their last digits, which are decimal. -/
def plainUuid (u : Uuid) : String := "00000000-0000-4000-8000-" ++ toString u

def plainKyc : KycFormats where
  parseUuid s := (List.range 9).findSome? fun n =>
    if plainUuid (100000000000 + n) = s then some (100000000000 + n) else none
  showUuid := plainUuid
  extension name :=
    let tail := name.toList.reverse.takeWhile (· ≠ '.')
    if tail.length + 1 < name.length then some (String.ofList tail.reverse) else none

theorem toList_plainUuid (u : Uuid) :
    (plainUuid u).toList = "00000000-0000-4000-8000-".toList ++ Nat.toDigits 10 u := by
  have digits : (toString u).toList = Nat.toDigits 10 u := Nat.toList_repr
  unfold plainUuid
  rw [String.toList_append, digits]

theorem not_mem_plainUuid {c : Char} (solid : c.isDigit = false)
    (front : c ∉ "00000000-0000-4000-8000-".toList) (u : Uuid) : c ∉ (plainUuid u).toList := by
  rw [toList_plainUuid, List.mem_append, not_or]
  refine ⟨front, fun member => ?_⟩
  have digit := Nat.isDigit_of_mem_toDigits (by norm_num) (by norm_num) member
  exact absurd (solid.symm.trans digit) (by decide)

theorem plainKyc_distinct : plainKyc.Distinct where
  injective u v same := by
    have texts := congrArg String.toList same
    simp only [plainKyc, toList_plainUuid, List.append_cancel_left_eq] at texts
    have values := congrArg (Nat.ofDigitChars 10 · 0) texts
    simpa only [Nat.ofDigitChars_ten_toDigits] using values
  slashes := not_mem_plainUuid (by decide) (by decide)
  dots := not_mem_plainUuid (by decide) (by decide)

/-- A client, and a super admin. -/
def office : Tables where
  users := (∅ : FiniteTable Uuid User).insert 100000000007
    ⟨some "Ann", some "Lee", "ann@desk", none, none, false⟩
  managers := ∅
  tagAssignments := []
  permissionProfileGrants := []
  leads := []
  userGroups := ∅

/-- A call begins and executes some statements, one after the other. -/
def call (start : ℕ → Action) (t now : ℕ) (ids : List Uuid) : List Action :=
  start t :: ids.map fun id => .advance t now id false

/-- The client uploads two documents. -/
def uploads : List Action :=
  call (.upload · 100000000007 [.documentType "identity_front",
    .file (some "image/png") (some "id.png") [1]]) 0 1 [100000000001, 100000000002] ++
  call (.upload · 100000000007 [.submissionId (plainUuid 100000000001),
    .documentType " proof_of_address", .file none none [2]]) 0 2
      [100000000003, 100000000003, 100000000003]

/-- The client submits, and a super admin approves the submission. -/
def approval : List Action :=
  call (.submit · 100000000007 "passport" "utility") 0 3 (List.replicate 4 100000000004) ++
  call (.review · ⟨3, "super_admin"⟩ .approve 100000000001) 0 4 (List.replicate 4 100000000004)

def approvedRow : Submission where
  userId := 100000000007
  status := .approved
  identityDocType := some "passport"
  addressDocType := some "utility"
  submittedAt := 3
  reviewedAt := some 4
  reviewedById := some 3

theorem eval_approval : (runGuarded (Desk.step plainKyc) (fun _ _ => True) (Desk.fresh office)
    (uploads ++ approval)).map (·.submissions.lookup 100000000001) =
      some (some approvedRow) := by decide +kernel

theorem served_approval : ∃ s : Desk, s.submissions.lookup 100000000001 = some approvedRow ∧
    ((∀ user, streamMyDocument s user 100000000001 100000000002 = .ok [1] ↔
      ∃ doc, s.documents.lookup 100000000002 = some doc ∧ doc.submissionId = 100000000001 ∧
        doc.uploadedBy = user ∧ doc.data = [1]) ∧
    ∀ claims, streamDocument s claims 100000000001 100000000002 = .ok [1] ↔
      checkPermission s.tables claims "kyc:view" = .ok () ∧
        ∃ doc, s.documents.lookup 100000000002 = some doc ∧ doc.submissionId = 100000000001 ∧
          AdmitsTrading s.tables claims doc.uploadedBy ∧ doc.data = [1]) := by
  obtain ⟨s, run, stored⟩ := GuardedRun.of_eval_map eval_approval
  exact ⟨s, stored, served_of_run plainKyc_distinct run 100000000001 100000000002 [1]⟩

/-- The client submits once more. -/
def resubmission : List Action := call (.submit · 100000000007 "passport" "tax") 0 5 [100000000004]

theorem approved_resubmission : ∃ s after : Desk, s.submissions.lookup 100000000001 = some approvedRow ∧
    GuardedRun (Desk.step plainKyc) Desk.Prompt s resubmission after ∧
      after.submissions.lookup 100000000001 = some approvedRow ∧
        ∀ d doc, doc.submissionId = 100000000001 →
          (after.documents.lookup d = some doc ↔ s.documents.lookup d = some doc) := by
  have eval : (runGuarded (Desk.step plainKyc) (fun _ _ => True) (Desk.fresh office)
      (uploads ++ approval)).map (fun s => (s.submissions.lookup 100000000001,
        (runGuarded (Desk.step plainKyc) Desk.Prompt s resubmission).isSome)) =
          some (some approvedRow, true) := by decide +kernel
  obtain ⟨s, run, shown⟩ := GuardedRun.of_eval_map eval
  obtain ⟨stored, goesOn⟩ := Prod.mk.inj shown
  obtain ⟨after, reached⟩ := Option.isSome_iff_exists.mp goesOn
  have rest := GuardedRun.of_eval reached
  exact ⟨s, after, stored, rest, approved_final plainKyc_distinct run stored rfl rest⟩

-- a submit that has read the draft before another one was approved takes the approval back
example : (runGuarded (Desk.step plainKyc) (fun _ _ => True) (Desk.fresh office)
    (uploads ++ call (.submit · 100000000007 "passport" "tax") 1 3 (List.replicate 3 100000000004) ++
      approval ++ [.advance 1 5 100000000004 false])).map
        (fun s => (s.submissions.lookup 100000000001).map (·.status)) = some (some .pending) := by
  decide +kernel

end Runs
end TradingPlatform.Kyc
