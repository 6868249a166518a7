import TradingPlatform.Access.UserEvents
import Mathlib.Logic.Equiv.Nat

namespace TradingPlatform.Access
open Pages RequestTexts

/-- The cursors of the listing can be read back: the texts of the libraries are
read as what they were printed for, and a time has no bar in it. -/
structure EventFormats.ReadsBack (formats : EventFormats) : Prop where
  times : ∀ t, formats.parseRfc3339 (formats.showRfc3339 t) = some t
  bars : ∀ t, '|' ∉ (formats.showRfc3339 t).toList
  ids : ∀ u, formats.parseUuid (formats.showUuid u) = some u

/-- The tables at a request that a caller is let at: they have the permission,
the user asked for is theirs, and the events in question are of named users. -/
structure Admitted (formats : EventFormats) (claims : Claims) (q : AdminUserEventsQuery) where
  desk : EventsDesk
  allowed : Option (List Uuid)
  permission : checkPermission desk.tables claims "user_events:view" = .ok ()
  scope : eventScope desk.tables claims = .ok allowed
  subject : ∀ u ∈ q.userId, ensureUserInAllowedGroups desk.tables allowed u = .ok ()
  named : ∀ row ∈ eventRows formats desk q allowed, ∀ user,
    desk.tables.users.lookup row.2.subjectUserId = some user → user.fullName.isSome = true

section Cursor
variable {formats : EventFormats} {d : EventsDesk} {q : AdminUserEventsQuery}
  {allowed : Option (List Uuid)} {claims : Claims}

theorem parseCursor_showCursor (reads : formats.ReadsBack) (key : ℤ ×ₗ Uuid) :
    parseCursor formats (some (showCursor formats key)) = some key := by
  have free := reads.bars (ofLex key).1
  have solid : ∀ c ∈ (formats.showRfc3339 (ofLex key).1).toList, decide (c ≠ '|') = true :=
    fun c member => decide_eq_true fun bar => free (bar ▸ member)
  have text : (showCursor formats key).toList = (formats.showRfc3339 (ofLex key).1).toList ++
      '|' :: (formats.showUuid (ofLex key).2).toList := by
    simp [showCursor]
  have front : (showCursor formats key).toList.takeWhile (· ≠ '|') =
      (formats.showRfc3339 (ofLex key).1).toList := by
    rw [text, List.takeWhile_append_of_pos solid]
    simp
  have back : (showCursor formats key).toList.dropWhile (· ≠ '|') =
      '|' :: (formats.showUuid (ofLex key).2).toList := by
    rw [text, List.dropWhile_append_of_pos solid]
    simp
  simp only [parseCursor, Option.bind_some, front, back, String.ofList_toList, reads.times,
    reads.ids]
  rfl

theorem pageLimit_pos : 0 < pageLimit q := by
  unfold pageLimit
  omega

/-- A scope without groups is a listing without events. -/
theorem eventRows_of_empty : eventRows formats d q (some []) = [] := by
  refine List.filter_eq_nil_iff.mpr fun row _ => ?_
  cases stored : d.tables.users.lookup row.2.subjectUserId with
  | none => simp
  | some user => cases user.groupId <;> simp [eventMatches]

theorem nodup_eventKeys : ((eventRows formats d q allowed).map eventKey).Nodup := by
  have ids : ((d.events.entries.map fun row => (row.1, row.2)).map Prod.fst).Nodup := by
    rw [List.map_map]
    exact d.events.nodupKeys
  have kept : ((eventRows formats d q allowed).map Prod.fst).Nodup :=
    ids.sublist (List.filter_sublist.map _)
  have factored : (eventRows formats d q allowed).map Prod.fst =
      ((eventRows formats d q allowed).map eventKey).map fun key => (ofLex key).2 := by
    rw [List.map_map]
    rfl
  rw [factored] at kept
  exact kept.of_map _

/-- The page of a listing by keys is what the service answers with. -/
theorem listEvents_eq (reads : formats.ReadsBack) (cursor : Option (ℤ ×ₗ Uuid))
    (named : ∀ row ∈ eventRows formats d q allowed, ∀ user,
      d.tables.users.lookup row.2.subjectUserId = some user → user.fullName.isSome = true) :
    ∃ response, listEvents formats d { q with cursor := cursor.map (showCursor formats) } allowed =
        .ok response ∧
      response.items = (keysetPage eventKey (pageLimit q) (eventRows formats d q allowed)
        cursor).1.map (eventItem d.tables) ∧
      response.cursor = (keysetPage eventKey (pageLimit q) (eventRows formats d q allowed)
        cursor).2.map (showCursor formats) := by
  have read : parseCursor formats (cursor.map (showCursor formats)) = cursor := by
    cases cursor with
    | none => rfl
    | some key => exact parseCursor_showCursor reads key
  by_cases empty : allowed = some []
  · subst empty
    refine ⟨_, if_pos rfl, ?_, ?_⟩ <;> simp [eventRows_of_empty, keysetPage, inOrder]
  have whole : ¬ ((inOrder eventKey (eventRows formats d q allowed) cursor).take
      (pageLimit q + 1)).any (fun row =>
        (d.tables.users.lookup row.2.subjectUserId).any (·.fullName.isNone)) = true := by
    intro nameless
    obtain ⟨row, taken, missing⟩ := List.any_eq_true.mp nameless
    obtain ⟨user, stored, unnamed⟩ := (Option.any_eq_true _ _).mp missing
    have present := named row (mem_inOrder.mp (List.mem_of_mem_take taken)).1 user stored
    rw [Option.isNone_iff_eq_none.mp unnamed] at present
    simp at present
  have answered : listEvents formats d { q with cursor := cursor.map (showCursor formats) } allowed =
      .ok
        { items := (keysetPage eventKey (pageLimit q) (eventRows formats d q allowed) cursor).1.map
            (eventItem d.tables)
          cursor := if pageLimit q < ((inOrder eventKey (eventRows formats d q allowed) cursor).take
              (pageLimit q + 1)).length then
              (keysetPage eventKey (pageLimit q) (eventRows formats d q allowed) cursor).1.getLast?.map
                fun row => showCursor formats (eventKey row)
            else none
          hasMore := pageLimit q < ((inOrder eventKey (eventRows formats d q allowed) cursor).take
              (pageLimit q + 1)).length
          total := (eventRows formats d q allowed).length } := by
    rw [listEvents, if_neg empty]
    dsimp only
    rw [read]
    exact if_neg whole
  refine ⟨_, answered, rfl, ?_⟩
  simp only [keysetPage]
  split
  next => rw [Option.map_map]; rfl
  next => rfl

end Cursor

section History
variable {formats : EventFormats} {claims : Claims} {q : AdminUserEventsQuery}

/-- The page of an answer, with its cursor. -/
def historyPage (formats : EventFormats) (claims : Claims) (q : AdminUserEventsQuery)
    (s : Admitted formats claims q) (cursor : Option String) :
    List UserEventListItem × Option String :=
  match listUserEvents formats s.desk claims { q with cursor } with
  | .ok response => (response.items, response.cursor)
  | .error _ => ([], none)

/-- The event is one of those that the query is about, and its subject is one
that the caller is held to. -/
def Admitted.Lists (s : Admitted formats claims q) (id : Uuid) (e : UserEvent) : Prop :=
  s.desk.events.lookup id = some e ∧ ∃ su, s.desk.tables.users.lookup e.subjectUserId = some su ∧
    eventMatches formats q s.allowed s.desk.now e su = true

theorem mem_eventRows {s : Admitted formats claims q} {row : Uuid × UserEvent} :
    row ∈ eventRows formats s.desk q s.allowed ↔ s.Lists row.1 row.2 := by
  simp only [eventRows, List.mem_filter, List.mem_map, Option.any_eq_true, Admitted.Lists,
    AList.mem_lookup_iff, ← Option.mem_def]
  constructor
  · rintro ⟨⟨entry, member, rfl⟩, su, stored, holds⟩
    exact ⟨member, su, stored, holds⟩
  · rintro ⟨member, su, stored, holds⟩
    exact ⟨⟨⟨row.1, row.2⟩, member, rfl⟩, su, stored, holds⟩

theorem historyPage_eq (reads : formats.ReadsBack) (s : Admitted formats claims q)
    (cursor : Option (ℤ ×ₗ Uuid)) :
    historyPage formats claims q s (cursor.map (showCursor formats)) =
      ((keysetPage eventKey (pageLimit q) (eventRows formats s.desk q s.allowed) cursor).1.map
          (eventItem s.desk.tables),
        (keysetPage eventKey (pageLimit q) (eventRows formats s.desk q s.allowed) cursor).2.map
          (showCursor formats)) := by
  obtain ⟨response, listed, items, next⟩ := listEvents_eq reads cursor s.named
  have answered : listUserEvents formats s.desk claims
      { q with cursor := cursor.map (showCursor formats) } = .ok response := by
    cases asked : q.userId with
    | none =>
      simp only [asked] at listed
      simp only [listUserEvents, s.permission, s.scope, bind, Except.bind, listed]
    | some u =>
      have let_ := s.subject u asked
      simp only [asked] at listed
      simp only [listUserEvents, s.permission, s.scope, bind, Except.bind, let_, listed]
  simp only [historyPage, answered, items, next]

/-- A member of staff is let at the subjects of the events in question. -/
theorem Admitted.Lists.admitted {s : Admitted formats claims q} {id : Uuid} {e : UserEvent}
    (lists : s.Lists id e) (staff : (claims.isAdmin || claims.isSuperAdmin) = false) :
    AdmitsUser s.desk.tables claims e.subjectUserId := by
  obtain ⟨_, su, stored, holds⟩ := lists
  have scope := s.scope
  simp only [eventScope, staff, Bool.false_eq_true, if_false] at scope
  refine ⟨s.allowed, scope, ?_⟩
  simp only [eventMatches, Bool.and_eq_true, Bool.not_eq_true'] at holds
  cases groups : s.allowed with
  | none => rfl
  | some ids =>
    have inGroup : su.groupId.any (· ∈ ids) = true := by
      have held := holds.1.2
      rw [groups] at held
      exact held
    obtain ⟨group, same, allowed⟩ := (Option.any_eq_true _ _).mp inGroup
    rw [ensureUserInAllowedGroups_some, mem_userIdsInGroups]
    exact ⟨su, stored, holds.1.1.1.1.1.1.1.1, group, by simpa using allowed, same⟩

/-- Whatever is recorded or changed between the requests, whoever follows the
cursors to the end has the events from the latest and none twice, each was one
that the query was about and of a user they were let at, and an event that was
so at every request is among them; and while nothing changes there is an end. -/
theorem history_of_walk (reads : formats.ReadsBack) :
    (∀ visits, Walk (historyPage formats claims q) none visits →
      (collected visits).Pairwise (fun a b =>
        toLex (b.createdAt, b.id) < toLex (a.createdAt, a.id)) ∧
      (∀ visit ∈ visits, ∀ item ∈ visit.2, ∃ e, visit.1.Lists item.id e ∧
        item = eventItem visit.1.desk.tables (item.id, e) ∧
        ((claims.isAdmin || claims.isSuperAdmin) = false →
          AdmitsUser visit.1.desk.tables claims item.subjectUserId)) ∧
      ∀ id e, (∀ visit ∈ visits, visit.1.Lists id e) → ∃ item ∈ collected visits, item.id = id) ∧
    ∀ s : Admitted formats claims q, ∃ visits, Walk (historyPage formats claims q) none visits ∧
      ∀ visit ∈ visits, visit.1 = s := by
  let rows := fun s : Admitted formats claims q => eventRows formats s.desk q s.allowed
  let plainPage := fun s cursor => keysetPage eventKey (pageLimit q) (rows s) cursor
  have encodes : Encodes plainPage (historyPage formats claims q)
      (fun s => eventItem s.desk.tables) (showCursor formats) fun _ => True :=
    ⟨fun s cursor _ => historyPage_eq reads s cursor, fun _ _ _ _ _ => trivial⟩
  have encoded (visits : List (Admitted formats claims q × List UserEventListItem)) :
      Walk (historyPage formats claims q) none visits ↔ ∃ plain, Walk plainPage none plain ∧
        visits = plain.map fun visit => (visit.1, visit.2.map (eventItem visit.1.desk.tables)) :=
    walk_encoded encodes (c := none) trivial
  constructor
  · intro visits walk
    obtain ⟨plain, pages, rfl⟩ := (encoded visits).mp walk
    obtain ⟨sorted, _, sound, complete⟩ := collected_of_serves
      (fun s cursor => keysetPage_serves rows s pageLimit_pos nodup_eventKeys) pages
    have keys : (collected (plain.map fun visit =>
          (visit.1, visit.2.map (eventItem visit.1.desk.tables)))).map
            (fun item => toLex (item.createdAt, item.id)) = (collected plain).map eventKey :=
      map_collected (f := fun s : Admitted formats claims q => eventItem s.desk.tables)
        (fun _ _ => rfl) plain
    refine ⟨?_, ?_, ?_⟩
    · have ordered : ((collected plain).map eventKey).Pairwise fun a b => b < a :=
        List.pairwise_map.mpr sorted
      rw [← keys] at ordered
      exact List.pairwise_map.mp ordered
    · intro visit member item shown
      obtain ⟨before, listed, rfl⟩ := List.mem_map.mp member
      obtain ⟨row, inPage, rfl⟩ := List.mem_map.mp shown
      have lists := mem_eventRows.mp (sound before listed row inPage)
      exact ⟨row.2, lists, rfl, lists.admitted⟩
    · intro id e throughout
      have row : (id, e) ∈ collected plain := by
        refine complete (id, e) (fun visit member => mem_eventRows.mpr ?_) fun _ none_ => nomatch none_
        exact throughout _ (List.mem_map_of_mem member)
      obtain ⟨visit, member, inPage⟩ := mem_collected.mp row
      refine ⟨eventItem visit.1.desk.tables (id, e), mem_collected.mpr ⟨_, List.mem_map_of_mem member, ?_⟩,
        rfl⟩
      exact List.mem_map_of_mem inPage
  · intro s
    obtain ⟨plain, pages, stays⟩ := exists_keysets rows s pageLimit_pos nodup_eventKeys none
    refine ⟨_, (encoded _).mpr ⟨plain, pages, rfl⟩, fun visit member => ?_⟩
    obtain ⟨before, listed, rfl⟩ := List.mem_map.mp member
    exact stays before listed

/-- A code in which one value has a text of its own and the others are counted out. -/
def showWith {α : Type} [DecidableEq α] (code : α ≃ ℕ) (known : α) (text : String) (a : α) : String :=
  if a = known then text else String.ofList (List.replicate (code a) 'x')

def parseWith {α : Type} (code : α ≃ ℕ) (known : α) (text s : String) : Option α :=
  if s = text then some known else some (code.symm s.toList.length)

theorem parseWith_showWith {α : Type} [DecidableEq α] {code : α ≃ ℕ} {known : α} {text : String}
    {c : Char} (other : c ≠ 'x') (solid : c ∈ text.toList) (a : α) :
    parseWith code known text (showWith code known text a) = some a := by
  by_cases same : a = known
  · simp [parseWith, showWith, same]
  · have apart : String.ofList (List.replicate (code a) 'x') ≠ text := by
      rintro rfl
      rw [String.toList_ofList] at solid
      exact other (List.eq_of_mem_replicate solid)
    simp [parseWith, showWith, same, apart]

def epochFormats : EventFormats where
  parseRfc3339 := parseWith Equiv.intEquivNat 0 "1970-01-01T00:00:00+00:00"
  showRfc3339 := showWith Equiv.intEquivNat 0 "1970-01-01T00:00:00+00:00"
  parseDay s := if s = "1970-01-01" then some 0 else none
  parseUuid := parseWith (Equiv.refl ℕ) 1 "00000000-0000-0000-0000-000000000001"
  showUuid := showWith (Equiv.refl ℕ) 1 "00000000-0000-0000-0000-000000000001"
  toLowercase := id
  lower := id

theorem epochFormats_readsBack : epochFormats.ReadsBack where
  times := parseWith_showWith (c := '1') (by decide) (by decide)
  bars := by
    intro t bar
    simp only [epochFormats, showWith] at bar
    split at bar
    next => exact absurd bar (by decide)
    next =>
      rw [String.toList_ofList] at bar
      exact absurd (List.eq_of_mem_replicate bar) (by decide)
  ids := parseWith_showWith (c := '0') (by decide) (by decide)

/-- A login of one user, as an admin finds it in the list. -/
def loginRecorded : Admitted epochFormats ⟨3, "admin"⟩ {} where
  desk :=
    { tables :=
        { users := (∅ : FiniteTable Uuid User).insert 7
            ⟨some "Ann", some "Lee", "ann@desk", none, none, false⟩
          managers := ∅
          tagAssignments := []
          permissionProfileGrants := []
          leads := []
          userGroups := ∅ }
      events := (∅ : FiniteTable Uuid UserEvent).insert 1
        ⟨7, some 7, "auth.login", "auth", none, none, "unknown", none, none, "", 0⟩
      now := 0 }
  allowed := none
  permission := rfl
  scope := rfl
  subject := by simp
  named := by decide

theorem history_of_login :
    ∃ visits, Walk (historyPage epochFormats ⟨3, "admin"⟩ {}) none visits ∧
      ∀ visit ∈ visits, visit.1 = loginRecorded :=
  (history_of_walk epochFormats_readsBack).2 loginRecorded

end History
end TradingPlatform.Access
