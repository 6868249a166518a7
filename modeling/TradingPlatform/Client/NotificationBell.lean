import TradingPlatform.Client.Notifications

namespace TradingPlatform.Notifications
open RowQueries StepRuns

section Page
variable {s : Store} {n : Notification} {items raw : List Notification} {id : String}

/-- Not two notices of one close. -/
def Differ (a b : Notification) : Prop :=
  a.closes = true → b.closes = true → a.kind = b.kind →
    a.about.positionId = b.about.positionId → a.message ≠ b.message

def unread (items : List Notification) : ℕ := (items.filter fun n => !n.read).length

/-- What the bell can rely on in the store. -/
structure Tidy (s : Store) : Prop where
  counted : s.unreadCount = unread s.items
  distinct : (s.items.map (·.id)).Nodup
  once : s.items.Pairwise Differ

theorem Tidy.clear : Tidy s.clear := ⟨rfl, .nil, .nil⟩

theorem mem_push {m : Notification} (member : m ∈ (s.push n).items) : m = n ∨ m ∈ s.items := by
  unfold Store.push at member
  split_ifs at member
  · exact .inr member
  · exact .inr member
  · exact List.mem_cons.mp member

theorem Tidy.push (tidy : Tidy s) (new : n.read = false) : Tidy (s.push n) := by
  unfold Store.push
  split_ifs with known shown
  · exact tidy
  · exact tidy
  · simp only [not_or, List.any_eq_true, decide_eq_true_eq, not_exists, not_and] at known
    refine ⟨?_, ?_, List.pairwise_cons.mpr ⟨fun m member closes _ kind position message => ?_, tidy.once⟩⟩
    · simp [unread, new, tidy.counted]
    · refine List.nodup_cons.mpr ⟨fun member => ?_, tidy.distinct⟩
      obtain ⟨m, listed, same⟩ := List.mem_map.mp member
      exact known.2 m listed same
    · have close : closeKinds.contains n.kind = true := by
        unfold Notification.closes at closes
        rw [Bool.and_eq_true] at closes
        exact closes.1
      refine shown ⟨closes, List.any_eq_true.mpr ⟨m, member, ?_⟩⟩
      rw [← kind, close, position, message]
      simp

def marked (id : String) (item : Notification) : Notification :=
  if item.id = id then { item with read := true } else item

theorem marked_id (item : Notification) : (marked id item).id = item.id := by
  unfold marked
  split <;> rfl

theorem Differ.of_marked {f : Notification → Notification}
    (kept : ∀ n, f n = { n with read := (f n).read }) (once : items.Pairwise Differ) :
    (items.map f).Pairwise Differ := by
  refine List.pairwise_map.mpr (once.imp ?_)
  intro a b differ
  rw [kept a, kept b]
  exact differ

theorem marked_eq (item : Notification) :
    marked id item = { item with read := (marked id item).read } := by
  unfold marked
  split <;> rfl

theorem unread_marked (distinct : (items.map (·.id)).Nodup) (member : n ∈ items)
    (new : n.read = false) : unread (items.map (marked n.id)) + 1 = unread items := by
  induction items with
  | nil => cases member
  | cons first rest ih =>
    obtain ⟨fresh, distinct⟩ := List.nodup_cons.mp distinct
    rcases List.mem_cons.mp member with rfl | later
    · have same : rest.map (marked n.id) = rest := by
        refine (List.map_congr_left fun m listed => ?_).trans (List.map_id _)
        have other : m.id ≠ n.id := fun same => fresh (List.mem_map.mpr ⟨m, listed, same⟩)
        exact if_neg other
      rw [List.map_cons, same]
      simp [unread, marked, new]
    · have other : first.id ≠ n.id := fun same => fresh (List.mem_map.mpr ⟨n, later, same.symm⟩)
      have before : marked n.id first = first := if_neg other
      have counted := ih distinct later
      rw [List.map_cons, before]
      unfold unread at counted ⊢
      rw [List.filter_cons, List.filter_cons]
      split
      · rw [List.length_cons, List.length_cons]
        omega
      · exact counted

theorem Tidy.markedRead (tidy : Tidy s) (id : String) : Tidy (s.markedRead id) := by
  unfold Store.markedRead
  split
  · rename_i item found
    have member : item ∈ s.items := List.mem_of_find?_eq_some found
    obtain rfl : item.id = id := by simpa using List.find?_some found
    split_ifs with old
    · exact tidy
    · rw [Bool.not_eq_true] at old
      have counted := unread_marked tidy.distinct member old
      refine ⟨?_, ?_, Differ.of_marked marked_eq tidy.once⟩
      · have before := tidy.counted
        change s.unreadCount - 1 = unread (s.items.map (marked item.id))
        omega
      · have ids : (s.items.map (marked item.id)).map (·.id) = s.items.map (·.id) := by
          rw [List.map_map]
          exact List.map_congr_left fun m _ => marked_id m
        exact ids ▸ tidy.distinct
  · exact tidy

theorem Tidy.markedAllRead (tidy : Tidy s) : Tidy s.markedAllRead := by
  refine ⟨?_, ?_, Differ.of_marked (fun _ => rfl) tidy.once⟩
  · have none_left : ∀ n ∈ s.markedAllRead.items, ¬ (!n.read) = true := by
      intro n member
      obtain ⟨m, -, rfl⟩ := List.mem_map.mp member
      simp
    rw [unread, List.filter_eq_nil_iff.mpr none_left]
    rfl
  · have ids : (s.items.map fun item => { item with read := true }).map (·.id) =
        s.items.map (·.id) := by
      rw [List.map_map]
      rfl
    exact ids ▸ tidy.distinct

theorem withoutRepeats_sublist (seen : List String) (raw : List Notification) :
    (withoutRepeats seen raw).Sublist raw := by
  induction raw generalizing seen with
  | nil => exact .slnil
  | cons n rest ih =>
    unfold withoutRepeats
    split_ifs
    · exact (ih _).cons _
    · exact (ih _).cons_cons _
    · exact (ih _).cons_cons _

theorem key_of_mem {seen : List String} (member : n ∈ withoutRepeats seen raw)
    (closes : n.closes = true) : n.key ∉ seen := by
  induction raw generalizing seen with
  | nil => cases member
  | cons first rest ih =>
    unfold withoutRepeats at member
    split_ifs at member with close known
    · exact ih member
    · rcases List.mem_cons.mp member with rfl | later
      · simpa using known
      · exact fun old => ih later (List.mem_cons_of_mem _ old)
    · rcases List.mem_cons.mp member with rfl | later
      · exact absurd closes close
      · exact ih later

theorem withoutRepeats_once (seen : List String) (raw : List Notification) :
    (withoutRepeats seen raw).Pairwise Differ := by
  induction raw generalizing seen with
  | nil => exact .nil
  | cons n rest ih =>
    unfold withoutRepeats
    split_ifs with close known
    · exact ih _
    · refine List.pairwise_cons.mpr ⟨?_, ih _⟩
      intro m member _ closes kind position message
      have same : m.key = n.key := by rw [Notification.key, Notification.key, kind, position, message]
      exact key_of_mem member closes (same ▸ List.mem_cons_self)
    · exact List.pairwise_cons.mpr ⟨fun m _ closes => absurd closes close, ih _⟩

theorem Tidy.loaded (distinct : (raw.map (·.id)).Nodup) : Tidy (s.loaded raw) where
  counted := rfl
  distinct := distinct.sublist ((withoutRepeats_sublist [] raw).map _)
  once := withoutRepeats_once [] raw

/-- A loading mark does not matter. -/
theorem Tidy.loading (tidy : Tidy s) (isLoading : Bool) : Tidy { s with isLoading := isLoading } :=
  ⟨tidy.counted, tidy.distinct, tidy.once⟩

theorem settled_failed (status : Option ℕ) : s.settled .load (.failed status) =
    if status = some 401 ∨ status = some 404 ∨ status = some 500 then
      { s.clear with isLoading := false }
    else { s with isLoading := false } := rfl

theorem Tidy.settled (tidy : Tidy s) {request : Request} {answer : Answer}
    (distinct : ∀ raw, answer = .listed raw → (raw.map (·.id)).Nodup) :
    Tidy (s.settled request answer) := by
  cases request with
  | markRead id =>
    cases answer with
    | marked => exact tidy.markedRead id
    | listed raw => exact tidy
    | failed status => exact tidy
  | markAllRead =>
    cases answer with
    | marked => exact tidy.markedAllRead
    | listed raw => exact tidy
    | failed status => exact tidy
  | load =>
    cases answer with
    | marked => exact tidy
    | listed raw => exact (Tidy.loaded (distinct raw rfl)).loading false
    | failed status =>
      rw [settled_failed]
      split_ifs
      · exact Tidy.clear.loading false
      · exact tidy.loading false

theorem mem_markedRead (member : n ∈ (s.markedRead id).items) :
    n ∈ s.items ∨ ∃ m ∈ s.items, n = marked id m := by
  unfold Store.markedRead at member
  split at member
  · split_ifs at member
    · exact .inl member
    · obtain ⟨m, listed, same⟩ := List.mem_map.mp member
      exact .inr ⟨m, listed, same.symm⟩
  · exact .inl member

/-- What is shown after an answer was shown before or was listed, but for its
read mark. -/
theorem mem_settled {request : Request} {answer : Answer}
    (member : n ∈ (s.settled request answer).items) :
    (∃ m ∈ s.items, n = { m with read := n.read }) ∨ ∃ raw, answer = .listed raw ∧ n ∈ raw := by
  have kept : n ∈ s.items → ∃ m ∈ s.items, n = { m with read := n.read } :=
    fun shown => ⟨n, shown, rfl⟩
  cases request with
  | markRead id =>
    cases answer with
    | marked =>
      rcases mem_markedRead member with same | ⟨m, listed, rfl⟩
      · exact .inl (kept same)
      · exact .inl ⟨m, listed, marked_eq m⟩
    | listed raw => exact .inl (kept member)
    | failed status => exact .inl (kept member)
  | markAllRead =>
    cases answer with
    | marked =>
      obtain ⟨m, listed, rfl⟩ := List.mem_map.mp member
      exact .inl ⟨m, listed, rfl⟩
    | listed raw => exact .inl (kept member)
    | failed status => exact .inl (kept member)
  | load =>
    cases answer with
    | marked => exact .inl (kept member)
    | listed raw => exact .inr ⟨raw, rfl, (withoutRepeats_sublist [] raw).subset member⟩
    | failed status =>
      rw [settled_failed] at member
      split_ifs at member
      · cases member
      · exact .inl (kept member)

end Page

section Rows
variable {rows rows' : Table} {user id : String} {n : Notification} {row : Row}

/-- Rows only become read, and are added. -/
def Grows (rows rows' : Table) : Prop := ∀ id row, rows.lookup id = some row →
  rows'.lookup id = some row ∨ rows'.lookup id = some { row with read := true }

/-- Statements that mark rows as read. -/
def Marks (rows rows' : Table) : Prop :=
  ∀ id, rows'.lookup id = rows.lookup id ∨
    ∃ row, rows.lookup id = some row ∧ rows'.lookup id = some { row with read := true }

theorem Marks.grows (marks : Marks rows rows') : Grows rows rows' := by
  intro id row stored
  rcases marks id with same | ⟨row', stored', marked⟩
  · exact .inl (same.trans stored)
  · obtain rfl := Option.some.inj (stored'.symm.trans stored)
    exact .inr marked

theorem Marks.absent (marks : Marks rows rows') (absent : rows.lookup id = none) :
    rows'.lookup id = none := by
  rcases marks id with same | ⟨row, stored, -⟩
  · exact same.trans absent
  · exact nomatch absent.symm.trans stored

theorem Marks.refl (rows : Table) : Marks rows rows := fun _ => .inl rfl

theorem marks_markNotificationRead (rows : Table) (user id : String) :
    Marks rows (markNotificationRead rows user id) := by
  unfold markNotificationRead
  split
  · rename_i row stored
    split_ifs
    · intro id'
      by_cases same : id' = id
      · subst same
        exact .inr ⟨row, stored, AList.lookup_insert _⟩
      · exact .inl (AList.lookup_insert_ne same)
    · exact .refl rows
  · exact .refl rows

theorem marks_markAllNotificationsRead (rows : Table) (user : String) :
    Marks rows (markAllNotificationsRead rows user) := by
  intro id
  rw [markAllNotificationsRead, lookup_updateWhere]
  cases rows.lookup id with
  | none => exact .inl rfl
  | some row =>
    rw [Option.map_some]
    split_ifs
    · exact .inr ⟨row, rfl, rfl⟩
    · exact .inl rfl

theorem read_of_markNotificationRead
    (stored : (markNotificationRead rows user id).lookup id = some row) (mine : row.userId = user) :
    row.read = true := by
  unfold markNotificationRead at stored
  split at stored
  · rename_i before old
    split_ifs at stored with unread
    · rw [AList.lookup_insert] at stored
      obtain rfl := Option.some.inj stored
      rfl
    · obtain rfl := Option.some.inj (old.symm.trans stored)
      simpa [mine] using unread
  · rename_i absent
    exact nomatch absent.symm.trans stored

theorem read_of_markAllNotificationsRead
    (stored : (markAllNotificationsRead rows user).lookup id = some row) (mine : row.userId = user) :
    row.read = true := by
  rw [markAllNotificationsRead, lookup_updateWhere] at stored
  obtain ⟨before, -, same⟩ := Option.map_eq_some_iff.mp stored
  split_ifs at same with unread
  · obtain rfl := same
    rfl
  · obtain rfl := same
    simpa [mine] using unread

/-- The notification is the row, but for its read mark. -/
def Stands (rows : Table) (n : Notification) (row : Row) : Prop :=
  rows.lookup n.id = some row ∧ n = { row.toNotification n.id with read := n.read }

theorem Stands.grows (stands : Stands rows n row) (grows : Grows rows rows') : ∃ row',
    Stands rows' n row' ∧ row'.userId = row.userId ∧ row'.audience = row.audience ∧
      (row.read = true → row'.read = true) := by
  obtain ⟨stored, same⟩ := stands
  rcases grows _ _ stored with kept | marked
  · exact ⟨row, ⟨kept, same⟩, rfl, rfl, id⟩
  · exact ⟨{ row with read := true }, ⟨marked, same⟩, rfl, rfl, fun _ => rfl⟩

theorem Stands.marked (stands : Stands rows n row) (read : Bool) :
    Stands rows { n with read := read } row := by
  obtain ⟨stored, same⟩ := stands
  exact ⟨stored, congrArg (fun m : Notification => { m with read := read }) same⟩

/-- What `get_notifications` lists: rows of the caller as they are, none twice. -/
theorem listed_of_getNotifications {allowed : Option (Option (List String))}
    {fetched : Option (List (String × Row))} {items : List Notification}
    (listed : getNotifications rows user allowed fetched = some items) :
    (items.map (·.id)).Nodup ∧ ∀ n ∈ items, ∃ row, rows.lookup n.id = some row ∧
      n = row.toNotification n.id ∧ row.userId = user := by
  have empty : some [] = some items → (items.map (·.id)).Nodup ∧ ∀ n ∈ items, ∃ row,
      rows.lookup n.id = some row ∧ n = row.toNotification n.id ∧ row.userId = user := by
    intro same
    obtain rfl := Option.some.inj same
    exact ⟨.nil, nofun⟩
  unfold getNotifications at listed
  split at listed
  · exact empty listed
  · exact empty listed
  · rename_i fetched
    split_ifs at listed with answer
    obtain rfl := Option.some.inj listed
    refine ⟨?_, ?_⟩
    · rw [List.map_map]
      exact answer.nodup
    · intro n member
      obtain ⟨⟨id, row⟩, came, rfl⟩ := List.mem_map.mp member
      obtain ⟨stored, selected⟩ := answer.stored _ came
      refine ⟨row, stored, rfl, ?_⟩
      unfold selects at selected
      rw [Bool.and_eq_true, decide_eq_true_eq] at selected
      exact selected.1

theorem marks_served {me : String} {request : Request} {outcome : Outcome} {answer : Answer}
    (served : World.served me rows request outcome = some (rows', answer)) : Marks rows rows' := by
  unfold World.served at served
  split at served
  · obtain ⟨rfl, -⟩ := Prod.mk.inj (Option.some.inj served)
    exact .refl _
  · obtain ⟨rfl, -⟩ := Prod.mk.inj (Option.some.inj served)
    exact marks_markNotificationRead _ _ _
  · obtain ⟨rfl, -⟩ := Prod.mk.inj (Option.some.inj served)
    exact marks_markAllNotificationsRead _ _
  · obtain ⟨items, -, same⟩ := Option.map_eq_some_iff.mp served
    obtain ⟨rfl, -⟩ := Prod.mk.inj same
    exact .refl _
  · cases served

/-- A list is an answer of `get_notifications`. -/
theorem served_listed {me : String} {request : Request} {outcome : Outcome} {raw : List Notification}
    (served : World.served me rows request outcome = some (rows', .listed raw)) :
    (raw.map (·.id)).Nodup ∧ ∀ n ∈ raw, ∃ row, rows'.lookup n.id = some row ∧
      n = row.toNotification n.id ∧ row.userId = me := by
  unfold World.served at served
  split at served
  · cases served
  · split at served <;> cases served
  · split at served <;> cases served
  · obtain ⟨items, listed, same⟩ := Option.map_eq_some_iff.mp served
    cases same
    exact listed_of_getNotifications listed
  · cases served

end Rows

section Runs
variable {me : String} {s s' start : World} {action : Action} {actions : List Action}
  {rows rows' : Table} {n : Notification} {made : List String}

/-- A notice that the page made, or one of the table: of the user, or of anyone
when its event went to everyone. -/
def Shown (me : String) (rows : Table) (made : List String) (n : Notification) : Prop :=
  n.id ∈ made ∨ ∃ row, Stands rows n row ∧ (row.userId = me ∨ row.audience = none)

theorem Shown.grows (shown : Shown me rows made n) (grows : Grows rows rows') :
    Shown me rows' made n := by
  rcases shown with own | ⟨row, stands, whose⟩
  · exact .inl own
  · obtain ⟨row', stands', user, audience, -⟩ := stands.grows grows
    rw [← user, ← audience] at whose
    exact .inr ⟨row', stands', whose⟩

theorem Shown.marked (shown : Shown me rows made n) (read : Bool) :
    Shown me rows made { n with read := read } := by
  rcases shown with own | ⟨row, stands, whose⟩
  · exact .inl own
  · exact .inr ⟨row, stands.marked read, whose⟩

structure Sound (me : String) (s : World) : Prop where
  tidy : Tidy s.page
  shown : ∀ n ∈ s.page.items, Shown me s.rows s.made n
  made : ∀ id ∈ s.made, s.rows.lookup id = none
  events : ∀ event ∈ s.pending ++ s.published, event.payload.read = false ∧
    ∃ row, Stands s.rows event.payload row ∧ event.audience = row.audience
  answers : ∀ call ∈ s.calls, ∀ raw, call.answer = some (.listed raw) →
    (raw.map (·.id)).Nodup ∧ ∀ n ∈ raw, ∃ row, Stands s.rows n row ∧ row.userId = me

theorem Sound.opened (me : String) (rows : Table) : Sound me (.opened rows) where
  tidy := ⟨rfl, .nil, .nil⟩
  shown := nofun
  made := nofun
  events := nofun
  answers := nofun

theorem Sound.grows (sound : Sound me s) (grows : Grows s.rows rows')
    (absent : ∀ id ∈ s.made, rows'.lookup id = none) : Sound me { s with rows := rows' } where
  tidy := sound.tidy
  shown n member := (sound.shown n member).grows grows
  made := absent
  events event member := by
    obtain ⟨new, row, stands, audience⟩ := sound.events event member
    obtain ⟨row', stands', -, same, -⟩ := stands.grows grows
    exact ⟨new, row', stands', audience.trans same.symm⟩
  answers call member raw answer := by
    obtain ⟨distinct, listed⟩ := sound.answers call member raw answer
    refine ⟨distinct, fun n there => ?_⟩
    obtain ⟨row, stands, mine⟩ := listed n there
    obtain ⟨row', stands', user, -, -⟩ := stands.grows grows
    exact ⟨row', stands', user.trans mine⟩

theorem Sound.marks (sound : Sound me s) (marks : Marks s.rows rows') :
    Sound me { s with rows := rows' } :=
  sound.grows marks.grows fun id own => marks.absent (sound.made id own)

theorem Sound.turns (sound : Sound me s) {page : Store} (tidy : Tidy page)
    (shown : ∀ n ∈ page.items, Shown me s.rows s.made n) : Sound me { s with page := page } :=
  ⟨tidy, shown, sound.made, sound.events, sound.answers⟩

theorem Sound.asks (sound : Sound me s) (request : Request) : Sound me (s.asks request) where
  tidy := sound.tidy
  shown := sound.shown
  made := sound.made
  events := sound.events
  answers call member raw answer := by
    rcases List.mem_append.mp member with old | new
    · exact sound.answers call old raw answer
    · rw [List.mem_singleton] at new
      rw [new] at answer
      cases answer

/-- An event pushes a row of the user, or one that goes to everyone. -/
theorem Sound.pushed (sound : Sound me s) {event : Event} (member : event ∈ s.published)
    (routed : event.audience.all (· = me) = true) :
    Sound me { s with page := s.page.push event.payload } := by
  obtain ⟨new, row, stands, audience⟩ := sound.events event (List.mem_append_right _ member)
  refine sound.turns (sound.tidy.push new) fun n there => ?_
  rcases mem_push there with rfl | old
  · refine .inr ⟨row, stands, ?_⟩
    rw [audience] at routed
    unfold Row.audience at routed ⊢
    split_ifs at routed ⊢
    · exact .inr rfl
    · exact .inl (by simpa using routed)
  · exact sound.shown n old

theorem Sound.inserted (sound : Sound me s) {id : String} {row : Row}
    (fresh : s.rows.lookup id = none) (other : id ∉ s.made) (new : row.read = false) :
    Sound me { s with
      rows := s.rows.insert id row
      pending := s.pending ++ [⟨row.audience, row.toNotification id⟩] } := by
  have kept : Grows s.rows (s.rows.insert id row) := by
    intro id' row' stored
    refine .inl ((AList.lookup_insert_ne ?_).trans stored)
    rintro rfl
    exact nomatch fresh.symm.trans stored
  have grown : Sound me { s with rows := s.rows.insert id row } := by
    refine sound.grows kept fun id' own => ?_
    have different : id' ≠ id := fun same => other (same ▸ own)
    exact (AList.lookup_insert_ne different).trans (sound.made id' own)
  refine ⟨grown.tidy, grown.shown, grown.made, fun event member => ?_, grown.answers⟩
  simp only [List.mem_append, List.mem_singleton] at member
  rcases member with (old | rfl) | out
  · exact grown.events event (List.mem_append_left _ old)
  · refine ⟨new, row, ⟨AList.lookup_insert _, ?_⟩, rfl⟩
    rfl
  · exact grown.events event (List.mem_append_right _ out)

theorem Sound.step (sound : Sound me s) (taken : s.step me action = some s') : Sound me s' := by
  cases action with
  | inserts id row =>
    simp only [World.step] at taken
    split_ifs at taken with new
    obtain rfl := Option.some.inj taken
    exact sound.inserted new.1 new.2.1 new.2.2
  | publishes i =>
    obtain ⟨event, at_i, rfl⟩ := Option.map_eq_some_iff.mp taken
    refine ⟨sound.tidy, sound.shown, sound.made, fun e member => ?_, sound.answers⟩
    simp only [List.mem_append, List.mem_singleton] at member
    rcases member with waits | out | rfl
    · exact sound.events e (List.mem_append_left _ (List.mem_of_mem_eraseIdx waits))
    · exact sound.events e (List.mem_append_right _ out)
    · exact sound.events e (List.mem_append_left _ (List.mem_of_getElem? at_i))
  | delivers i =>
    obtain ⟨event, at_i, rest⟩ := Option.bind_eq_some_iff.mp taken
    split_ifs at rest with routed
    obtain rfl := Option.some.inj rest
    exact sound.pushed (List.mem_of_getElem? at_i) routed
  | makes notification =>
    simp only [World.step] at taken
    split_ifs at taken with new
    obtain rfl := Option.some.inj taken
    obtain ⟨-, absent, other, unread⟩ := new
    have own : notification.id ∈ s.made ++ [notification.id] := by simp
    refine ⟨sound.tidy.push unread, fun n there => ?_, fun id member => ?_, sound.events, sound.answers⟩
    · rcases mem_push there with rfl | old
      · exact .inl own
      · rcases sound.shown n old with drawn | stands
        · exact .inl (List.mem_append_left _ drawn)
        · exact .inr stands
    · rcases List.mem_append.mp member with old | last
      · exact sound.made id old
      · rw [List.mem_singleton] at last
        rw [last]
        exact absent
  | marksRead id =>
    simp only [World.step] at taken
    split_ifs at taken
    obtain rfl := Option.some.inj taken
    exact sound.asks _
  | marksAllRead =>
    obtain rfl := Option.some.inj taken
    exact sound.asks _
  | loads =>
    simp only [World.step] at taken
    split_ifs at taken
    · obtain rfl := Option.some.inj taken
      exact sound
    · obtain rfl := Option.some.inj taken
      exact (sound.turns (sound.tidy.loading true) sound.shown).asks _
  | clears =>
    obtain rfl := Option.some.inj taken
    exact sound.turns .clear nofun
  | setsLoading isLoading =>
    obtain rfl := Option.some.inj taken
    exact sound.turns (sound.tidy.loading isLoading) sound.shown
  | serves i outcome =>
    obtain ⟨call, at_i, rest⟩ := Option.bind_eq_some_iff.mp taken
    split_ifs at rest
    obtain ⟨⟨rows, answer⟩, served, rfl⟩ := Option.map_eq_some_iff.mp rest
    have grown := sound.marks (marks_served served)
    refine ⟨grown.tidy, grown.shown, grown.made, grown.events, fun c member raw listed => ?_⟩
    rcases List.mem_or_eq_of_mem_set member with old | rfl
    · exact grown.answers c old raw listed
    · obtain rfl := Option.some.inj listed
      obtain ⟨distinct, listed⟩ := served_listed served
      refine ⟨distinct, fun n there => ?_⟩
      obtain ⟨row, stored, same, mine⟩ := listed n there
      exact ⟨row, ⟨stored, by rw [same]; rfl⟩, mine⟩
  | receives i =>
    obtain ⟨call, at_i, rest⟩ := Option.bind_eq_some_iff.mp taken
    obtain ⟨answer, answered, rfl⟩ := Option.map_eq_some_iff.mp rest
    have came : call ∈ s.calls := List.mem_of_getElem? at_i
    have answers := fun raw (listed : answer = .listed raw) =>
      sound.answers call came raw (answered.trans (congrArg some listed))
    have turned := sound.turns (sound.tidy.settled fun raw listed => (answers raw listed).1)
      fun n (there : n ∈ (s.page.settled call.request answer).items) => by
        rcases mem_settled there with ⟨m, old, same⟩ | ⟨raw, listed, member⟩
        · rw [same]
          exact (sound.shown m old).marked n.read
        · obtain ⟨row, stands, mine⟩ := (answers raw listed).2 n member
          exact .inr ⟨row, stands, .inl mine⟩
    exact ⟨turned.tidy, turned.shown, turned.made, turned.events,
      fun c member => turned.answers c (List.mem_of_mem_eraseIdx member)⟩
  | marksElsewhere user id =>
    obtain rfl := Option.some.inj taken
    cases id with
    | none => exact sound.marks (marks_markAllNotificationsRead _ _)
    | some id => exact sound.marks (marks_markNotificationRead _ _ _)

theorem Sound.of_run (run : Run (World.step me) (.opened rows) actions s) : Sound me s :=
  run.invariant (.opened me rows) fun _ _ _ _ taken sound => sound.step taken

/-- Where a notification that is shown as read has its mark from. -/
theorem read_of_settled {page : Store} {request : Request} {answer : Answer}
    (member : n ∈ (page.settled request answer).items) (read : n.read = true) :
    n ∈ page.items ∨ (⟨request, some answer⟩ : Call) = ⟨.markRead n.id, some .marked⟩ ∨
      (⟨request, some answer⟩ : Call) = ⟨.markAllRead, some .marked⟩ ∨
        ∃ raw, answer = .listed raw ∧ n ∈ raw := by
  cases request with
  | markRead id =>
    cases answer with
    | marked =>
      rcases mem_markedRead member with same | ⟨m, listed, rfl⟩
      · exact .inl same
      · by_cases there : m.id = id
        · refine .inr (.inl ?_)
          rw [marked_id, there]
        · rw [marked, if_neg there]
          exact .inl listed
    | listed raw => exact .inl member
    | failed status => exact .inl member
  | markAllRead =>
    cases answer with
    | marked => exact .inr (.inr (.inl rfl))
    | listed raw => exact .inl member
    | failed status => exact .inl member
  | load =>
    cases answer with
    | marked => exact .inl member
    | listed raw =>
      exact .inr (.inr (.inr ⟨raw, rfl, (withoutRepeats_sublist [] raw).subset member⟩))
    | failed status =>
      rw [settled_failed] at member
      split_ifs at member
      · cases member
      · exact .inl member

/-- The row of this id, if it is one of the user, is read. -/
def ReadBy (me : String) (rows : Table) (id : String) : Prop :=
  ∀ row, rows.lookup id = some row → row.userId = me → row.read = true

theorem ReadBy.marks {id : String} (read : ReadBy me rows id) (marks : Marks rows rows') :
    ReadBy me rows' id := by
  intro row stored mine
  rcases marks id with same | ⟨before, -, after⟩
  · exact read row (same.symm.trans stored) mine
  · obtain rfl := Option.some.inj (after.symm.trans stored)
    rfl

theorem served_markRead {id : String} {outcome : Outcome}
    (served : World.served me rows (.markRead id) outcome = some (rows', .marked)) :
    ReadBy me rows' id := by
  unfold World.served at served
  split at served
  · cases served
  · rename_i id' heard same
    cases same
    obtain ⟨rfl, -⟩ := Prod.mk.inj (Option.some.inj served)
    exact fun row stored mine => read_of_markNotificationRead stored mine
  · rename_i same
    cases same
  · rename_i same
    cases same
  · cases served

theorem served_markAllRead {outcome : Outcome}
    (served : World.served me rows .markAllRead outcome = some (rows', .marked)) (id : String) :
    ReadBy me rows' id := by
  unfold World.served at served
  split at served
  · cases served
  · rename_i same
    cases same
  · obtain ⟨rfl, -⟩ := Prod.mk.inj (Option.some.inj served)
    exact fun row stored mine => read_of_markAllNotificationsRead stored mine
  · rename_i same
    cases same
  · cases served

/-- No notice for the user is stored while the answer to a `read-all` is on its
way. -/
def World.Prompt (me : String) (s : World) : Action → Prop
  | .inserts _ row => row.userId = me → (⟨.markAllRead, some .marked⟩ : Call) ∉ s.calls
  | _ => True

instance (s : World) (action : Action) : Decidable (s.Prompt me action) := by
  unfold World.Prompt
  split <;> infer_instance

/-- The read marks of the page and of the answers under way. -/
structure Marked (me : String) (s : World) : Prop where
  shown : ∀ n ∈ s.page.items, n.read = true → ReadBy me s.rows n.id
  listed : ∀ call ∈ s.calls, ∀ raw, call.answer = some (.listed raw) →
    ∀ n ∈ raw, n.read = true → ReadBy me s.rows n.id
  asked : ∀ call ∈ s.calls, ∀ id, call.request = .markRead id →
    id ∈ s.made ∨ (s.rows.lookup id).isSome
  one : ∀ id, (⟨.markRead id, some .marked⟩ : Call) ∈ s.calls → ReadBy me s.rows id
  all : (⟨.markAllRead, some .marked⟩ : Call) ∈ s.calls → ∀ id, ReadBy me s.rows id

theorem Marked.opened (me : String) (rows : Table) : Marked me (.opened rows) where
  shown := nofun
  listed := nofun
  asked := nofun
  one := nofun
  all := nofun

theorem Marked.marks (marked : Marked me s) (marks : Marks s.rows rows') :
    Marked me { s with rows := rows' } where
  shown n member read := (marked.shown n member read).marks marks
  listed call member raw answer n there read :=
    (marked.listed call member raw answer n there read).marks marks
  asked call member id request := by
    rcases marked.asked call member id request with own | stored
    · exact .inl own
    · obtain ⟨row, found⟩ := Option.isSome_iff_exists.mp stored
      rcases marks.grows id row found with same | read
      · exact .inr (Option.isSome_iff_exists.mpr ⟨_, same⟩)
      · exact .inr (Option.isSome_iff_exists.mpr ⟨_, read⟩)
  one id member := (marked.one id member).marks marks
  all member id := (marked.all member id).marks marks

theorem Marked.turns (marked : Marked me s) {page : Store}
    (shown : ∀ n ∈ page.items, n.read = true → ReadBy me s.rows n.id) :
    Marked me { s with page := page } :=
  ⟨shown, marked.listed, marked.asked, marked.one, marked.all⟩

theorem Marked.pushed (marked : Marked me s) (new : n.read = false) :
    Marked me { s with page := s.page.push n } :=
  marked.turns fun m member read => by
    rcases mem_push member with rfl | old
    · exact nomatch new.symm.trans read
    · exact marked.shown m old read

theorem Marked.asks (marked : Marked me s) {request : Request}
    (asked : ∀ id, request = .markRead id → id ∈ s.made ∨ (s.rows.lookup id).isSome) :
    Marked me (s.asks request) where
  shown := marked.shown
  listed call member raw answer := by
    rcases List.mem_append.mp member with old | new
    · exact marked.listed call old raw answer
    · rw [List.mem_singleton] at new
      rw [new] at answer
      cases answer
  asked call member id same := by
    rcases List.mem_append.mp member with old | new
    · exact marked.asked call old id same
    · rw [List.mem_singleton] at new
      rw [new] at same
      exact asked id same
  one id member := by
    rcases List.mem_append.mp member with old | new
    · exact marked.one id old
    · simp at new
  all member := by
    rcases List.mem_append.mp member with old | new
    · exact marked.all old
    · simp at new

theorem Marked.inserted (marked : Marked me s) (sound : Sound me s) {id : String} {row : Row}
    {pending : List Event} (fresh : s.rows.lookup id = none) (other : id ∉ s.made)
    (prompt : row.userId = me → (⟨.markAllRead, some .marked⟩ : Call) ∉ s.calls) :
    Marked me { s with rows := s.rows.insert id row, pending := pending } := by
  -- What is known of an id before holds after: a new row has a new id.
  have keeps : ∀ known, known ∈ s.made ∨ (s.rows.lookup known).isSome = true →
      ReadBy me s.rows known → ReadBy me (s.rows.insert id row) known := by
    intro known there read row' stored mine
    have different : known ≠ id := by
      rintro rfl
      rcases there with own | some
      · exact other own
      · rw [fresh] at some
        cases some
    exact read row' ((AList.lookup_insert_ne different).symm.trans stored) mine
  have stands : ∀ {n : Notification} {row' : Row}, Stands s.rows n row' →
      n.id ∈ s.made ∨ (s.rows.lookup n.id).isSome = true := fun stands =>
    .inr (Option.isSome_iff_exists.mpr ⟨_, stands.1⟩)
  constructor
  · intro n member read
    rcases sound.shown n member with own | ⟨row', there, -⟩
    · exact keeps n.id (.inl own) (marked.shown n member read)
    · exact keeps n.id (stands there) (marked.shown n member read)
  · intro call member raw answer n there read
    obtain ⟨row', same, -⟩ := (sound.answers call member raw answer).2 n there
    exact keeps n.id (stands same) (marked.listed call member raw answer n there read)
  · intro call member known request
    rcases marked.asked call member known request with own | stored
    · exact .inl own
    · refine .inr ?_
      by_cases same : known = id
      · rw [same, AList.lookup_insert]
        rfl
      · rw [AList.lookup_insert_ne same]
        exact stored
  · intro known member
    exact keeps known (marked.asked _ member known rfl) (marked.one known member)
  · intro member known row' stored mine
    by_cases same : known = id
    · rw [same, AList.lookup_insert] at stored
      obtain rfl := Option.some.inj stored
      exact absurd member (prompt mine)
    · rw [AList.lookup_insert_ne same] at stored
      exact marked.all member known row' stored mine

theorem Marked.served (marked : Marked me s) {i : ℕ} {call : Call} {outcome : Outcome} {answer : Answer}
    (at_i : s.calls[i]? = some call)
    (served : World.served me s.rows call.request outcome = some (rows', answer)) :
    Marked me { s with
      rows := rows'
      calls := s.calls.set i { call with answer := some answer } } := by
  have grown := marked.marks (marks_served served)
  have came : call ∈ s.calls := List.mem_of_getElem? at_i
  refine ⟨grown.shown, ?_, ?_, ?_, ?_⟩
  · intro c member raw listed n there read
    rcases List.mem_or_eq_of_mem_set member with old | rfl
    · exact grown.listed c old raw listed n there read
    · obtain rfl := Option.some.inj listed
      obtain ⟨row, stored, same, -⟩ := (served_listed served).2 n there
      intro row' stored' _
      obtain rfl := Option.some.inj (stored.symm.trans stored')
      rw [same] at read
      exact read
  · intro c member id request
    rcases List.mem_or_eq_of_mem_set member with old | rfl
    · exact grown.asked c old id request
    · exact grown.asked call came id request
  · intro id member
    rcases List.mem_or_eq_of_mem_set member with old | same
    · exact grown.one id old
    · obtain ⟨request, said⟩ := Call.mk.inj same
      obtain rfl := Option.some.inj said
      rw [← request] at served
      exact served_markRead served
  · intro member
    rcases List.mem_or_eq_of_mem_set member with old | same
    · exact grown.all old
    · obtain ⟨request, said⟩ := Call.mk.inj same
      obtain rfl := Option.some.inj said
      rw [← request] at served
      exact served_markAllRead served

theorem Marked.received (marked : Marked me s) {i : ℕ} {call : Call} {answer : Answer}
    (at_i : s.calls[i]? = some call) (answered : call.answer = some answer) :
    Marked me { s with
      calls := s.calls.eraseIdx i
      page := s.page.settled call.request answer } := by
  have came : call ∈ s.calls := List.mem_of_getElem? at_i
  have same : call = ⟨call.request, some answer⟩ := by
    rw [← answered]
  have turned := marked.turns fun n (member : n ∈ (s.page.settled call.request answer).items) read => by
    rcases read_of_settled member read with old | one | all | ⟨raw, listed, there⟩
    · exact marked.shown n old read
    · exact marked.one n.id (one ▸ same ▸ came)
    · exact marked.all (all ▸ same ▸ came) n.id
    · exact marked.listed call came raw (answered.trans (congrArg some listed)) n there read
  exact ⟨turned.shown, fun c member => turned.listed c (List.mem_of_mem_eraseIdx member),
    fun c member => turned.asked c (List.mem_of_mem_eraseIdx member),
    fun id member => turned.one id (List.mem_of_mem_eraseIdx member),
    fun member => turned.all (List.mem_of_mem_eraseIdx member)⟩

theorem Marked.step (marked : Marked me s) (sound : Sound me s) (prompt : s.Prompt me action)
    (taken : s.step me action = some s') : Marked me s' := by
  cases action with
  | inserts id row =>
    simp only [World.step] at taken
    split_ifs at taken with new
    obtain rfl := Option.some.inj taken
    exact marked.inserted sound new.1 new.2.1 prompt
  | publishes i =>
    obtain ⟨event, at_i, rfl⟩ := Option.map_eq_some_iff.mp taken
    exact ⟨marked.shown, marked.listed, marked.asked, marked.one, marked.all⟩
  | delivers i =>
    obtain ⟨event, at_i, rest⟩ := Option.bind_eq_some_iff.mp taken
    split_ifs at rest with routed
    obtain rfl := Option.some.inj rest
    have out : event ∈ s.pending ++ s.published :=
      List.mem_append_right _ (List.mem_of_getElem? at_i)
    exact marked.pushed (sound.events event out).1
  | makes notification =>
    simp only [World.step] at taken
    split_ifs at taken with new
    obtain rfl := Option.some.inj taken
    have turned := marked.pushed new.2.2.2
    refine ⟨turned.shown, turned.listed, fun call member id request => ?_, turned.one, turned.all⟩
    rcases marked.asked call member id request with own | stored
    · exact .inl (List.mem_append_left _ own)
    · exact .inr stored
  | marksRead id =>
    simp only [World.step] at taken
    split_ifs at taken with there
    obtain rfl := Option.some.inj taken
    refine marked.asks fun id' same => ?_
    obtain rfl := Request.markRead.inj same
    obtain ⟨n, member, named⟩ := List.any_eq_true.mp there
    obtain rfl := of_decide_eq_true named
    rcases sound.shown n member with own | ⟨row, stands, -⟩
    · exact .inl own
    · exact .inr (Option.isSome_iff_exists.mpr ⟨row, stands.1⟩)
  | marksAllRead =>
    obtain rfl := Option.some.inj taken
    exact marked.asks nofun
  | loads =>
    simp only [World.step] at taken
    split_ifs at taken
    · obtain rfl := Option.some.inj taken
      exact marked
    · obtain rfl := Option.some.inj taken
      have turned : Marked me { s with page := { s.page with isLoading := true } } :=
        marked.turns marked.shown
      exact turned.asks nofun
  | clears =>
    obtain rfl := Option.some.inj taken
    exact marked.turns nofun
  | setsLoading isLoading =>
    obtain rfl := Option.some.inj taken
    exact marked.turns marked.shown
  | serves i outcome =>
    obtain ⟨call, at_i, rest⟩ := Option.bind_eq_some_iff.mp taken
    split_ifs at rest
    obtain ⟨⟨rows, answer⟩, served, rfl⟩ := Option.map_eq_some_iff.mp rest
    exact marked.served at_i served
  | receives i =>
    obtain ⟨call, at_i, rest⟩ := Option.bind_eq_some_iff.mp taken
    obtain ⟨answer, answered, rfl⟩ := Option.map_eq_some_iff.mp rest
    exact marked.received at_i answered
  | marksElsewhere user id =>
    obtain rfl := Option.some.inj taken
    cases id with
    | none => exact marked.marks (marks_markAllNotificationsRead _ _)
    | some id => exact marked.marks (marks_markNotificationRead _ _ _)

/-- A notice of the user that is shown as read is read in the table, provided
that none is stored while the answer to a `read-all` is on its way: the page marks
what it shows then. -/
theorem reads_of_run (rows : Table)
    (run : GuardedRun (World.step me) (World.Prompt me) (.opened rows) actions s) :
    ∀ n ∈ s.page.items, n.read = true →
      ∀ row, s.rows.lookup n.id = some row → row.userId = me → row.read = true := by
  have both : Sound me s ∧ Marked me s := by
    induction run with
    | nil => exact ⟨.opened me rows, .opened me rows⟩
    | snoc _ prompt taken ih => exact ⟨ih.1.step taken, ih.2.step ih.1 prompt taken⟩
  exact both.2.shown

/-- The stop loss of a position of "u" was hit, and one of another user. -/
def stopLoss (user : String) (createdAt : ℤ) : Row where
  kind := "POSITION_SL"
  title := "Stop Loss triggered"
  message := "EURUSD LONG · Closed by Stop Loss · PnL: -1.00  |  Exit: 1.10"
  createdAt := createdAt
  read := false
  about := ⟨some "p", none, none⟩
  userId := user

def deposited : Row where
  kind := "DEPOSIT_APPROVED"
  title := "Deposit Approved"
  message := "Your deposit of $5.00 has been approved. New balance: $5.00"
  createdAt := 3
  read := false
  about := ⟨none, none, none⟩
  userId := "v"

def stored : Table := (∅ : Table).insert "n1" (stopLoss "u" 1)

/-- A deposit notice of another user comes in twice while the list is loading,
which does not hold it; then it comes in again. -/
def watching : List Action :=
  [.loads, .inserts "n2" deposited, .publishes 0, .delivers 0, .delivers 0,
    .serves 0 (.listed (some none) (some [("n1", stopLoss "u" 1)])), .receives 0, .delivers 0,
    .marksRead "n1", .serves 0 (.done true), .receives 0]

/-- A close comes in while the answer to a `read-all` is on its way. -/
def racing : List Action :=
  [.marksAllRead, .serves 0 (.done true), .inserts "n2" (stopLoss "u" 2), .publishes 0, .delivers 0,
    .receives 0]

theorem reads_watching : ∃ s, GuardedRun (World.step "u") (World.Prompt "u") (.opened stored) watching s ∧
    (s.page.items.map fun n => (n.id, n.read)) = [("n2", false), ("n1", true)] ∧
      ∀ n ∈ s.page.items, n.read = true →
        ∀ row, s.rows.lookup n.id = some row → row.userId = "u" → row.read = true := by
  have evaluates : (runGuarded (World.step "u") (World.Prompt "u") (.opened stored) watching).map
      (fun s => s.page.items.map fun n => (n.id, n.read)) = some [("n2", false), ("n1", true)] := by
    decide +kernel
  obtain ⟨s, run, shown⟩ := GuardedRun.of_eval_map evaluates
  exact ⟨s, run, shown, reads_of_run stored run⟩

example : (runGuarded (World.step "u") (fun _ _ => True) (.opened stored) racing).map (fun s =>
    (s.page.items.map fun n => (n.id, n.read), (s.rows.lookup "n2").map (·.read))) =
      some ([("n2", true)], some false) := by
  decide +kernel

end Runs

end TradingPlatform.Notifications
