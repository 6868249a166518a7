import Mathlib

namespace BroadcastQueues

/-- One end of a broadcast channel: the room it listens to and the items that
it has yet to take. -/
structure Receiver (κ α : Type*) where
  room : κ
  queue : List α
  deriving DecidableEq

variable {κ α : Type*}

def rooms (receivers : List (Receiver κ α)) : List κ := receivers.map (·.room)

/-- Every receiver of the room gets the item. -/
def publish [DecidableEq κ] (room : κ) (item : α) (receivers : List (Receiver κ α)) :
    List (Receiver κ α) :=
  receivers.map fun r => if r.room = room then { r with queue := r.queue ++ [item] } else r

/-- The copies of an item that are yet to be taken. -/
def queued [DecidableEq α] (item : α) (receivers : List (Receiver κ α)) : ℕ :=
  (receivers.map (·.queue.count item)).sum

/-- All items that are yet to be taken. -/
def backlog (receivers : List (Receiver κ α)) : ℕ := (receivers.map (·.queue.length)).sum

section Rooms
variable {receivers : List (Receiver κ α)} {room : κ} {item : α}

@[simp] theorem rooms_publish [DecidableEq κ] (room : κ) (item : α)
    (receivers : List (Receiver κ α)) : rooms (publish room item receivers) = rooms receivers := by
  unfold rooms publish
  rw [List.map_map]
  refine List.map_congr_left fun r _ => ?_
  simp only [Function.comp_apply]
  split <;> rfl

@[simp] theorem rooms_append (receivers : List (Receiver κ α)) (r : Receiver κ α) :
    rooms (receivers ++ [r]) = rooms receivers ++ [r.room] := by
  simp [rooms]

/-- Taking an item leaves the rooms as they are. -/
theorem rooms_set {i : ℕ} {rest : List α} (taken : receivers[i]? = some ⟨room, item :: rest⟩) :
    rooms (receivers.set i ⟨room, rest⟩) = rooms receivers := by
  obtain ⟨listed, here⟩ := List.getElem?_eq_some_iff.mp taken
  have inRooms : i < (rooms receivers).length := by simpa [rooms] using listed
  have same : (rooms receivers)[i] = room := by simp [rooms, here]
  calc rooms (receivers.set i ⟨room, rest⟩)
      = (rooms receivers).set i (rooms receivers)[i] := by rw [same, rooms, rooms, List.map_set]
    _ = rooms receivers := List.set_getElem_self inRooms

end Rooms

section Copies
variable [DecidableEq α] {receivers : List (Receiver κ α)} {room : κ} {item : α}

@[simp] theorem queued_nil (x : α) : queued x ([] : List (Receiver κ α)) = 0 := rfl

@[simp] theorem queued_cons (x : α) (r : Receiver κ α) (receivers : List (Receiver κ α)) :
    queued x (r :: receivers) = r.queue.count x + queued x receivers := by
  simp [queued]

/-- A new receiver has nothing to take. -/
theorem queued_append_new (x : α) (room : κ) (receivers : List (Receiver κ α)) :
    queued x (receivers ++ [⟨room, []⟩]) = queued x receivers := by
  simp [queued]

theorem queued_publish [DecidableEq κ] (x : α) (room : κ) (item : α)
    (receivers : List (Receiver κ α)) :
    queued x (publish room item receivers) =
      queued x receivers + if x = item then (rooms receivers).count room else 0 := by
  induction receivers with
  | nil => simp [publish, rooms]
  | cons r rest ih =>
    have tail : queued x (publish room item (r :: rest)) =
        (if r.room = room then r.queue ++ [item] else r.queue).count x +
          queued x (publish room item rest) := by
      by_cases listens : r.room = room <;> simp [publish, listens]
    have head : (rooms (r :: rest)).count room =
        (rooms rest).count room + if r.room = room then 1 else 0 := by
      simp [rooms, List.count_cons]
    rw [tail, ih, head, queued_cons]
    by_cases listens : r.room = room <;> by_cases same : x = item
    · subst same
      simp [listens]
      omega
    · simp [listens, same, Ne.symm same]
    · simp [listens, same]
      omega
    · simp [listens, same]

/-- One copy of the item that is taken leaves its queue. -/
theorem queued_set {i : ℕ} {rest : List α} (taken : receivers[i]? = some ⟨room, item :: rest⟩)
    (x : α) : queued x receivers =
      queued x (receivers.set i ⟨room, rest⟩) + if item = x then 1 else 0 := by
  induction receivers generalizing i with
  | nil => simp at taken
  | cons r receivers ih =>
    cases i with
    | zero =>
      obtain rfl : r = ⟨room, item :: rest⟩ := by simpa using taken
      simp only [List.set_cons_zero, queued_cons, List.count_cons, beq_iff_eq]
      omega
    | succ i =>
      have inner := ih (i := i) (by simpa using taken)
      simp only [List.set_cons_succ, queued_cons]
      omega

theorem queued_eq_zero (empty : ∀ r ∈ receivers, r.queue = []) (x : α) : queued x receivers = 0 := by
  refine List.sum_eq_zero fun copies member => ?_
  obtain ⟨r, listed, rfl⟩ := List.mem_map.mp member
  rw [empty r listed, List.count_nil]

end Copies

section Backlog
variable {receivers : List (Receiver κ α)} {room : κ} {item : α}

theorem backlog_append_new (room : κ) (receivers : List (Receiver κ α)) :
    backlog (receivers ++ [⟨room, []⟩]) = backlog receivers := by
  simp [backlog]

theorem backlog_set_lt {i : ℕ} {rest : List α}
    (taken : receivers[i]? = some ⟨room, item :: rest⟩) :
    backlog (receivers.set i ⟨room, rest⟩) < backlog receivers := by
  induction receivers generalizing i with
  | nil => simp at taken
  | cons r receivers ih =>
    cases i with
    | zero =>
      obtain rfl : r = ⟨room, item :: rest⟩ := by simpa using taken
      simp [backlog]
    | succ i =>
      have inner := ih (i := i) (by simpa using taken)
      simp only [List.set_cons_succ, backlog, List.map_cons, List.sum_cons] at inner ⊢
      omega

end Backlog

end BroadcastQueues
