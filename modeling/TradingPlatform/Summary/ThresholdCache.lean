import TradingPlatform.Library.FiniteTable
import TradingPlatform.Library.StepRuns
import Mathlib.Algebra.Order.Field.Rat

namespace TradingPlatform

open StepRuns

/-- The two columns of a group that are cached under `group:{id}`. -/
inductive ThresholdField
  | marginCallLevel | stopOutLevel
  deriving DecidableEq, Repr

abbrev Levels := ThresholdField → Option ℚ

/-- A call and the statement that it makes next: `update_group` before its
UPDATE, with the row that it returned before it takes a Redis connection, and
before its HSET or HDEL of a field; a getter of a field before its HGET, before
its SELECT, and before its HSET. -/
inductive ThresholdTask
  | updating (levels : Levels)
  | connecting (levels : Levels)
  | writing (levels : Levels) (f : ThresholdField)
  | getting (f : ThresholdField)
  | selecting (f : ThresholdField)
  | storing (f : ThresholdField) (level : ℚ)

/-- The row of one group, its hash in Redis, and the calls under way. -/
structure ThresholdCache where
  row : Levels
  hash : Levels
  reachable : Bool
  tasks : FiniteTable ℕ ThresholdTask

/-- A call, Redis going away or coming back, and a task's next statement with
whether it goes through. -/
inductive ThresholdAction
  | call (i : ℕ) (task : ThresholdTask)
  | redis (reachable : Bool)
  | statement (i : ℕ) (ok : Bool)

namespace ThresholdTask

/-- The tasks that calls start with. -/
def isCall : ThresholdTask → Bool
  | .updating _ => true
  | .getting _ => true
  | _ => false

/-- A statement to Redis, which goes through only if Redis can be reached. -/
def needsRedis : ThresholdTask → Bool
  | .updating _ => false
  | .selecting _ => false
  | _ => true

/-- What `update_group` does after the write of a field. -/
def afterWrite (levels : Levels) : ThresholdField → Option ThresholdTask
  | .marginCallLevel => some (.writing levels .stopOutLevel)
  | .stopOutLevel => none

end ThresholdTask

namespace ThresholdCache

/-- A statement that goes through, and the task's next one. Where Redis holds
the field the getter returns it, where the row has none it returns `None`. -/
def perform (s : ThresholdCache) : ThresholdTask → ThresholdCache × Option ThresholdTask
  | .updating levels => ({ s with row := levels }, some (.connecting levels))
  | .connecting levels => (s, some (.writing levels .marginCallLevel))
  | .writing levels f =>
    ({ s with hash := Function.update s.hash f (levels f) }, ThresholdTask.afterWrite levels f)
  | .getting f => (s, if s.hash f = none then some (.selecting f) else none)
  | .selecting f => (s, (s.row f).map fun level => .storing f level)
  | .storing f level => ({ s with hash := Function.update s.hash f (some level) }, none)

/-- A statement that fails. A failed write is ignored and a getter goes on to
the database. -/
def fail : ThresholdTask → Option ThresholdTask
  | .updating _ => none
  | .connecting _ => none
  | .writing levels f => ThresholdTask.afterWrite levels f
  | .getting f => some (.selecting f)
  | .selecting _ => none
  | .storing _ _ => none

def replace (s : ThresholdCache) (i : ℕ) : Option ThresholdTask → ThresholdCache
  | some task => { s with tasks := s.tasks.insert i task }
  | none => { s with tasks := s.tasks.erase i }

def step (s : ThresholdCache) : ThresholdAction → Option ThresholdCache
  | .call i task =>
    if s.tasks.lookup i = none ∧ task.isCall then some (s.replace i (some task)) else none
  | .redis reachable => some { s with reachable := reachable }
  | .statement i ok =>
    match s.tasks.lookup i with
    | none => none
    | some task =>
      if ok then
        if task.needsRedis ∧ s.reachable = false then none
        else some ((s.perform task).1.replace i (s.perform task).2)
      else some (s.replace i (fail task))

def start (levels : Levels) : ThresholdCache := ⟨levels, fun _ => none, true, ∅⟩

/-- The answer of a getter that runs alone, with Redis and the database there. -/
def getLevel (s : ThresholdCache) (f : ThresholdField) : Option ℚ :=
  match s.hash f with
  | some level => some level
  | none => s.row f

/-- Redis holds what the row says of a field, or nothing. -/
def Settled (s : ThresholdCache) (f : ThresholdField) : Prop :=
  s.hash f = none ∨ s.hash f = s.row f

end ThresholdCache

/-- What an update has still to write of a field. -/
def ThresholdTask.toWrite : ThresholdTask → ThresholdField → Option (Option ℚ)
  | .connecting levels, f => some (levels f)
  | .writing levels .marginCallLevel, f => some (levels f)
  | .writing levels .stopOutLevel, .stopOutLevel => some (levels .stopOutLevel)
  | _, _ => none

namespace ThresholdCache

/-- Another task is an update that has still to write what the row says. -/
def Covered (s : ThresholdCache) (i : ℕ) (f : ThresholdField) : Prop :=
  ∃ other ∈ s.tasks.entries, other.1 ≠ i ∧ other.2.toWrite f = some (s.row f)

/-- A write of a field puts there what the row says, or nothing, or another
update has still to write. -/
def MayWrite (s : ThresholdCache) (i : ℕ) (f : ThresholdField) (level : Option ℚ) : Prop :=
  level = none ∨ level = s.row f ∨ s.Covered i f

/-- A write of what the row says may be lost where it changes nothing, or where
another update has still to write. -/
def MayLose (s : ThresholdCache) (i : ℕ) (f : ThresholdField) (level : Option ℚ) : Prop :=
  level = s.row f → s.Settled f ∨ s.Covered i f

/-- No write of a level that the row no longer has, and no lost write of the one
that it has, is the last on its way. -/
def HarmlessTask (s : ThresholdCache) (i : ℕ) : ThresholdTask → Bool → Prop
  | .storing f level, true => s.MayWrite i f (some level)
  | .writing levels f, true => s.MayWrite i f (levels f)
  | .writing levels f, false => s.MayLose i f (levels f)
  | .connecting levels, false => s.MayLose i .marginCallLevel (levels .marginCallLevel) ∧
    s.MayLose i .stopOutLevel (levels .stopOutLevel)
  | _, _ => True

def Harmless (s : ThresholdCache) : ThresholdAction → Prop
  | .statement i ok => ∀ task ∈ s.tasks.lookup i, s.HarmlessTask i task ok
  | _ => True

/-- Redis is settled or an update has still to write what the row says. -/
def Owed (s : ThresholdCache) (f : ThresholdField) : Prop :=
  s.Settled f ∨ ∃ i task, s.tasks.lookup i = some task ∧ task.toWrite f = some (s.row f)

instance (s : ThresholdCache) (i : ℕ) (f : ThresholdField) : Decidable (s.Covered i f) :=
  inferInstanceAs (Decidable (∃ _ ∈ s.tasks.entries, _))

instance (s : ThresholdCache) (i : ℕ) (f : ThresholdField) : DecidablePred (s.MayWrite i f) :=
  fun _ => inferInstanceAs (Decidable (_ ∨ _ ∨ _))

instance (s : ThresholdCache) (f : ThresholdField) : Decidable (s.Settled f) :=
  inferInstanceAs (Decidable (_ ∨ _))

instance (s : ThresholdCache) (i : ℕ) (f : ThresholdField) : DecidablePred (s.MayLose i f) :=
  fun _ => inferInstanceAs (Decidable (_ → _ ∨ _))

instance (s : ThresholdCache) (i : ℕ) (task : ThresholdTask) : DecidablePred (s.HarmlessTask i task)
  | true => match task with
    | .storing f level => inferInstanceAs (Decidable (s.MayWrite i f (some level)))
    | .writing levels f => inferInstanceAs (Decidable (s.MayWrite i f (levels f)))
    | .updating _ | .connecting _ | .getting _ | .selecting _ => .isTrue trivial
  | false => match task with
    | .writing levels f => inferInstanceAs (Decidable (s.MayLose i f (levels f)))
    | .connecting _ => inferInstanceAs (Decidable (_ ∧ _))
    | .updating _ | .storing _ _ | .getting _ | .selecting _ => .isTrue trivial

instance (s : ThresholdCache) : DecidablePred s.Harmless
  | .statement i ok => inferInstanceAs (Decidable (∀ task ∈ s.tasks.lookup i, s.HarmlessTask i task ok))
  | .call _ _ => .isTrue trivial
  | .redis _ => .isTrue trivial

end ThresholdCache

end TradingPlatform
