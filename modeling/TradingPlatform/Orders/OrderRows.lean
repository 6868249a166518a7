import TradingPlatform.Engine.RedisStore

namespace TradingPlatform

/-- The database's `order_status`. -/
inductive RowStatus
  | pending | partiallyFilled | filled | cancelling | cancelled | rejected
  deriving DecidableEq, Repr

/-- The status in an `evt.order.updated`. -/
inductive EventStatus
  | pending | partiallyFilled | filled | cancelled | rejected
  deriving DecidableEq, Repr

def RowStatus.Terminal : RowStatus → Prop
  | .filled => True
  | .cancelled => True
  | .rejected => True
  | .pending => False
  | .partiallyFilled => False
  | .cancelling => False

instance : DecidablePred RowStatus.Terminal
  | .filled => inferInstanceAs (Decidable True)
  | .cancelled => inferInstanceAs (Decidable True)
  | .rejected => inferInstanceAs (Decidable True)
  | .pending => inferInstanceAs (Decidable False)
  | .partiallyFilled => inferInstanceAs (Decidable False)
  | .cancelling => inferInstanceAs (Decidable False)

/-- The status that `handle_order_update` writes for an event, if any. -/
def EventStatus.written : EventStatus → Option RowStatus
  | .filled => some .filled
  | .cancelled => some .cancelled
  | .rejected => some .rejected
  | .pending => none
  | .partiallyFilled => none

/-- The events after which the margin lock is rolled back. -/
def EventStatus.RollsBack (status : EventStatus) : Prop := status = .cancelled ∨ status = .rejected

instance : DecidablePred EventStatus.RollsBack :=
  fun status => inferInstanceAs (Decidable (status = .cancelled ∨ status = .rejected))

theorem EventStatus.RollsBack.terminal {status : EventStatus} (rollsBack : status.RollsBack) :
    ∃ written, status.written = some written ∧ written.Terminal ∧ written ≠ .filled := by
  rcases rollsBack with rfl | rfl
  · exact ⟨.cancelled, rfl, trivial, by decide⟩
  · exact ⟨.rejected, rfl, trivial, by decide⟩

/-- `UPDATE orders SET status = … WHERE id = … AND status <> …` on the row of
one order: the row afterwards, if one was affected. -/
def markUnless (status : RowStatus) (row : Option RowStatus) : Option RowStatus :=
  row.bind fun current => if current = status then none else some status

/-- `update_order_in_database`. `recreates` tells whether
`create_order_from_redis`, an upsert, finds all it needs in Redis. -/
def updateOrderInDatabase (recreates : Bool) (row : Option RowStatus) : Option RowStatus × Bool :=
  match markUnless .filled row with
  | some after => (some after, true)
  | none => if recreates then (some .filled, true) else (row, false)

/-- `update_order_cancelled_in_database` and `update_order_rejected_in_database`. -/
def updateOrderStatusInDatabase (status : RowStatus) (row : Option RowStatus) :
    Option RowStatus × Bool :=
  match markUnless status row with
  | some after => (some after, true)
  | none => (row, false)

/-- The database part of `handle_order_update`: the row, and whether the event
was accepted. -/
def handleOrderUpdate (recreates : Bool) (row : Option RowStatus) :
    EventStatus → Option RowStatus × Bool
  | .filled => updateOrderInDatabase recreates row
  | .cancelled => updateOrderStatusInDatabase .cancelled row
  | .rejected => updateOrderStatusInDatabase .rejected row
  | .pending => (row, false)
  | .partiallyFilled => (row, false)

/-- The UPDATE of `cancel_order`, if it affects the row. -/
def cancelOrderRow (row : Option RowStatus) : Option RowStatus :=
  if row = some .pending then some .cancelling else none

/-- The database status that `list_orders` takes from a text in Redis. It
compares in lower case with one spelling of cancelled. -/
def OrderStatus.reconciled : OrderStatus → Option RowStatus
  | .FILLED => some .filled
  | .CANCELLED => some .cancelled
  | .REJECTED => some .rejected
  | .CANCELED => none
  | .PENDING => none
  | .PARTIALLYFILLED => none

/-- The self-heal of `list_orders` for a row that it listed as pending. -/
def reconcileRow (redis : OrderStatus) (row : Option RowStatus) : Option RowStatus :=
  match redis.reconciled with
  | some status => if row = some .pending then some status else row
  | none => row

variable {status : EventStatus} {row : Option RowStatus} {recreates : Bool}

/-- An accepted event leaves its status in the row, any other the row as it was. -/
theorem handleOrderUpdate_cases (recreates : Bool) (row : Option RowStatus) (status : EventStatus) :
    (∃ written, status.written = some written ∧
      handleOrderUpdate recreates row status = (some written, true)) ∨
    handleOrderUpdate recreates row status = (row, false) := by
  have marks (written : RowStatus) (current : Option RowStatus) :
      markUnless written current = some written ∨ markUnless written current = none := by
    cases current with
    | none => exact .inr rfl
    | some current =>
      rw [markUnless, Option.bind_some]
      split_ifs
      · exact .inr rfl
      · exact .inl rfl
  cases status with
  | filled =>
    rw [handleOrderUpdate, updateOrderInDatabase]
    rcases marks .filled row with marked | unmarked
    · rw [marked]
      exact .inl ⟨_, rfl, rfl⟩
    · rw [unmarked]
      cases recreates
      · exact .inr rfl
      · exact .inl ⟨_, rfl, rfl⟩
  | cancelled =>
    rw [handleOrderUpdate, updateOrderStatusInDatabase]
    rcases marks .cancelled row with marked | unmarked
    · rw [marked]
      exact .inl ⟨_, rfl, rfl⟩
    · rw [unmarked]
      exact .inr rfl
  | rejected =>
    rw [handleOrderUpdate, updateOrderStatusInDatabase]
    rcases marks .rejected row with marked | unmarked
    · rw [marked]
      exact .inl ⟨_, rfl, rfl⟩
    · rw [unmarked]
      exact .inr rfl
  | pending => exact .inr rfl
  | partiallyFilled => exact .inr rfl

/-- A second cancellation or rejection is not accepted. -/
theorem handleOrderUpdate_again (rollsBack : status.RollsBack) (same : row = status.written) :
    handleOrderUpdate recreates row status = (row, false) := by
  subst same
  rcases rollsBack with rfl | rfl <;> rfl

end TradingPlatform
