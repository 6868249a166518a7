import TradingPlatform.Engine.HashWrites
import TradingPlatform.Engine.IndexInvariant

namespace TradingPlatform

open StepRuns

namespace SizeText

def digitsValue (digits : List Char) : ℕ := digits.foldl (fun n c => 10 * n + (c.toNat - '0'.toNat)) 0

/-- The number of an unsigned decimal: digits, and after a point more digits. -/
def unsigned (text : List Char) : Option ℚ :=
  let whole := text.takeWhile Char.isDigit
  let fraction := (text.dropWhile Char.isDigit).drop 1
  let pointed := text.dropWhile Char.isDigit = [] ∨ (text.dropWhile Char.isDigit).head? = some '.'
  if pointed ∧ fraction.all Char.isDigit ∧ whole ++ fraction ≠ [] then
    some (digitsValue whole + digitsValue fraction / 10 ^ fraction.length)
  else none

/-- The number that a text writes as a plain decimal, with or without a sign. -/
def number (text : String) : Option ℚ :=
  if text.toList.head? = some '-' then (unsigned (text.toList.drop 1)).map fun x => -x
  else if text.toList.head? = some '+' then unsigned (text.toList.drop 1)
  else unsigned text.toList

example : number "-1.25" = some (-5 / 4) := by decide +kernel
example : number "all" = none := by decide +kernel

end SizeText

/-- The decimal and float formatting that the services use. A decimal's text
reads back exactly. -/
structure DecimalTexts (F64 : Type) where
  /-- `Decimal::from_str(s).ok()` -/
  fromStr : String → Option ℚ
  /-- `Decimal::from_str_exact(s).ok()` -/
  fromStrExact : String → Option ℚ
  /-- `Decimal::to_string` -/
  decimalText : ℚ → String
  /-- `f64::to_string` -/
  floatText : F64 → String
  readsBack : ∀ s, ∀ d ∈ fromStr s, fromStrExact (decimalText d) = some d

variable {F64 : Type}

/-- The body of a close request: to the user's endpoint or to the admin's. -/
inductive CloseBody (F64 : Type)
  | user (size : Option String)
  | admin (size : Option F64)

namespace CloseBody
variable (texts : DecimalTexts F64)

/-- The size the body asks for, as a text. -/
def askedText : CloseBody F64 → Option String
  | user size => size
  | admin size => size.map texts.floatText

/-- The size in the published command. -/
def commandSize : CloseBody F64 → Option String
  | user size => (size.bind texts.fromStr).map texts.decimalText
  | admin size => size.map texts.floatText

/-- What a decimal parser makes of the size: the endpoint's own one of the user's
text, the engine's of the text of the admin's float. -/
def reading : CloseBody F64 → Option ℚ
  | user size => size.bind texts.fromStr
  | admin size => size.bind fun x => texts.fromStrExact (texts.floatText x)

theorem commandSize_reads (body : CloseBody F64) :
    (body.commandSize texts).bind texts.fromStrExact = body.reading texts := by
  cases body with
  | user size =>
    cases size with
    | none => rfl
    | some s =>
      change ((texts.fromStr s).map texts.decimalText).bind texts.fromStrExact = texts.fromStr s
      cases parsed : texts.fromStr s with
      | none => rfl
      | some d => exact texts.readsBack s d parsed
  | admin size => cases size <;> rfl

end CloseBody

/-- A message on `cmd.position.close`. -/
structure CloseCommand where
  positionId : PositionId
  userId : UserId
  size : Option String
  deriving DecidableEq, Repr

/-- What the user's endpoint reads of its caller. -/
structure CloseCaller where
  isOwnPosition : Bool
  mayClosePositions : Bool
  tradingAccess : String := "full"
  deriving DecidableEq, Repr

inductive CloseRefusal
  | forbidden
  | tradingDisabled
  | notFound
  | notOpen
  | invalidPosition
  deriving DecidableEq, Repr

section Endpoints
variable (texts : DecimalTexts F64) (st : Store)

/-- `close_position` -/
def closePosition (caller : CloseCaller) (userId : UserId) (positionId : PositionId)
    (size : Option String) : Except CloseRefusal CloseCommand :=
  if ¬ caller.isOwnPosition ∧ ¬ caller.mayClosePositions then .error .forbidden
  else if caller.isOwnPosition ∧ caller.tradingAccess = "disabled" then .error .tradingDisabled
  else
    match st.hash positionId with
    | none => .error .notFound
    | some h =>
      if h.userId ≠ some userId then .error .forbidden
      else if h.status ≠ some .OPEN then .error .notOpen
      else .ok ⟨positionId, userId, (CloseBody.user size).commandSize texts⟩

/-- `close_admin_position` -/
def closeAdminPosition (mayClosePositions : Bool) (positionId : PositionId) (size : Option F64) :
    Except CloseRefusal CloseCommand :=
  if ¬ mayClosePositions then .error .forbidden
  else
    match st.hash positionId with
    | none => .error .notFound
    | some h =>
      match h.userId with
      | none => .error .invalidPosition
      | some userId =>
        if h.status ≠ some .OPEN then .error .notOpen
        else .ok ⟨positionId, userId, (CloseBody.admin size).commandSize texts⟩

/-- The script call that `handle_close_position` makes for a position of the
command's user, given the bid and ask it found. -/
def CloseCommand.closeArgs (cmd : CloseCommand) (price : Option (ℚ × ℚ)) (now : Millis) :
    Option CloseArgs :=
  match st.hash cmd.positionId with
  | none => none
  | some h =>
    if h.userId ≠ some cmd.userId then none
    else
      match h.symbol, h.side, price with
      | some _, some side, some (bid, ask) =>
        some ⟨cmd.positionId, if side = .LONG then bid else ask,
          (cmd.size.bind texts.fromStrExact).getD 0, now, false⟩
      | _, _, _ => none

/-- `handle_close_position`: the store it leaves and, of a successful close, the
script's reply. -/
def handleClosePosition (cmd : CloseCommand) (price : Option (ℚ × ℚ)) (now : Millis) :
    Store × Option CloseResult :=
  match cmd.closeArgs texts st price now with
  | none => (st, none)
  | some args =>
    match atomicClosePosition st args with
    | .success after result => (after, some result)
    | .error after _ => (after, none)
    | .raised after => (after, none)

end Endpoints

/-- A published command with the body it came from. -/
structure PublishedClose (F64 : Type) where
  body : CloseBody F64
  command : CloseCommand

/-- The engine's store and the close commands that it has not yet handled. -/
structure CloseDesk (F64 : Type) where
  store : Store := .empty
  published : List (PublishedClose F64) := []

/-- A request to one of the endpoints, the handling of the command at a place of
the queue, or any other script call of the engine. -/
inductive CloseAction (F64 : Type)
  | closePosition (caller : CloseCaller) (userId : UserId) (positionId : PositionId)
      (size : Option String)
  | closeAdminPosition (mayClosePositions : Bool) (positionId : PositionId) (size : Option F64)
  | handle (place : ℕ) (price : Option (ℚ × ℚ)) (now : Millis)
  | script (call : ScriptCall)

namespace CloseDesk

def publish (desk : CloseDesk F64) (body : CloseBody F64) :
    Except CloseRefusal CloseCommand → CloseDesk F64
  | .ok command => { desk with published := desk.published ++ [⟨body, command⟩] }
  | .error _ => desk

def step (texts : DecimalTexts F64) (desk : CloseDesk F64) : CloseAction F64 → Option (CloseDesk F64)
  | .closePosition caller userId positionId size =>
    some (desk.publish (.user size)
      (closePosition texts desk.store caller userId positionId size))
  | .closeAdminPosition mayClosePositions positionId size =>
    some (desk.publish (.admin size)
      (closeAdminPosition texts desk.store mayClosePositions positionId size))
  | .handle place price now =>
    (desk.published[place]?).map fun entry =>
      { store := (handleClosePosition texts desk.store entry.command price now).1
        published := desk.published.eraseIdx place }
  | .script call => (desk.store.call call).map fun st => { desk with store := st }

end CloseDesk

end TradingPlatform
