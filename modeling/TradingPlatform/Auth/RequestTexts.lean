import Mathlib.Data.List.Basic

namespace TradingPlatform.RequestTexts

/-- The characters of the Unicode property White_Space. -/
def isWhiteSpace (c : Char) : Bool :=
  (9 ≤ c.toNat ∧ c.toNat ≤ 13) ∨ c.toNat = 0x20 ∨ c.toNat = 0x85 ∨ c.toNat = 0xA0 ∨
    c.toNat = 0x1680 ∨ (0x2000 ≤ c.toNat ∧ c.toNat ≤ 0x200A) ∨ c.toNat = 0x2028 ∨
    c.toNat = 0x2029 ∨ c.toNat = 0x202F ∨ c.toNat = 0x205F ∨ c.toNat = 0x3000

/-- `str::trim` -/
def trimText (s : String) : String :=
  String.ofList (((s.toList.dropWhile isWhiteSpace).reverse.dropWhile isWhiteSpace).reverse)

/-- `.map(|s| s.trim()).filter(|s| !s.is_empty())` -/
def nonblank (s : Option String) : Option String := (s.map trimText).filter (· ≠ "")

/-- `str::eq_ignore_ascii_case` -/
def eqIgnoreAsciiCase (s t : String) : Bool :=
  s.toList.map Char.toLower = t.toList.map Char.toLower

/-- A column of type text takes any character but NUL. -/
def storable (s : String) : Bool := s.toList.all (·.toNat ≠ 0)

/-- A column of type varchar takes so many characters. -/
def fits (limit : ℕ) (s : String) : Bool := storable s && s.length ≤ limit

/-- A varchar column cuts spaces off that are too many. -/
def varchar (limit : ℕ) (s : String) : Option String :=
  if s.length ≤ limit then some s
  else if (s.toList.drop limit).all (· = ' ') then some (String.ofList (s.toList.take limit))
  else none

/-- Why a request fails: with a message of the service, or with one of the
database. -/
inductive Failure
  | rejected (message : String)
  | database
  deriving DecidableEq, Repr

end TradingPlatform.RequestTexts
