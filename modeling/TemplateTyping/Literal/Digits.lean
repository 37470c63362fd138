/-!
# Digits

Reading whole numbers from their digits in some base. The digits beyond nine
are the letters from `a` on, in either case.
-/

namespace TemplateTyping.Digits

/-- The value of a digit, if the character is a digit of the base. -/
def value? (base : Nat) (c : Char) : Option Nat :=
  let value :=
    if c.isDigit then some (c.toNat - '0'.toNat)
    else if 'a' ≤ c ∧ c ≤ 'f' then some (c.toNat - 'a'.toNat + 10)
    else if 'A' ≤ c ∧ c ≤ 'F' then some (c.toNat - 'A'.toNat + 10)
    else none
  value.filter (· < base)

/-- Whether the character is a digit of the base. -/
def isDigitOf (base : Nat) (c : Char) : Bool := (value? base c).isSome

/-- Continues a number with further digits. -/
def extend? (base : Nat) : Nat → List Char → Option Nat
  | acc, [] => some acc
  | acc, c :: cs =>
      match value? base c with
      | some digit => extend? base (acc * base + digit) cs
      | none => none

/-- The number written by the digits; at least one is needed. -/
def read? (base : Nat) (cs : List Char) : Option Nat :=
  if cs.isEmpty then none else extend? base 0 cs

/-- The number written by the digits after an optional plus sign. -/
def readPlus? (base : Nat) : List Char → Option Nat
  | '+' :: cs => read? base cs
  | cs => read? base cs

/-- A leading sign, if there is one: whether it is a minus, and what follows. -/
def splitSign : List Char → Bool × List Char
  | '-' :: cs => (true, cs)
  | '+' :: cs => (false, cs)
  | cs => (false, cs)

/-- A decimal number with an optional sign that lies between `-limit` and
`limit`, the latter excluded. -/
def readSigned? (limit : Nat) (cs : List Char) : Option Int :=
  let (negative, digits) := splitSign cs
  match read? 10 digits with
  | none => none
  | some n =>
      if negative then if n ≤ limit then some (-(n : Int)) else none
      else if n < limit then some (n : Int) else none

end TemplateTyping.Digits
