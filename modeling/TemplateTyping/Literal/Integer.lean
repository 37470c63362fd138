import TemplateTyping.Literal.Digits

/-!
# Integer literals

Integer literals are decimal, or have a base given by a prefix: `0x`, `0o` and
`0b` in either case, or a leading zero for octal. Single underscores may stand
between digits and after the prefix. Values that need more than 64 bits are no
integers.
-/

namespace TemplateTyping.Integer

/-- The number of values that 64 bits can hold. -/
def unsignedLimit : Nat := 0x10000000000000000

/-- The number of values that are left when one of 64 bits is the sign. -/
def signedLimit : Nat := 0x8000000000000000

/-- What came last while the underscores of a number are checked. -/
inductive Last
  | start
  | digit
  | underscore
  | other
  deriving DecidableEq, Repr

/-- Whether every underscore from here on has a digit on its left and on its
right. The letters up to `f` are digits in a hexadecimal number. -/
def underscoresFrom (hex : Bool) : Last → List Char → Bool
  | last, [] => last != .underscore
  | last, c :: cs =>
      if Digits.isDigitOf (if hex then 16 else 10) c then underscoresFrom hex .digit cs
      else if c = '_' then last == .digit && underscoresFrom hex .underscore cs
      else last != .underscore && underscoresFrom hex .other cs

/-- Whether the underscores of a number stand between digits only; a base prefix
counts as a digit, and one sign may precede all. -/
def underscoresOk (cs : List Char) : Bool :=
  match (Digits.splitSign cs).2 with
  | '0' :: mark :: cs =>
      if mark = 'x' ∨ mark = 'X' then underscoresFrom true .digit cs
      else if mark = 'o' ∨ mark = 'O' ∨ mark = 'b' ∨ mark = 'B' then
        underscoresFrom false .digit cs
      else underscoresFrom false .start ('0' :: mark :: cs)
  | cs => underscoresFrom false .start cs

/-- The base of a literal, and the digits after its prefix. -/
def splitBase : List Char → Nat × List Char
  | '0' :: mark :: cs =>
      if mark = 'x' ∨ mark = 'X' then (16, cs)
      else if mark = 'o' ∨ mark = 'O' then (8, cs)
      else if mark = 'b' ∨ mark = 'B' then (2, cs)
      else (8, mark :: cs)
  | cs => (10, cs)

/-- The value of an integer literal without a sign, if it fits 64 bits. -/
def unsigned? (cs : List Char) : Option Nat :=
  if underscoresOk cs then
    let (base, digits) := splitBase cs
    (Digits.read? base (digits.filter (· != '_'))).filter (· < unsignedLimit)
  else none

/-- The value of an integer literal with an optional sign, if it fits 64 bits
including the sign. -/
def signed? (cs : List Char) : Option Int :=
  let (negative, magnitude) := Digits.splitSign cs
  match unsigned? magnitude with
  | none => none
  | some n =>
      if negative then if n ≤ signedLimit then some (-(n : Int)) else none
      else if n < signedLimit then some (n : Int) else none

end TemplateTyping.Integer
