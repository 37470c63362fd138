import TemplateTyping.Literal.Binary64
import TemplateTyping.Literal.Integer

/-!
# Floating-point literals

Decimal literals have the nearest floating-point value. Hexadecimal literals
need a binary exponent and are worked out digit by digit in floating point.
Literals without a finite value have no value.
-/

namespace TemplateTyping.Real

/-- Splits at the first character of a class, which is left out. -/
def splitAt? (p : Char → Bool) : List Char → Option (List Char × List Char)
  | [] => none
  | c :: cs =>
      if p c then some ([], cs)
      else (splitAt? p cs).map fun (before, after) => (c :: before, after)

/-- The exponent of a decimal literal, zero if there is none. -/
def exponent? : Option (List Char) → Option Int
  | none => some 0
  | some cs =>
      let (negative, digits) := Digits.splitSign cs
      (Digits.read? 10 digits).map fun n => if negative then -(n : Int) else (n : Int)

/-- The value of a decimal literal: digits with an optional point among them, an
optional sign before them and an optional exponent after them. -/
def decimal? (cs : List Char) : Option Float := do
  let (negative, cs) := Digits.splitSign cs
  let (mantissa, exponent) := match splitAt? (fun c => c = 'e' || c = 'E') cs with
    | some (before, after) => (before, some after)
    | none => (cs, none)
  let (whole, fraction) := (splitAt? (· = '.') mantissa).getD (mantissa, [])
  let digits ← Digits.read? 10 (whole ++ fraction)
  let exponent ← exponent? exponent
  let value := Binary64.ofDecimal digits (exponent - fraction.length)
  return if negative then -value else value

/-- Continues a value with further hexadecimal digits. -/
def hexWhole? : Float → List Char → Option Float
  | value, [] => some value
  | value, c :: cs => do
      let digit ← Digits.value? 16 c
      hexWhole? (value * 16 + digit.toFloat) cs

/-- Continues a value with hexadecimal digits after the point, of which the first
counts `scale`. -/
def hexFraction? : Float → Float → List Char → Option Float
  | _, value, [] => some value
  | scale, value, c :: cs => do
      let digit ← Digits.value? 16 c
      hexFraction? (scale / 16) (value + digit.toFloat * scale) cs

/-- The bound on binary exponents: they fit 32 bits including the sign. -/
def exponentLimit : Nat := 0x80000000

/-- The value of a hexadecimal literal after its prefix. -/
def hexadecimal? (cs : List Char) : Option Float := do
  let (mantissa, exponent) ← splitAt? (fun c => c = 'p' || c = 'P') cs
  let exponent ← Digits.readSigned? exponentLimit exponent
  let (whole, fraction) := (splitAt? (· = '.') mantissa).getD (mantissa, [])
  if whole.isEmpty && fraction.isEmpty then none
  let value ← hexWhole? 0 whole
  let value ← hexFraction? (1 / 16) value fraction
  return value * Binary64.powerOfTwo exponent

/-- The value of a literal without its sign and without underscores. -/
def magnitude? : List Char → Option Float
  | '0' :: 'x' :: cs => hexadecimal? cs
  | '0' :: 'X' :: cs => hexadecimal? cs
  | cs => decimal? cs

/-- The finite value of a floating-point literal with an optional sign. -/
def read? (cs : List Char) : Option Float := do
  if !Integer.underscoresOk cs then none
  let (negative, cs) := Digits.splitSign cs
  let value ← magnitude? (cs.filter (· != '_'))
  if value.isFinite then return if negative then -value else value
  else none

/-- The whole number between `-2 ^ 63` and `2 ^ 63` that a value is, if any. -/
def exactInt? (value : Float) : Option Int :=
  if -9223372036854775808 ≤ value ∧ value < 9223372036854775808 ∧ value == value.floor then
    some value.toInt64.toInt
  else none

/-- The whole number between zero and `2 ^ 64` that a value is, if any. -/
def exactNat? (value : Float) : Option Nat :=
  if 0 ≤ value ∧ value < 18446744073709551616 ∧ value == value.floor then
    some value.toUInt64.toNat
  else none

end TemplateTyping.Real
