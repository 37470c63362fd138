import TemplateTyping.Literal.Digits

/-!
# Extent of number literals

How many characters at the start of a text form a number literal. Only the
outline of the literal is looked at: whether it has a value is decided when the
literal is read.
-/

namespace TemplateTyping.Numeral

/-- Length of the run of characters of a class at the start. -/
def runLength (p : Char → Bool) (cs : List Char) : Nat := (cs.takeWhile p).length

/-- Length of the run of decimal digits and underscores at the start. -/
def digitsLength (cs : List Char) : Nat := runLength (fun c => c.isDigit || c == '_') cs

/-- One if a character of a class comes first, otherwise zero. -/
def oneLength (p : Char → Bool) (cs : List Char) : Nat := if cs.head?.any p then 1 else 0

/-- Length of an optional sign. -/
def signLength (cs : List Char) : Nat := oneLength (fun c => c == '+' || c == '-') cs

/-- Length of an optional exponent: its mark, an optional sign, and digits. -/
def exponentLength (mark : Char → Bool) (cs : List Char) : Nat :=
  if cs.head?.any mark then
    let sign := signLength (cs.drop 1)
    let digits := digitsLength (cs.drop (1 + sign))
    if digits = 0 then 0 else 1 + sign + digits
  else 0

/-- Length of a literal with a base prefix. -/
def prefixedLength? : List Char → Option Nat
  | '0' :: mark :: cs =>
      if mark ∈ ['x', 'X', 'o', 'O', 'b', 'B'] then
        let digits := runLength (fun c => Digits.isDigitOf 16 c || c == '_' || c == '.') cs
        some (2 + digits + exponentLength (fun c => c == 'p' || c == 'P') (cs.drop digits))
      else none
  | _ => none

/-- Length of the digits of a decimal literal, with an optional point among or
around them. -/
def mantissaLength? (cs : List Char) : Option Nat :=
  let whole := digitsLength cs
  let point := oneLength (· == '.') (cs.drop whole)
  let fraction := if point = 0 then 0 else digitsLength (cs.drop (whole + 1))
  if whole = 0 ∧ fraction = 0 then none else some (whole + point + fraction)

/-- Length of a decimal literal. -/
def decimalLength? (cs : List Char) : Option Nat :=
  (mantissaLength? cs).map fun n =>
    n + exponentLength (fun c => c == 'e' || c == 'E') (cs.drop n)

/-- Length of a number literal: an optional sign, a literal with or without base
prefix, and an optional imaginary mark. -/
def length? (cs : List Char) : Option Nat :=
  let sign := signLength cs
  match (prefixedLength? (cs.drop sign)).or (decimalLength? (cs.drop sign)) with
  | none => none
  | some n => some (sign + n + oneLength (· == 'i') (cs.drop (sign + n)))

end TemplateTyping.Numeral
