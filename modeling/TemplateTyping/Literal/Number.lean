import TemplateTyping.Literal.Quotation
import TemplateTyping.Literal.Real

/-!
# Number constants

A number constant may be usable in several ways at once: as a signed or
unsigned integer, as a floating-point number, or as a complex number. Each way
has a flag and a value; a value without its flag plays no role.
-/

namespace TemplateTyping

/-- A number constant, its text and the ways in which it can be used. -/
structure Number where
  text : String
  isInt : Bool := false
  isUint : Bool := false
  isFloat : Bool := false
  isComplex : Bool := false
  int : Int := 0
  uint : Nat := 0
  float : Float := 0
  complex : Float × Float := (0, 0)

namespace Number

/-- Adds the uses of a floating-point value as an integer. -/
def withIntegers (number : Number) (value : Float) : Number :=
  let number := match Real.exactInt? value with
    | some n => { number with isInt := true, int := n }
    | none => number
  match Real.exactNat? value with
  | some n => { number with isUint := true, uint := n }
  | none => number

/-- Whether the text shows a fraction or an exponent. -/
def showsFraction (cs : List Char) : Bool :=
  cs.any fun c => c = '.' || c = 'e' || c = 'E' || c = 'p' || c = 'P'

/-- Splits before the last sign that does not belong to an exponent; `last` is
the character before. -/
def splitLastSign? (last : Char) : List Char → Option (List Char × List Char)
  | [] => none
  | c :: cs =>
      match splitLastSign? c cs with
      | some (before, after) => some (c :: before, after)
      | none =>
          if (c = '+' || c = '-') &&
              !(last = 'e' || last = 'E' || last = 'p' || last = 'P') then some ([], c :: cs)
          else none

/-- The two parts of a complex constant whose imaginary mark is taken off. -/
def complexParts? (cs : List Char) : Option (Float × Float) :=
  match Real.read? cs with
  | some imaginary => some (0, imaginary)
  | none =>
      match cs with
      | [] => none
      | c :: cs => do
          let (before, after) ← splitLastSign? c cs
          let real ← Real.read? (c :: before)
          let imaginary ← Real.read? after
          return (real, imaginary)

/-- The constant of a text that ends in the imaginary mark. -/
def ofImaginary (text : String) (cs : List Char) : Except LiteralError Number :=
  match complexParts? cs with
  | none => .error (.illegalNumber text)
  | some (real, imaginary) =>
      let number : Number := { text, isComplex := true, complex := (real, imaginary) }
      if imaginary == 0 then
        .ok ({ number with isFloat := true, float := real }.withIntegers real)
      else .ok number

/-- The constant of an integer literal. -/
def ofInteger (text : String) (int : Option Int) (uint : Option Nat) : Number :=
  { text
    isInt := int.isSome
    int := int.getD 0
    isUint := uint.isSome
    uint := uint.getD 0
    isFloat := true
    float := Binary64.ofInt (int.getD (uint.getD 0 : Nat)) }

/-- The constant of a text without imaginary mark: an integer if it fits one, or
else a floating-point number that shows that it is one. -/
def ofReal (text : String) (cs : List Char) : Except LiteralError Number :=
  match Integer.signed? cs, Integer.unsigned? cs with
  | none, none =>
      match Real.read? cs with
      | none => .error (.illegalNumber text)
      | some value =>
          if showsFraction cs then
            .ok ({ text, isFloat := true, float := value : Number }.withIntegers value)
          else .error (.integerOverflow text)
  | int, uint => .ok (ofInteger text int uint)

/-- The constant of the text of a number literal. -/
def ofText (text : String) : Except LiteralError Number :=
  let cs := text.toList
  if cs.getLast? = some 'i' then ofImaginary text cs.dropLast else ofReal text cs

/-- The constant of the text of a character constant: its code point. -/
def ofCharacter (text : String) : Except LiteralError Number := do
  let c ← Quotation.character text
  return ofInteger text (some c.toNat) (some c.toNat)

end Number

end TemplateTyping
