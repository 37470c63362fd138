import TemplateTyping.Text.Property.Alphabetic
import TemplateTyping.Text.Property.ExtendingMark
import TemplateTyping.Text.Property.Numeric
import TemplateTyping.Text.Property.Unprintable
import TemplateTyping.Text.Property.Uppercase

/-!
# Classes of characters

The classes that template sources and messages depend on. Each class has a rule
of its own for ASCII and follows a Unicode property beyond it.

The code points with a property are written as the ascending list of the places
where membership changes: code points below the first boundary are outside, those
from the first up to the second are inside, and so on.
-/

namespace TemplateTyping

namespace CodePoints

/-- Whether a code point lies inside the set with these boundaries. -/
def inside : List Nat → Nat → Bool
  | [], _ => false
  | boundary :: boundaries, code =>
      if code < boundary then false else !inside boundaries code

@[simp]
theorem inside_nil (code : Nat) : inside [] code = false := rfl

/-- Nothing below the first boundary is inside. -/
theorem inside_cons_of_lt {boundary code : Nat} (boundaries : List Nat)
    (h : code < boundary) : inside (boundary :: boundaries) code = false := by
  simp [inside, h]

/-- From the first boundary on, membership is decided against the rest. -/
theorem inside_cons_of_le {boundary code : Nat} (boundaries : List Nat)
    (h : boundary ≤ code) :
    inside (boundary :: boundaries) code = !inside boundaries code := by
  simp [inside, Nat.not_lt.mpr h]

/-- Boundaries of the code points with the White_Space property of the Unicode standard, from
U+0080 on. -/
def whiteSpace : List Nat :=
  [
    0x85, 0x86, 0xA0, 0xA1, 0x1680, 0x1681, 0x2000, 0x200B, 0x2028, 0x202A, 0x202F, 0x2030,
    0x205F, 0x2060, 0x3000, 0x3001
  ]

end CodePoints

/-- Membership by an ASCII rule below U+0080 and by a property from there on. -/
def byProperty (ascii : Char → Bool) (boundaries : List Nat) (c : Char) : Bool :=
  if c.toNat < 0x80 then ascii c else CodePoints.inside boundaries c.toNat

/-- An ASCII character is classified by the ASCII rule alone. -/
theorem byProperty_of_ascii {c : Char} (ascii : Char → Bool) (boundaries : List Nat)
    (h : c.toNat < 0x80) : byProperty ascii boundaries c = ascii c := by
  simp [byProperty, h]

/-- Letters of any script, and marks that count as letters. -/
def isAlphabetic (c : Char) : Bool :=
  byProperty Char.isAlpha CodePoints.alphabetic c

/-- Digits and other numbers of any script. -/
def isNumeric (c : Char) : Bool :=
  byProperty Char.isDigit CodePoints.numeric c

/-- Upper-case letters of any script. -/
def isUppercase (c : Char) : Bool :=
  byProperty Char.isUpper CodePoints.uppercase c

/-- White space of any script. -/
def isWhiteSpace (c : Char) : Bool :=
  byProperty (fun c => c == ' ' || (9 ≤ c.toNat && c.toNat ≤ 13)) CodePoints.whiteSpace c

/-- Marks that are drawn on the character before them. Letters never count, even
those that extend the character before them. -/
def isExtendingMark (c : Char) : Bool :=
  byProperty (fun _ => false) CodePoints.extendingMark c

/-- Characters that leave a mark of their own, and the plain space. Letters that
only fill a place are not printable. -/
def isPrintable (c : Char) : Bool :=
  !byProperty (fun c => c.toNat < 0x20 || c.toNat == 0x7f) CodePoints.unprintable c

/-- The four characters that separate tokens and that trim markers remove. -/
def isBlank (c : Char) : Bool :=
  c == ' ' || c == '\t' || c == '\r' || c == '\n'

/-- Characters of names: letters, numbers and the underscore. -/
def isWordChar (c : Char) : Bool :=
  c == '_' || isAlphabetic c || isNumeric c

/-- Whether a name is exported: it starts with an upper-case letter. -/
def isExported (name : String) : Bool :=
  name.toList.head?.any isUppercase

end TemplateTyping
