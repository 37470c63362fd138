import TemplateTyping.Literal.Digits
import TemplateTyping.Text.Quoted

/-!
# Quoted literals

The values of string literals and character constants. Between back quotes
every character stands for itself, carriage returns are left out. Between
double quotes and single quotes a backslash starts an escape sequence. A literal
of any kind may have no value, and the reasons for that are listed first.
-/

namespace TemplateTyping

/-- Why a literal has no value; each reason carries the text of the literal. -/
inductive LiteralError
  | invalidQuotedString (text : String)
  | invalidEscape (text : String)
  | malformedCharacter (text : String)
  | illegalNumber (text : String)
  | integerOverflow (text : String)
  deriving DecidableEq, Repr

/-- The wording of a fault. -/
def LiteralError.message : LiteralError → String
  | invalidQuotedString text => "invalid quoted string " ++ text
  | invalidEscape text => "invalid escape sequence in " ++ text
  | malformedCharacter text => "malformed character constant: " ++ text
  | illegalNumber text => "illegal number syntax: " ++ Quoted.text text
  | integerOverflow text => "integer overflow: " ++ Quoted.text text

namespace Quotation

/-- What stands between two quotes of the given kind. -/
def between? (quote : Char) : List Char → Option (List Char)
  | [] => none
  | c :: cs => if c = quote ∧ cs.getLast? = some quote then some cs.dropLast else none

/-- The character of a code point. -/
def character? (code : Nat) : Option Char :=
  if code.isValidChar then some (Char.ofNat code) else none

/-- The character whose code point is written by the first `count` characters,
and what follows them. -/
def codePoint? (base count : Nat) (cs : List Char) : Option (Char × List Char) :=
  if cs.length < count then none
  else
    match (Digits.readPlus? base (cs.take count)).bind character? with
    | some c => some (c, cs.drop count)
    | none => none

/-- The escapes of one letter, and the characters they stand for. -/
def simpleEscapes : List (Char × Char) :=
  [('a', '\x07'), ('b', '\x08'), ('f', '\x0c'), ('n', '\n'), ('r', '\r'), ('t', '\t'),
    ('v', '\x0b'), ('\\', '\\'), ('\'', '\''), ('"', '"')]

/-- The character that an escape sequence stands for, and what follows it; the
backslash is taken off already. -/
def escape? : List Char → Option (Char × List Char)
  | [] => none
  | c :: cs =>
      match simpleEscapes.lookup c with
      | some value => some (value, cs)
      | none =>
          if c = 'x' then codePoint? 16 2 cs
          else if c = 'u' then codePoint? 16 4 cs
          else if c = 'U' then codePoint? 16 8 cs
          else if Digits.isDigitOf 8 c then codePoint? 8 3 (c :: cs)
          else none

theorem length_codePoint?_le {base count : Nat} {cs rest : List Char} {c : Char}
    (h : codePoint? base count cs = some (c, rest)) : rest.length + count ≤ cs.length := by
  unfold codePoint? at h
  split at h
  · simp at h
  · split at h
    · simp only [Option.some.injEq, Prod.mk.injEq] at h
      rw [← h.2, List.length_drop]
      omega
    · simp at h

/-- An escape sequence takes at least one character. -/
theorem length_escape?_lt {cs rest : List Char} {c : Char}
    (h : escape? cs = some (c, rest)) : rest.length < cs.length := by
  unfold escape? at h
  split at h
  · simp at h
  · rename_i first cs
    split at h
    · simp only [Option.some.injEq, Prod.mk.injEq] at h
      simp [h.2]
    · split at h
      · have := length_codePoint?_le h
        simp only [List.length_cons]
        omega
      · split at h
        · have := length_codePoint?_le h
          simp only [List.length_cons]
          omega
        · split at h
          · have := length_codePoint?_le h
            simp only [List.length_cons]
            omega
          · split at h
            · have := length_codePoint?_le h
              omega
            · simp at h

/-- Why a text between quotes cannot be decoded. -/
inductive Fault
  | escape
  | quoteOrNewline
  deriving DecidableEq, Repr

/-- The value of the text between double quotes. -/
def decode (cs : List Char) : Except Fault (List Char) :=
  match cs with
  | [] => .ok []
  | '\\' :: cs =>
      match h : escape? cs with
      | some (c, rest) =>
          have := length_escape?_lt h
          (decode rest).map (c :: ·)
      | none => .error .escape
  | c :: cs => if c = '"' ∨ c = '\n' then .error .quoteOrNewline else (decode cs).map (c :: ·)
termination_by cs.length

/-- The value of a string literal. -/
def string (text : String) : Except LiteralError String :=
  let cs := text.toList
  match between? '\x60' cs with
  | some raw => .ok (String.ofList (raw.filter (· != '\r')))
  | none =>
      match between? '"' cs with
      | none => .error (.invalidQuotedString text)
      | some body =>
          match decode body with
          | .ok value => .ok (String.ofList value)
          | .error .escape => .error (.invalidEscape text)
          | .error .quoteOrNewline => .error (.invalidQuotedString text)

/-- The value of a character constant. -/
def character (text : String) : Except LiteralError Char :=
  match between? '\'' text.toList with
  | some ('\\' :: cs) =>
      match escape? cs with
      | some (c, []) => .ok c
      | some (_, _ :: _) => .error (.malformedCharacter text)
      | none => .error (.invalidEscape text)
  | some [c] => if c = '\'' then .error (.malformedCharacter text) else .ok c
  | _ => .error (.malformedCharacter text)

end Quotation

end TemplateTyping
