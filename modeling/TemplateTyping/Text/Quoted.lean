import TemplateTyping.Text.CharClass

/-!
# Quoted text in messages

Messages show names and pieces of source between quotes. The quote itself and
the backslash are escaped, four control characters have short forms, and every
other character that leaves no mark of its own is given by its code point.
-/

namespace TemplateTyping.Quoted

/-- A character given by its code point: backslash, `u`, and hexadecimal digits in braces. -/
def codePoint (c : Char) : List Char :=
  ['\\', 'u', '\x7b'] ++ Nat.toDigits 16 c.toNat ++ ['\x7d']

/-- A character as it stands between two quotes of the given kind. -/
def escape (quote c : Char) : List Char :=
  if c == '\x00' then ['\\', '0']
  else if c == '\t' then ['\\', 't']
  else if c == '\r' then ['\\', 'r']
  else if c == '\n' then ['\\', 'n']
  else if c == quote || c == '\\' then ['\\', c]
  else if isExtendingMark c || !isPrintable c then codePoint c
  else [c]

/-- A text between double quotes. -/
def text (s : String) : String :=
  String.ofList ('"' :: (s.toList.flatMap (escape '"') ++ ['"']))

/-- A character between single quotes. -/
def character (c : Char) : String :=
  String.ofList ('\'' :: (escape '\'' c ++ ['\'']))

end TemplateTyping.Quoted
