/-!
# Lines and columns

An offset into a source text is shown to people as a line and a column. Both
count from one, and the column counts bytes: the line of an offset is one more
than the number of newline bytes before it, its column one more than the number
of bytes since the last of them.
-/

namespace TemplateTyping

/-- A place in a source text: line and column, both counted from one. -/
structure Location where
  line : Nat
  column : Nat
  deriving DecidableEq, Repr

/-- The UTF-8 bytes of a text. -/
def sourceBytes (source : String) : List UInt8 := source.toUTF8.data.toList

/-- The byte that ends a line. -/
def newline : UInt8 := 10

namespace Location

/-- The place reached after the bytes `before`. -/
def after (before : List UInt8) : Location where
  line := before.count newline + 1
  column := (before.reverse.takeWhile (· != newline)).length + 1

/-- The place of a byte offset; an offset past the end counts as the end. -/
def locate (source : String) (offset : Nat) : Location :=
  after ((sourceBytes source).take offset)

end Location

end TemplateTyping
