import TemplateTyping.Check.Scope
import TemplateTyping.Source.SyntaxError

/-!
# Diagnostics

A fault is shown to people by a headline, a label on a stretch of the source,
and sometimes advice. The plain rendering shows the line of the label with the
lines around it; it is made for labels within one line.
-/

namespace TemplateTyping

/-- A fault as it is shown to people. -/
structure Diagnostic where
  sourceName : String
  source : String
  headline : String
  label : String
  span : Span
  help : Option String
  deriving DecidableEq, Repr

namespace Diagnostic

/-- The diagnostic of a fault of a source. -/
def ofSyntaxError (source : String) (e : SyntaxError) : Diagnostic where
  sourceName := e.name
  source := source
  headline := e.message
  label := e.detail
  span := e.span
  help := e.help

/-- The diagnostic of a fault of a typed template. -/
def ofTypeError (e : TypeError) : Diagnostic where
  sourceName := e.name
  source := e.source
  headline := "[" ++ e.cause.code ++ "] " ++ e.message
  label := e.cause.message
  span := e.span
  help := some ("while executing " ++ Quoted.text e.name ++ " at <" ++ e.context ++ ">")

/-- The lines of a text. What follows the last newline is a line unless it is
empty. -/
def lines (text : String) : List String :=
  let pieces := text.splitOn "\n"
  if pieces.getLast? = some "" then pieces.dropLast else pieces

/-- A character repeated. -/
def repeated (count : Nat) (c : Char) : String := String.ofList (List.replicate count c)

/-- A number, moved to the right in a column. -/
def aligned (width n : Nat) : String :=
  let digits := toString n
  repeated (width - digits.length) ' ' ++ digits

/-- The two lines that point at a stretch of `length` characters after `skip`
others and show its label. -/
def pointer (margin : String) (skip length : Nat) (label : String) : List String :=
  let half := length / 2
  [margin ++ "· " ++ repeated skip ' ' ++ repeated half '─' ++ "┬" ++
      repeated (length - half - 1) '─',
    margin ++ "· " ++ repeated (skip + half) ' ' ++ "╰── " ++ label]

/-- The numbered lines of a source that the rendering shows: the one with the
label and those next to it. -/
def shownLines (source : String) (line : Nat) : List (Nat × String) :=
  ((lines source).zipIdx 1).filterMap fun (text, number) =>
    if number ≤ line + 1 ∧ line ≤ number + 1 then some (number, text) else none

/-- The rendering of a diagnostic. A label that reaches past the end of the source
leaves the headline only. -/
def render (d : Diagnostic) : String :=
  if d.source.utf8ByteSize < d.span.start + d.span.length then d.headline
  else
    let location := Location.locate d.source d.span.start
    let shown := shownLines d.source location.line
    let width := (shown.getLast?.map fun (number, _) => (toString number).length).getD 0
    let margin := repeated (width + 2) ' '
    let first := (shown.head?.map (·.1)).getD location.line
    let body := shown.flatMap fun (number, text) =>
      (" " ++ aligned width number ++ " │ " ++ text) ::
        if number = location.line then
          pointer margin (location.column - 1) d.span.length d.label
        else []
    let all := ["  × " ++ d.headline,
        margin ++ "╭─[" ++ d.sourceName ++ ":" ++ toString first ++ ":1]"] ++
      body ++ [margin ++ "╰────"] ++ (d.help.map ("  help: " ++ ·)).toList
    String.join (all.map (· ++ "\n"))

end Diagnostic

end TemplateTyping
