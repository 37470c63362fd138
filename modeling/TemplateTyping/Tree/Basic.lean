import TemplateTyping.Source.Location
import TemplateTyping.Tree.Print

/-!
# Template trees

A tree is a template with its name. Trees that were read from one source text
share its name and the text, so that any place in them can be shown.
-/

namespace TemplateTyping

/-- A template: its name, its body, and the name and text of the source it was
read from. -/
structure Tree where
  name : String
  parseName : String
  root : Body Node
  source : String

namespace Tree

/-- Line and column where a span starts. -/
def location (tree : Tree) (span : Span) : Location :=
  Location.locate tree.source span.start

/-- The place of a node, written as source name, line and column. -/
def place (tree : Tree) (node : Node) : String :=
  let location := tree.location node.span
  tree.parseName ++ ":" ++ toString location.line ++ ":" ++ toString location.column

/-- Whether the tree holds nothing but white space and comments. -/
def isBlank (tree : Tree) : Bool :=
  tree.root.nodes.all fun
    | .text _ text => text.toList.all isWhiteSpace
    | .comment _ _ => true
    | _ => false

end Tree

/-- The number of characters of a node that messages show. -/
def contextLimit : Nat := 20

/-- The printed form of a node, cut off if it is long. -/
def Node.context (node : Node) : String :=
  let printed := node.print.toList
  if contextLimit < printed.length then String.ofList (printed.take contextLimit) ++ "..."
  else String.ofList printed

end TemplateTyping
