import TemplateTyping.Literal.Number
import TemplateTyping.Source.Span

/-!
# Nodes of template trees

A template is a body of nodes: text and comments, actions that evaluate a
pipeline, branches, and invocations of other templates. A pipeline is a chain
of commands, each of which is a list of operands. Every part remembers the
span of source text that it was read from.
-/

namespace TemplateTyping

/-- A variable and the names after its dots; the first name starts with a dollar
sign. -/
structure Variable where
  span : Span
  path : List String
  deriving DecidableEq, Repr

/-- The name of the variable itself; without any name it is the root variable. -/
def Variable.name (v : Variable) : String := v.path.head?.getD "$"

/-- A command: an operand, and the operands it is applied to. -/
structure Command (ν : Type) where
  span : Span
  operands : List ν

/-- A pipeline: commands of which each passes its result on to the next, and the
variables that take the last result. -/
structure Pipe (ν : Type) where
  span : Span
  isAssign : Bool := false
  declared : List Variable := []
  commands : List (Command ν)

/-- Nodes one after the other. -/
structure Body (ν : Type) where
  span : Span
  nodes : List ν

/-- The keyword that starts a branch. -/
inductive BranchKeyword
  | ifKeyword
  | rangeKeyword
  | withKeyword
  deriving DecidableEq, Repr

/-- A branch: the pipeline it depends on, its body, and the body taken otherwise. -/
structure Branch (ν : Type) where
  span : Span
  pipe : Pipe ν
  body : Body ν
  otherwise : Option (Body ν) := none

/-- The keyword that leaves a round of a range, or the whole range. -/
inductive JumpKeyword
  | breakKeyword
  | continueKeyword
  deriving DecidableEq, Repr

/-- A node of a template tree. -/
inductive Node
  | text (span : Span) (text : String)
  | comment (span : Span) (text : String)
  | action (span : Span) (pipe : Pipe Node)
  | body (body : Body Node)
  | pipe (pipe : Pipe Node)
  | command (command : Command Node)
  | field (span : Span) (path : List String)
  | chain (span : Span) (receiver : Node) (path : List String)
  | variable (v : Variable)
  | identifier (span : Span) (name : String)
  | dot (span : Span)
  | bool (span : Span) (value : Bool)
  | string (span : Span) (quoted value : String)
  | number (span : Span) (number : Number)
  | nil (span : Span)
  | branch (keyword : BranchKeyword) (branch : Branch Node)
  | template (span : Span) (name : String) (argument : Option (Pipe Node))
  | jump (span : Span) (keyword : JumpKeyword)

instance : Inhabited Node := ⟨.dot .origin⟩

/-- The span of source text that a node was read from. -/
def Node.span : Node → Span
  | .text span _ | .comment span _ | .action span _ | .field span _ | .chain span _ _
  | .identifier span _ | .dot span | .bool span _ | .string span _ _ | .number span _
  | .nil span | .template span _ _ | .jump span _ => span
  | .body b => b.span
  | .pipe p => p.span
  | .command c => c.span
  | .variable v => v.span
  | .branch _ b => b.span

end TemplateTyping
