import TemplateTyping.Text.Quoted
import TemplateTyping.Tree.Node

/-!
# Printed form of nodes

Nodes are printed in template notation with the default delimiters. Pipelines
among operands, and pipelines with a path after them, stand in parentheses.
-/

namespace TemplateTyping

/-- The word of a branch keyword. -/
def BranchKeyword.word : BranchKeyword → String
  | ifKeyword => "if"
  | rangeKeyword => "range"
  | withKeyword => "with"

/-- The word of a jump keyword. -/
def JumpKeyword.word : JumpKeyword → String
  | breakKeyword => "break"
  | continueKeyword => "continue"

/-- A text between the default delimiters. -/
def delimited (text : String) : String := "\x7b\x7b" ++ text ++ "\x7d\x7d"

/-- Names, each preceded by a dot. -/
def printPath (path : List String) : String :=
  String.join (path.map ("." ++ ·))

/-- Names separated by dots. -/
def Variable.print (v : Variable) : String :=
  String.intercalate "." v.path

/-- The variables of a pipeline and the sign that sets them. -/
def printDeclared (isAssign : Bool) (declared : List Variable) : String :=
  if declared.isEmpty then ""
  else String.intercalate ", " (declared.map Variable.print) ++ if isAssign then " = " else " := "

/-- Whether the node is a pipeline in parentheses. -/
def Node.isPipe : Node → Bool
  | .pipe _ => true
  | _ => false

/-- Puts the printed form of a node in parentheses if the node is a pipeline. -/
def Node.enclose (node : Node) (printed : String) : String :=
  if node.isPipe then "(" ++ printed ++ ")" else printed

mutual

/-- The printed form of a node. -/
def Node.print (node : Node) : String :=
  match node with
  | .text _ t => t
  | .comment _ t => delimited t
  | .action _ p => delimited p.print
  | .body b => b.print
  | .pipe p => p.print
  | .command c => c.print
  | .field _ path => printPath path
  | .chain _ receiver path => receiver.enclose receiver.print ++ printPath path
  | .variable v => v.print
  | .identifier _ name => name
  | .dot _ => "."
  | .bool _ value => if value then "true" else "false"
  | .string _ quoted _ => quoted
  | .number _ n => n.text
  | .nil _ => "nil"
  | .branch keyword b => b.print keyword
  | .template _ name argument =>
      delimited ("template " ++ Quoted.text name ++ printArgument argument)
  | .jump _ keyword => delimited keyword.word
termination_by structural node

/-- The printed form of a body: its nodes one after the other. -/
def Body.print (body : Body Node) : String :=
  match body with
  | ⟨_, nodes⟩ => printNodes nodes
termination_by structural body

/-- The printed forms of nodes one after the other. -/
def printNodes (nodes : List Node) : String :=
  match nodes with
  | [] => ""
  | node :: nodes => node.print ++ printNodes nodes
termination_by structural nodes

/-- The printed form of a pipeline: the variables, then the commands separated by
bars. -/
def Pipe.print (pipe : Pipe Node) : String :=
  match pipe with
  | ⟨_, isAssign, declared, commands⟩ =>
      printDeclared isAssign declared ++ String.intercalate " | " (printCommands commands)
termination_by structural pipe

/-- The printed forms of commands. -/
def printCommands (commands : List (Command Node)) : List String :=
  match commands with
  | [] => []
  | command :: commands => command.print :: printCommands commands
termination_by structural commands

/-- The printed form of a command: its operands separated by spaces. -/
def Command.print (command : Command Node) : String :=
  match command with
  | ⟨_, operands⟩ => String.intercalate " " (printOperands operands)
termination_by structural command

/-- The printed forms of operands. -/
def printOperands (operands : List Node) : List String :=
  match operands with
  | [] => []
  | operand :: operands => operand.enclose operand.print :: printOperands operands
termination_by structural operands

/-- The printed form of a branch, from its keyword to its end. -/
def Branch.print (branch : Branch Node) (keyword : BranchKeyword) : String :=
  match branch with
  | ⟨_, pipe, body, otherwise⟩ =>
      delimited (keyword.word ++ " " ++ pipe.print) ++ body.print ++ printOtherwise otherwise ++
        delimited "end"
termination_by structural branch

/-- The printed form of the body taken otherwise. -/
def printOtherwise (otherwise : Option (Body Node)) : String :=
  match otherwise with
  | none => ""
  | some body => delimited "else" ++ body.print
termination_by structural otherwise

/-- The printed form of the argument of an invocation. -/
def printArgument (argument : Option (Pipe Node)) : String :=
  match argument with
  | none => ""
  | some pipe => " " ++ pipe.print
termination_by structural argument

end

end TemplateTyping
