import TemplateTyping.Proofs.Token.Lexeme
import TemplateTyping.Tree.Pipeline

/-!
# Readable nodes

Not every node can be read from a source.  Names are words, literals have the
values of their texts, commands have operands, and all commands of a pipeline but
the first can be called.  Names after dots follow fields, variables, identifiers
and pipelines in parentheses, but no constant.  A pipeline sets at most one
variable, that of a range at most two.  A jump stands in the body of a range.
-/

namespace TemplateTyping

open Lexer

/-! ## Names and literals -/

/-- The name of a field, as it stands after a dot. -/
def IsFieldName (name : String) : Prop := Lexeme (.field name) ('.' :: name.toList)

/-- The name of a variable with its dollar sign. -/
def IsVariableName (name : String) : Prop := Lexeme (.variable name) name.toList

/-- A word without a fixed meaning. -/
def IsIdentifier (name : String) : Prop := Lexeme (.identifier name) name.toList

/-- The value of a number literal or of a character constant, with its text. -/
def Number.IsLiteral (number : Number) : Prop :=
  Lexeme .number number.text.toList ∧ Number.ofText number.text = .ok number ∨
    Lexeme .charConstant number.text.toList ∧
      Number.ofCharacter number.text = .ok number

/-- The text of a string literal and its value. -/
def IsStringLiteral (quoted value : String) : Prop :=
  (Lexeme .string quoted.toList ∨ Lexeme .rawString quoted.toList) ∧
    Quotation.string quoted = .ok value

/-- A variable that is read or set, with the names after its dots. -/
def Variable.IsReadable (v : Variable) : Prop :=
  ∃ name path, v.path = name :: path ∧ IsVariableName name ∧
    ∀ field ∈ path, IsFieldName field

/-- Variables that a pipeline sets: each is a name alone, and without any of them
nothing is assigned. -/
structure AreDeclared (limit : Nat) (isAssign : Bool) (declared : List Variable) :
    Prop where
  length_le : declared.length ≤ limit
  isAssign_of_nil : declared = [] → isAssign = false
  single : ∀ v ∈ declared, ∃ name, v.path = [name] ∧ IsVariableName name

/-- A term after which names after dots make a chain. -/
def Node.isReceiver : Node → Bool
  | .identifier _ _ | .pipe _ => true
  | _ => false

/-! ## Pipelines -/

mutual

/-- A node that can be read as an operand. -/
def Node.IsOperand (node : Node) : Prop :=
  match node with
  | .dot _ | .nil _ | .bool _ _ => True
  | .identifier _ name => IsIdentifier name
  | .variable v => v.IsReadable
  | .field _ path => path ≠ [] ∧ ∀ name ∈ path, IsFieldName name
  | .number _ number => number.IsLiteral
  | .string _ quoted value => IsStringLiteral quoted value
  | .pipe p => p.IsReadable 1
  | .chain _ receiver path => receiver.isReceiver = true ∧ receiver.IsOperand ∧
      path ≠ [] ∧ ∀ name ∈ path, IsFieldName name
  | _ => False
termination_by structural node

/-- A pipeline that can be read, with a number of variables at most. -/
def Pipe.IsReadable (pipe : Pipe Node) (limit : Nat) : Prop :=
  match pipe with
  | ⟨_, isAssign, declared, commands⟩ =>
      AreDeclared limit isAssign declared ∧ commands ≠ [] ∧
        TokenReader.notExecutable? 2 commands.tail = none ∧ AreReadable commands
termination_by structural pipe

/-- Commands that can be read. -/
def AreReadable (commands : List (Command Node)) : Prop :=
  match commands with
  | [] => True
  | command :: commands => command.IsReadable ∧ AreReadable commands
termination_by structural commands

/-- A command that can be read. -/
def Command.IsReadable (command : Command Node) : Prop :=
  match command with
  | ⟨_, operands⟩ => operands ≠ [] ∧ AreOperands operands
termination_by structural command

/-- Nodes that can be read as operands. -/
def AreOperands (operands : List Node) : Prop :=
  match operands with
  | [] => True
  | operand :: operands => operand.IsOperand ∧ AreOperands operands
termination_by structural operands

end

/-! ## Bodies -/

/-- The number of variables that the pipeline of a branch may set. -/
def BranchKeyword.limit : BranchKeyword → Nat
  | .rangeKeyword => 2
  | .ifKeyword | .withKeyword => 1

mutual

/-- A node that can be read in a body, inside or outside of a range. -/
def Node.IsReadable (inRange : Bool) (node : Node) : Prop :=
  match node with
  | .text _ text => text ≠ ""
  | .comment _ text => IsComment text.toList
  | .action _ pipe => pipe.IsReadable 1
  | .branch keyword b => b.IsReadable inRange keyword
  | .template _ _ none => True
  | .template _ _ (some argument) => argument.IsReadable 1
  | .jump _ _ => inRange = true
  | _ => False
termination_by structural node

/-- A branch that can be read; its body is in a range if the branch is one. -/
def Branch.IsReadable (inRange : Bool) (keyword : BranchKeyword)
    (branch : Branch Node) : Prop :=
  match branch with
  | ⟨_, pipe, body, otherwise⟩ => pipe.IsReadable keyword.limit ∧
      body.IsReadable (inRange || keyword == .rangeKeyword) ∧
        OtherwiseReadable inRange otherwise
termination_by structural branch

/-- A body taken otherwise that can be read. -/
def OtherwiseReadable (inRange : Bool) (otherwise : Option (Body Node)) : Prop :=
  match otherwise with
  | none => True
  | some body => body.IsReadable inRange
termination_by structural otherwise

/-- A body that can be read. -/
def Body.IsReadable (inRange : Bool) (body : Body Node) : Prop :=
  match body with
  | ⟨_, nodes⟩ => NodesReadable inRange nodes
termination_by structural body

/-- Nodes that can be read one after the other. -/
def NodesReadable (inRange : Bool) (nodes : List Node) : Prop :=
  match nodes with
  | [] => True
  | node :: nodes => node.IsReadable inRange ∧ NodesReadable inRange nodes
termination_by structural nodes

end

end TemplateTyping
