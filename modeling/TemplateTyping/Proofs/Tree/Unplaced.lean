import TemplateTyping.Tree.Pipeline

/-!
# Nodes without their places

Two nodes that were read from different places may be the same otherwise.  A node
without its places has the origin for each of its spans; all other parts are kept.
-/

namespace TemplateTyping

/-- A variable without its place. -/
def Variable.unplaced (v : Variable) : Variable := ⟨.origin, v.path⟩

mutual

/-- A node without its places. -/
def Node.unplaced (node : Node) : Node :=
  match node with
  | .text _ text => .text .origin text
  | .comment _ text => .comment .origin text
  | .action _ pipe => .action .origin pipe.unplaced
  | .body body => .body body.unplaced
  | .pipe pipe => .pipe pipe.unplaced
  | .command command => .command command.unplaced
  | .field _ path => .field .origin path
  | .chain _ receiver path => .chain .origin receiver.unplaced path
  | .variable v => .variable v.unplaced
  | .identifier _ name => .identifier .origin name
  | .dot _ => .dot .origin
  | .bool _ value => .bool .origin value
  | .string _ quoted value => .string .origin quoted value
  | .number _ number => .number .origin number
  | .nil _ => .nil .origin
  | .branch keyword branch => .branch keyword branch.unplaced
  | .template _ name argument => .template .origin name (unplacedArgument argument)
  | .jump _ keyword => .jump .origin keyword
termination_by structural node

/-- A body without its places. -/
def Body.unplaced (body : Body Node) : Body Node :=
  match body with
  | ⟨_, nodes⟩ => ⟨.origin, unplacedNodes nodes⟩
termination_by structural body

/-- Nodes without their places. -/
def unplacedNodes (nodes : List Node) : List Node :=
  match nodes with
  | [] => []
  | node :: nodes => node.unplaced :: unplacedNodes nodes
termination_by structural nodes

/-- A pipeline without its places. -/
def Pipe.unplaced (pipe : Pipe Node) : Pipe Node :=
  match pipe with
  | ⟨_, isAssign, declared, commands⟩ =>
      ⟨.origin, isAssign, declared.map Variable.unplaced, unplacedCommands commands⟩
termination_by structural pipe

/-- Commands without their places. -/
def unplacedCommands (commands : List (Command Node)) : List (Command Node) :=
  match commands with
  | [] => []
  | command :: commands => command.unplaced :: unplacedCommands commands
termination_by structural commands

/-- A command without its places. -/
def Command.unplaced (command : Command Node) : Command Node :=
  match command with
  | ⟨_, operands⟩ => ⟨.origin, unplacedNodes operands⟩
termination_by structural command

/-- A branch without its places. -/
def Branch.unplaced (branch : Branch Node) : Branch Node :=
  match branch with
  | ⟨_, pipe, body, otherwise⟩ =>
      ⟨.origin, pipe.unplaced, body.unplaced, unplacedOtherwise otherwise⟩
termination_by structural branch

/-- A body taken otherwise without its places. -/
def unplacedOtherwise (otherwise : Option (Body Node)) : Option (Body Node) :=
  match otherwise with
  | none => none
  | some body => some body.unplaced
termination_by structural otherwise

/-- The argument of an invocation without its places. -/
def unplacedArgument (argument : Option (Pipe Node)) : Option (Pipe Node) :=
  match argument with
  | none => none
  | some pipe => some pipe.unplaced
termination_by structural argument

end

/-! ## What does not depend on places -/

namespace TokenReader

@[simp]
theorem isConstant_unplaced (node : Node) :
    isConstant node.unplaced = isConstant node := by
  cases node <;> rfl

/-- Whether all commands can be called does not depend on their places. -/
theorem isNone_notExecutable?_unplaced (stage : Nat) (commands : List (Command Node)) :
    (notExecutable? stage (unplacedCommands commands)).isNone =
      (notExecutable? stage commands).isNone := by
  induction commands generalizing stage with
  | nil => rfl
  | cons command commands ih =>
      obtain ⟨span, operands⟩ := command
      cases operands with
      | nil =>
          simp only [unplacedCommands, Command.unplaced, unplacedNodes, notExecutable?]
          exact ih (stage + 1)
      | cons first operands =>
          simp only [unplacedCommands, Command.unplaced, unplacedNodes, notExecutable?,
            isConstant_unplaced]
          split
          · rfl
          · exact ih (stage + 1)

end TokenReader

theorem unplacedCommands_tail (commands : List (Command Node)) :
    unplacedCommands commands.tail = (unplacedCommands commands).tail := by
  cases commands with
  | nil => rfl
  | cons command commands => rfl

theorem unplacedCommands_eq_nil {commands : List (Command Node)} :
    unplacedCommands commands = [] ↔ commands = [] := by
  cases commands with
  | nil => simp [unplacedCommands]
  | cons command commands => simp [unplacedCommands]

theorem unplacedNodes_eq_nil {nodes : List Node} :
    unplacedNodes nodes = [] ↔ nodes = [] := by
  cases nodes with
  | nil => simp [unplacedNodes]
  | cons node nodes => simp [unplacedNodes]

end TemplateTyping
