import TemplateTyping.Check.Iteration
import TemplateTyping.Check.Path

/-!
# Walking through templates

A template is walked through as if it were executed, with types in place of
values. How invocations of other templates are judged is left to the context,
so the walk follows the structure of the tree alone.

A number constant has an untyped kind. Texts that show a fraction are
floating-point constants even if the value is whole; an integer that fits only
without sign is too large.
-/

namespace TemplateTyping

/-- Whether the text is that of a hexadecimal integer. -/
def isHexInteger (text : String) : Bool :=
  match text.toList.dropWhile fun c => c == '+' || c == '-' with
  | '0' :: mark :: c :: cs =>
      (mark == 'x' || mark == 'X') && !(c :: cs).any fun c => c == 'p' || c == 'P'
  | _ => false

/-- Whether the text is that of a character constant. -/
def isCharacterText (text : String) : Bool := text.toList.head? = some '\''

/-- The untyped kind of a number constant. -/
def Number.kind (number : Number) : Except Cause Kind :=
  if number.isComplex then .ok .untypedComplex
  else if number.isFloat && !isHexInteger number.text && !isCharacterText number.text &&
      Number.showsFraction number.text.toList then .ok .untypedFloat
  else if number.isInt then .ok .untypedInt
  else if number.isUint then .error (.overflow number.text)
  else .ok .untypedInt

namespace Context

/-- Sets the variables of a range: the element, or the key and the element. -/
def setRangeVariables (ctx : Context) (node : Node) (source : Ty) (isAssign : Bool)
    (declared : List Variable) (iteration : Iteration) : Checker Unit := do
  match declared, iteration.key with
  | [], _ => return ()
  | [value], _ => ctx.setVariable value isAssign iteration.elem
  | index :: value :: _, some key =>
      ctx.setVariable index isAssign key
      ctx.setVariable value isAssign iteration.elem
  | _, none => ctx.fail node (.rangeVariables (ctx.types.describe source))

mutual

/-- Walks through a node that may be applied to arguments, and gives its type if
it has one. -/
def walk (ctx : Context) (dot : Ty) (args : Arguments) (node : Node) : Checker (Option Ty) :=
  match node with
  | .text _ _ | .comment _ _ | .jump _ _ => return none
  | .action _ pipe => return some (← ctx.checkPipe dot pipe)
  | .body body => ctx.walkBody dot body
  | .pipe pipe => do
      ctx.plain (.pipe pipe) args
      return some (← ctx.checkPipe dot pipe)
  | .command command => return some (← ctx.checkCommand dot command args.passed)
  | .field span path => return some (← ctx.checkPath (.field span path) args dot path)
  | .chain span receiver path => do
      let ty := (← ctx.walk dot .none receiver).getD nilType
      return some (← ctx.checkPath (.chain span receiver path) args ty path)
  | .variable v => do
      let ty ← ctx.variableType (.variable v) v.name
      match v.path with
      | [_] => ctx.plain (.variable v) args; return some ty
      | path => return some (← ctx.checkPath (.variable v) args ty path.tail)
  | .identifier span name => do
      let types ← args.types
      let verdict := ctx.types.checkCall ctx.functions name args.operands types
      return some (← ctx.located (.identifier span name) verdict)
  | .dot span => do
      ctx.plain (.dot span) args
      return some dot
  | .nil span => do
      ctx.plain (.nil span) args
      return some nilType
  | .bool span value => do
      ctx.plain (.bool span value) args
      return some (.basic .untypedBool)
  | .string span quoted value => do
      ctx.plain (.string span quoted value) args
      return some (.basic .untypedString)
  | .number span number => do
      ctx.plain (.number span number) args
      let kind ← ctx.located (.number span number) number.kind
      return some (.basic kind)
  | .branch keyword branch => do
      ctx.checkBranch dot keyword branch
      return none
  | .template span name argument => do
      let ty ← ctx.checkArgument dot argument
      ctx.invocation (.template span name argument) ⟨name, ty⟩
      return none
termination_by structural node

/-- Walks through nodes one after the other, and gives the type of the last one. -/
def walkNodes (ctx : Context) (dot : Ty) (last : Option Ty) (nodes : List Node) :
    Checker (Option Ty) :=
  match nodes with
  | [] => return last
  | node :: nodes => do
      let last ← ctx.walk dot .none node
      ctx.walkNodes dot last nodes
termination_by structural nodes

/-- Walks through a body, and gives the type of its last node. -/
def walkBody (ctx : Context) (dot : Ty) (body : Body Node) : Checker (Option Ty) :=
  match body with
  | ⟨_, nodes⟩ => ctx.walkNodes dot none nodes
termination_by structural body

/-- The type of a pipeline, which also sets the first of its variables. -/
def checkPipe (ctx : Context) (dot : Ty) (pipe : Pipe Node) : Checker Ty :=
  match pipe with
  | ⟨_, isAssign, declared, commands⟩ => do
      let ty := (← ctx.checkCommands dot none commands).getD nilType
      match declared.head? with
      | some v => ctx.setVariable v isAssign ty
      | none => pure ()
      return ty
termination_by structural pipe

/-- The type of the last of several commands; each takes the result of the one
before it. -/
def checkCommands (ctx : Context) (dot : Ty) (passed : Option Ty)
    (commands : List (Command Node)) : Checker (Option Ty) :=
  match commands with
  | [] => return passed
  | command :: commands => do
      let ty ← ctx.checkCommand dot command passed
      ctx.checkCommands dot (some ty) commands
termination_by structural commands

/-- The type of a command that takes a result passed on to it. -/
def checkCommand (ctx : Context) (dot : Ty) (command : Command Node) (passed : Option Ty) :
    Checker Ty :=
  match command with
  | ⟨_, operands⟩ => ctx.checkApplication dot passed operands
termination_by structural command

/-- The type of the first operand applied to the others. -/
def checkApplication (ctx : Context) (dot : Ty) (passed : Option Ty) (operands : List Node) :
    Checker Ty :=
  match operands with
  | [] => return nilType
  | .nil span :: _ => ctx.fail (.nil span) .nilCommand
  | head :: operands => do
      let args := ⟨operands, ctx.checkOperands dot operands, passed⟩
      return (← ctx.walk dot args head).getD nilType
termination_by structural operands

/-- The types of operands. -/
def checkOperands (ctx : Context) (dot : Ty) (operands : List Node) : Checker (List Ty) :=
  match operands with
  | [] => return []
  | operand :: operands => do
      let ty := (← ctx.walk dot .none operand).getD nilType
      return ty :: (← ctx.checkOperands dot operands)
termination_by structural operands

/-- The type of the argument of an invocation. -/
def checkArgument (ctx : Context) (dot : Ty) (argument : Option (Pipe Node)) : Checker Ty :=
  match argument with
  | none => return nilType
  | some pipe => return ctx.types.concrete (← ctx.checkPipe dot pipe)
termination_by structural argument

/-- Checks the parts of a branch. The body of an `if` has the data of the branch,
that of a `with` the value of the pipeline, and that of a `range` the element of
each round. Nothing that is set inside is seen outside. -/
def checkBranch (ctx : Context) (dot : Ty) (keyword : BranchKeyword) (branch : Branch Node) :
    Checker Unit :=
  match keyword, branch with
  | .ifKeyword, ⟨_, pipe, body, otherwise⟩ => .isolated do
      let _ ← ctx.checkPipe dot pipe
      let _ ← .isolated (ctx.walkBody dot body)
      ctx.checkOtherwise dot otherwise
  | .withKeyword, ⟨_, pipe, body, otherwise⟩ => .isolated do
      let value ← ctx.checkPipe dot pipe
      let _ ← .isolated (ctx.walkBody value body)
      ctx.checkOtherwise dot otherwise
  | .rangeKeyword, ⟨span, ⟨pipeSpan, isAssign, declared, commands⟩, body, otherwise⟩ => do
      let node : Node :=
        .branch .rangeKeyword ⟨span, ⟨pipeSpan, isAssign, declared, commands⟩, body, otherwise⟩
      .isolated do
        let source := (← ctx.checkCommands dot none commands).getD nilType
        let iteration ← ctx.located node (ctx.types.iteration source declared.length)
        ctx.setRangeVariables node source isAssign declared iteration
        let _ ← ctx.walkBody iteration.elem body
      ctx.checkOtherwise dot otherwise
termination_by structural branch

/-- Checks the body that a branch takes otherwise. -/
def checkOtherwise (ctx : Context) (dot : Ty) (otherwise : Option (Body Node)) : Checker Unit :=
  match otherwise with
  | none => return ()
  | some body => .isolated do
      let _ ← ctx.walkBody dot body
termination_by structural otherwise

end

end Context

end TemplateTyping
