import TemplateTyping.Proofs.Check.Visit

/-!
# Other ways to walk

The walk through a tree is made of few steps: some look at the scope, some resolve names, some
ask about invocations, and some are made for shapes that no source has.  Here it is written once
more over any monad, with these steps left open, and with a mark around every call for a part of
the tree.  An interpretation says what the steps and the marks mean.

The main statement is about relations between checks and what an interpretation makes of them.  A
relation that passes from the steps to what is made of them relates the two walks through every
node.  It comes with a bound on the size of the parts that may still be gone through, which
becomes smaller from each call to those inside of it.

Where an interpretation is made of checks, equality is such a relation.  The whole check, with all
templates that are invoked, can then be done through the interpretation, and it is the same.
-/

namespace TemplateTyping

/-- What a call of the walk goes through: a term with the operands that it is applied to, a body,
a pipeline, or an invocation. -/
inductive Part
  | term (node : Node) (operands : List Node)
  | body (body : Body Node)
  | pipe (pipe : Pipe Node)
  | template (argument : Option (Pipe Node))

/-- The size of a part. -/
noncomputable def Part.size : Part → Nat
  | term node operands => sizeOf (node :: operands)
  | body b => sizeOf b
  | pipe p => sizeOf p
  | template argument => 1 + sizeOf argument

/-- The names after the dots of a node. -/
def Node.dottedNames : Node → List String
  | .field _ path | .chain _ _ path => path
  | .variable v => v.path.tail
  | _ => []

/-- The parts of a node that stand as operands. -/
def Node.operandParts : Node → List Node
  | .command c => c.operands
  | .chain _ receiver _ => [receiver]
  | _ => []

theorem Node.mem_parts_of_mem_operandParts {node part : Node} (h : part ∈ node.operandParts) :
    part ∈ node.parts.map Prod.snd := by
  cases node with
  | command command => simpa [parts, operandParts] using h
  | chain span receiver path => simpa [parts, operandParts] using h
  | _ => cases h

/-- What the steps of a walk mean in some monad. -/
structure Interpretation (m : Type → Type) [Monad m] where
  /-- What looks at the context and the variables alone. -/
  lift : ∀ {α : Type}, Checker α → m α
  isolated : ∀ {α : Type}, m α → m α
  invocation : Node → Invocation → m Unit
  resolve : Ty → String → Except Cause Resolution
  /-- What is done around a call. -/
  call : ∀ {α : Type}, Part → m α → m α
  /-- The type of a pipeline without commands. -/
  emptyPipe : m Ty := pure nilType
  /-- The type of a command without operands. -/
  emptyCommand : m Ty := pure nilType
  /-- The type of a node that stands as an operand, by the walk through it. -/
  operandType : (dot : Ty) → (passed : Option Ty) → Node → (walked : m (Option Ty)) → m Ty :=
    fun _ _ _ walked => do return (← walked).getD nilType

/-- What a term is applied to, with the types of the operands as they are worked out in a monad. -/
structure ArgumentsIn (m : Type → Type) where
  operands : List Node
  operandTypes : m (List Ty)
  passed : Option Ty

namespace ArgumentsIn

variable {m : Type → Type} [Monad m]

/-- Applied to nothing. -/
def none : ArgumentsIn m := ⟨[], pure [], .none⟩

/-- The arguments without the types of the operands. -/
def shape (args : ArgumentsIn m) : Arguments := ⟨args.operands, pure [], args.passed⟩

/-- The types of all arguments. -/
def types (args : ArgumentsIn m) : m (List Ty) := do
  return (← args.operandTypes) ++ args.passed.toList

end ArgumentsIn

namespace Interpretation

variable {m : Type → Type} [Monad m]

/-- The type of what a resolved name stands for. -/
def applyResolution (I : Interpretation m) (ctx : Context) (node : Node) (args : ArgumentsIn m)
    (name : String) : Resolution → m Ty
  | .value ty =>
      if args.shape.given then I.lift (ctx.fail node (.notAMethod name)) else return ty
  | .method signature => do
      let types ← args.types
      I.lift (ctx.located node (ctx.types.checkArguments name signature types))

/-- The type of what a path leads to. -/
def checkPath (I : Interpretation m) (ctx : Context) (node : Node) (args : ArgumentsIn m)
    (receiver : Ty) : List String → m Ty
  | [] => return receiver
  | [name] => do
      let resolution ← I.lift (ctx.located node (I.resolve receiver name))
      I.applyResolution ctx node args name resolution
  | name :: names => do
      let resolution ← I.lift (ctx.located node (I.resolve receiver name))
      let next ← I.applyResolution ctx node .none name resolution
      I.checkPath ctx node args next names

mutual

/-- Walks through a node that may be applied to arguments. -/
def walk (I : Interpretation m) (ctx : Context) (dot : Ty) (args : ArgumentsIn m) (node : Node) :
    m (Option Ty) :=
  I.call (.term node args.operands) <| match node with
  | .text _ _ | .comment _ _ | .jump _ _ => return none
  | .action _ pipe => return some (← I.checkPipe ctx dot pipe)
  | .body body => I.walkBody ctx dot body
  | .pipe pipe => do
      I.lift (ctx.plain (.pipe pipe) args.shape)
      return some (← I.checkPipe ctx dot pipe)
  | .command command => return some (← I.checkCommand ctx dot command args.passed)
  | .field span path => return some (← I.checkPath ctx (.field span path) args dot path)
  | .chain span receiver path => do
      let ty ← I.operandType dot none receiver (I.walk ctx dot .none receiver)
      return some (← I.checkPath ctx (.chain span receiver path) args ty path)
  | .variable v => do
      let ty ← I.lift (ctx.variableType (.variable v) v.name)
      match v.path with
      | [_] => I.lift (ctx.plain (.variable v) args.shape); return some ty
      | path => return some (← I.checkPath ctx (.variable v) args ty path.tail)
  | .identifier span name => do
      let types ← args.types
      let verdict := ctx.types.checkCall ctx.functions name args.operands types
      return some (← I.lift (ctx.located (.identifier span name) verdict))
  | .dot span => do
      I.lift (ctx.plain (.dot span) args.shape)
      return some dot
  | .nil span => do
      I.lift (ctx.plain (.nil span) args.shape)
      return some nilType
  | .bool span value => do
      I.lift (ctx.plain (.bool span value) args.shape)
      return some (.basic .untypedBool)
  | .string span quoted value => do
      I.lift (ctx.plain (.string span quoted value) args.shape)
      return some (.basic .untypedString)
  | .number span number => do
      I.lift (ctx.plain (.number span number) args.shape)
      let kind ← I.lift (ctx.located (.number span number) number.kind)
      return some (.basic kind)
  | .branch keyword branch => do
      I.checkBranch ctx dot keyword branch
      return none
  | .template span name argument => do
      I.checkTemplate ctx dot span name argument
      return none
termination_by structural node

def walkNodes (I : Interpretation m) (ctx : Context) (dot : Ty) (last : Option Ty)
    (nodes : List Node) : m (Option Ty) :=
  match nodes with
  | [] => return last
  | node :: nodes => do
      let last ← I.walk ctx dot .none node
      I.walkNodes ctx dot last nodes
termination_by structural nodes

def walkBody (I : Interpretation m) (ctx : Context) (dot : Ty) (body : Body Node) :
    m (Option Ty) :=
  I.call (.body body) <| match body with
  | ⟨_, nodes⟩ => I.walkNodes ctx dot none nodes
termination_by structural body

def checkPipe (I : Interpretation m) (ctx : Context) (dot : Ty) (pipe : Pipe Node) : m Ty :=
  I.call (.pipe pipe) <| match pipe with
  | ⟨_, isAssign, declared, commands⟩ => do
      let ty ← I.checkCommands ctx dot none commands
      match declared.head? with
      | some v => I.lift (ctx.setVariable v isAssign ty)
      | none => pure ()
      return ty
termination_by structural pipe

def checkCommands (I : Interpretation m) (ctx : Context) (dot : Ty) (passed : Option Ty)
    (commands : List (Command Node)) : m Ty :=
  match commands with
  | [] => passed.elim I.emptyPipe pure
  | command :: commands => do
      let ty ← I.checkCommand ctx dot command passed
      I.checkCommands ctx dot (some ty) commands
termination_by structural commands

def checkCommand (I : Interpretation m) (ctx : Context) (dot : Ty) (command : Command Node)
    (passed : Option Ty) : m Ty :=
  match command with
  | ⟨_, operands⟩ => I.checkApplication ctx dot passed operands
termination_by structural command

def checkApplication (I : Interpretation m) (ctx : Context) (dot : Ty) (passed : Option Ty)
    (operands : List Node) : m Ty :=
  match operands with
  | [] => I.emptyCommand
  | .nil span :: _ => I.lift (ctx.fail (.nil span) .nilCommand)
  | head :: operands =>
      let args := ⟨operands, I.checkOperands ctx dot operands, passed⟩
      I.operandType dot passed head (I.walk ctx dot args head)
termination_by structural operands

def checkOperands (I : Interpretation m) (ctx : Context) (dot : Ty) (operands : List Node) :
    m (List Ty) :=
  match operands with
  | [] => return []
  | operand :: operands => do
      let ty ← I.operandType dot none operand (I.walk ctx dot .none operand)
      return ty :: (← I.checkOperands ctx dot operands)
termination_by structural operands

/-- Checks the argument of an invocation, and asks about it. -/
def checkTemplate (I : Interpretation m) (ctx : Context) (dot : Ty) (span : Span) (name : String)
    (argument : Option (Pipe Node)) : m Unit :=
  I.call (.template argument) <| match argument with
  | none => I.invocation (.template span name none) ⟨name, nilType⟩
  | some pipe => do
      let ty := ctx.types.concrete (← I.checkPipe ctx dot pipe)
      I.invocation (.template span name (some pipe)) ⟨name, ty⟩
termination_by structural argument

def checkBranch (I : Interpretation m) (ctx : Context) (dot : Ty) (keyword : BranchKeyword)
    (branch : Branch Node) : m Unit :=
  match keyword, branch with
  | .ifKeyword, ⟨_, pipe, body, otherwise⟩ => I.isolated do
      let _ ← I.checkPipe ctx dot pipe
      let _ ← I.isolated (I.walkBody ctx dot body)
      I.checkOtherwise ctx dot otherwise
  | .withKeyword, ⟨_, pipe, body, otherwise⟩ => I.isolated do
      let value ← I.checkPipe ctx dot pipe
      let _ ← I.isolated (I.walkBody ctx value body)
      I.checkOtherwise ctx dot otherwise
  | .rangeKeyword, ⟨span, ⟨pipeSpan, isAssign, declared, commands⟩, body, otherwise⟩ => do
      let node : Node :=
        .branch .rangeKeyword ⟨span, ⟨pipeSpan, isAssign, declared, commands⟩, body, otherwise⟩
      I.isolated do
        let source ← I.checkCommands ctx dot none commands
        let iteration ← I.lift (ctx.located node (ctx.types.iteration source declared.length))
        I.lift (ctx.setRangeVariables node source isAssign declared iteration)
        let _ ← I.walkBody ctx iteration.elem body
      I.checkOtherwise ctx dot otherwise
termination_by structural branch

def checkOtherwise (I : Interpretation m) (ctx : Context) (dot : Ty)
    (otherwise : Option (Body Node)) : m Unit :=
  match otherwise with
  | none => return ()
  | some body => I.isolated do
      let _ ← I.walkBody ctx dot body
termination_by structural otherwise

end

end Interpretation

/-! ## Relations between walks -/

/-- The context with other verdicts on invocations. -/
abbrev Context.judgedBy (ctx : Context) (invoke : Invocation → Except Refusal Unit) : Context :=
  { ctx with invoke := invoke }

/-- The type of a node that stands as an operand. -/
abbrev Context.operandType (ctx : Context) (dot : Ty) (args : Arguments) (node : Node) :
    Checker Ty := do
  return (← ctx.walk dot args node).getD nilType

/-- A relation between checks and what an interpretation makes of them that passes from steps to
what is made of them.  The steps are those of a walk which meets certain nodes, with verdicts on
invocations that the interpretation need not know; the relation is indexed by a bound on the size
of the parts for which calls may still be made. -/
structure Interpretation.Tracks {m : Type → Type} [Monad m] (I : Interpretation m)
    (ctx : Context) (invoke : Invocation → Except Refusal Unit) (reached : Node → Prop)
    (R : ∀ {α : Type}, Nat → m α → Checker α → Prop) : Prop where
  part : ∀ {node part : Node},
    reached node → part ∈ node.parts.map Prod.snd → reached part
  resolve : ∀ {node : Node}, reached node → ∀ name ∈ node.dottedNames, ∀ receiver,
    I.resolve receiver name = ctx.types.resolve ctx.package receiver name
  pure : ∀ {α : Type} {bound : Nat} (value : α), R bound (pure value) (pure value)
  bind : ∀ {α β : Type} {bound : Nat} {first : m α} {first' : Checker α} {next : α → m β}
    {next' : α → Checker β}, R bound first first' →
      (∀ value, R bound (next value) (next' value)) →
        R bound (first >>= next) (first' >>= next')
  lift : ∀ {α : Type} {bound : Nat} (check : Checker α), R bound (I.lift check) check
  isolated : ∀ {α : Type} {bound : Nat} {check : m α} {check' : Checker α},
    R bound check check' → R bound (I.isolated check) (Checker.isolated check')
  invocation : ∀ {bound : Nat} (node : Node) (invocation : Invocation),
    R bound (I.invocation node invocation) ((ctx.judgedBy invoke).invocation node invocation)
  call : ∀ {α : Type} {bound : Nat} {part : Part} {check : m α} {check' : Checker α},
    part.size < bound → R part.size check check' → R bound (I.call part check) check'
  emptyPipe : ∀ {bound : Nat} {pipe : Pipe Node}, reached (.pipe pipe) → pipe.commands = [] →
    R bound I.emptyPipe (Pure.pure nilType)
  emptyCommand : ∀ {bound : Nat} {command : Command Node}, reached (.command command) →
    command.operands = [] → R bound I.emptyCommand (Pure.pure nilType)
  operand : ∀ {bound : Nat} {node operand : Node} {walked : m (Option Ty)} (dot : Ty)
    (args : Arguments), reached node → operand ∈ node.operandParts →
      R bound walked ((ctx.judgedBy invoke).walk dot args operand) →
        R bound (I.operandType dot args.passed operand walked)
          ((ctx.judgedBy invoke).operandType dot args operand)

theorem Interpretation.checkApplication_of_ne_nil {m : Type → Type} [Monad m]
    (I : Interpretation m) (ctx : Context) (dot : Ty) (passed : Option Ty)
    {head : Node} (operands : List Node) (hnil : ¬∃ span, head = .nil span) :
    I.checkApplication ctx dot passed (head :: operands) =
      I.operandType dot passed head
        (I.walk ctx dot ⟨operands, I.checkOperands ctx dot operands, passed⟩ head) := by
  rw [checkApplication]
  intro span heq
  exact hnil ⟨span, heq⟩

theorem sizeOf_nodes_pos (nodes : List Node) : 0 < sizeOf nodes := by
  cases nodes with
  | nil => simp
  | cons node nodes => simp only [List.cons.sizeOf_spec]; omega

/-- The first node of a list by itself is not larger than the list, and the others are smaller. -/
theorem sizeOf_cons (node : Node) (nodes : List Node) :
    sizeOf [node] ≤ sizeOf (node :: nodes) ∧ sizeOf nodes < sizeOf (node :: nodes) := by
  have hpos := sizeOf_nodes_pos nodes
  simp only [List.cons.sizeOf_spec, List.nil.sizeOf_spec]
  omega

namespace Interpretation.Tracks

variable {m : Type → Type} [Monad m] {I : Interpretation m} {ctx : Context}
  {invoke : Invocation → Except Refusal Unit} {reached : Node → Prop}
  {R : ∀ {α : Type}, Nat → m α → Checker α → Prop}

/-- A check that comes to a type, as a check that finds one. -/
theorem found (h : I.Tracks ctx invoke reached R) {bound : Nat} {check : m Ty} {check' : Checker Ty}
    (hcheck : R bound check check') :
    R bound (do return some (← check)) (do return some (← check')) :=
  h.bind hcheck fun _ => h.pure _

/-- A check that comes to a type, in place of one that may find none. -/
theorem defaulted (h : I.Tracks ctx invoke reached R) {α : Type} {bound : Nat} {first : m Ty}
    {first' : Checker (Option Ty)} {next : Ty → m α} {next' : Option Ty → Checker α}
    (hfirst : R bound first (do return (← first').getD nilType))
    (hnone : next' none = next' (some nilType))
    (hnext : ∀ ty, R bound (next ty) (next' (some ty))) :
    R bound (first >>= next) (first' >>= next') := by
  have hfound : ∀ found : Option Ty, next' (some (found.getD nilType)) = next' found := by
    intro found
    cases found with
    | none => exact hnone.symm
    | some ty => rfl
  have hbind := h.bind hfirst hnext
  simpa only [bind_assoc, pure_bind, hfound] using hbind

/-- A term that is not applied to anything has its own type. -/
theorem plainType (h : I.Tracks ctx invoke reached R) {bound : Nat} (node : Node)
    (args : ArgumentsIn m) (types : Checker (List Ty)) (ty : Ty) :
    R bound (do I.lift (ctx.plain node args.shape); return some ty)
      (do ctx.plain node ⟨args.operands, types, args.passed⟩; return some ty) :=
  h.bind (h.lift _) fun _ => h.pure _

theorem argumentTypes (h : I.Tracks ctx invoke reached R) {bound : Nat} {args : ArgumentsIn m}
    {types : Checker (List Ty)} (htypes : R bound args.operandTypes types) :
    R bound args.types (Arguments.types ⟨args.operands, types, args.passed⟩) :=
  h.bind htypes fun _ => h.pure _

theorem applyResolution (h : I.Tracks ctx invoke reached R) {bound : Nat} (args : ArgumentsIn m)
    {types : Checker (List Ty)} (htypes : R bound args.operandTypes types) (node : Node)
    (name : String) (resolution : Resolution) :
    R bound (I.applyResolution ctx node args name resolution)
      ((ctx.judgedBy invoke).applyResolution node ⟨args.operands, types, args.passed⟩ name
        resolution) := by
  cases resolution with
  | value ty =>
      have hgiven : Arguments.given ⟨args.operands, types, args.passed⟩ = args.shape.given := rfl
      simp only [Interpretation.applyResolution, Context.applyResolution, hgiven]
      by_cases happlied : args.shape.given = true
      · rw [if_pos happlied, if_pos happlied]
        exact h.lift _
      · rw [if_neg happlied, if_neg happlied]
        exact h.pure ty
  | method signature => exact h.bind (h.argumentTypes htypes) fun _ => h.lift _

theorem checkPath (h : I.Tracks ctx invoke reached R) {bound : Nat} {args : ArgumentsIn m}
    {types : Checker (List Ty)} (htypes : R bound args.operandTypes types) {node : Node}
    (hnode : reached node) {path : List String} (hpath : ∀ name ∈ path, name ∈ node.dottedNames)
    (receiver : Ty) :
    R bound (I.checkPath ctx node args receiver path)
      ((ctx.judgedBy invoke).checkPath node ⟨args.operands, types, args.passed⟩ receiver path) := by
  induction path generalizing receiver with
  | nil => exact h.pure receiver
  | cons name path ih =>
      obtain ⟨hname, hrest⟩ := List.forall_mem_cons.mp hpath
      have hresolve := h.resolve hnode name hname receiver
      cases path with
      | nil =>
          simp only [Interpretation.checkPath, Context.checkPath, Context.pathStep_eq, hresolve]
          exact h.bind (h.lift _) fun resolution =>
            h.applyResolution args htypes node name resolution
      | cons second path =>
          simp only [Interpretation.checkPath, Context.checkPath, Context.pathStep_eq, hresolve,
            bind_assoc]
          refine h.bind (h.lift _) fun resolution => ?_
          exact h.bind (h.applyResolution .none (h.pure []) node name resolution)
            fun next => ih hrest next

mutual

/-- The walks through a node are related, whatever the node is applied to. -/
theorem walk (h : I.Tracks ctx invoke reached R) {bound : Nat} (dot : Ty) (args : ArgumentsIn m)
    (types : Checker (List Ty)) (node : Node)
    (hsize : (Part.term node args.operands).size < bound)
    (htypes : R (Part.term node args.operands).size args.operandTypes types)
    (hnode : reached node) :
    R bound (I.walk ctx dot args node)
      ((ctx.judgedBy invoke).walk dot ⟨args.operands, types, args.passed⟩ node) := by
  cases node with
  | text span text => exact h.call hsize (h.pure none)
  | comment span text => exact h.call hsize (h.pure none)
  | jump span keyword => exact h.call hsize (h.pure none)
  | action span pipe =>
      simp only [Interpretation.walk, Context.walk]
      refine h.call hsize (h.found (checkPipe h dot pipe ?_ (h.part hnode (by simp [Node.parts]))))
      simp only [Part.size, List.cons.sizeOf_spec, Node.action.sizeOf_spec]
      omega
  | body body =>
      simp only [Interpretation.walk, Context.walk]
      refine h.call hsize (walkBody h dot body ?_ hnode)
      simp only [Part.size, List.cons.sizeOf_spec, Node.body.sizeOf_spec]
      omega
  | pipe pipe =>
      simp only [Interpretation.walk, Context.walk]
      refine h.call hsize (h.bind (h.lift _) fun _ => h.found (checkPipe h dot pipe ?_ hnode))
      simp only [Part.size, List.cons.sizeOf_spec, Node.pipe.sizeOf_spec]
      omega
  | command command =>
      simp only [Interpretation.walk, Context.walk]
      refine h.call hsize (h.found (checkCommand h dot args.passed command ?_ hnode))
      simp only [Part.size, List.cons.sizeOf_spec, Node.command.sizeOf_spec]
      omega
  | field span path =>
      simp only [Interpretation.walk, Context.walk]
      exact h.call hsize (h.found (h.checkPath htypes hnode (fun _ hname => hname) dot))
  | chain span receiver path =>
      simp only [Interpretation.walk, Context.walk]
      have hoperand : receiver ∈ (Node.chain span receiver path).operandParts :=
        List.mem_singleton.mpr rfl
      have hreceiver := h.part hnode (Node.mem_parts_of_mem_operandParts hoperand)
      refine h.call hsize (h.defaulted (h.operand dot .none hnode hoperand
        (walk h dot .none _ receiver ?_ (h.pure []) hreceiver)) rfl fun ty => ?_)
      · have hpos := sizeOf_nodes_pos args.operands
        simp only [Part.size, ArgumentsIn.none, List.cons.sizeOf_spec, List.nil.sizeOf_spec,
          Node.chain.sizeOf_spec]
        omega
      · exact h.found (h.checkPath htypes hnode (fun _ hname => hname) _)
  | «variable» v =>
      simp only [Interpretation.walk, Context.walk]
      refine h.call hsize (h.bind (h.lift _) fun ty => ?_)
      rcases hpath : v.path with _ | ⟨name, _ | ⟨second, path⟩⟩
      · exact h.found (h.checkPath htypes hnode (by simp) ty)
      · exact h.plainType _ args types ty
      · exact h.found (h.checkPath htypes hnode (by simp [Node.dottedNames, hpath]) ty)
  | identifier span name =>
      simp only [Interpretation.walk, Context.walk]
      exact h.call hsize (h.bind (h.argumentTypes htypes) fun _ => h.found (h.lift _))
  | dot span =>
      simp only [Interpretation.walk, Context.walk]
      exact h.call hsize (h.plainType _ args types dot)
  | nil span =>
      simp only [Interpretation.walk, Context.walk]
      exact h.call hsize (h.plainType _ args types nilType)
  | bool span value =>
      simp only [Interpretation.walk, Context.walk]
      exact h.call hsize (h.plainType _ args types _)
  | string span quoted value =>
      simp only [Interpretation.walk, Context.walk]
      exact h.call hsize (h.plainType _ args types _)
  | number span number =>
      simp only [Interpretation.walk, Context.walk]
      exact h.call hsize
        (h.bind (h.lift _) fun _ => h.bind (h.lift _) fun kind => h.pure _)
  | branch keyword branch =>
      simp only [Interpretation.walk, Context.walk]
      refine h.call hsize (h.bind (checkBranch h dot keyword branch ?_ hnode) fun _ => h.pure none)
      simp only [Part.size, List.cons.sizeOf_spec, Node.branch.sizeOf_spec]
      omega
  | template span name argument =>
      simp only [Interpretation.walk, Context.walk, ← bind_assoc]
      refine h.call hsize (h.bind (checkTemplate h dot span name argument ?_ hnode)
        fun _ => h.pure none)
      simp only [Part.size, List.cons.sizeOf_spec, Node.template.sizeOf_spec]
      omega
termination_by structural node

theorem walkNodes (h : I.Tracks ctx invoke reached R) {bound : Nat} (dot : Ty) (last : Option Ty)
    (nodes : List Node) (hsize : sizeOf nodes < bound) (hnodes : ∀ node ∈ nodes, reached node) :
    R bound (I.walkNodes ctx dot last nodes) ((ctx.judgedBy invoke).walkNodes dot last nodes) := by
  cases nodes with
  | nil => exact h.pure last
  | cons node nodes =>
      obtain ⟨hnode, hrest⟩ := List.forall_mem_cons.mp hnodes
      obtain ⟨hfirst, hothers⟩ := sizeOf_cons node nodes
      simp only [Interpretation.walkNodes, Context.walkNodes]
      refine h.bind (walk h dot .none _ node ?_ (h.pure []) hnode) fun last => ?_
      · exact Nat.lt_of_le_of_lt hfirst hsize
      · exact walkNodes h dot last nodes (Nat.lt_trans hothers hsize) hrest
termination_by structural nodes

theorem walkBody (h : I.Tracks ctx invoke reached R) {bound : Nat} (dot : Ty) (body : Body Node)
    (hsize : sizeOf body < bound) (hbody : reached (.body body)) :
    R bound (I.walkBody ctx dot body) ((ctx.judgedBy invoke).walkBody dot body) := by
  cases body with
  | mk span nodes =>
      simp only [Interpretation.walkBody, Context.walkBody]
      refine h.call hsize (walkNodes h dot none nodes ?_ ?_)
      · simp only [Part.size, Body.mk.sizeOf_spec]
        omega
      · intro node hnode
        exact h.part hbody (by simp [Node.parts, hnode])
termination_by structural body

theorem checkPipe (h : I.Tracks ctx invoke reached R) {bound : Nat} (dot : Ty) (pipe : Pipe Node)
    (hsize : sizeOf pipe < bound) (hpipe : reached (.pipe pipe)) :
    R bound (I.checkPipe ctx dot pipe) ((ctx.judgedBy invoke).checkPipe dot pipe) := by
  cases pipe with
  | mk span isAssign declared commands =>
      simp only [Interpretation.checkPipe, Context.checkPipe]
      refine h.call hsize (h.defaulted (checkCommands h dot none commands ?_ ?_ ?_) rfl
        fun ty => ?_)
      · simp only [Part.size, Pipe.mk.sizeOf_spec]
        omega
      · intro command hcommand
        exact h.part hpipe (by simp [Node.parts, hcommand])
      · intro _ hcommands
        exact h.emptyPipe hpipe hcommands
      · cases declared.head? with
        | none => exact h.pure _
        | some v => exact h.bind (h.lift _) fun _ => h.pure _
termination_by structural pipe

theorem checkCommands (h : I.Tracks ctx invoke reached R) {bound : Nat} (dot : Ty)
    (passed : Option Ty) (commands : List (Command Node)) (hsize : sizeOf commands < bound)
    (hcommands : ∀ command ∈ commands, reached (.command command))
    (hempty : passed = none → commands = [] → R bound I.emptyPipe (Pure.pure nilType)) :
    R bound (I.checkCommands ctx dot passed commands)
      (do return (← (ctx.judgedBy invoke).checkCommands dot passed commands).getD nilType) := by
  cases commands with
  | nil =>
      cases passed with
      | none => exact hempty rfl rfl
      | some ty => exact h.pure ty
  | cons command commands =>
      obtain ⟨hcommand, hrest⟩ := List.forall_mem_cons.mp hcommands
      simp only [List.cons.sizeOf_spec] at hsize
      simp only [Interpretation.checkCommands, Context.checkCommands, bind_assoc]
      refine h.bind (checkCommand h dot passed command (by omega) hcommand) fun ty => ?_
      exact checkCommands h dot (some ty) commands (by omega) hrest (by simp)
termination_by structural commands

theorem checkCommand (h : I.Tracks ctx invoke reached R) {bound : Nat} (dot : Ty)
    (passed : Option Ty) (command : Command Node) (hsize : sizeOf command < bound)
    (hcommand : reached (.command command)) :
    R bound (I.checkCommand ctx dot command passed)
      ((ctx.judgedBy invoke).checkCommand dot command passed) := by
  cases command with
  | mk span operands =>
      simp only [Command.mk.sizeOf_spec] at hsize
      simp only [Interpretation.checkCommand, Context.checkCommand]
      exact checkApplication h dot passed span operands (by omega) hcommand
termination_by structural command

theorem checkApplication (h : I.Tracks ctx invoke reached R) {bound : Nat} (dot : Ty)
    (passed : Option Ty) (span : Span) (operands : List Node) (hsize : sizeOf operands < bound)
    (hcommand : reached (.command ⟨span, operands⟩)) :
    R bound (I.checkApplication ctx dot passed operands)
      ((ctx.judgedBy invoke).checkApplication dot passed operands) := by
  cases operands with
  | nil => exact h.emptyCommand hcommand rfl
  | cons head operands =>
      by_cases hnil : ∃ span, head = .nil span
      · obtain ⟨span, rfl⟩ := hnil
        exact h.lift _
      · rw [I.checkApplication_of_ne_nil ctx dot passed operands hnil,
          (ctx.judgedBy invoke).checkApplication_of_ne_nil dot passed operands hnil]
        have hoperand : head ∈ (Node.command ⟨span, head :: operands⟩).operandParts :=
          List.mem_cons_self
        have hhead := h.part hcommand (Node.mem_parts_of_mem_operandParts hoperand)
        have htypes : R (sizeOf (head :: operands)) (I.checkOperands ctx dot operands)
            ((ctx.judgedBy invoke).checkOperands dot operands) :=
          checkOperands h dot operands (sizeOf_cons head operands).2 _ hcommand
            fun operand hmem => List.mem_cons_of_mem head hmem
        exact h.operand dot ⟨operands, _, passed⟩ hcommand hoperand
          (walk h dot ⟨operands, _, passed⟩ _ head hsize htypes hhead)
termination_by structural operands

theorem checkOperands (h : I.Tracks ctx invoke reached R) {bound : Nat} (dot : Ty)
    (operands : List Node) (hsize : sizeOf operands < bound) (node : Node) (hnode : reached node)
    (hoperands : ∀ operand ∈ operands, operand ∈ node.operandParts) :
    R bound (I.checkOperands ctx dot operands)
      ((ctx.judgedBy invoke).checkOperands dot operands) := by
  cases operands with
  | nil => exact h.pure []
  | cons operand operands =>
      obtain ⟨hoperand, hrest⟩ := List.forall_mem_cons.mp hoperands
      obtain ⟨hfirst, hothers⟩ := sizeOf_cons operand operands
      have hreached := h.part hnode (Node.mem_parts_of_mem_operandParts hoperand)
      simp only [Interpretation.checkOperands, Context.checkOperands]
      refine h.defaulted (h.operand dot .none hnode hoperand
        (walk h dot .none _ operand ?_ (h.pure []) hreached)) rfl fun ty => ?_
      · exact Nat.lt_of_le_of_lt hfirst hsize
      · exact h.bind (checkOperands h dot operands (Nat.lt_trans hothers hsize) node hnode hrest)
          fun types => h.pure _
termination_by structural operands

theorem checkTemplate (h : I.Tracks ctx invoke reached R) {bound : Nat} (dot : Ty) (span : Span)
    (name : String) (argument : Option (Pipe Node))
    (hsize : (Part.template argument).size < bound)
    (hnode : reached (.template span name argument)) :
    R bound (I.checkTemplate ctx dot span name argument) (do
      let ty ← (ctx.judgedBy invoke).checkArgument dot argument
      (ctx.judgedBy invoke).invocation (.template span name argument) ⟨name, ty⟩) := by
  cases argument with
  | none =>
      simp only [Interpretation.checkTemplate, Context.checkArgument, pure_bind]
      exact h.call hsize (h.invocation _ _)
  | some pipe =>
      simp only [Interpretation.checkTemplate, Context.checkArgument, bind_assoc, pure_bind]
      refine h.call hsize (h.bind (checkPipe h dot pipe ?_ (h.part hnode (by simp [Node.parts])))
        fun ty => h.invocation _ _)
      simp only [Part.size, Option.some.sizeOf_spec]
      omega
termination_by structural argument

theorem checkBranch (h : I.Tracks ctx invoke reached R) {bound : Nat} (dot : Ty)
    (keyword : BranchKeyword) (branch : Branch Node) (hsize : sizeOf branch < bound)
    (hbranch : reached (.branch keyword branch)) :
    R bound (I.checkBranch ctx dot keyword branch)
      ((ctx.judgedBy invoke).checkBranch dot keyword branch) := by
  cases branch with
  | mk span pipe body otherwise =>
      simp only [Branch.mk.sizeOf_spec] at hsize
      have hpipe : reached (.pipe pipe) := h.part hbranch (by simp [Node.parts])
      have hbody : reached (.body body) := h.part hbranch (by simp [Node.parts])
      have hotherwise : ∀ other, otherwise = some other → reached (.body other) :=
        fun other hsome => h.part hbranch (by simp [Node.parts, hsome])
      have helse : R bound (I.checkOtherwise ctx dot otherwise)
          ((ctx.judgedBy invoke).checkOtherwise dot otherwise) :=
        checkOtherwise h dot otherwise (by omega) hotherwise
      cases keyword with
      | ifKeyword =>
          simp only [Interpretation.checkBranch, Context.checkBranch]
          refine h.isolated (h.bind (checkPipe h dot pipe (by omega) hpipe) fun _ => ?_)
          exact h.bind (h.isolated (walkBody h dot body (by omega) hbody)) fun _ => helse
      | withKeyword =>
          simp only [Interpretation.checkBranch, Context.checkBranch]
          refine h.isolated (h.bind (checkPipe h dot pipe (by omega) hpipe) fun value => ?_)
          exact h.bind (h.isolated (walkBody h value body (by omega) hbody)) fun _ => helse
      | rangeKeyword =>
          cases pipe with
          | mk pipeSpan isAssign declared commands =>
              have hcommands : ∀ command ∈ commands, reached (.command command) :=
                fun command hcommand => h.part hpipe (by simp [Node.parts, hcommand])
              simp only [Pipe.mk.sizeOf_spec] at hsize
              simp only [Interpretation.checkBranch, Context.checkBranch]
              refine h.bind (h.isolated ?_) fun _ => helse
              refine h.defaulted (checkCommands h dot none commands (by omega) hcommands
                fun _ hnone => h.emptyPipe hpipe hnone) rfl fun _ => ?_
              refine h.bind (h.lift _) fun iteration => h.bind (h.lift _) fun _ => ?_
              exact h.bind (walkBody h iteration.elem body (by omega) hbody) fun _ => h.pure ()
termination_by structural branch

theorem checkOtherwise (h : I.Tracks ctx invoke reached R) {bound : Nat} (dot : Ty)
    (otherwise : Option (Body Node)) (hsize : sizeOf otherwise < bound)
    (hotherwise : ∀ body, otherwise = some body → reached (.body body)) :
    R bound (I.checkOtherwise ctx dot otherwise)
      ((ctx.judgedBy invoke).checkOtherwise dot otherwise) := by
  cases otherwise with
  | none => exact h.pure ()
  | some body =>
      simp only [Option.some.sizeOf_spec] at hsize
      simp only [Interpretation.checkOtherwise, Context.checkOtherwise]
      exact h.isolated (h.bind (walkBody h dot body (by omega) (hotherwise body rfl))
        fun _ => h.pure ())
termination_by structural otherwise

end

end Interpretation.Tracks

/-! ## Checks through an interpretation -/

namespace Interpretation

/-- The walk itself. -/
def ordinary (ctx : Context) : Interpretation Checker where
  lift check := check
  isolated := Checker.isolated
  invocation := ctx.invocation
  resolve := ctx.types.resolve ctx.package
  call _ check := check

/-- An interpretation by checks that resolves names and treats shapes which no source has in ways
of its own.  On certain nodes, closed under parts, these are the ways of the walk. -/
structure AgreesOn (I : Interpretation Checker) (ctx : Context) (reached : Node → Prop) : Prop where
  steps : I = { ordinary ctx with
    resolve := I.resolve
    emptyPipe := I.emptyPipe
    emptyCommand := I.emptyCommand
    operandType := I.operandType }
  part : ∀ {node part : Node}, reached node → part ∈ node.parts.map Prod.snd → reached part
  resolve : ∀ {node : Node}, reached node → ∀ name ∈ node.dottedNames, ∀ receiver,
    I.resolve receiver name = ctx.types.resolve ctx.package receiver name
  emptyPipe : ∀ {pipe : Pipe Node}, reached (.pipe pipe) → pipe.commands = [] →
    I.emptyPipe = Pure.pure nilType
  emptyCommand : ∀ {command : Command Node}, reached (.command command) → command.operands = [] →
    I.emptyCommand = Pure.pure nilType
  operand : ∀ {node operand : Node} (dot : Ty) (args : Arguments), reached node →
    operand ∈ node.operandParts →
      I.operandType dot args.passed operand (ctx.walk dot args operand) =
        ctx.operandType dot args operand

theorem AgreesOn.tracks {I : Interpretation Checker} {ctx : Context} {reached : Node → Prop}
    (h : I.AgreesOn ctx reached) :
    I.Tracks ctx ctx.invoke reached fun _ check check' => check = check' := by
  constructor
  · exact h.part
  · exact h.resolve
  · intro α bound value
    rfl
  · rintro α β bound first _ next next' rfl hnext
    exact bind_congr hnext
  · intro α bound check
    rw [h.steps]
    rfl
  · rintro α bound check _ rfl
    rw [h.steps]
    rfl
  · intro bound node invocation
    rw [h.steps]
    rfl
  · rintro α bound part check _ - rfl
    rw [h.steps]
    rfl
  · intro bound pipe
    exact h.emptyPipe
  · intro bound command
    exact h.emptyCommand
  · rintro bound node operand _ dot args hnode hoperand rfl
    exact h.operand dot args hnode hoperand

end Interpretation

namespace Environment

variable (interpret : Context → Interpretation Checker) (env : Environment)

/-- Walks through a tree as an interpretation does. -/
def walkTreeThrough (tree : Tree) (data : Ty) (invoke : Invocation → Except Refusal Unit) :
    Except TypeError (Option Ty) :=
  let ctx := env.context tree invoke
  ((interpret ctx).walkBody ctx data tree.root).run' (Scope.root data)

/-- The verdict on an invocation, given how a target is walked through while some
calls are active. -/
def judgeBy (env : Environment)
    (walk : Tree → Ty → List ActiveCall → Except TypeError (Option Ty))
    (active : List ActiveCall) (invocation : Invocation) : Except Refusal Unit :=
  match env.templates.get? invocation.template with
  | none => .error (.here (.templateNotFound invocation.template))
  | some target =>
      if active.contains (env.call invocation) then .ok ()
      else verdictOf (walk target invocation.argument (active ++ [env.call invocation]))

theorem judge_succ_eq
    (env : Environment) (budget : Nat) (active : List ActiveCall)
    (invocation : Invocation) :
    env.judge (budget + 1) active invocation =
      env.judgeBy (fun target argument active =>
        env.walkTree target argument (env.judge budget active)) active invocation := by
  unfold judgeBy
  cases htarget : env.templates.get? invocation.template with
  | none => exact judge_of_missing htarget
  | some target =>
      by_cases hactive : env.call invocation ∈ active
      · rw [judge_of_active htarget hactive]
        simp [hactive]
      · rw [judge_succ htarget hactive]
        simp [hactive]

/-- The verdict on an invocation if all trees are walked through as an interpretation does.
Where nothing may be nested, nothing is walked through. -/
def judgeThrough :
    (budget : Nat) → (active : List ActiveCall) → Invocation → Except Refusal Unit
  | 0 => env.judge 0
  | budget + 1 => env.judgeBy fun target argument active =>
      env.walkTreeThrough interpret target argument (judgeThrough budget active)

/-- Checks a tree, and the templates that it invokes, as an interpretation does. -/
def checkThrough (tree : Tree) (data : Ty) : Except TypeError (Option Ty) :=
  env.walkTreeThrough interpret tree data
    (env.judgeThrough interpret env.maxDepth [env.activeCall tree.name data])

/-- The interpretation has the steps of the walk on the nodes of the tree, whatever the verdicts on
invocations are. -/
def AgreesIn (tree : Tree) : Prop :=
  ∀ invoke, ∃ reached : Node → Prop, reached (.body tree.root) ∧
    (interpret (env.context tree invoke)).AgreesOn (env.context tree invoke) reached

variable {interpret env}

theorem walkTreeThrough_eq {tree : Tree} (htree : env.AgreesIn interpret tree) (data : Ty)
    (invoke : Invocation → Except Refusal Unit) :
    env.walkTreeThrough interpret tree data invoke = env.walkTree tree data invoke := by
  obtain ⟨reached, hroot, hagrees⟩ := htree invoke
  have hbody := hagrees.tracks.walkBody data tree.root (Nat.lt_succ_self _) hroot
  unfold walkTreeThrough walkTree
  rw [← hbody]

theorem judgeThrough_eq
    (htemplates : ∀ name tree, env.templates.get? name = some tree → env.AgreesIn interpret tree)
    (budget : Nat) (active : List ActiveCall) :
    env.judgeThrough interpret budget active = env.judge budget active := by
  induction budget generalizing active with
  | zero => rfl
  | succ budget ih =>
      funext invocation
      rw [judge_succ_eq, judgeThrough]
      unfold judgeBy
      cases htarget : env.templates.get? invocation.template with
      | none => rfl
      | some target => simp only [ih, walkTreeThrough_eq (htemplates _ target htarget)]

/-- If an interpretation has the steps of the walk in the tree and in all templates, the check is
the same. -/
theorem checkThrough_eq
    (htemplates : ∀ name tree, env.templates.get? name = some tree → env.AgreesIn interpret tree)
    {tree : Tree} (htree : env.AgreesIn interpret tree) (data : Ty) :
    env.checkThrough interpret tree data = env.check tree data := by
  unfold checkThrough check
  rw [judgeThrough_eq htemplates, walkTreeThrough_eq htree]

end Environment

end TemplateTyping
