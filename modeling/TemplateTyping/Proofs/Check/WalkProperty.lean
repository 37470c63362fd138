import TemplateTyping.Check.Template
import TemplateTyping.Proofs.Host.Reach
import TemplateTyping.Proofs.Tree.Holding

/-!
# Properties of walks

Several results compare the ways in which one tree can be walked through: under
different verdicts on invocations, or over universes that differ in some
respect.  Such a result is about a family of checks, one for each way.  A
property of families that passes from checks to what is made of them, and that
the few steps have which look at the context, is a property of the walk through
every node.  The induction over the tree is done here, once for all of them.

Some properties hold only as long as a walk keeps to certain types.  So a property
comes with a set of good types: the steps need to have it for good types only, and
have to lead to good types again.  In the same way it comes with the nodes that it is
about, among which are the parts of each.
-/

namespace TemplateTyping

/-- What a name in a path stands for, before its arguments are looked at. -/
inductive Resolution
  | value (type : Ty)
  | method (signature : Signature Ty)

/-- The field or method that a name stands for. -/
def Universe.resolveMember (u : Universe) (package : Option String) (current : Ty)
    (name : String) : Except Cause Resolution :=
  if isExported name then
    match u.member? current ⟨name, package⟩ with
    | none => .error (.fieldNotFound name (u.describe current))
    | some (.field ty) => .ok (.value ty)
    | some (.method signature) => .ok (.method signature)
  else .error (.unexported name (u.describe current))

/-- What a name stands for when it follows a value of the given type. -/
def Universe.resolve (u : Universe) (package : Option String) (receiver : Ty)
    (name : String) : Except Cause Resolution := do
  let current ← u.target receiver
  match u.underlying current with
  | .func _ => throw (.chainUnsupported (u.describe current))
  | .map key elem =>
      Context.checkKey u current key name
      return .value elem
  | _ => u.resolveMember package current name

namespace Context

theorem located_bind {α β : Type}
    (ctx : Context) (node : Node)
    (verdict : Except Cause α) (f : α → Except Cause β) :
    ctx.located node (verdict >>= f) =
      ctx.located node verdict >>= fun value => ctx.located node (f value) := by
  cases verdict with
  | error cause => rfl
  | ok value => rfl

/-- The type of what a name stands for, if it is applied to arguments. -/
def applyResolution (ctx : Context) (node : Node) (args : Arguments) (name : String) :
    Resolution → Checker Ty
  | .value ty => if args.given then ctx.fail node (.notAMethod name) else return ty
  | .method signature => do
      let types ← args.types
      ctx.located node (ctx.types.checkArguments name signature types)

/-- A step along a path first finds out what the name stands for; only then do
the arguments matter. -/
theorem pathStep_eq
    (ctx : Context) (node : Node) (args : Arguments)
    (receiver : Ty) (name : String) :
    ctx.pathStep node args receiver name =
      ctx.located node (ctx.types.resolve ctx.package receiver name) >>=
        ctx.applyResolution node args name := by
  unfold pathStep Universe.resolve
  simp only [located_bind, bind_assoc]
  refine bind_congr fun current => ?_
  generalize ctx.types.underlying current = shape
  cases shape with
  | func signature => rfl
  | map key elem =>
      simp only [located_bind, bind_assoc]
      rfl
  | _ =>
      simp only [Universe.resolveMember]
      split
      · generalize ctx.types.member? current ⟨name, ctx.package⟩ = found
        rcases found with _ | ⟨_ | _⟩ <;> rfl
      · rfl

theorem checkApplication_of_ne_nil
    (ctx : Context) (dot : Ty) (passed : Option Ty)
    {head : Node} (operands : List Node)
    (hnil : ¬∃ span, head = .nil span) :
    ctx.checkApplication dot passed (head :: operands) = do
      let args := ⟨operands, ctx.checkOperands dot operands, passed⟩
      return (← ctx.walk dot args head).getD nilType := by
  rw [checkApplication]
  intro span heq
  exact hnil ⟨span, heq⟩

end Context

/-! ## Faults that a walk finds by itself -/

/-- The fault is that invocations are nested too deeply. -/
def Cause.IsDepth (cause : Cause) : Prop :=
  ∃ template limit, cause = .templateDepth template limit

/-- No other fault is one of recursion. -/
theorem Cause.not_isDepth {cause : Cause}
    (h : (cause.category == .recursion) = false) : ¬cause.IsDepth := by
  rintro ⟨template, limit, rfl⟩
  simp [Cause.category] at h

/-- Whether the fault can be told from types alone, whatever the variables in sight and
the other templates are. -/
def Cause.isOfTypes : Cause → Bool
  | .undefinedVariable _ | .templateNotFound _ | .templateDepth _ _ => false
  | _ => true

/-- How deeply invocations are nested cannot be told from types. -/
theorem Cause.not_isDepth_of_isOfTypes {cause : Cause}
    (h : cause.isOfTypes = true) : ¬cause.IsDepth := by
  rintro ⟨template, limit, rfl⟩
  cases h

/-- Whether the fault can be told from types alone, and without following pointers. -/
def Cause.isOfShapes : Cause → Bool
  | .endlessPointer _ => false
  | cause => cause.isOfTypes

theorem Number.kind_error {number : Number} {cause : Cause}
    (h : number.kind = .error cause) : cause.isOfShapes = true := by
  unfold Number.kind at h
  repeat' split at h
  all_goals cases h
  rfl

/-! ## Properties of families of checks -/

instance : HasTypes Resolution where
  types
    | .value ty => [ty]
    | .method signature => HasTypes.types signature

instance : HasTypes Iteration where
  types iteration := iteration.elem :: HasTypes.types iteration.key

theorem MadeOf.iteration_iff {good : Ty → Prop} {iteration : Iteration} :
    MadeOf good iteration ↔ good iteration.elem ∧ MadeOf good iteration.key := by
  simp [MadeOf, HasTypes.types]

/-- A property of families of checks, and the families of verdicts that keep it.
It passes from the parts of a check to the whole, where a part needs to have it
only for the good types that the parts before it can come to, and at the nodes that
can be reached. -/
structure WalkProperty (ι : Type) where
  good : Ty → Prop
  reached : Node → Prop
  agree : ∀ {α : Type} [HasTypes α], (ι → Except Cause α) → Prop
  holds : ∀ {α : Type} [HasTypes α], (ι → Checker α) → Prop
  basic : ∀ kind, good (.basic kind)
  part : ∀ {node part : Node},
    reached node → part ∈ node.parts.map Prod.snd → reached part
  accept : ∀ {α : Type} [HasTypes α] {value : α},
    MadeOf good value → agree fun _ => .ok value
  refuse : ∀ {α : Type} [HasTypes α] {cause : Cause},
    cause.isOfShapes = true → agree (α := α) fun _ => .error cause
  pure : ∀ {α : Type} [HasTypes α] {value : α},
    MadeOf good value → holds fun _ => pure value
  bind : ∀ {α β : Type} [HasTypes α] [HasTypes β]
    {first : ι → Checker α} {next : ι → α → Checker β},
    holds first → (∀ value, MadeOf good value → holds fun i => next i value) →
      holds fun i => first i >>= next i
  isolated : ∀ {α : Type} [HasTypes α] {check : ι → Checker α},
    holds check → holds fun i => Checker.isolated (check i)

/-- The steps that look at the context have a property of families. -/
structure WalkProperty.Respected {ι : Type}
    (P : WalkProperty ι) (ctx : ι → Context) : Prop where
  located : ∀ {α : Type} [HasTypes α] {verdict : ι → Except Cause α} {node : Node},
    P.reached node → P.agree verdict →
      P.holds fun i => (ctx i).located node (verdict i)
  variableType : ∀ {v}, P.reached (.variable v) →
    P.holds fun i => (ctx i).variableType (.variable v) v.name
  setVariable : ∀ {ty v} isAssign, P.reached (.variable v) → P.good ty →
    P.holds fun i => (ctx i).setVariable v isAssign ty
  invocation : ∀ {span name argument ty}, P.reached (.template span name argument) →
    P.good ty →
      P.holds fun i => (ctx i).invocation (.template span name argument) ⟨name, ty⟩
  resolve : ∀ {receiver} name, P.good receiver →
    P.agree fun i => (ctx i).types.resolve (ctx i).package receiver name
  arguments : ∀ {signature} name types, MadeOf P.good signature →
    P.agree fun i => (ctx i).types.checkArguments name signature types
  call : ∀ {span name} {types : List Ty} operands, P.reached (.identifier span name) →
    MadeOf P.good types →
      P.agree fun i => (ctx i).types.checkCall (ctx i).functions name operands types
  iteration : ∀ {source} vars, P.good source →
    P.agree fun i => (ctx i).types.iteration source vars
  rangeVariables : ∀ source, P.agree (α := Unit) fun i =>
    .error (.rangeVariables ((ctx i).types.describe source))
  concrete : ∀ {ty}, P.good ty →
    P.holds fun i => Pure.pure ((ctx i).types.concrete ty)

namespace WalkProperty

variable {ι : Type} (P : WalkProperty ι)

theorem ite {α : Type} [HasTypes α] {c : Bool} {first second : ι → Checker α}
    (hfirst : P.holds first) (hsecond : P.holds second) :
    P.holds fun i => if c then first i else second i := by
  cases c with
  | true => exact hfirst
  | false => exact hsecond

/-- A check that comes to a type, as a check that finds one. -/
theorem found {check : ι → Checker Ty} (h : P.holds check) :
    P.holds fun i => return some (← check i) :=
  P.bind h fun _ hty => P.pure (MadeOf.some_iff.mpr hty)

theorem literal (number : Number) : P.agree fun _ => number.kind := by
  cases hkind : number.kind with
  | error cause => exact P.refuse (Number.kind_error hkind)
  | ok kind => exact P.accept (.kind kind)

end WalkProperty

/-! ## The walk through every node -/

namespace WalkProperty.Respected

variable {ι : Type} {P : WalkProperty ι} {ctx : ι → Context}

theorem fail {α : Type} [HasTypes α]
    (h : P.Respected ctx) {node : Node} (hnode : P.reached node)
    {cause : Cause} (hcause : cause.isOfShapes = true) :
    P.holds (α := α) fun i => (ctx i).fail node cause :=
  h.located hnode (P.refuse hcause)

theorem plain
    (h : P.Respected ctx) {node : Node} (hnode : P.reached node)
    (operands : List Node) (types : ι → Checker (List Ty)) (passed : Option Ty) :
    P.holds fun i => (ctx i).plain node ⟨operands, types i, passed⟩ := by
  simp only [Context.plain, Arguments.given]
  exact P.ite (h.fail hnode rfl) (P.pure .unit)

/-- A term that is not applied to anything has its own type. -/
theorem plainType
    (h : P.Respected ctx) {node : Node} (hnode : P.reached node)
    (operands : List Node) (types : ι → Checker (List Ty)) (passed : Option Ty)
    {ty : Ty} (hty : P.good ty) :
    P.holds fun i => do
      (ctx i).plain node ⟨operands, types i, passed⟩
      return some ty :=
  P.bind (h.plain hnode operands types passed)
    fun _ _ => P.pure (MadeOf.some_iff.mpr (MadeOf.type_iff.mpr hty))

theorem argumentTypes
    {types : ι → Checker (List Ty)} (htypes : P.holds types)
    (operands : List Node) {passed : Option Ty} (hpassed : MadeOf P.good passed) :
    P.holds fun i => Arguments.types ⟨operands, types i, passed⟩ :=
  P.bind htypes fun _ hfirst => P.pure (MadeOf.append_iff.mpr ⟨hfirst, hpassed.toList⟩)

theorem pathStep
    (h : P.Respected ctx)
    {types : ι → Checker (List Ty)} (htypes : P.holds types)
    {node : Node} (hnode : P.reached node) (operands : List Node)
    {passed : Option Ty} (hpassed : MadeOf P.good passed)
    {receiver : Ty} (hreceiver : P.good receiver) (name : String) :
    P.holds fun i =>
      (ctx i).pathStep node ⟨operands, types i, passed⟩ receiver name := by
  simp only [Context.pathStep_eq]
  refine P.bind (h.located hnode (h.resolve name hreceiver))
    fun resolution hresolution => ?_
  cases resolution with
  | value ty =>
      simp only [Context.applyResolution, Arguments.given]
      exact P.ite (h.fail hnode rfl) (P.pure hresolution)
  | method signature =>
      refine P.bind (argumentTypes htypes operands hpassed) fun args _ => ?_
      exact h.located hnode (h.arguments name args hresolution)

theorem checkPath
    (h : P.Respected ctx)
    {types : ι → Checker (List Ty)} (htypes : P.holds types)
    {node : Node} (hnode : P.reached node) (operands : List Node)
    {passed : Option Ty} (hpassed : MadeOf P.good passed)
    {receiver : Ty} (hreceiver : P.good receiver) (path : List String) :
    P.holds fun i =>
      (ctx i).checkPath node ⟨operands, types i, passed⟩ receiver path := by
  induction path generalizing receiver with
  | nil => exact P.pure (MadeOf.type_iff.mpr hreceiver)
  | cons name path ih =>
      cases path with
      | nil =>
          simp only [Context.checkPath]
          exact h.pathStep htypes hnode operands hpassed hreceiver name
      | cons second path =>
          simp only [Context.checkPath]
          refine P.bind ?_ fun next hnext => ih (MadeOf.type_iff.mp hnext)
          exact h.pathStep (P.pure .empty) hnode [] .nothing hreceiver name

theorem setRangeVariables
    (h : P.Respected ctx) {node : Node} (hnode : P.reached node)
    (source : Ty) (isAssign : Bool) {declared : List Variable}
    (hdeclared : ∀ v ∈ declared, P.reached (.variable v))
    {iteration : Iteration} (hiteration : MadeOf P.good iteration) :
    P.holds fun i =>
      (ctx i).setRangeVariables node source isAssign declared iteration := by
  obtain ⟨helem, hkey⟩ := MadeOf.iteration_iff.mp hiteration
  unfold Context.setRangeVariables
  split
  · exact P.pure .unit
  · exact h.setVariable isAssign (hdeclared _ (by simp)) helem
  · next hsome =>
      rw [hsome, MadeOf.some_iff, MadeOf.type_iff] at hkey
      exact P.bind (h.setVariable isAssign (hdeclared _ (by simp)) hkey)
        fun _ _ => h.setVariable isAssign (hdeclared _ (by simp)) helem
  · exact h.located hnode (h.rangeVariables source)

mutual

/-- The walk through a node has the property, whatever the node is applied to. -/
theorem walk
    (h : P.Respected ctx)
    {types : ι → Checker (List Ty)} (htypes : P.holds types)
    {dot : Ty} (hdot : P.good dot) (operands : List Node)
    {passed : Option Ty} (hpassed : MadeOf P.good passed)
    (node : Node) (hnode : P.reached node) :
    P.holds fun i => (ctx i).walk dot ⟨operands, types i, passed⟩ node := by
  match node with
  | .text span text => exact P.pure .nothing
  | .comment span text => exact P.pure .nothing
  | .jump span keyword => exact P.pure .nothing
  | .action span pipe =>
      simp only [Context.walk]
      exact P.found (checkPipe h hdot pipe (P.part hnode (by simp [Node.parts])))
  | .body body =>
      simp only [Context.walk]
      exact walkBody h hdot body hnode
  | .pipe pipe =>
      simp only [Context.walk]
      exact P.bind (h.plain hnode operands types passed)
        fun _ _ => P.found (checkPipe h hdot pipe hnode)
  | .command command =>
      simp only [Context.walk]
      exact P.found (checkCommand h hdot command hnode hpassed)
  | .field span path =>
      simp only [Context.walk]
      exact P.found (h.checkPath htypes hnode operands hpassed hdot path)
  | .chain span receiver path =>
      simp only [Context.walk]
      have hreceiver : P.reached receiver := P.part hnode (by simp [Node.parts])
      refine P.bind (walk h (P.pure .empty) hdot [] .nothing receiver hreceiver)
        fun found hfound => ?_
      exact P.found (h.checkPath htypes hnode operands hpassed
        (hfound.getD (P.basic _)) path)
  | .variable v =>
      simp only [Context.walk]
      refine P.bind (h.variableType hnode) fun ty hty => ?_
      rw [MadeOf.type_iff] at hty
      split
      · exact h.plainType hnode operands types passed hty
      · exact P.found (h.checkPath htypes hnode operands hpassed hty _)
  | .identifier span name =>
      simp only [Context.walk]
      refine P.bind (argumentTypes htypes operands hpassed) fun args hargs => ?_
      exact P.found (h.located hnode (h.call operands hnode hargs))
  | .dot span =>
      simp only [Context.walk]
      exact h.plainType hnode operands types passed hdot
  | .nil span =>
      simp only [Context.walk]
      exact h.plainType hnode operands types passed (P.basic _)
  | .bool span value =>
      simp only [Context.walk]
      exact h.plainType hnode operands types passed (P.basic _)
  | .string span quoted value =>
      simp only [Context.walk]
      exact h.plainType hnode operands types passed (P.basic _)
  | .number span number =>
      simp only [Context.walk]
      refine P.bind (h.plain hnode operands types passed) fun _ _ => ?_
      exact P.bind (h.located hnode (P.literal number))
        fun kind _ => P.pure (MadeOf.some_iff.mpr (MadeOf.type_iff.mpr (P.basic kind)))
  | .branch keyword branch =>
      simp only [Context.walk]
      exact P.bind (checkBranch h hdot keyword branch hnode) fun _ _ => P.pure .nothing
  | .template span name argument =>
      simp only [Context.walk]
      have hargument : ∀ pipe, argument = some pipe → P.reached (.pipe pipe) :=
        fun pipe hsome => P.part hnode (by simp [Node.parts, hsome])
      refine P.bind (checkArgument h hdot argument hargument) fun ty hty => ?_
      exact P.bind (h.invocation hnode (MadeOf.type_iff.mp hty))
        fun _ _ => P.pure .nothing
termination_by structural node

theorem walkNodes
    (h : P.Respected ctx) {dot : Ty} (hdot : P.good dot)
    {last : Option Ty} (hlast : MadeOf P.good last)
    (nodes : List Node) (hnodes : ∀ node ∈ nodes, P.reached node) :
    P.holds fun i => (ctx i).walkNodes dot last nodes := by
  cases nodes with
  | nil => exact P.pure hlast
  | cons node nodes =>
      simp only [Context.walkNodes]
      obtain ⟨hnode, hrest⟩ := List.forall_mem_cons.mp hnodes
      exact P.bind (walk h (P.pure .empty) hdot [] .nothing node hnode)
        fun _ hlast => walkNodes h hdot hlast nodes hrest
termination_by structural nodes

theorem walkBody
    (h : P.Respected ctx) {dot : Ty} (hdot : P.good dot)
    (body : Body Node) (hbody : P.reached (.body body)) :
    P.holds fun i => (ctx i).walkBody dot body := by
  cases body with
  | mk span nodes =>
      simp only [Context.walkBody]
      exact walkNodes h hdot .nothing nodes
        fun node hnode => P.part hbody (by simp [Node.parts, hnode])
termination_by structural body

theorem checkPipe
    (h : P.Respected ctx) {dot : Ty} (hdot : P.good dot)
    (pipe : Pipe Node) (hpipe : P.reached (.pipe pipe)) :
    P.holds fun i => (ctx i).checkPipe dot pipe := by
  cases pipe with
  | mk span isAssign declared commands =>
      simp only [Context.checkPipe]
      have hcommands : ∀ command ∈ commands, P.reached (.command command) :=
        fun command hcommand => P.part hpipe (by simp [Node.parts, hcommand])
      refine P.bind (checkCommands h hdot .nothing commands hcommands)
        fun found hfound => ?_
      have hty := hfound.getD (P.basic .untypedNil)
      cases hhead : declared.head? with
      | none => exact P.bind (P.pure .unit) fun _ _ => P.pure (MadeOf.type_iff.mpr hty)
      | some v =>
          have hv : P.reached (.variable v) :=
            P.part hpipe (by simp [Node.parts, List.mem_of_head? hhead])
          exact P.bind (h.setVariable isAssign hv hty)
            fun _ _ => P.pure (MadeOf.type_iff.mpr hty)
termination_by structural pipe

theorem checkCommands
    (h : P.Respected ctx) {dot : Ty} (hdot : P.good dot)
    {passed : Option Ty} (hpassed : MadeOf P.good passed)
    (commands : List (Command Node))
    (hcommands : ∀ command ∈ commands, P.reached (.command command)) :
    P.holds fun i => (ctx i).checkCommands dot passed commands := by
  cases commands with
  | nil => exact P.pure hpassed
  | cons command commands =>
      simp only [Context.checkCommands]
      obtain ⟨hcommand, hrest⟩ := List.forall_mem_cons.mp hcommands
      exact P.bind (checkCommand h hdot command hcommand hpassed)
        fun ty hty => checkCommands h hdot (MadeOf.some_iff.mpr hty) commands hrest
termination_by structural commands

theorem checkCommand
    (h : P.Respected ctx) {dot : Ty} (hdot : P.good dot)
    (command : Command Node) (hcommand : P.reached (.command command))
    {passed : Option Ty} (hpassed : MadeOf P.good passed) :
    P.holds fun i => (ctx i).checkCommand dot command passed := by
  cases command with
  | mk span operands =>
      simp only [Context.checkCommand]
      exact checkApplication h hdot hpassed operands
        fun operand hoperand => P.part hcommand (by simp [Node.parts, hoperand])
termination_by structural command

theorem checkApplication
    (h : P.Respected ctx) {dot : Ty} (hdot : P.good dot)
    {passed : Option Ty} (hpassed : MadeOf P.good passed)
    (operands : List Node) (hoperands : ∀ operand ∈ operands, P.reached operand) :
    P.holds fun i => (ctx i).checkApplication dot passed operands := by
  cases operands with
  | nil => exact P.pure (MadeOf.type_iff.mpr (P.basic _))
  | cons head operands =>
      obtain ⟨hhead, hrest⟩ := List.forall_mem_cons.mp hoperands
      by_cases hnil : ∃ span, head = .nil span
      · obtain ⟨span, rfl⟩ := hnil
        simp only [Context.checkApplication]
        exact h.fail hhead rfl
      · simp only [Context.checkApplication_of_ne_nil _ dot passed operands hnil]
        refine P.bind
          (walk h (checkOperands h hdot operands hrest) hdot operands hpassed head hhead)
          fun found hfound => ?_
        exact P.pure (MadeOf.type_iff.mpr (hfound.getD (P.basic _)))
termination_by structural operands

theorem checkOperands
    (h : P.Respected ctx) {dot : Ty} (hdot : P.good dot)
    (operands : List Node) (hoperands : ∀ operand ∈ operands, P.reached operand) :
    P.holds fun i => (ctx i).checkOperands dot operands := by
  cases operands with
  | nil => exact P.pure .empty
  | cons operand operands =>
      simp only [Context.checkOperands]
      obtain ⟨hoperand, hrest⟩ := List.forall_mem_cons.mp hoperands
      refine P.bind (walk h (P.pure .empty) hdot [] .nothing operand hoperand)
        fun found hfound => ?_
      exact P.bind (checkOperands h hdot operands hrest)
        fun types htypes => P.pure (MadeOf.cons_iff.mpr
          ⟨MadeOf.type_iff.mpr (hfound.getD (P.basic _)), htypes⟩)
termination_by structural operands

theorem checkArgument
    (h : P.Respected ctx) {dot : Ty} (hdot : P.good dot)
    (argument : Option (Pipe Node))
    (hargument : ∀ pipe, argument = some pipe → P.reached (.pipe pipe)) :
    P.holds fun i => (ctx i).checkArgument dot argument := by
  cases argument with
  | none => exact P.pure (MadeOf.type_iff.mpr (P.basic _))
  | some pipe =>
      simp only [Context.checkArgument]
      exact P.bind (checkPipe h hdot pipe (hargument pipe rfl))
        fun ty hty => h.concrete (MadeOf.type_iff.mp hty)
termination_by structural argument

theorem checkBranch
    (h : P.Respected ctx) {dot : Ty} (hdot : P.good dot) (keyword : BranchKeyword)
    (branch : Branch Node) (hbranch : P.reached (.branch keyword branch)) :
    P.holds fun i => (ctx i).checkBranch dot keyword branch := by
  cases branch with
  | mk span pipe body otherwise =>
      have hpipe : P.reached (.pipe pipe) := P.part hbranch (by simp [Node.parts])
      have hbody : P.reached (.body body) :=
        P.part hbranch (by simp [Node.parts])
      have hotherwise : ∀ other, otherwise = some other → P.reached (.body other) :=
        fun other hsome => P.part hbranch (by simp [Node.parts, hsome])
      cases keyword with
      | ifKeyword =>
          simp only [Context.checkBranch]
          refine P.isolated (P.bind (checkPipe h hdot pipe hpipe) fun _ _ => ?_)
          refine P.bind (P.isolated (walkBody h hdot body hbody)) fun _ _ => ?_
          exact checkOtherwise h hdot otherwise hotherwise
      | withKeyword =>
          simp only [Context.checkBranch]
          refine P.isolated (P.bind (checkPipe h hdot pipe hpipe) fun value hvalue => ?_)
          refine P.bind (P.isolated (walkBody h (MadeOf.type_iff.mp hvalue) body hbody))
            fun _ _ => ?_
          exact checkOtherwise h hdot otherwise hotherwise
      | rangeKeyword =>
          cases pipe with
          | mk pipeSpan isAssign declared commands =>
              simp only [Context.checkBranch]
              refine P.bind (P.isolated ?_)
                fun _ _ => checkOtherwise h hdot otherwise hotherwise
              have hcommands : ∀ command ∈ commands, P.reached (.command command) :=
                fun command hcommand => P.part hpipe (by simp [Node.parts, hcommand])
              have hdeclared : ∀ v ∈ declared, P.reached (.variable v) :=
                fun v hv => P.part hpipe (by simp [Node.parts, hv])
              refine P.bind (checkCommands h hdot .nothing commands hcommands)
                fun found hfound => ?_
              have hsource := hfound.getD (P.basic .untypedNil)
              refine P.bind (h.located hbranch (h.iteration declared.length hsource))
                fun iteration hiteration => ?_
              refine P.bind
                (h.setRangeVariables hbranch _ isAssign hdeclared hiteration) fun _ _ => ?_
              have helem := (MadeOf.iteration_iff.mp hiteration).1
              exact P.bind (walkBody h helem body hbody) fun _ _ => P.pure .unit
termination_by structural branch

theorem checkOtherwise
    (h : P.Respected ctx) {dot : Ty} (hdot : P.good dot)
    (otherwise : Option (Body Node))
    (hotherwise : ∀ body, otherwise = some body → P.reached (.body body)) :
    P.holds fun i => (ctx i).checkOtherwise dot otherwise := by
  cases otherwise with
  | none => exact P.pure .unit
  | some body =>
      simp only [Context.checkOtherwise]
      exact P.isolated (P.bind (walkBody h hdot body (hotherwise body rfl)) fun _ _ => P.pure .unit)
termination_by structural otherwise

end

end WalkProperty.Respected

/-- The fault of a walk through a tree is that of the walk through its body. -/
theorem Environment.walkBody_eq_error
    {env : Environment} {tree : Tree} {data : Ty}
    {judge : Invocation → Except Refusal Unit} {error : TypeError}
    (h : env.walkTree tree data judge = .error error) :
    (env.context tree judge).walkBody data tree.root (Scope.root data) = .error error := by
  change ((env.context tree judge).walkBody data tree.root (Scope.root data) >>=
    fun result => .ok result.1) = .error error at h
  cases hrun : (env.context tree judge).walkBody data tree.root (Scope.root data) with
  | error found =>
      rw [hrun] at h
      exact congrArg Except.error (Except.error.inj h)
  | ok result =>
      rw [hrun] at h
      cases h

end TemplateTyping
