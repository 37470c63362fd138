import TemplateTyping.Proofs.Check.Blame
import TemplateTyping.Proofs.Check.Closure
import TemplateTyping.Proofs.Check.Confinement
import TemplateTyping.Proofs.Check.Reads

/-!
# What a walk writes into its scope

A walk leaves a scope behind for what comes after it.  It sets the variables that the pipelines
of the node set.  Pipelines in parentheses count wherever they stand, since a walk that ends
well has worked out all operands.  Branches do not count, since they are checked in isolation.
All other variables are kept as they were.  So the variable of the data, which is set when a
template starts, is in sight everywhere.
-/

namespace TemplateTyping

/-! ## Names that are set -/

mutual

/-- The names that the pipelines of a node set.  Those of a branch are not seen outside of it
and do not count. -/
def Node.declaredNames (node : Node) : List String :=
  match node with
  | .action _ pipe => pipe.declaredNames
  | .body body => body.declaredNames
  | .pipe pipe => pipe.declaredNames
  | .command command => command.declaredNames
  | .chain _ receiver _ => receiver.declaredNames
  | .template _ _ argument => declaredInArgument argument
  | .text _ _ | .comment _ _ | .jump _ _ | .branch _ _ | .field _ _ | .variable _
  | .identifier _ _ | .dot _ | .bool _ _ | .string _ _ _ | .number _ _ | .nil _ => []
termination_by structural node

/-- The names that nodes set one after the other. -/
def declaredInNodes (nodes : List Node) : List String :=
  match nodes with
  | [] => []
  | node :: nodes => node.declaredNames ++ declaredInNodes nodes
termination_by structural nodes

/-- The names that the nodes of a body set. -/
def Body.declaredNames (body : Body Node) : List String :=
  match body with
  | ⟨_, nodes⟩ => declaredInNodes nodes
termination_by structural body

/-- The names that a pipeline sets: those in its commands, and then its own. -/
def Pipe.declaredNames (pipe : Pipe Node) : List String :=
  match pipe with
  | ⟨_, _, declared, commands⟩ => declaredInCommands commands ++ declared.map Variable.name
termination_by structural pipe

/-- The names that commands set one after the other. -/
def declaredInCommands (commands : List (Command Node)) : List String :=
  match commands with
  | [] => []
  | command :: commands => command.declaredNames ++ declaredInCommands commands
termination_by structural commands

/-- The names that the operands of a command set. -/
def Command.declaredNames (command : Command Node) : List String :=
  match command with
  | ⟨_, operands⟩ => declaredInNodes operands
termination_by structural command

/-- The names that the argument of an invocation sets. -/
def declaredInArgument (argument : Option (Pipe Node)) : List String :=
  match argument with
  | none => []
  | some pipe => pipe.declaredNames
termination_by structural argument

end

/-! ## Scopes before and after -/

/-- The second scope is the first one with types for these names: all other names are kept,
and these are set besides those that were set before. -/
structure Scope.ExtendedBy (names : List String) (before after : Scope) : Prop where
  kept : ∀ name, name ∉ names → after.get? name = before.get? name
  bound : ∀ name, after.contains name = true ↔ before.contains name = true ∨ name ∈ names

namespace Scope.ExtendedBy

theorem refl (scope : Scope) : ExtendedBy [] scope scope where
  kept _ _ := rfl
  bound _ := by simp

theorem trans
    {names names' : List String} {before middle after : Scope}
    (hfirst : before.ExtendedBy names middle) (hsecond : middle.ExtendedBy names' after) :
    before.ExtendedBy (names ++ names') after where
  kept name hname := by
    rw [List.mem_append, not_or] at hname
    rw [hsecond.kept name hname.2, hfirst.kept name hname.1]
  bound name := by
    rw [hsecond.bound, hfirst.bound, List.mem_append, or_assoc]

theorem insert (scope : Scope) (name : String) (ty : Ty) :
    ExtendedBy [name] scope (scope.insert name ty) where
  kept other hother := by
    rw [NameMap.get?_insert, if_neg (by simpa using hother)]
  bound other := by
    rw [NameMap.contains, NameMap.get?_insert, List.mem_singleton]
    by_cases heq : other = name
    · simp [heq]
    · simp [heq, NameMap.contains]

/-- Only the members of the list matter. -/
theorem of_mem_iff
    {names names' : List String} {before after : Scope} (h : before.ExtendedBy names after)
    (hnames : ∀ name, name ∈ names' ↔ name ∈ names) : before.ExtendedBy names' after where
  kept name hname := h.kept name (mt (hnames name).mpr hname)
  bound name := by rw [h.bound, hnames]

/-- A scope that no name was added to is the same as before. -/
theorem eq_of_nil {before after : Scope} (h : before.ExtendedBy [] after) : after = before :=
  NameMap.ext_get? fun name => h.kept name List.not_mem_nil

end Scope.ExtendedBy

namespace Checker

/-- A check that ends well goes through a scope between its parts. -/
theorem bind_eq_ok {α β : Type} {check : Checker α} {next : α → Checker β}
    {before : Scope} {result : β × Scope} (h : (check >>= next) before = .ok result) :
    ∃ value middle, check before = .ok (value, middle) ∧ next value middle = .ok result := by
  change (check before >>= fun found => next found.1 found.2) = .ok result at h
  cases hfirst : check before with
  | error error =>
      rw [hfirst] at h
      cases h
  | ok found =>
      rw [hfirst] at h
      exact ⟨found.1, found.2, rfl, h⟩

/-- If the check ends well, it has set these names and no others. -/
def Sets {α : Type} (names : List String) (check : Checker α) : Prop :=
  ∀ before value after, check before = .ok (value, after) → before.ExtendedBy names after

namespace Sets

variable {α β : Type} {names names' : List String}

theorem pure {value : α} : Sets [] (Pure.pure value) := by
  intro before value after hrun
  cases hrun
  exact .refl before

/-- A check that never ends well sets whatever is asked for. -/
theorem throw {error : TypeError} : Sets (α := α) names (throw error) := by
  intro before value after hrun
  cases hrun

theorem bind {check : Checker α} {next : α → Checker β}
    (hcheck : Sets names check) (hnext : ∀ value, Sets names' (next value)) :
    Sets (names ++ names') (check >>= next) := by
  intro before value after hrun
  obtain ⟨found, middle, hfirst, hrest⟩ := bind_eq_ok hrun
  exact (hcheck before found middle hfirst).trans (hnext found middle value after hrest)

theorem of_append_nil {check : Checker α} (h : Sets (names ++ []) check) : Sets names check := by
  rwa [List.append_nil] at h

/-- What follows without setting anything does not matter. -/
theorem bind_nil {check : Checker α} {next : α → Checker β}
    (hcheck : Sets names check) (hnext : ∀ value, Sets [] (next value)) :
    Sets names (check >>= next) :=
  (hcheck.bind hnext).of_append_nil

theorem then_pure {check : Checker α} (h : Sets names check) {f : α → β} :
    Sets names (do return f (← check)) :=
  h.bind_nil fun _ => pure

/-- A check in a scope of its own sets nothing. -/
theorem isolated (check : Checker α) : Sets [] (Checker.isolated check) := by
  intro before value after hrun
  unfold Checker.isolated at hrun
  split at hrun
  · cases hrun
    exact .refl before
  · cases hrun

theorem of_mem_iff {check : Checker α} (h : Sets names check)
    (hnames : ∀ name, name ∈ names' ↔ name ∈ names) : Sets names' check :=
  fun before value after hrun => (h before value after hrun).of_mem_iff hnames

theorem located (ctx : Context) (node : Node) (verdict : Except Cause α) :
    Sets [] (ctx.located node verdict) := by
  cases verdict with
  | error cause => exact throw
  | ok value => exact pure

theorem variableType (ctx : Context) (node : Node) (name : String) :
    Sets [] (ctx.variableType node name) := by
  intro before value after hrun
  rw [Context.variableType_apply] at hrun
  cases hget : before.get? name with
  | none =>
      rw [hget] at hrun
      cases hrun
  | some ty =>
      rw [hget] at hrun
      cases hrun
      exact .refl before

/-- A variable is set, whether it is declared or assigned to. -/
theorem setVariable (ctx : Context) (v : Variable) (isAssign : Bool) (ty : Ty) :
    Sets [v.name] (ctx.setVariable v isAssign ty) := by
  have hmodify : Sets [v.name] (modify (·.insert v.name ty) : Checker Unit) := by
    intro before value after hrun
    cases hrun
    exact .insert before v.name ty
  cases isAssign with
  | false => exact hmodify
  | true => exact (variableType ctx _ v.name).bind fun _ => hmodify

theorem invocation (ctx : Context) (node : Node) (invocation : Invocation) :
    Sets [] (ctx.invocation node invocation) := by
  unfold Context.invocation
  split
  · exact pure
  · exact throw
  · exact throw

end Sets

end Checker

/-! ## Walks that end well -/

/-- Working out the operands sets these names; without operands there are none. -/
structure Arguments.Sets (names : List String) (args : Arguments) : Prop where
  operands : args.operandTypes.Sets names
  nothing : args.operands = [] → names = []

theorem Arguments.Sets.none (passed : Option Ty) : Arguments.Sets [] { passed } where
  operands := .pure
  nothing _ := rfl

/-- A term that is not applied to anything sets nothing in operands. -/
theorem Arguments.Sets.eq_nil
    {names : List String} {args : Arguments} (h : args.Sets names)
    (hgiven : args.given = false) : names = [] := by
  rw [Arguments.given, Bool.or_eq_false_iff] at hgiven
  exact h.nothing (by simpa using hgiven.1)

/-- What stands in a list is no pipeline, so it is no pipeline with two variables. -/
theorem Node.IsWellFormed.setsOne_of_mem
    {body : Body Node} (h : (Node.body body).IsWellFormed)
    {node : Node} (hnode : node ∈ body.nodes) : node.setsOne = true := by
  have hlisted : node.isListed = true := List.all_eq_true.mp h.fits_self node hnode
  cases node with
  | pipe pipe => cases hlisted
  | _ => rfl

/-- The operands of a command are terms that set one variable at most. -/
theorem Node.IsWellFormed.operands
    {command : Command Node} (h : (Node.command command).IsWellFormed) :
    ∀ operand ∈ command.operands,
      operand.IsWellFormed ∧ operand.setsOne = true ∧ operand.isTerm = true := by
  intro operand hoperand
  have hfits := h.fits_self
  simp only [Node.fits, Bool.and_eq_true, List.all_eq_true] at hfits
  obtain ⟨hterm, hone⟩ := hfits.2 operand hoperand
  exact ⟨h.of_mem_parts (List.mem_map_of_mem hoperand), hone, hterm⟩

namespace Context

variable {ctx : Context} {dot : Ty} {args : Arguments} {names : List String}

theorem plain_sets (hargs : args.Sets names) (node : Node) :
    (ctx.plain node args).Sets names := by
  unfold plain
  split
  · exact .throw
  · rename_i hgiven
    rw [hargs.eq_nil (Bool.eq_false_iff.mpr hgiven)]
    exact .pure

/-- A field takes no operands, and a method has all of them worked out. -/
theorem pathStep_sets (hargs : args.Sets names) (node : Node) (receiver : Ty) (name : String) :
    (ctx.pathStep node args receiver name).Sets names := by
  rw [pathStep_eq]
  refine Checker.Sets.bind (.located ctx node _) fun resolution => ?_
  cases resolution with
  | value ty =>
      rw [applyResolution]
      split
      · exact .throw
      · rename_i hgiven
        rw [hargs.eq_nil (Bool.eq_false_iff.mpr hgiven)]
        exact .pure
  | method signature =>
      have htypes : args.types.Sets names := hargs.operands.then_pure
      exact htypes.bind_nil fun types => .located ctx node _

/-- The operands belong to the last name of a path. -/
theorem checkPath_sets
    (hargs : args.Sets names) (node : Node) (receiver : Ty)
    {path : List String} (hpath : path ≠ []) :
    (ctx.checkPath node args receiver path).Sets names := by
  induction path generalizing receiver with
  | nil => exact absurd rfl hpath
  | cons name path ih =>
      cases path with
      | nil => exact pathStep_sets hargs node receiver name
      | cons second path =>
          have hstep : (ctx.pathStep node .none receiver name).Sets [] :=
            pathStep_sets (.none none) node receiver name
          exact hstep.bind fun next => ih next (by simp)

/-- Whatever a branch sets is forgotten after it. -/
theorem checkOtherwise_sets (otherwise : Option (Body Node)) :
    (ctx.checkOtherwise dot otherwise).Sets [] := by
  cases otherwise with
  | none => exact .pure
  | some body => exact .isolated _

theorem checkBranch_sets (keyword : BranchKeyword) (branch : Branch Node) :
    (ctx.checkBranch dot keyword branch).Sets [] := by
  obtain ⟨span, ⟨pipeSpan, isAssign, declared, commands⟩, body, otherwise⟩ := branch
  cases keyword with
  | ifKeyword => exact .isolated _
  | withKeyword => exact .isolated _
  | rangeKeyword =>
      simp only [checkBranch]
      exact (Checker.Sets.isolated _).bind fun _ => checkOtherwise_sets otherwise

mutual

/-- A walk that ends well sets the names of the node's pipelines, and those of the operands that
the node is applied to. -/
theorem walk_sets
    {args : Arguments} {names : List String} (hargs : args.Sets names)
    (node : Node) (hnode : node.IsWellFormed) (hone : node.setsOne = true)
    (hterm : node.isTerm = false → names = []) :
    (ctx.walk dot args node).Sets (node.declaredNames ++ names) := by
  have hfits := hnode.fits_self
  cases node with
  | text span content =>
      rw [hterm rfl]
      exact .pure
  | comment span content =>
      rw [hterm rfl]
      exact .pure
  | jump span keyword =>
      rw [hterm rfl]
      exact .pure
  | action span pipe =>
      rw [hterm rfl, List.append_nil]
      simp only [walk, Node.declaredNames]
      exact (checkPipe_sets pipe (hnode.of_mem_parts List.mem_cons_self) hfits).then_pure
  | body body =>
      rw [hterm rfl, List.append_nil]
      simp only [walk, Node.declaredNames]
      exact walkBody_sets body hnode
  | pipe pipe =>
      simp only [walk, Node.declaredNames]
      have hplain : (ctx.plain (.pipe pipe) args).Sets names := plain_sets hargs _
      have hpipe : (ctx.checkPipe dot pipe).Sets pipe.declaredNames :=
        checkPipe_sets pipe hnode hone
      exact (hplain.bind fun _ => hpipe.then_pure).of_mem_iff (by simp [or_comm])
  | command command =>
      rw [hterm rfl, List.append_nil]
      simp only [walk, Node.declaredNames]
      exact (checkCommand_sets command hnode args.passed).then_pure
  | field span path =>
      simp only [walk, Node.declaredNames]
      exact (checkPath_sets hargs _ dot (ne_nil_of_isFieldPath hfits)).then_pure
  | chain span receiver path =>
      simp only [Node.fits, Bool.and_eq_true] at hfits
      simp only [walk, Node.declaredNames]
      have hreceiver : (ctx.walk dot .none receiver).Sets receiver.declaredNames :=
        (walk_sets (.none none) receiver (hnode.of_mem_parts List.mem_cons_self) hfits.1.2
          fun _ => rfl).of_append_nil
      exact hreceiver.bind fun _ =>
        (checkPath_sets hargs _ _ (ne_nil_of_isFieldPath hfits.2)).then_pure
  | «variable» v =>
      simp only [walk, Node.declaredNames]
      refine (Checker.Sets.variableType ctx _ v.name).bind fun ty => ?_
      obtain ⟨span, path⟩ := v
      rcases path with _ | ⟨name, _ | ⟨field, path⟩⟩
      · cases hfits
      · exact (plain_sets hargs _).then_pure
      · exact (checkPath_sets hargs _ ty (List.cons_ne_nil field path)).then_pure
  | identifier span name =>
      simp only [walk, Node.declaredNames]
      have htypes : args.types.Sets names := hargs.operands.then_pure
      exact htypes.bind_nil fun types => (Checker.Sets.located ctx _ _).then_pure
  | dot span => exact (plain_sets hargs _).then_pure
  | nil span => exact (plain_sets hargs _).then_pure
  | bool span value => exact (plain_sets hargs _).then_pure
  | string span quoted value => exact (plain_sets hargs _).then_pure
  | number span number =>
      have hplain : (ctx.plain (.number span number) args).Sets names := plain_sets hargs _
      exact hplain.bind_nil fun _ => (Checker.Sets.located ctx _ _).then_pure
  | branch keyword branch =>
      rw [hterm rfl]
      exact (checkBranch_sets keyword branch).then_pure
  | template span name argument =>
      rw [hterm rfl, List.append_nil]
      simp only [walk, Node.declaredNames]
      have hargument : ∀ pipe, argument = some pipe →
          (Node.pipe pipe).IsWellFormed ∧ pipe.sets 1 = true := by
        rintro pipe rfl
        exact ⟨hnode.of_mem_parts List.mem_cons_self, hfits⟩
      exact (checkArgument_sets argument hargument).bind_nil fun ty =>
        (Checker.Sets.invocation ctx _ _).then_pure
termination_by structural node

theorem walkNodes_sets
    (last : Option Ty) (nodes : List Node)
    (hnodes : ∀ node ∈ nodes, node.IsWellFormed ∧ node.setsOne = true) :
    (ctx.walkNodes dot last nodes).Sets (declaredInNodes nodes) := by
  cases nodes with
  | nil => exact .pure
  | cons node nodes =>
      simp only [walkNodes, declaredInNodes]
      obtain ⟨⟨hnode, hone⟩, hrest⟩ := List.forall_mem_cons.mp hnodes
      have hfirst : (ctx.walk dot .none node).Sets node.declaredNames :=
        (walk_sets (.none none) node hnode hone fun _ => rfl).of_append_nil
      exact hfirst.bind fun last => walkNodes_sets last nodes hrest
termination_by structural nodes

theorem walkBody_sets (body : Body Node) (hbody : (Node.body body).IsWellFormed) :
    (ctx.walkBody dot body).Sets body.declaredNames := by
  cases body with
  | mk span nodes =>
      simp only [walkBody, Body.declaredNames]
      exact walkNodes_sets none nodes fun node hnode =>
        ⟨hbody.of_mem_parts (List.mem_map_of_mem hnode), hbody.setsOne_of_mem hnode⟩
termination_by structural body

theorem checkPipe_sets
    (pipe : Pipe Node) (hpipe : (Node.pipe pipe).IsWellFormed) (hone : pipe.sets 1 = true) :
    (ctx.checkPipe dot pipe).Sets pipe.declaredNames := by
  cases pipe with
  | mk span isAssign declared commands =>
      simp only [checkPipe, Pipe.declaredNames]
      have hcommands : ∀ command ∈ commands, (Node.command command).IsWellFormed :=
        fun command hcommand => hpipe.of_mem_parts
          (List.mem_append_right _ (List.mem_map_of_mem hcommand))
      refine (checkCommands_sets none commands hcommands).bind fun found => ?_
      rcases declared with _ | ⟨v, _ | ⟨w, declared⟩⟩
      · exact .pure
      · exact (Checker.Sets.setVariable ctx v isAssign _).then_pure
      · simp [Pipe.sets] at hone
termination_by structural pipe

theorem checkCommands_sets
    (passed : Option Ty) (commands : List (Command Node))
    (hcommands : ∀ command ∈ commands, (Node.command command).IsWellFormed) :
    (ctx.checkCommands dot passed commands).Sets (declaredInCommands commands) := by
  cases commands with
  | nil => exact .pure
  | cons command commands =>
      simp only [checkCommands, declaredInCommands]
      obtain ⟨hcommand, hrest⟩ := List.forall_mem_cons.mp hcommands
      exact (checkCommand_sets command hcommand passed).bind fun ty =>
        checkCommands_sets (some ty) commands hrest
termination_by structural commands

theorem checkCommand_sets
    (command : Command Node) (hcommand : (Node.command command).IsWellFormed)
    (passed : Option Ty) :
    (ctx.checkCommand dot command passed).Sets command.declaredNames := by
  cases command with
  | mk span operands =>
      simp only [checkCommand, Command.declaredNames]
      exact checkApplication_sets passed operands hcommand.operands
termination_by structural command

theorem checkApplication_sets
    (passed : Option Ty) (operands : List Node)
    (hoperands : ∀ operand ∈ operands,
      operand.IsWellFormed ∧ operand.setsOne = true ∧ operand.isTerm = true) :
    (ctx.checkApplication dot passed operands).Sets (declaredInNodes operands) := by
  cases operands with
  | nil => exact .pure
  | cons head operands =>
      obtain ⟨⟨hhead, hone, hterm⟩, hrest⟩ := List.forall_mem_cons.mp hoperands
      by_cases hnil : ∃ span, head = .nil span
      · obtain ⟨span, rfl⟩ := hnil
        simp only [checkApplication]
        exact .throw
      · rw [checkApplication_of_ne_nil _ dot passed operands hnil, declaredInNodes]
        have hargs : Arguments.Sets (declaredInNodes operands)
            ⟨operands, ctx.checkOperands dot operands, passed⟩ :=
          ⟨checkOperands_sets operands hrest, fun hnone => by
            rw [show operands = [] from hnone]; rfl⟩
        exact (walk_sets hargs head hhead hone fun hfalse => by simp [hterm] at hfalse).then_pure
termination_by structural operands

theorem checkOperands_sets
    (operands : List Node)
    (hoperands : ∀ operand ∈ operands,
      operand.IsWellFormed ∧ operand.setsOne = true ∧ operand.isTerm = true) :
    (ctx.checkOperands dot operands).Sets (declaredInNodes operands) := by
  cases operands with
  | nil => exact .pure
  | cons operand operands =>
      simp only [checkOperands, declaredInNodes]
      obtain ⟨⟨hoperand, hone, _⟩, hrest⟩ := List.forall_mem_cons.mp hoperands
      have hfirst : (ctx.walk dot .none operand).Sets operand.declaredNames :=
        (walk_sets (.none none) operand hoperand hone fun _ => rfl).of_append_nil
      exact hfirst.bind fun _ => (checkOperands_sets operands hrest).then_pure
termination_by structural operands

theorem checkArgument_sets
    (argument : Option (Pipe Node))
    (hargument : ∀ pipe, argument = some pipe →
      (Node.pipe pipe).IsWellFormed ∧ pipe.sets 1 = true) :
    (ctx.checkArgument dot argument).Sets (declaredInArgument argument) := by
  cases argument with
  | none => exact .pure
  | some pipe =>
      simp only [checkArgument, declaredInArgument]
      obtain ⟨hpipe, hone⟩ := hargument pipe rfl
      exact (checkPipe_sets pipe hpipe hone).then_pure
termination_by structural argument

end

/-- Nodes are walked through from left to right. -/
theorem walkNodes_append (dot : Ty) (last : Option Ty) (first rest : List Node) :
    ctx.walkNodes dot last (first ++ rest) =
      ctx.walkNodes dot last first >>= fun last => ctx.walkNodes dot last rest := by
  induction first generalizing last with
  | nil => simp only [List.nil_append, walkNodes, pure_bind]
  | cons node first ih => simp only [List.cons_append, walkNodes, bind_assoc, ih]

/-- A walk through a body comes past the scope that its first nodes leave behind. -/
theorem walk_body_append
    {span : Span} {first rest : List Node} (hbody : (Node.body ⟨span, first ++ rest⟩).IsWellFormed)
    {before after : Scope} {result : Option Ty}
    (h : ctx.walk dot args (.body ⟨span, first ++ rest⟩) before = .ok (result, after)) :
    ∃ last middle, ctx.walkNodes dot none first before = .ok (last, middle) ∧
      before.ExtendedBy (declaredInNodes first) middle ∧
      ctx.walkNodes dot last rest middle = .ok (result, after) ∧
      middle.ExtendedBy (declaredInNodes rest) after := by
  have hnodes : ∀ node ∈ first ++ rest, node.IsWellFormed ∧ node.setsOne = true :=
    fun node hnode =>
      ⟨hbody.of_mem_parts (List.mem_map_of_mem hnode), hbody.setsOne_of_mem hnode⟩
  simp only [walk, walkBody, walkNodes_append] at h
  obtain ⟨last, middle, hfirst, hrest⟩ := Checker.bind_eq_ok h
  refine ⟨last, middle, hfirst, ?_, hrest, ?_⟩
  · exact walkNodes_sets none first (fun node hnode => hnodes node (List.mem_append_left _ hnode))
      before last middle hfirst
  · exact walkNodes_sets last rest (fun node hnode => hnodes node (List.mem_append_right _ hnode))
      middle result after hrest

end Context

/-! ## The variable of the data -/

/-- The variable of the data is set in the end, or a fault has been found that is not the lack
of it. -/
def DataKept {α : Type} : Except TypeError (α × Scope) → Prop
  | .ok (_, after) => after.contains "$" = true
  | .error error => error.cause ≠ .undefinedVariable "$"

/-- While the variable of the data is set, the check does not lose it. -/
def Checker.KeepsData {α : Type} (check : Checker α) : Prop :=
  ∀ before : Scope, before.contains "$" = true → DataKept (check before)

namespace Checker.KeepsData

variable {α β : Type}

theorem pure {value : α} : KeepsData (Pure.pure value : Checker α) :=
  fun _ hbefore => hbefore

theorem throw {error : TypeError} (h : error.cause ≠ .undefinedVariable "$") :
    KeepsData (throw error : Checker α) :=
  fun _ _ => h

theorem bind {check : Checker α} {next : α → Checker β}
    (hcheck : check.KeepsData) (hnext : ∀ value, (next value).KeepsData) :
    (check >>= next).KeepsData := by
  intro before hbefore
  have hfirst := hcheck before hbefore
  change DataKept (check before >>= fun result => next result.1 result.2)
  cases hrun : check before with
  | error error =>
      rw [hrun] at hfirst
      exact hfirst
  | ok result =>
      rw [hrun] at hfirst
      exact hnext result.1 result.2 hfirst

theorem isolated {check : Checker α} (hcheck : check.KeepsData) :
    (Checker.isolated check).KeepsData := by
  intro before hbefore
  have hinner := hcheck before hbefore
  unfold Checker.isolated
  cases hrun : check before with
  | error error =>
      rw [hrun] at hinner
      exact hinner
  | ok result => exact hbefore

/-- What can be told from types is not the lack of a variable. -/
theorem located (ctx : Context) (node : Node) [HasTypes α] {verdict : Except Cause α}
    (h : Confined ctx.types (fun _ => True) verdict) :
    (ctx.located node verdict).KeepsData := by
  cases verdict with
  | error cause =>
      apply throw
      rintro rfl
      cases h.isOfTypes
  | ok value => exact pure

theorem variableType (ctx : Context) (node : Node) (name : String) :
    (ctx.variableType node name).KeepsData := by
  intro before hbefore
  rw [Context.variableType_apply]
  cases hget : before.get? name with
  | some ty => exact hbefore
  | none =>
      intro hcause
      obtain rfl : name = "$" := Cause.undefinedVariable.inj hcause
      rw [NameMap.contains, hget] at hbefore
      cases hbefore

theorem setVariable (ctx : Context) (v : Variable) (isAssign : Bool) (ty : Ty) :
    (ctx.setVariable v isAssign ty).KeepsData := by
  have hmodify : KeepsData (modify (·.insert v.name ty) : Checker Unit) := by
    intro before hbefore
    exact ((Scope.ExtendedBy.insert before v.name ty).bound "$").mpr (.inl hbefore)
  cases isAssign with
  | false => exact hmodify
  | true => exact (variableType ctx _ v.name).bind fun _ => hmodify

theorem invocation {ctx : Context}
    (hjudge : ∀ invocation refusal, ctx.invoke invocation = .error refusal →
      refusal.cause ≠ .undefinedVariable "$")
    (node : Node) (invocation : Invocation) : (ctx.invocation node invocation).KeepsData := by
  unfold Context.invocation
  cases hverdict : ctx.invoke invocation with
  | ok accepted => exact pure
  | error refusal =>
      have hcause := hjudge invocation refusal hverdict
      cases refusal with
      | here cause => exact throw hcause
      | inside error => exact throw hcause

end Checker.KeepsData

theorem Universe.closed_true (u : Universe) : u.Closed fun _ => True where
  basic _ := trivial
  underlying _ := trivial
  part _ _ := trivial
  slice _ := trivial
  method _ _ _ := trivial

/-- Keeping the variable of the data, as a property of walks. -/
def dataProperty (u : Universe) : WalkProperty Unit where
  good _ := True
  reached _ := True
  agree verdict := Confined u (fun _ => True) (verdict ())
  holds check := (check ()).KeepsData
  basic _ := trivial
  part _ _ := trivial
  accept _ := fun _ _ => trivial
  refuse hcause := .error hcause
  pure _ := .pure
  bind hcheck hnext := hcheck.bind fun value => hnext value fun _ _ => trivial
  isolated := .isolated

theorem dataProperty_respected
    (ctx : Context) (hjudge : ∀ invocation refusal, ctx.invoke invocation = .error refusal →
      refusal.cause ≠ .undefinedVariable "$") :
    (dataProperty ctx.types).Respected fun _ => ctx where
  located _ h := .located ctx _ h
  variableType _ := .variableType ctx _ _
  setVariable isAssign _ _ := .setVariable ctx _ isAssign _
  invocation _ _ := .invocation hjudge _ _
  resolve name _ := (Universe.closed_true ctx.types).resolve ctx.package trivial name
  arguments name types _ := Universe.Closed.checkArguments name (fun _ _ => trivial) types
  call operands _ _ := (Universe.closed_true ctx.types).checkCall (fun _ _ => trivial) _ operands
    fun _ _ => trivial
  iteration vars _ := (Universe.closed_true ctx.types).iteration trivial vars
  rangeVariables _ := .inl rfl
  concrete _ := .pure

namespace Environment

variable {env : Environment}

/-- The fault of a walk is not the lack of the data, unless it is passed on. -/
theorem walkTree_cause_ne
    {tree : Tree} {data : Ty} {judge : Judge}
    (hjudge : ∀ invocation refusal, judge invocation = .error refusal →
      refusal.cause ≠ .undefinedVariable "$")
    {error : TypeError} (h : env.walkTree tree data judge = .error error) :
    error.cause ≠ .undefinedVariable "$" := by
  let ctx := env.context tree judge
  have hbody : (ctx.walkBody data tree.root).KeepsData :=
    (dataProperty_respected ctx hjudge).walkBody trivial tree.root trivial
  have houtcome := hbody (Scope.root data) rfl
  rw [walkBody_eq_error h] at houtcome
  exact houtcome

/-- Each template starts with its data, so no nesting of invocations loses it. -/
theorem judge_cause_ne
    {budget : Nat} {active : List ActiveCall} {invocation : Invocation} {refusal : Refusal}
    (h : env.judge budget active invocation = .error refusal) :
    refusal.cause ≠ .undefinedVariable "$" := by
  induction budget generalizing active invocation refusal with
  | zero =>
      obtain ⟨-, rfl⟩ | ⟨target, -, -, ⟨-, rfl⟩ | ⟨rest, _, hrest, -⟩⟩ := judge_eq_error h
      · simp [Refusal.cause]
      · simp [Refusal.cause]
      · cases hrest
  | succ budget ih =>
      obtain ⟨-, rfl⟩ | ⟨target, -, -, ⟨hzero, -⟩ | ⟨rest, error, hrest, rfl, hwalk⟩⟩ :=
        judge_eq_error h
      · simp [Refusal.cause]
      · cases hzero
      · cases hrest
        exact walkTree_cause_ne (fun _ _ => ih) hwalk

end Environment

/-! ## Trees that were read -/

/-- Variables are written lexically.  A walk through a node of a tree that was read, if it ends
well, sets the names of the node's own pipelines and keeps all other variables.  So a branch
leaves the scope as it was, and the nodes of a body add to it from left to right.  The variable
of the data is in sight everywhere: no check reports the lack of it.

A pipeline with two variables is that of a range, which sets both by itself. -/
theorem TemplateSet.walk_extendedBy_declaredNames
    (d : Delimiters) (sourceName source : String) (set : TemplateSet)
    (hparse : TemplateSet.parse d sourceName source = .ok set)
    (name : String) (tree : Tree) (htree : set.get? name = some tree)
    (node : Node) (hnode : tree.Holds node) (hone : node.setsOne = true) :
    (∀ (ctx : Context) dot passed before result after,
      ctx.walk dot { passed } node before = .ok (result, after) →
        before.ExtendedBy node.declaredNames after ∧
        (∀ keyword branch, node = .branch keyword branch → after = before) ∧
        ∀ span first rest, node = .body ⟨span, first ++ rest⟩ →
          ∃ last middle, ctx.walkNodes dot none first before = .ok (last, middle) ∧
            before.ExtendedBy (declaredInNodes first) middle ∧
            ctx.walkNodes dot last rest middle = .ok (result, after) ∧
            middle.ExtendedBy (declaredInNodes rest) after) ∧
    ∀ (env : Environment) data error, env.check tree data = .error error →
      error.cause ≠ .undefinedVariable "$" := by
  obtain ⟨inRange, hholds⟩ := hnode
  have hwell : node.IsWellFormed :=
    Node.IsWellFormed.of_holds (TemplateSet.isWellFormed_of_parse hparse name tree htree) hholds
  constructor
  · intro ctx dot passed before result after hwalk
    have hsets : (ctx.walk dot { passed } node).Sets node.declaredNames :=
      (Context.walk_sets (.none passed) node hwell hone fun _ => rfl).of_append_nil
    have hextended := hsets before result after hwalk
    refine ⟨hextended, ?_, ?_⟩
    · rintro keyword branch rfl
      exact hextended.eq_of_nil
    · rintro span first rest rfl
      exact Context.walk_body_append hwell hwalk
  · intro env data error hcheck
    exact Environment.walkTree_cause_ne (fun _ _ => Environment.judge_cause_ne) hcheck

/-- Variables that are set in parentheses and in a branch. -/
def settingSource : String :=
  "\x7b\x7b$a := print ($b := $x)\x7d\x7d\x7b\x7bif $c := $a\x7d\x7d\x7b\x7b$a = 1\x7d\x7d" ++
    "\x7b\x7b$d := $\x7d\x7d\x7b\x7bend\x7d\x7d"

/-- The types of the data and of one more variable. -/
def settingScope : Scope := (Scope.root (.basic .int)).insert "$x" (.basic .bool)

/-- The environment without named types and with the templates of a set. -/
def settingEnvironment (set : TemplateSet) : Environment :=
  { types := ⟨[]⟩, templates := set }

/-- The variable in parentheses is set, those of the branch are not, and the one that was there
before keeps its type.  Without that variable the check fails, though not for lack of its
data. -/
theorem TemplateSet.walk_extendedBy_declaredNames_setting :
    ∃ set page result after error,
      TemplateSet.parse .standard "page" settingSource = .ok set ∧ set.get? "page" = some page ∧
      ((settingEnvironment set).contextDuring page 0 []).walk (.basic .int) .none
        (.body page.root) settingScope = .ok (result, after) ∧
      after.contains "$b" = true ∧ after.contains "$d" = false ∧
      after.get? "$x" = some (.basic .bool) ∧
      (settingEnvironment set).check page (.basic .int) = .error error ∧
      error.cause = .undefinedVariable "$x" ∧ error.cause ≠ .undefinedVariable "$" := by
  have hruns : (TemplateSet.parse .standard "page" settingSource).toOption.any (fun set =>
      (set.get? "page").any fun page =>
        (Node.body page.root).declaredNames == ["$b", "$a"] &&
          (((settingEnvironment set).contextDuring page 0 []).walk (.basic .int) .none
            (.body page.root) settingScope).toOption.isSome &&
            (fault? ((settingEnvironment set).check page (.basic .int))).any
              (·.cause == .undefinedVariable "$x")) = true := by
    decide +kernel
  obtain ⟨set, hset, hruns⟩ := (Option.any_eq_true _ _).mp hruns
  obtain ⟨page, hpage, hruns⟩ := (Option.any_eq_true _ _).mp hruns
  obtain ⟨hruns, herror⟩ := Bool.and_eq_true_iff.mp hruns
  obtain ⟨hnames, hwalk⟩ := Bool.and_eq_true_iff.mp hruns
  obtain ⟨⟨result, after⟩, hwalk⟩ := Option.isSome_iff_exists.mp hwalk
  obtain ⟨error, herror, hcause⟩ := (Option.any_eq_true _ _).mp herror
  have hset := Except.eq_ok_of_toOption hset
  have hwalk := Except.eq_ok_of_toOption hwalk
  have herror := eq_error_of_fault? herror
  obtain ⟨hwrites, hdata⟩ := TemplateSet.walk_extendedBy_declaredNames .standard "page"
    settingSource set hset "page" page hpage (.body page.root) ⟨false, .refl⟩ rfl
  obtain ⟨⟨hkept, hbound⟩, -, -⟩ := hwrites _ _ _ _ _ _ hwalk
  rw [eq_of_beq hnames] at hkept hbound
  refine ⟨set, page, result, after, error, hset, hpage, hwalk, ?_, ?_, ?_, herror,
    eq_of_beq hcause, hdata _ _ error herror⟩
  · exact (hbound "$b").mpr (.inr (by decide))
  · rw [Bool.eq_false_iff, Ne, hbound "$d"]
    decide
  · exact hkept "$x" (by decide)

end TemplateTyping
