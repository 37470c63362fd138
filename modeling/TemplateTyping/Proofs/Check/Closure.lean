import TemplateTyping.Proofs.Check.Recursion
import TemplateTyping.Proofs.Tree.Parts

/-!
# Accepted templates are closed

A check does not walk through an invocation that is active already, and it works
out the operands of a term only when they are needed.  Still nothing is left
unseen: in a walk that ends well every node of the tree is passed, and every tree
that can be come to through invocations is walked through with some data.  The main
statement is that in all of these trees every invocation has a template to go to and
every name that is called is the name of a function.

Active calls are told by descriptions, which distinct types may share.  So a tree may
be passed over with one type although it has been walked through with another one
only; what is said here does not depend on the type.
-/

namespace TemplateTyping

/-! ## Checks that succeed -/

/-- The check succeeds from some scope. -/
def Checker.Succeeds {α : Type} (check : Checker α) : Prop :=
  ∃ scope result, check scope = .ok result

namespace Checker.Succeeds

variable {α β : Type}

theorem bind {first : Checker α} {next : α → Checker β} (h : (first >>= next).Succeeds) :
    first.Succeeds ∧ ∃ value, (next value).Succeeds := by
  obtain ⟨scope, result, hrun⟩ := h
  change (first scope).bind (fun middle => next middle.1 middle.2) = _ at hrun
  cases hfirst : first scope with
  | error error =>
      rw [hfirst] at hrun
      cases hrun
  | ok middle =>
      rw [hfirst] at hrun
      exact ⟨⟨scope, middle, hfirst⟩, middle.1, middle.2, result, hrun⟩

theorem isolated {check : Checker α} (h : (Checker.isolated check).Succeeds) :
    check.Succeeds := by
  obtain ⟨scope, result, hrun⟩ := h
  cases hcheck : check scope with
  | error error => simp [Checker.isolated, hcheck] at hrun
  | ok inner => exact ⟨scope, inner, hcheck⟩

theorem located {ctx : Context} {node : Node} {verdict : Except Cause α}
    (h : (ctx.located node verdict).Succeeds) : ∃ value, verdict = .ok value := by
  obtain ⟨scope, result, hrun⟩ := h
  cases verdict with
  | error cause => cases hrun
  | ok value => exact ⟨value, rfl⟩

theorem not_fail {ctx : Context} {node : Node} {cause : Cause} :
    ¬(ctx.fail node cause : Checker α).Succeeds := by
  rintro ⟨scope, result, hrun⟩
  cases hrun

/-- A term that cannot be applied is not. -/
theorem plain {ctx : Context} {node : Node} {args : Arguments}
    (h : (ctx.plain node args).Succeeds) : args.operands = [] := by
  cases hgiven : args.given with
  | true =>
      rw [Context.plain, if_pos hgiven] at h
      exact absurd h not_fail
  | false =>
      rw [Arguments.given, Bool.or_eq_false_iff] at hgiven
      simpa using hgiven.1

theorem invocation {ctx : Context} {node : Node} {invocation : Invocation}
    (h : (ctx.invocation node invocation).Succeeds) :
    ctx.invoke invocation = .ok () := by
  obtain ⟨scope, result, hrun⟩ := h
  cases hverdict : ctx.invoke invocation with
  | ok value => rfl
  | error refusal =>
      rw [Context.invocation, hverdict] at hrun
      cases refusal with
      | here cause => cases hrun
      | inside error => cases hrun

end Checker.Succeeds

/-! ## Nodes that are passed -/

namespace Context

variable {ctx : Context} {dot : Ty} {args : Arguments}

/-- The walk comes through a node; a pipeline may also be passed by its commands
alone. -/
inductive Passes (ctx : Context) : Node → Prop
  | walk {dot : Ty} {args : Arguments} {node : Node} :
      (ctx.walk dot args node).Succeeds → Passes ctx node
  | commands {dot : Ty} {pipe : Pipe Node} :
      (ctx.checkCommands dot none pipe.commands).Succeeds → Passes ctx (.pipe pipe)

theorem types_succeeds (h : args.types.Succeeds) : args.operandTypes.Succeeds :=
  h.bind.1

theorem pathStep_succeeds
    {node : Node} {receiver : Ty} {name : String}
    (h : (ctx.pathStep node args receiver name).Succeeds) :
    args.operands = [] ∨ args.operandTypes.Succeeds := by
  rw [pathStep_eq] at h
  obtain ⟨_, resolution, h⟩ := h.bind
  cases resolution with
  | value ty =>
      left
      cases hgiven : args.given with
      | true =>
          rw [applyResolution, if_pos hgiven] at h
          exact absurd h Checker.Succeeds.not_fail
      | false =>
          rw [Arguments.given, Bool.or_eq_false_iff] at hgiven
          simpa using hgiven.1
  | method signature => exact .inr (types_succeeds h.bind.1)

/-- The operands belong to the last name of a path, so they are looked at if there is
a name. -/
theorem checkPath_succeeds
    {node : Node} {receiver : Ty} {path : List String} (hpath : path ≠ [])
    (h : (ctx.checkPath node args receiver path).Succeeds) :
    args.operands = [] ∨ args.operandTypes.Succeeds := by
  induction path generalizing receiver with
  | nil => exact absurd rfl hpath
  | cons name path ih =>
      cases path with
      | nil => exact pathStep_succeeds h
      | cons second path =>
          obtain ⟨_, next, h⟩ := h.bind
          exact ih (by simp) h

theorem ne_nil_of_isFieldPath {path : List String} (h : isFieldPath path = true) :
    path ≠ [] := by
  rintro rfl
  cases h

/-- A term that is passed has no operands, or they have types. -/
theorem operandTypes_succeeds
    {head : Node} (hterm : head.isTerm = true) (hfits : head.fits = true)
    (h : (ctx.walk dot args head).Succeeds) :
    args.operands = [] ∨ args.operandTypes.Succeeds := by
  cases head with
  | field span path =>
      simp only [walk] at h
      exact checkPath_succeeds (ne_nil_of_isFieldPath hfits) h.bind.1
  | chain span receiver path =>
      simp only [walk] at h
      obtain ⟨_, found, h⟩ := h.bind
      simp only [Node.fits, Bool.and_eq_true] at hfits
      exact checkPath_succeeds (ne_nil_of_isFieldPath hfits.2) h.bind.1
  | «variable» v =>
      simp only [walk] at h
      obtain ⟨_, ty, h⟩ := h.bind
      obtain ⟨span, path⟩ := v
      rcases path with _ | ⟨name, _ | ⟨field, path⟩⟩
      · cases hfits
      · exact .inl h.bind.1.plain
      · exact checkPath_succeeds (List.cons_ne_nil field path) h.bind.1
  | identifier span name =>
      simp only [walk] at h
      exact .inr (types_succeeds h.bind.1)
  | pipe pipe =>
      simp only [walk] at h
      exact .inl h.bind.1.plain
  | dot span =>
      simp only [walk] at h
      exact .inl h.bind.1.plain
  | nil span =>
      simp only [walk] at h
      exact .inl h.bind.1.plain
  | bool span value =>
      simp only [walk] at h
      exact .inl h.bind.1.plain
  | string span quoted value =>
      simp only [walk] at h
      exact .inl h.bind.1.plain
  | number span number =>
      simp only [walk] at h
      exact .inl h.bind.1.plain
  | _ => cases hterm

/-! ### From nodes to their parts -/

theorem passes_of_walkNodes
    {last : Option Ty} {nodes : List Node} (h : (ctx.walkNodes dot last nodes).Succeeds) :
    ∀ node ∈ nodes, ctx.Passes node := by
  induction nodes generalizing last with
  | nil => simp
  | cons first nodes ih =>
      simp only [walkNodes] at h
      obtain ⟨hfirst, last', h⟩ := h.bind
      intro node hnode
      rcases List.mem_cons.mp hnode with rfl | hnode
      · exact .walk hfirst
      · exact ih h node hnode

theorem passes_of_walkBody {body : Body Node} (h : (ctx.walkBody dot body).Succeeds) :
    ctx.Passes (.body body) := by
  have hwalk : (ctx.walk dot .none (.body body)).Succeeds := by simpa only [walk] using h
  exact .walk hwalk

theorem passes_of_checkPipe {pipe : Pipe Node} (h : (ctx.checkPipe dot pipe).Succeeds) :
    ctx.Passes (.pipe pipe) := by
  cases pipe with
  | mk span isAssign declared commands =>
      simp only [checkPipe] at h
      exact .commands h.bind.1

theorem passes_of_checkCommand
    {command : Command Node} {passed : Option Ty}
    (h : (ctx.checkCommand dot command passed).Succeeds) :
    ctx.Passes (.command command) := by
  have hwalk : (ctx.walk dot ⟨[], pure [], passed⟩ (.command command)).Succeeds := by
    obtain ⟨scope, result, hrun⟩ := h
    refine ⟨scope, (some result.1, result.2), ?_⟩
    simp only [walk]
    exact congrArg (Except.bind · fun found => .ok (some found.1, found.2)) hrun
  exact .walk hwalk

theorem passes_of_checkCommands
    {passed : Option Ty} {commands : List (Command Node)}
    (h : (ctx.checkCommands dot passed commands).Succeeds) :
    ∀ command ∈ commands, ctx.Passes (.command command) := by
  induction commands generalizing passed with
  | nil => simp
  | cons first commands ih =>
      simp only [checkCommands] at h
      obtain ⟨hfirst, ty, h⟩ := h.bind
      intro command hcommand
      rcases List.mem_cons.mp hcommand with rfl | hcommand
      · exact passes_of_checkCommand hfirst
      · exact ih h command hcommand

theorem passes_of_checkOperands
    {operands : List Node} (h : (ctx.checkOperands dot operands).Succeeds) :
    ∀ operand ∈ operands, ctx.Passes operand := by
  induction operands with
  | nil => simp
  | cons first operands ih =>
      simp only [checkOperands] at h
      obtain ⟨hfirst, _, h⟩ := h.bind
      intro operand hoperand
      rcases List.mem_cons.mp hoperand with rfl | hoperand
      · exact .walk hfirst
      · exact ih h.bind.1 operand hoperand

theorem passes_of_checkApplication
    {passed : Option Ty} {operands : List Node}
    (hterms : ∀ operand ∈ operands, operand.isTerm = true ∧ operand.fits = true)
    (h : (ctx.checkApplication dot passed operands).Succeeds) :
    ∀ operand ∈ operands, ctx.Passes operand := by
  cases operands with
  | nil => simp
  | cons head operands =>
      by_cases hnil : ∃ span, head = .nil span
      · obtain ⟨span, rfl⟩ := hnil
        simp only [checkApplication] at h
        exact absurd h Checker.Succeeds.not_fail
      · rw [checkApplication_of_ne_nil _ dot passed operands hnil] at h
        have hhead := h.bind.1
        obtain ⟨hterm, hfits⟩ := hterms head List.mem_cons_self
        intro operand hoperand
        rcases List.mem_cons.mp hoperand with rfl | hoperand
        · exact .walk hhead
        · rcases operandTypes_succeeds hterm hfits hhead with hnone | htypes
          · rw [show operands = [] from hnone] at hoperand
            cases hoperand
          · exact passes_of_checkOperands htypes operand hoperand

theorem passes_of_checkOtherwise
    {otherwise : Option (Body Node)} (h : (ctx.checkOtherwise dot otherwise).Succeeds) :
    ∀ body, otherwise = some body → ctx.Passes (.body body) := by
  rintro body rfl
  simp only [checkOtherwise] at h
  exact passes_of_walkBody h.isolated.bind.1

/-- The pipeline and the bodies of a branch are passed, whatever the data is that its
bodies have. -/
theorem passes_of_checkBranch
    {keyword : BranchKeyword} {branch : Branch Node}
    (h : (ctx.checkBranch dot keyword branch).Succeeds) :
    ctx.Passes (.pipe branch.pipe) ∧ ctx.Passes (.body branch.body) ∧
      ∀ body, branch.otherwise = some body → ctx.Passes (.body body) := by
  obtain ⟨span, pipe, body, otherwise⟩ := branch
  cases keyword with
  | ifKeyword =>
      simp only [checkBranch] at h
      obtain ⟨hpipe, _, h⟩ := h.isolated.bind
      obtain ⟨hbody, _, hotherwise⟩ := h.bind
      exact ⟨passes_of_checkPipe hpipe, passes_of_walkBody hbody.isolated,
        passes_of_checkOtherwise hotherwise⟩
  | withKeyword =>
      simp only [checkBranch] at h
      obtain ⟨hpipe, value, h⟩ := h.isolated.bind
      obtain ⟨hbody, _, hotherwise⟩ := h.bind
      exact ⟨passes_of_checkPipe hpipe, passes_of_walkBody hbody.isolated,
        passes_of_checkOtherwise hotherwise⟩
  | rangeKeyword =>
      obtain ⟨pipeSpan, isAssign, declared, commands⟩ := pipe
      simp only [checkBranch] at h
      obtain ⟨hround, _, hotherwise⟩ := h.bind
      obtain ⟨hcommands, found, h⟩ := hround.isolated.bind
      obtain ⟨_, iteration, h⟩ := h.bind
      obtain ⟨_, _, h⟩ := h.bind
      exact ⟨.commands hcommands, passes_of_walkBody h.bind.1,
        passes_of_checkOtherwise hotherwise⟩

theorem Passes.command_of_pipe
    {pipe : Pipe Node} (h : ctx.Passes (.pipe pipe)) :
    ∀ command ∈ pipe.commands, ctx.Passes (.command command) := by
  cases h with
  | commands h => exact passes_of_checkCommands h
  | walk h =>
      obtain ⟨span, isAssign, declared, commands⟩ := pipe
      simp only [Context.walk, checkPipe] at h
      obtain ⟨_, _, h⟩ := h.bind
      exact passes_of_checkCommands h.bind.1.bind.1

/-- With a node its parts are passed, apart from variables that a pipeline sets. -/
theorem Passes.part
    {node part : Node} {enters : Bool} (h : ctx.Passes node) (hnode : node.IsWellFormed)
    (hpart : (enters, part) ∈ node.parts) :
    ctx.Passes part ∨ ∃ v, part = .variable v := by
  cases node with
  | action span pipe =>
      obtain ⟨rfl, rfl⟩ : enters = false ∧ part = .pipe pipe := by
        simpa [Node.parts] using hpart
      cases h with
      | walk h =>
          simp only [Context.walk] at h
          exact .inl (passes_of_checkPipe h.bind.1)
  | body body =>
      obtain ⟨part, hmem, rfl, rfl⟩ : ∃ node ∈ body.nodes, false = enters ∧ node = part := by
        simpa [Node.parts] using hpart
      obtain ⟨span, nodes⟩ := body
      cases h with
      | walk h =>
          simp only [Context.walk, walkBody] at h
          exact .inl (passes_of_walkNodes h part hmem)
  | pipe pipe =>
      simp only [Node.parts, List.mem_append, List.mem_map, Prod.mk.injEq] at hpart
      rcases hpart with ⟨v, hv, rfl, rfl⟩ | ⟨command, hcommand, rfl, rfl⟩
      · exact .inr ⟨v, rfl⟩
      · exact .inl (h.command_of_pipe command hcommand)
  | command command =>
      have hterms : ∀ operand ∈ command.operands,
          operand.isTerm = true ∧ operand.fits = true := by
        intro operand hoperand
        have hfits := hnode.fits_self
        simp only [Node.fits, Bool.and_eq_true, List.all_eq_true] at hfits
        have hmem : (false, operand) ∈ (Node.command command).parts :=
          List.mem_map_of_mem hoperand
        exact ⟨(hfits.2 operand hoperand).1, (hnode.of_mem_parts hmem).fits_self⟩
      obtain ⟨part, hmem, rfl, rfl⟩ :
          ∃ node ∈ command.operands, false = enters ∧ node = part := by
        simpa [Node.parts] using hpart
      obtain ⟨span, operands⟩ := command
      cases h with
      | walk h =>
          simp only [Context.walk, checkCommand] at h
          exact .inl (passes_of_checkApplication hterms h.bind.1 part hmem)
  | chain span receiver path =>
      obtain ⟨rfl, rfl⟩ : enters = false ∧ part = receiver := by
        simpa [Node.parts] using hpart
      cases h with
      | walk h =>
          simp only [Context.walk] at h
          exact .inl (.walk h.bind.1)
  | branch keyword branch =>
      cases h with
      | walk h =>
          simp only [Context.walk] at h
          obtain ⟨hpipe, hbody, hotherwise⟩ := passes_of_checkBranch h.bind.1
          simp only [Node.parts, List.mem_cons, List.mem_map, Option.mem_toList,
            Prod.mk.injEq] at hpart
          rcases hpart with ⟨rfl, rfl⟩ | ⟨rfl, rfl⟩ | ⟨body, hsome, rfl, rfl⟩
          · exact .inl hpipe
          · exact .inl hbody
          · exact .inl (hotherwise body hsome)
  | template span name argument =>
      simp only [Node.parts, List.mem_map, Option.mem_toList, Prod.mk.injEq] at hpart
      obtain ⟨pipe, rfl, rfl, rfl⟩ := hpart
      cases h with
      | walk h =>
          simp only [Context.walk, checkArgument] at h
          exact .inl (passes_of_checkPipe h.bind.1.bind.1)
  | _ => simp [Node.parts] at hpart

/-- All that stands in a node that is passed is passed, apart from variables. -/
theorem Passes.holds
    {root node : Node} {inRange : Bool} (h : ctx.Passes root) (hroot : root.IsWellFormed)
    (hholds : root.Holds inRange node) :
    ctx.Passes node ∨ ∃ v, node = .variable v := by
  induction hholds with
  | refl => exact .inl h
  | @part inRange enters node part hholds hpart ih =>
      rcases ih with hnode | ⟨v, rfl⟩
      · have hwell : node.IsWellFormed := hroot.of_holds hholds
        exact hnode.part hwell hpart
      · simp [Node.parts] at hpart

/-! ### What is known of passed nodes -/

/-- A name that is called is the name of a function. -/
theorem Passes.identifier
    {span : Span} {name : String} (h : ctx.Passes (.identifier span name)) :
    ctx.functions.contains name = true ∨ (Builtin.ofName? name).isSome = true := by
  cases h with
  | walk h =>
      simp only [Context.walk] at h
      obtain ⟨_, types, h⟩ := h.bind
      obtain ⟨ty, hcall⟩ := h.bind.1.located
      rw [Universe.checkCall] at hcall
      cases hfunction : ctx.functions.get? name with
      | some signature => exact .inl (by rw [NameMap.contains, hfunction]; rfl)
      | none =>
          cases hbuiltin : Builtin.ofName? name with
          | some builtin => exact .inr rfl
          | none =>
              rw [hfunction, hbuiltin] at hcall
              cases hcall

/-- An invocation is accepted with some argument. -/
theorem Passes.template
    {span : Span} {name : String} {argument : Option (Pipe Node)}
    (h : ctx.Passes (.template span name argument)) :
    ∃ ty, ctx.invoke ⟨name, ty⟩ = .ok () := by
  cases h with
  | walk h =>
      simp only [Context.walk] at h
      obtain ⟨_, ty, h⟩ := h.bind
      exact ⟨ty, h.bind.1.invocation⟩

end Context

/-! ## Trees that can be come to -/

/-- Every tree of the set was read from some source. -/
def TemplateSet.IsRead (set : TemplateSet) : Prop :=
  ∀ name tree, set.get? name = some tree →
    ∃ d sourceName source read, TemplateSet.parse d sourceName source = .ok read ∧
      ∃ readName, read.get? readName = some tree

theorem TemplateSet.IsRead.isWellFormed {set : TemplateSet} (h : set.IsRead) :
    set.IsWellFormed := by
  intro name tree htree
  obtain ⟨d, sourceName, source, read, hread, readName, htree'⟩ := h name tree htree
  exact TemplateSet.isWellFormed_of_parse hread readName tree htree'

/-- The trees that a tree leads to: itself, and the templates of a set that are invoked
somewhere in a tree it leads to. -/
inductive TemplateSet.LeadsTo (set : TemplateSet) (tree : Tree) : Tree → Prop
  | refl : LeadsTo set tree tree
  | invoked {reached target : Tree} {inRange : Bool} {span : Span} {name : String}
      {argument : Option (Pipe Node)} :
      LeadsTo set tree reached →
      (Node.body reached.root).Holds inRange (.template span name argument) →
      set.get? name = some target →
      LeadsTo set tree target

namespace Environment

/-- Every invocation in the tree has a template to go to, and every name that is
called is the name of a registered function or of a built-in one. -/
structure IsClosed (env : Environment) (tree : Tree) : Prop where
  template : ∀ inRange span name argument,
    (Node.body tree.root).Holds inRange (.template span name argument) →
      env.templates.contains name = true
  function : ∀ inRange span name,
    (Node.body tree.root).Holds inRange (.identifier span name) →
      env.functions.contains name = true ∨ (Builtin.ofName? name).isSome = true

variable {env : Environment} {tree : Tree} {data : Ty} {judge : Judge} {result : Option Ty}

/-- A walk that ends well passes its tree. -/
theorem passes_of_walkTree (hwalk : env.walkTree tree data judge = .ok result) :
    (env.context tree judge).Passes (.body tree.root) := by
  have hbody : ((env.context tree judge).walkBody data tree.root).Succeeds := by
    refine ⟨Scope.root data, ?_⟩
    simp only [walkTree, StateT.run'_eq, StateT.run] at hwalk
    cases hrun : (env.context tree judge).walkBody data tree.root (Scope.root data) with
    | error error =>
        rw [hrun] at hwalk
        cases hwalk
    | ok value => exact ⟨value, rfl⟩
  exact Context.passes_of_walkBody hbody

/-- A walk that ends well meets every template that is invoked in its tree. -/
theorem exists_meets
    (htree : tree.IsWellFormed) (hwalk : env.walkTree tree data judge = .ok result)
    {inRange : Bool} {span : Span} {name : String} {argument : Option (Pipe Node)}
    (hholds : (Node.body tree.root).Holds inRange (.template span name argument)) :
    ∃ ty, env.Meets tree data judge ⟨name, ty⟩ := by
  by_contra hnone
  -- A judge that refuses this template would then not be noticed, although the walk
  -- passes the invocation.
  let strict : Judge := fun invocation =>
    if invocation.template = name then .error (.here .nilCommand) else judge invocation
  have hstrict : env.walkTree tree data strict = .ok result := by
    apply walkTree_eq_of_accepted hwalk
    intro invocation hmeets
    have hname : invocation.template ≠ name := by
      rintro rfl
      exact hnone ⟨_, hmeets⟩
    exact (if_neg hname).trans (accepted_of_meets hwalk hmeets)
  rcases (passes_of_walkTree hstrict).holds htree hholds with hpasses | ⟨v, hv⟩
  · obtain ⟨ty, hinvoke⟩ := hpasses.template
    have hrefused : strict ⟨name, ty⟩ = .error (.here .nilCommand) := if_pos rfl
    cases hrefused.symm.trans hinvoke
  · cases hv

/-- A tree whose walk ends well under the verdicts of a check is closed. -/
theorem isClosed_of_walkTree
    (htree : tree.IsWellFormed) {budget : Nat} {active : List ActiveCall}
    (hwalk : env.walkTree tree data (env.judge budget active) = .ok result) :
    env.IsClosed tree where
  template inRange span name argument hholds := by
    obtain ⟨ty, hmeets⟩ := exists_meets htree hwalk hholds
    obtain ⟨target, htarget, _⟩ := judge_eq_ok (accepted_of_meets hwalk hmeets)
    exact Option.isSome_iff_exists.mpr ⟨target, htarget⟩
  function inRange span name hholds := by
    rcases (passes_of_walkTree hwalk).holds htree hholds with hpasses | ⟨v, hv⟩
    · exact hpasses.identifier
    · cases hv

/-- An accepting check walks through every tree that its tree leads to, though perhaps
not with every type that this is invoked with. -/
theorem exists_visits
    (hset : env.templates.IsWellFormed)
    (htree : env.templates.get? tree.name = some tree)
    (hcheck : env.check tree data = .ok result)
    {reached : Tree} (hreached : env.templates.LeadsTo tree reached) :
    reached.IsWellFormed ∧
      ∃ budget stack argument, env.Visits tree data budget stack reached argument := by
  induction hreached with
  | refl => exact ⟨hset _ _ htree, _, _, _, .entry⟩
  | @invoked reached target inRange span name argument _ hholds htarget ih =>
      refine ⟨hset _ _ htarget, ?_⟩
      obtain ⟨hwell, budget, stack, data', hvisit⟩ := ih
      obtain ⟨inner, hwalk⟩ := hvisit.accepted hcheck
      obtain ⟨ty, hmeets⟩ := exists_meets hwell hwalk hholds
      obtain ⟨target', htarget', hverdict⟩ :=
        judge_eq_ok (accepted_of_meets hwalk hmeets)
      by_cases hactive : env.call ⟨name, ty⟩ ∈ stack.map env.call
      · -- The call that is active has the same name, so it walks through the same tree.
        obtain ⟨earlier, hearlier, hcall⟩ := List.mem_map.mp hactive
        have hname : earlier.template = name := congrArg Prod.fst hcall
        obtain ⟨budget', stack', walked, hvisit', hwalked⟩ := hvisit.walks htree hearlier
        rw [hname] at hwalked
        obtain rfl : target = walked := Option.some.inj (htarget.symm.trans hwalked)
        exact ⟨budget', stack', _, hvisit'⟩
      · obtain hold | ⟨rest, _, rfl, _⟩ := hverdict
        · exact absurd hold hactive
        · exact ⟨rest, _, ty, .invoked hvisit hmeets htarget hactive⟩

/-- Accepted templates are closed: if a check accepts, then in every tree that its tree
leads to every invocation names a template of the set, and every name that is called is
that of a function. -/
theorem isClosed_of_check
    (env : Environment) (hset : env.templates.IsRead)
    (tree : Tree) (htree : env.templates.get? tree.name = some tree)
    (data : Ty) (result : Option Ty) (hcheck : env.check tree data = .ok result)
    (reached : Tree) (hreached : env.templates.LeadsTo tree reached) :
    env.IsClosed reached := by
  obtain ⟨hwell, budget, stack, argument, hvisit⟩ :=
    exists_visits hset.isWellFormed htree hcheck hreached
  obtain ⟨inner, hwalk⟩ := hvisit.accepted hcheck
  exact isClosed_of_walkTree hwell hwalk

/-- A list of shelves and the shelves in it go by one name, though only the list can
be run over. -/
def shelves : Universe :=
  ⟨[{ name := "T", definition := some ⟨.slice (.named (.declared 1)), []⟩ },
    { name := "T", definition := some ⟨.emptyStruct, []⟩ }]⟩

/-- A template that invokes one which invokes itself on every element. -/
def shelvesSource : String :=
  "\x7b\x7btemplate \"row\" .\x7d\x7d\x7b\x7bdefine \"row\"\x7d\x7d\x7b\x7bprint .\x7d\x7d" ++
    "\x7b\x7brange .\x7d\x7d\x7b\x7btemplate \"row\" .\x7d\x7d\x7b\x7bend\x7d\x7d\x7b\x7bend\x7d\x7d"

/-- The template that a tree invokes, if it does nothing else. -/
def invoked? (tree : Tree) : Option String :=
  match tree.root.nodes with
  | [.template _ name _] => some name
  | _ => none

theorem leadsTo_of_invoked?
    {set : TemplateSet} {tree target : Tree} {name : String}
    (hinvoked : invoked? tree = some name) (htarget : set.get? name = some target) :
    set.LeadsTo tree target := by
  unfold invoked? at hinvoked
  split at hinvoked
  · rename_i span other argument hnodes
    obtain rfl : other = name := Option.some.inj hinvoked
    have hholds : (Node.body tree.root).Holds false (.template span other argument) :=
      .part .refl (by simp [Node.parts, hnodes])
    exact .invoked .refl hholds htarget
  · cases hinvoked

/-- The shelves themselves are never walked through, since their call seems to be active
already; still the template that is invoked on them is closed. -/
theorem isClosed_of_check_shelves :
    ∃ set page row, TemplateSet.parse .standard "page" shelvesSource = .ok set ∧
      set.get? "page" = some page ∧ set.get? "row" = some row ∧
        set.LeadsTo page row ∧
          (∃ result, check ⟨shelves, set, .standard, none, 64⟩ page (.named (.declared 0)) =
            .ok result) ∧
            IsClosed ⟨shelves, set, .standard, none, 64⟩ row := by
  have hruns : (TemplateSet.parse .standard "page" shelvesSource).toOption.any (fun set =>
      set.contains "row" && (set.get? "page").any fun page =>
        page.name == "page" && invoked? page == some "row" &&
          (check ⟨shelves, set, .standard, none, 64⟩ page (.named (.declared 0))).toOption.isSome) =
        true := by
    decide +kernel
  obtain ⟨set, hset, hruns⟩ := (Option.any_eq_true _ _).mp hruns
  have hset := Except.eq_ok_of_toOption hset
  obtain ⟨hrow, hruns⟩ := Bool.and_eq_true_iff.mp hruns
  obtain ⟨row, hrow⟩ := Option.isSome_iff_exists.mp hrow
  obtain ⟨page, hpage, hruns⟩ := (Option.any_eq_true _ _).mp hruns
  simp only [Bool.and_eq_true, beq_iff_eq] at hruns
  obtain ⟨⟨hname, hinvoked⟩, hok⟩ := hruns
  obtain ⟨result, hcheck⟩ := Option.isSome_iff_exists.mp hok
  have hcheck := Except.eq_ok_of_toOption hcheck
  have hleads := leadsTo_of_invoked? hinvoked hrow
  refine ⟨set, page, row, hset, hpage, hrow, hleads, ⟨result, hcheck⟩, ?_⟩
  have hread : set.IsRead := fun name tree htree => ⟨_, _, _, set, hset, name, htree⟩
  exact isClosed_of_check ⟨shelves, set, .standard, none, 64⟩ hread page
    (by rw [hname]; exact hpage) _ result hcheck row hleads

end Environment

end TemplateTyping
