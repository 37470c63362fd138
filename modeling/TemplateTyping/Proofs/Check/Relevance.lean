import TemplateTyping.Proofs.Check.Blame
import TemplateTyping.Proofs.Check.Closure
import TemplateTyping.Proofs.Host.Visibility

/-!
# What a check depends on

A check looks up templates by the names that are invoked, and functions by the names that are
called.  So two environments that agree on the names which occur in the trees that a tree leads
to check it alike, down to the fault.  Other templates and functions do not matter.

Nor does the package that a check is made from.  A name in a path is looked for in a type only if
it is exported, and then it means the same from every package.
-/

namespace TemplateTyping

/-! ## One walk in two contexts -/

/-- Two contexts are the same as far as a tree asks: about types, about the functions that are
called in the tree and about the templates that are invoked in it. -/
structure Context.AlikeIn (tree : Tree) (first second : Context) : Prop where
  types : first.types = second.types
  owner : first.tree = second.tree
  functions : ∀ span name, tree.Holds (.identifier span name) →
    first.functions.get? name = second.functions.get? name
  invoke : ∀ span name argument ty, tree.Holds (.template span name argument) →
    first.invoke ⟨name, ty⟩ = second.invoke ⟨name, ty⟩

/-- What a name stands for does not depend on the package. -/
theorem Universe.resolve_package
    (u : Universe) (package package' : Option String) (receiver : Ty) (name : String) :
    u.resolve package receiver name = u.resolve package' receiver name := by
  have hmember : ∀ current, u.resolveMember package current name =
      u.resolveMember package' current name := by
    intro current
    unfold resolveMember
    split
    · rename_i hname
      rw [u.member?_package hname package package']
    · rfl
  simp only [resolve, hmember]

/-- Being the same, as a property of walks in two contexts through the nodes of a tree. -/
def samenessProperty (tree : Tree) : WalkProperty Bool where
  good _ := True
  reached := tree.Holds
  agree verdict := verdict true = verdict false
  holds check := check true = check false
  basic _ := trivial
  part := .part
  accept _ := rfl
  refuse _ := rfl
  pure _ := rfl
  bind hfirst hnext :=
    congrArg₂ _ hfirst (funext fun value => hnext value fun _ _ => trivial)
  isolated hcheck := congrArg Checker.isolated hcheck

section Congr

variable {first second : Context} (howner : first.tree = second.tree)
include howner

theorem Context.located_congr {α : Type} (node : Node) (verdict : Except Cause α) :
    first.located node verdict = second.located node verdict := by
  simp only [located, fail, howner]

theorem Context.variableType_congr (node : Node) (name : String) :
    first.variableType node name = second.variableType node name := by
  simp only [variableType, fail, howner]

theorem Context.setVariable_congr (v : Variable) (isAssign : Bool) (ty : Ty) :
    first.setVariable v isAssign ty = second.setVariable v isAssign ty := by
  simp only [setVariable, variableType_congr howner]

theorem Context.invocation_congr
    {invocation : Invocation} (hinvoke : first.invoke invocation = second.invoke invocation)
    (node : Node) : first.invocation node invocation = second.invocation node invocation := by
  simp only [Context.invocation, fail, hinvoke, howner]

end Congr

theorem samenessProperty_respected
    {tree : Tree} {first second : Context} (h : first.AlikeIn tree second) :
    (samenessProperty tree).Respected fun i => bif i then first else second where
  located _ hverdict :=
    (congrArg (first.located _) hverdict).trans (Context.located_congr h.owner _ _)
  variableType _ := Context.variableType_congr h.owner _ _
  setVariable isAssign _ _ := Context.setVariable_congr h.owner _ isAssign _
  invocation hnode _ := Context.invocation_congr h.owner (h.invoke _ _ _ _ hnode) _
  resolve name _ := by
    change first.types.resolve first.package _ name = second.types.resolve second.package _ name
    rw [h.types]
    exact second.types.resolve_package _ _ _ name
  arguments name types _ := congrArg (Universe.checkArguments · name _ types) h.types
  call operands hnode _ := by
    change first.types.checkCall first.functions _ operands _ =
      second.types.checkCall second.functions _ operands _
    rw [h.types, Universe.checkCall, Universe.checkCall, h.functions _ _ hnode]
  iteration vars _ := congrArg (Universe.iteration · _ vars) h.types
  rangeVariables source := congrArg
    (fun u : Universe => Except.error (Cause.rangeVariables (u.describe source))) h.types
  concrete _ := congrArg (fun u : Universe => pure (u.concrete _)) h.types

namespace Environment

/-- Walks through a tree in contexts that are the same as far as the tree asks are the same. -/
theorem walkTree_eq_of_alikeIn
    {first second : Environment} {tree : Tree} {judge other : Judge}
    (h : (first.context tree judge).AlikeIn tree (second.context tree other)) (data : Ty) :
    first.walkTree tree data judge = second.walkTree tree data other := by
  have hbody : (first.context tree judge).walkBody data tree.root =
      (second.context tree other).walkBody data tree.root :=
    (samenessProperty_respected h).walkBody trivial tree.root ⟨false, .refl⟩
  rw [walkTree, walkTree, hbody]

end Environment

/-! ## Names that matter -/

/-- An insertion does not matter to names that the inserted one is not among. -/
theorem NameMap.get?_insert_of_not
    {α : Type} (m : NameMap α) {names : String → Prop} {name : String} (hname : ¬names name)
    (value : α) (other : String) (hother : names other) :
    m.get? other = (m.insert name value).get? other := by
  have hne : other ≠ name := by
    rintro rfl
    exact hname hother
  rw [get?_insert, if_neg hne]

namespace TemplateSet

/-- A template of the name is invoked in a tree that the tree leads to. -/
def Invokes (set : TemplateSet) (tree : Tree) (name : String) : Prop :=
  ∃ reached span argument, set.LeadsTo tree reached ∧
    reached.Holds (.template span name argument)

/-- A function of the name is called in a tree that the tree leads to. -/
def Calls (set : TemplateSet) (tree : Tree) (name : String) : Prop :=
  ∃ reached span, set.LeadsTo tree reached ∧ reached.Holds (.identifier span name)

end TemplateSet

namespace Environment

/-- Two environments are the same as far as the check of a tree asks.  The package does not
count. -/
structure AlikeFor (tree : Tree) (first second : Environment) : Prop where
  types : first.types = second.types
  maxDepth : first.maxDepth = second.maxDepth
  templates : ∀ name, first.templates.Invokes tree name →
    first.templates.get? name = second.templates.get? name
  functions : ∀ name, first.templates.Calls tree name →
    first.functions.get? name = second.functions.get? name

namespace AlikeFor

variable {first second : Environment} {tree : Tree}

/-- In a tree that the tree leads to the contexts are the same, if the judges are. -/
theorem alikeIn
    (h : AlikeFor tree first second) {reached : Tree}
    (hreached : first.templates.LeadsTo tree reached) {judge other : Judge}
    (hjudge : ∀ name ty, first.templates.Invokes tree name → judge ⟨name, ty⟩ = other ⟨name, ty⟩) :
    (first.context reached judge).AlikeIn reached (second.context reached other) where
  types := h.types
  owner := rfl
  functions span name hholds := h.functions name ⟨reached, span, hreached, hholds⟩
  invoke span name argument ty hholds :=
    hjudge name ty ⟨reached, span, argument, hreached, hholds⟩

theorem call_eq (h : AlikeFor tree first second) (invocation : Invocation) :
    first.call invocation = second.call invocation := by
  simp only [call, activeCall, h.types]

/-- Verdicts on an invocation are the same if the target is, and if walks through it are while
one invocation less may be nested. -/
theorem judge_congr
    (h : AlikeFor tree first second) {budget : Nat} {active : List ActiveCall}
    {invocation : Invocation}
    (htemplates : first.templates.get? invocation.template =
      second.templates.get? invocation.template)
    (hwalk : ∀ target rest, first.templates.get? invocation.template = some target →
      budget = rest + 1 →
      first.walkTree target invocation.argument
          (first.judge rest (active ++ [first.call invocation])) =
        second.walkTree target invocation.argument
          (second.judge rest (active ++ [first.call invocation]))) :
    first.judge budget active invocation = second.judge budget active invocation := by
  cases htarget : first.templates.get? invocation.template with
  | none => rw [judge_of_missing htarget, judge_of_missing (htemplates.symm.trans htarget)]
  | some target =>
      have htarget' := htemplates.symm.trans htarget
      have hcall := h.call_eq invocation
      by_cases hactive : first.call invocation ∈ active
      · rw [judge_of_active htarget hactive, judge_of_active htarget' (hcall ▸ hactive)]
      · cases budget with
        | zero => rw [judge_zero htarget hactive, judge_zero htarget' (hcall ▸ hactive), h.maxDepth]
        | succ rest =>
            rw [judge_succ htarget hactive, judge_succ htarget' (hcall ▸ hactive), ← hcall,
              hwalk target rest htarget rfl]

/-- Invocations of templates that matter get the same verdict. -/
theorem judge_eq
    (h : AlikeFor tree first second) (budget : Nat) (active : List ActiveCall)
    {name : String} (hname : first.templates.Invokes tree name) (ty : Ty) :
    first.judge budget active ⟨name, ty⟩ = second.judge budget active ⟨name, ty⟩ := by
  induction budget generalizing active name ty with
  | zero =>
      refine h.judge_congr (h.templates name hname) ?_
      intro target rest _ hrest
      exact absurd hrest (Nat.succ_ne_zero rest).symm
  | succ budget ih =>
      refine h.judge_congr (h.templates name hname) ?_
      intro target rest htarget hrest
      obtain rfl : budget = rest := Nat.succ.inj hrest
      -- The tree leads to the target, so the names in the target matter as well.
      obtain ⟨reached, span, argument, hreached, inRange, hholds⟩ := hname
      have hleads : first.templates.LeadsTo tree target := .invoked hreached hholds htarget
      exact walkTree_eq_of_alikeIn
        (h.alikeIn hleads fun inner ty hinner => ih _ hinner ty) ty

/-- Environments that are the same as far as the check of a tree asks check it alike. -/
theorem check_eq (h : AlikeFor tree first second) (data : Ty) :
    first.check tree data = second.check tree data := by
  have hcall : first.activeCall tree.name data = second.activeCall tree.name data :=
    h.call_eq ⟨tree.name, data⟩
  rw [check, check, ← hcall, ← h.maxDepth]
  exact walkTree_eq_of_alikeIn
    (h.alikeIn .refl fun name ty hname => h.judge_eq first.maxDepth _ hname ty) data

end AlikeFor

/-- Environments with templates and functions that agree on the names which matter to a tree give
the same result for it, down to the fault.  So one more template or function never changes the
result, if nothing that the tree leads to invokes or calls it. -/
theorem check_eq_of_names_agree
    (env : Environment) (tree : Tree) (data : Ty) :
    (∀ (templates : TemplateSet) (functions : Functions),
      (∀ name, env.templates.Invokes tree name → env.templates.get? name = templates.get? name) →
      (∀ name, env.templates.Calls tree name → env.functions.get? name = functions.get? name) →
      { env with templates, functions }.check tree data = env.check tree data) ∧
    (∀ name extra, ¬env.templates.Invokes tree name →
      { env with templates := env.templates.insert name extra }.check tree data =
        env.check tree data) ∧
    ∀ name signature, ¬env.templates.Calls tree name →
      { env with functions := env.functions.insert name signature }.check tree data =
        env.check tree data := by
  refine ⟨?_, ?_, ?_⟩
  · intro templates functions htemplates hfunctions
    have halike : AlikeFor tree env { env with templates, functions } :=
      ⟨rfl, rfl, htemplates, hfunctions⟩
    exact (halike.check_eq data).symm
  · intro name extra hname
    have halike : AlikeFor tree env { env with templates := env.templates.insert name extra } :=
      ⟨rfl, rfl, NameMap.get?_insert_of_not env.templates hname extra, fun _ _ => rfl⟩
    exact (halike.check_eq data).symm
  · intro name signature hname
    have halike :
        AlikeFor tree env { env with functions := env.functions.insert name signature } :=
      ⟨rfl, rfl, fun _ _ => rfl, NameMap.get?_insert_of_not env.functions hname signature⟩
    exact (halike.check_eq data).symm

/-- Stands for the data. -/
def dataPipe : Pipe Node where
  span := .origin
  declared := []
  commands := [⟨.origin, [.dot .origin]⟩]

/-- Prints the data. -/
def printPipe : Pipe Node where
  span := .origin
  declared := []
  commands := [⟨.origin, [.identifier .origin "print", .dot .origin]⟩]

/-- Invokes a template on its data. -/
def listing : Tree where
  name := "listing"
  parseName := "listing"
  source := ""
  root := ⟨.origin, [.template .origin "row" (some dataPipe)]⟩

/-- A template that prints its data. -/
def printedRow : Tree where
  name := "row"
  parseName := "row"
  source := ""
  root := ⟨.origin, [.action .origin printPipe]⟩

/-- The nodes of both. -/
def listingNodes : List Node :=
  [.body listing.root, .template .origin "row" (some dataPipe), .pipe dataPipe,
    .command ⟨.origin, [.dot .origin]⟩, .dot .origin, .body printedRow.root,
    .action .origin printPipe, .pipe printPipe,
    .command ⟨.origin, [.identifier .origin "print", .dot .origin]⟩, .identifier .origin "print"]

/-- The environment of that template. -/
def listingEnvironment : Environment where
  types := ⟨[]⟩
  templates := TemplateSet.put .empty printedRow

theorem listing_leadsTo
    {reached : Tree} (h : listingEnvironment.templates.LeadsTo listing reached) :
    reached = listing ∨ reached = printedRow := by
  cases h with
  | refl => exact .inl rfl
  | @invoked _ _ _ _ name _ _ _ htarget =>
      right
      change (NameMap.empty.insert "row" printedRow).get? name = some reached at htarget
      rw [NameMap.get?_insert] at htarget
      split at htarget
      · exact (Option.some.inj htarget).symm
      · cases htarget

theorem listing_holds
    {reached : Tree} {node : Node}
    (hreached : listingEnvironment.templates.LeadsTo listing reached) (h : reached.Holds node) :
    node ∈ listingNodes := by
  obtain ⟨inRange, hholds⟩ := h
  have hroot : Node.body reached.root ∈ listingNodes := by
    rcases listing_leadsTo hreached with rfl | rfl <;> simp [listingNodes]
  refine hholds.mem_of_closed hroot ?_
  simp [listingNodes, Node.parts, listing, printedRow, dataPipe, printPipe]

theorem listing_invokes
    {name : String} (h : listingEnvironment.templates.Invokes listing name) : name = "row" := by
  obtain ⟨reached, span, argument, hreached, hholds⟩ := h
  have hmem := listing_holds hreached hholds
  simp_all [listingNodes]

theorem listing_calls
    {name : String} (h : listingEnvironment.templates.Calls listing name) : name = "print" := by
  obtain ⟨reached, span, hreached, hholds⟩ := h
  have hmem := listing_holds hreached hholds
  simp_all [listingNodes]

/-- A template that invokes one which is missing. -/
def strandedRow : Tree where
  name := "old"
  parseName := "old"
  source := ""
  root := ⟨.origin, [.template .origin "gone" none]⟩

/-- A template that is itself at fault and a function do not matter to the listing, which names
neither of them. -/
theorem check_eq_of_names_agree_listing :
    listingEnvironment.check listing (.basic .int) = .ok none ∧
    ¬listingEnvironment.templates.Invokes listing "old" ∧
    ¬listingEnvironment.templates.Calls listing "title" ∧
    ∀ signature,
      { listingEnvironment with
        templates := listingEnvironment.templates.insert "old" strandedRow }.check listing
          (.basic .int) = .ok none ∧
      { listingEnvironment with
        functions := listingEnvironment.functions.insert "title" signature }.check listing
          (.basic .int) = .ok none ∧
      { listingEnvironment with
        templates := listingEnvironment.templates.insert "old" strandedRow
        functions := listingEnvironment.functions.insert "title" signature }.check listing
          (.basic .int) = .ok none := by
  have hcheck : listingEnvironment.check listing (.basic .int) = .ok none := rfl
  have htemplate : ¬listingEnvironment.templates.Invokes listing "old" := by
    intro h
    exact absurd (listing_invokes h) (by decide)
  have hfunction : ¬listingEnvironment.templates.Calls listing "title" := by
    intro h
    exact absurd (listing_calls h) (by decide)
  obtain ⟨hboth, hinserted, hregistered⟩ :=
    check_eq_of_names_agree listingEnvironment listing (.basic .int)
  refine ⟨hcheck, htemplate, hfunction, fun signature => ⟨?_, ?_, ?_⟩⟩
  · exact (hinserted "old" strandedRow htemplate).trans hcheck
  · exact (hregistered "title" signature hfunction).trans hcheck
  · exact (hboth _ _ (NameMap.get?_insert_of_not _ htemplate strandedRow)
      (NameMap.get?_insert_of_not _ hfunction signature)).trans hcheck

end Environment

/-! ## The package -/

/-- What follows a value of the type is the name of a field or of a method.  After a map it is a
key, and after a function there is nothing. -/
def Universe.HasMembers (u : Universe) (ty : Ty) : Prop :=
  (∀ key elem, u.underlying ty ≠ .map key elem) ∧ ∀ signature, u.underlying ty ≠ .func signature

/-- What a field or method stands for in a path. -/
def Member.resolution : Member → Resolution
  | field ty => .value ty
  | method signature => .method signature

namespace Context

variable (ctx : Context) {receiver current : Ty} {name : String}
  (htarget : ctx.types.target receiver = .ok current) (hmembers : ctx.types.HasMembers current)
include htarget hmembers

theorem resolve_of_hasMembers :
    ctx.types.resolve ctx.package receiver name =
      ctx.types.resolveMember ctx.package current name := by
  simp only [Universe.resolve, htarget, bind, Except.bind]
  split
  · exact absurd ‹_› (hmembers.2 _)
  · exact absurd ‹_› (hmembers.1 _ _)
  · rfl

/-- Members whose names are not exported are refused. -/
theorem pathStep_of_unexported
    (hname : isExported name = false) (node : Node) (args : Arguments) :
    ctx.pathStep node args receiver name =
      ctx.fail node (.unexported name (ctx.types.describe current)) := by
  rw [pathStep_eq, ctx.resolve_of_hasMembers htarget hmembers, Universe.resolveMember,
    if_neg (Bool.eq_false_iff.mp hname)]
  rfl

/-- Exported names lead to the members that they mean. -/
theorem pathStep_of_member?
    (hname : isExported name = true) {member : Member}
    (hmember : ctx.types.member? current ⟨name, ctx.package⟩ = some member)
    (node : Node) (args : Arguments) :
    ctx.pathStep node args receiver name =
      ctx.applyResolution node args name member.resolution := by
  rw [pathStep_eq, ctx.resolve_of_hasMembers htarget hmembers, Universe.resolveMember,
    if_pos hname, hmember]
  cases member <;> rfl

end Context

namespace Environment

/-- The environment for checks from a package. -/
def within (env : Environment) (package : Option String) : Environment :=
  { env with package }

theorem alikeFor_within
    (env : Environment) (package package' : Option String) (tree : Tree) :
    AlikeFor tree (env.within package) (env.within package') :=
  ⟨rfl, rfl, fun _ _ => rfl, fun _ _ => rfl⟩

/-- The package that a check is made from has no influence on its result.  A field or method
whose name is not exported is refused from every package, and an exported one that is found from
some package is what a path leads to from every package. -/
theorem check_within
    (env : Environment) (package package' : Option String) :
    (∀ tree data, (env.within package).check tree data = (env.within package').check tree data) ∧
    ∀ receiver current name, env.types.target receiver = .ok current →
      env.types.HasMembers current →
      ∀ (tree : Tree) (judge : Judge) (node : Node) (args : Arguments),
        (isExported name = false →
          ((env.within package).context tree judge).pathStep node args receiver name =
            ((env.within package).context tree judge).fail node
              (.unexported name (env.types.describe current))) ∧
        ∀ member, isExported name = true →
          env.types.member? current ⟨name, package'⟩ = some member →
          ((env.within package).context tree judge).pathStep node args receiver name =
            ((env.within package).context tree judge).applyResolution node args name
              member.resolution := by
  constructor
  · intro tree data
    exact (env.alikeFor_within package package' tree).check_eq data
  · intro receiver current name htarget hmembers tree judge node args
    constructor
    · intro hname
      exact ((env.within package).context tree judge).pathStep_of_unexported htarget hmembers
        hname node args
    · intro member hname hmember
      have hfound : env.types.member? current ⟨name, package⟩ = some member :=
        (env.types.member?_package hname package package' current).trans hmember
      exact ((env.within package).context tree judge).pathStep_of_member? htarget hmembers
        hname hfound node args

/-- An account of the package `bank`. -/
def account : Ty :=
  .struct (some "bank") [⟨"Owner", .basic .string, false⟩, ⟨"balance", .basic .int, false⟩]

/-- The environment without named types and templates. -/
def plainEnvironment : Environment := { types := ⟨[]⟩, templates := .empty }

/-- A field that is not exported is refused in the package of its struct as well, and one that is
exported is found in every other package. -/
theorem check_within_account :
    (∃ set page, TemplateSet.parse .standard "page" "\x7b\x7b.balance\x7d\x7d" = .ok set ∧
      set.get? "page" = some page ∧
      ∃ error, (plainEnvironment.within (some "bank")).check page account = .error error ∧
        (plainEnvironment.within none).check page account = .error error ∧
        error.cause = .unexported "balance" (plainEnvironment.types.describe account)) ∧
    ∀ (tree : Tree) (judge : Judge) (node : Node),
      ((plainEnvironment.within (some "bank")).context tree judge).pathStep node .none
          account "balance" =
        ((plainEnvironment.within (some "bank")).context tree judge).fail node
          (.unexported "balance" (plainEnvironment.types.describe account)) ∧
      ((plainEnvironment.within (some "shop")).context tree judge).pathStep node .none
        account "Owner" = pure (.basic .string) := by
  have hruns : (TemplateSet.parse .standard "page" "\x7b\x7b.balance\x7d\x7d").toOption.any
      (fun set => (set.get? "page").any fun page =>
        (fault? ((plainEnvironment.within (some "bank")).check page account)).any
          (·.cause == .unexported "balance" (plainEnvironment.types.describe account))) =
        true := by
    decide +kernel
  obtain ⟨set, hset, hruns⟩ := (Option.any_eq_true _ _).mp hruns
  obtain ⟨page, hpage, hruns⟩ := (Option.any_eq_true _ _).mp hruns
  obtain ⟨error, herror, hcause⟩ := (Option.any_eq_true _ _).mp hruns
  have herror := eq_error_of_fault? herror
  have hmembers : plainEnvironment.types.HasMembers account :=
    ⟨fun _ _ => Ty.noConfusion, fun _ => Ty.noConfusion⟩
  have hmember : plainEnvironment.types.member? account ⟨"Owner", some "bank"⟩ =
      some (.field (.basic .string)) := by
    rw [Universe.member?, Universe.findMember, Universe.search]
    rfl
  obtain ⟨hcheck, hbank⟩ := check_within plainEnvironment (some "bank") none
  obtain ⟨-, hshop⟩ := check_within plainEnvironment (some "shop") (some "bank")
  refine ⟨⟨set, page, Except.eq_ok_of_toOption hset, hpage, error, herror,
    (hcheck page account).symm.trans herror, eq_of_beq hcause⟩, fun tree judge node => ⟨?_, ?_⟩⟩
  · exact (hbank account account "balance" rfl hmembers tree judge node .none).1
      (by decide +kernel)
  · exact (hshop account account "Owner" rfl hmembers tree judge node .none).2 _
      (by decide +kernel) hmember

end Environment

end TemplateTyping
