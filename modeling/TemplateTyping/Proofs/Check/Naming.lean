import TemplateTyping.Proofs.Check.Recursion
import TemplateTyping.Proofs.Host.Renaming

/-!
# Names of named types in a check

Faults describe types, and descriptions hold the names of named types.  This
module compares the check of a tree with the check after other names have been
given to the named types.  Every verdict stays the same up to the descriptions in
its fault.  There is one place where a description steers a check: a call counts
as active if an active call of the same template has an argument of the same
description.  So the check stays the same as long as the other names neither
join nor part the calls that it encounters, and it can change if they do.
-/

namespace TemplateTyping

/-! ## Faults without descriptions -/

/-- The fault without the descriptions of types in it. -/
def Cause.withoutTypes : Cause → Cause
  | .fieldNotFound name _ => .fieldNotFound name ""
  | .mapKeyNotInteger key _ => .mapKeyNotInteger key ""
  | .unexported name _ => .unexported name ""
  | .secondResultNotError name _ => .secondResultNotError name ""
  | .argumentMismatch name index _ _ => .argumentMismatch name index "" ""
  | .cannotRange _ => .cannotRange ""
  | .rangeVariables _ => .rangeVariables ""
  | .cannotIndex _ => .cannotIndex ""
  | .cannotSlice _ => .cannotSlice ""
  | .invalidLen _ => .invalidLen ""
  | .endlessPointer _ => .endlessPointer ""
  | .chainUnsupported _ => .chainUnsupported ""
  | .callNonFunction node _ => .callNonFunction node ""
  | cause => cause

/-- The fault at its node without the descriptions of types in it. -/
def TypeError.withoutTypes (error : TypeError) : TypeError :=
  { error with cause := error.cause.withoutTypes }

/-- The refusal without the descriptions of types in it. -/
def Refusal.withoutTypes : Refusal → Refusal
  | .here cause => .here cause.withoutTypes
  | .inside error => .inside error.withoutTypes

theorem Refusal.errorAt_withoutTypes
    (tree : Tree) (node : Node) (refusal : Refusal) :
    (refusal.errorAt tree node).withoutTypes =
      refusal.withoutTypes.errorAt tree node := by
  cases refusal with
  | here cause => rfl
  | inside error => rfl

/-- Two outcomes differ only in what is forgotten of their faults. -/
def AlikeUpTo {ε α : Type} (forget : ε → ε) (first second : Except ε α) : Prop :=
  first.mapError forget = second.mapError forget

namespace AlikeUpTo

variable {ε α β : Type} {forget : ε → ε}

theorem refl (outcome : Except ε α) : AlikeUpTo forget outcome outcome :=
  rfl

theorem trans
    {first second third : Except ε α} (h : AlikeUpTo forget first second)
    (h' : AlikeUpTo forget second third) : AlikeUpTo forget first third :=
  Eq.trans h h'

theorem error {first second : ε} (h : forget first = forget second) :
    AlikeUpTo (α := α) forget (.error first) (.error second) :=
  congrArg Except.error h

theorem bind
    {first second : Except ε α} (h : AlikeUpTo forget first second)
    {f g : α → Except ε β} (hnext : ∀ value, AlikeUpTo forget (f value) (g value)) :
    AlikeUpTo forget (first >>= f) (second >>= g) := by
  cases first with
  | error error =>
      cases second with
      | error other => exact congrArg Except.error (Except.error.inj h)
      | ok other => cases h
  | ok value =>
      cases second with
      | error other => cases h
      | ok other =>
          obtain rfl : value = other := Except.ok.inj h
          exact hnext value

theorem ite
    {c : Prop} [Decidable c] {first second first' second' : Except ε α}
    (hthen : AlikeUpTo forget first second)
    (helse : AlikeUpTo forget first' second') :
    AlikeUpTo forget (if c then first else first')
      (if c then second else second') := by
  by_cases hc : c
  · rw [if_pos hc, if_pos hc]
    exact hthen
  · rw [if_neg hc, if_neg hc]
    exact helse

end AlikeUpTo

/-! ## Verdicts on types -/

namespace Universe

variable (u : Universe) (names : Nat → String)

theorem target_rename (ty : Ty) :
    AlikeUpTo Cause.withoutTypes ((u.rename names).target ty) (u.target ty) := by
  simp only [target, pointerTarget?_rename]
  cases u.pointerTarget? ty with
  | none => exact .error rfl
  | some target => exact .refl _

theorem expectInteger_rename (name : String) (position : Nat) (index : Ty) :
    AlikeUpTo Cause.withoutTypes
      ((u.rename names).expectInteger name position index)
      (u.expectInteger name position index) := by
  simp only [expectInteger, isInteger_rename]
  exact .ite (.refl _) (.error rfl)

theorem checkResults_rename (name : String) (signature : Signature Ty) :
    AlikeUpTo Cause.withoutTypes ((u.rename names).checkResults name signature)
      (u.checkResults name signature) := by
  simp only [checkResults, isErrorLike_rename]
  split
  · exact .refl _
  · exact .ite (.refl _) (.error rfl)
  · exact .refl _

theorem checkEach_rename
    (name : String) (params : Parameters) (index : Nat) (args : List Ty) :
    AlikeUpTo Cause.withoutTypes
      ((u.rename names).checkEach name params index args)
      (u.checkEach name params index args) := by
  induction args generalizing index with
  | nil => exact .refl _
  | cons arg args ih =>
      simp only [checkEach, passable_rename]
      cases params.at? index with
      | none => exact ih (index + 1)
      | some param => exact .ite (ih (index + 1)) (.error rfl)

theorem checkArguments_rename
    (name : String) (signature : Signature Ty) (args : List Ty) :
    AlikeUpTo Cause.withoutTypes
      ((u.rename names).checkArguments name signature args)
      (u.checkArguments name signature args) := by
  simp only [checkArguments, parameters_rename]
  refine (u.checkResults_rename names name signature).bind fun result => ?_
  refine (AlikeUpTo.refl (checkCount name _ _)).bind fun _ => ?_
  refine (u.checkEach_rename names name _ 0 args).bind fun _ => ?_
  exact .refl _

theorem iteration_rename (source : Ty) (vars : Nat) :
    AlikeUpTo Cause.withoutTypes ((u.rename names).iteration source vars)
      (u.iteration source vars) := by
  have hsingle : ∀ elem : Ty, AlikeUpTo Cause.withoutTypes
      (if 1 < vars then .error (.rangeVariables ((u.rename names).describe source))
        else .ok (⟨none, elem⟩ : Iteration))
      (if 1 < vars then .error (.rangeVariables (u.describe source))
        else .ok ⟨none, elem⟩) := by
    intro elem
    exact .ite (.error rfl) (.refl _)
  simp only [iteration, underlying_rename, yielded?_rename]
  refine (u.target_rename names source).bind fun item => ?_
  cases u.underlying item with
  | slice elem => exact .refl _
  | array size elem => exact .refl _
  | map key elem => exact .refl _
  | chan elem => exact hsingle elem
  | basic kind => exact .ite (hsingle _) (.error rfl)
  | func signature =>
      simp only
      split
      · exact hsingle _
      · exact .refl _
      · exact .error rfl
  | _ => exact .error rfl

end Universe

/-! ## Built-in functions -/

namespace Builtin

variable (u : Universe) (names : Nat → String)

theorem checkLen_rename (item : Ty) :
    AlikeUpTo Cause.withoutTypes (checkLen (u.rename names) item)
      (checkLen u item) := by
  simp only [checkLen, Universe.underlying_rename]
  refine (u.target_rename names item).bind fun receiver => ?_
  cases u.underlying receiver with
  | array size elem => exact .refl _
  | slice elem => exact .refl _
  | map key elem => exact .refl _
  | chan elem => exact .refl _
  | basic kind => exact .ite (.refl _) (.error rfl)
  | _ => exact .error rfl

theorem sliceResult_rename (item : Ty) (count : Nat) :
    AlikeUpTo Cause.withoutTypes (sliceResult (u.rename names) item count)
      (sliceResult u item count) := by
  simp only [sliceResult, Universe.underlying_rename]
  refine (u.target_rename names item).bind fun receiver => ?_
  cases u.underlying receiver with
  | slice elem => exact .refl _
  | array size elem => exact .refl _
  | basic kind => exact .ite (.refl _) (.error rfl)
  | _ => exact .error rfl

theorem checkBounds_rename
    (operands : List Node) (position : Nat) (bounds : List Ty) :
    AlikeUpTo Cause.withoutTypes
      (checkBounds (u.rename names) operands position bounds)
      (checkBounds u operands position bounds) := by
  induction bounds generalizing position with
  | nil => exact .refl _
  | cons bound bounds ih =>
      simp only [checkBounds]
      refine (u.expectInteger_rename names _ position bound).bind fun _ => ?_
      cases operands[position]?.bind negative? with
      | none => exact ih (position + 1)
      | some n => exact .refl _

theorem checkIndexes_rename (position : Nat) (item : Ty) (places : List Ty) :
    AlikeUpTo Cause.withoutTypes
      (checkIndexes (u.rename names) position item places)
      (checkIndexes u position item places) := by
  induction places generalizing position item with
  | nil => exact .refl _
  | cons place places ih =>
      simp only [checkIndexes, Universe.underlying_rename,
        Universe.assignable_rename]
      refine (u.target_rename names item).bind fun receiver => ?_
      have hplace := u.expectInteger_rename names "index" position place
      cases u.underlying receiver with
      | slice elem => exact hplace.bind fun _ => ih (position + 1) elem
      | array size elem => exact hplace.bind fun _ => ih (position + 1) elem
      | map key elem => exact .ite (ih (position + 1) elem) (.error rfl)
      | basic kind =>
          exact .ite (hplace.bind fun _ => ih (position + 1) _) (.error rfl)
      | _ => exact .error rfl

theorem checkCallee_rename
    (operands : List Node) (callee : Ty) (args : List Ty) :
    AlikeUpTo Cause.withoutTypes
      (checkCallee (u.rename names) operands callee args)
      (checkCallee u operands callee args) := by
  simp only [checkCallee, Universe.underlying_rename]
  cases u.underlying callee with
  | func signature => exact u.checkArguments_rename names _ signature args
  | _ => exact .error rfl

theorem check_rename
    (name : String) (builtin : Builtin) (operands : List Node) (args : List Ty) :
    AlikeUpTo Cause.withoutTypes
      (builtin.check (u.rename names) name operands args)
      (builtin.check u name operands args) := by
  simp only [check]
  refine (AlikeUpTo.refl (checkCount name builtin _)).bind fun _ => ?_
  split
  · exact checkLen_rename u names _
  · refine (sliceResult_rename u names _ _).bind fun result => ?_
    exact (checkBounds_rename u names operands 1 _).bind fun _ => .refl _
  · exact .refl _
  · exact checkCallee_rename u names operands _ _
  · exact checkIndexes_rename u names 1 _ _
  · exact .refl _
  · exact .refl _

end Builtin

namespace Universe

variable (u : Universe) (names : Nat → String)

theorem checkCall_rename
    (functions : Functions) (name : String) (operands : List Node)
    (args : List Ty) :
    AlikeUpTo Cause.withoutTypes
      ((u.rename names).checkCall functions name operands args)
      (u.checkCall functions name operands args) := by
  simp only [checkCall]
  split
  · exact u.checkArguments_rename names name _ args
  · split
    · exact Builtin.check_rename u names name _ operands args
    · exact .refl _

/-! ## Names in paths -/

theorem checkKey_rename (mapType key : Ty) (name : String) :
    AlikeUpTo Cause.withoutTypes
      (Context.checkKey (u.rename names) mapType key name)
      (Context.checkKey u mapType key name) := by
  simp only [Context.checkKey, isInteger_rename, assignable_rename]
  refine .ite ?_ ?_
  · exact .ite (.refl _) (.error rfl)
  · exact .ite (.refl _) (.error rfl)

theorem resolveMember_rename
    (package : Option String) (current : Ty) (name : String) :
    AlikeUpTo Cause.withoutTypes
      ((u.rename names).resolveMember package current name)
      (u.resolveMember package current name) := by
  simp only [resolveMember, member?_rename]
  refine .ite ?_ (.error rfl)
  split
  · exact .error rfl
  · exact .refl _
  · exact .refl _

theorem resolve_rename
    (package : Option String) (receiver : Ty) (name : String) :
    AlikeUpTo Cause.withoutTypes
      ((u.rename names).resolve package receiver name)
      (u.resolve package receiver name) := by
  simp only [resolve, underlying_rename]
  refine (u.target_rename names receiver).bind fun current => ?_
  cases u.underlying current with
  | func signature => exact .error rfl
  | map key elem =>
      exact (u.checkKey_rename names current key name).bind fun _ => .refl _
  | _ => exact u.resolveMember_rename names package current name

end Universe

/-! ## Walks -/

namespace AlikeUpTo

theorem isolated {α : Type}
    {first second : Checker α} {scope : Scope}
    (h : AlikeUpTo TypeError.withoutTypes (first scope) (second scope)) :
    AlikeUpTo TypeError.withoutTypes (Checker.isolated first scope)
      (Checker.isolated second scope) := by
  have hisolated : ∀ check : Checker α, Checker.isolated check scope =
      check scope >>= fun result => .ok (result.1, scope) := by
    intro check
    rw [Checker.isolated]
    cases check scope with
    | error error => rfl
    | ok result => rfl
  rw [hisolated, hisolated]
  exact h.bind fun result => .refl _

theorem located {α : Type}
    {first second : Except Cause α} (h : AlikeUpTo Cause.withoutTypes first second)
    {ctx ctx' : Context} (htree : ctx.tree = ctx'.tree)
    (node : Node) (scope : Scope) :
    AlikeUpTo TypeError.withoutTypes (ctx.located node first scope)
      (ctx'.located node second scope) := by
  cases first with
  | error cause =>
      cases second with
      | error other =>
          apply AlikeUpTo.error
          rw [TypeError.withoutTypes, TypeError.withoutTypes, htree,
            Except.error.inj h]
      | ok other => cases h
  | ok value =>
      cases second with
      | error other => cases h
      | ok other =>
          obtain rfl : value = other := Except.ok.inj h
          exact .refl _

/-- The verdicts on an invocation are alike if the walks through its target are. -/
theorem verdictOf
    {first second : Except TypeError (Option Ty)}
    (h : AlikeUpTo TypeError.withoutTypes first second) :
    AlikeUpTo Refusal.withoutTypes (Environment.verdictOf first)
      (Environment.verdictOf second) := by
  cases first with
  | error error =>
      cases second with
      | error other =>
          exact .error (congrArg Refusal.inside (Except.error.inj h))
      | ok other => cases h
  | ok value =>
      cases second with
      | error other => cases h
      | ok other => exact .refl _

end AlikeUpTo

/-- Being alike up to the descriptions in faults, as a property of the walks with
and without other names. -/
def namingProperty : WalkProperty Bool where
  good _ := True
  reached _ := True
  agree verdict := AlikeUpTo Cause.withoutTypes (verdict true) (verdict false)
  holds check := ∀ scope,
    AlikeUpTo TypeError.withoutTypes (check true scope) (check false scope)
  basic _ := trivial
  part _ _ := trivial
  accept _ := .refl _
  refuse _ := .refl _
  pure _ _ := .refl _
  bind hfirst hnext scope := (hfirst scope).bind fun result =>
    hnext result.1 (fun _ _ => trivial) result.2
  isolated hcheck scope := (hcheck scope).isolated

/-- A context, or the same with other names for the named types. -/
def Context.renamed (ctx : Context) (names : Nat → String) : Bool → Context
  | true => { ctx with types := ctx.types.rename names }
  | false => ctx

theorem namingProperty_respected (ctx : Context) (names : Nat → String) :
    namingProperty.Respected (ctx.renamed names) where
  located _ h scope := AlikeUpTo.located h rfl _ scope
  variableType _ _ := .refl _
  setVariable _ _ _ _ := .refl _
  invocation _ _ _ := .refl _
  resolve name _ := ctx.types.resolve_rename names ctx.package _ name
  arguments name types _ := ctx.types.checkArguments_rename names name _ types
  call operands _ _ :=
    ctx.types.checkCall_rename names ctx.functions _ operands _
  iteration vars _ := ctx.types.iteration_rename names _ vars
  rangeVariables _ := .error rfl
  concrete _ scope := by
    simp only [Context.renamed, Universe.concrete_rename]
    exact .refl _

namespace Plan

variable {α : Type} {tree : Tree}

theorem follow_withoutTypes
    (judge : Judge) (ending : Except TypeError α)
    (met : List (Node × Invocation)) :
    (follow tree judge ending met).mapError TypeError.withoutTypes =
      follow tree (fun invocation => (judge invocation).mapError Refusal.withoutTypes)
        (ending.mapError TypeError.withoutTypes) met := by
  induction met with
  | nil => rfl
  | cons call met ih =>
      rw [follow, follow]
      cases judge call.2 with
      | error refusal =>
          exact congrArg Except.error (refusal.errorAt_withoutTypes tree call.1)
      | ok accepted => exact ih

/-- Verdicts that are alike where they matter have alike outcomes. -/
theorem outcome_alike
    {plan : Plan α} {judge other : Judge}
    (h : ∀ invocation, plan.Reaches judge invocation →
      AlikeUpTo Refusal.withoutTypes (other invocation) (judge invocation)) :
    AlikeUpTo TypeError.withoutTypes (plan.outcome tree other)
      (plan.outcome tree judge) := by
  let forgotten : Plan α :=
    ⟨plan.met, plan.ending.mapError TypeError.withoutTypes⟩
  rw [AlikeUpTo, outcome, outcome, follow_withoutTypes, follow_withoutTypes]
  -- Without the descriptions the verdicts are equal, not only alike.
  change forgotten.outcome tree _ = forgotten.outcome tree _
  apply outcome_congr
  rintro invocation ⟨before, node, after, hmet, hbefore⟩
  refine h invocation ⟨before, node, after, hmet, ?_⟩
  intro call hcall
  have haccepted := hbefore call hcall
  cases hjudge : judge call.2 with
  | error refusal => simp [hjudge, Except.mapError] at haccepted
  | ok accepted => rfl

end Plan

/-! ## Checks -/

namespace Environment

/-- The environment with other names for its named types. -/
def rename (env : Environment) (names : Nat → String) : Environment :=
  { env with types := env.types.rename names }

/-- The walk through a tree stays the same if the verdicts on invocations do. -/
theorem walkTree_rename
    (env : Environment) (names : Nat → String) (tree : Tree) (data : Ty)
    (judge : Judge) :
    AlikeUpTo TypeError.withoutTypes
      ((env.rename names).walkTree tree data judge)
      (env.walkTree tree data judge) := by
  have hbody : namingProperty.holds fun renamed =>
      ((env.context tree judge).renamed names renamed).walkBody data tree.root :=
    (namingProperty_respected (env.context tree judge) names).walkBody trivial tree.root trivial
  exact (hbody (Scope.root data)).bind fun result => .refl (.ok result.1)

/-- The walk through a tree stays the same if the verdicts on what it meets are
alike. -/
theorem walkTree_rename_of_alike
    {env : Environment} {names : Nat → String} {tree : Tree} {data : Ty}
    {judge other : Judge}
    (h : ∀ invocation, env.Meets tree data judge invocation →
      AlikeUpTo Refusal.withoutTypes (other invocation) (judge invocation)) :
    AlikeUpTo TypeError.withoutTypes
      ((env.rename names).walkTree tree data other)
      (env.walkTree tree data judge) := by
  have hnames := env.walkTree_rename names tree data other
  have hverdicts : AlikeUpTo TypeError.withoutTypes
      (env.walkTree tree data other) (env.walkTree tree data judge) := by
    obtain ⟨plan, hplan⟩ := env.exists_plan tree data
    rw [hplan, hplan]
    apply Plan.outcome_alike
    intro invocation hreach
    exact h invocation ((meets_iff_reaches hplan).mpr hreach)
  exact hnames.trans hverdicts

/-- The other names neither join nor part the calls that a check encounters. -/
def KeepsCalls (env : Environment) (names : Nat → String) (tree : Tree)
    (data : Ty) : Prop :=
  ∀ first second,
    env.Encounters tree data first → env.Encounters tree data second →
      ((env.rename names).call first = (env.rename names).call second ↔
        env.call first = env.call second)

section KeepsCalls

variable {env : Environment} {names : Nat → String} {tree : Tree} {data : Ty}

/-- What a walk meets is active with the other names if it is active. -/
theorem Visits.active_rename
    (hcalls : env.KeepsCalls names tree data)
    {budget : Nat} {stack : List Invocation} {walked : Tree} {argument : Ty}
    (hvisit : env.Visits tree data budget stack walked argument)
    {invocation : Invocation}
    (hmeets : env.Meets walked argument
      (env.judge budget (stack.map env.call)) invocation) :
    (env.rename names).call invocation ∈ stack.map (env.rename names).call ↔
      env.call invocation ∈ stack.map env.call := by
  rw [List.mem_map, List.mem_map]
  constructor
  · rintro ⟨earlier, hearlier, hcall⟩
    refine ⟨earlier, hearlier, ?_⟩
    exact (hcalls _ _ (hvisit.encounters hearlier) (.met hvisit hmeets)).mp hcall
  · rintro ⟨earlier, hearlier, hcall⟩
    refine ⟨earlier, hearlier, ?_⟩
    exact (hcalls _ _ (hvisit.encounters hearlier) (.met hvisit hmeets)).mpr hcall

/-- The verdict on what a walk meets stays the same if the walk through its
target does. -/
theorem Visits.judge_rename
    (hcalls : env.KeepsCalls names tree data)
    {budget : Nat} {stack : List Invocation} {walked : Tree} {argument : Ty}
    (hvisit : env.Visits tree data budget stack walked argument)
    {invocation : Invocation}
    (hmeets : env.Meets walked argument
      (env.judge budget (stack.map env.call)) invocation)
    (hinner : ∀ rest target, budget = rest + 1 →
      env.Visits tree data rest (stack ++ [invocation]) target
        invocation.argument →
      AlikeUpTo TypeError.withoutTypes
        ((env.rename names).walkTree target invocation.argument
          ((env.rename names).judge rest
            ((stack ++ [invocation]).map (env.rename names).call)))
        (env.walkTree target invocation.argument
          (env.judge rest ((stack ++ [invocation]).map env.call)))) :
    AlikeUpTo Refusal.withoutTypes
      ((env.rename names).judge budget (stack.map (env.rename names).call)
        invocation)
      (env.judge budget (stack.map env.call) invocation) := by
  -- The names matter at one place only: whether the call is active.
  have hactive := hvisit.active_rename hcalls hmeets
  cases htarget : env.templates.get? invocation.template with
  | none =>
      rw [judge_of_missing htarget, judge_of_missing]
      · exact .refl _
      · exact htarget
  | some target =>
      have htarget' : (env.rename names).templates.get? invocation.template =
          some target := htarget
      by_cases hold : env.call invocation ∈ stack.map env.call
      · rw [judge_of_active htarget hold,
          judge_of_active htarget' (hactive.mpr hold)]
        exact .refl _
      · have hnew := mt hactive.mp hold
        cases budget with
        | zero =>
            rw [judge_zero htarget hold, judge_zero htarget' hnew]
            exact .refl _
        | succ rest =>
            have hwalk := hinner rest target rfl
              (.invoked hvisit hmeets htarget hold)
            rw [List.map_append, List.map_append] at hwalk
            rw [judge_succ htarget hold, judge_succ htarget' hnew]
            exact hwalk.verdictOf

/-- The walks of a check stay the same. -/
theorem Visits.walkTree_rename
    (hcalls : env.KeepsCalls names tree data)
    {budget : Nat} {stack : List Invocation} {walked : Tree} {argument : Ty}
    (hvisit : env.Visits tree data budget stack walked argument) :
    AlikeUpTo TypeError.withoutTypes
      ((env.rename names).walkTree walked argument
        ((env.rename names).judge budget (stack.map (env.rename names).call)))
      (env.walkTree walked argument (env.judge budget (stack.map env.call))) := by
  induction budget generalizing stack walked argument with
  | zero =>
      apply walkTree_rename_of_alike
      intro invocation hmeets
      apply hvisit.judge_rename hcalls hmeets
      intro rest target hbudget
      cases hbudget
  | succ budget ih =>
      apply walkTree_rename_of_alike
      intro invocation hmeets
      apply hvisit.judge_rename hcalls hmeets
      intro rest target hbudget hinner
      obtain rfl : budget = rest := Nat.succ.inj hbudget
      exact ih hinner

end KeepsCalls

/-- Names of named types do not matter to a check, except that they decide which
calls count as the same: other names that neither join nor part the calls which
the check encounters change nothing but the descriptions of types in a fault. -/
theorem check_rename_of_keepsCalls
    (env : Environment) (names : Nat → String) (tree : Tree) (data : Ty)
    (hcalls : env.KeepsCalls names tree data) :
    ((env.rename names).check tree data).mapError TypeError.withoutTypes =
      (env.check tree data).mapError TypeError.withoutTypes :=
  Visits.entry.walkTree_rename hcalls

/-! ## Shelves of books -/

/-- The type of shelves, which are lists of books. -/
def shelf : Ty := .named (.declared 0)

/-- The type of books, which are structs without fields. -/
def book : Ty := .named (.declared 1)

/-- A template for the elements of its data, and shelves and books under the
given names. -/
def library (shelfName bookName : String) : Environment where
  types := ⟨[{ name := shelfName, definition := some ⟨.slice book, []⟩ },
    { name := bookName, definition := some ⟨.emptyStruct, []⟩ }]⟩
  templates := TemplateSet.put .empty (eachElement "page" "page")

theorem library_encounters
    {shelfName bookName : String} {invocation : Invocation}
    (hencounters : (library shelfName bookName).Encounters
      (eachElement "page" "page") shelf invocation) :
    invocation = ⟨"page", shelf⟩ ∨ invocation = ⟨"page", book⟩ := by
  refine eachElement_encounters rfl ?_ hencounters
  intro argument hargument judge invocation hmet
  apply eq_of_meets ?_ hmet
  intro judge
  rcases hargument with rfl | rfl
  · rfl
  · rfl

/-- With the names of shelves and books apart before and after, the check finds
the same fault: a book has no elements. -/
theorem check_rename_of_keepsCalls_library :
    (library "Shelf" "Book").KeepsCalls (["Case", "Volume"].getD · "")
        (eachElement "page" "page") shelf ∧
      (((library "Shelf" "Book").rename (["Case", "Volume"].getD · "")).check
          (eachElement "page" "page") shelf).mapError TypeError.withoutTypes =
        ((library "Shelf" "Book").check
          (eachElement "page" "page") shelf).mapError TypeError.withoutTypes ∧
      ∃ error, (library "Shelf" "Book").check (eachElement "page" "page") shelf =
        .error error ∧ error.cause = .cannotRange "Book" := by
  have hcalls : (library "Shelf" "Book").KeepsCalls
      (["Case", "Volume"].getD · "") (eachElement "page" "page") shelf := by
    intro first second hfirst hsecond
    rcases library_encounters hfirst with rfl | rfl
    · rcases library_encounters hsecond with rfl | rfl
      · decide
      · decide
    · rcases library_encounters hsecond with rfl | rfl
      · decide
      · decide
  exact ⟨hcalls, check_rename_of_keepsCalls _ _ _ _ hcalls, _, rfl, rfl⟩

/-- If shelves and books have one name, a page of books counts as the page of
shelves that is active already, and a fault goes unseen that the check finds as
soon as books have a name of their own. -/
theorem library_check_rename :
    (library "T" "T").check (eachElement "page" "page") shelf = .ok none ∧
      ∃ error, ((library "T" "T").rename (["T", "U"].getD · "")).check
          (eachElement "page" "page") shelf = .error error ∧
        error.cause = .cannotRange "U" :=
  ⟨rfl, _, rfl, rfl⟩

end Environment

end TemplateTyping
