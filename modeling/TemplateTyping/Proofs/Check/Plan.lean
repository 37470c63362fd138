import Mathlib.Logic.Basic
import TemplateTyping.Proofs.Check.WalkProperty

/-!
# Plans of walks

An invocation that is accepted gives nothing back to the walk that meets it, and
one that is refused ends the walk.  So the way of a walk does not hang on the
verdicts: there is a plan, the list of the invocations it meets one after the
other and the outcome it has if all of them are accepted, and a walk under any
verdicts follows this plan up to the first refusal.
-/

namespace TemplateTyping

/-- Verdicts on invocations. -/
abbrev Judge := Invocation → Except Refusal Unit

/-- The fault that is reported when an invocation at a node is refused. -/
def Refusal.errorAt (tree : Tree) (node : Node) : Refusal → TypeError
  | .here cause => ⟨tree, node, cause⟩
  | .inside error => error

/-- The invocations that a check meets, with the nodes where they stand, and its
outcome if all of them are accepted. -/
structure Plan (α : Type) where
  met : List (Node × Invocation)
  ending : Except TypeError α

namespace Plan

/-- The outcome of asking a judge about invocations one after the other. -/
def follow {α : Type} (tree : Tree) (judge : Judge) (ending : Except TypeError α) :
    List (Node × Invocation) → Except TypeError α
  | [] => ending
  | (node, invocation) :: met =>
      match judge invocation with
      | .ok () => follow tree judge ending met
      | .error refusal => .error (refusal.errorAt tree node)

/-- The outcome of a plan under the verdicts of a judge. -/
def outcome {α : Type} (plan : Plan α) (tree : Tree) (judge : Judge) :
    Except TypeError α :=
  follow tree judge plan.ending plan.met

/-- The judge accepts every one of these invocations. -/
def AllAccepted (judge : Judge) (met : List (Node × Invocation)) : Prop :=
  ∀ call ∈ met, judge call.2 = .ok ()

/-- A plan gets as far as an invocation: those before it are accepted. -/
def Reaches {α : Type} (plan : Plan α) (judge : Judge) (invocation : Invocation) :
    Prop :=
  ∃ before node after,
    plan.met = before ++ (node, invocation) :: after ∧ AllAccepted judge before

section Follow

variable {α : Type} {tree : Tree} {judge : Judge}

theorem follow_append
    (ending : Except TypeError α) (before after : List (Node × Invocation)) :
    follow tree judge ending (before ++ after) =
      follow tree judge (follow tree judge ending after) before := by
  induction before with
  | nil => rfl
  | cons call before ih =>
      rw [List.cons_append, follow, follow]
      cases judge call.2 with
      | error refusal => rfl
      | ok accepted => exact ih

theorem follow_bind {β : Type}
    (ending : Except TypeError α) (f : α → Except TypeError β)
    (met : List (Node × Invocation)) :
    (follow tree judge ending met).bind f =
      follow tree judge (ending.bind f) met := by
  induction met with
  | nil => rfl
  | cons call met ih =>
      rw [follow, follow]
      cases judge call.2 with
      | error refusal => rfl
      | ok accepted => exact ih

theorem follow_of_allAccepted
    {met : List (Node × Invocation)} (hmet : AllAccepted judge met)
    (ending : Except TypeError α) :
    follow tree judge ending met = ending := by
  induction met with
  | nil => rfl
  | cons call met ih =>
      have hcall : judge call.2 = .ok () := hmet call (by simp)
      rw [follow, hcall]
      exact ih fun other hother => hmet other (by simp [hother])

theorem follow_of_refused
    {before : List (Node × Invocation)} (hbefore : AllAccepted judge before)
    {invocation : Invocation} {refusal : Refusal}
    (hrefused : judge invocation = .error refusal)
    (ending : Except TypeError α) (node : Node)
    (after : List (Node × Invocation)) :
    follow tree judge ending (before ++ (node, invocation) :: after) =
      .error (refusal.errorAt tree node) := by
  rw [follow_append, follow_of_allAccepted hbefore, follow, hrefused]

/-- Of a list of invocations all are accepted, or there is a first one that is
refused. -/
theorem allAccepted_or_refused
    (judge : Judge) (met : List (Node × Invocation)) :
    AllAccepted judge met ∨
      ∃ before node invocation after refusal,
        met = before ++ (node, invocation) :: after ∧
          AllAccepted judge before ∧ judge invocation = .error refusal := by
  induction met with
  | nil => exact .inl (by simp [AllAccepted])
  | cons call met ih =>
      obtain ⟨node, invocation⟩ := call
      cases hcall : judge invocation with
      | error refusal =>
          exact .inr ⟨[], node, invocation, met, refusal, rfl,
            by simp [AllAccepted], hcall⟩
      | ok accepted =>
          rcases ih with hall | ⟨before, node', invocation', after, refusal,
            hmet, hbefore, hrefused⟩
          · left
            intro other hother
            rcases List.mem_cons.mp hother with rfl | hother
            · exact hcall
            · exact hall other hother
          · right
            refine ⟨(node, invocation) :: before, node', invocation', after,
              refusal, by rw [hmet]; rfl, ?_, hrefused⟩
            intro other hother
            rcases List.mem_cons.mp hother with rfl | hother
            · exact hcall
            · exact hbefore other hother

end Follow

section Outcome

variable {α : Type} {plan : Plan α} {tree : Tree} {judge : Judge}

/-- What a plan can lead to: its own ending, or the first refusal. -/
theorem outcome_cases (plan : Plan α) (tree : Tree) (judge : Judge) :
    (AllAccepted judge plan.met ∧ plan.outcome tree judge = plan.ending) ∨
      ∃ invocation node refusal, plan.Reaches judge invocation ∧
        judge invocation = .error refusal ∧
          plan.outcome tree judge = .error (refusal.errorAt tree node) := by
  rcases allAccepted_or_refused judge plan.met with
    hall | ⟨before, node, invocation, after, refusal, hmet, hbefore, hrefused⟩
  · exact .inl ⟨hall, follow_of_allAccepted hall plan.ending⟩
  · refine .inr ⟨invocation, node, refusal,
      ⟨before, node, after, hmet, hbefore⟩, hrefused, ?_⟩
    rw [outcome, hmet]
    exact follow_of_refused hbefore hrefused plan.ending node after

/-- A plan that ends well has met accepted invocations only. -/
theorem allAccepted_of_outcome_ok {value : α}
    (h : plan.outcome tree judge = .ok value) :
    AllAccepted judge plan.met ∧ plan.ending = .ok value := by
  rcases plan.outcome_cases tree judge with
    ⟨hall, houtcome⟩ | ⟨_, _, _, _, _, houtcome⟩
  · exact ⟨hall, houtcome.symm.trans h⟩
  · rw [houtcome] at h
    exact absurd h (by simp)

theorem reaches_of_allAccepted
    (hall : AllAccepted judge plan.met)
    {node : Node} {invocation : Invocation}
    (hmem : (node, invocation) ∈ plan.met) :
    plan.Reaches judge invocation := by
  obtain ⟨before, after, hmet⟩ := List.append_of_mem hmem
  refine ⟨before, node, after, hmet, ?_⟩
  intro call hcall
  exact hall call (by rw [hmet]; exact List.mem_append_left _ hcall)

/-- Only the verdicts on the invocations that are reached matter. -/
theorem outcome_congr {other : Judge}
    (h : ∀ invocation, plan.Reaches judge invocation →
      other invocation = judge invocation) :
    plan.outcome tree other = plan.outcome tree judge := by
  rcases allAccepted_or_refused judge plan.met with
    hall | ⟨before, node, invocation, after, refusal, hmet, hbefore, hrefused⟩
  · have hother : AllAccepted other plan.met := by
      rintro ⟨node, invocation⟩ hcall
      exact (h invocation (reaches_of_allAccepted hall hcall)).trans
        (hall _ hcall)
    rw [outcome, outcome, follow_of_allAccepted hall,
      follow_of_allAccepted hother]
  · have hagree : ∀ call ∈ before, other call.2 = judge call.2 := by
      intro call hcall
      obtain ⟨first, last, rfl⟩ := List.append_of_mem hcall
      refine h call.2 ⟨first, call.1, last ++ (node, invocation) :: after, ?_, ?_⟩
      · rw [hmet, List.append_assoc]
        rfl
      · intro earlier hearlier
        exact hbefore earlier (List.mem_append_left _ hearlier)
    have hbefore' : AllAccepted other before := fun call hcall =>
      (hagree call hcall).trans (hbefore call hcall)
    have hrefused' : other invocation = .error refusal :=
      (h invocation ⟨before, node, after, hmet, hbefore⟩).trans hrefused
    rw [outcome, outcome, hmet, follow_of_refused hbefore hrefused,
      follow_of_refused hbefore' hrefused']

end Outcome

end Plan

/-! ## Every walk has a plan -/

/-- Whatever the verdicts, the check follows one plan from each scope. -/
def HasPlan {α : Type} (tree : Tree) (check : Judge → Checker α) : Prop :=
  ∀ scope, ∃ plan : Plan (α × Scope), ∀ judge,
    check judge scope = plan.outcome tree judge

namespace HasPlan

variable {α β : Type} {tree : Tree}

theorem of_constant {check : Judge → Checker α}
    (h : ∀ judge judge', check judge = check judge') :
    HasPlan tree check := by
  intro scope
  refine ⟨⟨[], check (fun _ => .ok ()) scope⟩, fun judge => ?_⟩
  rw [h judge fun _ => .ok ()]
  rfl

theorem bind {first : Judge → Checker α} {next : Judge → α → Checker β}
    (hfirst : HasPlan tree first)
    (hnext : ∀ value, HasPlan tree fun judge => next judge value) :
    HasPlan tree fun judge => first judge >>= next judge := by
  intro scope
  obtain ⟨plan, hplan⟩ := hfirst scope
  have hstep : ∀ judge, (first judge >>= next judge) scope =
      Plan.follow tree judge
        (plan.ending.bind fun result => next judge result.1 result.2)
        plan.met := by
    intro judge
    rw [← Plan.follow_bind]
    exact congrArg (Except.bind · fun result => next judge result.1 result.2)
      (hplan judge)
  cases hending : plan.ending with
  | error error =>
      refine ⟨⟨plan.met, .error error⟩, fun judge => (hstep judge).trans ?_⟩
      rw [hending]
      rfl
  | ok result =>
      obtain ⟨rest, hrest⟩ := hnext result.1 result.2
      refine ⟨⟨plan.met ++ rest.met, rest.ending⟩,
        fun judge => (hstep judge).trans ?_⟩
      rw [hending, Plan.outcome, Plan.follow_append]
      exact congrArg (Plan.follow tree judge · plan.met) (hrest judge)

theorem isolated {check : Judge → Checker α} (h : HasPlan tree check) :
    HasPlan tree fun judge => Checker.isolated (check judge) := by
  intro scope
  obtain ⟨plan, hplan⟩ := h scope
  refine ⟨⟨plan.met, plan.ending.bind fun result => .ok (result.1, scope)⟩,
    fun judge => ?_⟩
  rw [Plan.outcome, ← Plan.follow_bind]
  change _ = (plan.outcome tree judge).bind _
  rw [← hplan judge]
  simp only [Checker.isolated]
  cases check judge scope with
  | error error => rfl
  | ok result => rfl

theorem invocation (ctx : Context) (node : Node) (invocation : Invocation) :
    HasPlan ctx.tree fun judge =>
      ({ ctx with invoke := judge }).invocation node invocation := by
  intro scope
  refine ⟨⟨[(node, invocation)], .ok ((), scope)⟩, fun judge => ?_⟩
  simp only [Context.invocation, Plan.outcome, Plan.follow]
  rcases judge invocation with ⟨_ | _⟩ | ⟨⟩ <;> rfl

end HasPlan

/-- Having a plan, as a property of walks under different verdicts. -/
def planProperty (tree : Tree) : WalkProperty Judge where
  good _ := True
  reached _ := True
  agree verdict := ∀ judge judge', verdict judge = verdict judge'
  holds check := HasPlan tree check
  basic _ := trivial
  part _ _ := trivial
  accept _ _ _ := rfl
  refuse _ _ _ := rfl
  pure _ := .of_constant fun _ _ => rfl
  bind hfirst hnext := .bind hfirst fun value => hnext value fun _ _ => trivial
  isolated := .isolated

theorem planProperty_respected (ctx : Context) :
    (planProperty ctx.tree).Respected fun judge => { ctx with invoke := judge } where
  located _ h := .of_constant fun judge judge' =>
    congrArg (ctx.located _) (h judge judge')
  variableType _ := .of_constant fun _ _ => rfl
  setVariable _ _ _ := .of_constant fun _ _ => rfl
  invocation _ _ := HasPlan.invocation ctx _ _
  resolve _ _ _ _ := rfl
  arguments _ _ _ _ _ := rfl
  call _ _ _ _ _ := rfl
  iteration _ _ _ _ := rfl
  rangeVariables _ _ _ := rfl
  concrete _ := .of_constant fun _ _ => rfl

/-- The walk through a tree has a plan. -/
theorem Environment.exists_plan (env : Environment) (tree : Tree) (data : Ty) :
    ∃ plan : Plan (Option Ty), ∀ judge,
      env.walkTree tree data judge = plan.outcome tree judge := by
  have hbody : HasPlan tree fun judge =>
      (env.context tree judge).walkBody data tree.root :=
    (planProperty_respected (env.context tree fun _ => .ok ())).walkBody trivial
      tree.root trivial
  obtain ⟨plan, hplan⟩ := hbody (Scope.root data)
  refine ⟨⟨plan.met, plan.ending.bind fun result => .ok result.1⟩,
    fun judge => ?_⟩
  rw [Plan.outcome, ← Plan.follow_bind]
  change _ = (plan.outcome tree judge).bind _
  rw [← hplan judge]
  simp only [walkTree, StateT.run'_eq, StateT.run]
  cases (env.context tree judge).walkBody data tree.root (Scope.root data) with
  | error error => rfl
  | ok result => rfl

end TemplateTyping
