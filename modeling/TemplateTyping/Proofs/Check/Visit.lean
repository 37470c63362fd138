import Mathlib.Tactic.ByContra
import TemplateTyping.Proofs.Check.Plan

/-!
# What a check meets

A check walks through its own tree and through the templates that are invoked on
the way, except for those that are already being checked.  This module says which
walks belong to a check and which invocations they meet.
-/

namespace TemplateTyping

/-- The fault behind a refusal. -/
def Refusal.cause : Refusal → Cause
  | .here cause => cause
  | .inside error => error.cause

@[simp]
theorem Refusal.cause_errorAt (tree : Tree) (node : Node) (refusal : Refusal) :
    (refusal.errorAt tree node).cause = refusal.cause := by
  cases refusal with
  | here cause => rfl
  | inside error => rfl

namespace Environment

/-! ## Invocations that a walk meets -/

/-- A walk meets an invocation if its outcome hangs on the verdict on it: some
other verdict on this invocation alone leads to another outcome. -/
def Meets (env : Environment) (tree : Tree) (data : Ty) (judge : Judge)
    (invocation : Invocation) : Prop :=
  ∃ other : Judge,
    (∀ different, different ≠ invocation → other different = judge different) ∧
      env.walkTree tree data other ≠ env.walkTree tree data judge

theorem follow_refusing {α : Type}
    {tree : Tree} {judge other : Judge} {invocation : Invocation}
    (hother : ∀ different, different ≠ invocation →
      other different = judge different)
    {error : TypeError} (hrefused : other invocation = .error (.inside error))
    {before : List (Node × Invocation)} (hbefore : Plan.AllAccepted judge before)
    (ending : Except TypeError α) (node : Node)
    (after : List (Node × Invocation)) :
    Plan.follow tree other ending (before ++ (node, invocation) :: after) =
      .error error := by
  induction before with
  | nil =>
      rw [List.nil_append, Plan.follow, hrefused]
      rfl
  | cons call before ih =>
      rw [List.cons_append, Plan.follow]
      by_cases hcall : call.2 = invocation
      · rw [hcall, hrefused]
        rfl
      · rw [hother call.2 hcall, hbefore call (by simp)]
        exact ih fun earlier hearlier => hbefore earlier (by simp [hearlier])

/-- Every outcome differs from some error. -/
theorem exists_error_ne {α : Type} (tree : Tree) (outcome : Except TypeError α) :
    ∃ error : TypeError, .error error ≠ outcome := by
  by_cases h : (.error ⟨tree, default, .nilCommand⟩ : Except TypeError α) = outcome
  · refine ⟨⟨tree, default, .threeIndexString⟩, ?_⟩
    rw [← h]
    simp
  · exact ⟨_, h⟩

/-- The invocations that a walk meets are those that its plan reaches. -/
theorem meets_iff_reaches
    {env : Environment} {tree : Tree} {data : Ty} {plan : Plan (Option Ty)}
    (hplan : ∀ judge, env.walkTree tree data judge = plan.outcome tree judge)
    {judge : Judge} {invocation : Invocation} :
    env.Meets tree data judge invocation ↔ plan.Reaches judge invocation := by
  classical
  constructor
  · rintro ⟨other, hother, hne⟩
    by_contra hreach
    apply hne
    rw [hplan, hplan]
    apply Plan.outcome_congr
    intro different hdifferent
    apply hother
    rintro rfl
    exact hreach hdifferent
  · rintro ⟨before, node, after, hmet, hbefore⟩
    obtain ⟨error, herror⟩ :=
      exists_error_ne tree (env.walkTree tree data judge)
    let other : Judge := fun asked =>
      if asked = invocation then .error (.inside error) else judge asked
    have hother : ∀ different, different ≠ invocation →
        other different = judge different := by
      intro different hdifferent
      exact if_neg hdifferent
    refine ⟨other, hother, ?_⟩
    have hrefused : other invocation = .error (.inside error) := if_pos rfl
    rw [hplan other, Plan.outcome, hmet,
      follow_refusing hother hrefused hbefore]
    exact herror

/-- A walk that ends well under one judge ends alike under every judge who
accepts what it meets. -/
theorem walkTree_eq_of_accepted
    {env : Environment} {tree : Tree} {data : Ty} {judge other : Judge}
    {result : Option Ty} (hwalk : env.walkTree tree data judge = .ok result)
    (hother : ∀ invocation, env.Meets tree data judge invocation →
      other invocation = .ok ()) :
    env.walkTree tree data other = .ok result := by
  obtain ⟨plan, hplan⟩ := env.exists_plan tree data
  rw [hplan] at hwalk ⊢
  obtain ⟨hall, hending⟩ := Plan.allAccepted_of_outcome_ok hwalk
  have hall' : Plan.AllAccepted other plan.met := by
    rintro ⟨node, invocation⟩ hcall
    apply hother
    exact (meets_iff_reaches hplan).mpr (Plan.reaches_of_allAccepted hall hcall)
  rw [Plan.outcome, Plan.follow_of_allAccepted hall']
  exact hending

/-- What a walk that ends well meets has been accepted. -/
theorem accepted_of_meets
    {env : Environment} {tree : Tree} {data : Ty} {judge : Judge}
    {result : Option Ty} (hwalk : env.walkTree tree data judge = .ok result)
    {invocation : Invocation} (hmeets : env.Meets tree data judge invocation) :
    judge invocation = .ok () := by
  obtain ⟨plan, hplan⟩ := env.exists_plan tree data
  rw [hplan] at hwalk
  obtain ⟨hall, _⟩ := Plan.allAccepted_of_outcome_ok hwalk
  obtain ⟨before, node, after, hmet, _⟩ := (meets_iff_reaches hplan).mp hmeets
  exact hall (node, invocation) (by rw [hmet]; simp)

/-- A walk that asks for one verdict meets nothing else. -/
theorem eq_of_meets
    {env : Environment} {tree : Tree} {data : Ty} {asked : Invocation}
    (hwalk : ∀ judge : Judge, env.walkTree tree data judge =
      env.walkTree tree data fun _ => judge asked)
    {judge : Judge} {invocation : Invocation}
    (hmeets : env.Meets tree data judge invocation) :
    invocation = asked := by
  obtain ⟨other, hother, hne⟩ := hmeets
  by_contra hdifferent
  apply hne
  rw [hwalk judge, hwalk other, hother asked (Ne.symm hdifferent)]

/-! ## The verdict on an invocation -/

/-- The verdict on an invocation after the walk through its target. -/
def verdictOf : Except TypeError (Option Ty) → Except Refusal Unit
  | .ok _ => .ok ()
  | .error error => .error (.inside error)

/-- The active call of an invocation. -/
def call (env : Environment) (invocation : Invocation) : ActiveCall :=
  env.activeCall invocation.template invocation.argument

section Judge

variable {env : Environment} {budget : Nat} {active : List ActiveCall}
  {invocation : Invocation} {target : Tree}

theorem judge_of_missing
    (htarget : env.templates.get? invocation.template = none) :
    env.judge budget active invocation =
      .error (.here (.templateNotFound invocation.template)) := by
  unfold judge
  rw [htarget]

theorem judge_of_active
    (htarget : env.templates.get? invocation.template = some target)
    (hactive : env.call invocation ∈ active) :
    env.judge budget active invocation = .ok () := by
  unfold judge
  rw [htarget]
  exact if_pos hactive

theorem judge_zero
    (htarget : env.templates.get? invocation.template = some target)
    (hactive : env.call invocation ∉ active) :
    env.judge 0 active invocation =
      .error (.here (.templateDepth invocation.template env.maxDepth)) := by
  unfold judge
  rw [htarget]
  exact if_neg hactive

theorem judge_succ
    (htarget : env.templates.get? invocation.template = some target)
    (hactive : env.call invocation ∉ active) :
    env.judge (budget + 1) active invocation =
      verdictOf (env.walkTree target invocation.argument
        (env.judge budget (active ++ [env.call invocation]))) := by
  rw [judge, htarget]
  exact if_neg hactive

/-- An accepted invocation has a target, and is active already or has been
walked through. -/
theorem judge_eq_ok (h : env.judge budget active invocation = .ok ()) :
    ∃ target, env.templates.get? invocation.template = some target ∧
      (env.call invocation ∈ active ∨
        ∃ rest result, budget = rest + 1 ∧
          env.walkTree target invocation.argument
              (env.judge rest (active ++ [env.call invocation])) =
            .ok result) := by
  cases htarget : env.templates.get? invocation.template with
  | none => simp [judge_of_missing htarget] at h
  | some target =>
      refine ⟨target, rfl, ?_⟩
      by_cases hactive : env.call invocation ∈ active
      · exact .inl hactive
      · right
        cases budget with
        | zero => simp [judge_zero htarget hactive] at h
        | succ rest =>
            rw [judge_succ htarget hactive] at h
            cases hwalk : env.walkTree target invocation.argument
                (env.judge rest (active ++ [env.call invocation])) with
            | ok result => exact ⟨rest, result, rfl, hwalk⟩
            | error error => simp [hwalk, verdictOf] at h

/-- A refused invocation has no target; or it is not active, and either no further
one may be nested or a fault was found inside of its target. -/
theorem judge_eq_error
    {refusal : Refusal}
    (h : env.judge budget active invocation = .error refusal) :
    (env.templates.get? invocation.template = none ∧
        refusal = .here (.templateNotFound invocation.template)) ∨
      ∃ target, env.templates.get? invocation.template = some target ∧
        env.call invocation ∉ active ∧
          (budget = 0 ∧
              refusal = .here (.templateDepth invocation.template env.maxDepth) ∨
            ∃ rest error, budget = rest + 1 ∧ refusal = .inside error ∧
              env.walkTree target invocation.argument
                  (env.judge rest (active ++ [env.call invocation])) =
                .error error) := by
  cases htarget : env.templates.get? invocation.template with
  | none =>
      rw [judge_of_missing htarget] at h
      exact .inl ⟨rfl, (Except.error.inj h).symm⟩
  | some target =>
      by_cases hactive : env.call invocation ∈ active
      · simp [judge_of_active htarget hactive] at h
      · refine .inr ⟨target, rfl, hactive, ?_⟩
        cases budget with
        | zero =>
            rw [judge_zero htarget hactive] at h
            exact .inl ⟨rfl, (Except.error.inj h).symm⟩
        | succ rest =>
            rw [judge_succ htarget hactive] at h
            cases hwalk : env.walkTree target invocation.argument
                (env.judge rest (active ++ [env.call invocation])) with
            | ok result => simp [hwalk, verdictOf] at h
            | error error =>
                rw [hwalk] at h
                exact .inr ⟨rest, error, rfl, (Except.error.inj h).symm, hwalk⟩

end Judge

/-! ## Walks of a check -/

/-- The walks that belong to checking a tree: with the number of invocations
that may still be nested and the invocations that are active, the first one
standing for the check itself. -/
inductive Visits (env : Environment) (tree : Tree) (data : Ty) :
    Nat → List Invocation → Tree → Ty → Prop
  | entry : Visits env tree data env.maxDepth [⟨tree.name, data⟩] tree data
  | invoked {budget : Nat} {stack : List Invocation} {walked target : Tree}
      {argument : Ty} {invocation : Invocation} :
      Visits env tree data (budget + 1) stack walked argument →
      env.Meets walked argument (env.judge (budget + 1) (stack.map env.call))
        invocation →
      env.templates.get? invocation.template = some target →
      env.call invocation ∉ stack.map env.call →
      Visits env tree data budget (stack ++ [invocation]) target
        invocation.argument

/-- The invocations that a check has to do with: the one that stands for the
check itself, and those that its walks meet. -/
inductive Encounters (env : Environment) (tree : Tree) (data : Ty) :
    Invocation → Prop
  | entry : Encounters env tree data ⟨tree.name, data⟩
  | met {budget : Nat} {stack : List Invocation} {walked : Tree}
      {argument : Ty} {invocation : Invocation} :
      env.Visits tree data budget stack walked argument →
      env.Meets walked argument (env.judge budget (stack.map env.call))
        invocation →
      Encounters env tree data invocation

/-- The active invocations are among those that a check encounters. -/
theorem Visits.encounters
    {env : Environment} {tree : Tree} {data : Ty} {budget : Nat}
    {stack : List Invocation} {walked : Tree} {argument : Ty}
    (hvisit : env.Visits tree data budget stack walked argument)
    {invocation : Invocation} (hactive : invocation ∈ stack) :
    env.Encounters tree data invocation := by
  induction hvisit with
  | entry =>
      rw [List.mem_singleton] at hactive
      rw [hactive]
      exact .entry
  | invoked hvisit hmeets htarget hnew ih =>
      rcases List.mem_append.mp hactive with hold | hlast
      · exact ih hold
      · rw [List.mem_singleton] at hlast
        rw [hlast]
        exact .met hvisit hmeets

end Environment

end TemplateTyping
