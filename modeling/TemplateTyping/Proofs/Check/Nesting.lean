import Mathlib.Data.Finset.Card
import TemplateTyping.Proofs.Check.Confinement
import TemplateTyping.Proofs.Check.Recursion

/-!
# How deeply invocations can be nested

Invocations that are nested in one another have different active calls.  The
arguments keep to the types that can be come to from the data, of which there are
finitely many, so there are finitely many calls that can be active.  The main
statement is that a limit of that many nested invocations is never exceeded,
however the templates invoke each other and whatever cycles the types have.

A limit that is not reached leaves no trace.  The second statement is that a check
which does not stop at its limit has the same result with every greater limit.
-/

namespace TemplateTyping.Environment

/-- The types that a check can come to. -/
def reachable (env : Environment) (data : Ty) : List Ty :=
  env.types.reach (data :: HasTypes.types env.functions)

/-- The calls that a check can make active. -/
def possibleCalls (env : Environment) (data : Ty) : List ActiveCall :=
  env.templates.names.flatMap fun name =>
    (env.reachable data).map (env.activeCall name)

/-- The number of possible calls.  It does not depend on the limit. -/
def nestingBound (env : Environment) (data : Ty) : Nat :=
  (env.possibleCalls data).length

/-- The possible calls that are not active. -/
def inactive (env : Environment) (data : Ty) (active : List ActiveCall) :
    Finset ActiveCall :=
  (env.possibleCalls data).toFinset \ active.toFinset

section Calls

variable {env : Environment} {data : Ty}

theorem data_mem_reachable : data ∈ env.reachable data :=
  Universe.mem_reach_of_given List.mem_cons_self

theorem functions_madeOf_reachable : MadeOf (· ∈ env.reachable data) env.functions :=
  fun _ hty => Universe.mem_reach_of_given (List.mem_cons_of_mem _ hty)

theorem call_mem_inactive
    {invocation : Invocation} {target : Tree}
    (htarget : env.templates.get? invocation.template = some target)
    (hargument : invocation.argument ∈ env.reachable data)
    {active : List ActiveCall} (hactive : env.call invocation ∉ active) :
    env.call invocation ∈ env.inactive data active := by
  have hname : invocation.template ∈ env.templates.names :=
    List.mem_map.mpr ⟨_, NameMap.mem_entries_of_get? htarget, rfl⟩
  have hcall : env.call invocation ∈ env.possibleCalls data :=
    List.mem_flatMap.mpr
      ⟨invocation.template, hname, List.mem_map_of_mem hargument⟩
  simp [inactive, hcall, hactive]

theorem card_inactive_le (active : List ActiveCall) :
    (env.inactive data active).card ≤ env.nestingBound data :=
  calc
    (env.inactive data active).card ≤ (env.possibleCalls data).toFinset.card :=
      Finset.card_le_card Finset.sdiff_subset
    _ ≤ (env.possibleCalls data).length := List.toFinset_card_le _

/-- Making a call active leaves fewer that can become active. -/
theorem card_inactive_append_lt
    {active : List ActiveCall} {call : ActiveCall}
    (hcall : call ∈ env.inactive data active) :
    (env.inactive data (active ++ [call])).card < (env.inactive data active).card := by
  have herase : env.inactive data (active ++ [call]) =
      (env.inactive data active).erase call := by
    ext other
    simp only [inactive, Finset.mem_sdiff, Finset.mem_erase, List.mem_toFinset,
      List.mem_append, List.mem_singleton]
    tauto
  rw [herase]
  exact Finset.card_erase_lt_of_mem hcall

end Calls

/-- A judge that may nest as many invocations as there are inactive calls never
refuses one for its nesting. -/
theorem judge_patient
    (env : Environment) (data : Ty) {budget : Nat} {active : List ActiveCall}
    (hbudget : (env.inactive data active).card ≤ budget) :
    Judge.Patient (· ∈ env.reachable data) (env.judge budget active) := by
  -- Every nested invocation leaves fewer inactive calls, and when the budget is
  -- used up there is none left that could be refused.
  induction budget generalizing active with
  | zero =>
      intro invocation refusal hargument hjudge
      obtain ⟨-, rfl⟩ | ⟨target, htarget, hactive, -⟩ := judge_eq_error hjudge
      · exact Cause.not_isDepth rfl
      · have hcall := call_mem_inactive htarget hargument hactive
        have hpos := Finset.card_pos.mpr ⟨_, hcall⟩
        omega
  | succ budget ih =>
      intro invocation refusal hargument hjudge
      obtain ⟨-, rfl⟩ | ⟨target, htarget, hactive, ⟨hzero, -⟩ |
        ⟨rest, error, hrest, rfl, hwalk⟩⟩ := judge_eq_error hjudge
      · exact Cause.not_isDepth rfl
      · cases hzero
      · cases hrest
        have hfewer := card_inactive_append_lt
          (call_mem_inactive htarget hargument hactive)
        have hpatient := ih (Nat.le_of_lt_succ (Nat.lt_of_lt_of_le hfewer hbudget))
        exact walkTree_cause (env.types.closed_reach _) functions_madeOf_reachable
          hpatient hargument hwalk

/-- Recursion ends by itself: a check that may nest as many invocations as there
are possible calls, or more, never reports that they are nested too deeply. -/
theorem check_not_depth_of_nestingBound_le
    (env : Environment) (tree : Tree) (data : Ty)
    (depth : Nat) (hdepth : env.nestingBound data ≤ depth)
    (error : TypeError)
    (herror : ({ env with maxDepth := depth }).check tree data = .error error) :
    ¬error.cause.IsDepth := by
  let limited : Environment := { env with maxDepth := depth }
  have hbudget : (limited.inactive data [limited.activeCall tree.name data]).card ≤ depth :=
    (card_inactive_le _).trans hdepth
  exact walkTree_cause (env.types.closed_reach _) functions_madeOf_reachable
    (limited.judge_patient data hbudget) data_mem_reachable herror

/-- A template that runs over lists of forests invokes one that invokes a missing
one.  That is found at a limit from which on nesting is no fault, while a check
that may nest nothing stops before. -/
theorem check_not_depth_of_nestingBound_le_forest :
    (∃ error, ({ forestPages with maxDepth := 0 }).check
        (eachElement "outer" "lost") (.slice forest) = .error error ∧
          error.cause.IsDepth) ∧
      ∃ error, ({ forestPages with maxDepth := 128 }).check
        (eachElement "outer" "lost") (.slice forest) = .error error ∧
          ¬error.cause.IsDepth := by
  have hbound : forestPages.nestingBound (.slice forest) ≤ 128 := by
    decide +kernel
  constructor
  · exact ⟨_, rfl, "lost", 0, rfl⟩
  · obtain ⟨error, herror⟩ : ∃ error, ({ forestPages with maxDepth := 128 }).check
        (eachElement "outer" "lost") (.slice forest) = .error error := ⟨_, rfl⟩
    exact ⟨error, herror, check_not_depth_of_nestingBound_le forestPages
      (eachElement "outer" "lost") (.slice forest) 128 hbound error herror⟩

/-! ## Greater limits -/

/-- If a walk does not end with the nesting of an invocation, another judge that agrees
on all that is not refused for its nesting leads to the same outcome. -/
theorem walkTree_eq_of_not_depth
    {env : Environment} {tree : Tree} {data : Ty} {judge other : Judge}
    (hother : ∀ invocation, (∀ refusal, judge invocation = .error refusal →
      ¬refusal.cause.IsDepth) → other invocation = judge invocation)
    (hwalk : ∀ error, env.walkTree tree data judge = .error error →
      ¬error.cause.IsDepth) :
    env.walkTree tree data other = env.walkTree tree data judge := by
  obtain ⟨plan, hplan⟩ := env.exists_plan tree data
  rw [hplan other, hplan judge]
  apply Plan.outcome_congr
  rintro invocation ⟨before, node, after, hmet, hbefore⟩
  apply hother
  intro refusal hrefused
  -- The refusal of an invocation that is reached is the outcome of the walk.
  have houtcome : env.walkTree tree data judge =
      .error (refusal.errorAt tree node) := by
    rw [hplan, Plan.outcome, hmet]
    exact Plan.follow_of_refused hbefore hrefused plan.ending node after
  have hcause := hwalk _ houtcome
  rwa [Refusal.cause_errorAt] at hcause

/-- A judge that may nest more invocations agrees on all that is not refused for its
nesting; the limit that it would report does not matter. -/
theorem judge_eq_of_budget_le
    (env : Environment) (depth : Nat) {budget budget' : Nat} (hbudget : budget ≤ budget')
    {active : List ActiveCall} {invocation : Invocation}
    (hjudge : ∀ refusal, env.judge budget active invocation = .error refusal →
      ¬refusal.cause.IsDepth) :
    ({ env with maxDepth := depth }).judge budget' active invocation =
      env.judge budget active invocation := by
  let deeper : Environment := { env with maxDepth := depth }
  change deeper.judge budget' active invocation = _
  induction budget generalizing budget' active invocation with
  | zero =>
      cases htarget : env.templates.get? invocation.template with
      | none => rw [judge_of_missing htarget, @judge_of_missing deeper _ _ _ htarget]
      | some target =>
          by_cases hactive : env.call invocation ∈ active
          · rw [judge_of_active htarget hactive,
              @judge_of_active deeper _ _ _ _ htarget hactive]
          · exact absurd ⟨_, _, rfl⟩ (hjudge _ (judge_zero htarget hactive))
  | succ budget ih =>
      obtain ⟨budget', rfl⟩ : ∃ lower, budget' = lower + 1 :=
        Nat.exists_eq_add_one.mpr (Nat.lt_of_lt_of_le budget.succ_pos hbudget)
      cases htarget : env.templates.get? invocation.template with
      | none => rw [judge_of_missing htarget, @judge_of_missing deeper _ _ _ htarget]
      | some target =>
          by_cases hactive : env.call invocation ∈ active
          · rw [judge_of_active htarget hactive,
              @judge_of_active deeper _ _ _ _ htarget hactive]
          · rw [judge_succ htarget hactive] at hjudge ⊢
            rw [@judge_succ deeper _ _ _ _ htarget hactive]
            refine congrArg verdictOf (@walkTree_eq_of_not_depth env _ _ _ _ ?_ ?_)
            · intro met hmet
              exact ih (Nat.le_of_succ_le_succ hbudget) hmet
            · intro error hwalk
              rw [hwalk] at hjudge
              exact hjudge (.inside error) rfl

/-- Raising the limit never changes a verdict: a check that does not report that
invocations are nested too deeply has the very same result, or the same fault at the
same node of the same tree, with every greater limit. -/
theorem check_eq_of_maxDepth_le
    (env : Environment) (tree : Tree) (data : Ty)
    (depth depth' : Nat) (hdepth : depth ≤ depth')
    (hcheck : ∀ error, ({ env with maxDepth := depth }).check tree data = .error error →
      ¬error.cause.IsDepth) :
    ({ env with maxDepth := depth' }).check tree data =
      ({ env with maxDepth := depth }).check tree data := by
  let limited : Environment := { env with maxDepth := depth }
  refine @walkTree_eq_of_not_depth limited _ _ _ _ ?_ hcheck
  intro invocation hjudge
  exact limited.judge_eq_of_budget_le depth' hdepth hjudge

/-- A missing template two levels below is reported alike with a limit that just
suffices to find it and with a greater one. -/
theorem check_eq_of_maxDepth_le_forest :
    ∃ error, ({ forestPages with maxDepth := 1 }).check
        (eachElement "outer" "lost") (.slice forest) = .error error ∧
      error.cause = .templateNotFound "missing" ∧
        ({ forestPages with maxDepth := 64 }).check
          (eachElement "outer" "lost") (.slice forest) = .error error := by
  obtain ⟨error, herror, hcause⟩ : ∃ error, ({ forestPages with maxDepth := 1 }).check
      (eachElement "outer" "lost") (.slice forest) = .error error ∧
        error.cause = .templateNotFound "missing" := ⟨_, rfl, rfl⟩
  refine ⟨error, herror, hcause, ?_⟩
  rw [check_eq_of_maxDepth_le forestPages _ _ 1 64 (by decide), herror]
  intro other hother
  obtain rfl := Except.error.inj (herror.symm.trans hother)
  rw [hcause]
  exact Cause.not_isDepth rfl

end TemplateTyping.Environment
