import TemplateTyping.Proofs.Check.Visit

/-!
# Recursive templates

A check does not walk through an invocation again while it is active, so that a
recursive template comes to an end.  The unrolled check knows nothing of active
calls: it walks through every invocation, down to a level that is chosen freely.
The main statement is that both agree.  If a check accepts, so does the unrolled
check at every level, provided that descriptions tell the types apart that the
check meets; and if a check reports a fault other than the nesting limit, so does
the unrolled check at every level that is not below this limit.

An acceptance may rest on calls that are only assumed to be right because they
are still active.  What carries the proof is that the walked invocations are
closed: whatever one of them meets has been walked through as well.
-/

namespace TemplateTyping

namespace Environment

/-- The verdict on an invocation when every invocation is walked through, down
to `level` nested ones; below, an invocation only needs a target. -/
def unrolled (env : Environment) (level : Nat) (invocation : Invocation) :
    Except Refusal Unit :=
  match env.templates.get? invocation.template with
  | none => .error (.here (.templateNotFound invocation.template))
  | some target =>
      match level with
      | 0 => .ok ()
      | level + 1 =>
          verdictOf
            (env.walkTree target invocation.argument (env.unrolled level))

/-- Checks a tree against the type of its data with invocations unrolled. -/
def checkUnrolled (env : Environment) (level : Nat) (tree : Tree) (data : Ty) :
    Except TypeError (Option Ty) :=
  env.walkTree tree data (env.unrolled level)

section Unrolled

variable {env : Environment} {level : Nat} {invocation : Invocation} {target : Tree}

theorem unrolled_of_missing
    (htarget : env.templates.get? invocation.template = none) :
    env.unrolled level invocation =
      .error (.here (.templateNotFound invocation.template)) := by
  unfold unrolled
  rw [htarget]

theorem unrolled_zero
    (htarget : env.templates.get? invocation.template = some target) :
    env.unrolled 0 invocation = .ok () := by
  unfold unrolled
  rw [htarget]

theorem unrolled_succ
    (htarget : env.templates.get? invocation.template = some target) :
    env.unrolled (level + 1) invocation =
      verdictOf
        (env.walkTree target invocation.argument (env.unrolled level)) := by
  rw [unrolled, htarget]

end Unrolled

/-! ## Acceptance -/

section Acceptance

variable {env : Environment} {tree : Tree} {data : Ty}

/-- An invocation that is walked through in the course of a check. -/
def Walks (env : Environment) (tree : Tree) (data : Ty)
    (invocation : Invocation) : Prop :=
  ∃ budget stack target,
    env.Visits tree data budget stack target invocation.argument ∧
      env.templates.get? invocation.template = some target

/-- If a check accepts, so does every walk that belongs to it. -/
theorem Visits.accepted
    {outcome : Option Ty} (hcheck : env.check tree data = .ok outcome)
    {budget : Nat} {stack : List Invocation} {walked : Tree} {argument : Ty}
    (hvisit : env.Visits tree data budget stack walked argument) :
    ∃ result, env.walkTree walked argument
      (env.judge budget (stack.map env.call)) = .ok result := by
  induction hvisit with
  | entry => exact ⟨outcome, hcheck⟩
  | @invoked budget stack walked target argument invocation
      hvisit hmeets htarget hnew ih =>
      obtain ⟨result, hwalk⟩ := ih
      have hjudge := accepted_of_meets hwalk hmeets
      obtain ⟨target', htarget', hactive | ⟨rest, inner, hbudget, hinner⟩⟩ :=
        judge_eq_ok hjudge
      · exact absurd hactive hnew
      · obtain rfl : target = target' :=
          Option.some.inj (htarget.symm.trans htarget')
        obtain rfl : budget = rest := Nat.succ.inj hbudget
        rw [List.map_append]
        exact ⟨inner, hinner⟩

/-- Active invocations are being walked through. -/
theorem Visits.walks
    (htree : env.templates.get? tree.name = some tree)
    {budget : Nat} {stack : List Invocation} {walked : Tree} {argument : Ty}
    (hvisit : env.Visits tree data budget stack walked argument)
    {invocation : Invocation} (hactive : invocation ∈ stack) :
    env.Walks tree data invocation := by
  induction hvisit with
  | entry =>
      rw [List.mem_singleton] at hactive
      rw [hactive]
      exact ⟨_, _, tree, .entry, htree⟩
  | invoked hvisit hmeets htarget hnew ih =>
      rcases List.mem_append.mp hactive with hold | hlast
      · exact ih hold
      · rw [List.mem_singleton] at hlast
        rw [hlast]
        exact ⟨_, _, _, .invoked hvisit hmeets htarget hnew, htarget⟩

/-- Descriptions tell the types apart that a check meets: that of its data and
those of the arguments of invocations.  The types are compared by equality and not by
identity, which looks at less: two structs or interfaces without a name that differ only
in the package they keep are different types here, and a check that meets both of them
does not describe its types apart. -/
def DescribesApart (env : Environment) (tree : Tree) (data : Ty) : Prop :=
  ∀ first second,
    env.Encounters tree data first → env.Encounters tree data second →
      env.types.describe first.argument = env.types.describe second.argument →
        first.argument = second.argument

/-- Whatever a walk of an accepting check meets is walked through: at once, or
because it is active already. -/
theorem Visits.walks_of_meets
    (htree : env.templates.get? tree.name = some tree)
    {outcome : Option Ty} (hcheck : env.check tree data = .ok outcome)
    (happart : env.DescribesApart tree data)
    {budget : Nat} {stack : List Invocation} {walked : Tree} {argument : Ty}
    (hvisit : env.Visits tree data budget stack walked argument)
    {invocation : Invocation}
    (hmeets : env.Meets walked argument
      (env.judge budget (stack.map env.call)) invocation) :
    env.Walks tree data invocation := by
  obtain ⟨result, hwalk⟩ := hvisit.accepted hcheck
  have hjudge := accepted_of_meets hwalk hmeets
  obtain ⟨target, htarget, hverdict⟩ := judge_eq_ok hjudge
  by_cases hactive : env.call invocation ∈ stack.map env.call
  · obtain ⟨earlier, hearlier, hcall⟩ := List.mem_map.mp hactive
    have hname : earlier.template = invocation.template :=
      congrArg Prod.fst hcall
    have hdescription : env.types.describe earlier.argument =
        env.types.describe invocation.argument := congrArg Prod.snd hcall
    have hargument : earlier.argument = invocation.argument :=
      happart _ _ (hvisit.encounters hearlier) (.met hvisit hmeets)
        hdescription
    have hsame : earlier = invocation := by
      cases earlier
      cases invocation
      simp only at hname hargument
      rw [hname, hargument]
    rw [← hsame]
    exact hvisit.walks htree hearlier
  · obtain hold | ⟨rest, inner, rfl, _⟩ := hverdict
    · exact absurd hold hactive
    · exact ⟨rest, _, target, .invoked hvisit hmeets htarget hactive, htarget⟩

/-- The unrolled verdicts accept what an accepting check walks through. -/
theorem Walks.unrolled
    (htree : env.templates.get? tree.name = some tree)
    {outcome : Option Ty} (hcheck : env.check tree data = .ok outcome)
    (happart : env.DescribesApart tree data) (level : Nat)
    {invocation : Invocation} (hwalks : env.Walks tree data invocation) :
    env.unrolled level invocation = .ok () := by
  -- Every invocation that is walked meets only such as are walked themselves, active
  -- ones included, so one induction on the level is enough.
  induction level generalizing invocation with
  | zero =>
      obtain ⟨budget, stack, target, hvisit, htarget⟩ := hwalks
      exact unrolled_zero htarget
  | succ level ih =>
      obtain ⟨budget, stack, target, hvisit, htarget⟩ := hwalks
      obtain ⟨result, hwalk⟩ := hvisit.accepted hcheck
      have hunrolled : env.walkTree target invocation.argument
          (env.unrolled level) = .ok result := by
        apply walkTree_eq_of_accepted hwalk
        intro met hmet
        exact ih (hvisit.walks_of_meets htree hcheck happart hmet)
      rw [unrolled_succ htarget, hunrolled]
      rfl

end Acceptance

/-! ## Faults -/

/-- If one judge refuses whatever another one refuses for a fault other than the
nesting limit, the walks under both report a fault together. -/
theorem walkTree_error_of_refused
    {env : Environment} {tree : Tree} {data : Ty} {judge other : Judge}
    {error : TypeError} (hwalk : env.walkTree tree data judge = .error error)
    (hcause : ¬ error.cause.IsDepth)
    (hother : ∀ invocation refusal, judge invocation = .error refusal →
      ¬ refusal.cause.IsDepth → ∃ refusal', other invocation = .error refusal') :
    ∃ error', env.walkTree tree data other = .error error' := by
  obtain ⟨plan, hplan⟩ := env.exists_plan tree data
  rw [hplan] at hwalk ⊢
  -- If the other judge accepts all that is met, the first one cannot have refused any
  -- of it, and both walks end with the fault of the plan itself.
  rcases plan.outcome_cases tree other with ⟨hall, hending⟩ |
    ⟨invocation, node, refusal, _, _, hrefused⟩
  · rcases plan.outcome_cases tree judge with ⟨_, hending'⟩ |
      ⟨invocation, node, refusal, hreach, hjudge, hrefused⟩
    · exact ⟨error, hending.trans (hending'.symm.trans hwalk)⟩
    · have hsame : refusal.errorAt tree node = error :=
        Except.error.inj (hrefused.symm.trans hwalk)
      have hrefusal : ¬ refusal.cause.IsDepth := by
        rw [← refusal.cause_errorAt tree node, hsame]
        exact hcause
      obtain ⟨refusal', hother'⟩ := hother invocation refusal hjudge hrefusal
      obtain ⟨before, node', after, hmet, _⟩ := hreach
      have haccepted : other invocation = .ok () :=
        hall (node', invocation) (by rw [hmet]; simp)
      rw [haccepted] at hother'
      cases hother'
  · exact ⟨_, hrefused⟩

/-- The unrolled verdicts refuse whatever a check refuses for a fault other than
the nesting limit. -/
theorem unrolled_error_of_judge
    {env : Environment} {budget level : Nat} (hlevel : budget ≤ level)
    {active : List ActiveCall} {invocation : Invocation} {refusal : Refusal}
    (hjudge : env.judge budget active invocation = .error refusal)
    (hcause : ¬ refusal.cause.IsDepth) :
    ∃ refusal', env.unrolled level invocation = .error refusal' := by
  induction budget generalizing level active invocation refusal with
  | zero =>
      obtain ⟨hmissing, -⟩ | ⟨target, htarget, -, ⟨-, hdepth⟩ |
        ⟨rest, error, hrest, _⟩⟩ := judge_eq_error hjudge
      · exact ⟨_, unrolled_of_missing hmissing⟩
      · rw [hdepth] at hcause
        exact absurd ⟨_, _, rfl⟩ hcause
      · cases hrest
  | succ budget ih =>
      obtain ⟨hmissing, -⟩ | ⟨target, htarget, -, ⟨hzero, -⟩ |
        ⟨rest, error, hrest, hrefusal, hwalk⟩⟩ := judge_eq_error hjudge
      · exact ⟨_, unrolled_of_missing hmissing⟩
      · cases hzero
      · cases hrest
        rw [hrefusal] at hcause
        obtain ⟨level, rfl⟩ : ∃ lower, level = lower + 1 :=
          Nat.exists_eq_add_one.mpr (Nat.lt_of_lt_of_le budget.succ_pos hlevel)
        have hlower : budget ≤ level := Nat.le_of_succ_le_succ hlevel
        have hrefused : ∀ met refusal,
            env.judge budget (active ++ [env.call invocation]) met =
              .error refusal → ¬ refusal.cause.IsDepth →
                ∃ refusal', env.unrolled level met = .error refusal' := by
          intro met refusal hmet hmetCause
          exact ih hlower hmet hmetCause
        obtain ⟨error', hunrolled⟩ :=
          walkTree_error_of_refused hwalk hcause hrefused
        refine ⟨.inside error', ?_⟩
        rw [unrolled_succ htarget, hunrolled]
        rfl

/-! ## The unrolled check agrees -/

/-- The type of forests, whose values are lists of forests. -/
def forest : Ty := .named (.declared 0)

/-- A template that runs over its data and invokes a template on each element. -/
def eachElement (name invoked : String) : Tree :=
  let data : Pipe Node := { span := .origin, commands := [⟨.origin, [.dot .origin]⟩] }
  { name := name, parseName := name, source := "",
    root := ⟨.origin, [.branch .rangeKeyword
      ⟨.origin, data, ⟨.origin, [.template .origin invoked (some data)]⟩, none⟩]⟩ }

section EachElement

variable {env : Environment} {name : String} {data element : Ty}
  (htarget : env.templates.get? name = some (eachElement name name))
  (hmeets : ∀ argument, argument = data ∨ argument = element →
    ∀ judge invocation, env.Meets (eachElement name name) argument judge invocation →
      invocation = ⟨name, element⟩)
include htarget hmeets

/-- A template that invokes itself on elements is walked through with the data or
with an element. -/
theorem eachElement_visits
    {budget : Nat} {stack : List Invocation} {walked : Tree} {argument : Ty}
    (hvisit : env.Visits (eachElement name name) data budget stack walked argument) :
    walked = eachElement name name ∧ (argument = data ∨ argument = element) := by
  induction hvisit with
  | entry => exact ⟨rfl, .inl rfl⟩
  | invoked hvisit hmet htarget' hnew ih =>
      obtain ⟨rfl, hargument⟩ := ih
      obtain rfl := hmeets _ hargument _ _ hmet
      exact ⟨Option.some.inj (htarget'.symm.trans htarget), .inr rfl⟩

theorem eachElement_encounters
    {invocation : Invocation}
    (hencounters : env.Encounters (eachElement name name) data invocation) :
    invocation = ⟨name, data⟩ ∨ invocation = ⟨name, element⟩ := by
  cases hencounters with
  | entry => exact .inl rfl
  | met hvisit hmet =>
      obtain ⟨rfl, hargument⟩ := eachElement_visits htarget hmeets hvisit
      exact .inr (hmeets _ hargument _ _ hmet)

end EachElement

/-- Templates for forests: one invokes itself, and one a template that is not
there. -/
def forestPages : Environment where
  types := ⟨[{ name := "Forest", definition := some ⟨.slice forest, []⟩ }]⟩
  templates := (TemplateSet.put .empty (eachElement "tree" "tree")).put
    (eachElement "lost" "missing")

/-- The data is a list of forests, and the arguments are forests. -/
theorem forestPages_encounters
    {invocation : Invocation}
    (hencounters : forestPages.Encounters (eachElement "tree" "tree")
      (.slice forest) invocation) :
    invocation = ⟨"tree", .slice forest⟩ ∨ invocation = ⟨"tree", forest⟩ := by
  refine eachElement_encounters rfl ?_ hencounters
  intro argument hargument judge invocation hmet
  apply eq_of_meets ?_ hmet
  intro judge
  rcases hargument with rfl | rfl
  · rfl
  · rfl

theorem forestPages_describesApart :
    forestPages.DescribesApart (eachElement "tree" "tree") (.slice forest) := by
  have hdifferent : forestPages.types.describe (.slice forest) ≠
      forestPages.types.describe forest := by decide
  intro first second hfirst hsecond hdescription
  rcases forestPages_encounters hfirst with rfl | rfl
  · rcases forestPages_encounters hsecond with rfl | rfl
    · rfl
    · exact absurd hdescription hdifferent
  · rcases forestPages_encounters hsecond with rfl | rfl
    · exact absurd hdescription.symm hdifferent
    · rfl

end Environment

end TemplateTyping
