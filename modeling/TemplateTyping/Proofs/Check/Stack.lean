import Mathlib.Data.List.Chain
import TemplateTyping.Proofs.Check.Blame
import TemplateTyping.Proofs.Check.Interpretation
import TemplateTyping.Proofs.Check.Nesting
import TemplateTyping.Proofs.Host.PointerChain

/-!
# The stack of active invocations

A check keeps a list of the invocations that are active.  Here this list is part of a state that
the walk changes: an invocation that becomes active is pushed, and popped when the walk through
its target is over, no matter how that ended.  The state also holds the calls of the walk that
have not returned, and all states that a check passes are kept.  How deeply invocations are nested
is bounded by fuel only.

The main statement is that this walk is disciplined.  In every state no invocation is active twice,
there are no more active ones than the limit allows, and the first one is that of the check itself.
Every call returns with the state in which it was made.  From one call to those inside of it, the
number of invocations that may still become active gets smaller, or it stays and the part of the
tree gets smaller; so the fuel never runs out, and the outcome is that of the check.
-/

namespace TemplateTyping

/-! ## States -/

/-- A call of the walk for a part, with the invocations that were active when it was made. -/
structure Frame where
  active : List ActiveCall
  part : Part

/-- The active invocations, where the last one is the innermost, and the calls that have not
returned, where the first one is the innermost. -/
structure Stack where
  active : List ActiveCall
  frames : List Frame

namespace Stack

/-- An invocation becomes active. -/
def push (call : ActiveCall) (stack : Stack) : Stack :=
  { stack with active := stack.active ++ [call] }

/-- The innermost invocation is no longer active. -/
def pop (stack : Stack) : Stack :=
  { stack with active := stack.active.dropLast }

/-- A call is made. -/
def enter (part : Part) (stack : Stack) : Stack :=
  { stack with frames := ⟨stack.active, part⟩ :: stack.frames }

/-- The innermost call returns. -/
def leave (stack : Stack) : Stack :=
  { stack with frames := stack.frames.tail }

theorem pop_push (call : ActiveCall) (stack : Stack) : (stack.push call).pop = stack := by
  simp [push, pop]

theorem leave_enter (part : Part) (stack : Stack) : (stack.enter part).leave = stack :=
  rfl

end Stack

/-- The state of a check, and those that it has passed. -/
structure History where
  now : Stack
  past : List Stack

namespace History

/-- All states up to now. -/
def states (history : History) : List Stack := history.now :: history.past

/-- Goes on to another state. -/
def pass (change : Stack → Stack) (history : History) : History :=
  ⟨change history.now, history.states⟩

end History

/-- Why a check does not come to its end. -/
inductive Interruption
  | fault (error : TypeError)
  | outOfFuel

/-- Checks that keep the active invocations in their state.  The state outlives a fault. -/
abbrev StackChecker := StateT Scope (ExceptT Interruption (StateM History))

namespace StackChecker

variable {α β : Type}

/-- A check that has nothing to do with the state. -/
def ofChecker (check : Checker α) : StackChecker α := fun scope history =>
  ((check scope).mapError .fault, history)

/-- Checks in a scope of its own. -/
def isolated (check : StackChecker α) : StackChecker α := fun scope history =>
  match check scope history with
  | (outcome, history) => (outcome.map fun result => (result.1, scope), history)

/-- Checks between two changes of the state.  The second one is made in any case. -/
def between (before after : Stack → Stack) (check : StackChecker α) : StackChecker α :=
  fun scope history =>
    match check scope (history.pass before) with
    | (outcome, history) => (outcome, history.pass after)

/-- Checks what is invoked with data of a type.  It has a scope of its own. -/
def inside (data : Ty) (check : StackChecker α) : StackChecker Unit := fun scope history =>
  match check (Scope.root data) history with
  | (outcome, history) => (outcome.map fun _ => ((), scope), history)

end StackChecker

/-! ## The walk on the stack -/

/-- The walk that marks its calls on the stack, given what is done for invocations. -/
def Interpretation.onStack (env : Environment)
    (invocation : Node → Invocation → StackChecker Unit) : Interpretation StackChecker where
  lift := .ofChecker
  isolated := .isolated
  invocation := invocation
  resolve := env.types.resolve env.package
  call part := .between (.enter part) .leave

namespace Environment

/-- The context of a walk on the stack, which does not ask the context for verdicts. -/
def stackContext (env : Environment) (tree : Tree) : Context :=
  env.context tree fun _ => .ok ()

/-- Checks an invocation at a node of a tree, given how to walk through its target and what is
active.  An active invocation is accepted; another one is pushed, unless there are too many. -/
def invocationAmong (env : Environment) (walkTarget : Tree → Ty → StackChecker (Option Ty))
    (active : List ActiveCall) (tree : Tree) (node : Node) (invocation : Invocation) :
    StackChecker Unit :=
  match env.templates.get? invocation.template with
  | none => throw (.fault ⟨tree, node, .templateNotFound invocation.template⟩)
  | some target =>
      if active.contains (env.call invocation) then return ()
      else if env.maxDepth < active.length then
        throw (.fault ⟨tree, node, .templateDepth invocation.template env.maxDepth⟩)
      else
        .between (.push (env.call invocation)) .pop
          (.inside invocation.argument (walkTarget target invocation.argument))

/-- Checks an invocation with what is active now. -/
def invocationBy (env : Environment) (walkTarget : Tree → Ty → StackChecker (Option Ty))
    (tree : Tree) (node : Node) (invocation : Invocation) : StackChecker Unit := do
  let history ← getThe History
  env.invocationAmong walkTarget history.now.active tree node invocation

/-- Checks an invocation at a node of a tree, with fuel for the nesting of invocations. -/
def invocationOnStack (env : Environment) :
    (fuel : Nat) → Tree → Node → Invocation → StackChecker Unit
  | 0 => env.invocationBy fun _ _ => throw .outOfFuel
  | fuel + 1 => env.invocationBy fun target argument =>
      (Interpretation.onStack env (env.invocationOnStack fuel target)).walkBody
        (env.stackContext target) argument target.root

/-- The walk on the stack through a tree, with fuel for the nesting of invocations. -/
def stackWalk (env : Environment) (fuel : Nat) (tree : Tree) : Interpretation StackChecker :=
  .onStack env (env.invocationOnStack fuel tree)

/-- Checks a tree on the stack, and gives the states that are passed. -/
def checkOnStack (env : Environment) (fuel : Nat) (tree : Tree) (data : Ty) :
    Except Interruption (Option Ty) × History :=
  match (env.stackWalk fuel tree).walkBody (env.stackContext tree) data tree.root
      (Scope.root data) ⟨⟨[env.activeCall tree.name data], []⟩, []⟩ with
  | (outcome, history) => (outcome.map Prod.fst, history)

end Environment

/-! ## Calls return with the stack they were made with -/

namespace StackChecker

variable {α β : Type}

/-- Whatever the outcome is, the state at the end is the one at the start. -/
def Restores (check : StackChecker α) : Prop :=
  ∀ scope history, (check scope history).2.now = history.now

theorem bind_of_ok {first : StackChecker α} {next : α → StackChecker β} {scope scope' : Scope}
    {history history' : History} {value : α}
    (h : first scope history = (.ok (value, scope'), history')) :
    (first >>= next) scope history = next value scope' history' := by
  change ExceptT.bindCont (m := StateM History) (fun result => next result.1 result.2)
    (first scope history).1 (first scope history).2 = _
  rw [h]
  rfl

theorem bind_of_error {first : StackChecker α} {next : α → StackChecker β} {scope : Scope}
    {history history' : History} {interruption : Interruption}
    (h : first scope history = (.error interruption, history')) :
    (first >>= next) scope history = (.error interruption, history') := by
  change ExceptT.bindCont (m := StateM History) (fun result => next result.1 result.2)
    (first scope history).1 (first scope history).2 = _
  rw [h]
  rfl

namespace Restores

theorem bind {first : StackChecker α} {next : α → StackChecker β} (hfirst : first.Restores)
    (hnext : ∀ value, (next value).Restores) : (first >>= next).Restores := by
  intro scope history
  have hnow := hfirst scope history
  rcases hrun : first scope history with ⟨outcome, history'⟩
  rw [hrun] at hnow
  cases outcome with
  | error interruption =>
      rw [bind_of_error hrun]
      exact hnow
  | ok result =>
      rw [bind_of_ok hrun]
      exact (hnext result.1 result.2 history').trans hnow

theorem between {before after : Stack → Stack} (hundo : ∀ stack, after (before stack) = stack)
    {check : StackChecker α} (hcheck : check.Restores) :
    (StackChecker.between before after check).Restores := by
  intro scope history
  change after (check scope (history.pass before)).2.now = history.now
  rw [hcheck]
  exact hundo history.now

theorem isolated {check : StackChecker α} (hcheck : check.Restores) :
    (StackChecker.isolated check).Restores :=
  hcheck

theorem inside (data : Ty) {check : StackChecker α} (hcheck : check.Restores) :
    (StackChecker.inside data check).Restores :=
  fun _ => hcheck (Scope.root data)

end Restores

end StackChecker

namespace Environment

variable {env : Environment}

theorem restores_invocationBy {walkTarget : Tree → Ty → StackChecker (Option Ty)}
    (hwalk : ∀ target argument, (walkTarget target argument).Restores)
    (tree : Tree) (node : Node) (invocation : Invocation) :
    (env.invocationBy walkTarget tree node invocation).Restores := by
  refine StackChecker.Restores.bind (fun _ _ => rfl) fun history => ?_
  unfold invocationAmong
  split
  · exact fun _ _ => rfl
  · split
    · exact fun _ _ => rfl
    · split
      · exact fun _ _ => rfl
      · exact ((hwalk _ _).inside _).between (Stack.pop_push _)

/-- If what is done for invocations restores the stack, so does the walk. -/
theorem restores_tracks {invocation : Node → Invocation → StackChecker Unit}
    (hinvocation : ∀ node asked, (invocation node asked).Restores) (tree : Tree) :
    (Interpretation.onStack env invocation).Tracks (env.stackContext tree) (fun _ => .ok ())
      (fun _ => True) fun _ check _ => check.Restores where
  part _ _ := trivial
  resolve _ _ _ _ := rfl
  pure _ _ _ := rfl
  bind := .bind
  lift _ _ _ := rfl
  isolated := .isolated
  invocation := hinvocation
  call _ hcheck := hcheck.between (Stack.leave_enter _)
  emptyPipe _ _ _ _ := rfl
  emptyCommand _ _ _ _ := rfl
  operand _ _ _ _ hwalked := hwalked.bind fun _ _ _ => rfl

theorem restores_invocationOnStack (fuel : Nat) (tree : Tree) (node : Node)
    (invocation : Invocation) : (env.invocationOnStack fuel tree node invocation).Restores := by
  induction fuel generalizing tree node invocation with
  | zero => exact restores_invocationBy (fun _ _ _ _ => rfl) tree node invocation
  | succ fuel ih =>
      refine restores_invocationBy (fun target argument => ?_) tree node invocation
      exact (restores_tracks (ih target) target).walkBody argument target.root
        (Nat.lt_succ_self _) trivial

end Environment

/-! ## Discipline -/

/-- What gets smaller from a call to those inside of it: the number of invocations that may still
become active, and then the size of the part. -/
noncomputable def Frame.measure (limit : Nat) (frame : Frame) : Nat × Nat :=
  (limit + 1 - frame.active.length, frame.part.size)

namespace Stack

/-- A state as it should be, given the limit for nesting and the first invocation. -/
structure IsDisciplined (limit : Nat) (entry : ActiveCall) (stack : Stack) : Prop where
  nodup : stack.active.Nodup
  length_le : stack.active.length ≤ limit + 1
  first : stack.active.head? = some entry
  decreasing : stack.frames.IsChain fun inner outer =>
    Prod.Lex (· < ·) (· < ·) (inner.measure limit) (outer.measure limit)

/-- Calls for all parts below a size may be made inside of the innermost call. -/
def Admits (bound : Nat) (stack : Stack) : Prop :=
  ∀ frame ∈ stack.frames.head?, frame.active.length < stack.active.length ∨
    frame.active.length = stack.active.length ∧ bound ≤ frame.part.size

variable {limit bound : Nat} {entry : ActiveCall} {stack : Stack}

theorem IsDisciplined.enter (h : stack.IsDisciplined limit entry) (hadmits : stack.Admits bound)
    {part : Part} (hpart : part.size < bound) : (stack.enter part).IsDisciplined limit entry where
  nodup := h.nodup
  length_le := h.length_le
  first := h.first
  decreasing := by
    refine List.isChain_cons.mpr ⟨fun outer houter => ?_, h.decreasing⟩
    have hlength := h.length_le
    rcases hadmits outer houter with hless | ⟨hsame, hsize⟩
    · have hfewer : limit + 1 - stack.active.length < limit + 1 - outer.active.length := by omega
      exact .left _ _ hfewer
    · rw [Frame.measure, Frame.measure, hsame]
      exact .right _ (Nat.lt_of_lt_of_le hpart hsize)

theorem IsDisciplined.push (h : stack.IsDisciplined limit entry) {call : ActiveCall}
    (hnew : call ∉ stack.active) (hroom : stack.active.length ≤ limit) :
    (stack.push call).IsDisciplined limit entry where
  nodup := List.nodup_append.mpr ⟨h.nodup, List.nodup_singleton call, by grind⟩
  length_le := by simpa [Stack.push] using hroom
  first := by simp [Stack.push, List.head?_append, h.first]
  decreasing := h.decreasing

/-- The innermost call admits every call for a part of its own part. -/
theorem admits_enter (part : Part) (stack : Stack) : (stack.enter part).Admits part.size := by
  rintro frame ⟨⟩
  exact .inr ⟨rfl, Nat.le_refl _⟩

/-- Where one more invocation is active, the part may be of any size. -/
theorem Admits.push (h : stack.Admits bound) (call : ActiveCall) (size : Nat) :
    (stack.push call).Admits size := by
  intro frame hframe
  left
  have hactive := h frame hframe
  simp only [Stack.push, List.length_append, List.length_singleton]
  omega

end Stack

/-- All states are disciplined. -/
def History.IsDisciplined (limit : Nat) (entry : ActiveCall) (history : History) : Prop :=
  ∀ stack ∈ history.states, stack.IsDisciplined limit entry

/-! ## The walk on the stack follows the check -/

theorem Except.map_mapError {ε ε' α β : Type} (f : ε → ε') (g : α → β) (outcome : Except ε α) :
    (outcome.mapError f).map g = (outcome.map g).mapError f := by
  cases outcome with
  | error error => rfl
  | ok value => rfl

namespace StackChecker

variable {α β : Type}

/-- What was begun in a state has come to an outcome in the same state, and has passed disciplined
states only. -/
def Returns (limit : Nat) (entry : ActiveCall) (now : Stack) (outcome : Except Interruption α)
    (result : Except Interruption α × History) : Prop :=
  ∃ past, result = (outcome, ⟨now, past⟩) ∧ History.IsDisciplined limit entry ⟨now, past⟩

/-- Where certain invocations are active and parts below a size may be gone through, the check on
the stack has the outcome of another one. -/
def Follows (limit : Nat) (entry : ActiveCall) (active : List ActiveCall) (bound : Nat)
    (check : StackChecker α) (check' : Checker α) : Prop :=
  ∀ scope history, history.now.active = active → history.now.Admits bound →
    history.IsDisciplined limit entry →
      Returns limit entry history.now ((check' scope).mapError .fault) (check scope history)

variable {limit bound : Nat} {entry : ActiveCall} {active : List ActiveCall}

theorem Returns.between {before after : Stack → Stack} {check : StackChecker α} {scope : Scope}
    {history : History} {outcome : Except Interruption (α × Scope)}
    (hhistory : history.IsDisciplined limit entry)
    (hundo : ∀ stack, after (before stack) = stack)
    (h : Returns limit entry (before history.now) outcome (check scope (history.pass before))) :
    Returns limit entry history.now outcome
      (StackChecker.between before after check scope history) := by
  obtain ⟨past, hrun, hpast⟩ := h
  refine ⟨before history.now :: past, ?_, ?_⟩
  · unfold StackChecker.between
    rw [hrun]
    simp only [History.pass, History.states, hundo]
  · exact List.forall_mem_cons.mpr ⟨hhistory _ List.mem_cons_self, hpast⟩

namespace Follows

theorem ofChecker (check : Checker α) :
    Follows limit entry active bound (StackChecker.ofChecker check) check :=
  fun _ history _ _ hhistory => ⟨history.past, rfl, hhistory⟩

theorem bind {first : StackChecker α} {first' : Checker α} {next : α → StackChecker β}
    {next' : α → Checker β} (hfirst : Follows limit entry active bound first first')
    (hnext : ∀ value, Follows limit entry active bound (next value) (next' value)) :
    Follows limit entry active bound (first >>= next) (first' >>= next') := by
  intro scope history hactive hadmits hhistory
  obtain ⟨past, hrun, hpast⟩ := hfirst scope history hactive hadmits hhistory
  change Returns limit entry history.now
    ((first' scope >>= fun result => next' result.1 result.2).mapError .fault) _
  cases houtcome : first' scope with
  | error error =>
      rw [houtcome] at hrun
      exact ⟨past, bind_of_error hrun, hpast⟩
  | ok result =>
      rw [houtcome] at hrun
      rw [bind_of_ok hrun]
      exact hnext result.1 result.2 ⟨history.now, past⟩ hactive hadmits hpast

theorem isolated {check : StackChecker α} {check' : Checker α}
    (hcheck : Follows limit entry active bound check check') :
    Follows limit entry active bound (StackChecker.isolated check) (Checker.isolated check') := by
  intro scope history hactive hadmits hhistory
  obtain ⟨past, hrun, hpast⟩ := hcheck scope history hactive hadmits hhistory
  refine ⟨past, ?_, hpast⟩
  unfold StackChecker.isolated Checker.isolated
  rw [hrun]
  cases check' scope with
  | error error => rfl
  | ok result => rfl

/-- A call inside of another one may be made if its part is smaller. -/
theorem call {part : Part} {check : StackChecker α} {check' : Checker α}
    (hpart : part.size < bound) (hcheck : Follows limit entry active part.size check check') :
    Follows limit entry active bound
      (StackChecker.between (.enter part) .leave check) check' := by
  intro scope history hactive hadmits hhistory
  refine .between hhistory (Stack.leave_enter part) ?_
  refine hcheck scope (history.pass (.enter part)) hactive (Stack.admits_enter part _) ?_
  exact List.forall_mem_cons.mpr
    ⟨(hhistory _ List.mem_cons_self).enter hadmits hpart, hhistory⟩

end Follows

end StackChecker

namespace Environment

open StackChecker (Follows Returns)

variable {env : Environment} {entry : ActiveCall}

/-- If what is done for invocations follows a judge, so does the walk. -/
theorem follows_tracks {limit : Nat} {active : List ActiveCall} {tree : Tree} {judge : Judge}
    {invocation : Node → Invocation → StackChecker Unit}
    (hinvocation : ∀ bound node asked, Follows limit entry active bound (invocation node asked)
      ((env.context tree judge).invocation node asked)) :
    (Interpretation.onStack env invocation).Tracks (env.stackContext tree) judge
      (fun _ => True) (Follows limit entry active) where
  part _ _ := trivial
  resolve _ _ _ _ := rfl
  pure value := .ofChecker (pure value)
  bind := .bind
  lift := .ofChecker
  isolated := .isolated
  invocation := hinvocation _
  call := .call
  emptyPipe _ _ := .ofChecker (pure nilType)
  emptyCommand _ _ := .ofChecker (pure nilType)
  operand _ _ _ _ hwalked := hwalked.bind fun found => .ofChecker (pure (found.getD nilType))

theorem walkTree_eq_map (tree : Tree) (data : Ty) (judge : Judge) :
    env.walkTree tree data judge = ((env.context tree judge).walkBody data tree.root
      (Scope.root data)).map Prod.fst :=
  rfl

/-- What comes of the walk through its target is the verdict on an invocation. -/
theorem inside_apply {walkTarget : StackChecker (Option Ty)} {tree target : Tree} {judge : Judge}
    {invoke : Judge} {invocation : Invocation} {history history' : History}
    (hinvoke : invoke invocation = verdictOf (env.walkTree target invocation.argument judge))
    (hrun : walkTarget (Scope.root invocation.argument) history =
      (((env.context target judge).walkBody invocation.argument target.root
        (Scope.root invocation.argument)).mapError .fault, history'))
    (node : Node) (scope : Scope) :
    StackChecker.inside invocation.argument walkTarget scope history =
      (((env.context tree invoke).invocation node invocation scope).mapError .fault, history') := by
  have hverdict : (env.context tree invoke).invoke invocation =
      verdictOf (env.walkTree target invocation.argument judge) := hinvoke
  rw [walkTree_eq_map] at hverdict
  unfold StackChecker.inside Context.invocation
  rw [hrun, hverdict]
  cases (env.context target judge).walkBody invocation.argument target.root
    (Scope.root invocation.argument) with
  | error error => rfl
  | ok result => rfl

/-- What is done for an invocation follows the judge who may nest as many as the limit leaves, if
the walk through the target does with one more active. -/
theorem follows_invocationBy
    {walkTarget : Tree → Ty → StackChecker (Option Ty)} {budget : Nat} {active : List ActiveCall}
    (hbudget : active.length + budget = env.maxDepth + 1)
    (hwalk : ∀ rest, budget = rest + 1 → ∀ call target argument,
      Follows env.maxDepth entry (active ++ [call]) (sizeOf target.root + 1)
        (walkTarget target argument)
        ((env.context target (env.judge rest (active ++ [call]))).walkBody argument target.root))
    (bound : Nat) (tree : Tree) (node : Node) (invocation : Invocation) :
    Follows env.maxDepth entry active bound (env.invocationBy walkTarget tree node invocation)
      ((env.context tree (env.judge budget active)).invocation node invocation) := by
  intro scope history hactive hadmits hhistory
  change Returns _ _ _ _
    (env.invocationAmong walkTarget history.now.active tree node invocation scope history)
  rw [hactive]
  unfold invocationAmong
  have hasked : ∀ {verdict}, env.judge budget active invocation = verdict →
      (env.context tree (env.judge budget active)).invoke invocation = verdict := id
  cases htarget : env.templates.get? invocation.template with
  | none =>
      rw [Context.invocation, hasked (judge_of_missing htarget)]
      exact ⟨history.past, rfl, hhistory⟩
  | some target =>
      by_cases hcall : env.call invocation ∈ active
      · rw [Context.invocation, hasked (judge_of_active htarget hcall)]
        simp only [List.contains_iff_mem, hcall, if_true]
        exact ⟨history.past, rfl, hhistory⟩
      · simp only [List.contains_iff_mem, hcall, if_false]
        cases budget with
        | zero =>
            rw [Context.invocation, hasked (judge_zero htarget hcall), if_pos (by omega)]
            exact ⟨history.past, rfl, hhistory⟩
        | succ rest =>
            have hroom : active.length ≤ env.maxDepth := by omega
            rw [if_neg (Nat.not_lt.mpr hroom)]
            refine .between hhistory (Stack.pop_push _) ?_
            have hpushed := (hhistory _ List.mem_cons_self).push (hactive ▸ hcall) (hactive ▸ hroom)
            obtain ⟨past, hrun, hpast⟩ := hwalk rest rfl (env.call invocation) target
              invocation.argument (Scope.root invocation.argument)
              (history.pass (.push (env.call invocation))) (by rw [← hactive]; rfl)
              (hadmits.push _ _) (List.forall_mem_cons.mpr ⟨hpushed, hhistory⟩)
            exact ⟨past, inside_apply (judge_succ htarget hcall) hrun node scope, hpast⟩

theorem follows_invocationOnStack (entry : ActiveCall) {budget fuel : Nat} (hfuel : budget ≤ fuel)
    {active : List ActiveCall} (hbudget : active.length + budget = env.maxDepth + 1)
    (bound : Nat) (tree : Tree) (node : Node) (invocation : Invocation) :
    Follows env.maxDepth entry active bound (env.invocationOnStack fuel tree node invocation)
      ((env.context tree (env.judge budget active)).invocation node invocation) := by
  induction budget generalizing fuel active bound tree node invocation with
  | zero =>
      -- Nothing may be nested, so that it does not matter how targets are walked through.
      cases fuel with
      | zero =>
          refine follows_invocationBy hbudget (fun rest hrest => ?_) bound tree node invocation
          cases hrest
      | succ fuel =>
          refine follows_invocationBy hbudget (fun rest hrest => ?_) bound tree node invocation
          cases hrest
  | succ budget ih =>
      obtain ⟨fuel, rfl⟩ : ∃ rest, fuel = rest + 1 := ⟨fuel - 1, by omega⟩
      refine follows_invocationBy hbudget (fun rest hrest call target argument => ?_)
        bound tree node invocation
      obtain rfl : budget = rest := by omega
      have hpushed : (active ++ [call]).length + budget = env.maxDepth + 1 := by
        rw [List.length_append, List.length_singleton]
        omega
      have htracks := follows_tracks fun bound =>
        ih (Nat.le_of_succ_le_succ hfuel) hpushed bound target
      exact htracks.walkBody argument target.root (Nat.lt_succ_self _) trivial

/-- With fuel for as many invocations as the limit allows, the check on the stack has the outcome of
the check, ends in the state it started in, and passes disciplined states only. -/
theorem returns_checkOnStack (tree : Tree) (data : Ty) {fuel : Nat} (hfuel : env.maxDepth ≤ fuel) :
    Returns env.maxDepth (env.activeCall tree.name data) ⟨[env.activeCall tree.name data], []⟩
      ((env.check tree data).mapError .fault) (env.checkOnStack fuel tree data) := by
  let entry := env.activeCall tree.name data
  have hstart : Stack.IsDisciplined env.maxDepth entry ⟨[entry], []⟩ :=
    ⟨List.nodup_singleton entry, Nat.le_add_left 1 env.maxDepth, rfl, .nil⟩
  have hbudget : [entry].length + env.maxDepth = env.maxDepth + 1 := Nat.add_comm 1 _
  have htracks := follows_tracks fun bound =>
    follows_invocationOnStack entry hfuel hbudget bound tree
  obtain ⟨past, hrun, hpast⟩ := htracks.walkBody data tree.root (Nat.lt_succ_self _) trivial
    (Scope.root data) ⟨⟨[entry], []⟩, []⟩ rfl (fun _ hframe => by cases hframe)
    (List.forall_mem_singleton.mpr hstart)
  refine ⟨past, ?_, hpast⟩
  unfold checkOnStack stackWalk check
  rw [hrun, walkTree_eq_map, ← Except.map_mapError]
  rfl

end Environment

/-! ## Pointers without end -/

/-- The fault is that pointers have no end. -/
def Cause.IsEndless (cause : Cause) : Prop :=
  ∃ type, cause = .endlessPointer type

/-- A walk finds pointers without end only if a good type has them. -/
theorem Cause.IsOwn.exists_circle {u : Universe} {good : Ty → Prop} {cause : Cause}
    (h : cause.IsOwn u good) (hendless : cause.IsEndless) : ∃ ty, good ty ∧ u.RunsInCircle ty := by
  obtain ⟨type, rfl⟩ := hendless
  rcases h with (hshapes | ⟨ty, hgood, hnone, -⟩) | ⟨name, hname⟩
  · cases hshapes
  · exact ⟨ty, hgood, Universe.runsInCircle_of_pointerTarget? hnone⟩
  · cases hname

namespace Environment

variable {env : Environment}

theorem judge_endless (data : Ty) (budget : Nat) (active : List ActiveCall) :
    Judge.RefusesFor
      (fun cause => cause.IsEndless → ∃ ty ∈ env.reachable data, env.types.RunsInCircle ty)
      (· ∈ env.reachable data) (env.judge budget active) := by
  induction budget generalizing active with
  | zero =>
      rintro invocation refusal - hjudge
      obtain ⟨-, rfl⟩ | ⟨target, -, -, ⟨-, rfl⟩ | ⟨rest, error, hrest, -⟩⟩ := judge_eq_error hjudge
      · rintro ⟨type, htype⟩
        cases htype
      · rintro ⟨type, htype⟩
        cases htype
      · cases hrest
  | succ budget ih =>
      intro invocation refusal hargument hjudge
      obtain ⟨-, rfl⟩ | ⟨target, -, -, ⟨hzero, -⟩ | ⟨rest, error, hrest, rfl, hwalk⟩⟩ :=
        judge_eq_error hjudge
      · rintro ⟨type, htype⟩
        cases htype
      · cases hzero
      · cases hrest
        exact walkTree_fault (env.types.closed_reach _) functions_madeOf_reachable
          Cause.IsOwn.exists_circle (ih _) hargument hwalk

/-- A check reports pointers without end only if a type that it can come to has them. -/
theorem check_endless {tree : Tree} {data : Ty} {error : TypeError}
    (herror : env.check tree data = .error error) (hendless : error.cause.IsEndless) :
    ∃ ty ∈ env.reachable data, env.types.RunsInCircle ty :=
  walkTree_fault (env.types.closed_reach _) functions_madeOf_reachable
    Cause.IsOwn.exists_circle (judge_endless data _ _) data_mem_reachable herror hendless

/-- The stack of active invocations is disciplined.  With fuel for as many nested invocations as the
limit allows, every state that a check passes is disciplined; its outcome is that of the check, so
that the fuel does not run out.  Every call of the walk returns with the state that it was made in,
with any fuel, in any state, and no matter how it ends.  And if the pointers of all types that the
check can come to have an end, they are never followed without end. -/
theorem stack_disciplined (env : Environment) (tree : Tree) (data : Ty) :
    (∀ fuel, env.maxDepth ≤ fuel →
      (env.checkOnStack fuel tree data).1 = (env.check tree data).mapError .fault ∧
      ∀ stack ∈ (env.checkOnStack fuel tree data).2.states,
        stack.IsDisciplined env.maxDepth (env.activeCall tree.name data)) ∧
    (∀ fuel walked dot,
      let I := env.stackWalk fuel walked
      let ctx := env.stackContext walked
      (∀ node operands passed,
        (I.walk ctx dot ⟨operands, I.checkOperands ctx dot operands, passed⟩ node).Restores) ∧
      (∀ body, (I.walkBody ctx dot body).Restores) ∧
      (∀ pipe, (I.checkPipe ctx dot pipe).Restores) ∧
      ∀ span name argument, (I.checkTemplate ctx dot span name argument).Restores) ∧
    ((∀ ty ∈ env.reachable data, ∃ target, env.types.EndsAt ty target) →
      ∀ error type, env.check tree data = .error error → error.cause ≠ .endlessPointer type) := by
  refine ⟨?_, ?_, ?_⟩
  · intro fuel hfuel
    obtain ⟨past, hrun, hpast⟩ := env.returns_checkOnStack tree data hfuel
    rw [hrun]
    exact ⟨rfl, hpast⟩
  · intro fuel walked dot I ctx
    have htracks := env.restores_tracks (env.restores_invocationOnStack fuel walked) walked
    refine ⟨?_, ?_, ?_, ?_⟩
    · intro node operands passed
      have htypes := htracks.checkOperands dot operands (sizeOf_cons node operands).2
        (.command ⟨⟨0, 0⟩, operands⟩) trivial fun _ hmem => hmem
      exact htracks.walk dot ⟨operands, I.checkOperands ctx dot operands, passed⟩
        (ctx.checkOperands dot operands) node (Nat.lt_succ_self _) htypes trivial
    · intro body
      exact htracks.walkBody dot body (Nat.lt_succ_self _) trivial
    · intro pipe
      exact htracks.checkPipe dot pipe (Nat.lt_succ_self _) trivial
    · intro span name argument
      exact htracks.checkTemplate dot span name argument (Nat.lt_succ_self _) trivial
  · intro hends error type herror hcause
    obtain ⟨ty, hty, hcircle⟩ := check_endless herror ⟨type, hcause⟩
    obtain ⟨target, htarget⟩ := hends ty hty
    exact htarget.not_runsInCircle hcircle

/-- Two pages that invoke each other, where the second one also invokes a note. -/
def turningPages : String :=
  "\x7b\x7btemplate \"back\" .\x7d\x7d\x7b\x7bdefine \"back\"\x7d\x7d" ++
    "\x7b\x7btemplate \"page\" .\x7d\x7d\x7b\x7btemplate \"note\" .\x7d\x7d\x7b\x7bend\x7d\x7d" ++
      "\x7b\x7bdefine \"note\"\x7d\x7dNote\x7b\x7bend\x7d\x7d"

/-- The environment with these pages, where one invocation may be nested. -/
def turningEnvironment (pages : TemplateSet) : Environment :=
  { types := ⟨[]⟩, templates := pages, maxDepth := 1 }

/-- The stack is full when the note is invoked, and it is restored after the fault. -/
theorem stack_disciplined_turning :
    ∃ pages page error, TemplateSet.parse .standard "page" turningPages = .ok pages ∧
      pages.get? "page" = some page ∧ error.cause = .templateDepth "note" 1 ∧
      let run := (turningEnvironment pages).checkOnStack 1 page (.basic .int)
      run.1 = .error (.fault error) ∧ run.2.now = ⟨[("page", "int")], []⟩ ∧
      (∃ stack ∈ run.2.states, stack.active = [("page", "int"), ("back", "int")]) ∧
      (∀ stack ∈ run.2.states, stack.IsDisciplined 1 ("page", "int")) ∧
      (∀ ty ∈ (turningEnvironment pages).reachable (.basic .int),
        ∃ target, Universe.EndsAt ⟨[]⟩ ty target) ∧
      ∀ type, error.cause ≠ .endlessPointer type := by
  have hruns : (TemplateSet.parse .standard "page" turningPages).toOption.any (fun pages =>
      (pages.get? "page").any fun page => decide (page.name = "page") &&
        (fault? ((turningEnvironment pages).check page (.basic .int))).any
          (fun error => decide (error.cause = .templateDepth "note" 1)) &&
        ((turningEnvironment pages).checkOnStack 1 page (.basic .int)).2.states.any fun stack =>
          decide (stack.active = [("page", "int"), ("back", "int")])) = true := by
    decide +kernel
  have hends : ((turningEnvironment .empty).reachable (.basic .int)).all
      (fun ty => (Universe.pointerTarget? ⟨[]⟩ ty).isSome) = true := by
    decide +kernel
  obtain ⟨pages, hpages, hruns⟩ := (Option.any_eq_true _ _).mp hruns
  obtain ⟨page, hpage, hruns⟩ := (Option.any_eq_true _ _).mp hruns
  obtain ⟨hruns, hfull⟩ := Bool.and_eq_true_iff.mp hruns
  obtain ⟨hname, hruns⟩ := Bool.and_eq_true_iff.mp hruns
  obtain ⟨error, herror, hcause⟩ := (Option.any_eq_true _ _).mp hruns
  obtain ⟨stack, hstack, hactive⟩ := List.any_eq_true.mp hfull
  have herror := eq_error_of_fault? herror
  have hentry :
      (turningEnvironment pages).activeCall page.name (.basic .int) = ("page", "int") := by
    rw [of_decide_eq_true hname]
    rfl
  have hends (ty : Ty) (hty : ty ∈ (turningEnvironment pages).reachable (.basic .int)) :
      ∃ target, Universe.EndsAt ⟨[]⟩ ty target :=
    (Option.isSome_iff_exists.mp (List.all_eq_true.mp hends ty hty)).imp fun _ =>
      Universe.endsAt_of_followPointers
  obtain ⟨hstates, hrestores, hpointers⟩ :=
    stack_disciplined (turningEnvironment pages) page (.basic .int)
  obtain ⟨houtcome, hdisciplined⟩ := hstates 1 (Nat.le_refl 1)
  have hnow := (hrestores 1 page (.basic .int)).2.1 page.root (Scope.root (.basic .int))
    ⟨⟨[(turningEnvironment pages).activeCall page.name (.basic .int)], []⟩, []⟩
  rw [hentry] at hdisciplined
  rw [herror] at houtcome
  exact ⟨pages, page, error, Except.eq_ok_of_toOption hpages, hpage, of_decide_eq_true hcause,
    houtcome, hnow.trans (by rw [hentry]), ⟨stack, hstack, of_decide_eq_true hactive⟩,
    hdisciplined, hends, fun type => hpointers hends error type herror⟩

end Environment

end TemplateTyping
