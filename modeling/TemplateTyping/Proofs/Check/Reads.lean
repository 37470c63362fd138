import TemplateTyping.Proofs.Check.Visit

/-!
# What a walk reads of its scope

A walk gets the types of variables from its scope.  It reads the variables that stand in the
node: from two scopes that agree on their names it comes to the same, and the scopes agree on
them afterwards.  A template that is invoked starts with a scope of its own, so it sees nothing
of the scope of its caller.
-/

namespace TemplateTyping

/-- A variable of the name stands somewhere in the node, to be read or to be set. -/
def Node.Mentions (node : Node) (name : String) : Prop :=
  ∃ inRange v, node.Holds inRange (.variable v) ∧ v.name = name

theorem Node.Mentions.variable (v : Variable) : (Node.variable v).Mentions v.name :=
  ⟨false, v, .refl, rfl⟩

/-- What a part mentions is mentioned in the node. -/
theorem Node.Mentions.of_part
    {node part : Node} {name : String} (h : part.Mentions name)
    (hpart : part ∈ node.parts.map Prod.snd) : node.Mentions name := by
  obtain ⟨inRange, v, hholds, hname⟩ := h
  obtain ⟨⟨enters, _⟩, hmem, rfl⟩ := List.mem_map.mp hpart
  exact ⟨_, v, hholds.of_mem_parts hmem, hname⟩

/-- The scopes set each of these names to one type, or neither of them sets it. -/
def Scope.AgreesOn (names : String → Prop) (first second : Scope) : Prop :=
  ∀ name, names name → first.get? name = second.get? name

/-- Scopes that agree do so after a variable has been set in both. -/
theorem Scope.AgreesOn.insert
    {names : String → Prop} {first second : Scope} (h : first.AgreesOn names second)
    (name : String) (ty : Ty) :
    Scope.AgreesOn names (first.insert name ty) (second.insert name ty) := by
  intro other hother
  rw [NameMap.get?_insert, NameMap.get?_insert, h other hother]

theorem Context.variableType_apply
    (ctx : Context) (node : Node) (name : String) (scope : Scope) :
    ctx.variableType node name scope =
      (scope.get? name).elim (.error ⟨ctx.tree, node, .undefinedVariable name⟩)
        fun ty => .ok (ty, scope) := by
  simp only [variableType, bind, StateT.bind, get, getThe, MonadStateOf.get, StateT.get]
  simp only [Pure.pure, Except.pure, Except.bind]
  cases scope.get? name with
  | none => rfl
  | some ty => rfl

namespace Checker

/-- Two runs come to the same: to one value, with scopes that agree, or to one fault. -/
inductive SameOutcome {α : Type} (names : String → Prop) :
    Except TypeError (α × Scope) → Except TypeError (α × Scope) → Prop
  | ok {value : α} {first second : Scope} :
      Scope.AgreesOn names first second →
        SameOutcome names (.ok (value, first)) (.ok (value, second))
  | error {error : TypeError} : SameOutcome names (.error error) (.error error)

/-- A run that comes to the same as a faulty one has the same fault. -/
theorem SameOutcome.eq_error
    {α : Type} {names : String → Prop} {run : Except TypeError (α × Scope)} {error : TypeError}
    (h : SameOutcome names run (.error error)) : run = .error error := by
  cases h
  rfl

/-- What the check comes to depends on these names alone, as far as variables go. -/
def ReadsOnly {α : Type} (names : String → Prop) (check : Checker α) : Prop :=
  ∀ first second, Scope.AgreesOn names first second →
    SameOutcome names (check first) (check second)

namespace ReadsOnly

variable {α β : Type} {names : String → Prop}

theorem pure {value : α} : ReadsOnly names (Pure.pure value) :=
  fun _ _ hagree => .ok hagree

theorem throw {error : TypeError} : ReadsOnly (α := α) names (throw error) :=
  fun _ _ _ => .error

theorem bind {check : Checker α} {next : α → Checker β}
    (hcheck : ReadsOnly names check) (hnext : ∀ value, ReadsOnly names (next value)) :
    ReadsOnly names (check >>= next) := by
  intro first second hagree
  have hsame := hcheck first second hagree
  change SameOutcome names (check first >>= fun result => next result.1 result.2)
    (check second >>= fun result => next result.1 result.2)
  generalize check first = run at hsame
  generalize check second = other at hsame
  cases hsame with
  | ok hagree' => exact hnext _ _ _ hagree'
  | error => exact .error

/-- What is set inside is forgotten in both runs. -/
theorem isolated {check : Checker α} (hcheck : ReadsOnly names check) :
    ReadsOnly names (Checker.isolated check) := by
  intro first second hagree
  have hsame := hcheck first second hagree
  unfold Checker.isolated
  generalize check first = run at hsame
  generalize check second = other at hsame
  cases hsame with
  | ok _ => exact .ok hagree
  | error => exact .error

theorem located (ctx : Context) (node : Node) (verdict : Except Cause α) :
    ReadsOnly names (ctx.located node verdict) := by
  cases verdict with
  | error cause => exact throw
  | ok value => exact pure

theorem variableType (ctx : Context) (node : Node) {name : String} (hname : names name) :
    ReadsOnly names (ctx.variableType node name) := by
  intro first second hagree
  rw [Context.variableType_apply, Context.variableType_apply, ← hagree name hname]
  cases first.get? name with
  | none => exact .error
  | some ty => exact .ok hagree

theorem setVariable
    (ctx : Context) {v : Variable} (hname : names v.name) (isAssign : Bool) (ty : Ty) :
    ReadsOnly names (ctx.setVariable v isAssign ty) := by
  have hmodify : ReadsOnly names (modify (·.insert v.name ty) : Checker Unit) :=
    fun _ _ hagree => .ok (hagree.insert v.name ty)
  cases isAssign with
  | false => exact hmodify
  | true => exact (variableType ctx _ hname).bind fun _ => hmodify

theorem invocation (ctx : Context) (node : Node) (invocation : Invocation) :
    ReadsOnly names (ctx.invocation node invocation) := by
  unfold Context.invocation
  split
  · exact pure
  · exact throw
  · exact throw

end ReadsOnly

end Checker

/-- Reading these names alone, as a property of walks through nodes that mention no other. -/
def readingProperty (names : String → Prop) : WalkProperty Unit where
  good _ := True
  reached node := ∀ name, node.Mentions name → names name
  agree _ := True
  holds check := (check ()).ReadsOnly names
  basic _ := trivial
  part hnode hpart name hname := hnode name (hname.of_part hpart)
  accept _ := trivial
  refuse _ := trivial
  pure _ := .pure
  bind hcheck hnext := hcheck.bind fun value => hnext value fun _ _ => trivial
  isolated := .isolated

theorem readingProperty_respected (ctx : Context) (names : String → Prop) :
    (readingProperty names).Respected fun _ => ctx where
  located _ _ := .located ctx _ _
  variableType hv := .variableType ctx _ (hv _ (.variable _))
  setVariable isAssign hv _ := .setVariable ctx (hv _ (.variable _)) isAssign _
  invocation _ _ := .invocation ctx _ _
  resolve _ _ := trivial
  arguments _ _ _ := trivial
  call _ _ _ := trivial
  iteration _ _ := trivial
  rangeVariables _ := trivial
  concrete _ := .pure

/-- A walk reads the variables that stand in the node. -/
theorem Context.walk_readsOnly (ctx : Context) (dot : Ty) (passed : Option Ty) (node : Node) :
    (ctx.walk dot { passed } node).ReadsOnly node.Mentions := by
  have hnone : (readingProperty node.Mentions).holds fun _ => (pure [] : Checker (List Ty)) :=
    Checker.ReadsOnly.pure
  exact (readingProperty_respected ctx node.Mentions).walk hnone trivial []
    (fun _ _ => trivial) node fun _ hname => hname

/-- An invocation follows after its argument. -/
theorem Context.walk_template
    {ctx : Context} {dot ty : Ty} {argument : Option (Pipe Node)} {scope after : Scope}
    (h : ctx.checkArgument dot argument scope = .ok (ty, after))
    (args : Arguments) (span : Span) (name : String) :
    ctx.walk dot args (.template span name argument) scope =
      (do
        ctx.invocation (.template span name argument) ⟨name, ty⟩
        return none : Checker (Option Ty)) after := by
  simp only [walk]
  change (ctx.checkArgument dot argument scope).bind _ = _
  rw [h]
  rfl

namespace Environment

/-- The context of a walk while `active` calls are being checked and `budget` further ones may
be nested. -/
def contextDuring (env : Environment) (tree : Tree) (budget : Nat) (active : List ActiveCall) :
    Context :=
  env.context tree (env.judge budget active)

/-- Variables are read lexically.  From two scopes that agree on the variables that stand in
the node, a walk comes to the same type or to the same fault, and to scopes that agree on them.
An invoked template sees none of the variables of its caller: if its argument has the same type
from two scopes, however these differ, the invocation comes to the same. -/
theorem walk_sameOutcome_of_agreesOn
    (env : Environment) (tree : Tree) (budget : Nat) (active : List ActiveCall)
    (dot : Ty) (passed : Option Ty) :
    (∀ node first second, Scope.AgreesOn node.Mentions first second →
      Checker.SameOutcome node.Mentions
        ((env.contextDuring tree budget active).walk dot { passed } node first)
        ((env.contextDuring tree budget active).walk dot { passed } node second)) ∧
    ∀ span name argument ty first second first' second',
      (env.contextDuring tree budget active).checkArgument dot argument first =
        .ok (ty, first') →
      (env.contextDuring tree budget active).checkArgument dot argument second =
        .ok (ty, second') →
      Checker.SameOutcome (fun _ => False)
        ((env.contextDuring tree budget active).walk dot { passed }
          (.template span name argument) first)
        ((env.contextDuring tree budget active).walk dot { passed }
          (.template span name argument) second) := by
  constructor
  · intro node first second hagree
    exact Context.walk_readsOnly _ dot passed node first second hagree
  · intro span name argument ty first second first' second' hfirst hsecond
    rw [Context.walk_template hfirst, Context.walk_template hsecond]
    have hreads : Checker.ReadsOnly (fun _ => False) (do
        (env.contextDuring tree budget active).invocation (.template span name argument)
          ⟨name, ty⟩
        return none : Checker (Option Ty)) :=
      .bind (.invocation _ _ _) fun _ => .pure
    exact hreads first' second' fun _ hnone => hnone.elim

/-- A variable without a path. -/
def plainVariable (name : String) : Variable := ⟨.origin, [name]⟩

/-- Sets a variable to the type of another one. -/
def passedPipe : Pipe Node where
  span := .origin
  declared := [plainVariable "$x"]
  commands := [⟨.origin, [.variable (plainVariable "$y")]⟩]

/-- Passes a variable on to a template, and to another variable as well. -/
def passing : Node := .template .origin "row" (some passedPipe)

/-- A template that reads a variable which it does not set. -/
def lookingOut : Tree :=
  { name := "row", parseName := "row", source := "",
    root := ⟨.origin, [.variable (plainVariable "$z")]⟩ }

theorem passing_mentions {name : String} (h : passing.Mentions name) :
    name = "$x" ∨ name = "$y" := by
  obtain ⟨inRange, v, hholds, rfl⟩ := h
  have hmem : Node.variable v ∈ [passing, .pipe passedPipe, .variable (plainVariable "$x"),
      .command ⟨.origin, [.variable (plainVariable "$y")]⟩, .variable (plainVariable "$y")] :=
    hholds.mem_of_closed List.mem_cons_self (by simp [passing, passedPipe, Node.parts])
  have hv : v = plainVariable "$x" ∨ v = plainVariable "$y" := by
    simpa [passing] using hmem
  rcases hv with rfl | rfl
  · exact .inl rfl
  · exact .inr rfl

/-- The environment of that template. -/
def lookingOutEnvironment : Environment where
  types := ⟨[]⟩
  templates := TemplateSet.put .empty lookingOut

/-- The scope of a caller that has set a variable. -/
def callerScope : Scope := (Scope.root (.basic .int)).insert "$y" (.basic .string)

/-- Whether the caller sets the variable that the template reads or not, the template misses
it.  The same holds of an invocation without argument from scopes that agree on nothing. -/
theorem walk_sameOutcome_of_agreesOn_passing :
    (∃ error, error.cause = .undefinedVariable "$z" ∧ error.tree = lookingOut ∧
      (lookingOutEnvironment.contextDuring lookingOut 1 []).walk (.basic .int) .none passing
        (callerScope.insert "$z" (.basic .bool)) = .error error ∧
      (lookingOutEnvironment.contextDuring lookingOut 1 []).walk (.basic .int) .none passing
        callerScope = .error error) ∧
    Checker.SameOutcome (fun _ => False)
      ((lookingOutEnvironment.contextDuring lookingOut 1 []).walk (.basic .int) .none
        (.template .origin "row" none) callerScope)
      ((lookingOutEnvironment.contextDuring lookingOut 1 []).walk (.basic .int) .none
        (.template .origin "row" none) .empty) := by
  obtain ⟨hreads, hinvoked⟩ :=
    walk_sameOutcome_of_agreesOn lookingOutEnvironment lookingOut 1 [] (.basic .int) none
  have hagree : Scope.AgreesOn passing.Mentions (callerScope.insert "$z" (.basic .bool))
      callerScope := by
    intro name hname
    have hne : name ≠ "$z" := by
      rcases passing_mentions hname with rfl | rfl <;> decide
    rw [NameMap.get?_insert, if_neg hne]
  constructor
  · have hsame := hreads passing _ _ hagree
    have hmissed : (lookingOutEnvironment.contextDuring lookingOut 1 []).walk (.basic .int) .none
        passing callerScope =
          .error ⟨lookingOut, .variable (plainVariable "$z"), .undefinedVariable "$z"⟩ := by
      rfl
    change Checker.SameOutcome passing.Mentions _
      ((lookingOutEnvironment.contextDuring lookingOut 1 []).walk (.basic .int) .none
        passing callerScope) at hsame
    rw [hmissed] at hsame ⊢
    exact ⟨_, rfl, rfl, hsame.eq_error, rfl⟩
  · exact hinvoked .origin "row" none nilType callerScope .empty callerScope .empty rfl rfl

end Environment

end TemplateTyping
