import TemplateTyping.Proofs.Check.Visit
import TemplateTyping.Proofs.Tree.Spans

/-!
# Where faults are found

A fault of a check names a tree and a node.  A walk blames nodes of the tree that it goes
through, or it passes on what was found inside of an invocation.  So however deeply
invocations are nested, the node stands in the tree that is named, and this is a tree of
the set.

Trees come from sources.  In a set that is built from sources every node has a span of the
source of its tree.  Hence all faults, those of sources and those of checks, point into the
text that they are about.
-/

namespace TemplateTyping

/-! ## Blame -/

/-- A node, or a variable that a pipeline sets, stands somewhere in the tree. -/
def Tree.Holds (tree : Tree) (node : Node) : Prop :=
  ∃ inRange, (Node.body tree.root).Holds inRange node

theorem Tree.Holds.part
    {tree : Tree} {node part : Node} (h : tree.Holds node)
    (hpart : part ∈ node.parts.map Prod.snd) : tree.Holds part := by
  obtain ⟨inRange, hholds⟩ := h
  obtain ⟨⟨enters, _⟩, hmem, rfl⟩ := List.mem_map.mp hpart
  exact ⟨_, hholds.part hmem⟩

/-- The fault was found at a node that stands in the tree. -/
def TypeError.PointsInto (tree : Tree) (error : TypeError) : Prop :=
  error.tree = tree ∧ tree.Holds error.node

/-- Whatever the check finds points into the tree, or it was found inside of an
invocation. -/
def Checker.Blames {α : Type} (tree : Tree) (judge : Judge) (check : Checker α) : Prop :=
  ∀ scope error, check scope = .error error →
    error.PointsInto tree ∨ ∃ invocation, judge invocation = .error (.inside error)

namespace Checker.Blames

variable {α β : Type} {tree : Tree} {judge : Judge}

theorem pure {value : α} : Blames tree judge (Pure.pure value) := by
  intro scope error herror
  cases herror

theorem bind {first : Checker α} {next : α → Checker β}
    (hfirst : Blames tree judge first) (hnext : ∀ value, Blames tree judge (next value)) :
    Blames tree judge (first >>= next) := by
  intro scope error herror
  change (first scope >>= fun result => next result.1 result.2) = .error error at herror
  cases hrun : first scope with
  | error found =>
      rw [hrun] at herror
      cases herror
      exact hfirst scope error hrun
  | ok result =>
      rw [hrun] at herror
      exact hnext result.1 result.2 error herror

theorem isolated {check : Checker α} (h : Blames tree judge check) :
    Blames tree judge (Checker.isolated check) := by
  intro scope error herror
  unfold Checker.isolated at herror
  split at herror
  · cases herror
  · rename_i found hrun
    cases herror
    exact h scope error hrun

section Context

variable {ctx : Context} {node : Node}

theorem fail
    (h : ctx.tree.Holds node) (cause : Cause) :
    Blames (α := α) ctx.tree judge (ctx.fail node cause) := by
  intro scope error herror
  cases herror
  exact .inl ⟨rfl, h⟩

theorem located
    (h : ctx.tree.Holds node) (verdict : Except Cause α) :
    Blames ctx.tree judge (ctx.located node verdict) := by
  cases verdict with
  | error cause => exact fail h cause
  | ok value => exact pure

theorem variableType
    (h : ctx.tree.Holds node) (name : String) :
    Blames ctx.tree judge (ctx.variableType node name) := by
  have hget : Blames ctx.tree judge (get : Checker Scope) := by
    intro scope error herror
    cases herror
  refine hget.bind fun scope => ?_
  split
  · exact pure
  · exact fail h _

theorem setVariable
    {v : Variable} (h : ctx.tree.Holds (.variable v))
    (isAssign : Bool) (ty : Ty) : Blames ctx.tree judge (ctx.setVariable v isAssign ty) := by
  have hmodify : Blames ctx.tree judge (modify (·.insert v.name ty) : Checker Unit) := by
    intro scope error herror
    cases herror
  cases isAssign with
  | false => exact hmodify
  | true => exact (variableType h v.name).bind fun _ => hmodify

theorem invocation
    (h : ctx.tree.Holds node) (invocation : Invocation) :
    Blames ctx.tree ctx.invoke (ctx.invocation node invocation) := by
  unfold Context.invocation
  split
  · exact pure
  · exact fail h _
  · rename_i found hjudge
    intro scope error herror
    cases herror
    exact .inr ⟨invocation, hjudge⟩

end Context

end Checker.Blames

/-- Blaming only what stands in a tree, as a property of walks. -/
def blameProperty (tree : Tree) (judge : Judge) : WalkProperty Unit where
  good _ := True
  reached := tree.Holds
  agree _ := True
  holds check := (check ()).Blames tree judge
  basic _ := trivial
  part := .part
  accept _ := trivial
  refuse _ := trivial
  pure _ := .pure
  bind hfirst hnext := hfirst.bind fun value => hnext value fun _ _ => trivial
  isolated := .isolated

theorem blameProperty_respected (ctx : Context) :
    (blameProperty ctx.tree ctx.invoke).Respected fun _ => ctx where
  located h _ := .located h _
  variableType h := .variableType h _
  setVariable isAssign h _ := .setVariable h isAssign _
  invocation h _ := .invocation h _
  resolve _ _ := trivial
  arguments _ _ _ := trivial
  call _ _ _ := trivial
  iteration _ _ := trivial
  rangeVariables _ := trivial
  concrete _ := .pure

namespace Environment

variable {env : Environment}

/-- A walk blames a node of its tree, or it passes on a fault. -/
theorem pointsInto_of_walkTree
    {tree : Tree} {data : Ty} {judge : Judge} {error : TypeError}
    (h : env.walkTree tree data judge = .error error) :
    error.PointsInto tree ∨ ∃ invocation, judge invocation = .error (.inside error) := by
  let ctx := env.context tree judge
  have hbody : (ctx.walkBody data tree.root).Blames tree judge :=
    (blameProperty_respected ctx).walkBody trivial tree.root ⟨false, .refl⟩
  exact hbody _ error (walkBody_eq_error h)

/-- What is found inside of an invocation points into some tree of the set. -/
theorem exists_pointsInto_of_judge
    {budget : Nat} {active : List ActiveCall} {invocation : Invocation} {error : TypeError}
    (h : env.judge budget active invocation = .error (.inside error)) :
    ∃ name tree, env.templates.get? name = some tree ∧ error.PointsInto tree := by
  -- The fault is passed on from one invocation to the next, and the budget bounds how often.
  induction budget generalizing active invocation with
  | zero =>
      obtain ⟨-, hhere⟩ | ⟨target, -, -, ⟨-, hhere⟩ | ⟨rest, _, hrest, -⟩⟩ := judge_eq_error h
      · cases hhere
      · cases hhere
      · cases hrest
  | succ budget ih =>
      obtain ⟨-, hhere⟩ | ⟨target, htarget, -, ⟨-, hhere⟩ | ⟨rest, found, hrest, hfound, hwalk⟩⟩ :=
        judge_eq_error h
      · cases hhere
      · cases hhere
      · cases hrest
        cases hfound
        rcases pointsInto_of_walkTree hwalk with hpoints | ⟨inner, hinner⟩
        · exact ⟨_, target, htarget, hpoints⟩
        · exact ih hinner

theorem exists_pointsInto_of_check
    {template : String} {tree : Tree} {data : Ty} {error : TypeError}
    (htree : env.templates.get? template = some tree)
    (h : env.check tree data = .error error) :
    ∃ name owner, env.templates.get? name = some owner ∧ error.PointsInto owner := by
  rcases pointsInto_of_walkTree h with hpoints | ⟨invocation, hinside⟩
  · exact ⟨template, tree, htree, hpoints⟩
  · exact exists_pointsInto_of_judge hinside

end Environment

/-! ## Sets of sources -/

namespace TemplateSet

/-- The sets that can be built by reading sources and extending. -/
inductive IsBuilt : TemplateSet → Prop
  | empty : IsBuilt NameMap.empty
  | parse {d : Delimiters} {name source : String} {set : TemplateSet} :
      TemplateSet.parse d name source = .ok set → IsBuilt set
  | extend {set other : TemplateSet} :
      IsBuilt set → IsBuilt other → IsBuilt (set.extend other)

/-- The trees of the set stand under their names and fit their sources. -/
def IsPlaced (set : TemplateSet) : Prop :=
  ∀ name tree, set.get? name = some tree → tree.name = name ∧ tree.IsPlaced

theorem IsPlaced.merge
    {set : TemplateSet} (h : set.IsPlaced) {tree : Tree} (htree : tree.IsPlaced) :
    (set.merge tree).IsPlaced := by
  unfold TemplateSet.merge
  split
  · exact h
  · intro name other hother
    rw [TemplateSet.put, NameMap.get?_insert] at hother
    split at hother
    · rename_i hname
      cases hother
      exact ⟨hname.symm, htree⟩
    · exact h name other hother

theorem IsPlaced.extend
    {set other : TemplateSet} (h : set.IsPlaced) (hother : other.IsPlaced) :
    (set.extend other).IsPlaced := by
  have hvalues : ∀ tree ∈ other.values, tree.IsPlaced := by
    intro tree htree
    obtain ⟨⟨name, _⟩, hentry, rfl⟩ := List.mem_map.mp htree
    exact (hother name _ (NameMap.get?_of_mem_entries hentry)).2
  unfold TemplateSet.extend
  generalize other.values = trees at hvalues
  induction trees generalizing set with
  | nil => exact h
  | cons tree trees ih =>
      obtain ⟨htree, hrest⟩ := List.forall_mem_cons.mp hvalues
      exact ih (h.merge htree) hrest

theorem IsBuilt.isPlaced {set : TemplateSet} (h : set.IsBuilt) : set.IsPlaced := by
  induction h with
  | empty =>
      intro name tree htree
      cases htree
  | parse hparse =>
      intro name tree htree
      obtain ⟨hname, -, hplaced⟩ := TemplateSet.readFrom_of_parse hparse name tree htree
      exact ⟨hname, hplaced⟩
  | extend _ _ hset hother => exact hset.extend hother

end TemplateSet

/-! ## Faults and their texts -/

/-- What the fault shows is found in the tree: a span of something that stands there, which
lies in the text, and the line and column of its start. -/
structure TypeError.IsLocatedIn (owner : Tree) (error : TypeError) : Prop where
  source : error.source = owner.source
  held : ∃ node, owner.Holds node ∧ error.span = node.span
  lies : error.span.LiesIn error.source
  location : error.location = Location.locate error.source error.span.start
  place : error.place = owner.parseName ++ ":" ++ toString error.location.line ++ ":" ++
    toString error.location.column

theorem TypeError.PointsInto.isLocatedIn
    {owner : Tree} {error : TypeError} (h : error.PointsInto owner) (howner : owner.IsPlaced) :
    error.IsLocatedIn owner := by
  obtain ⟨rfl, inRange, hholds⟩ := h
  have hsits := howner inRange error.node hholds
  exact ⟨rfl, ⟨error.node, ⟨inRange, hholds⟩, rfl⟩, hsits.lies, rfl, rfl⟩

/-- Every fault points into the text it came from.  That holds of faults of the lexer and of
readers; and a fault of a check is located in the tree of the set that it names. -/
theorem fault_pointsInto_text :
    (∀ d name source fault, tokenize d source = .error fault →
      (fault.inSource name).span.LiesIn source) ∧
    (∀ d name source halt, TemplateSet.parse d name source = .error halt →
      ∃ fault, halt = .fault fault ∧ (fault.inSource name).span.LiesIn source) ∧
    ∀ env : Environment, env.templates.IsBuilt →
      ∀ template tree, env.templates.get? template = some tree →
        ∀ data error, env.check tree data = .error error →
          ∃ owner, env.templates.get? error.name = some owner ∧ error.IsLocatedIn owner := by
  refine ⟨?_, ?_, ?_⟩
  · intro d name source fault hfault
    exact tokenize_liesIn hfault
  · intro d name source halt hhalt
    exact TemplateSet.fault_liesIn_of_parse hhalt
  · intro env hbuilt template tree htree data error hcheck
    obtain ⟨name, owner, howner, hpoints⟩ :=
      Environment.exists_pointsInto_of_check htree hcheck
    obtain ⟨hname, hplaced⟩ := hbuilt.isPlaced name owner howner
    have herror : error.name = name := by rw [TypeError.name, hpoints.1, hname]
    exact ⟨owner, by rw [herror]; exact howner, hpoints.isLocatedIn hplaced⟩

/-- A string that is not closed. -/
def openString : String := "é\x7b\x7b\""

/-- A branch that is not closed. -/
def openBranch : String := "é\x7b\x7bif .\x7d\x7d"

/-- A page that invokes a template of another source. -/
def rowsPage : String := "é\x7b\x7btemplate \"row\" .\x7d\x7d"

/-- The template of the other source, which assigns to a variable that was never set. -/
def rowsSource : String :=
  "\x7b\x7bdefine \"row\"\x7d\x7d\n\x7b\x7brange .\x7d\x7d\x7b\x7b$x = .\x7d\x7d" ++
    "\x7b\x7bend\x7d\x7d\x7b\x7bend\x7d\x7d"

/-- The environment of templates of two sources. -/
def rowsEnvironment (pages rows : TemplateSet) : Environment :=
  { types := ⟨[]⟩, templates := pages.extend rows }

/-- The fault that something ends with. -/
def fault? {ε α : Type} : Except ε α → Option ε
  | .error fault => some fault
  | .ok _ => none

theorem eq_error_of_fault?
    {ε α : Type} {outcome : Except ε α} {fault : ε} (h : fault? outcome = some fault) :
    outcome = .error fault := by
  cases outcome with
  | error found => exact congrArg Except.error (Option.some.inj h)
  | ok result => cases h

/-- A fault of the lexer, one of a reader, and one of a check.  The last is found at the
variable in the pipeline of the invoked template, and its place is one of that template's
source. -/
theorem fault_pointsInto_text_rows :
    (∃ fault, tokenize .standard openString = .error fault ∧
      fault.span.LiesIn openString) ∧
    (∃ fault, TemplateSet.parse .standard "page" openBranch = .error (.fault fault) ∧
      fault.span.LiesIn openBranch) ∧
    ∃ pages rows page error,
      TemplateSet.parse .standard "page" rowsPage = .ok pages ∧
      TemplateSet.parse .standard "rows" rowsSource = .ok rows ∧
      (pages.extend rows).get? "page" = some page ∧
      (rowsEnvironment pages rows).check page (.slice (.basic .int)) = .error error ∧
      error.place = "rows:2:14" ∧
        ∃ owner, (pages.extend rows).get? "row" = some owner ∧ error.IsLocatedIn owner := by
  obtain ⟨hlexer, hreader, hcheck⟩ := fault_pointsInto_text
  refine ⟨?_, ?_, ?_⟩
  · have hruns : (fault? (tokenize .standard openString)).isSome = true := by
      decide +kernel
    obtain ⟨fault, hfault⟩ := Option.isSome_iff_exists.mp hruns
    have hfault := eq_error_of_fault? hfault
    exact ⟨fault, hfault, hlexer .standard "page" openString fault hfault⟩
  · have hruns : (fault? (TemplateSet.parse .standard "page" openBranch)).isSome = true := by
      decide +kernel
    obtain ⟨halt, hhalt⟩ := Option.isSome_iff_exists.mp hruns
    have hhalt := eq_error_of_fault? hhalt
    obtain ⟨fault, rfl, hlies⟩ := hreader .standard "page" openBranch halt hhalt
    exact ⟨fault, hhalt, hlies⟩
  · have hruns : (TemplateSet.parse .standard "page" rowsPage).toOption.any (fun pages =>
        (TemplateSet.parse .standard "rows" rowsSource).toOption.any fun rows =>
          ((pages.extend rows).get? "page").any fun page =>
            (fault? ((rowsEnvironment pages rows).check page (.slice (.basic .int)))).any
              fun error => error.place == "rows:2:14" && error.name == "row") = true := by
      decide +kernel
    obtain ⟨pages, hpages, hruns⟩ := (Option.any_eq_true _ _).mp hruns
    obtain ⟨rows, hrows, hruns⟩ := (Option.any_eq_true _ _).mp hruns
    obtain ⟨page, hpage, hruns⟩ := (Option.any_eq_true _ _).mp hruns
    obtain ⟨error, herror, hruns⟩ := (Option.any_eq_true _ _).mp hruns
    obtain ⟨hplace, hname⟩ := Bool.and_eq_true_iff.mp hruns
    have hpages := Except.eq_ok_of_toOption hpages
    have hrows := Except.eq_ok_of_toOption hrows
    have herror := eq_error_of_fault? herror
    have hbuilt : (rowsEnvironment pages rows).templates.IsBuilt :=
      .extend (.parse hpages) (.parse hrows)
    obtain ⟨owner, howner, hlocated⟩ :=
      hcheck (rowsEnvironment pages rows) hbuilt "page" page hpage _ error herror
    rw [eq_of_beq hname] at howner
    exact ⟨pages, rows, page, error, hpages, hrows, hpage, herror, eq_of_beq hplace,
      owner, howner, hlocated⟩

end TemplateTyping
