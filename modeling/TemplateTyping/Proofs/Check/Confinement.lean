import TemplateTyping.Proofs.Check.Visit

/-!
# Walks within closed sets of types

A walk builds no types of its own.  The types it comes to are parts of those it
was given, or stand behind their names, or are results of registered functions;
a slice of an array is the one exception.  So a walk whose data lies in a closed
set of types stays in this set: the variables it sets, and the arguments of the
templates that it invokes, have types of the set.  The faults that a walk finds
by itself can be told from types, so they are never that invocations are nested too
deeply, and they are that pointers have no end only if a type of the set has such
pointers.
-/

namespace TemplateTyping

/-! ## Maps -/

instance {α : Type} [HasTypes α] : HasTypes (NameMap α) where
  types map := HasTypes.types map.values

theorem NameMap.mem_entries_of_get? {α : Type} {map : NameMap α} {name : String}
    {value : α} (h : map.get? name = some value) : (name, value) ∈ map.entries := by
  obtain ⟨entries, sorted⟩ := map
  change findEntry name entries = some value at h
  change (name, value) ∈ entries
  clear sorted
  induction entries with
  | nil => cases h
  | cons entry entries ih =>
      rw [findEntry] at h
      by_cases hname : name = entry.1
      · rw [if_pos hname] at h
        rw [hname, ← Option.some.inj h]
        exact List.mem_cons_self
      · rw [if_neg hname] at h
        exact List.mem_cons_of_mem _ (ih h)

namespace MadeOf

variable {α : Type} [HasTypes α] {good : Ty → Prop} {map : NameMap α}

theorem map_iff :
    MadeOf good map ↔ ∀ entry ∈ map.entries, MadeOf good entry.2 := by
  change MadeOf good map.values ↔ _
  rw [list_iff, NameMap.values, List.forall_mem_map]

theorem get? (h : MadeOf good map) {name : String} {value : α}
    (hvalue : map.get? name = some value) : MadeOf good value :=
  map_iff.mp h (name, value) (NameMap.mem_entries_of_get? hvalue)

theorem insert (h : MadeOf good map) (name : String)
    {value : α} (hvalue : MadeOf good value) : MadeOf good (map.insert name value) := by
  rw [map_iff]
  intro entry hentry
  rcases NameMap.mem_insertEntry hentry with rfl | hentry
  · exact hvalue
  · exact map_iff.mp h entry hentry

/-- The scope in which a template starts holds nothing but its data. -/
theorem root {data : Ty} (hdata : good data) : MadeOf good (Scope.root data) := by
  refine insert ?_ "$" (type_iff.mpr hdata)
  exact map_iff.mpr (by simp [NameMap.empty])

end MadeOf

/-! ## Verdicts -/

/-- The fault can be told from good types: that pointers have no end is one only if
there is a good type whose pointers have none. -/
def Cause.IsOf (u : Universe) (good : Ty → Prop) (cause : Cause) : Prop :=
  cause.isOfShapes = true ∨
    ∃ ty, good ty ∧ u.pointerTarget? ty = none ∧ cause = .endlessPointer (u.describe ty)

theorem Cause.IsOf.isOfTypes {u : Universe} {good : Ty → Prop} {cause : Cause}
    (h : cause.IsOf u good) : cause.isOfTypes = true := by
  rcases h with h | ⟨ty, -, -, rfl⟩
  · cases cause with
    | endlessPointer type => cases h
    | _ => exact h
  · rfl

/-- A verdict keeps to the good types: it accepts with data made of them, or its
fault can be told from them. -/
def Confined {α : Type} [HasTypes α] (u : Universe) (good : Ty → Prop) :
    Except Cause α → Prop
  | .ok value => MadeOf good value
  | .error cause => cause.IsOf u good

namespace Confined

variable {α β : Type} [HasTypes α] [HasTypes β] {u : Universe} {good : Ty → Prop}

theorem type {ty : Ty} (h : good ty) : Confined u good (.ok ty) :=
  MadeOf.type_iff.mpr h

theorem error {cause : Cause} (h : cause.isOfShapes = true) :
    Confined (α := α) u good (.error cause) :=
  .inl h

theorem bind {first : Except Cause α} {next : α → Except Cause β}
    (hfirst : Confined u good first)
    (hnext : ∀ value, MadeOf good value → Confined u good (next value)) :
    Confined u good (first >>= next) := by
  cases first with
  | error cause => exact hfirst
  | ok value => exact hnext value hfirst

theorem ite {c : Prop} [Decidable c] {first second : Except Cause α}
    (hfirst : Confined u good first) (hsecond : Confined u good second) :
    Confined u good (if c then first else second) := by
  by_cases hc : c
  · rwa [if_pos hc]
  · rwa [if_neg hc]

end Confined

namespace Universe.Closed

variable {u : Universe} {good : Ty → Prop}

theorem target (h : u.Closed good) {ty : Ty} (hty : good ty) :
    Confined u good (u.target ty) := by
  have hfollow := h.followPointers (u.names.length + 1) hty
  unfold Universe.target Universe.pointerTarget?
  cases htarget : u.followPointers (u.names.length + 1) ty with
  | none => exact .inr ⟨ty, hty, htarget, rfl⟩
  | some target =>
      rw [htarget, MadeOf.some_iff] at hfollow
      exact hfollow

theorem checkResults (name : String)
    {signature : Signature Ty} (hsignature : MadeOf good signature) :
    Confined u good (u.checkResults name signature) := by
  have hresults := (MadeOf.signature_iff.mp hsignature).2
  unfold Universe.checkResults
  split
  · next result heq => exact .type (hresults result (by simp [heq]))
  · next result second heq =>
      exact .ite (.type (hresults result (by simp [heq]))) (.error rfl)
  · exact .error rfl

theorem expectExactly (name : String) (want got : Nat) :
    Confined u good (expectExactly name want got) :=
  .ite .unit (.error rfl)

theorem expectAtLeast (name : String) (want got : Nat) :
    Confined u good (expectAtLeast name want got) :=
  .ite .unit (.error rfl)

theorem expectAtMost (name : String) (want got : Nat) :
    Confined u good (expectAtMost name want got) :=
  .ite .unit (.error rfl)

theorem expectInteger (name : String) (position : Nat) (index : Ty) :
    Confined u good (u.expectInteger name position index) :=
  .ite .unit (.error rfl)

theorem checkCount (name : String) (params : Parameters) (got : Nat) :
    Confined u good (Universe.checkCount name params got) := by
  unfold Universe.checkCount
  split
  · exact expectAtLeast name _ got
  · exact expectExactly name _ got

theorem checkEach (name : String) (params : Parameters) (index : Nat) (args : List Ty) :
    Confined u good (u.checkEach name params index args) := by
  induction args generalizing index with
  | nil => exact .unit
  | cons arg args ih =>
      rw [Universe.checkEach]
      split
      · exact .ite (ih (index + 1)) (.error rfl)
      · exact ih (index + 1)

theorem checkArguments (name : String)
    {signature : Signature Ty} (hsignature : MadeOf good signature) (args : List Ty) :
    Confined u good (u.checkArguments name signature args) := by
  refine .bind (checkResults name hsignature) fun result hresult => ?_
  refine .bind (checkCount name _ _) fun _ _ => ?_
  exact .bind (checkEach name _ 0 args) fun _ _ => hresult

/-! ### Built-in functions -/

theorem checkLen (h : u.Closed good) {item : Ty} (hitem : good item) :
    Confined u good (Builtin.checkLen u item) := by
  have hlength : Confined u good (.ok (Ty.basic .int)) := .type (h.basic _)
  refine .bind (h.target hitem) fun target _ => ?_
  cases u.underlying target with
  | array size elem => exact hlength
  | slice elem => exact hlength
  | map key elem => exact hlength
  | chan elem => exact hlength
  | basic kind => exact .ite hlength (.error rfl)
  | _ => exact .error rfl

theorem sliceResult (h : u.Closed good) {item : Ty} (hitem : good item) (count : Nat) :
    Confined u good (Builtin.sliceResult u item count) := by
  refine .bind (h.target hitem) fun receiver hreceiver => ?_
  rw [MadeOf.type_iff] at hreceiver
  have hshape := h.underlying hreceiver
  cases heq : u.underlying receiver with
  | slice elem => exact .type hreceiver
  | array size elem =>
      rw [heq] at hshape
      exact .type (h.slice hshape)
  | basic kind =>
      refine .ite (.ite ?_ ?_) ?_
      · exact .error rfl
      · apply Confined.type
        split
        · exact h.basic _
        · exact hreceiver
      · exact .error rfl
  | _ => exact .error rfl

theorem checkBounds (operands : List Node) (position : Nat) (bounds : List Ty) :
    Confined u good (Builtin.checkBounds u operands position bounds) := by
  induction bounds generalizing position with
  | nil => exact .unit
  | cons bound bounds ih =>
      rw [Builtin.checkBounds]
      refine .bind (expectInteger _ position bound) fun _ _ => ?_
      split
      · exact .error rfl
      · exact ih (position + 1)

theorem checkIndexes (h : u.Closed good)
    (position : Nat) {item : Ty} (hitem : good item) (places : List Ty) :
    Confined u good (Builtin.checkIndexes u position item places) := by
  induction places generalizing position item with
  | nil => exact .type hitem
  | cons place places ih =>
      rw [Builtin.checkIndexes]
      refine .bind (h.target hitem) fun target htarget => ?_
      have hparts : ∀ {shape part}, u.underlying target = shape →
          part ∈ shape.parts → good part :=
        fun heq => h.elem (MadeOf.type_iff.mp htarget) heq
      cases heq : u.underlying target with
      | slice elem =>
          have helem := hparts heq (List.mem_singleton.mpr rfl)
          exact .bind (expectInteger _ position place) fun _ _ => ih _ helem
      | array size elem =>
          have helem := hparts heq (List.mem_singleton.mpr rfl)
          exact .bind (expectInteger _ position place) fun _ _ => ih _ helem
      | map key elem =>
          have helem : good elem := hparts heq (by simp [Ty.parts])
          exact .ite (ih _ helem) (.error rfl)
      | basic kind =>
          refine .ite ?_ (.error rfl)
          exact .bind (expectInteger _ position place) fun _ _ => ih _ (h.basic _)
      | _ => exact .error rfl

theorem checkCallee (h : u.Closed good) (operands : List Node)
    {callee : Ty} (hcallee : good callee) (args : List Ty) :
    Confined u good (Builtin.checkCallee u operands callee args) := by
  unfold Builtin.checkCallee
  split
  · next signature heq =>
      exact checkArguments _ (fun part hpart => h.elem hcallee heq hpart) args
  · exact .error rfl

theorem checkBuiltinCount (name : String) (builtin : Builtin) (got : Nat) :
    Confined u good (Builtin.checkCount name builtin got) := by
  cases builtin with
  | len => exact expectExactly name _ got
  | attrEscaper => exact expectExactly name _ got
  | slice => exact .bind (expectAtLeast name _ got) fun _ _ => expectAtMost name _ got
  | _ => exact expectAtLeast name _ got

theorem checkBuiltin (h : u.Closed good) (name : String) (builtin : Builtin)
    (operands : List Node) {args : List Ty} (hargs : MadeOf good args) :
    Confined u good (builtin.check u name operands args) := by
  refine .bind (checkBuiltinCount name builtin args.length) fun _ _ => ?_
  have hbasic : ∀ kind, Confined u good (.ok (Ty.basic kind)) :=
    fun kind => .type (h.basic kind)
  cases args with
  | nil => cases builtin <;> exact hbasic _
  | cons first args =>
      have hfirst := MadeOf.type_iff.mp (MadeOf.cons_iff.mp hargs).1
      cases builtin with
      | len => exact h.checkLen hfirst
      | slice =>
          refine .bind (h.sliceResult hfirst _) fun result hresult => ?_
          exact .bind (checkBounds operands 1 args) fun _ _ => hresult
      | choice => exact .type hfirst
      | call => exact h.checkCallee operands hfirst args
      | index => exact h.checkIndexes 1 hfirst args
      | _ => exact hbasic _


theorem checkCall (h : u.Closed good)
    {functions : Functions} (hfunctions : MadeOf good functions)
    (name : String) (operands : List Node)
    {args : List Ty} (hargs : MadeOf good args) :
    Confined u good (u.checkCall functions name operands args) := by
  unfold Universe.checkCall
  split
  · next signature hget => exact checkArguments name (hfunctions.get? hget) args
  · split
    · next builtin _ => exact h.checkBuiltin name builtin operands hargs
    · exact .error rfl

/-! ### Ranges and paths -/

theorem yielded? (h : u.Closed good)
    {signature : Signature Ty} (hsignature : MadeOf good signature) :
    MadeOf good (u.yielded? signature) := by
  have hparams := (MadeOf.signature_iff.mp hsignature).1
  unfold Universe.yielded?
  split
  · next callback =>
      have hcallback : good callback := hparams callback List.mem_cons_self
      split
      · next params result heq =>
          split
          · refine MadeOf.some_iff.mpr (MadeOf.list_iff.mpr fun param hparam => ?_)
            exact MadeOf.type_iff.mpr
              (h.elem hcallback heq (List.mem_append_left _ hparam))
          · exact .nothing
      · exact .nothing
  · exact .nothing

theorem iteration (h : u.Closed good) {source : Ty} (hsource : good source)
    (vars : Nat) : Confined u good (u.iteration source vars) := by
  have hkeyed : ∀ {key elem}, good key → good elem →
      Confined u good (.ok (Iteration.mk (some key) elem)) := fun hkey helem =>
    MadeOf.iteration_iff.mpr ⟨helem, MadeOf.some_iff.mpr (MadeOf.type_iff.mpr hkey)⟩
  have hunkeyed : ∀ {elem}, good elem →
      Confined u good (.ok (Iteration.mk none elem)) := fun helem =>
    MadeOf.iteration_iff.mpr ⟨helem, .nothing⟩
  refine .bind (h.target hsource) fun item hitem => ?_
  rw [MadeOf.type_iff] at hitem
  have hparts : ∀ {shape part}, u.underlying item = shape →
      part ∈ shape.parts → good part := fun heq => h.elem hitem heq
  cases heq : u.underlying item with
  | slice elem => exact hkeyed (h.basic _) (hparts heq (by simp [Ty.parts]))
  | array size elem => exact hkeyed (h.basic _) (hparts heq (by simp [Ty.parts]))
  | map key elem =>
      exact hkeyed (hparts heq (by simp [Ty.parts])) (hparts heq (by simp [Ty.parts]))
  | chan elem => exact .ite (.error rfl) (hunkeyed (hparts heq (by simp [Ty.parts])))
  | basic kind =>
      refine .ite (.ite (.error rfl) (hunkeyed ?_)) (.error rfl)
      split
      · exact h.basic _
      · exact hitem
  | func signature =>
      have hyielded := h.yielded? fun part hpart => hparts heq hpart
      dsimp only
      split
      · next value hvalue =>
          rw [hvalue, MadeOf.some_iff, MadeOf.cons_iff, MadeOf.type_iff] at hyielded
          exact .ite (.error rfl) (hunkeyed hyielded.1)
      · next key value hvalues =>
          rw [hvalues, MadeOf.some_iff, MadeOf.cons_iff, MadeOf.cons_iff,
            MadeOf.type_iff, MadeOf.type_iff] at hyielded
          exact .ite (hkeyed hyielded.1 hyielded.2.1) (hunkeyed hyielded.1)
      · exact .error rfl
  | _ => exact .error rfl

theorem checkKey (mapType key : Ty) (name : String) :
    Confined u good (Context.checkKey u mapType key name) :=
  .ite (.ite .unit (.error rfl)) (.ite .unit (.error rfl))

theorem resolveMember (h : u.Closed good) (package : Option String)
    {current : Ty} (hcurrent : good current) (name : String) :
    Confined u good (u.resolveMember package current name) := by
  have hmember := h.member? hcurrent ⟨name, package⟩
  refine .ite ?_ (.error rfl)
  split
  · exact .error rfl
  · next ty heq =>
      rw [heq, MadeOf.some_iff] at hmember
      exact hmember
  · next signature heq =>
      rw [heq, MadeOf.some_iff] at hmember
      exact hmember

theorem resolve (h : u.Closed good) (package : Option String)
    {receiver : Ty} (hreceiver : good receiver) (name : String) :
    Confined u good (u.resolve package receiver name) := by
  refine .bind (h.target hreceiver) fun current hcurrent => ?_
  rw [MadeOf.type_iff] at hcurrent
  have hmember := h.resolveMember package hcurrent name
  cases heq : u.underlying current with
  | func signature => exact .error rfl
  | map key elem =>
      have helem : good elem := h.elem hcurrent heq (by simp [Ty.parts])
      exact .bind (checkKey current key name) fun _ _ => MadeOf.type_iff.mpr helem
  | _ => exact hmember

end Universe.Closed

/-! ## Walks -/

/-- The fault is one that a walk finds by itself, if all types that it comes to are
good. -/
def Cause.IsOwn (u : Universe) (good : Ty → Prop) (cause : Cause) : Prop :=
  cause.IsOf u good ∨ ∃ name, cause = .undefinedVariable name

theorem Cause.IsOwn.not_isDepth {u : Universe} {good : Ty → Prop} {cause : Cause}
    (h : cause.IsOwn u good) : ¬cause.IsDepth := by
  rcases h with h | ⟨name, rfl⟩
  · exact not_isDepth_of_isOfTypes h.isOfTypes
  · exact Cause.not_isDepth rfl

/-- The outcome of a check keeps to the good types, and so does the scope that it
leaves behind; or it is one of some faults. -/
def ConfinedOutcome {α : Type} [HasTypes α] (faults : Cause → Prop) (good : Ty → Prop) :
    Except TypeError (α × Scope) → Prop
  | .ok (value, scope) => MadeOf good value ∧ MadeOf good scope
  | .error error => faults error.cause

/-- A check keeps to the good types if it starts with them, and finds some faults
only. -/
def Keeping {α : Type} [HasTypes α] (faults : Cause → Prop) (good : Ty → Prop)
    (check : Checker α) : Prop :=
  ∀ scope, MadeOf good scope → ConfinedOutcome faults good (check scope)

/-- Invocations with an argument of a good type are refused for some faults only. -/
def Judge.RefusesFor (faults : Cause → Prop) (good : Ty → Prop) (judge : Judge) : Prop :=
  ∀ invocation refusal, good invocation.argument →
    judge invocation = .error refusal → faults refusal.cause

/-- No invocation with an argument of a good type is refused for its nesting. -/
def Judge.Patient (good : Ty → Prop) (judge : Judge) : Prop :=
  judge.RefusesFor (fun cause => ¬cause.IsDepth) good

namespace Keeping

variable {α β : Type} [HasTypes α] [HasTypes β] {faults : Cause → Prop} {good : Ty → Prop}

theorem pure {value : α} (hvalue : MadeOf good value) :
    Keeping faults good (Pure.pure value) :=
  fun _ hscope => ⟨hvalue, hscope⟩

theorem bind {first : Checker α} {next : α → Checker β}
    (hfirst : Keeping faults good first)
    (hnext : ∀ value, MadeOf good value → Keeping faults good (next value)) :
    Keeping faults good (first >>= next) := by
  intro scope hscope
  have houtcome := hfirst scope hscope
  change ConfinedOutcome faults good (first scope >>= fun result => next result.1 result.2)
  cases heq : first scope with
  | error error =>
      rw [heq] at houtcome
      exact houtcome
  | ok result =>
      rw [heq] at houtcome
      exact hnext result.1 houtcome.1 result.2 houtcome.2

theorem isolated {check : Checker α} (hcheck : Keeping faults good check) :
    Keeping faults good (Checker.isolated check) := by
  intro scope hscope
  have houtcome := hcheck scope hscope
  unfold Checker.isolated
  cases heq : check scope with
  | error error =>
      rw [heq] at houtcome
      exact houtcome
  | ok result =>
      rw [heq] at houtcome
      exact ⟨houtcome.1, hscope⟩

theorem located (ctx : Context) (node : Node)
    (hown : ∀ {cause}, cause.IsOwn ctx.types good → faults cause)
    {verdict : Except Cause α} (hverdict : Confined ctx.types good verdict) :
    Keeping faults good (ctx.located node verdict) := by
  intro scope hscope
  cases verdict with
  | error cause => exact hown (.inl hverdict)
  | ok value => exact ⟨hverdict, hscope⟩

theorem get : Keeping faults good (get : Checker Scope) :=
  fun _ hscope => ⟨hscope, hscope⟩

theorem fail (ctx : Context) (node : Node) {cause : Cause} (h : faults cause) :
    Keeping (α := α) faults good (ctx.fail node cause) :=
  fun _ _ => h

theorem variableType (ctx : Context)
    (hown : ∀ {cause}, cause.IsOwn ctx.types good → faults cause) (node : Node) (name : String) :
    Keeping faults good (ctx.variableType node name) := by
  refine get.bind fun scope hscope => ?_
  split
  · next ty hget => exact pure (hscope.get? hget)
  · exact fail ctx node (hown (.inr ⟨name, rfl⟩))

theorem setVariable (ctx : Context)
    (hown : ∀ {cause}, cause.IsOwn ctx.types good → faults cause) (v : Variable)
    (isAssign : Bool) {ty : Ty} (hty : good ty) :
    Keeping faults good (ctx.setVariable v isAssign ty) := by
  have hmodify : Keeping faults good (modify (·.insert v.name ty) : Checker Unit) :=
    fun scope hscope => ⟨.unit, hscope.insert v.name (MadeOf.type_iff.mpr hty)⟩
  cases isAssign with
  | false => exact hmodify
  | true => exact bind (variableType ctx hown _ v.name) fun _ _ => hmodify

theorem invocation {ctx : Context} (hjudge : Judge.RefusesFor faults good ctx.invoke)
    (node : Node) {invocation : Invocation} (hargument : good invocation.argument) :
    Keeping faults good (ctx.invocation node invocation) := by
  intro scope hscope
  have hrefusal := hjudge invocation
  unfold Context.invocation
  cases hinvoke : ctx.invoke invocation with
  | ok accepted => exact ⟨.unit, hscope⟩
  | error refusal =>
      have hcause := hrefusal refusal hargument hinvoke
      cases refusal with
      | here cause => exact hcause
      | inside error => exact hcause

end Keeping

/-- Keeping to the good types, as a property of a walk. -/
def keepingProperty (faults : Cause → Prop) {u : Universe} {good : Ty → Prop}
    (h : u.Closed good) : WalkProperty Unit where
  good := good
  reached _ := True
  agree verdict := Confined u good (verdict ())
  holds check := Keeping faults good (check ())
  basic := h.basic
  part _ _ := trivial
  accept hvalue := hvalue
  refuse hcause := .error hcause
  pure := .pure
  bind := .bind
  isolated := .isolated

theorem keepingProperty_respected
    (ctx : Context) {faults : Cause → Prop} {good : Ty → Prop} (h : ctx.types.Closed good)
    (hfunctions : MadeOf good ctx.functions)
    (hown : ∀ {cause}, cause.IsOwn ctx.types good → faults cause)
    (hjudge : Judge.RefusesFor faults good ctx.invoke) :
    (keepingProperty faults h).Respected fun _ => ctx where
  located _ h := .located ctx _ hown h
  variableType _ := .variableType ctx hown _ _
  setVariable isAssign _ hty := .setVariable ctx hown _ isAssign hty
  invocation _ hargument := .invocation hjudge _ hargument
  resolve name hreceiver := h.resolve ctx.package hreceiver name
  arguments name types hsignature := Universe.Closed.checkArguments name hsignature types
  call operands _ htypes := h.checkCall hfunctions _ operands htypes
  iteration vars hsource := h.iteration hsource vars
  rangeVariables _ := .inl rfl
  concrete hty := .pure (MadeOf.type_iff.mpr (h.concrete hty))

/-- A walk with good data reports a fault that it finds by itself or that a judge
refuses for. -/
theorem Environment.walkTree_fault
    {env : Environment} {good : Ty → Prop} (h : env.types.Closed good)
    (hfunctions : MadeOf good env.functions) {faults : Cause → Prop}
    (hown : ∀ {cause}, cause.IsOwn env.types good → faults cause)
    {judge : Judge} (hjudge : judge.RefusesFor faults good)
    {tree : Tree} {data : Ty} (hdata : good data)
    {error : TypeError} (herror : env.walkTree tree data judge = .error error) :
    faults error.cause := by
  let ctx := env.context tree judge
  have hbody : Keeping faults good (ctx.walkBody data tree.root) :=
    (keepingProperty_respected ctx h hfunctions hown hjudge).walkBody hdata tree.root trivial
  have houtcome := hbody (Scope.root data) (.root hdata)
  rw [walkBody_eq_error herror] at houtcome
  exact houtcome

/-- A walk with good data reports its nesting only if a judge does. -/
theorem Environment.walkTree_cause
    {env : Environment} {good : Ty → Prop} (h : env.types.Closed good)
    (hfunctions : MadeOf good env.functions)
    {judge : Judge} (hjudge : judge.Patient good)
    {tree : Tree} {data : Ty} (hdata : good data)
    {error : TypeError} (herror : env.walkTree tree data judge = .error error) :
    ¬error.cause.IsDepth :=
  walkTree_fault h hfunctions Cause.IsOwn.not_isDepth hjudge hdata herror

end TemplateTyping
