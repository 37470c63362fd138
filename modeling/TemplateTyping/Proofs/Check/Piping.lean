import TemplateTyping.Proofs.Check.Writes

/-!
# Results passed on and results in parentheses

A pipeline passes the result of a command on to the next one, where it is the last argument.  The
same result can be given in parentheses as the last operand.  The two ways differ in the order in
which things are worked out and in the operands that a function gets to see, so they may find
different faults.  The main statement is that they succeed in the same cases and with the same
type, if nothing in them sets a variable.
-/

namespace TemplateTyping

/-- Verdicts with the same value are the same, or both of them are faults. -/
theorem Except.ok_or_error_of_toOption_eq {α : Type} {first second : Except Cause α}
    (h : first.toOption = second.toOption) :
    (∃ value, first = .ok value ∧ second = .ok value) ∨
      ∃ cause cause', first = .error cause ∧ second = .error cause' := by
  cases first with
  | error cause =>
      cases second with
      | error cause' => exact .inr ⟨cause, cause', rfl, rfl⟩
      | ok value => cases h
  | ok value =>
      cases second with
      | error cause => cases h
      | ok value' =>
          obtain rfl : value = value' := Option.some.inj h
          exact .inl ⟨value, rfl, rfl⟩

namespace Checker

variable {α β γ : Type}

theorem bind_eq_ok_iff {check : Checker α} {next : α → Checker β} {before : Scope}
    {result : β × Scope} :
    (check >>= next) before = .ok result ↔
      ∃ value middle, check before = .ok (value, middle) ∧ next value middle = .ok result := by
  refine ⟨bind_eq_ok, ?_⟩
  rintro ⟨value, middle, hcheck, hnext⟩
  change (check before >>= fun found => next found.1 found.2) = .ok result
  rw [hcheck]
  exact hnext

/-! ## Checks that succeed alike -/

/-- Two checks succeed in the same scopes, with the same value and the same scope in the end.  Their
faults may differ. -/
def SucceedsLike (first second : Checker α) : Prop :=
  ∀ scope result, first scope = .ok result ↔ second scope = .ok result

namespace SucceedsLike

variable {first second third : Checker α}

theorem refl (check : Checker α) : SucceedsLike check check := fun _ _ => .rfl

theorem trans (h : SucceedsLike first second) (h' : SucceedsLike second third) :
    SucceedsLike first third :=
  fun scope result => (h scope result).trans (h' scope result)

theorem bind {next next' : α → Checker β} (h : SucceedsLike first second)
    (hnext : ∀ value, SucceedsLike (next value) (next' value)) :
    SucceedsLike (first >>= next) (second >>= next') := by
  intro scope result
  simp only [bind_eq_ok_iff, h scope _, hnext _ _ result]

/-- Checks that never succeed do so alike. -/
theorem of_not_succeeds (hfirst : ¬first.Succeeds) (hsecond : ¬second.Succeeds) :
    SucceedsLike first second :=
  fun scope result => iff_of_false (fun h => hfirst ⟨scope, result, h⟩)
    fun h => hsecond ⟨scope, result, h⟩

/-- Checks that set nothing can be made in either order. -/
theorem comm {check : Checker α} {other : Checker β} (hcheck : check.Sets [])
    (hother : other.Sets []) (next : α → β → Checker γ) :
    SucceedsLike (check >>= fun value => other >>= fun value' => next value value')
      (other >>= fun value' => check >>= fun value => next value value') := by
  have hsucceeds {α β : Type} {check : Checker α} {other : Checker β} (hcheck : check.Sets [])
      (hother : other.Sets []) {next : α → β → Checker γ} {scope : Scope} {result : γ × Scope}
      (h : (check >>= fun value => other >>= fun value' => next value value') scope =
        .ok result) :
      (other >>= fun value' => check >>= fun value => next value value') scope = .ok result := by
    obtain ⟨value, middle, hvalue, hrest⟩ := bind_eq_ok h
    obtain ⟨value', last, hvalue', hnext⟩ := bind_eq_ok hrest
    obtain rfl := (hcheck scope value middle hvalue).eq_of_nil
    obtain rfl := (hother middle value' last hvalue').eq_of_nil
    exact bind_eq_ok_iff.mpr
      ⟨value', last, hvalue', bind_eq_ok_iff.mpr ⟨value, last, hvalue, hnext⟩⟩
  exact fun scope result => ⟨hsucceeds hcheck hother, hsucceeds hother hcheck⟩

theorem located (ctx : Context) (node : Node) {verdict verdict' : Except Cause α}
    (h : verdict.toOption = verdict'.toOption) :
    SucceedsLike (ctx.located node verdict) (ctx.located node verdict') := by
  rcases Except.ok_or_error_of_toOption_eq h with ⟨value, rfl, rfl⟩ | ⟨cause, cause', rfl, rfl⟩
  · exact refl _
  · exact of_not_succeeds Succeeds.not_fail Succeeds.not_fail

end SucceedsLike

end Checker

/-! ## Operands that a function gets to see -/

namespace Universe

variable (u : Universe)

theorem toOption_checkResults (name name' : String) (signature : Signature Ty) :
    (u.checkResults name signature).toOption = (u.checkResults name' signature).toOption := by
  unfold checkResults
  split
  · rfl
  · split <;> rfl
  · rfl

theorem toOption_checkCount (name name' : String) (params : Parameters) (got : Nat) :
    (checkCount name params got).toOption = (checkCount name' params got).toOption := by
  unfold checkCount expectAtLeast expectExactly
  split <;> split <;> rfl

theorem toOption_checkEach (name name' : String) (params : Parameters) (index : Nat)
    (args : List Ty) :
    (u.checkEach name params index args).toOption =
      (u.checkEach name' params index args).toOption := by
  induction args generalizing index with
  | nil => rfl
  | cons arg args ih =>
      simp only [checkEach]
      split
      · split
        · exact ih (index + 1)
        · rfl
      · exact ih (index + 1)

end Universe

theorem Except.toOption_bind_congr {α β : Type} {first second : Except Cause α}
    {next next' : α → Except Cause β} (h : first.toOption = second.toOption)
    (hnext : ∀ value, (next value).toOption = (next' value).toOption) :
    (first >>= next).toOption = (second >>= next').toOption := by
  rcases Except.ok_or_error_of_toOption_eq h with ⟨value, rfl, rfl⟩ | ⟨cause, cause', rfl, rfl⟩
  · exact hnext value
  · rfl

/-- Under whatever name a function is called, the type of the call is the same. -/
theorem Universe.toOption_checkArguments (u : Universe) (name name' : String)
    (signature : Signature Ty) (args : List Ty) :
    (u.checkArguments name signature args).toOption =
      (u.checkArguments name' signature args).toOption := by
  unfold checkArguments
  refine Except.toOption_bind_congr (u.toOption_checkResults name name' signature) fun _ => ?_
  refine Except.toOption_bind_congr (toOption_checkCount name name' _ _) fun _ => ?_
  exact Except.toOption_bind_congr (u.toOption_checkEach name name' _ _ _) fun _ => rfl

namespace Builtin

variable (u : Universe)

/-- A pipeline in parentheses is no number. -/
theorem negative?_append_pipe (operands : List Node) (pipe : Pipe Node) (position : Nat) :
    (operands ++ [.pipe pipe])[position]?.bind negative? =
      operands[position]?.bind negative? := by
  rw [List.getElem?_append]
  split
  · rfl
  · have hnone : operands[position]? = none := List.getElem?_eq_none (by omega)
    rw [hnone]
    cases position - operands.length <;> rfl

theorem checkBounds_append_pipe (operands : List Node) (pipe : Pipe Node) (position : Nat)
    (bounds : List Ty) :
    checkBounds u (operands ++ [.pipe pipe]) position bounds =
      checkBounds u operands position bounds := by
  induction bounds generalizing position with
  | nil => rfl
  | cons bound bounds ih => simp only [checkBounds, negative?_append_pipe, ih]

theorem toOption_checkCallee (operands operands' : List Node) (callee : Ty) (args : List Ty) :
    (checkCallee u operands callee args).toOption =
      (checkCallee u operands' callee args).toOption := by
  unfold checkCallee
  dsimp only
  split
  · exact u.toOption_checkArguments _ _ _ _
  · rfl

theorem toOption_check_append_pipe (name : String) (builtin : Builtin) (operands : List Node)
    (pipe : Pipe Node) (args : List Ty) :
    (builtin.check u name (operands ++ [.pipe pipe]) args).toOption =
      (builtin.check u name operands args).toOption := by
  unfold check
  refine Except.toOption_bind_congr rfl fun _ => ?_
  cases builtin with
  | slice =>
      cases args with
      | nil => rfl
      | cons item bounds => simp only [checkBounds_append_pipe]
  | call =>
      cases args with
      | nil => rfl
      | cons callee args => exact toOption_checkCallee u _ _ _ _
  | _ => cases args <;> rfl

end Builtin

/-- A pipeline in parentheses that a function gets as its last operand makes no difference besides
its type. -/
theorem Universe.toOption_checkCall_append_pipe (u : Universe) (functions : Functions)
    (name : String) (operands : List Node) (pipe : Pipe Node) (args : List Ty) :
    (u.checkCall functions name (operands ++ [.pipe pipe]) args).toOption =
      (u.checkCall functions name operands args).toOption := by
  unfold checkCall
  split
  · rfl
  · split
    · exact Builtin.toOption_check_append_pipe u name _ operands pipe args
    · rfl

/-! ## Arguments that are passed on or worked out -/

/-- Two ways of giving arguments: the result of a check is passed on, or it is worked out as the
last of the operands. -/
structure Arguments.TakenFrom (stage : Checker Ty) (taking : Ty → Arguments)
    (working : Arguments) : Prop where
  sets : stage.Sets []
  taking_given : ∀ ty, (taking ty).given = true
  working_given : working.given = true
  types : Checker.SucceedsLike (stage >>= fun ty => (taking ty).types) working.types
  call : ∀ (u : Universe) (functions : Functions) name ty types,
    (u.checkCall functions name (taking ty).operands types).toOption =
      (u.checkCall functions name working.operands types).toOption

namespace Context

open Checker

variable {ctx : Context} {dot : Ty} {stage : Checker Ty} {taking : Ty → Arguments}
  {working : Arguments} (h : Arguments.TakenFrom stage taking working)
include h

/-- What cannot be applied fails in both ways. -/
theorem plain_takenFrom {α : Type} (node : Node) (next : Checker α) :
    SucceedsLike (stage >>= fun ty => ctx.plain node (taking ty) >>= fun _ => next)
      (ctx.plain node working >>= fun _ => next) := by
  simp only [plain, h.taking_given, h.working_given, if_true]
  refine .of_not_succeeds (fun hstage => ?_) fun hfail => Succeeds.not_fail hfail.bind.1
  obtain ⟨-, ty, hfail⟩ := hstage.bind
  exact Succeeds.not_fail hfail.bind.1

theorem pathStep_takenFrom (node : Node) (receiver : Ty) (name : String) :
    SucceedsLike (stage >>= fun ty => ctx.pathStep node (taking ty) receiver name)
      (ctx.pathStep node working receiver name) := by
  simp only [pathStep_eq]
  refine (SucceedsLike.comm h.sets (.located ctx node _) _).trans
    (.bind (.refl _) fun resolution => ?_)
  cases resolution with
  | value ty =>
      simp only [applyResolution, h.taking_given, h.working_given, if_true]
      exact .of_not_succeeds (fun hstage => Succeeds.not_fail hstage.bind.2.choose_spec)
        Succeeds.not_fail
  | method signature =>
      simp only [applyResolution, ← bind_assoc]
      exact h.types.bind fun _ => .refl _

/-- The arguments belong to the last name of a path; what comes before sets nothing. -/
theorem checkPath_takenFrom (node : Node) (receiver : Ty) {path : List String}
    (hpath : path ≠ []) :
    SucceedsLike (stage >>= fun ty => ctx.checkPath node (taking ty) receiver path)
      (ctx.checkPath node working receiver path) := by
  induction path generalizing receiver with
  | nil => exact absurd rfl hpath
  | cons name path ih =>
      cases path with
      | nil => exact pathStep_takenFrom h node receiver name
      | cons second path =>
          have hstep : (ctx.pathStep node .none receiver name).Sets [] :=
            pathStep_sets (.none none) node receiver name
          exact (SucceedsLike.comm h.sets hstep _).trans
            (.bind (.refl _) fun next => ih next (by simp))

/-- A term succeeds alike in both ways.  The receiver of a chain is worked out before the
arguments are looked at, so it must not set anything. -/
theorem walk_takenFrom {head : Node} (hterm : head.isTerm = true) (hfits : head.fits = true)
    (hreceiver : ∀ span receiver path, head = .chain span receiver path →
      (ctx.walk dot .none receiver).Sets []) :
    SucceedsLike (stage >>= fun ty => ctx.walk dot (taking ty) head)
      (ctx.walk dot working head) := by
  cases head with
  | field span path =>
      simp only [walk, ← bind_assoc]
      exact (checkPath_takenFrom h _ dot (ne_nil_of_isFieldPath hfits)).bind fun _ => .refl _
  | chain span receiver path =>
      simp only [walk]
      simp only [Node.fits, Bool.and_eq_true] at hfits
      refine (SucceedsLike.comm h.sets (hreceiver span receiver path rfl) _).trans
        (.bind (.refl _) fun found => ?_)
      simp only [← bind_assoc]
      exact (checkPath_takenFrom h _ _ (ne_nil_of_isFieldPath hfits.2)).bind fun _ => .refl _
  | «variable» v =>
      obtain ⟨span, path⟩ := v
      simp only [walk]
      refine (SucceedsLike.comm h.sets (.variableType ctx _ _) _).trans
        (.bind (.refl _) fun ty => ?_)
      rcases path with _ | ⟨name, _ | ⟨field, path⟩⟩
      · cases hfits
      · exact plain_takenFrom h _ _
      · simp only [← bind_assoc]
        exact (checkPath_takenFrom h _ ty (List.cons_ne_nil field path)).bind fun _ => .refl _
  | identifier span name =>
      simp only [walk]
      refine SucceedsLike.trans (.bind (.refl _) fun ty => .bind (.refl _) fun types =>
        .bind (.located ctx _ (h.call ctx.types ctx.functions name ty types)) fun _ => .refl _) ?_
      rw [← bind_assoc]
      exact h.types.bind fun _ => .refl _
  | pipe | dot | nil | bool | string | number =>
      simp only [walk]
      exact plain_takenFrom h _ _
  | _ => cases hterm

end Context

/-! ## Pipelines -/

namespace Context

open Checker

variable {ctx : Context} {dot : Ty}

theorem checkCommands_append (passed : Option Ty) (first rest : List (Command Node)) :
    ctx.checkCommands dot passed (first ++ rest) =
      ctx.checkCommands dot passed first >>= fun passed => ctx.checkCommands dot passed rest := by
  induction first generalizing passed with
  | nil => simp only [List.nil_append, checkCommands, pure_bind]
  | cons command first ih => simp only [List.cons_append, checkCommands, bind_assoc, ih]

/-- Some commands have a result. -/
theorem checkCommands_eq_some (passed : Option Ty) {commands : List (Command Node)}
    (h : commands ≠ []) :
    ctx.checkCommands dot passed commands = do
      return some ((← ctx.checkCommands dot passed commands).getD nilType) := by
  induction commands generalizing passed with
  | nil => exact absurd rfl h
  | cons command commands ih =>
      simp only [checkCommands, bind_assoc]
      refine bind_congr fun ty => ?_
      cases commands with
      | nil => rfl
      | cons second commands => exact ih (some ty) (List.cons_ne_nil _ _)

theorem checkOperands_append (first rest : List Node) :
    ctx.checkOperands dot (first ++ rest) = do
      let types ← ctx.checkOperands dot first
      let others ← ctx.checkOperands dot rest
      return types ++ others := by
  induction first with
  | nil => simp only [List.nil_append, checkOperands, pure_bind, bind_pure]
  | cons operand first ih => simp only [List.cons_append, checkOperands, bind_assoc, ih, pure_bind]

theorem checkOperands_pipe (pipe : Pipe Node) :
    ctx.checkOperands dot [.pipe pipe] = do return [← ctx.checkPipe dot pipe] := by
  have hplain : ctx.plain (.pipe pipe) .none = pure () := rfl
  simp only [checkOperands, walk, hplain, bind_assoc, pure_bind, Option.getD_some]

/-- A pipeline that sets no variable has the type of its commands. -/
theorem checkPipe_of_not_declared (span : Span) (isAssign : Bool) (commands : List (Command Node)) :
    ctx.checkPipe dot ⟨span, isAssign, [], commands⟩ = do
      return (← ctx.checkCommands dot none commands).getD nilType := by
  simp only [checkPipe, List.head?_nil]

theorem checkPipe_singleton (span commandSpan : Span) (operands : List Node) :
    ctx.checkPipe dot ⟨span, false, [], [⟨commandSpan, operands⟩]⟩ =
      ctx.checkApplication dot none operands := by
  simp only [checkPipe_of_not_declared, checkCommands, checkCommand, bind_assoc, pure_bind,
    Option.getD_some, bind_pure]

/-- The last command of a pipeline takes the result of the pipeline before it. -/
theorem checkPipe_concat {stages : List (Command Node)} (hstages : stages ≠ [])
    (span inner commandSpan : Span) (operands : List Node) :
    ctx.checkPipe dot ⟨span, false, [], stages ++ [⟨commandSpan, operands⟩]⟩ =
      ctx.checkPipe dot ⟨inner, false, [], stages⟩ >>= fun ty =>
        ctx.checkApplication dot (some ty) operands := by
  simp only [checkPipe_of_not_declared, checkCommands_append, bind_assoc, pure_bind]
  rw [checkCommands_eq_some none hstages]
  simp only [checkCommands, checkCommand, bind_assoc, pure_bind, Option.getD_some, bind_pure]

/-- The result of a pipeline is passed on, or the pipeline stands in parentheses after the
operands. -/
theorem takenFrom_pipe {pipe : Pipe Node} (hpipe : (ctx.checkPipe dot pipe).Sets [])
    {operands : List Node} (hoperands : (ctx.checkOperands dot operands).Sets []) :
    Arguments.TakenFrom (ctx.checkPipe dot pipe)
      (fun ty => ⟨operands, ctx.checkOperands dot operands, some ty⟩)
      ⟨operands ++ [.pipe pipe], ctx.checkOperands dot (operands ++ [.pipe pipe]), none⟩ where
  sets := hpipe
  taking_given _ := by simp [Arguments.given]
  working_given := by simp [Arguments.given]
  types := by
    refine (SucceedsLike.comm hpipe hoperands _).trans ?_
    simp only [Arguments.types, checkOperands_append, checkOperands_pipe, bind_assoc, pure_bind,
      Option.toList_some, Option.toList_none, List.append_nil]
    exact .refl _
  call u functions name _ types :=
    (u.toOption_checkCall_append_pipe functions name operands pipe types).symm

/-- A command succeeds alike whether the result of a pipeline is passed on to it or stands in
parentheses at its end. -/
theorem checkApplication_takenFrom {pipe : Pipe Node} (hpipe : (ctx.checkPipe dot pipe).Sets [])
    {head : Node} {operands : List Node}
    (hcommand : ∀ operand ∈ head :: operands,
      operand.IsWellFormed ∧ operand.setsOne = true ∧ operand.isTerm = true)
    (hnames : declaredInNodes (head :: operands) = []) :
    SucceedsLike
      (ctx.checkPipe dot pipe >>= fun ty => ctx.checkApplication dot (some ty) (head :: operands))
      (ctx.checkApplication dot none (head :: operands ++ [.pipe pipe])) := by
  obtain ⟨⟨hhead, hone, hterm⟩, hrest⟩ := List.forall_mem_cons.mp hcommand
  simp only [declaredInNodes, List.append_eq_nil_iff] at hnames
  by_cases hnil : ∃ span, head = .nil span
  · obtain ⟨span, rfl⟩ := hnil
    simp only [checkApplication, List.cons_append]
    refine .of_not_succeeds (fun h => ?_) Succeeds.not_fail
    obtain ⟨-, ty, hfail⟩ := h.bind
    exact Succeeds.not_fail hfail
  · simp only [List.cons_append, checkApplication_of_ne_nil _ dot _ _ hnil, ← bind_assoc]
    have hoperands : (ctx.checkOperands dot operands).Sets [] :=
      hnames.2 ▸ checkOperands_sets operands hrest
    refine (walk_takenFrom (takenFrom_pipe hpipe hoperands) hterm hhead.fits_self ?_).bind
      fun _ => .refl _
    rintro span receiver path rfl
    have hfits := hhead.fits_self
    simp only [Node.fits, Bool.and_eq_true] at hfits
    have hreceiver : (ctx.walk dot .none receiver).Sets receiver.declaredNames :=
      (walk_sets (.none none) receiver (hhead.of_mem_parts (.head _)) hfits.1.2
        fun _ => rfl).of_append_nil
    rwa [show receiver.declaredNames = [] from hnames.1] at hreceiver

end Context

/-! ## Commands that were read -/

/-- The command stands in a tree that was read from some source. -/
def Command.IsRead (command : Command Node) : Prop :=
  ∃ d sourceName source set name tree, TemplateSet.parse d sourceName source = .ok set ∧
    set.get? name = some tree ∧ tree.Holds (.command command)

theorem Command.IsRead.isWellFormed {command : Command Node} (h : command.IsRead) :
    (Node.command command).IsWellFormed := by
  obtain ⟨d, sourceName, source, set, name, tree, hparse, htree, inRange, hholds⟩ := h
  exact .of_holds (TemplateSet.isWellFormed_of_parse hparse name tree htree) hholds

theorem declaredInCommands_eq_nil {commands : List (Command Node)}
    (h : ∀ command ∈ commands, command.declaredNames = []) : declaredInCommands commands = [] := by
  induction commands with
  | nil => rfl
  | cons command commands ih =>
      obtain ⟨hcommand, hrest⟩ := List.forall_mem_cons.mp h
      rw [declaredInCommands, hcommand, ih hrest, List.append_nil]

/-- Passing a result on is giving it in parentheses.  Commands followed by one more command
succeed exactly if that command does with the others in parentheses after its operands, and then
with the same type.  All of them stand in trees that were read, and none of them sets a
variable. -/
theorem Context.checkPipe_passed_iff_parenthesized
    {stages : List (Command Node)} (hstages : stages ≠ []) {last : Command Node}
    (hread : ∀ command ∈ stages ++ [last], command.IsRead ∧ command.declaredNames = [])
    (ctx : Context) (dot : Ty) (scope : Scope) (ty : Ty) (after : Scope)
    (outer outer' inner span : Span) :
    ctx.checkPipe dot ⟨outer, false, [], stages ++ [last]⟩ scope = .ok (ty, after) ↔
      ctx.checkPipe dot
        ⟨outer', false, [], [⟨span, last.operands ++ [.pipe ⟨inner, false, [], stages⟩]⟩]⟩ scope =
          .ok (ty, after) := by
  obtain ⟨hstagesRead, hlastRead⟩ := List.forall_mem_append.mp hread
  obtain ⟨hlast, hlastNames⟩ := hlastRead last (.head _)
  have hcommands : ∀ stage ∈ stages, (Node.command stage).IsWellFormed :=
    fun stage hstage => (hstagesRead stage hstage).1.isWellFormed
  have hnames : declaredInCommands stages = [] :=
    declaredInCommands_eq_nil fun stage hstage => (hstagesRead stage hstage).2
  have hpipe : (ctx.checkPipe dot ⟨inner, false, [], stages⟩).Sets [] := by
    rw [checkPipe_of_not_declared, ← hnames]
    exact (checkCommands_sets none stages hcommands).then_pure
  obtain ⟨lastSpan, operands⟩ := last
  cases operands with
  | nil => cases hlast.isWellFormed.fits_self
  | cons head operands =>
      rw [checkPipe_concat hstages outer inner, checkPipe_singleton]
      exact checkApplication_takenFrom hpipe hlast.isWellFormed.operands hlastNames scope
        (ty, after)

/-- Two commands whose result is passed on to a third one. -/
def pipedSource : String :=
  "\x7b\x7b. | printf \"%d-%s\" (len \"a\") | len\x7d\x7d"

/-- The pipeline of the action that a tree starts with. -/
def actionPipe? (tree : Tree) : Option (Pipe Node) :=
  match tree.root.nodes with
  | .action _ pipe :: _ => some pipe
  | _ => none

theorem holds_of_actionPipe? {tree : Tree} {pipe : Pipe Node} (h : actionPipe? tree = some pipe)
    {command : Command Node} (hcommand : command ∈ pipe.commands) :
    tree.Holds (.command command) := by
  unfold actionPipe? at h
  split at h
  · rename_i span found rest hnodes
    obtain rfl : found = pipe := Option.some.inj h
    have hroot : tree.Holds (.body tree.root) := ⟨false, .refl⟩
    have haction : tree.Holds (.action span found) := hroot.part (by simp [Node.parts, hnodes])
    have hpipe : tree.Holds (.pipe found) := haction.part (by simp [Node.parts])
    exact hpipe.part (by simp [Node.parts, hcommand])
  · cases h

/-- What was read is as fine with the first two commands in parentheses. -/
theorem Context.checkPipe_passed_iff_parenthesized_piped :
    ∃ set page pipe stages last ty after,
      TemplateSet.parse .standard "page" pipedSource = .ok set ∧ set.get? "page" = some page ∧
      actionPipe? page = some pipe ∧ pipe.commands = stages ++ [last] ∧ stages.length = 2 ∧
      ((settingEnvironment set).contextDuring page 0 []).checkPipe (.basic .string)
        ⟨pipe.span, false, [], stages ++ [last]⟩ settingScope = .ok (ty, after) ∧
      ((settingEnvironment set).contextDuring page 0 []).checkPipe (.basic .string)
        ⟨pipe.span, false, [],
          [⟨last.span, last.operands ++ [.pipe ⟨pipe.span, false, [], stages⟩]⟩]⟩
        settingScope = .ok (ty, after) := by
  have hruns : (TemplateSet.parse .standard "page" pipedSource).toOption.any (fun set =>
      (set.get? "page").any fun page => (actionPipe? page).any fun pipe =>
        pipe.commands.length == 3 && pipe.commands.all (·.declaredNames == []) &&
          (((settingEnvironment set).contextDuring page 0 []).checkPipe (.basic .string)
            ⟨pipe.span, false, [], pipe.commands⟩ settingScope).toOption.isSome) = true := by
    decide +kernel
  obtain ⟨set, hset, hruns⟩ := (Option.any_eq_true _ _).mp hruns
  obtain ⟨page, hpage, hruns⟩ := (Option.any_eq_true _ _).mp hruns
  obtain ⟨pipe, hpipe, hruns⟩ := (Option.any_eq_true _ _).mp hruns
  obtain ⟨hruns, hok⟩ := Bool.and_eq_true_iff.mp hruns
  obtain ⟨hlength, hnames⟩ := Bool.and_eq_true_iff.mp hruns
  obtain ⟨⟨ty, after⟩, hok⟩ := Option.isSome_iff_exists.mp hok
  have hset := Except.eq_ok_of_toOption hset
  have hok := Except.eq_ok_of_toOption hok
  have hlength : pipe.commands.length = 3 := eq_of_beq hlength
  have hsome : pipe.commands ≠ [] := List.ne_nil_of_length_eq_add_one hlength
  have hcommands := (List.dropLast_concat_getLast hsome).symm
  have htwo : pipe.commands.dropLast.length = 2 := by rw [List.length_dropLast, hlength]
  have hread : ∀ command ∈ pipe.commands, command.IsRead ∧ command.declaredNames = [] :=
    fun command hmem =>
      ⟨⟨_, _, _, set, "page", page, hset, hpage, holds_of_actionPipe? hpipe hmem⟩,
        eq_of_beq (List.all_eq_true.mp hnames command hmem)⟩
  rw [hcommands] at hok hread
  exact ⟨set, page, pipe, _, _, ty, after, hset, hpage, hpipe, hcommands, htwo, hok,
    (Context.checkPipe_passed_iff_parenthesized (List.ne_nil_of_length_eq_add_one htwo) hread
      _ _ _ _ _ _ _ _ _).mp hok⟩

end TemplateTyping
