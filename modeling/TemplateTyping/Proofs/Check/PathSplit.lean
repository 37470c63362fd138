import TemplateTyping.Proofs.Check.Piping
import TemplateTyping.Proofs.Check.Relevance

/-!
# Splitting paths

A path of names after dots can be cut in two.  The value that its first part leads to is the
receiver of the second part, and the arguments belong to the second part alone, since they are
those of the last name.  Cutting a path moves the place where a fault is reported, but not its
cause.

In a template the first part of a path is cut off by parentheses: the value of a pipeline that is
nothing but the first part is followed by the rest of the names.
-/

namespace TemplateTyping

namespace Checker

variable {α β : Type}

theorem bind_of_eq_ok {check : Checker α} {scope middle : Scope} {value : α}
    (h : check scope = .ok (value, middle)) (next : α → Checker β) :
    (check >>= next) scope = next value middle := by
  change (check scope >>= fun found => next found.1 found.2) = _
  rw [h]
  rfl

theorem bind_of_eq_error {check : Checker α} {scope : Scope} {error : TypeError}
    (h : check scope = .error error) (next : α → Checker β) :
    (check >>= next) scope = .error error := by
  change (check scope >>= fun found => next found.1 found.2) = _
  rw [h]
  rfl

/-! ## Checks with the same verdict -/

/-- Two checks come to the same verdict in every scope: they succeed with the same value and the
same scope in the end, or they find faults of the same cause, which may stand elsewhere. -/
def SameVerdict (first second : Checker α) : Prop :=
  ∀ scope, (first scope).mapError TypeError.cause = (second scope).mapError TypeError.cause

namespace SameVerdict

variable {first second : Checker α}

theorem refl (check : Checker α) : SameVerdict check check := fun _ => rfl

theorem symm (h : SameVerdict first second) : SameVerdict second first :=
  fun scope => (h scope).symm

theorem eq_ok (h : SameVerdict first second) {scope : Scope} {result : α × Scope}
    (hfirst : first scope = .ok result) : second scope = .ok result := by
  have hverdict := h scope
  rw [hfirst] at hverdict
  cases hsecond : second scope with
  | ok other =>
      rw [hsecond] at hverdict
      exact congrArg Except.ok (Except.ok.inj hverdict).symm
  | error error =>
      rw [hsecond] at hverdict
      cases hverdict

theorem eq_error (h : SameVerdict first second) {scope : Scope} {error : TypeError}
    (hfirst : first scope = .error error) :
    ∃ other, second scope = .error other ∧ other.cause = error.cause := by
  have hverdict := h scope
  rw [hfirst] at hverdict
  cases hsecond : second scope with
  | ok result =>
      rw [hsecond] at hverdict
      cases hverdict
  | error other =>
      rw [hsecond] at hverdict
      exact ⟨other, rfl, (Except.error.inj hverdict).symm⟩

theorem bind {next next' : α → Checker β} (h : SameVerdict first second)
    (hnext : ∀ value, SameVerdict (next value) (next' value)) :
    SameVerdict (first >>= next) (second >>= next') := by
  intro scope
  cases hfirst : first scope with
  | ok found =>
      rw [bind_of_eq_ok hfirst, bind_of_eq_ok (h.eq_ok hfirst)]
      exact hnext found.1 found.2
  | error error =>
      obtain ⟨other, hsecond, hcause⟩ := h.eq_error hfirst
      rw [bind_of_eq_error hfirst, bind_of_eq_error hsecond]
      exact congrArg Except.error hcause.symm

/-- The node at which a fault is reported is no part of the verdict. -/
theorem located (ctx : Context) (node node' : Node) (verdict : Except Cause α) :
    SameVerdict (ctx.located node verdict) (ctx.located node' verdict) := by
  cases verdict with
  | ok value => exact refl _
  | error cause => exact fun _ => rfl

end SameVerdict

end Checker

/-! ## Paths -/

namespace Context

open Checker

variable {ctx : Context} {args : Arguments} {receiver : Ty}

theorem pathStep_sameVerdict (node node' : Node) (name : String) :
    SameVerdict (ctx.pathStep node args receiver name)
      (ctx.pathStep node' args receiver name) := by
  rw [pathStep_eq, pathStep_eq]
  refine (SameVerdict.located ctx node node' _).bind fun resolution => ?_
  cases resolution with
  | value ty =>
      rw [applyResolution, applyResolution]
      by_cases hgiven : args.given = true
      · rw [if_pos hgiven, if_pos hgiven]
        exact fun _ => rfl
      · rw [if_neg hgiven, if_neg hgiven]
        exact .refl _
  | method signature =>
      rw [applyResolution, applyResolution]
      exact (SameVerdict.refl _).bind fun types => .located ctx node node' _

theorem checkPath_cons_of_ne_nil (node : Node) (name : String) {path : List String}
    (hpath : path ≠ []) :
    ctx.checkPath node args receiver (name :: path) =
      ctx.pathStep node .none receiver name >>= fun next => ctx.checkPath node args next path := by
  cases path with
  | nil => exact absurd rfl hpath
  | cons second path => rfl

theorem checkPath_sameVerdict (node node' : Node) (path : List String) :
    SameVerdict (ctx.checkPath node args receiver path)
      (ctx.checkPath node' args receiver path) := by
  induction path generalizing receiver with
  | nil => exact .refl _
  | cons name path ih =>
      by_cases hpath : path = []
      · subst hpath
        exact pathStep_sameVerdict node node' name
      · rw [checkPath_cons_of_ne_nil node name hpath, checkPath_cons_of_ne_nil node' name hpath]
        exact (pathStep_sameVerdict node node' name).bind fun next => ih

/-- The second part of a path goes on from the value that the first part leads to. -/
theorem checkPath_append (node : Node) {xs ys : List String} (hxs : xs ≠ []) (hys : ys ≠ []) :
    ctx.checkPath node args receiver (xs ++ ys) =
      ctx.checkPath node .none receiver xs >>= fun middle =>
        ctx.checkPath node args middle ys := by
  induction xs generalizing receiver with
  | nil => exact absurd rfl hxs
  | cons name xs ih =>
      have hrest : xs ++ ys ≠ [] := List.append_ne_nil_of_right_ne_nil xs hys
      rw [List.cons_append, checkPath_cons_of_ne_nil node name hrest]
      by_cases hxs' : xs = []
      · subst hxs'
        rfl
      · rw [checkPath_cons_of_ne_nil node name hxs', bind_assoc]
        exact bind_congr fun next => ih hxs'

/-- A path without arguments sets no variable. -/
theorem scope_eq_of_checkPath {node : Node} {path : List String} (hpath : path ≠ [])
    {scope after : Scope} {ty : Ty}
    (h : ctx.checkPath node .none receiver path scope = .ok (ty, after)) : after = scope :=
  (checkPath_sets (.none none) node receiver hpath scope ty after h).eq_of_nil

end Context

/-! ## Parentheses around the first part -/

/-- The value of a path in parentheses, followed by further names. -/
def pathInParens (span pipeSpan commandSpan fieldSpan : Span) (xs ys : List String) : Node :=
  .chain span (.pipe ⟨pipeSpan, false, [], [⟨commandSpan, [.field fieldSpan xs]⟩]⟩) ys

namespace Context

open Checker

variable {ctx : Context} {dot : Ty}

theorem walk_field (args : Arguments) (span : Span) (path : List String) :
    ctx.walk dot args (.field span path) =
      ctx.checkPath (.field span path) args dot path >>= fun ty => pure (some ty) := by
  rw [walk]

/-- A path in parentheses has the type that it leads to. -/
theorem walk_pathInParens (args : Arguments) (span pipeSpan commandSpan fieldSpan : Span)
    (xs ys : List String) :
    ctx.walk dot args (pathInParens span pipeSpan commandSpan fieldSpan xs ys) =
      ctx.checkPath (.field fieldSpan xs) .none dot xs >>= fun middle =>
        ctx.checkPath (pathInParens span pipeSpan commandSpan fieldSpan xs ys) args middle ys >>=
          fun ty => pure (some ty) := by
  have hplain : ∀ pipe, ctx.plain (.pipe pipe) .none = pure () := fun _ => rfl
  have hargs : (⟨[], ctx.checkOperands dot [], none⟩ : Arguments) = .none := by
    rw [checkOperands]
    rfl
  rw [pathInParens, walk, walk, hplain, checkPipe_singleton,
    checkApplication_of_ne_nil _ _ _ _ (by simp), hargs]
  simp only [walk_field, bind_assoc, pure_bind, Option.getD_some]

end Context

/-- A path may be split anywhere.  It succeeds with a type exactly if its first part succeeds
without arguments and its second part, from there, succeeds with that type; and if one of the
parts finds a fault, the whole path finds one of the same cause.  So a command comes to the same
verdict if the first part of its path is put in parentheses. -/
theorem Context.checkPath_append_verdict {xs ys : List String} (hxs : xs ≠ []) (hys : ys ≠ [])
    (ctx : Context) :
    (∀ (args : Arguments) (receiver : Ty) (node first second : Node) (scope : Scope),
      (∀ ty after, ctx.checkPath node args receiver (xs ++ ys) scope = .ok (ty, after) ↔
        ∃ middle, ctx.checkPath first .none receiver xs scope = .ok (middle, scope) ∧
          ctx.checkPath second args middle ys scope = .ok (ty, after)) ∧
      (∀ error, ctx.checkPath first .none receiver xs scope = .error error →
        ∃ whole, ctx.checkPath node args receiver (xs ++ ys) scope = .error whole ∧
          whole.cause = error.cause) ∧
      ∀ middle error, ctx.checkPath first .none receiver xs scope = .ok (middle, scope) →
        ctx.checkPath second args middle ys scope = .error error →
        ∃ whole, ctx.checkPath node args receiver (xs ++ ys) scope = .error whole ∧
          whole.cause = error.cause) ∧
    ∀ (dot : Ty) (passed : Option Ty) (operands : List Node)
      (span span' whole chain pipe command field : Span),
      Checker.SameVerdict
        (ctx.checkCommand dot ⟨span, .field whole (xs ++ ys) :: operands⟩ passed)
        (ctx.checkCommand dot ⟨span', pathInParens chain pipe command field xs ys :: operands⟩
          passed) := by
  have hsplit : ∀ (args : Arguments) (receiver : Ty) (node first second : Node),
      Checker.SameVerdict (ctx.checkPath node args receiver (xs ++ ys))
        (ctx.checkPath first .none receiver xs >>= fun middle =>
          ctx.checkPath second args middle ys) := by
    intro args receiver node first second
    rw [checkPath_append node hxs hys]
    exact (checkPath_sameVerdict node first xs).bind fun middle =>
      checkPath_sameVerdict node second ys
  constructor
  · intro args receiver node first second scope
    have hverdict : Checker.SameVerdict _ _ := hsplit args receiver node first second
    refine ⟨fun ty after => ?_, fun error hfirst => ?_, fun middle error hfirst hsecond => ?_⟩
    · constructor
      · intro hwhole
        obtain ⟨middle, between, hfirst, hsecond⟩ :=
          Checker.bind_eq_ok_iff.mp (hverdict.eq_ok hwhole)
        obtain rfl := scope_eq_of_checkPath hxs hfirst
        exact ⟨middle, hfirst, hsecond⟩
      · rintro ⟨middle, hfirst, hsecond⟩
        exact hverdict.symm.eq_ok (Checker.bind_eq_ok_iff.mpr ⟨middle, scope, hfirst, hsecond⟩)
    · exact hverdict.symm.eq_error (Checker.bind_of_eq_error hfirst _)
    · exact hverdict.symm.eq_error ((Checker.bind_of_eq_ok hfirst _).trans hsecond)
  · intro dot passed operands span span' whole chain pipe command field
    have hfield : ¬∃ span, Node.field whole (xs ++ ys) = .nil span := by simp
    have hparens : ¬∃ span, pathInParens chain pipe command field xs ys = .nil span := by
      simp [pathInParens]
    rw [checkCommand, checkCommand, checkApplication_of_ne_nil _ _ _ _ hfield,
      checkApplication_of_ne_nil _ _ _ _ hparens]
    simp only [walk_field, walk_pathInParens, bind_assoc, pure_bind]
    rw [← bind_assoc (x := ctx.checkPath _ _ _ _)]
    exact (hsplit _ dot _ _ _).bind fun ty => .refl _

/-- A value with a method that takes a text. -/
def joiner : Ty := .interface none [⟨"Join", [.basic .string], [.basic .string], false⟩]

/-- The context of a template without named types and without invocations. -/
def joinerContext : Context :=
  Environment.plainEnvironment.context ⟨"page", "page", ⟨.origin, []⟩, ""⟩ fun _ => .ok ()

/-- A text that is passed on is the argument of the method at the end of the path, with and without
parentheses around the first name; a whole number is refused there. -/
theorem Context.checkPath_append_verdict_join :
    let data : Ty := .map (.basic .string) joiner
    let node : Node := .field ⟨0, 7⟩ ["A", "Join"]
    let passing (ty : Ty) : Arguments := ⟨[], pure [], some ty⟩
    joinerContext.checkPath node (passing (.basic .string)) data ["A", "Join"] settingScope =
      .ok (.basic .string, settingScope) ∧
    (∃ error, joinerContext.checkPath node (passing (.basic .int)) data ["A", "Join"]
      settingScope = .error error ∧ error.cause = .argumentMismatch "Join" 0 "int" "string") ∧
    joinerContext.checkCommand data
      ⟨⟨0, 9⟩, [pathInParens ⟨0, 9⟩ ⟨0, 4⟩ ⟨1, 3⟩ ⟨1, 3⟩ ["A"] ["Join"]]⟩ (some (.basic .string))
        settingScope = .ok (.basic .string, settingScope) := by
  intro data node passing
  have hmember : joinerContext.types.member? joiner ⟨"Join", joinerContext.package⟩ =
      some (.method ⟨[.basic .string], [.basic .string], false⟩) := by
    rw [Universe.member?, Universe.findMember, Universe.search]
    rfl
  have htarget : joinerContext.types.target joiner = .ok joiner := rfl
  have hstep := joinerContext.pathStep_of_member? htarget
    ⟨fun _ _ => Ty.noConfusion, fun _ => Ty.noConfusion⟩ (by decide +kernel) hmember node
  obtain ⟨hpath, hcommand⟩ := Context.checkPath_append_verdict (List.cons_ne_nil "A" [])
    (List.cons_ne_nil "Join" []) joinerContext
  have htext : joinerContext.checkPath node (passing (.basic .string)) data ["A", "Join"]
      settingScope = .ok (.basic .string, settingScope) := by
    refine ((hpath _ data node node node settingScope).1 _ _).mpr ⟨joiner, rfl, ?_⟩
    exact congrFun (hstep (passing (.basic .string))) settingScope
  refine ⟨htext, ?_, ?_⟩
  · refine (hpath _ data node node node settingScope).2.2 joiner ⟨joinerContext.tree, node, _⟩ rfl ?_
    exact congrFun (hstep (passing (.basic .int))) settingScope
  · refine (hcommand data _ [] ⟨0, 7⟩ _ ⟨0, 7⟩ _ _ _ _).eq_ok ?_
    rw [checkCommand, checkApplication_of_ne_nil _ _ _ _ (by simp)]
    simp only [walk_field, bind_assoc, pure_bind, Option.getD_some, bind_pure]
    exact htext

end TemplateTyping
