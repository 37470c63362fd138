import TemplateTyping.Check.Walk
import TemplateTyping.TemplateSet

/-!
# Checking templates

A template is checked against the type of its data, together with the templates
it invokes. An invocation that is already being checked, with an argument of the
same description, is not checked again, so recursive templates come to an end;
other invocations may be nested up to a limit.
-/

namespace TemplateTyping

/-- What templates are checked with. -/
structure Environment where
  types : Universe
  templates : TemplateSet
  functions : Functions := .standard
  package : Option String := none
  maxDepth : Nat := 64

/-- The name of an invoked template and the description of its argument. -/
abbrev ActiveCall := String × String

namespace Environment

/-- The active call of a template with data of a type. -/
def activeCall (env : Environment) (template : String) (data : Ty) : ActiveCall :=
  (template, env.types.describe data)

/-- The context for checking a tree, given the verdict on invocations. -/
def context (env : Environment) (tree : Tree) (invoke : Invocation → Except Refusal Unit) :
    Context :=
  ⟨env.types, env.functions, env.package, tree, invoke⟩

/-- Walks through a tree with data of a type. -/
def walkTree (env : Environment) (tree : Tree) (data : Ty)
    (invoke : Invocation → Except Refusal Unit) : Except TypeError (Option Ty) :=
  ((env.context tree invoke).walkBody data tree.root).run' (Scope.root data)

/-- The verdict on an invocation while `active` calls are being checked, if
`budget` further ones may be nested. -/
def judge (env : Environment) (budget : Nat) (active : List ActiveCall)
    (invocation : Invocation) : Except Refusal Unit :=
  match env.templates.get? invocation.template with
  | none => .error (.here (.templateNotFound invocation.template))
  | some target =>
      let call := env.activeCall invocation.template invocation.argument
      if call ∈ active then .ok ()
      else
        match budget with
        | 0 => .error (.here (.templateDepth invocation.template env.maxDepth))
        | budget + 1 =>
            match env.walkTree target invocation.argument
                (env.judge budget (active ++ [call])) with
            | .ok _ => .ok ()
            | .error error => .error (.inside error)

/-- Checks a tree against the type of its data: the type of its last node if it
has one, or the first fault. -/
def check (env : Environment) (tree : Tree) (data : Ty) : Except TypeError (Option Ty) :=
  env.walkTree tree data (env.judge env.maxDepth [env.activeCall tree.name data])

end Environment

end TemplateTyping
