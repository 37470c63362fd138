import TemplateTyping.Check.Scope

/-!
# Paths

A path of names after dots leads from a value to one of its parts. Each name is
a key of a map, a field, or a method that is called; only the last one may be
given arguments. Pointers on the way are followed.
-/

namespace TemplateTyping.Context

/-- Whether a name can be a key of a map: an integer key needs an integer, every
other key must be able to hold a text. -/
def checkKey (u : Universe) (mapType key : Ty) (name : String) : Except Cause Unit :=
  if u.isInteger key then
    if (Digits.readSigned? Integer.signedLimit name.toList).isSome then .ok ()
    else .error (.mapKeyNotInteger name (u.describe mapType))
  else if u.assignable (.basic .string) key then .ok ()
  else .error (.fieldNotFound name (u.describe mapType))

/-- The type of what one name leads to. -/
def pathStep (ctx : Context) (node : Node) (args : Arguments) (receiver : Ty) (name : String) :
    Checker Ty := do
  let u := ctx.types
  let current ← ctx.located node (u.target receiver)
  match u.underlying current with
  | .func _ => ctx.fail node (.chainUnsupported (u.describe current))
  | .map key elem =>
      ctx.located node (checkKey u current key name)
      if args.given then ctx.fail node (.notAMethod name) else return elem
  | _ =>
      if isExported name then
        match u.member? current ⟨name, ctx.package⟩ with
        | none => ctx.fail node (.fieldNotFound name (u.describe current))
        | some (.field ty) => if args.given then ctx.fail node (.notAMethod name) else return ty
        | some (.method signature) =>
            let types ← args.types
            ctx.located node (u.checkArguments name signature types)
      else ctx.fail node (.unexported name (u.describe current))

/-- The type of what a path leads to; the arguments belong to its last name. -/
def checkPath (ctx : Context) (node : Node) (args : Arguments) (receiver : Ty) :
    List String → Checker Ty
  | [] => return receiver
  | [name] => ctx.pathStep node args receiver name
  | name :: names => do
      let next ← ctx.pathStep node .none receiver name
      ctx.checkPath node args next names

end TemplateTyping.Context
