import TemplateTyping.Check.Call

/-!
# Iteration

What a range runs over: collections, channels, whole numbers, and functions
that hand their values to a callback. A range with two variables needs a key
besides the element.
-/

namespace TemplateTyping

/-- The types that a range takes from round to round. -/
structure Iteration where
  key : Option Ty
  elem : Ty

namespace Universe

/-- Whether a type is that of truth values. -/
def isBool (u : Universe) (ty : Ty) : Bool :=
  match u.underlying ty with
  | .basic .bool => true
  | _ => false

/-- What an iterator function hands to its callback: one value, or a key and a
value. -/
def yielded? (u : Universe) (signature : Signature Ty) : Option (List Ty) :=
  match signature with
  | ⟨[callback], [], false⟩ =>
      match u.underlying callback with
      | .func ⟨params, [result], false⟩ => if u.isBool result then some params else none
      | _ => none
  | _ => none

/-- The types that a range over `source` takes for its variables, of which there
are `vars`. -/
def iteration (u : Universe) (source : Ty) (vars : Nat) : Except Cause Iteration := do
  let single (elem : Ty) : Except Cause Iteration :=
    if 1 < vars then .error (.rangeVariables (u.describe source)) else .ok ⟨none, elem⟩
  let item ← u.target source
  match u.underlying item with
  | .slice elem | .array _ elem => return ⟨some (.basic .int), elem⟩
  | .map key elem => return ⟨some key, elem⟩
  | .chan elem => single elem
  | .basic kind =>
      if kind.isInteger then single (if kind.isUntyped then .basic kind.concrete else item)
      else throw (.cannotRange (u.describe source))
  | .func signature =>
      match u.yielded? signature with
      | some [value] => single value
      | some [key, value] => if 1 < vars then return ⟨some key, value⟩ else return ⟨none, key⟩
      | _ => throw (.cannotRange (u.describe source))
  | _ => throw (.cannotRange (u.describe source))

end Universe

end TemplateTyping
