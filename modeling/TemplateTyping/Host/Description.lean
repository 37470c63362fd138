import TemplateTyping.Host.Universe

/-!
# Descriptions of types

A type is described the way it is written in source code. Named types are
given by their qualified names, so a description of a cyclic type is finite and
two different types may have the same description.
-/

namespace TemplateTyping.Universe

mutual

/-- The description of a type. -/
def describe (u : Universe) (ty : Ty) : String :=
  match ty with
  | .basic kind => kind.name
  | .named name => (u.declaration name).qualifiedName
  | .pointer elem => "*" ++ u.describe elem
  | .slice elem => "[]" ++ u.describe elem
  | .array size elem => "[" ++ toString size ++ "]" ++ u.describe elem
  | .map key elem => "map[" ++ u.describe key ++ "]" ++ u.describe elem
  | .chan elem => "chan " ++ u.describe elem
  | .func signature => "func" ++ u.describeSignature signature
  | .struct _ fields =>
      "struct\x7b" ++ String.intercalate "; " (u.describeFields fields) ++ "\x7d"
  | .interface _ methods =>
      "interface\x7b" ++ String.intercalate "; " (u.describeMethods methods) ++ "\x7d"
termination_by structural ty

/-- Parameters in parentheses, followed by the results; several results stand
in parentheses too. -/
def describeSignature (u : Universe) (signature : Signature Ty) : String :=
  match signature with
  | ⟨params, results, variadic⟩ =>
      let head := "(" ++ String.intercalate ", " (u.describeParams variadic params) ++ ")"
      match u.describeAll results with
      | [] => head
      | [result] => head ++ " " ++ result
      | results => head ++ " (" ++ String.intercalate ", " results ++ ")"
termination_by structural signature

/-- Descriptions of parameters; a variadic last slice is written with dots. -/
def describeParams (u : Universe) (variadic : Bool) (params : List Ty) : List String :=
  match params with
  | [] => []
  | [.slice elem] => [if variadic then "..." ++ u.describe elem else "[]" ++ u.describe elem]
  | param :: params => u.describe param :: u.describeParams variadic params
termination_by structural params

/-- Descriptions of several types. -/
def describeAll (u : Universe) (types : List Ty) : List String :=
  match types with
  | [] => []
  | ty :: types => u.describe ty :: u.describeAll types
termination_by structural types

/-- Descriptions of fields; an embedded field is given by its type alone. -/
def describeFields (u : Universe) (fields : List (Field Ty)) : List String :=
  match fields with
  | [] => []
  | field :: fields => u.describeField field :: u.describeFields fields
termination_by structural fields

/-- The description of one field. -/
def describeField (u : Universe) (field : Field Ty) : String :=
  match field with
  | ⟨name, ty, embedded⟩ => if embedded then u.describe ty else name ++ " " ++ u.describe ty
termination_by structural field

/-- Descriptions of the methods of an interface. -/
def describeMethods (u : Universe) (methods : List (InterfaceMethod Ty)) : List String :=
  match methods with
  | [] => []
  | method :: methods => u.describeMethod method :: u.describeMethods methods
termination_by structural methods

/-- The description of one method of an interface. -/
def describeMethod (u : Universe) (method : InterfaceMethod Ty) : String :=
  match method with
  | ⟨name, signature⟩ => name ++ u.describeSignature signature
termination_by structural method

end

/-- An embedded field takes the name of the named type it embeds, directly or
through pointers; otherwise the description of that type is its name. -/
def embed (u : Universe) (ty : Ty) : Field Ty where
  name := match ty.withoutPointers with
    | .named name => (u.declaration name).name
    | other => u.describe other
  type := ty
  embedded := true

end TemplateTyping.Universe
