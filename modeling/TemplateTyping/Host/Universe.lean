import TemplateTyping.Host.Ty

/-!
# Universes of named types

A universe lists the declarations of the named types in use. A named type is
declared first and defined afterwards, so that methods and fields may refer
back to it; until it is defined it behaves as a struct without fields. The
predeclared error type belongs to every universe.

A template reads through pointers. Named types may be pointers as well, so a
chain of pointers can pass through named types, and it has no end when it comes
back to one of them.
-/

namespace TemplateTyping

/-- A method of a named type. -/
structure Method where
  name : String
  pointerReceiver : Bool
  signature : Signature Ty
  deriving Inhabited

/-- What a named type stands for, and its methods. -/
structure Definition where
  underlying : Ty
  methods : List Method
  deriving Inhabited

/-- A named type: its name, the package it belongs to, and its definition once
it has one. -/
structure Declaration where
  name : String
  package : Option String := none
  definition : Option Definition := none
  deriving Inhabited

namespace Declaration

/-- The name preceded by the package, if there is one. -/
def qualifiedName (d : Declaration) : String :=
  match d.package with
  | some package => package ++ "." ++ d.name
  | none => d.name

/-- The underlying type; that of an undefined type is the empty struct. -/
def underlying (d : Declaration) : Ty :=
  match d.definition with
  | some definition => definition.underlying
  | none => Ty.emptyStruct

/-- The methods; an undefined type has none. -/
def methods (d : Declaration) : List Method :=
  match d.definition with
  | some definition => definition.methods
  | none => []

end Declaration

/-- The predeclared error type: an interface with one method. -/
def errorDeclaration : Declaration where
  name := "error"
  definition := some ⟨Ty.interface none [⟨"Error", [], [.basic .string], false⟩], []⟩

/-- A named type was defined before. -/
structure AlreadyDefined where
  qualifiedName : String
  deriving DecidableEq, Repr

/-- The wording of the refusal to define a type twice. -/
def AlreadyDefined.message (e : AlreadyDefined) : String :=
  "type " ++ e.qualifiedName ++ " is already defined"

/-- The named types in use, in the order of their declarations. -/
structure Universe where
  declarations : List Declaration := []
  deriving Inhabited

namespace Universe

/-- The declaration of a named type. A place that holds no declaration counts
as an undefined type without a name. -/
def declaration (u : Universe) : TypeName → Declaration
  | .error => errorDeclaration
  | .declared index => u.declarations[index]?.getD { name := "" }

/-- The type behind a name; every other type is its own underlying type. -/
def underlying (u : Universe) : Ty → Ty
  | .named name => (u.declaration name).underlying
  | ty => ty

/-- The concrete type of an untyped constant. The type of `nil` and typed values
stay as they are. -/
def concrete (u : Universe) (ty : Ty) : Ty :=
  match u.underlying ty with
  | .basic kind =>
      if kind.isUntyped && kind != .untypedNil then .basic kind.concrete else ty
  | _ => ty

/-- Whether the values of a type are whole numbers. -/
def isInteger (u : Universe) (ty : Ty) : Bool :=
  match u.underlying ty with
  | .basic kind => kind.isInteger
  | _ => false

/-- Adds a declaration whose definition is supplied later. -/
def declare (u : Universe) (package : Option String) (name : String) : Universe × TypeName :=
  (⟨u.declarations ++ [{ name := name, package := package }]⟩, .declared u.declarations.length)

/-- Defines a declared type. Naming another named type adopts the underlying
type which that one has at this moment. -/
def define (u : Universe) (name : TypeName) (underlying : Ty) (methods : List Method) :
    Except AlreadyDefined Universe :=
  match name, (u.declaration name).definition with
  | .declared index, none =>
      let definition : Definition := ⟨u.underlying underlying, methods⟩
      .ok ⟨u.declarations.modify index fun d => { d with definition := some definition }⟩
  | name, _ => .error ⟨(u.declaration name).qualifiedName⟩

/-- Every name of the universe. -/
def names (u : Universe) : List TypeName :=
  .error :: (List.range u.declarations.length).map .declared

theorem mem_names_declared {u : Universe} {index : Nat} :
    .declared index ∈ u.names ↔ index < u.declarations.length := by
  simp [names]

/-- A name outside the universe stands for an undefined type. -/
theorem declaration_of_not_mem {u : Universe} {name : TypeName} (h : name ∉ u.names) :
    u.declaration name = { name := "" } := by
  cases name with
  | error => simp [names] at h
  | declared index =>
      rw [mem_names_declared, Nat.not_lt] at h
      simp [declaration, List.getElem?_eq_none h]

/-! ## Chains of pointers -/

/-- The element type of a pointer, also of a named one. -/
def pointee? (u : Universe) (ty : Ty) : Option Ty :=
  match u.underlying ty with
  | .pointer elem => some elem
  | _ => none

/-- Follows pointers, passing through named types at most `budget` times. -/
def followPointers (u : Universe) : (budget : Nat) → Ty → Option Ty
  | 0, _ => none
  | budget + 1, ty =>
      let target := ty.withoutPointers
      match u.pointee? target with
      | some elem => u.followPointers budget elem
      | none => some target

/-- The first type on a chain of pointers that is not a pointer. A chain that
passes through more named types than there are runs in a circle and has none. -/
def pointerTarget? (u : Universe) (ty : Ty) : Option Ty :=
  u.followPointers (u.names.length + 1) ty

end Universe

end TemplateTyping
