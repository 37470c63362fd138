import TemplateTyping.Host.Kind

/-!
# Host types

The types of the values that a template is rendered with. Named types are
referred to by the place of their declaration, so that they may refer to one
another in cycles; all other types are written out in full.
-/

namespace TemplateTyping

/-- The parameters and results of a function or method. When `variadic` is set
the last parameter stands for the slice of all further arguments. -/
structure Signature (α : Type) where
  params : List α
  results : List α
  variadic : Bool := false
  deriving Repr, Inhabited

/-- A field of a struct. The fields and methods of an embedded field are
promoted to the struct. -/
structure Field (α : Type) where
  name : String
  type : α
  embedded : Bool := false
  deriving Repr, Inhabited

/-- A method that an interface asks for. -/
structure InterfaceMethod (α : Type) where
  name : String
  signature : Signature α
  deriving Repr, Inhabited

/-- The identity of a named type: the predeclared error type, or a declaration
given by its place in the order of declarations. -/
inductive TypeName
  | error
  | declared (index : Nat)
  deriving DecidableEq, Repr

/-- A host type. Structs and interfaces know the package whose unexported names
they hold. -/
inductive Ty
  | basic (kind : Kind)
  | named (name : TypeName)
  | pointer (elem : Ty)
  | slice (elem : Ty)
  | array (size : Nat) (elem : Ty)
  | map (key elem : Ty)
  | chan (elem : Ty)
  | func (signature : Signature Ty)
  | struct (package : Option String) (fields : List (Field Ty))
  | interface (package : Option String) (methods : List (InterfaceMethod Ty))
  deriving Inhabited

namespace Ty

/-- The struct without fields. -/
def emptyStruct : Ty := struct none []

/-- The interface that every type satisfies. -/
def any : Ty := interface none []

/-- An interface type; its methods are kept in the order of their names. -/
def interfaceOf (package : Option String) (methods : List (InterfaceMethod Ty)) : Ty :=
  interface package (methods.mergeSort fun m n => decide (m.name ≤ n.name))

/-- A function type whose arguments from some place on all have type `elem`. -/
def variadicFunc (params : List Ty) (elem : Ty) (results : List Ty) : Ty :=
  func ⟨params ++ [slice elem], results, true⟩

/-- An iterator over single values: a function that takes a callback. -/
def sequence (elem : Ty) : Ty :=
  func ⟨[func ⟨[elem], [basic .bool], false⟩], [], false⟩

/-- An iterator over keys and values. -/
def keyedSequence (key elem : Ty) : Ty :=
  func ⟨[func ⟨[key, elem], [basic .bool], false⟩], [], false⟩

/-- The type left after taking off every pointer written on it. -/
def withoutPointers : Ty → Ty
  | pointer elem => elem.withoutPointers
  | ty => ty

/-- Whether the type is written as a pointer. -/
def isPointer : Ty → Bool
  | pointer _ => true
  | _ => false

/-- Named and basic types have names, composite types do not. -/
def hasName : Ty → Bool
  | named _ | basic _ => true
  | _ => false

/-- What is left has no pointer written on it. -/
theorem isPointer_withoutPointers (ty : Ty) : ty.withoutPointers.isPointer = false := by
  fun_induction withoutPointers ty with
  | case1 elem ih => exact ih
  | case2 ty h => cases ty <;> simp_all [isPointer]

end Ty

end TemplateTyping
