/-!
# Basic kinds

The kinds of the predeclared basic types. Besides the typed kinds there are
untyped ones, which the constants of a template have until something fixes
their type.
-/

namespace TemplateTyping

/-- The kind of a basic type. -/
inductive Kind
  | bool
  | int | int8 | int16 | int32 | int64
  | uint | uint8 | uint16 | uint32 | uint64 | uintptr
  | float32 | float64
  | complex64 | complex128
  | string
  | unsafePointer
  | untypedBool
  | untypedInt
  | untypedRune
  | untypedFloat
  | untypedComplex
  | untypedString
  | untypedNil
  deriving DecidableEq, Repr, Inhabited

namespace Kind

/-- Every kind. -/
def all : List Kind :=
  [bool, int, int8, int16, int32, int64, uint, uint8, uint16, uint32, uint64, uintptr,
    float32, float64, complex64, complex128, string, unsafePointer, untypedBool, untypedInt,
    untypedRune, untypedFloat, untypedComplex, untypedString, untypedNil]

theorem mem_all (k : Kind) : k ∈ all := by
  cases k <;> decide

/-- The name by which a kind is written and described. -/
def name : Kind → String
  | bool => "bool"
  | int => "int"
  | int8 => "int8"
  | int16 => "int16"
  | int32 => "int32"
  | int64 => "int64"
  | uint => "uint"
  | uint8 => "uint8"
  | uint16 => "uint16"
  | uint32 => "uint32"
  | uint64 => "uint64"
  | uintptr => "uintptr"
  | float32 => "float32"
  | float64 => "float64"
  | complex64 => "complex64"
  | complex128 => "complex128"
  | string => "string"
  | unsafePointer => "unsafe.Pointer"
  | untypedBool => "untyped bool"
  | untypedInt => "untyped int"
  | untypedRune => "untyped rune"
  | untypedFloat => "untyped float"
  | untypedComplex => "untyped complex"
  | untypedString => "untyped string"
  | untypedNil => "untyped nil"

/-- The kind with a given name. -/
def ofName? (name : String) : Option Kind :=
  all.find? (·.name == name)

/-- Kinds of constants whose type is not fixed yet. -/
def isUntyped : Kind → Bool
  | untypedBool | untypedInt | untypedRune | untypedFloat | untypedComplex | untypedString
  | untypedNil => true
  | _ => false

/-- Kinds of whole numbers. -/
def isInteger : Kind → Bool
  | int | int8 | int16 | int32 | int64 | uint | uint8 | uint16 | uint32 | uint64 | uintptr
  | untypedInt | untypedRune => true
  | _ => false

/-- Kinds of floating-point numbers. -/
def isFloat : Kind → Bool
  | float32 | float64 | untypedFloat => true
  | _ => false

/-- Kinds of complex numbers. -/
def isComplex : Kind → Bool
  | complex64 | complex128 | untypedComplex => true
  | _ => false

/-- Kinds of numbers. -/
def isNumeric (k : Kind) : Bool :=
  k.isInteger || k.isFloat || k.isComplex

/-- Kinds of texts. -/
def isString : Kind → Bool
  | string | untypedString => true
  | _ => false

/-- The kind an untyped constant takes when nothing else fixes it. -/
def concrete : Kind → Kind
  | untypedBool => bool
  | untypedInt => int
  | untypedRune => int32
  | untypedFloat => float64
  | untypedComplex => complex128
  | untypedString => string
  | k => k

end Kind

end TemplateTyping
