import TemplateTyping.Host.Identity
import TemplateTyping.Host.Member

/-!
# Assignability

When a value of one type can be used where another type is expected. A type
satisfies an interface if it has every method that the interface asks for, with
an identical signature. A value is assignable to its own type, between a named
type and the composite type it stands for, and to every interface it satisfies;
an untyped constant is assignable where its value can be represented.
-/

namespace TemplateTyping.Universe

/-- Whether a type has every method that an interface of the given package asks
for. -/
def satisfies (u : Universe) (ty : Ty) (package : Option String)
    (methods : List (InterfaceMethod Ty)) : Bool :=
  match u.underlying ty with
  | .interface _ own =>
      methods.all fun wanted =>
        (own.find? (·.name == wanted.name)).any fun method =>
          method.signature.identical wanted.signature
  | _ =>
      methods.all fun wanted =>
        match u.findMember ty ⟨wanted.name, package⟩ ty.isPointer with
        | some (.method signature) => signature.identical wanted.signature
        | _ => false

/-- Whether a type satisfies an interface type; `none` if the second type is not
an interface. -/
def implements? (u : Universe) (ty interface : Ty) : Option Bool :=
  match u.underlying interface with
  | .interface package methods => some (u.satisfies ty package methods)
  | _ => none

/-- Whether an untyped constant can be represented in a typed basic kind. -/
def representable (constant target : Kind) : Bool :=
  !target.isUntyped && match constant with
  | .untypedBool => target == .bool
  | .untypedInt | .untypedRune => target.isNumeric
  | .untypedFloat => target.isFloat || target.isComplex
  | .untypedComplex => target.isComplex
  | .untypedString => target == .string
  | .untypedNil => target == .unsafePointer
  | _ => false

/-- Whether an untyped constant can be used where a type is expected. -/
def constantAssignable (u : Universe) (constant : Kind) (expected : Ty) : Bool :=
  match u.underlying expected with
  | .interface package methods =>
      constant == .untypedNil || u.satisfies (.basic constant.concrete) package methods
  | .basic target => representable constant target
  | .pointer _ | .slice _ | .map _ _ | .chan _ | .func _ => constant == .untypedNil
  | _ => false

/-- Whether a value that is no untyped constant can be used where another type
is expected. -/
def valueAssignable (u : Universe) (source target : Ty) : Bool :=
  (u.underlying source).identical (u.underlying target) && !(source.hasName && target.hasName) ||
    (u.implements? source target).getD false

/-- Whether a value of type `source` can be used where `target` is expected. -/
def assignable (u : Universe) (source target : Ty) : Bool :=
  source.identical target ||
    match source with
    | .basic kind =>
        if kind.isUntyped then u.constantAssignable kind target else u.valueAssignable source target
    | _ => u.valueAssignable source target

/-- Whether a value can stand in for an error. -/
def isErrorLike (u : Universe) (ty : Ty) : Bool :=
  (u.implements? ty (.named .error)).getD false

/-- Whether a value can be passed for a parameter: as it is, through the pointer
that it is, or by its address. -/
def passable (u : Universe) (arg param : Ty) : Bool :=
  u.assignable arg param ||
    (u.pointee? arg).any (u.assignable · param) ||
    (u.pointee? param).any (u.assignable arg ·)

end TemplateTyping.Universe
