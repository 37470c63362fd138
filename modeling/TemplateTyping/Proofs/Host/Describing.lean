import Mathlib.Logic.Function.Basic
import TemplateTyping.Host.Description
import TemplateTyping.Proofs.Host.Identity

/-!
# Identity and descriptions

A description does not show the packages of structs and interfaces, and these are all that
identity passes over.  So identity is an equivalence of types and of signatures, and identical
types have the same description, whatever the named types stand for.

The converse fails: named types are told apart by their declarations, and two declarations may
have the same name.
-/

namespace TemplateTyping

namespace Universe

variable (u : Universe)

/-- Only the last parameter can be written in a way of its own. -/
theorem describeParams_cons_cons (isVariadic : Bool) (param next : Ty) (params : List Ty) :
    u.describeParams isVariadic (param :: next :: params) =
      u.describe param :: u.describeParams isVariadic (next :: params) := by
  rw [describeParams]
  intro elem _ hnil
  cases hnil

mutual

/-- A description does not show packages. -/
theorem describe_bare (ty : Ty) : u.describe ty.bare = u.describe ty := by
  cases ty with
  | basic kind => rfl
  | named name => rfl
  | pointer elem => simp only [Ty.bare, describe, describe_bare elem]
  | slice elem => simp only [Ty.bare, describe, describe_bare elem]
  | array size elem => simp only [Ty.bare, describe, describe_bare elem]
  | map key elem => simp only [Ty.bare, describe, describe_bare key, describe_bare elem]
  | chan elem => simp only [Ty.bare, describe, describe_bare elem]
  | func signature => simp only [Ty.bare, describe, describeSignature_bare signature]
  | struct package fields => simp only [Ty.bare, describe, describeFields_bare fields]
  | interface package methods => simp only [Ty.bare, describe, describeMethods_bare methods]
termination_by structural ty

theorem describeSignature_bare (signature : Signature Ty) :
    u.describeSignature signature.bare = u.describeSignature signature := by
  cases signature with
  | mk params results isVariadic =>
      simp only [Signature.bare, describeSignature, describeParams_bare isVariadic params,
        describeAll_bare results]
termination_by structural signature

theorem describeParams_bare (isVariadic : Bool) (params : List Ty) :
    u.describeParams isVariadic (Ty.allBare params) = u.describeParams isVariadic params := by
  cases params with
  | nil => rfl
  | cons param params =>
      have hparams := describeParams_bare isVariadic params
      have hparam := describe_bare param
      cases params with
      | cons next params =>
          simp only [Ty.allBare] at hparams ⊢
          rw [describeParams_cons_cons, describeParams_cons_cons, hparam, hparams]
      | nil =>
          cases param with
          | slice elem =>
              simp only [Ty.allBare, Ty.bare, describeParams, describe_bare elem]
          | _ => exact congrArg ([·]) hparam
termination_by structural params

theorem describeAll_bare (types : List Ty) :
    u.describeAll (Ty.allBare types) = u.describeAll types := by
  cases types with
  | nil => rfl
  | cons ty types =>
      simp only [Ty.allBare, describeAll, describe_bare ty, describeAll_bare types]
termination_by structural types

theorem describeFields_bare (fields : List (Field Ty)) :
    u.describeFields (Field.allBare fields) = u.describeFields fields := by
  cases fields with
  | nil => rfl
  | cons field fields =>
      simp only [Field.allBare, describeFields, describeField_bare field,
        describeFields_bare fields]
termination_by structural fields

theorem describeField_bare (field : Field Ty) :
    u.describeField field.bare = u.describeField field := by
  cases field with
  | mk name ty embedded => simp only [Field.bare, describeField, describe_bare ty]
termination_by structural field

theorem describeMethods_bare (methods : List (InterfaceMethod Ty)) :
    u.describeMethods (InterfaceMethod.allBare methods) = u.describeMethods methods := by
  cases methods with
  | nil => rfl
  | cons method methods =>
      simp only [InterfaceMethod.allBare, describeMethods, describeMethod_bare method,
        describeMethods_bare methods]
termination_by structural methods

theorem describeMethod_bare (method : InterfaceMethod Ty) :
    u.describeMethod method.bare = u.describeMethod method := by
  cases method with
  | mk name signature =>
      simp only [InterfaceMethod.bare, describeMethod, describeSignature_bare signature]
termination_by structural method

end

end Universe

/-! ## Identity -/

/-- Identity of types is equality without packages, hence an equivalence. -/
theorem Ty.identical_equivalence : Equivalence fun a b : Ty => a.identical b = true := by
  simp only [Ty.identical_iff]
  exact InvImage.equivalence _ Ty.bare eq_equivalence

theorem Signature.identical_equivalence :
    Equivalence fun s t : Signature Ty => s.identical t = true := by
  simp only [Signature.identical_iff]
  exact InvImage.equivalence _ Signature.bare eq_equivalence

namespace Universe

variable {u : Universe}

theorem describe_eq_of_identical {a b : Ty} (h : a.identical b = true) :
    u.describe a = u.describe b := by
  calc
    u.describe a = u.describe a.bare := (u.describe_bare a).symm
    _ = u.describe b.bare := by rw [(Ty.identical_iff a b).mp h]
    _ = u.describe b := u.describe_bare b

theorem describeSignature_eq_of_identical {s t : Signature Ty} (h : s.identical t = true) :
    u.describeSignature s = u.describeSignature t := by
  calc
    u.describeSignature s = u.describeSignature s.bare := (u.describeSignature_bare s).symm
    _ = u.describeSignature t.bare := by rw [(Signature.identical_iff s t).mp h]
    _ = u.describeSignature t := u.describeSignature_bare t

/-- Whatever the named types of a universe stand for, identity is an equivalence of types and
of signatures, and it fixes their descriptions. -/
theorem identity_fixes_description (u : Universe) :
    Equivalence (fun a b : Ty => a.identical b = true) ∧
      Equivalence (fun s t : Signature Ty => s.identical t = true) ∧
        (∀ a b : Ty, a.identical b = true → u.describe a = u.describe b) ∧
          ∀ s t : Signature Ty, s.identical t = true →
            u.describeSignature s = u.describeSignature t := by
  refine ⟨Ty.identical_equivalence, Signature.identical_equivalence, ?_, ?_⟩
  · intro a b hidentical
    exact describe_eq_of_identical hidentical
  · intro s t hidentical
    exact describeSignature_eq_of_identical hidentical

/-- Trees whose children form a forest, and forests of trees. -/
def woods : Universe where
  declarations :=
    [{ name := "Tree",
       definition := some ⟨.struct none [⟨"Children", .named (.declared 1), false⟩], []⟩ },
     { name := "Forest", definition := some ⟨.slice (.named (.declared 0)), []⟩ }]

/-- The signature of a visit to any number of trees, as it is written in some package. -/
def visitSignature (package : Option String) : Signature Ty where
  params :=
    [.named (.declared 1),
      .slice (.struct package [⟨"Tree", .pointer (.named (.declared 0)), true⟩])]
  results :=
    [.interface package [⟨"visit", ⟨[.named (.declared 0)], [.basic .bool], false⟩⟩],
      .named .error]
  variadic := true

/-- Two packages write the same type, with an embedded field and a variadic parameter, over
types that refer to each other. -/
theorem identity_fixes_description_woods :
    (Ty.func (visitSignature (some "app"))).identical (.func (visitSignature none)) = true ∧
      woods.describe (.func (visitSignature (some "app"))) =
        woods.describe (.func (visitSignature none)) ∧
      woods.describe (.func (visitSignature none)) =
        "func(Forest, ...struct\x7b*Tree\x7d) (interface\x7bvisit(Tree) bool\x7d, error)" := by
  have hidentical : (Ty.func (visitSignature (some "app"))).identical
      (.func (visitSignature none)) = true := by decide
  obtain ⟨_, _, hdescribe, _⟩ := identity_fixes_description woods
  exact ⟨hidentical, hdescribe _ _ hidentical, by decide +kernel⟩

-- Two declarations of one name have one description and are not identical.
example :
    let u : Universe := ⟨[{ name := "Tree" }, { name := "Tree" }]⟩
    u.describe (.named (.declared 0)) = u.describe (.named (.declared 1)) ∧
      Ty.identical (.named (.declared 0)) (.named (.declared 1)) = false := by decide

end Universe

end TemplateTyping
