import TemplateTyping.Host.Identity

/-!
# Identity as equality

Identical types differ in the packages of their structs and interfaces at most.  Without these
packages identity is equality, so that identical types can be put for one another.
-/

namespace TemplateTyping

mutual

/-- A type without the packages of its structs and interfaces. -/
def Ty.bare (ty : Ty) : Ty :=
  match ty with
  | .basic kind => .basic kind
  | .named name => .named name
  | .pointer elem => .pointer elem.bare
  | .slice elem => .slice elem.bare
  | .array size elem => .array size elem.bare
  | .map key elem => .map key.bare elem.bare
  | .chan elem => .chan elem.bare
  | .func signature => .func (Signature.bare signature)
  | .struct _ fields => .struct none (Field.allBare fields)
  | .interface _ methods => .interface none (InterfaceMethod.allBare methods)
termination_by structural ty

/-- A signature without packages. -/
def Signature.bare (signature : Signature Ty) : Signature Ty :=
  match signature with
  | ⟨params, results, isVariadic⟩ => ⟨Ty.allBare params, Ty.allBare results, isVariadic⟩
termination_by structural signature

/-- Types without packages. -/
def Ty.allBare (types : List Ty) : List Ty :=
  match types with
  | [] => []
  | ty :: types => ty.bare :: Ty.allBare types
termination_by structural types

/-- A field without packages. -/
def Field.bare (field : Field Ty) : Field Ty :=
  match field with
  | ⟨name, ty, embedded⟩ => ⟨name, ty.bare, embedded⟩
termination_by structural field

/-- Fields without packages. -/
def Field.allBare (fields : List (Field Ty)) : List (Field Ty) :=
  match fields with
  | [] => []
  | field :: fields => Field.bare field :: Field.allBare fields
termination_by structural fields

/-- An interface method without packages. -/
def InterfaceMethod.bare (method : InterfaceMethod Ty) : InterfaceMethod Ty :=
  match method with
  | ⟨name, signature⟩ => ⟨name, Signature.bare signature⟩
termination_by structural method

/-- Interface methods without packages. -/
def InterfaceMethod.allBare (methods : List (InterfaceMethod Ty)) : List (InterfaceMethod Ty) :=
  match methods with
  | [] => []
  | method :: methods => InterfaceMethod.bare method :: InterfaceMethod.allBare methods
termination_by structural methods

end

mutual

/-- Types are identical if they are equal without their packages. -/
theorem Ty.identical_iff (a b : Ty) : a.identical b = true ↔ a.bare = b.bare := by
  cases a with
  | basic kind => cases b <;> simp [Ty.identical, Ty.bare]
  | named name => cases b <;> simp [Ty.identical, Ty.bare]
  | pointer elem => cases b <;> simp [Ty.identical, Ty.bare, Ty.identical_iff elem]
  | slice elem => cases b <;> simp [Ty.identical, Ty.bare, Ty.identical_iff elem]
  | array size elem => cases b <;> simp [Ty.identical, Ty.bare, Ty.identical_iff elem]
  | map key elem =>
      cases b <;> simp [Ty.identical, Ty.bare, Ty.identical_iff key, Ty.identical_iff elem]
  | chan elem => cases b <;> simp [Ty.identical, Ty.bare, Ty.identical_iff elem]
  | func signature => cases b <;> simp [Ty.identical, Ty.bare, Signature.identical_iff signature]
  | struct package fields =>
      cases b <;> simp [Ty.identical, Ty.bare, Field.allIdentical_iff fields]
  | interface package methods =>
      cases b <;> simp [Ty.identical, Ty.bare, InterfaceMethod.allIdentical_iff methods]
termination_by structural a

theorem Signature.identical_iff (s t : Signature Ty) : s.identical t = true ↔ s.bare = t.bare := by
  cases s with
  | mk params results isVariadic =>
      cases t
      simp only [Signature.identical, Signature.bare, Bool.and_eq_true, beq_iff_eq,
        Ty.allIdentical_iff params, Ty.allIdentical_iff results, Signature.mk.injEq]
      rw [and_assoc, and_comm, and_assoc]
termination_by structural s

theorem Ty.allIdentical_iff (as bs : List Ty) :
    Ty.allIdentical as bs = true ↔ Ty.allBare as = Ty.allBare bs := by
  cases as with
  | nil => cases bs <;> simp [Ty.allIdentical, Ty.allBare]
  | cons a as =>
      cases bs <;>
        simp [Ty.allIdentical, Ty.allBare, Ty.identical_iff a, Ty.allIdentical_iff as]
termination_by structural as

theorem Field.identical_iff (f g : Field Ty) : f.identical g = true ↔ f.bare = g.bare := by
  cases f with
  | mk name ty embedded =>
      cases g
      simp only [Field.identical, Field.bare, Bool.and_eq_true, beq_iff_eq, Ty.identical_iff ty,
        Field.mk.injEq]
      rw [and_right_comm, and_assoc]
termination_by structural f

theorem Field.allIdentical_iff (fs gs : List (Field Ty)) :
    Field.allIdentical fs gs = true ↔ Field.allBare fs = Field.allBare gs := by
  cases fs with
  | nil => cases gs <;> simp [Field.allIdentical, Field.allBare]
  | cons f fs =>
      cases gs <;>
        simp [Field.allIdentical, Field.allBare, Field.identical_iff f, Field.allIdentical_iff fs]
termination_by structural fs

theorem InterfaceMethod.identical_iff (m n : InterfaceMethod Ty) :
    m.identical n = true ↔ m.bare = n.bare := by
  cases m with
  | mk name signature =>
      cases n
      simp [InterfaceMethod.identical, InterfaceMethod.bare, Signature.identical_iff signature]
termination_by structural m

theorem InterfaceMethod.allIdentical_iff (ms ns : List (InterfaceMethod Ty)) :
    InterfaceMethod.allIdentical ms ns = true ↔
      InterfaceMethod.allBare ms = InterfaceMethod.allBare ns := by
  cases ms with
  | nil => cases ns <;> simp [InterfaceMethod.allIdentical, InterfaceMethod.allBare]
  | cons m ms =>
      cases ns <;>
        simp [InterfaceMethod.allIdentical, InterfaceMethod.allBare,
          InterfaceMethod.identical_iff m, InterfaceMethod.allIdentical_iff ms]
termination_by structural ms

end

namespace InterfaceMethod

/-- Identical lists of methods have identical methods of a name, or both have none. -/
theorem map_bare_find?_eq {own other : List (InterfaceMethod Ty)} (h : allBare own = allBare other)
    (name : String) :
    (own.find? (·.name == name)).map (·.signature.bare) =
      (other.find? (·.name == name)).map (·.signature.bare) := by
  induction own generalizing other with
  | nil => cases other <;> simp_all [allBare]
  | cons method own ih =>
      cases other with
      | nil => simp [allBare] at h
      | cons method' other =>
          obtain ⟨methodName, signature⟩ := method
          obtain ⟨methodName', signature'⟩ := method'
          simp only [allBare, bare, List.cons.injEq, InterfaceMethod.mk.injEq] at h
          obtain ⟨⟨rfl, hsignature⟩, hrest⟩ := h
          cases hname : methodName == name <;> simp [hname, hsignature, ih hrest]

end InterfaceMethod

end TemplateTyping
