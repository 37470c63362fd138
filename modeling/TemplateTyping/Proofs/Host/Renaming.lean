import TemplateTyping.Check.Iteration

/-!
# Other names for named types

A named type is known by its place in the universe.  Giving other names to the
named types changes their descriptions and nothing else: what stands behind a
type, the fields and methods it has, and where its values can be used stay as
they were.
-/

namespace TemplateTyping

/-- Gives a name to each named type by its place. -/
def Universe.rename (u : Universe) (names : Nat → String) : Universe :=
  ⟨u.declarations.mapIdx fun index d => { d with name := names index }⟩

namespace Universe

variable (u : Universe) (names : Nat → String)

/-- A declaration keeps everything but its name. -/
theorem declaration_rename (name : TypeName) :
    ∃ other, (u.rename names).declaration name =
      { u.declaration name with name := other } := by
  cases name with
  | error => exact ⟨_, rfl⟩
  | declared index =>
      simp only [declaration, rename, List.getElem?_mapIdx]
      cases u.declarations[index]? with
      | none => exact ⟨_, rfl⟩
      | some d => exact ⟨_, rfl⟩

@[simp]
theorem underlying_rename (ty : Ty) :
    (u.rename names).underlying ty = u.underlying ty := by
  cases ty with
  | named name =>
      obtain ⟨other, hother⟩ := u.declaration_rename names name
      simp only [underlying, hother]
      rfl
  | _ => rfl

@[simp]
theorem concrete_rename (ty : Ty) :
    (u.rename names).concrete ty = u.concrete ty := by
  simp only [concrete, underlying_rename]

@[simp]
theorem isInteger_rename (ty : Ty) :
    (u.rename names).isInteger ty = u.isInteger ty := by
  simp only [isInteger, underlying_rename]

/-! ## Pointers -/

@[simp]
theorem pointee?_rename (ty : Ty) :
    (u.rename names).pointee? ty = u.pointee? ty := by
  simp only [pointee?, underlying_rename]

theorem followPointers_rename (budget : Nat) (ty : Ty) :
    (u.rename names).followPointers budget ty = u.followPointers budget ty := by
  induction budget generalizing ty with
  | zero => rfl
  | succ budget ih => simp only [followPointers, pointee?_rename, ih]

@[simp]
theorem pointerTarget?_rename (ty : Ty) :
    (u.rename names).pointerTarget? ty = u.pointerTarget? ty := by
  have hlength : (u.rename names).names.length = u.names.length := by
    simp [Universe.names, rename]
  rw [pointerTarget?, pointerTarget?, hlength, followPointers_rename]

/-! ## Fields and methods -/

theorem ofDeclaration_rename
    (access : Access) (viaPointer : Bool) (name : TypeName) :
    Findings.ofDeclaration access viaPointer
        ((u.rename names).declaration name) =
      Findings.ofDeclaration access viaPointer (u.declaration name) := by
  obtain ⟨other, hother⟩ := u.declaration_rename names name
  rw [hother]
  rfl

theorem searchLevel_rename
    (access : Access) (level : List Candidate) (seen : List TypeName) :
    (u.rename names).searchLevel access level seen =
      u.searchLevel access level seen := by
  fun_induction searchLevel u access level seen with
  | case1 seen => rfl
  | case2 name viaPointer level seen hseen ih =>
      rw [searchLevel, if_pos hseen, ih]
  | case3 name viaPointer level seen hnew findings seen' heq ih =>
      rw [searchLevel, if_neg hnew, ih, heq, ofDeclaration_rename]
  | case4 ty viaPointer level seen hne findings seen' heq ih =>
      rw [searchLevel, ih, heq]
      exact hne

theorem search_rename
    (access : Access) (level : List Candidate) (seen : List TypeName) :
    (u.rename names).search access level seen = u.search access level seen :=
  search_congr (u.searchLevel_rename names access) level seen

@[simp]
theorem findMember_rename (ty : Ty) (access : Access) (viaPointer : Bool) :
    (u.rename names).findMember ty access viaPointer =
      u.findMember ty access viaPointer :=
  u.search_rename names access _ _

@[simp]
theorem member?_rename (ty : Ty) (access : Access) :
    (u.rename names).member? ty access = u.member? ty access :=
  u.findMember_rename names ty access true

/-! ## Assignability -/

@[simp]
theorem satisfies_rename
    (ty : Ty) (package : Option String) (methods : List (InterfaceMethod Ty)) :
    (u.rename names).satisfies ty package methods =
      u.satisfies ty package methods := by
  simp only [satisfies, underlying_rename, findMember_rename]

@[simp]
theorem implements?_rename (ty interface : Ty) :
    (u.rename names).implements? ty interface = u.implements? ty interface := by
  simp only [implements?, underlying_rename, satisfies_rename]

@[simp]
theorem assignable_rename (source target : Ty) :
    (u.rename names).assignable source target = u.assignable source target := by
  simp only [assignable, constantAssignable, valueAssignable, underlying_rename,
    satisfies_rename, implements?_rename]

@[simp]
theorem isErrorLike_rename (ty : Ty) :
    (u.rename names).isErrorLike ty = u.isErrorLike ty := by
  simp only [isErrorLike, implements?_rename]

@[simp]
theorem passable_rename (arg param : Ty) :
    (u.rename names).passable arg param = u.passable arg param := by
  simp only [passable, assignable_rename, pointee?_rename]

/-! ## Signatures -/

@[simp]
theorem parameters_rename (signature : Signature Ty) :
    (u.rename names).parameters signature = u.parameters signature := by
  simp only [parameters, sliceElem?, underlying_rename]

@[simp]
theorem isBool_rename (ty : Ty) :
    (u.rename names).isBool ty = u.isBool ty := by
  simp only [isBool, underlying_rename]

@[simp]
theorem yielded?_rename (signature : Signature Ty) :
    (u.rename names).yielded? signature = u.yielded? signature := by
  simp only [yielded?, isBool_rename, underlying_rename]

end Universe

end TemplateTyping
