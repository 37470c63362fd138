import TemplateTyping.Host.Member

/-!
# Types within reach

From a type one comes to others: to what it is made of, to what stands behind its
name, to the types of its fields and methods.  A set of types that none of these
steps leaves is closed.  Named types may refer to one another in cycles, so the
types that can be come to are not simply smaller and smaller ones.  There are
finitely many of them nevertheless, since every step leads to a type that is
written down in one of the declarations: the main statement is that finitely many
given types lie in a finite closed set.
-/

namespace TemplateTyping

/-! ## Data that holds types -/

/-- Data that holds types. -/
class HasTypes (α : Type) where
  types : α → List Ty

instance : HasTypes Unit where
  types _ := []

instance : HasTypes Kind where
  types _ := []

instance : HasTypes Ty where
  types ty := [ty]

instance {α : Type} [HasTypes α] : HasTypes (Option α) where
  types found := found.toList.flatMap HasTypes.types

instance {α : Type} [HasTypes α] : HasTypes (List α) where
  types values := values.flatMap HasTypes.types

instance : HasTypes (Signature Ty) where
  types signature := signature.params ++ signature.results

instance : HasTypes Member where
  types
    | .field ty => [ty]
    | .method signature => HasTypes.types signature

instance : HasTypes Candidate where
  types candidate := [candidate.type]

instance : HasTypes Findings where
  types findings := HasTypes.types findings.found ++ HasTypes.types findings.next

instance : HasTypes Declaration where
  types d := d.underlying :: HasTypes.types (d.methods.map (·.signature))

/-- Every type in the data is a good one. -/
def MadeOf {α : Type} [HasTypes α] (good : Ty → Prop) (value : α) : Prop :=
  ∀ ty ∈ HasTypes.types value, good ty

namespace MadeOf

variable {α : Type} [HasTypes α] {good : Ty → Prop}

theorem type_iff {ty : Ty} : MadeOf good ty ↔ good ty := by
  simp [MadeOf, HasTypes.types]

theorem unit : MadeOf good () := by
  simp [MadeOf, HasTypes.types]

theorem kind (kind : Kind) : MadeOf good kind := by
  simp [MadeOf, HasTypes.types]

theorem nothing : MadeOf good (none : Option α) := by
  simp [MadeOf, HasTypes.types]

theorem some_iff {value : α} : MadeOf good (some value) ↔ MadeOf good value := by
  simp [MadeOf, HasTypes.types]

theorem getD {found : Option Ty} {default : Ty}
    (hfound : MadeOf good found) (hdefault : good default) :
    good (found.getD default) := by
  cases found with
  | none => exact hdefault
  | some ty => exact type_iff.mp (some_iff.mp hfound)

theorem list_iff {values : List α} :
    MadeOf good values ↔ ∀ value ∈ values, MadeOf good value := by
  simp only [MadeOf, HasTypes.types, List.mem_flatMap]
  constructor
  · intro h value hvalue ty hty
    exact h ty ⟨value, hvalue, hty⟩
  · rintro h ty ⟨value, hvalue, hty⟩
    exact h value hvalue ty hty

theorem empty : MadeOf good ([] : List α) := by
  simp [list_iff]

theorem cons_iff {value : α} {values : List α} :
    MadeOf good (value :: values) ↔ MadeOf good value ∧ MadeOf good values := by
  simp [list_iff]

theorem append_iff {values others : List α} :
    MadeOf good (values ++ others) ↔ MadeOf good values ∧ MadeOf good others := by
  simp [list_iff, or_imp, forall_and]

theorem toList {found : Option α} (h : MadeOf good found) :
    MadeOf good found.toList := by
  cases found with
  | none => exact empty
  | some value => exact cons_iff.mpr ⟨some_iff.mp h, empty⟩

theorem signature_iff {signature : Signature Ty} :
    MadeOf good signature ↔
      (∀ ty ∈ signature.params, good ty) ∧ ∀ ty ∈ signature.results, good ty := by
  simp [MadeOf, HasTypes.types, or_imp, forall_and]

theorem findings_iff {findings : Findings} :
    MadeOf good findings ↔ MadeOf good findings.found ∧ MadeOf good findings.next := by
  simp only [MadeOf, HasTypes.types, List.mem_append, or_imp, forall_and]

theorem findings_append {first second : Findings}
    (hfirst : MadeOf good first) (hsecond : MadeOf good second) :
    MadeOf good (first ++ second) := by
  rw [findings_iff] at hfirst hsecond ⊢
  exact ⟨append_iff.mpr ⟨hfirst.1, hsecond.1⟩, append_iff.mpr ⟨hfirst.2, hsecond.2⟩⟩

end MadeOf

/-! ## Closed sets of types -/

/-- The types that a type is directly made of. -/
def Ty.parts : Ty → List Ty
  | .basic _ | .named _ => []
  | .pointer elem | .slice elem | .array _ elem | .chan elem => [elem]
  | .map key elem => [key, elem]
  | .func signature => HasTypes.types signature
  | .struct _ fields => fields.map (·.type)
  | .interface _ methods => methods.flatMap fun method => HasTypes.types method.signature

/-- No step from a type to another leads out of the good types.  An array can be
cut into slices, whose type need not be written anywhere. -/
structure Universe.Closed (u : Universe) (good : Ty → Prop) : Prop where
  basic : ∀ kind, good (.basic kind)
  underlying : ∀ {ty}, good ty → good (u.underlying ty)
  part : ∀ {ty part}, good ty → part ∈ ty.parts → good part
  slice : ∀ {size elem}, good (.array size elem) → good (.slice elem)
  method : ∀ {name method}, method ∈ (u.declaration name).methods →
    MadeOf good method.signature

namespace Universe.Closed

variable {u : Universe} {good : Ty → Prop}

theorem elem (h : u.Closed good) {ty part : Ty} (hty : good ty)
    {shape : Ty} (hshape : u.underlying ty = shape) (hpart : part ∈ shape.parts) :
    good part :=
  h.part (hshape ▸ h.underlying hty) hpart

theorem concrete (h : u.Closed good) {ty : Ty} (hty : good ty) :
    good (u.concrete ty) := by
  unfold Universe.concrete
  split
  · split
    · exact h.basic _
    · exact hty
  · exact hty

theorem withoutPointers (h : u.Closed good) {ty : Ty} (hty : good ty) :
    good ty.withoutPointers := by
  fun_induction Ty.withoutPointers ty with
  | case1 elem ih => exact ih (h.part hty (by simp [Ty.parts]))
  | case2 ty _ => exact hty

theorem pointee? (h : u.Closed good) {ty : Ty} (hty : good ty) :
    MadeOf good (u.pointee? ty) := by
  unfold Universe.pointee?
  split
  · next elem hshape =>
      exact MadeOf.some_iff.mpr (MadeOf.type_iff.mpr
        (h.elem hty hshape (by simp [Ty.parts])))
  · exact .nothing

theorem followPointers (h : u.Closed good) (budget : Nat) {ty : Ty} (hty : good ty) :
    MadeOf good (u.followPointers budget ty) := by
  induction budget generalizing ty with
  | zero => exact .nothing
  | succ budget ih =>
      have htarget := h.withoutPointers hty
      have hpointee := h.pointee? htarget
      rw [Universe.followPointers]
      cases helem : u.pointee? ty.withoutPointers with
      | none => exact MadeOf.some_iff.mpr (MadeOf.type_iff.mpr htarget)
      | some elem =>
          rw [helem, MadeOf.some_iff, MadeOf.type_iff] at hpointee
          exact ih hpointee

/-! ### Members -/

theorem candidate (h : u.Closed good) {ty : Ty} (hty : good ty) (viaPointer : Bool) :
    MadeOf good (Candidate.of ty viaPointer) :=
  MadeOf.type_iff.mpr (h.withoutPointers hty)

theorem ofComposite (h : u.Closed good) (access : Access) (viaPointer : Bool)
    {ty : Ty} (hty : good ty) :
    MadeOf good (Findings.ofComposite access viaPointer ty) := by
  have hparts : ∀ part ∈ ty.parts, good part := fun _ => h.part hty
  rw [MadeOf.findings_iff]
  cases ty with
  | struct package fields =>
      have hfields : ∀ field ∈ fields, good field.type := by
        intro field hfield
        exact hparts field.type (List.mem_map_of_mem hfield)
      rw [MadeOf.list_iff, MadeOf.list_iff]
      constructor
      · intro member hmember
        obtain ⟨field, hfield, rfl⟩ := List.mem_map.mp hmember
        exact MadeOf.type_iff.mpr (hfields field (List.mem_filter.mp hfield).1)
      · intro next hnext
        obtain ⟨field, hfield, rfl⟩ := List.mem_map.mp hnext
        exact h.candidate (hfields field (List.mem_filter.mp hfield).1) viaPointer
  | interface package methods =>
      simp only [Findings.ofComposite]
      split
      · next method hfind =>
          have hmethod : MadeOf good method.signature := fun part hpart =>
            hparts part (List.mem_flatMap.mpr
              ⟨method, List.mem_of_find?_eq_some hfind, hpart⟩)
          constructor
          · split
            · exact MadeOf.cons_iff.mpr ⟨hmethod, .empty⟩
            · exact .empty
          · exact .empty
      · exact ⟨.empty, .empty⟩
  | _ => exact ⟨.empty, .empty⟩

theorem ofDeclaration (h : u.Closed good) (access : Access) (viaPointer : Bool)
    {name : TypeName} (hname : good (.named name)) :
    MadeOf good
      (Findings.ofDeclaration access viaPointer (u.declaration name)) := by
  unfold Findings.ofDeclaration
  split
  · next method hfind =>
      have hmethod := h.method (List.mem_of_find?_eq_some hfind)
      exact MadeOf.findings_iff.mpr ⟨MadeOf.cons_iff.mpr ⟨hmethod, .empty⟩, .empty⟩
  · exact h.ofComposite access viaPointer (h.underlying hname)

theorem searchLevel (h : u.Closed good) (access : Access)
    {level : List Candidate} (hlevel : MadeOf good level) (seen : List TypeName) :
    MadeOf good (u.searchLevel access level seen).1 := by
  fun_induction Universe.searchLevel u access level seen with
  | case1 seen => exact MadeOf.findings_iff.mpr ⟨.empty, .empty⟩
  | case2 name viaPointer level seen hseen ih =>
      exact ih (MadeOf.cons_iff.mp hlevel).2
  | case3 name viaPointer level seen hnew findings seen' heq ih =>
      obtain ⟨hname, hrest⟩ := MadeOf.cons_iff.mp hlevel
      rw [heq] at ih
      exact .findings_append
        (h.ofDeclaration access viaPointer (MadeOf.type_iff.mp hname)) (ih hrest)
  | case4 ty viaPointer level seen hne findings seen' heq ih =>
      obtain ⟨hty, hrest⟩ := MadeOf.cons_iff.mp hlevel
      rw [heq] at ih
      exact .findings_append
        (h.ofComposite access viaPointer (MadeOf.type_iff.mp hty)) (ih hrest)

theorem search (h : u.Closed good) (access : Access)
    {level : List Candidate} (hlevel : MadeOf good level) (seen : List TypeName) :
    MadeOf good (u.search access level seen) := by
  induction level, seen using Universe.search.induct u access with
  | case1 seen =>
      rw [Universe.search]
      exact .nothing
  | case2 candidate level seen step hfound ih =>
      have hstep := MadeOf.findings_iff.mp (h.searchLevel access hlevel seen)
      rw [Universe.search, hfound]
      exact ih hstep.2
  | case3 candidate level seen step member hfound =>
      have hstep := MadeOf.findings_iff.mp (h.searchLevel access hlevel seen)
      rw [hfound, MadeOf.cons_iff] at hstep
      rw [Universe.search, hfound]
      exact MadeOf.some_iff.mpr hstep.1.1
  | case4 candidate level seen step hnone hmany =>
      rw [Universe.search]
      split
      · exact absurd ‹_› hnone
      · exact absurd ‹_› (hmany _)
      · exact .nothing

theorem member? (h : u.Closed good) {ty : Ty} (hty : good ty) (access : Access) :
    MadeOf good (u.member? ty access) := by
  apply h.search
  exact MadeOf.cons_iff.mpr ⟨h.candidate hty true, .empty⟩

end Universe.Closed

/-! ## A finite closed set -/

namespace Ty

theorem sizeOf_signature_lt {ty : Ty} {signature : Signature Ty}
    (h : ty ∈ HasTypes.types signature) : sizeOf ty < sizeOf signature := by
  cases signature with
  | mk params results isVariadic =>
      simp only [Signature.mk.sizeOf_spec]
      have hty : ty ∈ params ∨ ty ∈ results := List.mem_append.mp h
      rcases hty with hty | hty
      · have := List.sizeOf_lt_of_mem hty
        omega
      · have := List.sizeOf_lt_of_mem hty
        omega

theorem sizeOf_lt_of_mem_parts {ty part : Ty} (h : part ∈ ty.parts) :
    sizeOf part < sizeOf ty := by
  cases ty with
  | func signature =>
      have := sizeOf_signature_lt h
      simp only [Ty.func.sizeOf_spec]
      omega
  | struct package fields =>
      obtain ⟨⟨name, ty, embedded⟩, hfield, rfl⟩ := List.mem_map.mp h
      have := List.sizeOf_lt_of_mem hfield
      simp only [Field.mk.sizeOf_spec, Ty.struct.sizeOf_spec] at this ⊢
      omega
  | interface package methods =>
      obtain ⟨⟨name, signature⟩, hmethod, hpart⟩ := List.mem_flatMap.mp h
      have hsignature : sizeOf part < sizeOf signature := sizeOf_signature_lt hpart
      have := List.sizeOf_lt_of_mem hmethod
      simp only [InterfaceMethod.mk.sizeOf_spec, Ty.interface.sizeOf_spec] at this ⊢
      omega
  | map key elem =>
      simp only [parts, List.mem_cons, List.not_mem_nil, or_false] at h
      rcases h with rfl | rfl <;> simp only [Ty.map.sizeOf_spec] <;> omega
  | array size elem =>
      obtain rfl : part = elem := by simpa [parts] using h
      simp only [Ty.array.sizeOf_spec]
      omega
  | _ => simp_all [parts]

/-- The type, the types it is made of, those that these are made of, and so on. -/
def components (ty : Ty) : List Ty :=
  ty :: ty.parts.attach.flatMap fun part => part.1.components
termination_by sizeOf ty
decreasing_by exact sizeOf_lt_of_mem_parts part.2

theorem mem_components {ty other : Ty} :
    other ∈ ty.components ↔
      other = ty ∨ ∃ part ∈ ty.parts, other ∈ part.components := by
  rw [components]
  simp

theorem components_of_part {ty other part : Ty}
    (hother : other ∈ ty.components) (hpart : part ∈ other.parts) :
    part ∈ ty.components := by
  fun_induction components ty with
  | case1 ty ih =>
      rw [← components, mem_components] at hother ⊢
      right
      rcases hother with rfl | ⟨middle, hmiddle, hother⟩
      · exact ⟨part, hpart, mem_components.mpr (.inl rfl)⟩
      · exact ⟨middle, hmiddle, ih ⟨middle, hmiddle⟩ hother⟩

end Ty

namespace Universe

/-- The types to start from: the given ones, the basic ones and those of every
declaration.  The empty struct stands behind the names outside the universe. -/
def roots (u : Universe) (given : List Ty) : List Ty :=
  given ++ Kind.all.map Ty.basic ++
    Ty.emptyStruct :: u.names.flatMap fun name => HasTypes.types (u.declaration name)

/-- Every type that occurs in one of these. -/
def occurring (u : Universe) (given : List Ty) : List Ty :=
  (u.roots given).flatMap Ty.components

/-- The types that can be come to from the given ones. -/
def reach (u : Universe) (given : List Ty) : List Ty :=
  u.occurring given ++ (u.occurring given).filterMap fun
    | .array _ elem => some (.slice elem)
    | _ => none

section Reach

variable {u : Universe} {given : List Ty}

theorem occurring_of_root {ty : Ty} (h : ty ∈ u.roots given) : ty ∈ u.occurring given :=
  List.mem_flatMap.mpr ⟨ty, h, Ty.mem_components.mpr (.inl rfl)⟩

theorem occurring_of_part {ty part : Ty}
    (hty : ty ∈ u.occurring given) (hpart : part ∈ ty.parts) :
    part ∈ u.occurring given := by
  obtain ⟨root, hroot, hty⟩ := List.mem_flatMap.mp hty
  exact List.mem_flatMap.mpr ⟨root, hroot, Ty.components_of_part hty hpart⟩

theorem occurring_of_declaration {name : TypeName} {ty : Ty}
    (hname : name ∈ u.names) (hty : ty ∈ HasTypes.types (u.declaration name)) :
    ty ∈ u.occurring given := by
  apply occurring_of_root
  exact List.mem_append_right _
    (List.mem_cons_of_mem _ (List.mem_flatMap.mpr ⟨name, hname, hty⟩))

theorem mem_reach {ty : Ty} :
    ty ∈ u.reach given ↔
      ty ∈ u.occurring given ∨
        ∃ size elem, .array size elem ∈ u.occurring given ∧ ty = .slice elem := by
  simp only [reach, List.mem_append, List.mem_filterMap]
  constructor
  · rintro (hty | ⟨array, harray, hslice⟩)
    · exact .inl hty
    · right
      split at hslice
      · next size elem =>
          exact ⟨size, elem, harray, (Option.some.inj hslice).symm⟩
      · cases hslice
  · rintro (hty | ⟨size, elem, harray, rfl⟩)
    · exact .inl hty
    · exact .inr ⟨_, harray, rfl⟩

theorem underlying_mem_occurring (name : TypeName) :
    (u.declaration name).underlying ∈ u.occurring given := by
  by_cases hname : name ∈ u.names
  · exact occurring_of_declaration hname List.mem_cons_self
  · rw [declaration_of_not_mem hname]
    apply occurring_of_root
    simp [roots, Declaration.underlying]

/-- The types that can be come to are a finite set that no step leaves. -/
theorem closed_reach (u : Universe) (given : List Ty) :
    u.Closed (· ∈ u.reach given) where
  basic kind := by
    apply mem_reach.mpr (.inl (occurring_of_root _))
    simp [roots, Kind.mem_all]
  underlying {ty} hty := by
    cases ty with
    | named name => exact mem_reach.mpr (.inl (underlying_mem_occurring name))
    | _ => exact hty
  part {ty part} hty hpart := by
    apply mem_reach.mpr
    left
    rcases mem_reach.mp hty with hty | ⟨size, elem, harray, rfl⟩
    · exact occurring_of_part hty hpart
    · exact occurring_of_part harray hpart
  slice {size elem} harray := by
    apply mem_reach.mpr
    right
    rcases mem_reach.mp harray with harray | ⟨_, _, _, heq⟩
    · exact ⟨size, elem, harray, rfl⟩
    · cases heq
  method {name method} hmethod := by
    intro ty hty
    apply mem_reach.mpr
    left
    by_cases hname : name ∈ u.names
    · apply occurring_of_declaration hname
      exact List.mem_cons_of_mem _
        (List.mem_flatMap.mpr ⟨method.signature, List.mem_map_of_mem hmethod, hty⟩)
    · rw [declaration_of_not_mem hname] at hmethod
      cases hmethod

theorem mem_reach_of_given {ty : Ty} (h : ty ∈ given) : ty ∈ u.reach given := by
  apply mem_reach.mpr (.inl (occurring_of_root _))
  simp [roots, h]

end Reach

end Universe

end TemplateTyping
