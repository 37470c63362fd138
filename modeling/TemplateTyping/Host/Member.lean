import TemplateTyping.Host.Universe
import TemplateTyping.Text.CharClass

/-!
# Fields and methods by name

A name is looked for in a type level by level: first in the type itself, then
in the types that its struct embeds, then in those that these embed. The first
level at which the name occurs decides, and only if it occurs there once. Each
named type is opened once at most, so the search ends for cyclic types as well:
a level either opens a new named type or holds smaller types than the one
before it.
-/

namespace TemplateTyping

/-- What a name means in a type. -/
inductive Member
  | field (type : Ty)
  | method (signature : Signature Ty)
  deriving Inhabited

/-- A name that is looked for, and the package from which it is used. -/
structure Access where
  name : String
  package : Option String := none
  deriving DecidableEq, Repr

/-- Exported names are visible everywhere, other names only in their package. -/
def Access.allowedIn (access : Access) (package : Option String) : Bool :=
  isExported access.name || package == access.package

/-- A type to be searched. Methods with a pointer receiver count only when the
type is reached through a pointer, or when the caller asks for them. -/
structure Candidate where
  type : Ty
  viaPointer : Bool

/-- The candidate for a type: what the type points to, if it is a pointer. -/
def Candidate.of (ty : Ty) (viaPointer : Bool) : Candidate :=
  ⟨ty.withoutPointers, viaPointer || ty.isPointer⟩

/-- The outcome of searching one candidate or one level: the meanings found,
and the candidates of the next level. -/
structure Findings where
  found : List Member := []
  next : List Candidate := []

namespace Findings

/-- The findings of two searches, one after the other. -/
def append (f g : Findings) : Findings :=
  ⟨f.found ++ g.found, f.next ++ g.next⟩

instance : Append Findings := ⟨append⟩

/-- The findings in a type by its own composition: the fields of a struct, whose
embedded fields are candidates of the next level, or the methods of an
interface. -/
def ofComposite (access : Access) (viaPointer : Bool) : Ty → Findings
  | .struct package fields =>
      { found := (fields.filter fun field =>
            field.name == access.name && access.allowedIn package).map fun field =>
              .field field.type
        next := (fields.filter (·.embedded)).map fun field =>
          Candidate.of field.type viaPointer }
  | .interface package methods =>
      match methods.find? (·.name == access.name) with
      | some method =>
          { found := if access.allowedIn package then [.method method.signature] else [] }
      | none => {}
  | _ => {}

/-- The findings in a declaration: one of its methods, or else what its
underlying type holds. -/
def ofDeclaration (access : Access) (viaPointer : Bool) (d : Declaration) : Findings :=
  match d.methods.find? fun method => method.name == access.name &&
      (viaPointer || !method.pointerReceiver) && access.allowedIn d.package with
  | some method => { found := [.method method.signature] }
  | none => ofComposite access viaPointer d.underlying

end Findings

namespace Universe

/-- Searches the candidates of one level from left to right, passing over the
named types that were opened before. -/
def searchLevel (u : Universe) (access : Access) :
    List Candidate → List TypeName → Findings × List TypeName
  | [], seen => ({}, seen)
  | ⟨.named name, viaPointer⟩ :: level, seen =>
      if name ∈ seen then u.searchLevel access level seen
      else
        let (findings, seen) := u.searchLevel access level (name :: seen)
        (Findings.ofDeclaration access viaPointer (u.declaration name) ++ findings, seen)
  | ⟨ty, viaPointer⟩ :: level, seen =>
      let (findings, seen) := u.searchLevel access level seen
      (Findings.ofComposite access viaPointer ty ++ findings, seen)

/-- The number of named types that are still to be opened. -/
def unseen (u : Universe) (seen : List TypeName) : Nat :=
  u.names.countP (· ∉ seen)

/-- The total size of the types of a level. -/
noncomputable def levelSize : List Candidate → Nat
  | [] => 0
  | c :: level => sizeOf c.type + levelSize level

end Universe

theorem Ty.sizeOf_withoutPointers_le (ty : Ty) :
    sizeOf ty.withoutPointers ≤ sizeOf ty := by
  fun_induction Ty.withoutPointers ty with
  | case1 elem ih => simp; omega
  | case2 ty _ => exact Nat.le_refl _

theorem Ty.sizeOf_pos (ty : Ty) : 0 < sizeOf ty := by
  cases ty <;> simp +arith

/-- The types embedded in a list of fields are together smaller than the list. -/
theorem levelSize_embedded_lt (fields : List (Field Ty)) (viaPointer : Bool) :
    Universe.levelSize ((fields.filter (·.embedded)).map fun field =>
      Candidate.of field.type viaPointer) < sizeOf fields := by
  induction fields with
  | nil => simp [Universe.levelSize]
  | cons field fields ih =>
      obtain ⟨name, ty, embedded⟩ := field
      have hle := ty.sizeOf_withoutPointers_le
      cases embedded <;> simp_all [Universe.levelSize, Candidate.of] <;> omega

/-- What a composite type leaves for the next level is smaller than the type. -/
theorem levelSize_ofComposite_lt (access : Access) (viaPointer : Bool) (ty : Ty) :
    Universe.levelSize (Findings.ofComposite access viaPointer ty).next < sizeOf ty := by
  have hpos := ty.sizeOf_pos
  cases ty with
  | struct package fields =>
      have h := levelSize_embedded_lt fields viaPointer
      simp only [Findings.ofComposite, Ty.struct.sizeOf_spec]
      omega
  | interface package methods =>
      simp only [Findings.ofComposite]
      split <;> exact hpos
  | _ => exact hpos

namespace Universe

theorem levelSize_append (as bs : List Candidate) :
    levelSize (as ++ bs) = levelSize as + levelSize bs := by
  induction as with
  | nil => simp [levelSize]
  | cons c as ih => simp only [List.cons_append, levelSize, ih]; omega

theorem unseen_cons_le (u : Universe) (name : TypeName) (seen : List TypeName) :
    u.unseen (name :: seen) ≤ u.unseen seen := by
  apply List.countP_mono_left
  simp_all

/-- Opening a named type of the universe leaves fewer to be opened. -/
theorem unseen_cons_lt {u : Universe} {name : TypeName} {seen : List TypeName}
    (hmem : name ∈ u.names) (hnew : name ∉ seen) :
    u.unseen (name :: seen) < u.unseen seen := by
  unfold unseen
  generalize u.names = names at hmem
  induction names with
  | nil => simp at hmem
  | cons other names ih =>
      have hle : names.countP (· ∉ name :: seen) ≤ names.countP (· ∉ seen) :=
        List.countP_mono_left (by simp_all)
      simp only [List.countP_cons]
      by_cases heq : other = name
      · subst heq
        rw [if_neg (by simp), if_pos (by simpa using hnew)]
        omega
      · have := ih ((List.mem_cons.mp hmem).resolve_left (Ne.symm heq))
        have hsame : other ∉ name :: seen ↔ other ∉ seen := by simp [heq]
        simp only [decide_eq_decide.mpr hsame]
        omega

/-- Searching a level opens a new named type of the universe, or leaves a next
level smaller than this one. -/
theorem searchLevel_decreases (u : Universe) (access : Access)
    (level : List Candidate) (seen : List TypeName) :
    u.unseen (u.searchLevel access level seen).2 ≤ u.unseen seen ∧
      (u.unseen (u.searchLevel access level seen).2 = u.unseen seen →
        levelSize (u.searchLevel access level seen).1.next + level.length ≤ levelSize level) := by
  fun_induction searchLevel u access level seen with
  | case1 seen => simp [levelSize]
  | case2 name viaPointer level seen hseen ih =>
      refine ⟨ih.1, fun h => ?_⟩
      have := ih.2 h
      simp [levelSize] at this ⊢
      omega
  | case3 name viaPointer level seen hnew findings seen' heq ih =>
      rw [heq] at ih
      have hle := u.unseen_cons_le name seen
      refine ⟨Nat.le_trans ih.1 hle, fun h => ?_⟩
      by_cases hmem : name ∈ u.names
      · have := unseen_cons_lt hmem hnew
        have := ih.1
        simp at h this
        omega
      · have hnext : (Findings.ofDeclaration access viaPointer (u.declaration name)).next = [] := by
          simp [declaration_of_not_mem hmem, Findings.ofDeclaration, Declaration.methods,
            Declaration.underlying, Ty.emptyStruct, Findings.ofComposite]
        have := ih.2 (by have := ih.1; simp at h this ⊢; omega)
        change levelSize (_ ++ findings.next) + _ ≤ _
        rw [hnext]
        simp [levelSize] at this ⊢
        omega
  | case4 ty viaPointer level seen hne findings seen' heq ih =>
      rw [heq] at ih
      refine ⟨ih.1, fun h => ?_⟩
      have := ih.2 h
      have hlt := levelSize_ofComposite_lt access viaPointer ty
      change levelSize (_ ++ findings.next) + _ ≤ _
      rw [levelSize_append]
      simp [levelSize] at this hlt ⊢
      omega

/-- Searches level after level until the name occurs. Two occurrences at one
level hide each other. -/
def search (u : Universe) (access : Access) :
    List Candidate → List TypeName → Option Member
  | [], _ => none
  | candidate :: level, seen =>
      let step := u.searchLevel access (candidate :: level) seen
      match step.1.found with
      | [] => u.search access step.1.next step.2
      | [member] => some member
      | _ => none
termination_by level seen => (u.unseen seen, levelSize level)
decreasing_by
  have h := u.searchLevel_decreases access (candidate :: level) seen
  rcases Nat.lt_or_eq_of_le h.1 with hlt | heq
  · exact Prod.Lex.left _ _ hlt
  · have := h.2 heq
    rw [heq]
    exact Prod.Lex.right _ (by simp only [List.length_cons] at this; omega)

/-- Two searches that find the same at every level find the same. -/
theorem search_congr {u u' : Universe} {access access' : Access}
    (h : ∀ level seen, u'.searchLevel access' level seen = u.searchLevel access level seen)
    (level : List Candidate) (seen : List TypeName) :
    u'.search access' level seen = u.search access level seen := by
  fun_induction search u access level seen with
  | case1 seen => rw [search]
  | case2 candidate level seen step hfound ih =>
      rw [search, h]
      simp only [step] at hfound ih
      simp only [hfound, ih, step]
  | case3 candidate level seen step member hfound =>
      rw [search, h]
      simp only [step] at hfound
      simp only [hfound]
  | case4 candidate level seen step hnone hmany =>
      rw [search, h]
      simp only [step] at hnone hmany
      split
      · exact absurd ‹_› hnone
      · exact absurd ‹_› (hmany _)
      · rfl

/-- The meaning of a name in a type. With `viaPointer` the methods of pointer
receivers count although the type is no pointer. -/
def findMember (u : Universe) (ty : Ty) (access : Access) (viaPointer : Bool) : Option Member :=
  u.search access [Candidate.of ty viaPointer] []

/-- The meaning of a name in a value that a template reads, which can always be
pointed to. -/
def member? (u : Universe) (ty : Ty) (access : Access) : Option Member :=
  u.findMember ty access true

end Universe

end TemplateTyping
