import Mathlib.Data.List.Perm.Subperm
import Mathlib.Logic.Relation
import TemplateTyping.Host.Universe

/-!
# The ends of pointer chains

Following pointers goes from a type to what it points to, as long as it points to something.
A pointer may be written on a type or stand behind a name, and a named type may point to
itself, directly or through others.  A chain that passes more named types than there are
passes one of them twice and goes round from there on.  So there are two cases: the chain has
an end, and following pointers leads to that end, or it runs in a circle.  The main statement
is that these two cases are told apart exactly.
-/

namespace TemplateTyping.Universe

/-- The one step of following pointers. -/
def PointsTo (u : Universe) (ty elem : Ty) : Prop :=
  u.pointee? ty = some elem

/-- Following pointers from `ty` leads to `target` and stops there, since `target` is no
pointer. -/
structure EndsAt (u : Universe) (ty target : Ty) : Prop where
  leads : Relation.ReflTransGen u.PointsTo ty target
  stops : u.pointee? target = none

/-- Following pointers from `ty` leads to a named type, and from there back to it. -/
def RunsInCircle (u : Universe) (ty : Ty) : Prop :=
  ∃ name, Relation.ReflTransGen u.PointsTo ty (.named name) ∧
    Relation.TransGen u.PointsTo (.named name) (.named name)

variable {u : Universe} {ty target : Ty}

/-! ## Steps -/

theorem pointsTo_rightUnique : Relator.RightUnique u.PointsTo :=
  fun _ _ _ h h' => Option.some.inj (h.symm.trans h')

theorem not_pointsTo_of_stops (hstops : u.pointee? ty = none) (elem : Ty) :
    ¬u.PointsTo ty elem := by
  simp [PointsTo, hstops]

/-- A chain stays where it stops. -/
theorem eq_of_stops
    (hstops : u.pointee? ty = none) (hleads : Relation.ReflTransGen u.PointsTo ty target) :
    target = ty := by
  rcases hleads.cases_head with heq | ⟨elem, hstep, -⟩
  · exact heq.symm
  · exact absurd hstep (not_pointsTo_of_stops hstops elem)

theorem pointsTo_pointer (elem : Ty) : u.PointsTo (.pointer elem) elem := rfl

/-- Taking off the pointers written on a type is following them. -/
theorem leads_withoutPointers (ty : Ty) :
    Relation.ReflTransGen u.PointsTo ty ty.withoutPointers := by
  fun_induction Ty.withoutPointers ty with
  | case1 elem ih => exact .head (pointsTo_pointer elem) ih
  | case2 ty _ => exact .refl

/-- Where no pointer is written, only a named type of the universe can point to something. -/
theorem exists_name_of_pointsTo {elem : Ty}
    (h : u.PointsTo ty elem) (hty : ty.isPointer = false) :
    ∃ name ∈ u.names, ty = .named name := by
  cases ty with
  | named name =>
      refine ⟨name, ?_, rfl⟩
      by_contra hmem
      have hnone : u.pointee? (.named name) = none := by
        simp [pointee?, underlying, declaration_of_not_mem hmem, Declaration.underlying,
          Ty.emptyStruct]
      exact not_pointsTo_of_stops hnone elem h
  | pointer elem => simp [Ty.isPointer] at hty
  | _ => simp [PointsTo, pointee?, underlying] at h

/-! ## Circles have no end -/

/-- A circle is not left: from wherever it leads to it comes back. -/
theorem leads_back
    (hcircle : Relation.TransGen u.PointsTo ty ty)
    (hleads : Relation.ReflTransGen u.PointsTo ty target) :
    Relation.ReflTransGen u.PointsTo target ty := by
  induction hleads with
  | refl => exact .refl
  | tail _ hstep ih =>
      -- Back at the start the circle gives the next step, anywhere else the way back does.
      rcases ih.cases_head with heq | ⟨elem, hstep', hback⟩
      · obtain ⟨elem, hstep', hback⟩ := Relation.TransGen.head'_iff.mp hcircle
        rw [heq] at hstep
        rwa [pointsTo_rightUnique hstep hstep']
      · rwa [pointsTo_rightUnique hstep hstep']

theorem EndsAt.eq {other : Ty} (h : u.EndsAt ty target) (h' : u.EndsAt ty other) :
    target = other := by
  rcases Relation.ReflTransGen.total_of_right_unique pointsTo_rightUnique
      h.leads h'.leads with hafter | hbefore
  · exact (eq_of_stops h.stops hafter).symm
  · exact eq_of_stops h'.stops hbefore

theorem EndsAt.not_runsInCircle (h : u.EndsAt ty target) : ¬u.RunsInCircle ty := by
  rintro ⟨name, hleads, hcircle⟩
  have hon : Relation.ReflTransGen u.PointsTo (.named name) target := by
    rcases Relation.ReflTransGen.total_of_right_unique pointsTo_rightUnique
        h.leads hleads with hafter | hbefore
    · rw [eq_of_stops h.stops hafter]
    · exact hbefore
  have hend : .named name = target := eq_of_stops h.stops (leads_back hcircle hon)
  obtain ⟨elem, hstep, -⟩ := Relation.TransGen.head'_iff.mp hcircle
  exact not_pointsTo_of_stops (hend ▸ h.stops) elem hstep

/-! ## Following pointers within a budget -/

theorem endsAt_of_followPointers {budget : Nat} (h : u.followPointers budget ty = some target) :
    u.EndsAt ty target := by
  induction budget generalizing ty with
  | zero => simp [followPointers] at h
  | succ budget ih =>
      have hwritten := u.leads_withoutPointers ty
      simp only [followPointers] at h
      split at h
      · rename_i elem hstep
        have hend := ih h
        exact ⟨hwritten.trans (.head hstep hend.leads), hend.stops⟩
      · rename_i hnone
        cases h
        exact ⟨hwritten, hnone⟩

/-- A budget that is used up was spent on named types of the universe, each of which leads to
the ones after it. -/
theorem exists_names_of_followPointers {budget : Nat} (h : u.followPointers budget ty = none) :
    ∃ names : List TypeName, names.length = budget ∧ names ⊆ u.names ∧
      (∀ name ∈ names, Relation.ReflTransGen u.PointsTo ty (.named name)) ∧
      names.Pairwise fun name later =>
        Relation.TransGen u.PointsTo (.named name) (.named later) := by
  induction budget generalizing ty with
  | zero => exact ⟨[], rfl, by simp, by simp, .nil⟩
  | succ budget ih =>
      have hwritten := u.leads_withoutPointers ty
      simp only [followPointers] at h
      split at h
      · rename_i elem hstep
        obtain ⟨name, hmem, hname⟩ := exists_name_of_pointsTo hstep ty.isPointer_withoutPointers
        rw [hname] at hwritten hstep
        obtain ⟨names, hlength, hnames, hleads, hlater⟩ := ih h
        refine ⟨name :: names, by simp [hlength], List.cons_subset.mpr ⟨hmem, hnames⟩, ?_, ?_⟩
        · intro other hother
          rcases List.mem_cons.mp hother with rfl | hother
          · exact hwritten
          · exact hwritten.trans (.head hstep (hleads other hother))
        · exact .cons (fun later hmem => .head' hstep (hleads later hmem)) hlater
      · contradiction

/-- There are fewer named types than the budget allows for, so it is used up only in a circle. -/
theorem runsInCircle_of_pointerTarget? (h : u.pointerTarget? ty = none) : u.RunsInCircle ty := by
  obtain ⟨names, hlength, hnames, hleads, hlater⟩ := exists_names_of_followPointers h
  by_contra hnot
  have hne : names.Pairwise (· ≠ ·) := by
    refine hlater.imp_of_mem fun {name later} hname _ hlater heq => hnot ?_
    subst heq
    exact ⟨name, hleads name hname, hlater⟩
  have hle := (List.subperm_of_subset hne hnames).length_le
  omega

/-! ## The two cases -/

/-- Following pointers has a result unless they run in a circle, and the result is the end of
the chain, a type that is no pointer. -/
theorem pointerTarget?_iff (u : Universe) (ty : Ty) :
    ((∃ target, u.pointerTarget? ty = some target) ↔ ¬u.RunsInCircle ty) ∧
      ∀ target, u.pointerTarget? ty = some target ↔ u.EndsAt ty target := by
  have hsome (target : Ty) : u.pointerTarget? ty = some target → u.EndsAt ty target :=
    endsAt_of_followPointers
  have hexists (h : ¬u.RunsInCircle ty) : ∃ target, u.pointerTarget? ty = some target :=
    Option.ne_none_iff_exists'.mp (mt runsInCircle_of_pointerTarget? h)
  refine ⟨⟨fun ⟨target, htarget⟩ => (hsome target htarget).not_runsInCircle, hexists⟩, ?_⟩
  refine fun target => ⟨hsome target, fun hend => ?_⟩
  obtain ⟨other, hother⟩ := hexists hend.not_runsInCircle
  rw [hother, (hsome other hother).eq hend]

/-! ## A type that points to itself -/

/-- The universes that declaring and defining named types leads to. -/
inductive IsBuilt : Universe → Prop
  | empty : IsBuilt {}
  | declare {u : Universe} (package : Option String) (name : String) :
      IsBuilt u → IsBuilt (u.declare package name).1
  | define {u u' : Universe} (name : TypeName) (ty : Ty) (methods : List Method) :
      IsBuilt u → u.define name ty methods = .ok u' → IsBuilt u'

/-- A named type that is defined as the pointer to itself. -/
def selfPointer : Universe where
  declarations := [{ name := "P", definition := some ⟨.pointer (.named (.declared 0)), []⟩ }]

theorem selfPointer_isBuilt : selfPointer.IsBuilt :=
  .define (.declared 0) (.pointer (.named (.declared 0))) [] (.declare none "P" .empty) rfl

/-- Following pointers does not end in every universe that can be built. -/
theorem selfPointer_endless :
    selfPointer.IsBuilt ∧ selfPointer.pointerTarget? (.named (.declared 0)) = none ∧
      ∀ target, ¬selfPointer.EndsAt (.named (.declared 0)) target := by
  have hcircle : selfPointer.RunsInCircle (.named (.declared 0)) :=
    ⟨.declared 0, .refl, .single rfl⟩
  exact ⟨selfPointer_isBuilt, rfl, fun target hend => hend.not_runsInCircle hcircle⟩

end TemplateTyping.Universe
