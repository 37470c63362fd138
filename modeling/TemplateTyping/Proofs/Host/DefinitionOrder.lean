import Mathlib.Data.Set.Finite.Basic
import Mathlib.Logic.Relation
import Mathlib.Order.WellFounded
import TemplateTyping.Host.Universe

/-!
# The order of definitions

Named types are declared first and defined afterwards, one by one.  A type that is defined as
another named type adopts the underlying type which that one has at this moment.  So the order
matters: a type that comes after the one it is defined as shares its underlying type for good,
and a type that comes before it stays a struct without fields.  Among the orders in which every
type comes after the one it is defined as, all lead to the same universe, and there is such an
order unless types are defined as one another in a circle.
-/

namespace TemplateTyping

/-- What a declared type is defined as, and its methods. -/
structure TypeDefinition where
  name : TypeName
  type : Ty
  methods : List Method := []

namespace TypeDefinition

/-- One type is defined as another one. -/
def Names (d e : TypeDefinition) : Prop :=
  d.type = .named e.name

/-- In a list of definitions every type comes after the one it is defined as. -/
def RefersBack : List TypeDefinition → Prop
  | [] => True
  | d :: later => (∀ e ∈ d :: later, ¬d.Names e) ∧ RefersBack later

/-- One type of a list is defined as another one of the list. -/
def Adopts (defs : List TypeDefinition) (d e : TypeDefinition) : Prop :=
  d.Names e ∧ d ∈ defs ∧ e ∈ defs

/-- In a list of definitions no type is, through others of the list, defined as itself. -/
def IsAcyclic (defs : List TypeDefinition) : Prop :=
  ∀ d, ¬Relation.TransGen (Adopts defs) d d

theorem RefersBack.of_append {earlier later : List TypeDefinition} {d : TypeDefinition}
    (h : RefersBack (earlier ++ d :: later)) : ∀ e ∈ d :: later, ¬d.Names e := by
  induction earlier with
  | nil => exact h.1
  | cons _ earlier ih => exact ih h.2

/-- The first type of such a list is defined as none of them, so it stands on no chain that goes
on. -/
theorem RefersBack.adopts_later {d first last : TypeDefinition} {later : List TypeDefinition}
    (h : RefersBack (d :: later)) (hchain : Relation.TransGen (Adopts (d :: later)) first last)
    (hnext : ∃ next, Adopts (d :: later) last next) :
    Relation.TransGen (Adopts later) first last := by
  have hstep {a b : TypeDefinition} (hab : Adopts (d :: later) a b)
      (hnext : ∃ next, Adopts (d :: later) b next) : Adopts later a b := by
    have hmem {a b : TypeDefinition} (hab : Adopts (d :: later) a b) : a ∈ later :=
      (List.mem_cons.mp hab.2.1).resolve_left fun heq => h.1 b hab.2.2 (heq ▸ hab.1)
    obtain ⟨next, hnext⟩ := hnext
    exact ⟨hab.1, hmem hab, hmem hnext⟩
  induction hchain with
  | single hab => exact .single (hstep hab hnext)
  | tail _ hbc ih => exact .tail (ih ⟨_, hbc⟩) (hstep hbc hnext)

theorem RefersBack.isAcyclic {order : List TypeDefinition} (h : RefersBack order) :
    IsAcyclic order := by
  induction order with
  | nil =>
      intro d hcircle
      obtain ⟨e, hstep, -⟩ := Relation.TransGen.head'_iff.mp hcircle
      exact absurd hstep.2.1 List.not_mem_nil
  | cons first later ih =>
      intro d hcircle
      obtain ⟨e, hstep, -⟩ := Relation.TransGen.head'_iff.mp hcircle
      exact ih h.2 d (h.adopts_later hcircle ⟨e, hstep⟩)

/-- In a list without circles some type is defined as none of the list. -/
theorem IsAcyclic.exists_first {defs : List TypeDefinition}
    (h : IsAcyclic defs) (hne : defs ≠ []) : ∃ d ∈ defs, ∀ e ∈ defs, ¬d.Names e := by
  let Later (e d : {d // d ∈ defs}) : Prop :=
    Relation.TransGen (Adopts defs) d.1 e.1
  have : Finite {d // d ∈ defs} := List.finite_toSet defs
  have : IsTrans _ Later := ⟨fun _ _ _ hab hbc => hbc.trans hab⟩
  have : Std.Irrefl Later := ⟨fun d => h d.1⟩
  obtain ⟨d, hd⟩ := List.exists_mem_of_ne_nil defs hne
  obtain ⟨first, -, hfirst⟩ :=
    (Finite.wellFounded_of_trans_of_irrefl Later).has_min Set.univ ⟨⟨d, hd⟩, trivial⟩
  exact ⟨first.1, first.2, fun e he hnames =>
    hfirst ⟨e, he⟩ trivial (.single ⟨hnames, first.2, he⟩)⟩

theorem IsAcyclic.exists_refersBack {defs : List TypeDefinition} (h : IsAcyclic defs) :
    ∃ order : List TypeDefinition, order.Perm defs ∧ RefersBack order := by
  induction hlength : defs.length generalizing defs with
  | zero => exact ⟨[], by simp [List.length_eq_zero_iff.mp hlength], trivial⟩
  | succ count ih =>
      obtain ⟨first, hmem, hfirst⟩ := h.exists_first (List.ne_nil_of_length_eq_add_one hlength)
      obtain ⟨earlier, later, rfl⟩ := List.append_of_mem hmem
      have hrest : IsAcyclic (earlier ++ later) := by
        refine fun d hcircle => h d (Relation.TransGen.mono (fun d e hstep => ?_) d d hcircle)
        grind [Adopts]
      obtain ⟨order, hperm, hback⟩ := ih hrest (by simp at hlength ⊢; omega)
      have hperm' : (first :: order).Perm (earlier ++ first :: later) :=
        (hperm.cons first).trans List.perm_middle.symm
      exact ⟨first :: order, hperm', fun e he => hfirst e (hperm'.subset he), hback⟩

/-- The order is right for some arrangement of the definitions unless they go in a circle. -/
theorem isAcyclic_iff {defs : List TypeDefinition} :
    IsAcyclic defs ↔ ∃ order : List TypeDefinition, order.Perm defs ∧ RefersBack order := by
  refine ⟨IsAcyclic.exists_refersBack, fun ⟨order, hperm, hback⟩ d hcircle => ?_⟩
  refine hback.isAcyclic d (Relation.TransGen.mono (fun a b hstep => ?_) d d hcircle)
  exact ⟨hstep.1, hperm.mem_iff.mpr hstep.2.1, hperm.mem_iff.mpr hstep.2.2⟩

end TypeDefinition

namespace Universe

open TypeDefinition

/-- Runs definitions one after the other. -/
def defineAll (u : Universe) : List TypeDefinition → Except AlreadyDefined Universe
  | [] => .ok u
  | d :: later =>
      match u.define d.name d.type d.methods with
      | .ok u' => u'.defineAll later
      | .error refusal => .error refusal

/-- The types that are to be defined are different ones, and all of them are declared and not
yet defined. -/
structure Awaits (u : Universe) (defs : List TypeDefinition) : Prop where
  distinct : (defs.map (·.name)).Nodup
  declared : ∀ d ∈ defs, d.name ∈ u.names
  undefined : ∀ d ∈ defs, (u.declaration d.name).definition = none

variable {u u' : Universe} {defs order : List TypeDefinition}

theorem ext_declaration (hnames : u.names = u'.names)
    (h : ∀ name, u.declaration name = u'.declaration name) : u = u' := by
  obtain ⟨declarations⟩ := u
  obtain ⟨declarations'⟩ := u'
  have hlength : declarations.length = declarations'.length := by
    simpa [names] using congrArg List.length hnames
  congr 1
  refine List.ext_getElem hlength fun index hlt hlt' => ?_
  simpa [declaration, hlt, hlt'] using h (.declared index)

/-! ## One definition -/

/-- Defining a declared type changes its declaration and no other. -/
theorem define_eq_ok {name : TypeName} (hmem : name ∈ u.names)
    (hnone : (u.declaration name).definition = none) (ty : Ty) (methods : List Method) :
    ∃ u', u.define name ty methods = .ok u' ∧ u'.names = u.names ∧
      u'.declaration name =
        { u.declaration name with definition := some ⟨u.underlying ty, methods⟩ } ∧
      ∀ other ≠ name, u'.declaration other = u.declaration other := by
  cases name with
  | error => simp [declaration, errorDeclaration] at hnone
  | declared index =>
      have hlt : index < u.declarations.length := mem_names_declared.mp hmem
      refine ⟨_, by simp only [define, hnone]; rfl, by simp [names], ?_, ?_⟩
      · simp [declaration, hlt]
      · intro other hne
        cases other with
        | error => rfl
        | declared place =>
            have hplace : index ≠ place := fun heq => hne (heq ▸ rfl)
            simp [declaration, hplace]

theorem Awaits.tail {d : TypeDefinition} {later : List TypeDefinition}
    (h : u.Awaits (d :: later)) (hnames : u'.names = u.names)
    (hother : ∀ other ≠ d.name, u'.declaration other = u.declaration other) :
    u'.Awaits later := by
  have hnotin : d.name ∉ later.map (·.name) := (List.nodup_cons.mp h.distinct).1
  refine ⟨(List.nodup_cons.mp h.distinct).2, fun e he => ?_, fun e he => ?_⟩
  · exact hnames ▸ h.declared e (.tail _ he)
  · have hne : e.name ≠ d.name := fun heq => hnotin (heq ▸ List.mem_map_of_mem he)
    exact hother e.name hne ▸ h.undefined e (.tail _ he)

/-! ## A run of definitions -/

/-- What a run of definitions leads to: types that are not defined stay as they are, and a type
that is defined has the underlying type that its definition has in the end, except that it is a
struct without fields if it is defined as a type that is not yet defined. -/
structure RunsTo (u : Universe) (order : List TypeDefinition) (u' : Universe) : Prop where
  names : u'.names = u.names
  others : ∀ name ∉ order.map (·.name), u'.declaration name = u.declaration name
  defined : ∀ earlier d later, order = earlier ++ d :: later →
    ∃ underlying, u'.declaration d.name =
        { u.declaration d.name with definition := some ⟨underlying, d.methods⟩ } ∧
      ((∀ e ∈ d :: later, ¬d.Names e) → underlying = u'.underlying d.type) ∧
      ∀ e ∈ d :: later, d.Names e → underlying = Ty.emptyStruct

theorem exists_runsTo (h : u.Awaits order) :
    ∃ u', u.defineAll order = .ok u' ∧ u.RunsTo order u' := by
  induction order generalizing u with
  | nil => exact ⟨u, rfl, rfl, fun _ _ => rfl, by simp⟩
  | cons d later ih =>
      obtain ⟨next, hdefine, hnames, hdefined, hother⟩ :=
        define_eq_ok (h.declared d (.head _)) (h.undefined d (.head _)) d.type d.methods
      obtain ⟨u', hrun, hruns⟩ := ih (h.tail hnames hother)
      have hnotin : d.name ∉ later.map (·.name) := (List.nodup_cons.mp h.distinct).1
      refine ⟨u', by simp only [defineAll, hdefine, hrun], hruns.names.trans hnames, ?_, ?_⟩
      · intro name hname
        obtain ⟨hne, hlater⟩ := not_or.mp (mt List.mem_cons.mpr hname)
        rw [hruns.others name hlater, hother name hne]
      · intro earlier e after hsplit
        cases earlier with
        | nil =>
            obtain ⟨rfl, rfl⟩ := List.cons.inj hsplit
            refine ⟨u.underlying d.type, by rw [hruns.others _ hnotin, hdefined], ?_, ?_⟩
            · -- A name that is not defined from here on already means what it means in the end.
              intro hnot
              cases hty : d.type with
              | named name =>
                  have hkept : name ∉ (d :: later).map (·.name) := by
                    rintro hmem
                    obtain ⟨e, he, rfl⟩ := List.mem_map.mp hmem
                    exact hnot e he hty
                  obtain ⟨hne, hlater⟩ := not_or.mp (mt List.mem_cons.mpr hkept)
                  simp only [underlying, hruns.others name hlater, hother name hne]
              | _ => rfl
            · intro e he hnames
              rw [hnames, underlying, Declaration.underlying, h.undefined e he]
        | cons first earlier =>
            obtain ⟨rfl, rfl⟩ := List.cons.inj hsplit
            obtain ⟨underlying, hdeclaration, hsettled⟩ := hruns.defined earlier e after rfl
            have hne : e.name ≠ d.name :=
              fun heq => hnotin (heq ▸ List.mem_map_of_mem (by simp))
            exact ⟨underlying, by rw [hdeclaration, hother e.name hne], hsettled⟩

variable {earlier later : List TypeDefinition} {d e : TypeDefinition}

/-- A type that comes after the one it is defined as shares its underlying type. -/
theorem RunsTo.underlying_of_earlier (h : u.RunsTo order u')
    (hsplit : order = earlier ++ d :: later) (hback : ∀ e ∈ d :: later, ¬d.Names e) :
    u'.underlying (.named d.name) = u'.underlying d.type := by
  obtain ⟨underlying, hdeclaration, hshared, -⟩ := h.defined earlier d later hsplit
  rw [Universe.underlying, Declaration.underlying, hdeclaration]
  exact hshared hback

/-- A type that comes before the one it is defined as has no fields. -/
theorem RunsTo.underlying_of_later (h : u.RunsTo order u')
    (hsplit : order = earlier ++ d :: later) (he : e ∈ d :: later) (hnames : d.Names e) :
    u'.underlying (.named d.name) = Ty.emptyStruct := by
  obtain ⟨underlying, hdeclaration, -, hempty⟩ := h.defined earlier d later hsplit
  rw [Universe.underlying, Declaration.underlying, hdeclaration]
  exact hempty e he hnames

/-- Up to any place of a run in which types come after those they are defined as, the types
defined so far mean the same as after any other such run. -/
theorem RunsTo.declaration_eq {order' : List TypeDefinition} {u₁ u₂ : Universe}
    (h₁ : u.RunsTo order u₁) (h₂ : u.RunsTo order' u₂) (hperm : order.Perm order')
    (hback₁ : RefersBack order) (hback₂ : RefersBack order')
    (hsplit : order = earlier ++ later) (hmem : d ∈ earlier) :
    u₁.declaration d.name = u₂.declaration d.name := by
  induction earlier using List.reverseRecOn generalizing later d with
  | nil => simp at hmem
  | append_singleton earlier last ih =>
      rw [List.append_assoc, List.singleton_append] at hsplit
      rcases List.mem_append.mp hmem with hmem | hmem
      · exact ih hsplit hmem
      obtain rfl := List.mem_singleton.mp hmem
      have hlast : ∀ e ∈ d :: later, ¬d.Names e := (hsplit ▸ hback₁).of_append
      obtain ⟨earlier', later', hsplit'⟩ :=
        List.append_of_mem (hperm.mem_iff.mp (by simp [hsplit] : d ∈ order))
      obtain ⟨_, hdeclaration₁, hshared₁, -⟩ := h₁.defined earlier d later hsplit
      obtain ⟨_, hdeclaration₂, hshared₂, -⟩ := h₂.defined earlier' d later' hsplit'
      have htype : u₁.underlying d.type = u₂.underlying d.type := by
        cases hty : d.type with
        | named name =>
            simp only [underlying]
            by_cases hname : name ∈ order.map (·.name)
            · -- The type it is defined as is one of those before it.
              obtain ⟨e, he, rfl⟩ := List.mem_map.mp hname
              have hearlier : e ∈ earlier := by
                rw [hsplit] at he
                exact (List.mem_append.mp he).resolve_right fun hlater => hlast e hlater hty
              rw [ih hsplit hearlier]
            · rw [h₁.others name hname,
                h₂.others name (mt (hperm.map (·.name)).mem_iff.mpr hname)]
        | _ => rfl
      rw [hdeclaration₁, hdeclaration₂, hshared₁ hlast, hshared₂ (hsplit' ▸ hback₂).of_append,
        htype]

theorem RunsTo.eq_of_refersBack {order' : List TypeDefinition} {u₁ u₂ : Universe}
    (h₁ : u.RunsTo order u₁) (h₂ : u.RunsTo order' u₂) (hperm : order.Perm order')
    (hback₁ : RefersBack order) (hback₂ : RefersBack order') : u₁ = u₂ := by
  refine ext_declaration (h₁.names.trans h₂.names.symm) fun name => ?_
  by_cases hname : name ∈ order.map (·.name)
  · obtain ⟨d, hd, rfl⟩ := List.mem_map.mp hname
    exact h₁.declaration_eq h₂ hperm hback₁ hback₂ (List.append_nil order).symm hd
  · rw [h₁.others name hname, h₂.others name (mt (hperm.map (·.name)).mem_iff.mpr hname)]

theorem Awaits.perm (h : u.Awaits defs) (hperm : order.Perm defs) : u.Awaits order :=
  ⟨(hperm.map _).nodup_iff.mpr h.distinct, fun d hd => h.declared d (hperm.subset hd),
    fun d hd => h.undefined d (hperm.subset hd)⟩

/-! ## All orders -/

/-- In whatever order types are defined, one that is defined as another shares the underlying
type of that one if it comes after it, and has no fields if it does not.  If no types are
defined as one another in a circle, there are orders in which every type comes after the one it
is defined as, and they all lead to one universe, in which every type shares the underlying
type of the one it is defined as. -/
theorem defineAll_order (h : u.Awaits defs) :
    (∀ order : List TypeDefinition, order.Perm defs → ∃ u', u.defineAll order = .ok u' ∧
      ∀ earlier d later, order = earlier ++ d :: later → ∀ e ∈ defs, d.Names e →
        (e ∈ earlier → u'.underlying (.named d.name) = u'.underlying (.named e.name)) ∧
        (e ∉ earlier → u'.underlying (.named d.name) = Ty.emptyStruct)) ∧
    (IsAcyclic defs → ∃ u',
      (∃ order : List TypeDefinition, order.Perm defs ∧ RefersBack order) ∧
      (∀ order : List TypeDefinition, order.Perm defs → RefersBack order →
        u.defineAll order = .ok u') ∧
      ∀ d ∈ defs, ∀ e ∈ defs, d.Names e →
        u'.underlying (.named d.name) = u'.underlying (.named e.name)) := by
  constructor
  · intro order hperm
    obtain ⟨u', hrun, hruns⟩ := exists_runsTo (h.perm hperm)
    refine ⟨u', hrun, fun earlier d later hsplit e he hnames => ⟨fun hearlier => ?_, ?_⟩⟩
    · have hback : ∀ e' ∈ d :: later, ¬d.Names e' := by
        -- Only one definition has the name that is adopted, and it is among the earlier ones.
        intro e' he' hnames'
        have hsame : e.name = e'.name := Ty.named.inj (hnames.symm.trans hnames')
        have hdistinct := (h.perm hperm).distinct
        rw [hsplit, List.map_append] at hdistinct
        exact (List.disjoint_of_nodup_append hdistinct) (List.mem_map_of_mem hearlier)
          (hsame ▸ List.mem_map_of_mem he')
      rw [hruns.underlying_of_earlier hsplit hback, hnames]
    · intro hearlier
      have hlater : e ∈ d :: later := by
        have hmem : e ∈ order := hperm.mem_iff.mpr he
        rw [hsplit] at hmem
        exact (List.mem_append.mp hmem).resolve_left hearlier
      exact hruns.underlying_of_later hsplit hlater hnames
  · intro hacyclic
    obtain ⟨first, hfirst, hbackFirst⟩ := hacyclic.exists_refersBack
    obtain ⟨u', -, hruns⟩ := exists_runsTo (h.perm hfirst)
    refine ⟨u', ⟨first, hfirst, hbackFirst⟩, fun order hperm hback => ?_, ?_⟩
    · obtain ⟨other, hrun, hother⟩ := exists_runsTo (h.perm hperm)
      rw [hrun, hother.eq_of_refersBack hruns (hperm.trans hfirst.symm) hback hbackFirst]
    · intro d hd e he hnames
      obtain ⟨earlier, later, hsplit⟩ := List.append_of_mem (hfirst.mem_iff.mpr hd)
      rw [hruns.underlying_of_earlier hsplit (hsplit ▸ hbackFirst).of_append, hnames]

/-! ## Two types, one of them defined as the other -/

/-- Two types that are declared and not yet defined. -/
def pairDeclared : Universe where
  declarations := [{ name := "A" }, { name := "B" }]

/-- The first of the two types is defined as the second one. -/
def pairAlias : TypeDefinition := { name := .declared 0, type := .named (.declared 1) }

/-- The second of the two types is defined as the integers. -/
def pairInteger : TypeDefinition := { name := .declared 1, type := .basic .int }

theorem awaits_pair : pairDeclared.Awaits [pairAlias, pairInteger] :=
  ⟨by decide, by decide, by simp [pairDeclared, pairAlias, pairInteger, declaration]⟩

theorem isAcyclic_pair : IsAcyclic [pairAlias, pairInteger] :=
  isAcyclic_iff.mpr ⟨[pairInteger, pairAlias], .swap _ _ [],
    by simp [RefersBack, Names, pairAlias, pairInteger]⟩

theorem defineAll_order_pair :
    pairDeclared.Awaits [pairAlias, pairInteger] ∧ IsAcyclic [pairAlias, pairInteger] ∧
      ∃ u', pairDeclared.defineAll [pairInteger, pairAlias] = .ok u' ∧
        u'.underlying (.named (.declared 0)) = u'.underlying (.named (.declared 1)) := by
  obtain ⟨u', -, hruns, hshared⟩ := (defineAll_order awaits_pair).2 isAcyclic_pair
  refine ⟨awaits_pair, isAcyclic_pair, u', hruns _ (.swap _ _ []) ?_, ?_⟩
  · simp [RefersBack, Names, pairAlias, pairInteger]
  · exact hshared pairAlias (by simp) pairInteger (by simp) rfl

/-- Defined in the order of their declarations, the first type has no fields although the second
one is an integer type; defined in the other order, both are integer types. -/
theorem defineAll_pair_differs :
    pairDeclared.Awaits [pairAlias, pairInteger] ∧ IsAcyclic [pairAlias, pairInteger] ∧
      ∃ u₁ u₂, pairDeclared.defineAll [pairAlias, pairInteger] = .ok u₁ ∧
        pairDeclared.defineAll [pairInteger, pairAlias] = .ok u₂ ∧
        u₁.underlying (.named (.declared 0)) = Ty.emptyStruct ∧
        u₁.underlying (.named (.declared 1)) = .basic .int ∧
        u₂.underlying (.named (.declared 0)) = .basic .int ∧ u₁ ≠ u₂ := by
  refine ⟨awaits_pair, isAcyclic_pair, _, _, rfl, rfl, rfl, rfl, rfl, fun heq => ?_⟩
  have hfirst := congrArg (underlying · (.named (.declared 0))) heq
  exact Ty.noConfusion hfirst

end Universe

end TemplateTyping
