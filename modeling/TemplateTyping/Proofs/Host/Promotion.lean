import Mathlib.Data.List.Nodup
import TemplateTyping.Proofs.Host.Visibility

/-!
# Promoted members

A name may occur in a type itself or along a path of embedded fields.  The occurrences at the
smallest depth decide what the name means: one occurrence is the meaning, and several hide each
other.  The search for a name goes level by level and opens each named type once, so it differs
from this rule in one point: of several paths of one length that end in the same named type it
follows the first only, and counts what they lead to once.  The main statement is that this is
the only difference.
-/

namespace TemplateTyping

/-- The name of a named type. -/
def Ty.name? : Ty → Option TypeName
  | .named name => some name
  | _ => none

theorem Ty.name?_eq_some {ty : Ty} {name : TypeName} : ty.name? = some name ↔ ty = .named name := by
  cases ty <;> simp [Ty.name?]

/-! ## The first of each name -/

/-- Keeps of the values that belong to one name the first one, and none of those that belong to
a name seen before.  Values that belong to no name are all kept. -/
def distinctBy {α : Type} (key : α → Option TypeName) : List TypeName → List α → List α
  | _, [] => []
  | seen, value :: values =>
      if (key value).any seen.contains then distinctBy key seen values
      else value :: distinctBy key ((key value).toList ++ seen) values

section distinctBy

variable {α β : Type} {key : α → Option TypeName} {seen : List TypeName} {values : List α}

theorem any_contains_iff {name? : Option TypeName} :
    name?.any seen.contains = true ↔ ∃ name, name? = some name ∧ name ∈ seen := by
  cases name? <;> simp

theorem distinctBy_map (key : α → Option TypeName) (f : β → α) (seen : List TypeName)
    (values : List β) :
    distinctBy key seen (values.map f) = (distinctBy (key ∘ f) seen values).map f := by
  induction values generalizing seen with
  | nil => rfl
  | cons value values ih =>
      simp only [List.map_cons, distinctBy, Function.comp_apply, ih]
      split <;> rfl

/-- Leaving out values comes to the same before and after, if values of one name are left out
together, and if the names seen before make no difference to those that stay. -/
theorem filter_distinctBy {good : α → Bool} {seen' : List TypeName}
    (hgood : ∀ value other name, key value = some name → key other = some name →
      good value = good other)
    (hseen : ∀ value ∈ values, good value = true → ∀ name, key value = some name →
      (name ∈ seen ↔ name ∈ seen')) :
    (distinctBy key seen values).filter good = distinctBy key seen' (values.filter good) := by
  induction values generalizing seen seen' with
  | nil => rfl
  | cons value values ih =>
      have hrest := fun other hother => hseen other (List.mem_cons_of_mem value hother)
      cases hvalue : good value with
      | true =>
          have hblocked : (key value).any seen.contains = (key value).any seen'.contains := by
            rw [Bool.eq_iff_iff, any_contains_iff, any_contains_iff]
            exact exists_congr fun name => and_congr_right (hseen value (.head _) hvalue name)
          rw [List.filter_cons_of_pos hvalue, distinctBy, distinctBy, hblocked]
          split
          · exact ih hrest
          · rw [List.filter_cons_of_pos hvalue, ih]
            intro other hother htrue name hname
            simp only [List.mem_append, hrest other hother htrue name hname]
      | false =>
          rw [List.filter_cons_of_neg (by simp [hvalue]), distinctBy]
          split
          · exact ih hrest
          · -- The name is seen from here on, but no value of this name stays.
            rw [List.filter_cons_of_neg (by simp [hvalue]), ih]
            intro other hother htrue name hname
            have hne : name ∉ (key value).toList := by
              intro hkey
              have hsame := hgood other value name hname (Option.mem_toList.mp hkey)
              simp [hsame, hvalue] at htrue
            simp only [List.mem_append, hne, false_or, hrest other hother htrue name hname]

theorem distinctBy_sublist (key : α → Option TypeName) (seen : List TypeName) (values : List α) :
    (distinctBy key seen values).Sublist values := by
  induction values generalizing seen with
  | nil => exact .slnil
  | cons value values ih =>
      rw [distinctBy]
      split
      · exact (ih seen).cons value
      · exact (ih _).cons_cons value

/-- A value is kept if its name was not seen before and it is the only one of its name. -/
theorem mem_distinctBy {value : α} (hmem : value ∈ values)
    (hnew : ∀ name, key value = some name → name ∉ seen)
    (honly : ∀ other name, key value = some name → key other = some name → other = value) :
    value ∈ distinctBy key seen values := by
  induction values generalizing seen with
  | nil => simp at hmem
  | cons first values ih =>
      rw [distinctBy]
      rcases List.mem_cons.mp hmem with rfl | hmem
      · rw [if_neg]
        · exact .head _
        · rw [any_contains_iff]
          exact fun ⟨name, hname, hseen⟩ => hnew name hname hseen
      · split
        · exact ih hmem hnew
        · by_cases hfirst : first = value
          · exact hfirst ▸ .head _
          · refine .tail _ (ih hmem fun name hname => ?_)
            rw [List.mem_append, not_or]
            exact ⟨fun hkey => hfirst (honly first name hname (Option.mem_toList.mp hkey)),
              hnew name hname⟩

/-- Nothing is left out if no name occurs twice. -/
theorem distinctBy_eq_self (hseen : ∀ name ∈ values.filterMap key, name ∉ seen)
    (hnodup : (values.filterMap key).Nodup) : distinctBy key seen values = values := by
  induction values generalizing seen with
  | nil => rfl
  | cons value values ih =>
      rw [distinctBy, if_neg]
      · cases hkey : key value with
        | none =>
            rw [List.filterMap_cons_none hkey] at hseen hnodup
            rw [Option.toList_none, List.nil_append, ih hseen hnodup]
        | some name =>
            rw [List.filterMap_cons_some hkey] at hseen hnodup
            rw [List.nodup_cons] at hnodup
            rw [Option.toList_some, List.singleton_append, ih _ hnodup.2]
            intro other hother
            rw [List.mem_cons, not_or]
            exact ⟨fun heq => hnodup.1 (heq ▸ hother), hseen other (.tail _ hother)⟩
      · rw [any_contains_iff]
        rintro ⟨name, hname, hmem⟩
        exact hseen name (List.mem_filterMap.mpr ⟨value, .head _, hname⟩) hmem

end distinctBy

/-! ## Occurrences along paths -/

/-- The types of the fields that a struct embeds, with pointers taken off. -/
def Ty.embedded : Ty → List Ty
  | .struct _ fields => (fields.filter (·.embedded)).map fun field => field.type.withoutPointers
  | _ => []

/-- What a name means in a struct or in an interface: each of its fields, or its method. -/
def Ty.ownMembers (name : String) : Ty → List Member
  | .struct _ fields => (fields.filter (·.name == name)).map fun field => .field field.type
  | .interface _ methods =>
      ((methods.find? (·.name == name)).map fun method => .method method.signature).toList
  | _ => []

namespace Universe

/-- The types that the struct behind a type embeds. -/
def embedded (u : Universe) (ty : Ty) : List Ty := (u.underlying ty).embedded

/-- The method of a name that a named type has. -/
def ownMethod? (u : Universe) (name : String) : Ty → Option Method
  | .named typeName => (u.declaration typeName).methods.find? (·.name == name)
  | _ => none

/-- What a name means in a type without the types that it embeds: the method of a named type,
or else what it means in the struct or interface behind the type. -/
def ownMembers (u : Universe) (name : String) (ty : Ty) : List Member :=
  match u.ownMethod? name ty with
  | some method => [.method method.signature]
  | none => (u.underlying ty).ownMembers name

end Universe

/-- A path of embedded fields: the type in which it ends, and the named types that it passes,
that one included. -/
structure EmbeddingPath where
  passed : List TypeName
  last : Ty

namespace EmbeddingPath

/-- The path without any field. -/
def start (ty : Ty) : EmbeddingPath := ⟨ty.name?.toList, ty⟩

/-- The path with one more field, unless it passes a named type for the second time. -/
def step? (path : EmbeddingPath) (ty : Ty) : Option EmbeddingPath :=
  if ty.name?.any path.passed.contains then none
  else some ⟨ty.name?.toList ++ path.passed, ty⟩

/-- Leaves one path, the first, of those that end in the same named type. -/
def merge (paths : List EmbeddingPath) : List EmbeddingPath :=
  distinctBy (·.last.name?) [] paths

end EmbeddingPath

namespace Universe

/-- The paths of a length from a type.  At each length a selection of the paths is followed. -/
def pathsBy (u : Universe) (select : List EmbeddingPath → List EmbeddingPath) (ty : Ty) :
    Nat → List EmbeddingPath
  | 0 => [.start ty.withoutPointers]
  | depth + 1 => select ((u.pathsBy select ty depth).flatMap fun path =>
      (u.embedded path.last).filterMap path.step?)

/-- The occurrences of a name at a depth, counted along a selection of the paths. -/
def occurrencesBy (u : Universe) (select : List EmbeddingPath → List EmbeddingPath)
    (name : String) (ty : Ty) (depth : Nat) : List Member :=
  (u.pathsBy select ty depth).flatMap fun path => u.ownMembers name path.last

end Universe

/-- The rule of embedding: the occurrences at the smallest depth decide, and only if there is
one of them. -/
inductive Shallowest (occurrences : Nat → List Member) : Option Member → Prop
  | one {depth : Nat} {member : Member} (habove : ∀ d < depth, occurrences d = [])
      (hone : occurrences depth = [member]) : Shallowest occurrences (some member)
  | several {depth : Nat} (habove : ∀ d < depth, occurrences d = [])
      (hseveral : 2 ≤ (occurrences depth).length) : Shallowest occurrences none
  | absent (habsent : ∀ depth, occurrences depth = []) : Shallowest occurrences none

namespace Universe

/-! ## One level of the search -/

/-- What a search finds in a candidate that it opens. -/
def opened (u : Universe) (access : Access) (candidate : Candidate) : Findings :=
  match candidate.type with
  | .named name => .ofDeclaration access candidate.viaPointer (u.declaration name)
  | ty => .ofComposite access candidate.viaPointer ty

variable {u : Universe} {access : Access}

/-- A level is searched by opening the candidates whose names were not seen before. -/
theorem searchLevel_eq
    (u : Universe) (access : Access) (level : List Candidate) (seen : List TypeName) :
    (u.searchLevel access level seen).1.found =
        (distinctBy (·.type.name?) seen level).flatMap (fun c => (u.opened access c).found) ∧
      (u.searchLevel access level seen).1.next =
        (distinctBy (·.type.name?) seen level).flatMap (fun c => (u.opened access c).next) := by
  fun_induction searchLevel u access level seen with
  | case1 seen => exact ⟨rfl, rfl⟩
  | case2 name viaPointer level seen hseen ih =>
      rw [distinctBy, if_pos (by simpa [Ty.name?] using hseen)]
      exact ih
  | case3 name viaPointer level seen hnew findings seen' heq ih =>
      rw [distinctBy, if_neg (by simpa [Ty.name?] using hnew)]
      rw [heq] at ih
      exact ⟨congrArg (_ ++ ·) ih.1, congrArg (_ ++ ·) ih.2⟩
  | case4 ty viaPointer level seen hne findings seen' heq ih =>
      have hname : ty.name? = none := by
        cases ty with
        | named name => exact absurd rfl (hne name)
        | _ => rfl
      have hopened : u.opened access ⟨ty, viaPointer⟩ = .ofComposite access viaPointer ty := by
        cases ty with
        | named name => exact absurd rfl (hne name)
        | _ => rfl
      rw [heq] at ih
      simp only [distinctBy, hname, Option.any_none, Bool.false_eq_true, if_false,
        Option.toList_none, List.nil_append, List.flatMap_cons, hopened]
      exact ⟨congrArg (_ ++ ·) ih.1, congrArg (_ ++ ·) ih.2⟩

/-- The names seen after a level are those seen before and those of the level. -/
theorem mem_seen_searchLevel (level : List Candidate) (seen : List TypeName) (name : TypeName) :
    name ∈ (u.searchLevel access level seen).2 →
      name ∈ seen ∨ ∃ candidate ∈ level, candidate.type = .named name := by
  fun_induction searchLevel u access level seen with
  | case1 seen => exact .inl
  | case2 other viaPointer level seen hseen ih =>
      intro hmem
      exact (ih hmem).imp_right (Exists.imp fun _ => And.imp_left (.tail _))
  | case3 other viaPointer level seen hnew findings seen' heq ih =>
      intro hmem
      rw [heq] at ih
      rcases ih hmem with hmem | ⟨c, hc, hname⟩
      · rcases List.mem_cons.mp hmem with rfl | hmem
        · exact .inr ⟨_, .head _, rfl⟩
        · exact .inl hmem
      · exact .inr ⟨c, .tail _ hc, hname⟩
  | case4 ty viaPointer level seen hne findings seen' heq ih =>
      intro hmem
      rw [heq] at ih
      exact (ih hmem).imp_right (Exists.imp fun _ => And.imp_left (.tail _))

section exported

variable {name : String} (hname : isExported name = true) (package : Option String)
include hname

theorem ofComposite_found (ty : Ty) :
    (Findings.ofComposite ⟨name, package⟩ true ty).found = ty.ownMembers name := by
  cases ty with
  | struct declared fields =>
      simp [Findings.ofComposite, Access.allowedIn_of_isExported hname, Ty.ownMembers]
  | interface declared methods =>
      cases hfind : methods.find? (·.name == name) <;>
        simp [Findings.ofComposite, Access.allowedIn_of_isExported hname, Ty.ownMembers, hfind]
  | _ => rfl

omit hname in
theorem ofComposite_next (ty : Ty) :
    (Findings.ofComposite ⟨name, package⟩ true ty).next = ty.embedded.map (⟨·, true⟩) := by
  cases ty with
  | struct declared fields => simp [Findings.ofComposite, Candidate.of, Ty.embedded]
  | interface declared methods =>
      cases hfind : methods.find? (·.name == name) <;>
        simp [Findings.ofComposite, Ty.embedded, hfind]
  | _ => rfl

/-- In a candidate that counts as pointed to an exported name is found where it occurs. -/
theorem opened_found (ty : Ty) :
    (u.opened ⟨name, package⟩ ⟨ty, true⟩).found = u.ownMembers name ty := by
  cases ty with
  | named typeName =>
      cases hfind : (u.declaration typeName).methods.find? (·.name == name) <;>
        simp [opened, Findings.ofDeclaration, Access.allowedIn_of_isExported hname, ownMembers,
          ownMethod?, hfind, ofComposite_found hname, underlying]
  | _ => exact ofComposite_found hname package _

/-- Where a name does not occur, the types that are embedded are searched next. -/
theorem opened_next (ty : Ty) (hnone : u.ownMembers name ty = []) :
    (u.opened ⟨name, package⟩ ⟨ty, true⟩).next = (u.embedded ty).map (⟨·, true⟩) := by
  cases ty with
  | named typeName =>
      cases hfind : (u.declaration typeName).methods.find? (·.name == name) with
      | none =>
          simp [opened, Findings.ofDeclaration, Access.allowedIn_of_isExported hname, hfind,
            ofComposite_next, embedded, underlying]
      | some method => simp [ownMembers, ownMethod?, hfind] at hnone
  | _ => exact ofComposite_next package _

end exported

/-- One level of types that all count as pointed to. -/
theorem searchLevel_types {name : String} (hname : isExported name = true)
    (package : Option String) (types : List Ty) (seen : List TypeName) :
    let step := u.searchLevel ⟨name, package⟩ (types.map (⟨·, true⟩)) seen
    step.1.found = (distinctBy Ty.name? seen types).flatMap (u.ownMembers name) ∧
      (step.1.found = [] →
        step.1.next = ((distinctBy Ty.name? seen types).flatMap u.embedded).map (⟨·, true⟩)) ∧
      ∀ typeName ∈ step.2, typeName ∈ seen ∨ .named typeName ∈ types := by
  intro step
  have hopened : distinctBy (·.type.name?) seen (types.map (Candidate.mk · true)) =
      (distinctBy Ty.name? seen types).map (⟨·, true⟩) := distinctBy_map _ _ seen types
  obtain ⟨hfound, hnext⟩ := u.searchLevel_eq ⟨name, package⟩ (types.map (⟨·, true⟩)) seen
  rw [hopened, List.flatMap_map] at hfound hnext
  simp only [opened_found hname] at hfound
  refine ⟨hfound, fun hnone => ?_, fun typeName hmem => ?_⟩
  · rw [hnext, List.map_flatMap]
    rw [hfound, List.flatMap_eq_nil_iff] at hnone
    exact List.flatMap_congr fun ty hty => opened_next hname package ty (hnone ty hty)
  · refine (mem_seen_searchLevel _ _ typeName hmem).imp_right fun ⟨candidate, hmem, htype⟩ => ?_
    obtain ⟨ty, hty, rfl⟩ := List.mem_map.mp hmem
    exact htype ▸ hty

/-! ## Types at a depth -/

/-- The types to which a number of embedded fields leads, whatever they pass on the way. -/
def reachedIn (u : Universe) (ty : Ty) : Nat → List Ty
  | 0 => [ty.withoutPointers]
  | depth + 1 => (u.reachedIn ty depth).flatMap u.embedded

/-- Whether a type is reached with no fewer embedded fields. -/
noncomputable def isNewAt (u : Universe) (ty : Ty) (depth : Nat) (other : Ty) : Bool := by
  classical
  exact decide (∀ d < depth, other ∉ u.reachedIn ty d)

variable {ty other : Ty} {depth : Nat}

theorem isNewAt_iff :
    u.isNewAt ty depth other = true ↔ ∀ d < depth, other ∉ u.reachedIn ty d := by
  classical
  simp [isNewAt]

theorem not_isNewAt_iff :
    u.isNewAt ty depth other = false ↔ ∃ d < depth, other ∈ u.reachedIn ty d := by
  rw [← Bool.not_eq_true, isNewAt_iff]
  grind

/-- What is new one level deeper is embedded in what is new at this level. -/
theorem isNewAt_of_mem_embedded {inner : Ty} (hmem : inner ∈ u.embedded other)
    (hnew : u.isNewAt ty (depth + 1) inner = true) : u.isNewAt ty depth other = true := by
  rw [isNewAt_iff] at hnew ⊢
  intro d hd hother
  exact hnew (d + 1) (by omega) (List.mem_flatMap.mpr ⟨other, hother, hmem⟩)

/-- What is new one level deeper is found in what is new at this level. -/
theorem filter_flatMap_embedded (types : List Ty) :
    (types.flatMap u.embedded).filter (u.isNewAt ty (depth + 1)) =
      ((types.filter (u.isNewAt ty depth)).flatMap u.embedded).filter
        (u.isNewAt ty (depth + 1)) := by
  induction types with
  | nil => rfl
  | cons first types ih =>
      rw [List.flatMap_cons, List.filter_append, ih]
      cases hfirst : u.isNewAt ty depth first with
      | true => rw [List.filter_cons_of_pos hfirst, List.flatMap_cons, List.filter_append]
      | false =>
          have hnone : (u.embedded first).filter (u.isNewAt ty (depth + 1)) = [] := by
            rw [List.filter_eq_nil_iff]
            intro inner hinner hnew
            simp [isNewAt_of_mem_embedded hinner hnew] at hfirst
          rw [hnone, List.filter_cons_of_neg (by simp [hfirst]), List.nil_append]

theorem filter_distinctBy_isNewAt {types : List Ty} {seen : List TypeName}
    (hseen : ∀ name ∈ seen, ∃ d < depth, .named name ∈ u.reachedIn ty d) :
    (distinctBy Ty.name? seen types).filter (u.isNewAt ty depth) =
      distinctBy Ty.name? [] (types.filter (u.isNewAt ty depth)) := by
  apply filter_distinctBy
  · intro value other name hvalue hother
    rw [Ty.name?_eq_some.mp hvalue, Ty.name?_eq_some.mp hother]
  · intro value _ hnew name hname
    rw [Ty.name?_eq_some.mp hname, isNewAt_iff] at hnew
    refine iff_of_false (fun hmem => ?_) List.not_mem_nil
    obtain ⟨d, hd, hreached⟩ := hseen name hmem
    exact hnew d hd hreached

/-! ## Merged paths -/

/-- A merged path ends and passes where embedded fields lead to. -/
theorem reached_of_mem_pathsBy {path : EmbeddingPath}
    (hpath : path ∈ u.pathsBy EmbeddingPath.merge ty depth) :
    path.last ∈ u.reachedIn ty depth ∧
      ∀ name ∈ path.passed, ∃ d < depth + 1, .named name ∈ u.reachedIn ty d := by
  induction depth generalizing path with
  | zero =>
      obtain rfl := List.mem_singleton.mp hpath
      refine ⟨.head _, fun name hname => ⟨0, by omega, ?_⟩⟩
      rw [← Ty.name?_eq_some.mp (Option.mem_toList.mp hname)]
      exact .head _
  | succ depth ih =>
      obtain ⟨before, hbefore, hstep⟩ :=
        List.mem_flatMap.mp ((distinctBy_sublist _ _ _).subset hpath)
      obtain ⟨next, hnext, hstep⟩ := List.mem_filterMap.mp hstep
      rw [EmbeddingPath.step?] at hstep
      split at hstep
      · contradiction
      cases hstep
      have hreached : next ∈ u.reachedIn ty (depth + 1) :=
        List.mem_flatMap.mpr ⟨before.last, (ih hbefore).1, hnext⟩
      refine ⟨hreached, fun name hname => ?_⟩
      rcases List.mem_append.mp hname with hname | hname
      · rw [Ty.name?_eq_some.mp (Option.mem_toList.mp hname)] at hreached
        exact ⟨depth + 1, by omega, hreached⟩
      · obtain ⟨d, hd, hmem⟩ := (ih hbefore).2 name hname
        exact ⟨d, by omega, hmem⟩

theorem map_last_filterMap_step? (path : EmbeddingPath) (types : List Ty) :
    (types.filterMap path.step?).map (·.last) =
      types.filter fun ty => !ty.name?.any path.passed.contains := by
  induction types with
  | nil => rfl
  | cons first types ih =>
      rw [List.filterMap_cons, List.filter_cons, EmbeddingPath.step?]
      cases first.name?.any path.passed.contains <;> simp [ih]

/-- The restriction to paths that pass no named type twice leaves out no new type. -/
theorem filter_step?
    {path : EmbeddingPath} (hpath : path ∈ u.pathsBy EmbeddingPath.merge ty depth) :
    (((u.embedded path.last).filterMap path.step?).map (·.last)).filter
        (u.isNewAt ty (depth + 1)) =
      (u.embedded path.last).filter (u.isNewAt ty (depth + 1)) := by
  rw [map_last_filterMap_step?, List.filter_filter]
  refine List.filter_congr fun inner _ => ?_
  cases hnew : u.isNewAt ty (depth + 1) inner with
  | false => rfl
  | true =>
      rw [Bool.true_and, Bool.not_eq_true', ← Bool.not_eq_true, any_contains_iff]
      rintro ⟨name, hname, hmem⟩
      obtain ⟨d, hd, hreached⟩ := (reached_of_mem_pathsBy hpath).2 name hmem
      rw [Ty.name?_eq_some.mp hname, isNewAt_iff] at hnew
      exact hnew d hd hreached

/-- The types in which the merged paths of a length end. -/
def mergedEnds (u : Universe) (ty : Ty) (depth : Nat) : List Ty :=
  (u.pathsBy EmbeddingPath.merge ty depth).map (·.last)

/-- The new types in which longer paths end are those that the shorter ones' new ends embed. -/
theorem filter_mergedEnds_succ (u : Universe) (ty : Ty) (depth : Nat) :
    (u.mergedEnds ty (depth + 1)).filter (u.isNewAt ty (depth + 1)) =
      distinctBy Ty.name? []
        ((((u.mergedEnds ty depth).filter (u.isNewAt ty depth)).flatMap u.embedded).filter
          (u.isNewAt ty (depth + 1))) := by
  have hends (paths : List EmbeddingPath)
      (hpaths : paths ⊆ u.pathsBy EmbeddingPath.merge ty depth) :
      ((paths.flatMap fun path => (u.embedded path.last).filterMap path.step?).map (·.last)).filter
          (u.isNewAt ty (depth + 1)) =
        ((paths.map (·.last)).flatMap u.embedded).filter (u.isNewAt ty (depth + 1)) := by
    induction paths with
    | nil => rfl
    | cons path paths ih =>
        obtain ⟨hpath, hpaths⟩ := List.cons_subset.mp hpaths
        rw [List.flatMap_cons, List.map_append, List.filter_append, filter_step? hpath, ih hpaths,
          List.map_cons, List.flatMap_cons, List.filter_append]
  rw [mergedEnds, pathsBy, EmbeddingPath.merge]
  have hmap := distinctBy_map Ty.name? EmbeddingPath.last []
    ((u.pathsBy EmbeddingPath.merge ty depth).flatMap fun path =>
      (u.embedded path.last).filterMap path.step?)
  rw [show (fun path : EmbeddingPath => path.last.name?) = Ty.name? ∘ EmbeddingPath.last from rfl,
    ← hmap, filter_distinctBy_isNewAt (by simp), hends _ (List.Subset.refl _),
    filter_flatMap_embedded, mergedEnds]

/-! ## The search, level by level -/

/-- What holds when a search comes to a level.  The name does not occur at smaller depths.  The
types of the level are reached at this depth, and so are all types that are new there; names
seen before are reached earlier.  Among the new types the level and the merged paths agree. -/
structure SearchState (u : Universe) (name : String) (ty : Ty) (depth : Nat) (types : List Ty)
    (seen : List TypeName) : Prop where
  barren : ∀ d < depth, ∀ other ∈ u.reachedIn ty d, u.ownMembers name other = []
  reached : ∀ other ∈ types, other ∈ u.reachedIn ty depth
  complete : ∀ other ∈ u.reachedIn ty depth, u.isNewAt ty depth other = true → other ∈ types
  earlier : ∀ typeName ∈ seen, ∃ d < depth, .named typeName ∈ u.reachedIn ty d
  agrees : distinctBy Ty.name? [] (types.filter (u.isNewAt ty depth)) =
    (u.mergedEnds ty depth).filter (u.isNewAt ty depth)

namespace SearchState

variable {name : String} {types : List Ty} {seen : List TypeName}

theorem start (u : Universe) (name : String) (ty : Ty) :
    u.SearchState name ty 0 [ty.withoutPointers] [] := by
  have hnew : [ty.withoutPointers].filter (u.isNewAt ty 0) = [ty.withoutPointers] :=
    List.filter_eq_self.mpr fun other _ => isNewAt_iff.mpr (by simp)
  refine ⟨by simp, fun _ h => h, fun _ h _ => h, by simp, ?_⟩
  have hends : u.mergedEnds ty 0 = [ty.withoutPointers] := rfl
  rw [hends, hnew, distinctBy, if_neg (by simp [any_contains_iff])]
  rfl

variable (h : u.SearchState name ty depth types seen)
include h

/-- The new types of a level are opened. -/
theorem mem_opened (hreached : other ∈ u.reachedIn ty depth)
    (hnew : u.isNewAt ty depth other = true) : other ∈ distinctBy Ty.name? seen types := by
  refine mem_distinctBy (h.complete other hreached hnew) ?_ ?_
  · intro typeName hname hseen
    obtain ⟨d, hd, hearlier⟩ := h.earlier typeName hseen
    rw [Ty.name?_eq_some.mp hname, isNewAt_iff] at hnew
    exact hnew d hd hearlier
  · intro value typeName hother hvalue
    rw [Ty.name?_eq_some.mp hother, Ty.name?_eq_some.mp hvalue]

/-- Where the name occurs, the type is new. -/
theorem flatMap_filter_isNewAt (others : List Ty) :
    (others.filter (u.isNewAt ty depth)).flatMap (u.ownMembers name) =
      others.flatMap (u.ownMembers name) := by
  induction others with
  | nil => rfl
  | cons first others ih =>
      cases hfirst : u.isNewAt ty depth first with
      | true => rw [List.filter_cons_of_pos hfirst, List.flatMap_cons, List.flatMap_cons, ih]
      | false =>
          obtain ⟨d, hd, hearlier⟩ := not_isNewAt_iff.mp hfirst
          rw [List.filter_cons_of_neg (by simp [hfirst]), List.flatMap_cons,
            h.barren d hd first hearlier, ih, List.nil_append]

/-- The level and the merged paths have the same occurrences. -/
theorem found_eq : (distinctBy Ty.name? seen types).flatMap (u.ownMembers name) =
    u.occurrencesBy EmbeddingPath.merge name ty depth := by
  rw [← h.flatMap_filter_isNewAt, filter_distinctBy_isNewAt h.earlier, h.agrees,
    h.flatMap_filter_isNewAt, mergedEnds, List.flatMap_map]
  rfl

theorem occurrences_above : ∀ d < depth, u.occurrencesBy EmbeddingPath.merge name ty d = [] := by
  intro d hd
  rw [occurrencesBy, List.flatMap_eq_nil_iff]
  exact fun path hpath => h.barren d hd path.last (reached_of_mem_pathsBy hpath).1

/-- A level at which the name does not occur leads to the next one. -/
theorem next {seen' : List TypeName}
    (hnone : (distinctBy Ty.name? seen types).flatMap (u.ownMembers name) = [])
    (hseen : ∀ typeName ∈ seen', typeName ∈ seen ∨ .named typeName ∈ types) :
    u.SearchState name ty (depth + 1) ((distinctBy Ty.name? seen types).flatMap u.embedded)
      seen' := by
  refine ⟨fun d hd other hother => ?_, fun inner hinner => ?_, fun inner hinner hnew => ?_,
    fun typeName hmem => ?_, ?_⟩
  · by_cases hlt : d < depth
    · exact h.barren d hlt other hother
    obtain rfl : d = depth := by omega
    cases hnew : u.isNewAt ty d other with
    | true => exact List.flatMap_eq_nil_iff.mp hnone other (h.mem_opened hother hnew)
    | false =>
        obtain ⟨earlier, hlt, hearlier⟩ := not_isNewAt_iff.mp hnew
        exact h.barren earlier hlt other hearlier
  · obtain ⟨other, hother, hinner⟩ := List.mem_flatMap.mp hinner
    have hreached := h.reached other ((distinctBy_sublist _ _ _).subset hother)
    exact List.mem_flatMap.mpr ⟨other, hreached, hinner⟩
  · obtain ⟨other, hother, hmem⟩ := List.mem_flatMap.mp hinner
    exact List.mem_flatMap.mpr
      ⟨other, h.mem_opened hother (isNewAt_of_mem_embedded hmem hnew), hmem⟩
  · rcases hseen typeName hmem with hmem | hmem
    · obtain ⟨d, hd, hearlier⟩ := h.earlier typeName hmem
      exact ⟨d, by omega, hearlier⟩
    · exact ⟨depth, by omega, h.reached _ hmem⟩
  · rw [filter_mergedEnds_succ, ← h.agrees, ← filter_distinctBy_isNewAt h.earlier,
      ← filter_flatMap_embedded]

/-- If no type is left to be searched, nothing new is reached at greater depths. -/
theorem reached_earlier (hempty : types = []) (n : Nat) :
    ∀ other ∈ u.reachedIn ty n, ∃ d < depth, other ∈ u.reachedIn ty d := by
  have hdepth : ∀ other ∈ u.reachedIn ty depth, ∃ d < depth, other ∈ u.reachedIn ty d := by
    intro other hother
    by_contra hnew
    have hmem := h.complete other hother (isNewAt_iff.mpr (by grind))
    simp [hempty] at hmem
  induction n with
  | zero =>
      intro other hother
      cases depth with
      | zero => exact hdepth other hother
      | succ depth => exact ⟨0, by omega, hother⟩
  | succ n ih =>
      intro inner hinner
      obtain ⟨other, hother, hinner⟩ := List.mem_flatMap.mp hinner
      obtain ⟨d, hd, hearlier⟩ := ih other hother
      have hreached : inner ∈ u.reachedIn ty (d + 1) :=
        List.mem_flatMap.mpr ⟨other, hearlier, hinner⟩
      by_cases hlt : d + 1 < depth
      · exact ⟨d + 1, hlt, hreached⟩
      · obtain rfl : d + 1 = depth := by omega
        exact hdepth inner hreached

end SearchState

/-- From any level on, the search keeps to the rule of embedding for merged paths. -/
theorem search_shallowest {name : String} (hname : isExported name = true)
    (package : Option String) (level : List Candidate) (seen : List TypeName) :
    ∀ depth types, u.SearchState name ty depth types seen → types.map (⟨·, true⟩) = level →
      Shallowest (u.occurrencesBy EmbeddingPath.merge name ty)
        (u.search ⟨name, package⟩ level seen) := by
  induction level, seen using Universe.search.induct u ⟨name, package⟩ with
  | case1 seen =>
      intro depth types h hlevel
      rw [search]
      refine .absent fun n => List.flatMap_eq_nil_iff.mpr fun path hpath => ?_
      obtain ⟨d, hd, hearlier⟩ := h.reached_earlier (List.map_eq_nil_iff.mp hlevel) n path.last
        (reached_of_mem_pathsBy hpath).1
      exact h.barren d hd path.last hearlier
  | case2 candidate level seen step hfound ih =>
      intro depth types h hlevel
      obtain ⟨hlevelFound, hnext, hseen⟩ := searchLevel_types (u := u) hname package types seen
      rw [hlevel] at hlevelFound hnext hseen
      rw [search, hfound]
      exact ih (depth + 1) _ (h.next (hlevelFound.symm.trans hfound) hseen) (hnext hfound).symm
  | case3 candidate level seen step member hfound =>
      intro depth types h hlevel
      have hlevelFound := (searchLevel_types (u := u) hname package types seen).1
      rw [hlevel, h.found_eq] at hlevelFound
      rw [search, hfound]
      exact .one h.occurrences_above (hlevelFound.symm.trans hfound)
  | case4 candidate level seen step hnone hmany =>
      intro depth types h hlevel
      have hlevelFound := (searchLevel_types (u := u) hname package types seen).1
      rw [hlevel, h.found_eq] at hlevelFound
      rw [search]
      split
      · exact absurd ‹_› hnone
      · exact absurd ‹_› (hmany _)
      · refine .several h.occurrences_above ?_
        rw [← hlevelFound]
        cases hfound : step.1.found with
        | nil => exact absurd hfound hnone
        | cons first rest =>
            cases rest with
            | nil => exact absurd hfound (hmany first)
            | cons second rest => simp

/-- Where no two paths of one length end in the same named type, merging leaves all paths. -/
theorem pathsBy_merge_eq
    (h : ∀ depth, ((u.pathsBy id ty depth).filterMap (·.last.name?)).Nodup) (depth : Nat) :
    u.pathsBy EmbeddingPath.merge ty depth = u.pathsBy id ty depth := by
  induction depth with
  | zero => rfl
  | succ depth ih =>
      rw [pathsBy, ih]
      exact distinctBy_eq_self (by simp) (h (depth + 1))

/-- An exported name means in a type what the rule of embedding says, if of the paths of one
length that end in the same named type one is counted.  Where there are no two such paths it is
the rule with every path counted. -/
theorem member?_shallowest {name : String} (hname : isExported name = true) (u : Universe)
    (ty : Ty) (package : Option String) :
    Shallowest (u.occurrencesBy EmbeddingPath.merge name ty) (u.member? ty ⟨name, package⟩) ∧
      ((∀ depth, ((u.pathsBy id ty depth).filterMap (·.last.name?)).Nodup) →
        Shallowest (u.occurrencesBy id name ty) (u.member? ty ⟨name, package⟩)) := by
  have hmerged : Shallowest (u.occurrencesBy EmbeddingPath.merge name ty)
      (u.member? ty ⟨name, package⟩) :=
    search_shallowest hname package _ _ 0 _ (SearchState.start u name ty) rfl
  refine ⟨hmerged, fun hpaths => ?_⟩
  have hsame : u.occurrencesBy id name ty = u.occurrencesBy EmbeddingPath.merge name ty := by
    funext depth
    rw [occurrencesBy, occurrencesBy, pathsBy_merge_eq hpaths]
  exact hsame ▸ hmerged

/-! ## A member of an embedded type -/

/-- A named type with a field and a method. -/
def baseUniverse : Universe where
  declarations := [{
    name := "Base"
    definition := some ⟨.struct none [{ name := "ID", type := .basic .int }],
      [⟨"Describe", false, [], [.basic .string], false⟩]⟩ }]

/-- A struct that embeds the pointer to a named type. -/
def pageType : Ty :=
  .struct none [{ name := "Base", type := .pointer (.named (.declared 0)), embedded := true },
    { name := "Title", type := .basic .string }]

/-- The embedded type embeds nothing itself. -/
theorem pathsBy_pageType (depth : Nat) : baseUniverse.pathsBy id pageType (depth + 2) = [] := by
  induction depth with
  | zero => rfl
  | succ depth ih => rw [pathsBy, ih]; rfl

theorem member?_shallowest_page :
    isExported "Describe" = true ∧
      (∀ depth, ((baseUniverse.pathsBy id pageType depth).filterMap (·.last.name?)).Nodup) ∧
      Shallowest (baseUniverse.occurrencesBy id "Describe" pageType)
        (baseUniverse.member? pageType ⟨"Describe", none⟩) := by
  have hname : isExported "Describe" = true := by decide
  have hpaths (depth : Nat) :
      ((baseUniverse.pathsBy id pageType depth).filterMap (·.last.name?)).Nodup := by
    rcases depth with _ | _ | depth
    · decide
    · decide
    · simp [pathsBy_pageType]
  exact ⟨hname, hpaths, (member?_shallowest hname baseUniverse pageType none).2 hpaths⟩

/-! ## A type that is embedded twice -/

/-- A type embeds two types, both of which embed a third one with a field. -/
def diamond : Universe where
  declarations := [
    { name := "T", definition := some ⟨.struct none [
        { name := "A", type := .named (.declared 1), embedded := true },
        { name := "B", type := .named (.declared 2), embedded := true }], []⟩ },
    { name := "A", definition := some ⟨.struct none [
        { name := "C", type := .named (.declared 3), embedded := true }], []⟩ },
    { name := "B", definition := some ⟨.struct none [
        { name := "C", type := .named (.declared 3), embedded := true }], []⟩ },
    { name := "C", definition := some ⟨.struct none [
        { name := "X", type := .basic .int }], []⟩ }]

/-- Both paths to the field have the same length, and yet the field is found. -/
theorem diamond_member?_not_shallowest :
    isExported "X" = true ∧
      diamond.occurrencesBy id "X" (.named (.declared 0)) 2 =
        [.field (.basic .int), .field (.basic .int)] ∧
      diamond.member? (.named (.declared 0)) ⟨"X", none⟩ = some (.field (.basic .int)) ∧
      ¬Shallowest (diamond.occurrencesBy id "X" (.named (.declared 0)))
        (diamond.member? (.named (.declared 0)) ⟨"X", none⟩) := by
  have hmember :
      diamond.member? (.named (.declared 0)) ⟨"X", none⟩ = some (.field (.basic .int)) := by
    rw [member?, findMember, search]
    change diamond.search _ [⟨.named (.declared 1), true⟩, ⟨.named (.declared 2), true⟩] _ = _
    rw [search]
    change diamond.search _ [⟨.named (.declared 3), true⟩, ⟨.named (.declared 3), true⟩] _ = _
    rw [search]
    rfl
  refine ⟨by decide, rfl, hmember, ?_⟩
  rw [hmember]
  rintro (@⟨depth, member, habove, hone⟩)
  have hlength := congrArg List.length hone
  rcases depth with _ | _ | _ | depth
  · contradiction
  · contradiction
  · contradiction
  · have hlength := congrArg List.length (habove 2 (by omega))
    contradiction

end Universe

end TemplateTyping
