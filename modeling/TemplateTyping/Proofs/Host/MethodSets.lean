import TemplateTyping.Proofs.Host.Promotion
import TemplateTyping.Proofs.Host.Satisfaction

/-!
# Methods asked for and methods found

A type satisfies an interface if its method set has the methods that the interface asks for.  The
method set of a value leaves out the methods with a pointer receiver; a template, which reads
values that can be pointed to, finds them as well.  So the two searches for a name may end at
different places: a method with a pointer receiver is passed over by one and ends the other.  The
main statement is that what satisfies an interface offers its exported methods to templates unless
such a method stands in the way, and that nothing else is found then.
-/

namespace TemplateTyping

/-- The types of the embedded fields of a struct that are no pointers. -/
def Ty.embeddedValues : Ty → List Ty
  | .struct _ fields => ((fields.filter (·.embedded)).map (·.type)).filter (!·.isPointer)
  | _ => []

theorem Ty.withoutPointers_of_not_isPointer {ty : Ty} (h : ty.isPointer = false) :
    ty.withoutPointers = ty := by
  cases ty with
  | pointer elem => simp [isPointer] at h
  | _ => rfl

/-- An embedded value is an embedded type. -/
theorem Ty.mem_embedded_of_mem_embeddedValues {ty inner : Ty} (h : inner ∈ ty.embeddedValues) :
    inner ∈ ty.embedded := by
  cases ty with
  | struct package fields =>
      obtain ⟨hmem, hvalue⟩ := List.mem_filter.mp h
      obtain ⟨field, hfield, rfl⟩ := List.mem_map.mp hmem
      exact List.mem_map.mpr
        ⟨field, hfield, Ty.withoutPointers_of_not_isPointer (by simpa using hvalue)⟩
  | _ => simp [embeddedValues] at h

/-- The occurrences at the smallest depth decide. -/
theorem Shallowest.of_mem {occurrences : Nat → List Member} {result : Option Member}
    (h : Shallowest occurrences result) {depth : Nat} (habove : ∀ d < depth, occurrences d = [])
    {member : Member} (hmem : member ∈ occurrences depth) :
    occurrences depth = [member] ∧ result = some member ∨
      2 ≤ (occurrences depth).length ∧ result = none := by
  have hdepth {other : Nat} (hother : ∀ d < other, occurrences d = [])
      (hsome : occurrences other ≠ []) : other = depth := by
    rcases Nat.lt_trichotomy other depth with hlt | heq | hlt
    · exact absurd (habove other hlt) hsome
    · exact heq
    · exact absurd (hother depth hlt) (List.ne_nil_of_mem hmem)
  cases h with
  | one hother hone =>
      obtain rfl := hdepth hother (by simp [hone])
      rw [hone, List.mem_singleton] at hmem
      exact .inl ⟨hmem ▸ hone, hmem ▸ rfl⟩
  | several hother hseveral =>
      obtain rfl := hdepth hother (List.ne_nil_of_length_pos (by omega))
      exact .inr ⟨hseveral, rfl⟩
  | absent habsent => simp [habsent] at hmem

namespace Universe

/-- The types that a type holds by value in a number of embedded fields, one in the other. -/
def heldIn (u : Universe) (ty : Ty) : Nat → List Ty
  | 0 => [ty]
  | depth + 1 => (u.heldIn ty depth).flatMap fun holder => (u.underlying holder).embeddedValues

/-- A method that is not in the method set of a type, and that a template nevertheless meets where
the name occurs first: a method that a named interface has besides those it asks for, or one with
a pointer receiver in a type that is held by value. -/
inductive Masks (u : Universe) (name : String) (ty : Ty) (method : Method) : Prop
  | declared {package : Option String} {methods : List (InterfaceMethod Ty)}
      (hinterface : u.underlying ty = .interface package methods)
      (hmethod : u.ownMethod? name ty = some method) : Masks u name ty method
  | receiver {depth : Nat} {holder : Ty} (hvalue : ty.isPointer = false)
      (habove : ∀ d < depth, u.occurrencesBy EmbeddingPath.merge name ty d = [])
      (hholder : holder ∈ u.heldIn ty depth) (hmethod : u.ownMethod? name holder = some method)
      (hreceiver : method.pointerReceiver = true) : Masks u name ty method

variable {u : Universe} {name : String} {ty : Ty}

theorem mem_reachedIn_of_mem_heldIn (hvalue : ty.isPointer = false) {depth : Nat} {holder : Ty}
    (h : holder ∈ u.heldIn ty depth) : holder ∈ u.reachedIn ty depth := by
  induction depth generalizing holder with
  | zero => rwa [reachedIn, Ty.withoutPointers_of_not_isPointer hvalue]
  | succ depth ih =>
      obtain ⟨outer, houter, hinner⟩ := List.mem_flatMap.mp h
      exact List.mem_flatMap.mpr
        ⟨outer, ih houter, Ty.mem_embedded_of_mem_embeddedValues hinner⟩

/-! ## What is found where a method is masked -/

/-- As long as the name does not occur, the levels of a search go on. -/
theorem SearchState.exists_of_occurrencesBy_eq_nil (depth : Nat)
    (habove : ∀ d < depth, u.occurrencesBy EmbeddingPath.merge name ty d = []) :
    ∃ types, u.SearchState name ty depth types [] := by
  induction depth with
  | zero => exact ⟨_, .start u name ty⟩
  | succ depth ih =>
      obtain ⟨types, h⟩ := ih fun d hd => habove d (by omega)
      exact ⟨_, h.next (h.found_eq.trans (habove depth (by omega))) (by simp)⟩

/-- The first occurrences of a name are counted in every type that is reached with as many
fields. -/
theorem mem_occurrencesBy {depth : Nat}
    (habove : ∀ d < depth, u.occurrencesBy EmbeddingPath.merge name ty d = []) {other : Ty}
    (hreached : other ∈ u.reachedIn ty depth) {member : Member}
    (hmember : member ∈ u.ownMembers name other) :
    member ∈ u.occurrencesBy EmbeddingPath.merge name ty depth := by
  obtain ⟨types, h⟩ := SearchState.exists_of_occurrencesBy_eq_nil depth habove
  have hnew : u.isNewAt ty depth other = true := by
    rw [isNewAt_iff]
    intro d hd hearlier
    simp [h.barren d hd other hearlier] at hmember
  rw [← h.found_eq]
  exact List.mem_flatMap.mpr ⟨other, h.mem_opened hreached hnew, hmember⟩

theorem ownMembers_of_ownMethod? {method : Method} (h : u.ownMethod? name ty = some method) :
    u.ownMembers name ty = [.method method.signature] := by
  rw [ownMembers, h]

theorem isPointer_of_interface {package : Option String} {methods : List (InterfaceMethod Ty)}
    (h : u.underlying ty = .interface package methods) : ty.isPointer = false := by
  cases ty with
  | pointer elem => simp [underlying] at h
  | _ => rfl

/-- The method that masks another one is a first occurrence of the name. -/
theorem Masks.mem_occurrencesBy {method : Method} (h : u.Masks name ty method) :
    ∃ depth, (∀ d < depth, u.occurrencesBy EmbeddingPath.merge name ty d = []) ∧
      .method method.signature ∈ u.occurrencesBy EmbeddingPath.merge name ty depth := by
  have hmem {depth : Nat} {holder : Ty} (hvalue : ty.isPointer = false)
      (habove : ∀ d < depth, u.occurrencesBy EmbeddingPath.merge name ty d = [])
      (hholder : holder ∈ u.heldIn ty depth) (hmethod : u.ownMethod? name holder = some method) :
      .method method.signature ∈ u.occurrencesBy EmbeddingPath.merge name ty depth := by
    apply Universe.mem_occurrencesBy habove (mem_reachedIn_of_mem_heldIn hvalue hholder)
    simp [ownMembers_of_ownMethod? hmethod]
  cases h with
  | declared hinterface hmethod =>
      exact ⟨0, by simp, hmem (isPointer_of_interface hinterface) (by simp) (.head _) hmethod⟩
  | receiver hvalue habove hholder hmethod hreceiver =>
      exact ⟨_, habove, hmem hvalue habove hholder hmethod⟩

/-- Where a method is masked, a template finds the method that masks it, or nothing. -/
theorem Masks.member?_eq {method : Method} (h : u.Masks name ty method)
    (hname : isExported name = true) (package : Option String) :
    u.member? ty ⟨name, package⟩ = some (.method method.signature) ∨
      u.member? ty ⟨name, package⟩ = none := by
  have hshallowest : Shallowest (u.occurrencesBy EmbeddingPath.merge name ty)
      (u.member? ty ⟨name, package⟩) :=
    search_shallowest hname package _ _ 0 _ (SearchState.start u name ty) rfl
  obtain ⟨depth, habove, hmem⟩ := h.mem_occurrencesBy
  exact (hshallowest.of_mem habove hmem).imp And.right And.right

/-! ## Two searches side by side -/

/-- A test that the first value passing another one passes makes no difference to it. -/
theorem find?_and_eq {α : Type} {first second : α → Bool} {values : List α}
    (h : ∀ value, values.find? first = some value → second value = true) :
    values.find? (fun value => first value && second value) = values.find? first := by
  induction values with
  | nil => rfl
  | cons value values ih =>
      cases hfirst : first value with
      | true =>
          have hsecond := h value (List.find?_cons_of_pos hfirst)
          rw [List.find?_cons_of_pos hfirst, List.find?_cons_of_pos (by simp [hfirst, hsecond])]
      | false =>
          have hnot : ¬first value = true := by simp [hfirst]
          rw [List.find?_cons_of_neg hnot] at h ⊢
          rw [List.find?_cons_of_neg (by simp [hfirst]), ih h]

section composite

variable (access : Access) (viaPointer : Bool)

theorem ofComposite_found_viaPointer (ty : Ty) :
    (Findings.ofComposite access viaPointer ty).found =
      (Findings.ofComposite access true ty).found := by
  cases ty with
  | interface package methods => simp only [Findings.ofComposite]
  | _ => rfl

theorem map_type_ofComposite_next (ty : Ty) :
    (Findings.ofComposite access viaPointer ty).next.map (·.type) = ty.embedded := by
  cases ty with
  | struct package fields => simp [Findings.ofComposite, Ty.embedded, Candidate.of]
  | interface package methods =>
      simp only [Findings.ofComposite]
      split <;> rfl
  | _ => rfl

/-- What does not count as pointed to is embedded by value. -/
theorem mem_embeddedValues_of_mem_ofComposite {ty : Ty} {inner : Candidate}
    (hmem : inner ∈ (Findings.ofComposite access viaPointer ty).next)
    (hvalue : inner.viaPointer = false) :
    viaPointer = false ∧ inner.type ∈ ty.embeddedValues := by
  cases ty with
  | struct package fields =>
      obtain ⟨field, hfield, rfl⟩ := List.mem_map.mp hmem
      obtain ⟨hvia, hfieldValue⟩ := Bool.or_eq_false_iff.mp hvalue
      refine ⟨hvia, ?_⟩
      rw [Candidate.of, Ty.withoutPointers_of_not_isPointer hfieldValue]
      exact List.mem_filter.mpr ⟨List.mem_map.mpr ⟨field, hfield, rfl⟩, by simp [hfieldValue]⟩
  | interface package methods =>
      simp only [Findings.ofComposite] at hmem
      split at hmem <;> simp at hmem
  | _ => simp [Findings.ofComposite] at hmem

end composite

/-- A candidate in which both searches find the same: it is pointed to, or the name is not that of
a method with a pointer receiver. -/
def IsPlainIn (u : Universe) (name : String) (candidate : Candidate) : Prop :=
  candidate.viaPointer = false →
    ∀ method, u.ownMethod? name candidate.type = some method → method.pointerReceiver = false

/-- What a search finds in a plain candidate, and where it goes on if it finds nothing. -/
theorem IsPlainIn.opened {candidate : Candidate} (h : u.IsPlainIn name candidate)
    (hname : isExported name = true) (package : Option String) :
    (u.opened ⟨name, package⟩ candidate).found = u.ownMembers name candidate.type ∧
      (u.ownMembers name candidate.type = [] →
        (u.opened ⟨name, package⟩ candidate).next =
          (Findings.ofComposite ⟨name, package⟩ candidate.viaPointer
            (u.underlying candidate.type)).next) := by
  obtain ⟨ty, viaPointer⟩ := candidate
  cases ty with
  | named typeName =>
      have hfind : ((u.declaration typeName).methods.find? fun method => method.name == name &&
            (viaPointer || !method.pointerReceiver) && Access.allowedIn ⟨name, package⟩
              (u.declaration typeName).package) =
          u.ownMethod? name (.named typeName) := by
        simp only [Access.allowedIn_of_isExported hname, Bool.and_true]
        refine find?_and_eq fun method hmethod => ?_
        cases viaPointer with
        | true => rfl
        | false => simp [h rfl method hmethod]
      simp only [Universe.opened, Findings.ofDeclaration, hfind, ownMembers]
      cases u.ownMethod? name (.named typeName) with
      | some method => simp
      | none =>
          refine ⟨?_, fun _ => rfl⟩
          exact (ofComposite_found_viaPointer _ _ _).trans (ofComposite_found hname package _)
  | _ =>
      refine ⟨?_, fun _ => rfl⟩
      exact (ofComposite_found_viaPointer _ _ _).trans (ofComposite_found hname package _)

/-- One level of plain candidates. -/
theorem searchLevel_plain (hname : isExported name = true) (package : Option String)
    {level : List Candidate} (hplain : ∀ candidate ∈ level, u.IsPlainIn name candidate)
    (seen : List TypeName) :
    let step := u.searchLevel ⟨name, package⟩ level seen
    let types := distinctBy Ty.name? seen (level.map (·.type))
    step.1.found = types.flatMap (u.ownMembers name) ∧
      (step.1.found = [] →
        step.1.next.map (·.type) = types.flatMap u.embedded ∧
          ∀ inner ∈ step.1.next, inner.viaPointer = false →
            ∃ candidate ∈ level, candidate.viaPointer = false ∧
              inner.type ∈ (u.underlying candidate.type).embeddedValues) := by
  intro step types
  obtain ⟨hfound, hnext⟩ := u.searchLevel_eq ⟨name, package⟩ level seen
  have htypes : types = (distinctBy (·.type.name?) seen level).map (·.type) :=
    distinctBy_map _ _ seen level
  have hopened : ∀ candidate ∈ distinctBy (·.type.name?) seen level,
      u.IsPlainIn name candidate := fun candidate hmem =>
    hplain candidate ((distinctBy_sublist _ _ _).subset hmem)
  have hown : step.1.found = types.flatMap (u.ownMembers name) := by
    rw [htypes, List.flatMap_map, hfound]
    exact List.flatMap_congr fun candidate hmem => ((hopened candidate hmem).opened hname package).1
  refine ⟨hown, fun hnone => ?_⟩
  rw [hown, htypes, List.flatMap_map, List.flatMap_eq_nil_iff] at hnone
  have hnext : step.1.next = (distinctBy (·.type.name?) seen level).flatMap fun candidate =>
      (Findings.ofComposite ⟨name, package⟩ candidate.viaPointer
        (u.underlying candidate.type)).next :=
    hnext.trans (List.flatMap_congr fun candidate hmem =>
      ((hopened candidate hmem).opened hname package).2 (hnone candidate hmem))
  rw [hnext]
  constructor
  · rw [htypes, List.map_flatMap, List.flatMap_map]
    exact List.flatMap_congr fun candidate _ => map_type_ofComposite_next _ _ _
  · intro inner hinner hvalue
    obtain ⟨candidate, hmem, hinner⟩ := List.mem_flatMap.mp hinner
    exact ⟨candidate, (distinctBy_sublist _ _ _).subset hmem,
      mem_embeddedValues_of_mem_ofComposite _ _ hinner hvalue⟩

/-- Which names are seen does not depend on pointers. -/
theorem seen_searchLevel_types (access : Access) (level : List Candidate) (seen : List TypeName) :
    (u.searchLevel access ((level.map (·.type)).map (⟨·, true⟩)) seen).2 =
      (u.searchLevel access level seen).2 := by
  fun_induction searchLevel u access level seen with
  | case1 seen => rfl
  | case2 other viaPointer level seen hseen ih =>
      rw [List.map_cons, List.map_cons, searchLevel, if_pos hseen, ih]
  | case3 other viaPointer level seen hnew findings seen' heq ih =>
      rw [heq] at ih
      rw [List.map_cons, List.map_cons, searchLevel, if_neg hnew]
      exact ih
  | case4 ty viaPointer level seen hne findings seen' heq ih =>
      rw [heq] at ih
      rw [List.map_cons, List.map_cons, searchLevel]
      · exact ih
      · exact hne

/-- Two searches agree that find the same at their levels and agree after levels without
findings. -/
theorem search_eq_of_found_eq {access : Access} {first second : Candidate}
    {firstLevel secondLevel : List Candidate} {seen : List TypeName}
    (hfound : (u.searchLevel access (first :: firstLevel) seen).1.found =
      (u.searchLevel access (second :: secondLevel) seen).1.found)
    (hnext : (u.searchLevel access (second :: secondLevel) seen).1.found = [] →
      u.search access (u.searchLevel access (first :: firstLevel) seen).1.next
          (u.searchLevel access (first :: firstLevel) seen).2 =
        u.search access (u.searchLevel access (second :: secondLevel) seen).1.next
          (u.searchLevel access (second :: secondLevel) seen).2) :
    u.search access (first :: firstLevel) seen = u.search access (second :: secondLevel) seen := by
  rw [search, search, hfound]
  cases hlevel : (u.searchLevel access (second :: secondLevel) seen).1.found with
  | nil => exact hnext hlevel
  | cons member members => cases members <;> rfl

section unmasked

variable (hname : isExported name = true) (package : Option String)
  (hvalue : ty.isPointer = false) (hfree : ∀ method, ¬u.Masks name ty method)
include hname hvalue hfree

/-- Where no method is masked, a level shows the same whether or not values count as pointed
to. -/
theorem SearchState.found_eq_of_not_masks {depth : Nat} {level : List Candidate}
    {seen : List TypeName} (h : u.SearchState name ty depth (level.map (·.type)) seen)
    (hheld : ∀ candidate ∈ level, candidate.viaPointer = false →
      candidate.type ∈ u.heldIn ty depth) :
    (∀ candidate ∈ level, u.IsPlainIn name candidate) ∧
      (u.searchLevel ⟨name, package⟩ ((level.map (·.type)).map (⟨·, true⟩)) seen).1.found =
        (u.searchLevel ⟨name, package⟩ level seen).1.found := by
  have hplain : ∀ candidate ∈ level, u.IsPlainIn name candidate := by
    intro candidate hmem hvia method hmethod
    by_contra hreceiver
    exact hfree method (.receiver hvalue h.occurrences_above (hheld candidate hmem hvia) hmethod
      (by simpa using hreceiver))
  refine ⟨hplain, ?_⟩
  rw [(searchLevel_types hname package _ seen).1, (searchLevel_plain hname package hplain seen).1]

/-- Where no method is masked, a search finds the same whether or not values count as pointed
to. -/
theorem search_eq_of_not_masks (level : List Candidate) (seen : List TypeName) :
    ∀ depth, u.SearchState name ty depth (level.map (·.type)) seen →
      (∀ candidate ∈ level, candidate.viaPointer = false → candidate.type ∈ u.heldIn ty depth) →
      u.search ⟨name, package⟩ ((level.map (·.type)).map (⟨·, true⟩)) seen =
        u.search ⟨name, package⟩ level seen := by
  induction level, seen using Universe.search.induct u ⟨name, package⟩ with
  | case1 seen =>
      intro depth h hheld
      rfl
  | case2 candidate level seen step hfound ih =>
      intro depth h hheld
      obtain ⟨hplain, hsame⟩ := h.found_eq_of_not_masks hname package hvalue hfree hheld
      have hnone := hsame.trans hfound
      obtain ⟨hfoundTypes, hnextTypes, hseen⟩ := searchLevel_types (u := u) hname package
        ((candidate :: level).map (·.type)) seen
      obtain ⟨hnext, hvalues⟩ := (searchLevel_plain hname package hplain seen).2 hfound
      have hstate := h.next (hfoundTypes.symm.trans hnone) hseen
      rw [← hnext, seen_searchLevel_types] at hstate
      have hstep := ih (depth + 1) hstate fun inner hinner hvia => by
        obtain ⟨outer, houter, houterVia, hmem⟩ := hvalues inner hinner hvia
        exact List.mem_flatMap.mpr ⟨outer.type, hheld outer houter houterVia, hmem⟩
      refine search_eq_of_found_eq hsame fun _ => ?_
      have hlevel := hnextTypes hnone
      rw [← hnext] at hlevel
      exact (congrArg₂ (u.search _) hlevel (seen_searchLevel_types _ _ seen)).trans hstep
  | case3 candidate level seen step member hfound =>
      intro depth h hheld
      have hsame := (h.found_eq_of_not_masks hname package hvalue hfree hheld).2
      exact search_eq_of_found_eq hsame fun hnone => by simp [step, hnone] at hfound
  | case4 candidate level seen step hnone hmany =>
      intro depth h hheld
      have hsame := (h.found_eq_of_not_masks hname package hvalue hfree hheld).2
      exact search_eq_of_found_eq hsame fun hempty => absurd hempty hnone

/-- Where no method is masked, the method set of a value has what a template finds. -/
theorem findMember_eq_member? :
    u.findMember ty ⟨name, package⟩ false = u.member? ty ⟨name, package⟩ := by
  refine (search_eq_of_not_masks hname package hvalue hfree [Candidate.of ty false] [] 0
    (SearchState.start u name ty) fun candidate hmem _ => ?_).symm
  rw [List.mem_singleton.mp hmem, Candidate.of, Ty.withoutPointers_of_not_isPointer hvalue]
  exact .head _

end unmasked

/-! ## Methods that an interface asks for -/

/-- Where no method is masked, a template finds the methods that an interface asks for. -/
theorem member?_of_interface (hname : isExported name = true) (used : Option String)
    {package : Option String} {methods : List (InterfaceMethod Ty)}
    (hinterface : u.underlying ty = .interface package methods)
    (hfree : ∀ method, ¬u.Masks name ty method) {found : InterfaceMethod Ty}
    (hfound : methods.find? (·.name == name) = some found) :
    u.member? ty ⟨name, used⟩ = some (.method found.signature) := by
  have hvalue := isPointer_of_interface hinterface
  have hmethod : u.ownMethod? name ty = none :=
    Option.eq_none_iff_forall_ne_some.mpr fun method hmethod =>
      hfree method (.declared hinterface hmethod)
  have hown : u.occurrencesBy EmbeddingPath.merge name ty 0 = [.method found.signature] := by
    simp [occurrencesBy, pathsBy, EmbeddingPath.start, Ty.withoutPointers_of_not_isPointer hvalue,
      ownMembers, hmethod, hinterface, Ty.ownMembers, hfound]
  have hshallowest := search_shallowest hname used _ _ 0 _ (SearchState.start u name ty) rfl
  have hmem : .method found.signature ∈ u.occurrencesBy EmbeddingPath.merge name ty 0 := by
    simp [hown]
  rcases hshallowest.of_mem (by simp) hmem with ⟨-, hone⟩ | ⟨hmany, -⟩
  · exact hone
  · simp [hown] at hmany

/-- What satisfies an interface has every exported method that the interface asks for when a
template looks for it, from whatever package, and with an identical signature, unless another
method masks it.  Where one does, that method is found or nothing is. -/
theorem member?_of_satisfies {package : Option String} {methods : List (InterfaceMethod Ty)}
    (h : u.satisfies ty package methods = true) {wanted : InterfaceMethod Ty}
    (hwanted : wanted ∈ methods) (hname : isExported wanted.name = true) (used : Option String) :
    ((∀ method, ¬u.Masks wanted.name ty method) →
        ∃ signature, u.member? ty ⟨wanted.name, used⟩ = some (.method signature) ∧
          signature.identical wanted.signature = true) ∧
      ∀ method, u.Masks wanted.name ty method →
        u.member? ty ⟨wanted.name, used⟩ = some (.method method.signature) ∨
          u.member? ty ⟨wanted.name, used⟩ = none := by
  refine ⟨fun hfree => ?_, fun method hmasks => hmasks.member?_eq hname used⟩
  obtain ⟨signature, hoffered, hsame⟩ :=
    Option.map_eq_some_iff.mp (satisfies_iff.mp h wanted hwanted)
  refine ⟨signature, ?_, (Signature.identical_iff _ _).mpr hsame⟩
  by_cases hinterface : u.IsInterface ty
  · obtain ⟨declared, own, hshape⟩ := hinterface
    rw [offered?_of_interface hshape] at hoffered
    obtain ⟨found, hfound, rfl⟩ := Option.map_eq_some_iff.mp hoffered
    exact member?_of_interface hname used hshape hfree hfound
  · have hfound := findMember_of_offered? hinterface hoffered
    rw [u.member?_package hname used package, ← hfound]
    cases hpointer : ty.isPointer with
    | true => rfl
    | false => exact (findMember_eq_member? hname package hpointer hfree).symm

theorem baseUniverse_receiver (typeName : TypeName) :
    ∀ method ∈ (baseUniverse.declaration typeName).methods, method.pointerReceiver = false := by
  rcases typeName with _ | _ | index <;>
    simp [baseUniverse, declaration, errorDeclaration, Declaration.methods]

/-- A struct that embeds a pointer to a named type satisfies an interface by a method of that
type. -/
theorem member?_of_satisfies_page :
    baseUniverse.satisfies pageType none [⟨"Describe", [], [.basic .string], false⟩] = true ∧
      isExported "Describe" = true ∧ (∀ method, ¬baseUniverse.Masks "Describe" pageType method) ∧
      ∃ signature, baseUniverse.member? pageType ⟨"Describe", some "app"⟩ =
          some (.method signature) ∧
        signature.identical ⟨[], [.basic .string], false⟩ = true := by
  have hname : isExported "Describe" = true := by decide
  have hfound : baseUniverse.findMember pageType ⟨"Describe", none⟩ false =
      some (.method ⟨[], [.basic .string], false⟩) := by
    rw [findMember, search]
    change baseUniverse.search _ [⟨.named (.declared 0), true⟩] _ = _
    rw [search]
    rfl
  have hoffered : baseUniverse.offered? pageType none "Describe" =
      some ⟨[], [.basic .string], false⟩ :=
    congrArg (Option.bind · Member.signature?) hfound
  have hsatisfies :
      baseUniverse.satisfies pageType none [⟨"Describe", [], [.basic .string], false⟩] = true := by
    rw [satisfies_iff]
    simp [hoffered]
  have hfree (method : Method) : ¬baseUniverse.Masks "Describe" pageType method := by
    rintro (⟨hinterface, -⟩ | @⟨depth, holder, -, -, -, hmethod, hreceiver⟩)
    · simp [pageType, underlying] at hinterface
    · cases holder with
      | named typeName =>
          rw [baseUniverse_receiver typeName method (List.mem_of_find?_eq_some hmethod)] at hreceiver
          contradiction
      | _ => simp [ownMethod?] at hmethod
  exact ⟨hsatisfies, hname, hfree, (member?_of_satisfies hsatisfies (.head _) hname _).1 hfree⟩

/-! ## A masked method -/

/-- A type embeds another one by value.  Both have a method of one name, the outer one with a
pointer receiver and with another result. -/
def maskedUniverse : Universe where
  declarations := [
    { name := "Page", definition := some ⟨
        .struct none [{ name := "Base", type := .named (.declared 1), embedded := true }],
        [⟨"Title", true, [], [.basic .int], false⟩]⟩ },
    { name := "Base", definition := some ⟨.emptyStruct,
        [⟨"Title", false, [], [.basic .string], false⟩]⟩ }]

/-- The type satisfies the interface by the method of the embedded type, and a template finds the
other one. -/
theorem masked_satisfies_and_member? :
    isExported "Title" = true ∧
      maskedUniverse.satisfies (.named (.declared 0)) none
        [⟨"Title", [], [.basic .string], false⟩] = true ∧
      ∀ used, maskedUniverse.member? (.named (.declared 0)) ⟨"Title", used⟩ =
          some (.method ⟨[], [.basic .int], false⟩) ∧
        ¬∃ signature, maskedUniverse.member? (.named (.declared 0)) ⟨"Title", used⟩ =
            some (.method signature) ∧
          signature.identical ⟨[], [.basic .string], false⟩ = true := by
  have hname : isExported "Title" = true := by decide
  have hfound : maskedUniverse.findMember (.named (.declared 0)) ⟨"Title", none⟩ false =
      some (.method ⟨[], [.basic .string], false⟩) := by
    rw [findMember, search]
    change maskedUniverse.search _ [⟨.named (.declared 1), false⟩] _ = _
    rw [search]
    rfl
  have hoffered : maskedUniverse.offered? (.named (.declared 0)) none "Title" =
      some ⟨[], [.basic .string], false⟩ :=
    congrArg (Option.bind · Member.signature?) hfound
  refine ⟨hname, ?_, fun used => ?_⟩
  · rw [satisfies_iff]
    simp [hoffered]
  · have hmember : maskedUniverse.member? (.named (.declared 0)) ⟨"Title", used⟩ =
        some (.method ⟨[], [.basic .int], false⟩) := by
      rw [maskedUniverse.member?_package hname used none, member?, findMember, search]
      rfl
    refine ⟨hmember, ?_⟩
    rintro ⟨signature, hsignature, hidentical⟩
    rw [hmember] at hsignature
    cases hsignature
    simp [Signature.identical, Ty.allIdentical, Ty.identical] at hidentical

end Universe

end TemplateTyping
