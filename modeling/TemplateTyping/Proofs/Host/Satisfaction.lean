import Mathlib.Data.List.Nodup
import TemplateTyping.Host.Assignability
import TemplateTyping.Proofs.Host.Identity
import TemplateTyping.Proofs.Host.Visibility

/-!
# Interfaces between types

A type satisfies an interface if it offers every method that the interface asks for.  An interface
offers the methods that it asks for itself, whatever package they belong to; every other type
offers those that are found in it from the package of the interface.  So satisfaction is
transitive as long as the packages of two interfaces do not matter: their names are exported, the
packages are the same, or the type is an interface itself.
-/

namespace TemplateTyping

/-- The signature of a method. -/
def Member.signature? : Member → Option (Signature Ty)
  | .field _ => none
  | .method signature => some signature

namespace Universe

/-! ## Offered methods -/

/-- The signature of the method that a type offers to an interface of a package which asks for a
name. -/
def offered? (u : Universe) (ty : Ty) (package : Option String) (name : String) :
    Option (Signature Ty) :=
  match u.underlying ty with
  | .interface _ own => (own.find? (·.name == name)).map (·.signature)
  | _ => (u.findMember ty ⟨name, package⟩ ty.isPointer).bind Member.signature?

/-- Whether a type is an interface, also a named one. -/
def IsInterface (u : Universe) (ty : Ty) : Prop :=
  ∃ package methods, u.underlying ty = .interface package methods

variable {u : Universe} {ty : Ty} {name : String} {package : Option String}
  {methods : List (InterfaceMethod Ty)}

theorem offered?_of_interface (h : u.underlying ty = .interface package methods)
    (used : Option String) (name : String) :
    u.offered? ty used name = (methods.find? (·.name == name)).map (·.signature) := by
  rw [offered?, h]

theorem findMember_of_offered? (h : ¬u.IsInterface ty) {used : Option String}
    {signature : Signature Ty} (hoffered : u.offered? ty used name = some signature) :
    u.findMember ty ⟨name, used⟩ ty.isPointer = some (.method signature) := by
  unfold offered? at hoffered
  split at hoffered
  · exact absurd ⟨_, _, ‹_›⟩ h
  · obtain ⟨member, hmember, hsignature⟩ := Option.bind_eq_some_iff.mp hoffered
    cases member with
    | field ty => simp [Member.signature?] at hsignature
    | method found =>
        obtain rfl : found = signature := by simpa [Member.signature?] using hsignature
        exact hmember

/-- A type satisfies an interface if it offers each method with an identical signature. -/
theorem satisfies_iff :
    u.satisfies ty package methods = true ↔
      ∀ wanted ∈ methods,
        (u.offered? ty package wanted.name).map Signature.bare = some wanted.signature.bare := by
  cases hshape : u.underlying ty with
  | interface declared own =>
      simp only [satisfies, offered?, hshape, List.all_eq_true, Option.any_eq_true,
        Signature.identical_iff, Option.map_map, Option.map_eq_some_iff, Function.comp_apply]
  | _ =>
      simp only [satisfies, offered?, hshape, List.all_eq_true]
      refine forall_congr' fun wanted => forall_congr' fun _ => ?_
      rcases u.findMember ty ⟨wanted.name, package⟩ ty.isPointer with _ | _ | signature
      · simp
      · simp [Member.signature?]
      · simp [Member.signature?, Signature.identical_iff]

theorem findMember_package (hname : isExported name = true) (used used' : Option String)
    (viaPointer : Bool) :
    u.findMember ty ⟨name, used⟩ viaPointer = u.findMember ty ⟨name, used'⟩ viaPointer :=
  search_congr (u.searchLevel_package hname used used') _ _

/-- What is offered depends on the package only if the name is not exported and the type is no
interface. -/
theorem offered?_package {used used' : Option String}
    (h : u.IsInterface ty ∨ isExported name = true ∨ used = used') :
    u.offered? ty used name = u.offered? ty used' name := by
  rcases h with ⟨declared, own, hshape⟩ | hname | rfl
  · rw [offered?_of_interface hshape, offered?_of_interface hshape]
  · simp only [offered?, findMember_package hname used used']
  · rfl

/-! ## Transitivity -/

variable {middle target : Ty} {used used' : Option String} {own wanted : List (InterfaceMethod Ty)}

/-- What satisfies an interface satisfies every interface that this one satisfies. -/
theorem satisfies_of_satisfies (hmiddle : u.underlying middle = .interface used own)
    (hnames : u.IsInterface ty ∨
      ∀ method ∈ wanted, isExported method.name = true ∨ used = used')
    (hfirst : u.satisfies ty used own = true) (hsecond : u.satisfies middle used' wanted = true) :
    u.satisfies ty used' wanted = true := by
  rw [satisfies_iff] at hfirst hsecond ⊢
  intro method hmethod
  have hoffered := hsecond method hmethod
  rw [offered?_of_interface hmiddle, Option.map_map, Option.map_eq_some_iff] at hoffered
  obtain ⟨found, hfound, hsignature⟩ := hoffered
  have hname : found.name = method.name := by simpa using List.find?_some hfound
  have hfirst := hfirst found (List.mem_of_find?_eq_some hfound)
  rw [hname, offered?_package (hnames.imp_right fun h => h method hmethod)] at hfirst
  exact hfirst.trans (congrArg some hsignature)

/-- Types of the same composition offer the same methods if one of them is an interface. -/
theorem satisfies_of_bare_eq (hsame : (u.underlying ty).bare = (u.underlying middle).bare)
    (hmiddle : u.underlying middle = .interface used own)
    (hsecond : u.satisfies middle used' wanted = true) : u.satisfies ty used' wanted = true := by
  rw [hmiddle] at hsame
  cases hshape : u.underlying ty with
  | interface declared own' =>
      rw [hshape] at hsame
      simp only [Ty.bare, Ty.interface.injEq, true_and] at hsame
      rw [satisfies_iff] at hsecond ⊢
      intro method hmethod
      rw [← hsecond method hmethod, offered?_of_interface hshape, offered?_of_interface hmiddle,
        Option.map_map, Option.map_map]
      exact InterfaceMethod.map_bare_find?_eq hsame method.name
  | _ => simp [hshape, Ty.bare] at hsame

/-- An interface that names no method twice satisfies itself. -/
theorem satisfies_self (htarget : u.underlying target = .interface used' wanted)
    (hnodup : (wanted.map (·.name)).Nodup) : u.satisfies target used' wanted = true := by
  rw [satisfies_iff]
  intro method hmethod
  have hsome : (wanted.find? (·.name == method.name)).isSome = true :=
    List.find?_isSome.mpr ⟨method, hmethod, by simp⟩
  obtain ⟨found, hfound⟩ := Option.isSome_iff_exists.mp hsome
  have hname : found.name = method.name := by simpa using List.find?_some hfound
  obtain rfl : found = method :=
    List.inj_on_of_nodup_map hnodup (List.mem_of_find?_eq_some hfound) hmethod hname
  rw [offered?_of_interface htarget, hfound]
  rfl

/-! ## Assignment -/

/-- What it takes to be assignable to another type. -/
theorem assignable_iff (u : Universe) (source target : Ty) :
    u.assignable source target = true ↔
      source.identical target = true ∨
        (∃ kind, source = .basic kind ∧ kind.isUntyped = true ∧
          u.constantAssignable kind target = true) ∨
        (∀ kind, source = .basic kind → kind.isUntyped = false) ∧
          u.valueAssignable source target = true := by
  unfold assignable
  rw [Bool.or_eq_true]
  refine or_congr_right ?_
  cases source with
  | basic kind => cases hkind : kind.isUntyped <;> simp [hkind]
  | _ => simp

/-- The types behind identical types are identical. -/
theorem bare_underlying_eq {source target : Ty} (h : source.identical target = true) :
    (u.underlying source).bare = (u.underlying target).bare := by
  rw [Ty.identical_iff] at h
  cases source with
  | named name =>
      cases target with
      | named other =>
          simp only [Ty.bare, Ty.named.injEq] at h
          rw [h]
      | _ => simp [Ty.bare] at h
  | _ =>
      cases target with
      | named other => simp [Ty.bare] at h
      | _ => exact h

/-- A type that stands for an interface is no constant. -/
theorem ne_basic_of_interface (hmiddle : u.underlying middle = .interface used own) (kind : Kind) :
    middle ≠ .basic kind := by
  rintro rfl
  simp [underlying] at hmiddle

/-- A value is assignable to an interface if it has the same composition or satisfies it. -/
theorem valueAssignable_interface (hmiddle : u.underlying middle = .interface used own)
    {source : Ty} (h : u.valueAssignable source middle = true) :
    (u.underlying source).bare = (u.underlying middle).bare ∨
      u.satisfies source used own = true := by
  simp only [valueAssignable, implements?, hmiddle, Bool.or_eq_true, Bool.and_eq_true,
    Option.getD_some] at h
  rw [hmiddle, ← Ty.identical_iff]
  exact h.imp_left And.left

/-- A value that satisfies an interface can be assigned to it. -/
theorem assignable_of_satisfies (hmiddle : u.underlying middle = .interface used own)
    {source : Ty}
    (hvalue : ∀ kind, source = .basic kind → kind.isUntyped = false)
    (h : u.satisfies source used own = true) : u.assignable source middle = true := by
  refine (u.assignable_iff source middle).mpr (.inr (.inr ⟨hvalue, ?_⟩))
  simp [valueAssignable, implements?, hmiddle, h]

/-- An interface whose values can be assigned to another one satisfies it, if the other one names
no method twice. -/
theorem satisfies_of_assignable (hmiddle : u.underlying middle = .interface used own)
    (htarget : u.underlying target = .interface used' wanted)
    (hnodup : (wanted.map (·.name)).Nodup) (h : u.assignable middle target = true) :
    u.satisfies middle used' wanted = true := by
  have hself := satisfies_self htarget hnodup
  rcases (u.assignable_iff middle target).mp h with h | ⟨kind, hbasic, -⟩ | ⟨-, h⟩
  · exact satisfies_of_bare_eq (bare_underlying_eq h) htarget hself
  · exact absurd hbasic (ne_basic_of_interface hmiddle kind)
  · rcases valueAssignable_interface htarget h with h | h
    · exact satisfies_of_bare_eq h htarget hself
    · exact h

/-- What can be assigned to an interface can be assigned to every interface that this one
satisfies. -/
theorem assignable_through (hmiddle : u.underlying middle = .interface used own)
    (htarget : u.underlying target = .interface used' wanted)
    (hnames : u.IsInterface ty ∨
      ∀ method ∈ wanted, isExported method.name = true ∨ used = used')
    (hfirst : u.assignable ty middle = true)
    (hsecond : u.satisfies middle used' wanted = true) : u.assignable ty target = true := by
  rcases (u.assignable_iff ty middle).mp hfirst with h | ⟨kind, rfl, hkind, h⟩ | ⟨hvalue, h⟩
  · have hsame := bare_underlying_eq (u := u) h
    refine assignable_of_satisfies htarget ?_ (satisfies_of_bare_eq hsame hmiddle hsecond)
    rintro kind rfl
    rw [hmiddle] at hsame
    simp [underlying, Ty.bare] at hsame
  · refine (u.assignable_iff _ target).mpr (.inr (.inl ⟨kind, rfl, hkind, ?_⟩))
    simp only [constantAssignable, hmiddle, htarget, Bool.or_eq_true] at h ⊢
    refine h.imp_right fun h => satisfies_of_satisfies hmiddle (.inr ?_) h hsecond
    rcases hnames with ⟨_, _, hbasic⟩ | hnames
    · simp [underlying] at hbasic
    · exact hnames
  · refine assignable_of_satisfies htarget hvalue ?_
    rcases valueAssignable_interface hmiddle h with h | h
    · exact satisfies_of_bare_eq h hmiddle hsecond
    · exact satisfies_of_satisfies hmiddle hnames h hsecond

/-- Satisfaction is transitive, and so is assignment through an interface that leads to one which
names no method twice, if the type is an interface itself or every name that the last interface
asks for is exported or belongs to the package of the interface in between. -/
theorem satisfies_trans (hmiddle : u.underlying middle = .interface used own)
    (htarget : u.underlying target = .interface used' wanted)
    (hnames : u.IsInterface ty ∨
      ∀ method ∈ wanted, isExported method.name = true ∨ used = used') :
    (u.satisfies ty used own = true → u.satisfies middle used' wanted = true →
        u.satisfies ty used' wanted = true) ∧
      ((wanted.map (·.name)).Nodup → u.assignable ty middle = true →
        u.assignable middle target = true → u.assignable ty target = true) := by
  refine ⟨satisfies_of_satisfies hmiddle hnames, fun hnodup hfirst hsecond => ?_⟩
  exact assignable_through hmiddle htarget hnames hfirst
    (satisfies_of_assignable hmiddle htarget hnodup hsecond)

/-- An interface that asks for two methods of one name. -/
def repeatedInterface : Ty :=
  .interface none [⟨"Get", [], [.basic .int], false⟩, ⟨"Get", [], [.basic .string], false⟩]

/-- Two named interfaces that ask for two methods of one name. -/
def repeatedUniverse : Universe where
  declarations := [
    { name := "A", definition := some ⟨repeatedInterface, []⟩ },
    { name := "B", definition := some ⟨repeatedInterface, []⟩ }]

-- The names have to differ: an interface that names a method twice does not even satisfy itself.
example :
    repeatedUniverse.assignable (.named (.declared 0)) repeatedInterface = true ∧
      repeatedUniverse.assignable repeatedInterface (.named (.declared 1)) = true ∧
      repeatedUniverse.assignable (.named (.declared 0)) (.named (.declared 1)) = false := by
  decide

/-! ## A method that is not exported -/

/-- A named type with two methods, one of which is not exported. -/
def keyUniverse : Universe where
  declarations := [{
    name := "Key"
    package := some "app"
    definition := some ⟨.emptyStruct, [⟨"Name", false, [], [.basic .string], false⟩,
      ⟨"id", false, [], [.basic .int], false⟩]⟩ }]

/-- The named type. -/
def keyType : Ty := .named (.declared 0)

/-- The exported method. -/
def nameMethod : InterfaceMethod Ty := ⟨"Name", [], [.basic .string], false⟩

/-- The method that is not exported. -/
def idMethod : InterfaceMethod Ty := ⟨"id", [], [.basic .int], false⟩

/-- An interface of a package with both methods. -/
def keyInterface : Ty := .interface (some "app") [nameMethod, idMethod]

theorem findMember_keyType_name (package : Option String) :
    keyUniverse.findMember keyType ⟨"Name", package⟩ false =
      some (.method nameMethod.signature) := by
  rw [findMember_package (by decide) package none, findMember, search]
  rfl

theorem findMember_keyType_id :
    keyUniverse.findMember keyType ⟨"id", some "app"⟩ false =
      some (.method idMethod.signature) := by
  rw [findMember, search]
  rfl

theorem offered?_keyType (package : Option String) (name : String) :
    keyUniverse.offered? keyType package name =
      (keyUniverse.findMember keyType ⟨name, package⟩ false).bind Member.signature? := rfl

theorem keyType_satisfies :
    keyUniverse.satisfies keyType (some "app") [nameMethod, idMethod] = true := by
  rw [satisfies_iff]
  simp [offered?_keyType, nameMethod, idMethod, findMember_keyType_name, findMember_keyType_id,
    Member.signature?]

/-- Through an interface with both methods a value comes to one with the exported method in
another package. -/
theorem satisfies_trans_key :
    keyUniverse.satisfies keyType (some "app") [nameMethod, idMethod] = true ∧
      keyUniverse.satisfies keyInterface (some "web") [nameMethod] = true ∧
      keyUniverse.satisfies keyType (some "web") [nameMethod] = true ∧
      keyUniverse.assignable keyType (.interface (some "web") [nameMethod]) = true := by
  have hmiddle : keyUniverse.underlying keyInterface =
      .interface (some "app") [nameMethod, idMethod] := rfl
  have htarget : keyUniverse.underlying (.interface (some "web") [nameMethod]) =
      .interface (some "web") [nameMethod] := rfl
  have hsecond : keyUniverse.satisfies keyInterface (some "web") [nameMethod] = true := by
    rw [satisfies_iff]
    simp [offered?_of_interface hmiddle, nameMethod]
  have hnames : keyUniverse.IsInterface keyType ∨
      ∀ method ∈ [nameMethod], isExported method.name = true ∨ some "app" = some "web" :=
    .inr fun method hmethod => .inl (List.mem_singleton.mp hmethod ▸ by decide)
  have htrans := satisfies_trans hmiddle htarget hnames
  refine ⟨keyType_satisfies, hsecond, htrans.1 keyType_satisfies hsecond,
    htrans.2 (List.nodup_singleton _) ?_ ?_⟩
  · exact assignable_of_satisfies hmiddle (by simp [keyType]) keyType_satisfies
  · exact assignable_of_satisfies htarget (by simp [keyInterface]) hsecond

/-- An interface of one package satisfies that of another one, although the method it offers is
hidden there: the value is assignable to the first, the first to the second, and the value not to
the second. -/
theorem keyType_not_satisfies_trans :
    keyUniverse.satisfies keyType (some "app") [nameMethod, idMethod] = true ∧
      keyUniverse.satisfies keyInterface (some "web") [idMethod] = true ∧
      keyUniverse.satisfies keyType (some "web") [idMethod] = false ∧
      keyUniverse.assignable keyType keyInterface = true ∧
      keyUniverse.assignable keyInterface (.interface (some "web") [idMethod]) = true ∧
      keyUniverse.assignable keyType (.interface (some "web") [idMethod]) = false := by
  have hmiddle : keyUniverse.underlying keyInterface =
      .interface (some "app") [nameMethod, idMethod] := rfl
  have htarget : keyUniverse.underlying (.interface (some "web") [idMethod]) =
      .interface (some "web") [idMethod] := rfl
  have hhidden : keyUniverse.findMember keyType ⟨"id", some "web"⟩ false = none := by
    rw [findMember, search]
    change keyUniverse.search _ [] _ = none
    rw [search]
  have hsecond : keyUniverse.satisfies keyInterface (some "web") [idMethod] = true := by
    rw [satisfies_iff]
    simp [offered?_of_interface hmiddle, nameMethod, idMethod]
  have hnot : ¬keyUniverse.satisfies keyType (some "web") [idMethod] = true := by
    rw [satisfies_iff]
    simp [offered?_keyType, idMethod, hhidden]
  have hrefused : ¬keyUniverse.assignable keyType (.interface (some "web") [idMethod]) = true := by
    rw [assignable_iff]
    rintro (h | ⟨kind, h, -⟩ | ⟨-, h⟩)
    · simp [keyType, Ty.identical] at h
    · simp [keyType] at h
    · rcases valueAssignable_interface htarget h with h | h
      · simp [keyType, underlying, keyUniverse, declaration, Declaration.underlying,
          Ty.emptyStruct, Ty.bare] at h
      · exact hnot h
  exact ⟨keyType_satisfies, hsecond, by simpa using hnot,
    assignable_of_satisfies hmiddle (by simp [keyType]) keyType_satisfies,
    assignable_of_satisfies htarget (by simp [keyInterface]) hsecond, by simpa using hrefused⟩

end Universe

end TemplateTyping
