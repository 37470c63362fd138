import Mathlib.Data.List.Basic
import Mathlib.Data.Nat.Find
import TemplateTyping.Check.Call

/-!
# Calls that fit a signature

A call fits a signature if the results can be used, the number of arguments is right, and each
argument can be passed for its parameter.  What these conditions are is said here on its own: the
last parameter of a variadic signature stands for all arguments from its place on.  The main
statement is that a call is accepted exactly if it fits, and that the fault found otherwise is that
of the first condition which fails, and of the first argument for which it fails.
-/

namespace TemplateTyping

/-! ## Conditions -/

namespace Signature

variable (signature : Signature Ty)

/-- The last parameter stands for any number of arguments. -/
def IsOpen : Prop := signature.variadic = true ∧ signature.params ≠ []

/-- The number of arguments is right: one for each parameter, or at least one for each parameter
but the last if that stands for any number. -/
structure Takes (count : Nat) : Prop where
  exactly : ¬signature.IsOpen → count = signature.params.length
  atLeast : signature.IsOpen → signature.params.length - 1 ≤ count

/-- The fault of a wrong number of arguments. -/
inductive CountFault (name : String) (count : Nat) : Cause → Prop
  | exactly : ¬signature.IsOpen → count ≠ signature.params.length →
      CountFault name count (.wrongArgCount name signature.params.length count)
  | atLeast : signature.IsOpen → count < signature.params.length - 1 →
      CountFault name count (.tooFewArgs name (signature.params.length - 1) count)

end Signature

namespace Universe

variable (u : Universe)

/-- The results can be used, and the first of them is the type of a call: there is one, or there
are two of which the second is an error. -/
inductive Returns : List Ty → Ty → Prop
  | one {result : Ty} : Returns [result] result
  | two {result second : Ty} : u.isErrorLike second = true → Returns [result, second] result

/-- The fault of results that cannot be used. -/
inductive ResultFault (name : String) : List Ty → Cause → Prop
  | count {results : List Ty} : results.length ≠ 1 → results.length ≠ 2 →
      ResultFault name results (.resultCount name results.length)
  | second {result second : Ty} : u.isErrorLike second = false →
      ResultFault name [result, second] (.secondResultNotError name (u.describe second))

/-- The parameter that the argument at a place is passed for: that of the same place if it is
fixed, otherwise the element of the last parameter, or the last parameter itself if it is no
slice. -/
inductive ParameterAt (signature : Signature Ty) (index : Nat) : Ty → Prop
  | fixed {param : Ty} : (signature.IsOpen → index < signature.params.length - 1) →
      signature.params[index]? = some param → ParameterAt signature index param
  | element {last elem : Ty} : signature.IsOpen → signature.params.length - 1 ≤ index →
      signature.params.getLast? = some last → u.underlying last = .slice elem →
      ParameterAt signature index elem
  | last {last : Ty} : signature.IsOpen → signature.params.length - 1 ≤ index →
      signature.params.getLast? = some last → (∀ elem, u.underlying last ≠ .slice elem) →
      ParameterAt signature index last

/-- The argument at a place can be passed for its parameter. -/
def Fits (signature : Signature Ty) (index : Nat) (arg : Ty) : Prop :=
  ∃ param, u.ParameterAt signature index param ∧ u.passable arg param = true

/-! ## Results -/

theorem checkResults_eq_ok_iff (name : String) (signature : Signature Ty) (result : Ty) :
    u.checkResults name signature = .ok result ↔ u.Returns signature.results result := by
  unfold checkResults
  constructor
  · intro h
    split at h
    · rename_i first hresults
      obtain rfl := Except.ok.inj h
      rw [hresults]
      exact .one
    · rename_i first second hresults
      rw [hresults]
      split at h
      · rename_i hlike
        obtain rfl := Except.ok.inj h
        exact .two hlike
      · cases h
    · cases h
  · intro h
    generalize signature.results = results at h
    cases h with
    | one => rfl
    | two hlike => exact if_pos hlike

theorem checkResults_eq_error_iff (name : String) (signature : Signature Ty) (cause : Cause) :
    u.checkResults name signature = .error cause ↔
      u.ResultFault name signature.results cause := by
  unfold checkResults
  constructor
  · intro h
    split at h
    · cases h
    · rename_i first second hresults
      rw [hresults]
      split at h
      · cases h
      · rename_i hlike
        obtain rfl := Except.error.inj h
        exact .second (Bool.eq_false_iff.mpr hlike)
    · rename_i hone htwo
      obtain rfl := Except.error.inj h
      refine .count ?_ ?_
      · intro hlength
        obtain ⟨first, hresults⟩ := List.length_eq_one_iff.mp hlength
        exact hone first hresults
      · intro hlength
        obtain ⟨first, second, hresults⟩ := List.length_eq_two.mp hlength
        exact htwo first second hresults
  · intro h
    generalize signature.results = results at h
    cases h with
    | count hone htwo =>
        rcases results with _ | ⟨first, _ | ⟨second, _ | ⟨third, results⟩⟩⟩
        · rfl
        · exact absurd rfl hone
        · exact absurd rfl htwo
        · rfl
    | second hlike => exact if_neg (Bool.eq_false_iff.mp hlike)

/-! ## Parameters -/

variable {u}

theorem parameters_of_isOpen {signature : Signature Ty} (h : signature.IsOpen) :
    ∃ last, signature.params.getLast? = some last ∧
      u.parameters signature =
        ⟨signature.params.dropLast, some ((u.sliceElem? last).getD last)⟩ := by
  obtain ⟨hvariadic, hparams⟩ := h
  have hlast := List.getLast?_eq_some_getLast hparams
  refine ⟨_, hlast, ?_⟩
  rw [parameters, hvariadic, hlast]

theorem parameters_of_not_isOpen {signature : Signature Ty} (h : ¬signature.IsOpen) :
    u.parameters signature = ⟨signature.params, none⟩ := by
  unfold parameters
  split
  · rename_i last hvariadic hlast
    refine absurd ⟨hvariadic, ?_⟩ h
    intro hnil
    rw [hnil] at hlast
    cases hlast
  · rfl

theorem sliceElem?_eq_some_iff {ty elem : Ty} :
    u.sliceElem? ty = some elem ↔ u.underlying ty = .slice elem := by
  unfold sliceElem?
  split
  · rename_i found hslice
    rw [hslice, Option.some.injEq, Ty.slice.injEq]
  · rename_i hother
    constructor
    · intro h
      cases h
    · intro h
      exact absurd h (hother elem)

theorem sliceElem?_getD_eq_iff {last param : Ty} :
    (u.sliceElem? last).getD last = param ↔
      u.underlying last = .slice param ∨
        last = param ∧ ∀ elem, u.underlying last ≠ .slice elem := by
  cases helem : u.sliceElem? last with
  | none =>
      have hother : ∀ elem, u.underlying last ≠ .slice elem := by
        intro elem h
        rw [sliceElem?_eq_some_iff.mpr h] at helem
        cases helem
      rw [Option.getD_none, or_iff_right (hother param)]
      exact (and_iff_left hother).symm
  | some elem =>
      have hslice := sliceElem?_eq_some_iff.mp helem
      rw [Option.getD_some, hslice, Ty.slice.injEq, or_iff_left]
      exact fun h => h.2 elem rfl

/-- A parameter is found at a place exactly if an argument there is passed for it. -/
theorem parameters_at?_eq_some_iff {signature : Signature Ty} {index : Nat} {param : Ty} :
    (u.parameters signature).at? index = some param ↔ u.ParameterAt signature index param := by
  by_cases hopen : signature.IsOpen
  · obtain ⟨last, hlast, hparameters⟩ := parameters_of_isOpen (u := u) hopen
    rw [hparameters, Parameters.at?, List.getElem?_dropLast]
    by_cases hindex : index < signature.params.length - 1
    · have hlength : index < signature.params.length := Nat.lt_of_lt_pred hindex
      rw [if_pos hindex, List.getElem?_eq_getElem hlength, Option.some_or,
        ← List.getElem?_eq_getElem hlength]
      constructor
      · exact .fixed fun _ => hindex
      · intro h
        cases h with
        | fixed _ hparam => exact hparam
        | element _ hle => exact absurd hindex (Nat.not_lt_of_le hle)
        | last _ hle => exact absurd hindex (Nat.not_lt_of_le hle)
    · have hle := Nat.le_of_not_lt hindex
      rw [if_neg hindex, Option.none_or, Option.some.injEq, sliceElem?_getD_eq_iff]
      constructor
      · rintro (hslice | ⟨rfl, hother⟩)
        · exact .element hopen hle hlast hslice
        · exact .last hopen hle hlast hother
      · intro h
        cases h with
        | fixed hfixed => exact absurd (hfixed hopen) hindex
        | element _ _ hlast' hslice =>
            obtain rfl := Option.some.inj (hlast.symm.trans hlast')
            exact .inl hslice
        | last _ _ hlast' hother =>
            obtain rfl := Option.some.inj (hlast.symm.trans hlast')
            exact .inr ⟨rfl, hother⟩
  · rw [parameters_of_not_isOpen hopen, Parameters.at?, Option.or_none]
    constructor
    · exact .fixed fun h => absurd h hopen
    · intro h
      cases h with
      | fixed _ hparam => exact hparam
      | element h => exact absurd h hopen
      | last h => exact absurd h hopen

/-- If the number of arguments is right, each of them has a parameter. -/
theorem exists_parameterAt {signature : Signature Ty} {count index : Nat}
    (hcount : signature.Takes count) (hindex : index < count) :
    ∃ param, u.ParameterAt signature index param := by
  by_cases hopen : signature.IsOpen
  · obtain ⟨last, -, hparameters⟩ := parameters_of_isOpen (u := u) hopen
    have hsome : ((u.parameters signature).at? index).isSome := by
      rw [hparameters, Parameters.at?, Option.isSome_or, Option.isSome_some, Bool.or_true]
    obtain ⟨param, hparam⟩ := Option.isSome_iff_exists.mp hsome
    exact ⟨param, parameters_at?_eq_some_iff.mp hparam⟩
  · rw [hcount.exactly hopen] at hindex
    exact ⟨_, .fixed (fun h => absurd h hopen) (List.getElem?_eq_getElem hindex)⟩

/-- No parameter at a place is one that the argument cannot be passed for. -/
def Suits (u : Universe) (params : Parameters) (index : Nat) (arg : Ty) : Prop :=
  ∀ param, params.at? index = some param → u.passable arg param = true

theorem exists_parameter_of_not_suits {params : Parameters} {index : Nat} {arg : Ty}
    (h : ¬u.Suits params index arg) :
    ∃ param, params.at? index = some param ∧ u.passable arg param = false := by
  simp only [Suits, not_forall, Bool.not_eq_true] at h
  obtain ⟨param, hparam, hpassable⟩ := h
  exact ⟨param, hparam, hpassable⟩

theorem fits_iff_suits {signature : Signature Ty} {count index : Nat} {arg : Ty}
    (hcount : signature.Takes count) (hindex : index < count) :
    u.Fits signature index arg ↔ u.Suits (u.parameters signature) index arg := by
  constructor
  · rintro ⟨param, hparam, hpassable⟩ param' hparam'
    rw [parameters_at?_eq_some_iff.mpr hparam] at hparam'
    exact Option.some.inj hparam' ▸ hpassable
  · intro h
    obtain ⟨param, hparam⟩ := exists_parameterAt (u := u) hcount hindex
    exact ⟨param, hparam, h param (parameters_at?_eq_some_iff.mpr hparam)⟩

/-! ## Numbers of arguments -/

theorem checkCount_eq_ok_iff (name : String) (signature : Signature Ty) (count : Nat) :
    checkCount name (u.parameters signature) count = .ok () ↔ signature.Takes count := by
  by_cases hopen : signature.IsOpen
  · obtain ⟨last, -, hparameters⟩ := parameters_of_isOpen (u := u) hopen
    simp only [hparameters, checkCount, expectAtLeast, List.length_dropLast]
    constructor
    · intro h
      split at h
      · rename_i hle
        exact ⟨fun hclosed => absurd hopen hclosed, fun _ => hle⟩
      · cases h
    · intro h
      exact if_pos (h.atLeast hopen)
  · simp only [parameters_of_not_isOpen hopen, checkCount, expectExactly]
    constructor
    · intro h
      split at h
      · rename_i heq
        exact ⟨fun _ => heq, fun h => absurd h hopen⟩
      · cases h
    · intro h
      exact if_pos (h.exactly hopen)

theorem checkCount_eq_error_iff (name : String) (signature : Signature Ty) (count : Nat)
    (cause : Cause) :
    checkCount name (u.parameters signature) count = .error cause ↔
      signature.CountFault name count cause := by
  by_cases hopen : signature.IsOpen
  · obtain ⟨last, -, hparameters⟩ := parameters_of_isOpen (u := u) hopen
    simp only [hparameters, checkCount, expectAtLeast, List.length_dropLast]
    constructor
    · intro h
      split at h
      · cases h
      · rename_i hle
        obtain rfl := Except.error.inj h
        exact .atLeast hopen (Nat.lt_of_not_le hle)
    · intro h
      cases h with
      | exactly hclosed => exact absurd hopen hclosed
      | atLeast _ hlt => exact if_neg (Nat.not_le_of_lt hlt)
  · simp only [parameters_of_not_isOpen hopen, checkCount, expectExactly]
    constructor
    · intro h
      split at h
      · cases h
      · rename_i hne
        obtain rfl := Except.error.inj h
        exact .exactly hopen hne
    · intro h
      cases h with
      | exactly _ hne => exact if_neg hne
      | atLeast h => exact absurd h hopen

/-! ## Arguments -/

variable {name : String} {params : Parameters} {start : Nat} {arg : Ty}

theorem checkEach_cons_of_suits (args : List Ty) (h : u.Suits params start arg) :
    u.checkEach name params start (arg :: args) = u.checkEach name params (start + 1) args := by
  rw [checkEach]
  cases hparam : params.at? start with
  | none => rfl
  | some param => exact if_pos (h param hparam)

theorem checkEach_cons_of_not_passable {param : Ty} (args : List Ty)
    (hparam : params.at? start = some param) (h : u.passable arg param = false) :
    u.checkEach name params start (arg :: args) =
      .error (.argumentMismatch name start (u.describe arg) (u.describe param)) := by
  rw [checkEach, hparam]
  exact if_neg (Bool.eq_false_iff.mp h)

theorem checkEach_of_suits {args : List Ty}
    (h : ∀ index arg, args[index]? = some arg → u.Suits params (start + index) arg) :
    u.checkEach name params start args = .ok () := by
  induction args generalizing start with
  | nil => rfl
  | cons first args ih =>
      have hsuits : u.Suits params start first := h 0 first rfl
      rw [checkEach_cons_of_suits args hsuits]
      apply ih
      intro index arg harg
      rw [Nat.add_right_comm, Nat.add_assoc]
      exact h (index + 1) arg harg

/-- The first argument that does not suit is the one that is reported. -/
theorem checkEach_of_first {args : List Ty} {index : Nat} {param : Ty}
    (harg : args[index]? = some arg) (hparam : params.at? (start + index) = some param)
    (hpassable : u.passable arg param = false)
    (hfirst : ∀ before < index, ∀ arg, args[before]? = some arg →
      u.Suits params (start + before) arg) :
    u.checkEach name params start args =
      .error (.argumentMismatch name (start + index) (u.describe arg) (u.describe param)) := by
  induction args generalizing start index with
  | nil => cases harg
  | cons first args ih =>
      cases index with
      | zero =>
          obtain rfl := Option.some.inj harg
          exact checkEach_cons_of_not_passable args hparam hpassable
      | succ index =>
          have hsuits : u.Suits params start first := hfirst 0 index.succ_pos first rfl
          rw [checkEach_cons_of_suits args hsuits]
          rw [Nat.add_comm index, ← Nat.add_assoc] at hparam ⊢
          apply ih harg hparam
          intro before hbefore arg harg
          rw [Nat.add_right_comm, Nat.add_assoc]
          exact hfirst (before + 1) (Nat.succ_lt_succ hbefore) arg harg

/-- Either all arguments suit, or there is a first one that does not. -/
theorem suits_or_exists_first (u : Universe) (params : Parameters) (args : List Ty) :
    (∀ index arg, args[index]? = some arg → u.Suits params index arg) ∨
      ∃ index arg param, args[index]? = some arg ∧ params.at? index = some param ∧
        u.passable arg param = false ∧
        ∀ before < index, ∀ arg, args[before]? = some arg → u.Suits params before arg := by
  classical
  by_cases hfault : ∃ index arg, args[index]? = some arg ∧ ¬u.Suits params index arg
  · obtain ⟨arg, harg, hsuits⟩ := Nat.find_spec hfault
    obtain ⟨param, hparam, hpassable⟩ := exists_parameter_of_not_suits hsuits
    refine .inr ⟨Nat.find hfault, arg, param, harg, hparam, hpassable, ?_⟩
    intro before hbefore arg harg
    by_contra hsuits
    exact Nat.find_min hfault hbefore ⟨arg, harg, hsuits⟩
  · left
    intro index arg harg
    by_contra hsuits
    exact hfault ⟨index, arg, harg, hsuits⟩

/-! ## Calls -/

/-- A call fits: its results can be used, and so can each argument, of which there is a right
number. -/
structure CallFits (u : Universe) (signature : Signature Ty) (args : List Ty) (result : Ty) :
    Prop where
  returns : u.Returns signature.results result
  takes : signature.Takes args.length
  fits : ∀ index arg, args[index]? = some arg → u.Fits signature index arg

/-- The fault of a call: that of its results; if they can be used, that of the number of its
arguments; and if that is right, that of the first argument which does not fit. -/
inductive CallFault (u : Universe) (name : String) (signature : Signature Ty) (args : List Ty) :
    Cause → Prop
  | results {cause : Cause} : u.ResultFault name signature.results cause →
      CallFault u name signature args cause
  | count {result : Ty} {cause : Cause} : u.Returns signature.results result →
      signature.CountFault name args.length cause → CallFault u name signature args cause
  | argument {result arg param : Ty} {index : Nat} : u.Returns signature.results result →
      signature.Takes args.length → args[index]? = some arg →
      u.ParameterAt signature index param → u.passable arg param = false →
      (∀ before < index, ∀ arg, args[before]? = some arg → u.Fits signature before arg) →
      CallFault u name signature args
        (.argumentMismatch name index (u.describe arg) (u.describe param))

variable {signature : Signature Ty} {args : List Ty}

theorem CallFits.checkArguments_eq {result : Ty} (h : u.CallFits signature args result)
    (name : String) : u.checkArguments name signature args = .ok result := by
  have hresults := (checkResults_eq_ok_iff u name signature result).mpr h.returns
  have hcount := (checkCount_eq_ok_iff (u := u) name signature args.length).mpr h.takes
  have heach : u.checkEach name (u.parameters signature) 0 args = .ok () := by
    apply checkEach_of_suits
    intro index arg harg
    rw [Nat.zero_add]
    have hindex := (List.getElem?_eq_some_iff.mp harg).1
    exact (fits_iff_suits h.takes hindex).mp (h.fits index arg harg)
  rw [checkArguments, hresults]
  simp only [bind, Except.bind, hcount, heach]
  rfl

theorem CallFault.checkArguments_eq {cause : Cause} (h : u.CallFault name signature args cause) :
    u.checkArguments name signature args = .error cause := by
  rw [checkArguments]
  cases h with
  | results hfault =>
      rw [(checkResults_eq_error_iff u name signature cause).mpr hfault]
      rfl
  | count hreturns hfault =>
      rw [(checkResults_eq_ok_iff u name signature _).mpr hreturns]
      simp only [bind, Except.bind, (checkCount_eq_error_iff name signature _ cause).mpr hfault]
  | @argument _ arg param index hreturns htakes harg hparam hpassable hfirst =>
      have hcount := (checkCount_eq_ok_iff (u := u) name signature args.length).mpr htakes
      have hlength := (List.getElem?_eq_some_iff.mp harg).1
      have heach : u.checkEach name (u.parameters signature) 0 args = .error
          (.argumentMismatch name (0 + index) (u.describe arg) (u.describe param)) := by
        apply checkEach_of_first harg _ hpassable
        · intro before hbefore arg harg
          rw [Nat.zero_add]
          exact (fits_iff_suits htakes (Nat.lt_trans hbefore hlength)).mp
            (hfirst before hbefore arg harg)
        · rw [Nat.zero_add]
          exact parameters_at?_eq_some_iff.mpr hparam
      rw [(checkResults_eq_ok_iff u name signature _).mpr hreturns]
      simp only [bind, Except.bind, hcount, heach, Nat.zero_add]

/-- A call fits or has a fault. -/
theorem callFits_or_callFault (u : Universe) (name : String) (signature : Signature Ty)
    (args : List Ty) :
    (∃ result, u.CallFits signature args result) ∨
      ∃ cause, u.CallFault name signature args cause := by
  cases hresults : u.checkResults name signature with
  | error cause =>
      exact .inr ⟨cause, .results ((checkResults_eq_error_iff u name signature cause).mp hresults)⟩
  | ok result =>
  have hreturns := (checkResults_eq_ok_iff u name signature result).mp hresults
  cases hcount : checkCount name (u.parameters signature) args.length with
  | error cause =>
      exact .inr ⟨cause, .count hreturns
        ((checkCount_eq_error_iff name signature args.length cause).mp hcount)⟩
  | ok value =>
  have htakes := (checkCount_eq_ok_iff name signature args.length).mp hcount
  have hlength {index : Nat} {arg : Ty} (harg : args[index]? = some arg) : index < args.length :=
    (List.getElem?_eq_some_iff.mp harg).1
  obtain hsuits | ⟨index, arg, param, harg, hparam, hpassable, hfirst⟩ :=
    suits_or_exists_first u (u.parameters signature) args
  · left
    refine ⟨result, hreturns, htakes, ?_⟩
    intro index arg harg
    exact (fits_iff_suits htakes (hlength harg)).mpr (hsuits index arg harg)
  · right
    refine ⟨_, .argument hreturns htakes harg (parameters_at?_eq_some_iff.mp hparam) hpassable ?_⟩
    intro before hbefore arg' harg'
    exact (fits_iff_suits htakes (hlength harg')).mpr (hfirst before hbefore arg' harg')

/-- A call has the type of its first result exactly if it fits its signature.  Otherwise its fault
is found: the results, the number of arguments and the arguments are looked at in this order, and
the first argument that does not fit is reported with its parameter. -/
theorem checkArguments_eq_iff (u : Universe) (name : String) (signature : Signature Ty)
    (args : List Ty) :
    (∀ result, u.checkArguments name signature args = .ok result ↔
      u.CallFits signature args result) ∧
    ∀ cause, u.checkArguments name signature args = .error cause ↔
      u.CallFault name signature args cause := by
  obtain ⟨result, hfits⟩ | ⟨cause, hfault⟩ := callFits_or_callFault u name signature args
  · have hok := hfits.checkArguments_eq name
    constructor
    · intro result'
      constructor
      · intro h
        obtain rfl := Except.ok.inj (hok.symm.trans h)
        exact hfits
      · intro h
        exact h.checkArguments_eq name
    · intro cause
      constructor
      · intro h
        cases hok.symm.trans h
      · exact CallFault.checkArguments_eq
  · have herror := hfault.checkArguments_eq
    constructor
    · intro result
      constructor
      · intro h
        cases herror.symm.trans h
      · intro h
        exact h.checkArguments_eq name
    · intro cause'
      constructor
      · intro h
        obtain rfl := Except.error.inj (herror.symm.trans h)
        exact hfault
      · exact CallFault.checkArguments_eq

end Universe

end TemplateTyping
