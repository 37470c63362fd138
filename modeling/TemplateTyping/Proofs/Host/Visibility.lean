import TemplateTyping.Host.Member

/-!
# Exported names

A member is visible if its name is exported, or if it is looked for from the package that it
was declared in.  The package is asked for at three places of a search: at methods of named
types, at fields and at methods of interfaces.  At each of them an exported name is visible
anyway, so what it means in a type does not depend on the package that it is used from.
-/

namespace TemplateTyping

/-- An exported name is visible from every package, wherever it was declared. -/
theorem Access.allowedIn_of_isExported
    {name : String} (h : isExported name = true) (used declared : Option String) :
    Access.allowedIn ⟨name, used⟩ declared = true := by
  simp only [allowedIn, h, Bool.true_or]

namespace Findings

variable {name : String} (hname : isExported name = true) (package package' : Option String)
include hname

theorem ofComposite_package (viaPointer : Bool) (ty : Ty) :
    ofComposite ⟨name, package⟩ viaPointer ty = ofComposite ⟨name, package'⟩ viaPointer ty := by
  cases ty with
  | struct declared fields => simp only [ofComposite, Access.allowedIn_of_isExported hname]
  | interface declared methods => simp only [ofComposite, Access.allowedIn_of_isExported hname]
  | _ => rfl

theorem ofDeclaration_package (viaPointer : Bool) (d : Declaration) :
    ofDeclaration ⟨name, package⟩ viaPointer d =
      ofDeclaration ⟨name, package'⟩ viaPointer d := by
  simp only [ofDeclaration, Access.allowedIn_of_isExported hname,
    ofComposite_package hname package package']

end Findings

namespace Universe

variable (u : Universe) {name : String} (hname : isExported name = true)
  (package package' : Option String)
include hname

theorem searchLevel_package (level : List Candidate) (seen : List TypeName) :
    u.searchLevel ⟨name, package⟩ level seen = u.searchLevel ⟨name, package'⟩ level seen := by
  fun_induction searchLevel u ⟨name, package'⟩ level seen with
  | case1 seen => rfl
  | case2 named viaPointer level seen hseen ih => rw [searchLevel, if_pos hseen, ih]
  | case3 named viaPointer level seen hnew findings seen' heq ih =>
      rw [searchLevel, if_neg hnew, ih, heq,
        Findings.ofDeclaration_package hname package package']
  | case4 ty viaPointer level seen hne findings seen' heq ih =>
      rw [searchLevel, ih, heq, Findings.ofComposite_package hname package package']
      exact hne

/-- An exported name means the same in a type from every package. -/
theorem member?_package (ty : Ty) :
    u.member? ty ⟨name, package⟩ = u.member? ty ⟨name, package'⟩ :=
  search_congr (u.searchLevel_package hname package package') _ _

end Universe

end TemplateTyping
