import TemplateTyping.Host.Ty

/-!
# Identity of types

Named types are identical to themselves only; all other types are compared by
their parts. The packages of structs and interfaces play no role.
-/

namespace TemplateTyping

mutual

/-- Whether two types are identical. -/
def Ty.identical (a b : Ty) : Bool :=
  match a, b with
  | .basic k, .basic l => k == l
  | .named m, .named n => m == n
  | .pointer e, .pointer f => Ty.identical e f
  | .slice e, .slice f => Ty.identical e f
  | .array m e, .array n f => m == n && Ty.identical e f
  | .map k e, .map l f => Ty.identical k l && Ty.identical e f
  | .chan e, .chan f => Ty.identical e f
  | .func s, .func t => Signature.identical s t
  | .struct _ fs, .struct _ gs => Field.allIdentical fs gs
  | .interface _ ms, .interface _ ns => InterfaceMethod.allIdentical ms ns
  | _, _ => false
termination_by structural a

/-- Whether two signatures have identical parameters and results, and are
variadic alike. -/
def Signature.identical (s t : Signature Ty) : Bool :=
  match s, t with
  | ⟨ps, rs, v⟩, ⟨qs, ss, w⟩ => v == w && Ty.allIdentical ps qs && Ty.allIdentical rs ss
termination_by structural s

/-- Whether two lists hold identical types, place by place. -/
def Ty.allIdentical (as bs : List Ty) : Bool :=
  match as, bs with
  | [], [] => true
  | a :: as, b :: bs => Ty.identical a b && Ty.allIdentical as bs
  | _, _ => false
termination_by structural as

/-- Whether two fields agree in name, embedding and type. -/
def Field.identical (f g : Field Ty) : Bool :=
  match f, g with
  | ⟨m, a, d⟩, ⟨n, b, e⟩ => m == n && d == e && Ty.identical a b
termination_by structural f

/-- Whether two lists hold identical fields, place by place. -/
def Field.allIdentical (fs gs : List (Field Ty)) : Bool :=
  match fs, gs with
  | [], [] => true
  | f :: fs, g :: gs => Field.identical f g && Field.allIdentical fs gs
  | _, _ => false
termination_by structural fs

/-- Whether two interface methods agree in name and signature. -/
def InterfaceMethod.identical (m n : InterfaceMethod Ty) : Bool :=
  match m, n with
  | ⟨a, s⟩, ⟨b, t⟩ => a == b && Signature.identical s t
termination_by structural m

/-- Whether two lists hold identical interface methods, place by place. -/
def InterfaceMethod.allIdentical (ms ns : List (InterfaceMethod Ty)) : Bool :=
  match ms, ns with
  | [], [] => true
  | m :: ms, n :: ns => InterfaceMethod.identical m n && InterfaceMethod.allIdentical ms ns
  | _, _ => false
termination_by structural ms

end

end TemplateTyping
