import TemplateTyping.Check.Cause
import TemplateTyping.Host.Assignability
import TemplateTyping.Host.Description
import TemplateTyping.NameMap
import TemplateTyping.Tree.Print

/-!
# Calls

The types of calls: of registered functions and methods, whose arguments must
fit their signatures, and of the built-in functions, which have rules of their
own. A registered function hides a built-in one of the same name.
-/

namespace TemplateTyping

/-- Registered functions by name. -/
abbrev Functions := NameMap (Signature Ty)

/-- A function that takes any arguments after the given ones and makes a text. -/
def textFunction (params : List Ty) : Signature Ty :=
  ⟨params ++ [.slice .any], [.basic .string], true⟩

/-- The functions for escaping and printing that every template can call. -/
def Functions.standard : Functions :=
  .ofList [("html", textFunction []), ("js", textFunction []), ("urlquery", textFunction []),
    ("print", textFunction []), ("println", textFunction []),
    ("printf", textFunction [.basic .string])]

/-- The parameters with a place of their own, and the type of all further
arguments if there can be any. -/
structure Parameters where
  fixed : List Ty
  further : Option Ty

/-- The parameter that an argument is passed for. -/
def Parameters.at? (params : Parameters) (index : Nat) : Option Ty :=
  params.fixed[index]?.or params.further

/-- Accepts a number of arguments that is exactly the number wanted. -/
def expectExactly (name : String) (want got : Nat) : Except Cause Unit :=
  if got = want then .ok () else .error (.wrongArgCount name want got)

/-- Accepts a number of arguments that is not below the number wanted. -/
def expectAtLeast (name : String) (want got : Nat) : Except Cause Unit :=
  if want ≤ got then .ok () else .error (.tooFewArgs name want got)

/-- Accepts a number of arguments that is not above the number wanted. -/
def expectAtMost (name : String) (want got : Nat) : Except Cause Unit :=
  if got ≤ want then .ok () else .error (.tooManyArgs name want got)

namespace Universe

/-- The element type of a slice, also of a named one. -/
def sliceElem? (u : Universe) (ty : Ty) : Option Ty :=
  match u.underlying ty with
  | .slice elem => some elem
  | _ => none

/-- The parameters of a signature. The last one of a variadic signature stands for
all further arguments; its element type counts if it is a slice. -/
def parameters (u : Universe) (signature : Signature Ty) : Parameters :=
  match signature.variadic, signature.params.getLast? with
  | true, some last => ⟨signature.params.dropLast, some ((u.sliceElem? last).getD last)⟩
  | _, _ => ⟨signature.params, none⟩

/-- The type of a call: the first result. A second result must be an error. -/
def checkResults (u : Universe) (name : String) (signature : Signature Ty) : Except Cause Ty :=
  match signature.results with
  | [result] => .ok result
  | [result, second] =>
      if u.isErrorLike second then .ok result
      else .error (.secondResultNotError name (u.describe second))
  | results => .error (.resultCount name results.length)

/-- Accepts a number of arguments that fits the parameters. -/
def checkCount (name : String) (params : Parameters) (got : Nat) : Except Cause Unit :=
  match params.further with
  | some _ => expectAtLeast name params.fixed.length got
  | none => expectExactly name params.fixed.length got

/-- Accepts arguments, the first of which has the given index, that can be passed
for their parameters. -/
def checkEach (u : Universe) (name : String) (params : Parameters) :
    (index : Nat) → List Ty → Except Cause Unit
  | _, [] => .ok ()
  | index, arg :: args =>
      match params.at? index with
      | some param =>
          if u.passable arg param then u.checkEach name params (index + 1) args
          else .error (.argumentMismatch name index (u.describe arg) (u.describe param))
      | none => u.checkEach name params (index + 1) args

/-- The type of a call with arguments of the given types. -/
def checkArguments (u : Universe) (name : String) (signature : Signature Ty) (args : List Ty) :
    Except Cause Ty := do
  let result ← u.checkResults name signature
  let params := u.parameters signature
  checkCount name params args.length
  u.checkEach name params 0 args
  return result

/-- The type that a chain of pointers leads to. -/
def target (u : Universe) (ty : Ty) : Except Cause Ty :=
  match u.pointerTarget? ty with
  | some target => .ok target
  | none => .error (.endlessPointer (u.describe ty))

/-- Accepts an index that is a whole number. -/
def expectInteger (u : Universe) (name : String) (position : Nat) (index : Ty) :
    Except Cause Unit :=
  if u.isInteger index then .ok ()
  else .error (.argumentMismatch name position (u.describe index) Kind.int.name)

end Universe

/-- The built-in functions. -/
inductive Builtin
  | len
  | slice
  | choice
  | negation
  | comparison
  | call
  | index
  | attrEscaper
  deriving DecidableEq, Repr

namespace Builtin

/-- The names of the built-in functions. -/
def table : List (String × Builtin) :=
  [("len", len), ("slice", slice), ("and", choice), ("or", choice), ("not", negation),
    ("eq", comparison), ("ne", comparison), ("lt", comparison), ("le", comparison),
    ("gt", comparison), ("ge", comparison), ("call", call), ("index", index),
    ("attrescaper", attrEscaper)]

/-- The built-in function of a name. -/
def ofName? (name : String) : Option Builtin :=
  table.lookup name

/-- The type of `len`: only texts and collections have a length. -/
def checkLen (u : Universe) (item : Ty) : Except Cause Ty := do
  match u.underlying (← u.target item) with
  | .array _ _ | .slice _ | .map _ _ | .chan _ => return .basic .int
  | .basic kind =>
      if kind.isString then return .basic .int else throw (.invalidLen (u.describe item))
  | _ => throw (.invalidLen (u.describe item))

/-- The type of a slice of an item, if `count` arguments are given in all. -/
def sliceResult (u : Universe) (item : Ty) (count : Nat) : Except Cause Ty := do
  let receiver ← u.target item
  match u.underlying receiver with
  | .slice _ => return receiver
  | .array _ elem => return .slice elem
  | .basic kind =>
      if kind.isString then
        if count = 4 then throw .threeIndexString
        else return if kind.isUntyped then .basic kind.concrete else receiver
      else throw (.cannotSlice (u.describe item))
  | _ => throw (.cannotSlice (u.describe item))

/-- A negative number given as an operand. -/
def negative? : Node → Option Int
  | .number _ number => if number.isInt && number.int < 0 then some number.int else none
  | _ => none

/-- Accepts the bounds of a slice, the first of which has the given position. A
bound written as a number must not be negative. -/
def checkBounds (u : Universe) (operands : List Node) :
    (position : Nat) → List Ty → Except Cause Unit
  | _, [] => .ok ()
  | position, bound :: bounds => do
      u.expectInteger "slice" position bound
      match operands[position]?.bind negative? with
      | some n => throw (.negativeIndex n)
      | none => checkBounds u operands (position + 1) bounds

/-- The type of an item after indexing it by further values, the first of which
has the given position. -/
def checkIndexes (u : Universe) : (position : Nat) → Ty → List Ty → Except Cause Ty
  | _, item, [] => .ok item
  | position, item, place :: places => do
      let item ← u.target item
      match u.underlying item with
      | .slice elem | .array _ elem =>
          u.expectInteger "index" position place
          checkIndexes u (position + 1) elem places
      | .map key elem =>
          if u.assignable place key then checkIndexes u (position + 1) elem places
          else throw (.argumentMismatch "index" position (u.describe place) (u.describe key))
      | .basic kind =>
          if kind.isString then
            u.expectInteger "index" position place
            checkIndexes u (position + 1) (.basic .uint8) places
          else throw (.cannotIndex (u.describe item))
      | _ => throw (.cannotIndex (u.describe item))

/-- The type of a call of a value, which must be a function. -/
def checkCallee (u : Universe) (operands : List Node) (callee : Ty) (args : List Ty) :
    Except Cause Ty :=
  let printed := operands.head?.map Node.print
  match u.underlying callee with
  | .func signature => u.checkArguments (printed.getD "call") signature args
  | _ => .error (.callNonFunction (printed.getD "") (u.describe callee))

/-- The least number of arguments. -/
def leastArgs : Builtin → Nat
  | attrEscaper => 0
  | comparison => 2
  | _ => 1

/-- Accepts a number of arguments: some functions take one number only, others no
more than a number. -/
def checkCount (name : String) (builtin : Builtin) (got : Nat) : Except Cause Unit := do
  match builtin with
  | len | attrEscaper => expectExactly name builtin.leastArgs got
  | slice => expectAtLeast name builtin.leastArgs got; expectAtMost name 4 got
  | _ => expectAtLeast name builtin.leastArgs got

/-- The type of a call of a built-in function with arguments of the given types. -/
def check (u : Universe) (name : String) (builtin : Builtin) (operands : List Node)
    (args : List Ty) : Except Cause Ty := do
  checkCount name builtin args.length
  match builtin, args with
  | len, item :: _ => checkLen u item
  | slice, item :: bounds =>
      let result ← sliceResult u item args.length
      checkBounds u operands 1 bounds
      return result
  | choice, first :: _ => return first
  | call, callee :: args => checkCallee u operands callee args
  | index, item :: places => checkIndexes u 1 item places
  | attrEscaper, _ => return .basic .string
  | _, _ => return .basic .bool

end Builtin

namespace Universe

/-- The type of a call of a function by name. The operands are given besides the
types of the arguments, of which there may be one more: the result that a
pipeline passes on. -/
def checkCall (u : Universe) (functions : Functions) (name : String) (operands : List Node)
    (args : List Ty) : Except Cause Ty :=
  match functions.get? name with
  | some signature => u.checkArguments name signature args
  | none =>
      match Builtin.ofName? name with
      | some builtin => builtin.check u name operands args
      | none => .error (.unknownFunction name)

end Universe

end TemplateTyping
