import TemplateTyping.Text.Quoted

/-!
# Faults of typed templates

The reasons for which a template does not fit its data. Each has a wording, a
category and a code by which tools recognise it. Types are given by their
descriptions.
-/

namespace TemplateTyping

/-- The kinds of faults. -/
inductive Category
  | lookup
  | visibility
  | arity
  | signature
  | typeMismatch
  | chain
  | constant
  | recursion
  deriving DecidableEq, Repr

/-- Why a template does not fit its data. -/
inductive Cause
  | fieldNotFound (name type : String)
  | undefinedVariable (name : String)
  | templateNotFound (name : String)
  | unknownFunction (name : String)
  | mapKeyNotInteger (key type : String)
  | unexported (name type : String)
  | wrongArgCount (name : String) (want got : Nat)
  | tooFewArgs (name : String) (want got : Nat)
  | tooManyArgs (name : String) (want got : Nat)
  | resultCount (name : String) (count : Nat)
  | secondResultNotError (name type : String)
  | argumentMismatch (name : String) (index : Nat) (got want : String)
  | cannotRange (type : String)
  | rangeVariables (type : String)
  | cannotIndex (type : String)
  | cannotSlice (type : String)
  | threeIndexString
  | negativeIndex (index : Int)
  | invalidLen (type : String)
  | endlessPointer (type : String)
  | chainUnsupported (type : String)
  | notAFunction (node : String)
  | notAMethod (name : String)
  | callNonFunction (node type : String)
  | nilCommand
  | overflow (text : String)
  | templateDepth (name : String) (depth : Nat)
  deriving DecidableEq, Repr

namespace Cause

/-- The wording of a fault. -/
def message : Cause → String
  | fieldNotFound name type => "can't evaluate field " ++ name ++ " in type " ++ type
  | undefinedVariable name => "undefined variable: " ++ name
  | templateNotFound name => "no such template " ++ Quoted.text name
  | unknownFunction name => "unknown function: " ++ name
  | mapKeyNotInteger key type =>
      "can't index map of type " ++ type ++ " with non-integer key " ++ key
  | unexported name type => name ++ " is an unexported field or method of type " ++ type
  | wrongArgCount name want got =>
      "wrong number of args for " ++ name ++ ": want " ++ toString want ++ " got " ++ toString got
  | tooFewArgs name want got =>
      "wrong number of args for " ++ name ++ ": want at least " ++ toString want ++
        " got " ++ toString got
  | tooManyArgs name want got =>
      "wrong number of args for " ++ name ++ ": want at most " ++ toString want ++
        " got " ++ toString got
  | resultCount name count =>
      "function " ++ name ++ " has " ++ toString count ++ " return values; should be 1 or 2"
  | secondResultNotError name type =>
      "invalid function signature for " ++ name ++
        ": second return value should be error; is " ++ type
  | argumentMismatch name index got want =>
      "wrong type for argument " ++ toString index ++ " of " ++ name ++ ": got " ++ got ++
        ", expected " ++ want
  | cannotRange type => "range can't iterate over " ++ type
  | rangeVariables type => "can't use " ++ type ++ " to iterate over more than one variable"
  | cannotIndex type => "can not index over " ++ type
  | cannotSlice type => "can not slice " ++ type
  | threeIndexString => "can not 3-index slice a string"
  | negativeIndex index => "index out of range: " ++ toString index
  | invalidLen type => "len of type " ++ type
  | endlessPointer type => "pointers of type " ++ type ++ " have no end"
  | chainUnsupported type => "identifier chain not supported for type " ++ type
  | notAFunction node => "can't give argument to non-function " ++ node
  | notAMethod name => name ++ " has arguments but cannot be invoked as function"
  | callNonFunction node type => "non-function " ++ node ++ " of type " ++ type
  | nilCommand => "nil is not a command"
  | overflow text => text ++ " overflows int"
  | templateDepth name depth =>
      "template " ++ Quoted.text name ++ " exceeds the maximum invocation depth of " ++
        toString depth

/-- The kind of a fault. -/
def category : Cause → Category
  | fieldNotFound _ _ | undefinedVariable _ | templateNotFound _ | unknownFunction _
  | mapKeyNotInteger _ _ => .lookup
  | unexported _ _ => .visibility
  | wrongArgCount _ _ _ | tooFewArgs _ _ _ | tooManyArgs _ _ _ | resultCount _ _ => .arity
  | secondResultNotError _ _ => .signature
  | argumentMismatch _ _ _ _ | cannotRange _ | rangeVariables _ | cannotIndex _ | cannotSlice _
  | threeIndexString | negativeIndex _ | invalidLen _ | endlessPointer _ => .typeMismatch
  | chainUnsupported _ | notAFunction _ | notAMethod _ | callNonFunction _ _ | nilCommand => .chain
  | overflow _ => .constant
  | templateDepth _ _ => .recursion

/-- The code of a fault. -/
def code : Cause → String
  | fieldNotFound _ _ => "T0101"
  | undefinedVariable _ => "T0102"
  | templateNotFound _ => "T0103"
  | unknownFunction _ => "T0104"
  | mapKeyNotInteger _ _ => "T0105"
  | unexported _ _ => "T0201"
  | wrongArgCount _ _ _ => "T0301"
  | tooFewArgs _ _ _ => "T0302"
  | tooManyArgs _ _ _ => "T0303"
  | resultCount _ _ => "T0304"
  | secondResultNotError _ _ => "T0401"
  | argumentMismatch _ _ _ _ => "T0501"
  | cannotRange _ => "T0502"
  | rangeVariables _ => "T0503"
  | cannotIndex _ => "T0504"
  | cannotSlice _ => "T0505"
  | threeIndexString => "T0506"
  | negativeIndex _ => "T0507"
  | invalidLen _ => "T0508"
  | endlessPointer _ => "T0509"
  | chainUnsupported _ => "T0601"
  | notAFunction _ => "T0602"
  | notAMethod _ => "T0603"
  | callNonFunction _ _ => "T0604"
  | nilCommand => "T0605"
  | overflow _ => "T0701"
  | templateDepth _ _ => "T0801"

end Cause

end TemplateTyping
