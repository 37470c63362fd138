import TemplateTyping.Check.Call
import TemplateTyping.Tree.Basic

/-!
# Scopes and located faults

A template is checked with a scope: the types of the variables in sight. A part
of a template may set variables for what comes after it; the parts of branches
are checked in isolation, so that nothing they set is seen outside. A fault
keeps the tree and the node where it was found.
-/

namespace TemplateTyping

/-- A fault and the node of the tree where it was found. -/
structure TypeError where
  tree : Tree
  node : Node
  cause : Cause

namespace TypeError

/-- The name of the template. -/
def name (e : TypeError) : String := e.tree.name

/-- The place of the node, written as source name, line and column. -/
def place (e : TypeError) : String := e.tree.place e.node

/-- The node as messages show it. -/
def context (e : TypeError) : String := e.node.context

/-- The span of the node. -/
def span (e : TypeError) : Span := e.node.span

/-- Line and column of the node. -/
def location (e : TypeError) : Location := e.tree.location e.span

/-- The text that the span refers to. -/
def source (e : TypeError) : String := e.tree.source

/-- The fault with the place and the node where it was found. -/
def message (e : TypeError) : String :=
  "type check failed: " ++ e.place ++ ": executing " ++ Quoted.text e.name ++ " at <" ++
    e.context ++ ">: " ++ e.cause.message

end TypeError

/-- The types of the variables in sight. -/
abbrev Scope := NameMap Ty

/-- The scope in which a template starts: only the root variable is set. -/
def Scope.root (data : Ty) : Scope := NameMap.empty.insert "$" data

/-- Checks that may set variables and may find a fault. -/
abbrev Checker := StateT Scope (Except TypeError)

/-- An invocation of a template with an argument. -/
structure Invocation where
  template : String
  argument : Ty

/-- Why an invocation is refused: because of itself, or because of a fault found
inside of the invoked template. -/
inductive Refusal
  | here (cause : Cause)
  | inside (error : TypeError)

/-- What the check of a template depends on: the types and functions in use, the
package it is checked from, the tree it belongs to, and the verdict on the
invocations of templates. -/
structure Context where
  types : Universe
  functions : Functions
  package : Option String
  tree : Tree
  invoke : Invocation → Except Refusal Unit

/-- The type of `nil`, which is also the type of what has no type. -/
def nilType : Ty := .basic .untypedNil

namespace Checker

/-- Checks in a scope of its own: variables that are set are forgotten. -/
def isolated {α : Type} (check : Checker α) : Checker α := fun scope =>
  match check scope with
  | .ok (value, _) => .ok (value, scope)
  | .error error => .error error

end Checker

namespace Context

/-- Reports a fault at a node. -/
def fail {α : Type} (ctx : Context) (node : Node) (cause : Cause) : Checker α :=
  throw ⟨ctx.tree, node, cause⟩

/-- Reports the fault of a verdict at a node. -/
def located {α : Type} (ctx : Context) (node : Node) (verdict : Except Cause α) : Checker α :=
  match verdict with
  | .ok value => return value
  | .error cause => ctx.fail node cause

/-- The type of a variable. -/
def variableType (ctx : Context) (node : Node) (name : String) : Checker Ty := do
  match (← get).get? name with
  | some ty => return ty
  | none => ctx.fail node (.undefinedVariable name)

/-- Sets a variable, which must have been set before if it is assigned to. -/
def setVariable (ctx : Context) (v : Variable) (isAssign : Bool) (ty : Ty) : Checker Unit := do
  if isAssign then
    let _ ← ctx.variableType (.variable v) v.name
  modify (·.insert v.name ty)

/-- Checks an invocation of a template at a node. -/
def invocation (ctx : Context) (node : Node) (invocation : Invocation) : Checker Unit :=
  match ctx.invoke invocation with
  | .ok () => return ()
  | .error (.here cause) => ctx.fail node cause
  | .error (.inside error) => throw error

end Context

/-- What a term is applied to: operands, whose types are worked out when they are
needed, and the result that a pipeline passes on. -/
structure Arguments where
  operands : List Node := []
  operandTypes : Checker (List Ty) := pure []
  passed : Option Ty := none

namespace Arguments

/-- Applied to nothing. -/
def none : Arguments := {}

/-- Whether there is anything to apply the term to. -/
def given (args : Arguments) : Bool := !args.operands.isEmpty || args.passed.isSome

/-- The types of all arguments; the result passed on comes last. -/
def types (args : Arguments) : Checker (List Ty) := do
  return (← args.operandTypes) ++ args.passed.toList

end Arguments

namespace Context

/-- Accepts a term that is not applied to anything. -/
def plain (ctx : Context) (node : Node) (args : Arguments) : Checker Unit :=
  if args.given then ctx.fail node (.notAFunction node.print) else return ()

end Context

end TemplateTyping
