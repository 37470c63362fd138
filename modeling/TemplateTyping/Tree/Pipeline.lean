import TemplateTyping.Tree.Cursor

/-!
# Reading pipelines

A pipeline is read up to the delimiter or parenthesis that closes it. It may
start with the variables it sets; then come commands, each a list of operands
up to the next bar. The bar after the last command may be left standing.
-/

namespace TemplateTyping.TokenReader

/-- A variable of a declaration. -/
def declaredVariable (token : Token) (name : String) : Variable := ⟨token.span, [name]⟩

/-- Reads the second variable of a range declaration and the sign after it. -/
def secondDeclaration (clause : Clause) (first : Variable) (name : String) :
    TokenReader (Bool × List Variable) := do
  let second := declaredVariable (← next) name
  let sign ← peekNonSpace
  match sign.kind with
  | .assign => let _ ← next; return (true, [first, second])
  | .declare => let _ ← next; return (false, [first, second])
  | .comma => let comma ← next; fail comma.span (.tooManyDeclarations clause)
  | _ => unexpected sign clause

/-- Reads the variables that a pipeline sets, and whether they were set before.
Only a range may set two. -/
def declarations (clause : Clause) : TokenReader (Bool × List Variable) := do
  let start ← get
  match (← peekNonSpace).kind with
  | .variable name =>
      let first := declaredVariable (← next) name
      match (← peekNonSpace).kind with
      | .assign => let _ ← next; return (true, [first])
      | .declare => let _ ← next; return (false, [first])
      | .comma =>
          let comma ← next
          if clause = .branch .rangeKeyword then
            match (← peekNonSpace).kind with
            | .variable name => secondDeclaration clause first name
            | .rightDelim | .rightParen => return (false, [first])
            | _ => fail comma.span .rangeDeclaration
          else fail comma.span (.tooManyDeclarations clause)
      | _ => set start; return (false, [])
  | _ => return (false, [])

/-- Whether a command can start with a token of this kind. -/
def startsOperand : TokenKind → Bool
  | .bool _ | .charConstant | .dot | .field _ | .identifier _ | .number
  | .keyword .nilKeyword | .rawString | .string | .variable _ | .leftParen => true
  | _ => false

/-- Whether a node is a term that cannot be called. -/
def isConstant : Node → Bool
  | .bool _ _ | .dot _ | .nil _ | .number _ _ | .string _ _ _ => true
  | _ => false

/-- The first command, counted from `stage`, that starts with a term which cannot
be called: its fault and its span. -/
def notExecutable? : (stage : Nat) → List (Command Node) → Option (Span × SyntaxCause)
  | _, [] => none
  | stage, ⟨span, operands⟩ :: commands =>
      match operands with
      | first :: _ =>
          if isConstant first then some (span, .notExecutable stage first.print)
          else notExecutable? (stage + 1) commands
      | [] => notExecutable? (stage + 1) commands

/-- Accepts a pipeline that has commands of which all but the first can be
called. -/
def checkedPipe (clause : Clause) (pipe : Pipe Node) : TokenReader (Pipe Node) :=
  match pipe.commands with
  | [] => fail pipe.span (.missingValue clause)
  | _ :: commands =>
      match notExecutable? 2 commands with
      | some (span, cause) => fail span cause
      | none => return pipe

/-- The span of a pipeline that starts at an offset. -/
def pipeSpan (start : Nat) (commands : List (Command Node)) : Span :=
  ⟨start, max ((commands.getLast?.map (·.span.stop)).getD start) start⟩

/-- The command of operands that were read. -/
def commandOf (operands : List Node) : TokenReader (Command Node) := do
  match operands.head?, operands.getLast? with
  | some first, some last => return ⟨first.span.join last.span, operands⟩
  | _, _ => fail (← peek).span .emptyCommand

/-- The name of a field token. -/
def fieldName? (token : Token) : Option String :=
  match token.kind with
  | .field name => some name
  | _ => none

/-- Adds names after dots to a term. -/
def withFields (term : Node) (fields : List Token) : TokenReader Node :=
  let path := fields.filterMap fieldName?
  let span := fields.foldl (fun span token => span.join token.span) term.span
  match term with
  | .field _ names => return .field span (names ++ path)
  | .variable v => return .variable ⟨span, v.path ++ path⟩
  | term =>
      if isConstant term then fail span (.fieldAfterTerm term.print)
      else return .chain span term path

/-- Takes the names after dots that directly follow a term. -/
def followingFields (term : Node) : TokenReader Node := do
  let (fields, c) := (← get).pass fun kind => kind matches .field _
  if fields.isEmpty then return term
  set c
  withFields term fields

mutual

/-- Reads a pipeline up to its closing delimiter or parenthesis. -/
def pipelineWithin (fuel : Nat) (clause : Clause) (closer : TokenKind) :
    TokenReader (Pipe Node) :=
  match fuel with
  | 0 => throw .outOfFuel
  | fuel + 1 => do
      let start := (← peekNonSpace).span.start
      let (isAssign, declared) ← declarations clause
      let commands ← commandsWithin fuel clause closer
      checkedPipe clause ⟨pipeSpan start commands, isAssign, declared, commands⟩
termination_by structural fuel

/-- Reads the commands of a pipeline and what closes it. -/
def commandsWithin (fuel : Nat) (clause : Clause) (closer : TokenKind) :
    TokenReader (List (Command Node)) :=
  match fuel with
  | 0 => throw .outOfFuel
  | fuel + 1 => do
      let token ← nextNonSpace
      if token.kind = closer then return []
      else if startsOperand token.kind then
        putBack token
        let command ← commandOf (← operandsWithin fuel)
        let commands ← commandsWithin fuel clause closer
        return command :: commands
      else unexpected token clause
termination_by structural fuel

/-- Reads the operands of a command up to a bar, which is taken, or up to what
closes the pipeline. -/
def operandsWithin (fuel : Nat) : TokenReader (List Node) :=
  match fuel with
  | 0 => throw .outOfFuel
  | fuel + 1 => do
      let operand ← operandWithin fuel
      let token ← next
      match token.kind with
      | .space => return operand.toList ++ (← operandsWithin fuel)
      | .rightDelim | .rightParen => putBack token; return operand.toList
      | .pipe => return operand.toList
      | _ => unexpected token .operand
termination_by structural fuel

/-- Reads an operand, after spaces if there are any: a term and the names after
dots that follow it. -/
def operandWithin (fuel : Nat) : TokenReader (Option Node) :=
  match fuel with
  | 0 => throw .outOfFuel
  | fuel + 1 => do
      match ← termWithin fuel with
      | some term => return some (← followingFields term)
      | none => return none
termination_by structural fuel

/-- Reads a term, after spaces if there are any. -/
def termWithin (fuel : Nat) : TokenReader (Option Node) :=
  match fuel with
  | 0 => throw .outOfFuel
  | fuel + 1 => do
      let token ← nextNonSpace
      let span := token.span
      match token.kind with
      | .identifier name => return some (.identifier span name)
      | .dot => return some (.dot span)
      | .keyword .nilKeyword => return some (.nil span)
      | .variable name => return some (.variable ⟨span, [name]⟩)
      | .field name => return some (.field span [name])
      | .bool value => return some (.bool span value)
      | .charConstant =>
          return some (.number span (← literal token (Number.ofCharacter token.text)))
      | .number => return some (.number span (← literal token (Number.ofText token.text)))
      | .string | .rawString =>
          return some (.string span token.text (← literal token (Quotation.string token.text)))
      | .leftParen =>
          let pipe ← pipelineWithin fuel .parenthesized .rightParen
          return some (.pipe { pipe with span := ⟨span.start, ← lastEnd⟩ })
      | _ => putBack token; return none
termination_by structural fuel

end

/-- Reads a pipeline up to the right delimiter. -/
def pipeline (clause : Clause) : TokenReader (Pipe Node) := do
  pipelineWithin (← get).fuel clause .rightDelim

end TemplateTyping.TokenReader
