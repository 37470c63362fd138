import TemplateTyping.TemplateSet
import TemplateTyping.Token.Lexer
import TemplateTyping.Tree.Pipeline

/-!
# Reading templates

A source is read into a set of templates: the template of the source itself,
and one for each definition and each block. Definitions stand outside of all
branches; a block both defines a template and invokes it where it stands.
-/

namespace TemplateTyping

/-- The name and the text of the source that is read. -/
structure Origin where
  name : String
  source : String

/-- A tree of the source that is read. -/
def Origin.tree (origin : Origin) (name : String) (root : Body Node) : Tree :=
  ⟨name, origin.name, root, origin.source⟩

/-- What an action is: a node of its own, or the end of a part of a branch. -/
inductive Item
  | node (node : Node)
  | elseItem (span : Span)
  | endItem (span : Span)

/-- What ends a body. -/
inductive Ending
  | elseEnding (span : Span)
  | endEnding

/-- Actions that read tokens and collect the templates that are defined. -/
abbrev TreeReader := StateT TemplateSet TokenReader

namespace TreeReader

open TokenReader

/-- Adds a template that was read between the given places. -/
def define (tree : Tree) (span : Span) : TreeReader Unit := do
  match (← getThe TemplateSet).define? tree with
  | some set => MonadStateOf.set set
  | none => fail span (.multipleDefinition tree.name)

/-- The name of a template, given by a string literal. -/
def templateName (token : Token) (clause : Clause) : TreeReader String :=
  match token.kind with
  | .string | .rawString => literal token (Quotation.string token.text)
  | _ => unexpected token clause

/-- The span of a body that starts at an offset. -/
def bodySpan (start : Nat) (nodes : List Node) : Span :=
  ⟨start, (nodes.getLast?.map (·.span.stop)).getD start⟩

/-- Reads the rest of a jump, which must stand inside of a range. -/
def jumpNode (inRange : Bool) (start : Nat) (token : Token) (keyword : JumpKeyword) :
    TreeReader Node := do
  expectRightDelim (.jump keyword)
  if inRange then return .jump ⟨start, ← lastEnd⟩ keyword
  else fail token.span (.jumpOutsideRange keyword)

/-- Reads the rest of an else. A keyword that continues it is left standing for
the branch that it belongs to. -/
def elseItem (start : Nat) : TreeReader Item := do
  match (← peekNonSpace).kind with
  | .keyword (.branch .ifKeyword) | .keyword (.branch .withKeyword) =>
      return .elseItem ⟨start, ← lastEnd⟩
  | _ =>
      expectRightDelim .elseClause
      return .elseItem ⟨start, ← lastEnd⟩

/-- Reads the rest of an invocation. -/
def templateNode (start : Nat) : TreeReader Node := do
  let name ← templateName (← nextNonSpace) .template
  let token ← nextNonSpace
  if token.kind = .rightDelim then return .template ⟨start, ← lastEnd⟩ name none
  else
    putBack token
    let argument ← pipeline .template
    return .template ⟨start, ← lastEnd⟩ name (some argument)

/-- Whether a keyword after an else continues a branch. -/
def continuesBranch (keyword : BranchKeyword) (kind : TokenKind) : Bool :=
  keyword != .rangeKeyword && kind == .keyword (.branch keyword)

mutual

/-- Reads a body up to the else or end that ends it. -/
def bodyWithin (fuel : Nat) (origin : Origin) (inRange : Bool) :
    TreeReader (Body Node × Ending) :=
  match fuel with
  | 0 => throw .outOfFuel
  | fuel + 1 => do
      let start := (← peek).span.start
      let (nodes, ending) ← nodesWithin fuel origin inRange
      return (⟨bodySpan start nodes, nodes⟩, ending)
termination_by structural fuel

/-- Reads the nodes of a body and what ends it. -/
def nodesWithin (fuel : Nat) (origin : Origin) (inRange : Bool) :
    TreeReader (List Node × Ending) :=
  match fuel with
  | 0 => throw .outOfFuel
  | fuel + 1 => do
      let token ← peekNonSpace
      if token.kind = .eof then fail token.span .unexpectedEof
      else
        match ← itemWithin fuel origin inRange with
        | .node node =>
            let (nodes, ending) ← nodesWithin fuel origin inRange
            return (node :: nodes, ending)
        | .elseItem span => return ([], .elseEnding span)
        | .endItem _ => return ([], .endEnding)
termination_by structural fuel

/-- Reads a piece of text, a comment or an action. -/
def itemWithin (fuel : Nat) (origin : Origin) (inRange : Bool) : TreeReader Item :=
  match fuel with
  | 0 => throw .outOfFuel
  | fuel + 1 => do
      let token ← nextNonSpace
      match token.kind with
      | .text content => return .node (.text token.span content)
      | .comment content => return .node (.comment token.span content)
      | .leftDelim => actionWithin fuel origin inRange token.span.start
      | _ => unexpected token .input
termination_by structural fuel

/-- Reads an action after its left delimiter, which stands at `start`. -/
def actionWithin (fuel : Nat) (origin : Origin) (inRange : Bool) (start : Nat) :
    TreeReader Item :=
  match fuel with
  | 0 => throw .outOfFuel
  | fuel + 1 => do
      let token ← nextNonSpace
      match token.kind with
      | .keyword .block => return .node (← blockWithin fuel origin inRange start)
      | .keyword (.jump keyword) => return .node (← jumpNode inRange start token keyword)
      | .keyword .elseKeyword => elseItem start
      | .keyword .endKeyword =>
          expectRightDelim .endClause
          return .endItem ⟨start, ← lastEnd⟩
      | .keyword (.branch keyword) =>
          return .node (.branch keyword (← branchWithin fuel origin inRange start keyword))
      | .keyword .template => return .node (← templateNode start)
      | _ =>
          putBack token
          let pipe ← pipeline .command
          return .node (.action ⟨start, ← lastEnd⟩ pipe)
termination_by structural fuel

/-- Reads a branch after its keyword. -/
def branchWithin (fuel : Nat) (origin : Origin) (inRange : Bool) (start : Nat)
    (keyword : BranchKeyword) : TreeReader (Branch Node) :=
  match fuel with
  | 0 => throw .outOfFuel
  | fuel + 1 => do
      let pipe ← pipeline (.branch keyword)
      let (body, ending) ← bodyWithin fuel origin (inRange || keyword == .rangeKeyword)
      match ending with
      | .endEnding => return ⟨⟨start, ← lastEnd⟩, pipe, body, none⟩
      | .elseEnding _ =>
          let otherwise ← otherwiseWithin fuel origin inRange keyword
          return ⟨⟨start, ← lastEnd⟩, pipe, body, some otherwise⟩
termination_by structural fuel

/-- Reads what a branch takes otherwise: a body, or a branch of its own that a
keyword after the else starts. -/
def otherwiseWithin (fuel : Nat) (origin : Origin) (inRange : Bool)
    (keyword : BranchKeyword) : TreeReader (Body Node) :=
  match fuel with
  | 0 => throw .outOfFuel
  | fuel + 1 => do
      if continuesBranch keyword (← peek).kind then
        let token ← next
        let nested ← branchWithin fuel origin inRange token.span.start keyword
        return ⟨nested.span, [.branch keyword nested]⟩
      else
        let (body, ending) ← bodyWithin fuel origin inRange
        match ending with
        | .endEnding => return body
        | .elseEnding span => fail span .secondElse
termination_by structural fuel

/-- Reads a block after its keyword: defines its template and invokes it. -/
def blockWithin (fuel : Nat) (origin : Origin) (inRange : Bool) (start : Nat) :
    TreeReader Node :=
  match fuel with
  | 0 => throw .outOfFuel
  | fuel + 1 => do
      let name ← templateName (← nextNonSpace) .block
      let argument ← pipeline .block
      let invocationEnd ← lastEnd
      let (body, ending) ← bodyWithin fuel origin inRange
      match ending with
      | .elseEnding span => fail span (.unexpectedElse (some .block))
      | .endEnding =>
          define (origin.tree name body) ⟨start, ← lastEnd⟩
          return .template ⟨start, invocationEnd⟩ name (some argument)
termination_by structural fuel

end

/-- Reads a definition after its keyword; its left delimiter stands at `start`. -/
def definition (origin : Origin) (start : Nat) : TreeReader Unit := do
  let name ← templateName (← nextNonSpace) .define
  expectRightDelim .define
  let (body, ending) ← bodyWithin (← getThe Cursor).fuel origin false
  match ending with
  | .elseEnding span => fail span (.unexpectedElse (some .define))
  | .endEnding => define (origin.tree name body) ⟨start, ← lastEnd⟩

/-- Whether a definition comes next; if so, its delimiter and keyword are taken. -/
def definitionStart? : TreeReader (Option Nat) := do
  let c ← getThe Cursor
  let delim ← next
  if delim.kind = .leftDelim then
    if (← nextNonSpace).kind = .keyword .define then return some delim.span.start
  MonadStateOf.set c
  return none

/-- Reads the nodes of the template of the source itself, and all definitions. -/
def topLevelWithin (fuel : Nat) (origin : Origin) : TreeReader (List Node) :=
  match fuel with
  | 0 => throw .outOfFuel
  | fuel + 1 => do
      if (← peek).kind = .eof then return []
      else
        match ← definitionStart? with
        | some start =>
            definition origin start
            topLevelWithin fuel origin
        | none =>
            match ← itemWithin (← getThe Cursor).fuel origin false with
            | .node node => return node :: (← topLevelWithin fuel origin)
            | .elseItem span => fail span (.unexpectedElse none)
            | .endItem span => fail span .unexpectedEnd

/-- Reads all templates of a source. -/
def templates (origin : Origin) : TreeReader Unit := do
  let nodes ← topLevelWithin (← getThe Cursor).fuel origin
  let span : Span := ⟨0, origin.source.utf8ByteSize⟩
  define (origin.tree origin.name ⟨span, nodes⟩) .origin

end TreeReader

/-- The templates of a sequence of tokens. -/
def TemplateSet.ofTokens (origin : Origin) (tokens : List Token) : Except Halt TemplateSet :=
  match (TreeReader.templates origin).run NameMap.empty |>.run (Cursor.ofTokens tokens) with
  | .ok ((_, set), _) => .ok set
  | .error halt => .error halt

/-- The templates of a source: the one with the name of the source, and those that
it defines. -/
def TemplateSet.parse (d : Delimiters) (name source : String) : Except Halt TemplateSet :=
  match tokenize d source with
  | .ok tokens => TemplateSet.ofTokens ⟨name, source⟩ tokens
  | .error fault => .error (.fault fault)

/-- A fault as an error in the source of a given name. -/
def SyntaxFault.inSource (fault : SyntaxFault) (name : String) : SyntaxError :=
  { name, cause := fault.cause, span := fault.span }

end TemplateTyping
