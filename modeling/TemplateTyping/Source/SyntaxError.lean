import TemplateTyping.Literal.Quotation
import TemplateTyping.Token.Basic

/-!
# Faults of template sources

The reasons for which a source text is no template, each with the wording in
which it is reported.
-/

namespace TemplateTyping

/-- The part of a template that is being read. -/
inductive Clause
  | input
  | define
  | block
  | template
  | endClause
  | elseClause
  | jump (keyword : JumpKeyword)
  | branch (keyword : BranchKeyword)
  | command
  | parenthesized
  | operand
  deriving DecidableEq, Repr

/-- What a clause is called in messages. -/
def Clause.describe : Clause → String
  | input => "input"
  | define => "define clause"
  | block => "block clause"
  | template => "template clause"
  | endClause => "end"
  | elseClause => "else"
  | jump keyword => keyword.word
  | branch keyword => keyword.word
  | command => "command"
  | parenthesized => "parenthesized pipeline"
  | operand => "operand"

/-- The kinds of literals that end with a quote. -/
inductive QuotedLiteral
  | string
  | character
  | rawString
  deriving DecidableEq, Repr

/-- What a literal is called in messages. -/
def QuotedLiteral.describe : QuotedLiteral → String
  | string => "quoted string"
  | character => "character constant"
  | rawString => "raw quoted string"

/-- Why a source text is no template. -/
inductive SyntaxCause
  | unclosedComment
  | commentEndsEarly
  | unclosedParen
  | unclosedAction
  | expectedDeclare
  | unexpectedRightParen
  | unrecognizedCharacter (c : Char)
  | badCharacter (c : Char)
  | noNumber
  | badNumber (text : String)
  | unterminated (literal : QuotedLiteral)
  | literal (error : LiteralError)
  | unexpectedToken (token : Token) (clause : Clause)
  | unexpectedElse (clause : Option Clause)
  | unexpectedEnd
  | secondElse
  | unexpectedEof
  | jumpOutsideRange (keyword : JumpKeyword)
  | tooManyDeclarations (clause : Clause)
  | rangeDeclaration
  | missingValue (clause : Clause)
  | notExecutable (stage : Nat) (operand : String)
  | emptyCommand
  | fieldAfterTerm (term : String)
  | multipleDefinition (name : String)
  deriving DecidableEq, Repr

namespace SyntaxCause

/-- How a token is shown when it stands in the wrong place. -/
def showToken (token : Token) : String :=
  match token.kind with
  | .eof => "EOF"
  | .text _ | .comment _ => token.kind.describe
  | _ => Quoted.text token.text

/-- The wording of a fault. -/
def message : SyntaxCause → String
  | unclosedComment => "unclosed comment"
  | commentEndsEarly => "comment ends before closing delimiter"
  | unclosedParen => "unclosed left paren"
  | unclosedAction => "unclosed action"
  | expectedDeclare => "expected :="
  | unexpectedRightParen => "unexpected right paren"
  | unrecognizedCharacter c => "unrecognized character in action: " ++ Quoted.character c
  | badCharacter c => "bad character " ++ Quoted.character c
  | noNumber => "bad number syntax"
  | badNumber text => "bad number syntax: " ++ Quoted.text text
  | unterminated quoted => "unterminated " ++ quoted.describe
  | literal error => error.message
  | unexpectedToken token clause => "unexpected " ++ showToken token ++ " in " ++ clause.describe
  | unexpectedElse none => "unexpected " ++ delimited "else"
  | unexpectedElse (some clause) =>
      "unexpected " ++ delimited "else" ++ " in " ++ clause.describe
  | unexpectedEnd => "unexpected " ++ delimited "end"
  | secondElse => "expected end; found " ++ delimited "else"
  | unexpectedEof => "unexpected EOF"
  | jumpOutsideRange keyword => delimited keyword.word ++ " outside " ++ delimited "range"
  | tooManyDeclarations clause => "too many declarations in " ++ clause.describe
  | rangeDeclaration => "range can only initialize variables"
  | missingValue clause => "missing value for " ++ clause.describe
  | notExecutable stage operand =>
      "non executable command in pipeline stage " ++ toString stage ++ ": " ++ operand
  | emptyCommand => "empty command"
  | fieldAfterTerm term => "unexpected . after term " ++ term
  | multipleDefinition name =>
      "template: multiple definition of template " ++ Quoted.text name

end SyntaxCause

/-- A fault and the stretch of source it concerns. -/
structure SyntaxFault where
  cause : SyntaxCause
  span : Span
  deriving DecidableEq, Repr

/-- A fault in the source of a given name, with advice if there is any. -/
structure SyntaxError where
  name : String
  cause : SyntaxCause
  span : Span
  help : Option String := none
  deriving DecidableEq, Repr

namespace SyntaxError

/-- The fault alone. -/
def detail (e : SyntaxError) : String := e.cause.message

/-- The fault preceded by the name of the source. -/
def message (e : SyntaxError) : String := e.name ++ ": " ++ e.detail

end SyntaxError

end TemplateTyping
