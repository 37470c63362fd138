import TemplateTyping.Source.Span
import TemplateTyping.Tree.Print

/-!
# Tokens

A template source is a sequence of tokens: pieces of text, comments, and the
delimiters, words, literals and signs of actions. A token keeps its span and
the piece of source that it was read from. The texts of the two delimiters can be
chosen, but neither of them is empty.
-/

namespace TemplateTyping

/-- The words with a fixed meaning, the two truth values aside. -/
inductive Keyword
  | block
  | define
  | template
  | elseKeyword
  | endKeyword
  | nilKeyword
  | branch (keyword : BranchKeyword)
  | jump (keyword : JumpKeyword)
  deriving DecidableEq, Repr

namespace Keyword

/-- Every keyword. -/
def all : List Keyword :=
  [block, jump .breakKeyword, jump .continueKeyword, define, elseKeyword, endKeyword,
    branch .ifKeyword, nilKeyword, branch .rangeKeyword, template, branch .withKeyword]

/-- The word of a keyword. -/
def word : Keyword → String
  | block => "block"
  | define => "define"
  | template => "template"
  | elseKeyword => "else"
  | endKeyword => "end"
  | nilKeyword => "nil"
  | branch keyword => keyword.word
  | jump keyword => keyword.word

end Keyword

/-- What a token is. Words carry their names, text and comments what they hold. -/
inductive TokenKind
  | text (content : String)
  | comment (content : String)
  | leftDelim
  | rightDelim
  | space
  | bool (value : Bool)
  | charConstant
  | number
  | string
  | rawString
  | field (name : String)
  | variable (name : String)
  | identifier (name : String)
  | assign
  | declare
  | pipe
  | leftParen
  | rightParen
  | comma
  | dot
  | keyword (keyword : Keyword)
  | eof
  deriving DecidableEq, Repr

namespace TokenKind

/-- The kind of a word with a fixed meaning. -/
def ofWord? (word : String) : Option TokenKind :=
  if word = "true" then some (bool true)
  else if word = "false" then some (bool false)
  else (Keyword.all.find? (·.word == word)).map keyword

/-- The kind of a word: its fixed meaning, or a name. -/
def ofWord (word : String) : TokenKind :=
  (ofWord? word).getD (identifier word)

/-- What a token is called in messages. -/
def describe : TokenKind → String
  | text _ => "text"
  | comment _ => "comment"
  | leftDelim => "left delimiter"
  | rightDelim => "right delimiter"
  | space => "space"
  | bool _ => "boolean"
  | charConstant => "character constant"
  | number => "number"
  | string => "string"
  | rawString => "raw string"
  | field _ => "field"
  | .variable _ => "variable"
  | identifier _ => "identifier"
  | assign => "\"=\""
  | declare => "\":=\""
  | pipe => "\"|\""
  | leftParen => "\"(\""
  | rightParen => "\")\""
  | comma => "\",\""
  | dot => "\".\""
  | keyword k => "<" ++ k.word ++ ">"
  | eof => "EOF"

end TokenKind

/-- A token: what it is, where it stands, and the source text it was read from. -/
structure Token where
  kind : TokenKind
  span : Span
  text : String
  deriving DecidableEq, Repr

/-- The texts that enclose an action. -/
structure Delimiters where
  left : List Char
  right : List Char
  left_ne_nil : left ≠ []
  right_ne_nil : right ≠ []

namespace Delimiters

/-- Two opening and two closing braces. -/
def standard : Delimiters where
  left := ['\x7b', '\x7b']
  right := ['\x7d', '\x7d']
  left_ne_nil := by simp
  right_ne_nil := by simp

/-- The same delimiters with other texts; an empty text changes nothing. -/
def replace (d : Delimiters) (left right : String) : Delimiters :=
  let d := if h : left.toList = [] then d else { d with left := left.toList, left_ne_nil := h }
  if h : right.toList = [] then d else { d with right := right.toList, right_ne_nil := h }

end Delimiters

end TemplateTyping
