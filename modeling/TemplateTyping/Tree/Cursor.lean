import TemplateTyping.Source.SyntaxError

/-!
# Reading tokens

A cursor stands in a sequence of tokens. It never moves beyond the last one,
which marks the end of the source, and it remembers where the token taken last
ends. A token that was taken can be put back once; the mark of the end is never
taken in this sense and must not be put back.
-/

namespace TemplateTyping

/-- Why reading stops early: a fault of the source, or an accident of the reader
itself, for which no source is to blame. -/
inductive Halt
  /-- The source has a fault. -/
  | fault (fault : SyntaxFault)
  /-- The bound on the depth of the reader was too low. -/
  | outOfFuel
  /-- The mark of the end was put back. -/
  | lostPlace
  deriving DecidableEq, Repr

/-- A place in a sequence of tokens: the token that comes next, those after it,
and the end of the token taken last. -/
structure Cursor where
  current : Token
  later : List Token
  lastEnd : Nat := 0
  deriving DecidableEq, Repr

namespace Cursor

/-- The start of a sequence of tokens. -/
def ofTokens : List Token → Cursor
  | [] => { current := ⟨.eof, .origin, ""⟩, later := [] }
  | token :: tokens => { current := token, later := tokens }

/-- The place after the next token, which stays the next one if it is the last. -/
def step (c : Cursor) : Cursor :=
  match c.later with
  | [] => { c with lastEnd := c.current.span.stop }
  | token :: tokens => ⟨token, tokens, c.current.span.stop⟩

/-- The place before a token that was taken. -/
def restore (c : Cursor) (token : Token) : Cursor :=
  { c with current := token, later := c.current :: c.later }

/-- Passes over tokens as long as they are of a kind, the last one excepted, and
gives the tokens passed. -/
def passFrom (p : TokenKind → Bool) (current : Token) (lastEnd : Nat) :
    List Token → List Token × Cursor
  | [] => ([], ⟨current, [], lastEnd⟩)
  | token :: tokens =>
      if p current.kind then
        let (passed, c) := passFrom p token current.span.stop tokens
        (current :: passed, c)
      else ([], ⟨current, token :: tokens, lastEnd⟩)

/-- Passes over tokens as long as they are of a kind, the last one excepted. -/
def pass (c : Cursor) (p : TokenKind → Bool) : List Token × Cursor :=
  passFrom p c.current c.lastEnd c.later

/-- The number of tokens from here on. -/
def size (c : Cursor) : Nat := c.later.length + 1

/-- A bound on the depth of reading from here on: no more than eight calls are
nested for each token. -/
def fuel (c : Cursor) : Nat := 8 * (c.size + 1)

/-- Putting back the token that was taken leads back to where it was taken. -/
theorem restore_step (c : Cursor) (h : c.later ≠ []) :
    c.step.restore c.current = { c with lastEnd := c.current.span.stop } := by
  cases hl : c.later with
  | nil => exact absurd hl h
  | cons token tokens => simp [step, restore, hl]

end Cursor

/-- Actions that read tokens. -/
abbrev TokenReader := StateT Cursor (Except Halt)

namespace TokenReader

/-- Reports a fault of the source. -/
def fail {α : Type} (span : Span) (cause : SyntaxCause) : TokenReader α :=
  throw (.fault ⟨cause, span⟩)

/-- Reports a token that must not stand in a clause. -/
def unexpected {α : Type} (token : Token) (clause : Clause) : TokenReader α :=
  fail token.span (.unexpectedToken token clause)

/-- The next token, which is not taken. -/
def peek : TokenReader Token := do
  return (← get).current

/-- Takes the next token. -/
def next : TokenReader Token := do
  let c ← get
  set c.step
  return c.current

/-- Puts back the token that was taken last. -/
def putBack (token : Token) : TokenReader Unit := do
  if token.kind = .eof then throw .lostPlace
  set ((← get).restore token)

/-- The end of the token taken last. -/
def lastEnd : TokenReader Nat := do
  return (← get).lastEnd

/-- Passes over spaces. -/
def skipSpaces : TokenReader Unit := do
  set ((← get).pass (· == .space)).2

/-- Takes the next token that is not a space. -/
def nextNonSpace : TokenReader Token := do
  skipSpaces
  next

/-- The next token that is not a space; only the spaces before it are taken. -/
def peekNonSpace : TokenReader Token := do
  skipSpaces
  peek

/-- Takes a right delimiter, after spaces if there are any. -/
def expectRightDelim (clause : Clause) : TokenReader Unit := do
  let token ← nextNonSpace
  if token.kind ≠ .rightDelim then unexpected token clause

/-- The value of a literal token, or its fault. -/
def literal {α : Type} (token : Token) (value : Except LiteralError α) : TokenReader α :=
  match value with
  | .ok value => return value
  | .error error => fail token.span (.literal error)

end TokenReader

end TemplateTyping
