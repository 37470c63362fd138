import TemplateTyping.Source.SyntaxError
import TemplateTyping.Token.Numeral

/-!
# From source text to tokens

A source is cut into tokens from left to right. Outside of actions it is text
up to the next left delimiter; inside, one token follows another up to the
right delimiter. A minus sign and a blank inside of a delimiter trim the blanks
of the text next to it. Each step takes at least one character, so the cutting
ends.
-/

namespace TemplateTyping

/-- Number of bytes of a text. -/
def textBytes : List Char → Nat
  | [] => 0
  | c :: cs => c.utf8Size + textBytes cs

/-- A place in a source: its byte offset and the text from there on. -/
structure Place where
  offset : Nat
  rest : List Char

namespace Place

/-- The place a number of characters further on. -/
def advance (place : Place) (count : Nat) : Place :=
  ⟨place.offset + textBytes (place.rest.take count), place.rest.drop count⟩

/-- The place after the blanks that come next. -/
def skipBlanks (place : Place) : Place :=
  place.advance (Numeral.runLength isBlank place.rest)

/-- The token of the next characters. -/
def token (place : Place) (kind : TokenKind) (count : Nat) : Token where
  kind := kind
  span := ⟨place.offset, (place.advance count).offset⟩
  text := String.ofList (place.rest.take count)

/-- The byte offset of the end of the source. -/
def endOffset (place : Place) : Nat := place.offset + textBytes place.rest

@[simp]
theorem length_advance (place : Place) (count : Nat) :
    (place.advance count).rest.length = place.rest.length - count := by
  simp [advance]

theorem length_skipBlanks_le (place : Place) :
    place.skipBlanks.rest.length ≤ place.rest.length := by
  simp [skipBlanks]

end Place

namespace Lexer

/-- Number of characters before the first occurrence of a pattern. -/
def find? (pattern : List Char) : List Char → Option Nat
  | [] => if pattern.isEmpty then some 0 else none
  | c :: cs =>
      if pattern.isPrefixOf (c :: cs) then some 0 else (find? pattern cs).map (· + 1)

/-- Whether a trim marker follows a left delimiter: a minus sign and a blank. -/
def trimsLeft : List Char → Bool
  | c :: d :: _ => c == '-' && isBlank d
  | _ => false

/-- Length of the trim marker before a right delimiter: a blank and a minus sign. -/
def markerLength : Nat := 2

/-- Whether a trim marker and a right delimiter come next. -/
def trimsRight (d : Delimiters) : List Char → Bool
  | b :: m :: cs => isBlank b && m == '-' && d.right.isPrefixOf cs
  | _ => false

/-- The length of a right delimiter with its trim marker, and whether it has one. -/
def rightDelim? (d : Delimiters) (cs : List Char) : Option (Nat × Bool) :=
  if trimsRight d cs then some (d.right.length + markerLength, true)
  else if d.right.isPrefixOf cs then some (d.right.length, false)
  else none

/-- The place after a right delimiter, and after the blanks that it trims. -/
def afterDelim (place : Place) (length : Nat) (trims : Bool) : Place :=
  if trims then (place.advance length).skipBlanks else place.advance length

/-- Why the characters at some place form no token: the fault, and the
characters it concerns, counted from that place. -/
structure Stop where
  cause : SyntaxCause
  skip : Nat := 0
  count : Nat

/-- The fault at a place. -/
def Stop.at (stop : Stop) (place : Place) : SyntaxFault where
  cause := stop.cause
  span := ⟨(place.advance stop.skip).offset, (place.advance (stop.skip + stop.count)).offset⟩

/-- Whether a word or a sign may end here. -/
def atTerminator (d : Delimiters) : List Char → Bool
  | [] => true
  | c :: cs =>
      isBlank c || c ∈ ['.', ',', '|', ':', ')', '(', '='] || d.right.isPrefixOf (c :: cs)

/-- Number of blanks that form one space token; a trim marker before a right
delimiter ends it. -/
def blanksLength (d : Delimiters) : List Char → Nat
  | [] => 0
  | c :: cs => if isBlank c && !trimsRight d (c :: cs) then blanksLength d cs + 1 else 0

/-- The length of the word after `skip` characters; something that can end a word
has to follow. -/
def wordLength (d : Delimiters) (skip : Nat) (cs : List Char) : Except Stop Nat :=
  let count := Numeral.runLength isWordChar cs
  if atTerminator d (cs.drop count) then .ok count
  else .error ⟨.badCharacter ((cs.drop count).headD ' '), skip + count, 1⟩

/-- The number of characters after an opening quote, up to and including the
closing one. A backslash protects the next character; a newline is not allowed.
`skip` characters were passed before. -/
def quotedLength (quote : Char) (literal : QuotedLiteral) (skip : Nat) :
    List Char → Except Stop Nat
  | [] => .error ⟨.unterminated literal, 0, skip⟩
  | '\\' :: cs =>
      match cs with
      | [] => .error ⟨.unterminated literal, 0, skip + 1⟩
      | c :: cs =>
          if c = '\n' then .error ⟨.unterminated literal, 0, skip + 2⟩
          else (quotedLength quote literal (skip + 2) cs).map (· + 2)
  | c :: cs =>
      if c = '\n' then .error ⟨.unterminated literal, 0, skip + 1⟩
      else if c = quote then .ok 1
      else (quotedLength quote literal (skip + 1) cs).map (· + 1)

/-- The length of a number constant, complex constants included: these carry no
blanks and end in the imaginary mark. -/
def numberLength (cs : List Char) : Except Stop Nat :=
  let fault (count : Nat) : Except Stop Nat :=
    .error ⟨.badNumber (String.ofList (cs.take count)), 0, count⟩
  let finish (count : Nat) : Except Stop Nat :=
    if (cs.drop count).head?.any isWordChar then fault (count + 1) else .ok count
  match Numeral.length? cs with
  | none => .error ⟨.noNumber, 0, 1⟩
  | some count =>
      let rest := cs.drop count
      if rest.head?.any fun c => c == '+' || c == '-' then
        match Numeral.length? rest with
        | some more =>
            if (rest.take more).getLast? = some 'i' then finish (count + more)
            else fault (count + 1)
        | none => fault (count + 1)
      else finish count

/-- The kind of the token that starts with the character `c`, and the number of
characters that follow it in the token. -/
def scan (d : Delimiters) (c : Char) (cs : List Char) : Except Stop (TokenKind × Nat) :=
  if isBlank c then .ok (.space, blanksLength d cs)
  else if c = '=' then .ok (.assign, 0)
  else if c = ':' then
    if cs.head? = some '=' then .ok (.declare, 1) else .error ⟨.expectedDeclare, 0, 1⟩
  else if c = '|' then .ok (.pipe, 0)
  else if c = ',' then .ok (.comma, 0)
  else if c = '(' then .ok (.leftParen, 0)
  else if c = ')' then .ok (.rightParen, 0)
  else if c = '"' then (quotedLength '"' .string 1 cs).map ((.string, ·))
  else if c = '\x60' then
    match find? ['\x60'] cs with
    | some count => .ok (.rawString, count + 1)
    | none => .error ⟨.unterminated .rawString, 0, cs.length + 1⟩
  else if c = '\'' then (quotedLength '\'' .character 1 cs).map ((.charConstant, ·))
  else if c = '$' then
    if atTerminator d cs then .ok (.variable "$", 0)
    else (wordLength d 1 cs).map fun count =>
      (.variable (String.ofList ('$' :: cs.take count)), count)
  else if c = '.' && !cs.head?.any Char.isDigit then
    if atTerminator d cs then .ok (.dot, 0)
    else (wordLength d 1 cs).map fun count => (.field (String.ofList (cs.take count)), count)
  else if c = '.' || c = '+' || c = '-' || c.isDigit then
    (numberLength (c :: cs)).map fun count => (.number, count - 1)
  else if isWordChar c then
    (wordLength d 1 cs).map fun count =>
      (.ofWord (String.ofList (c :: cs.take count)), count)
  else .error ⟨.unrecognizedCharacter c, 0, 1⟩

/-- Where the lexer stands: in text, or in an action that starts at an offset and
has a number of open parentheses. -/
inductive Mode
  | text
  | action (start depth : Nat)

/-- What one step of the lexer leads to: its tokens, and where it goes on. -/
structure Step where
  tokens : List Token
  mode : Mode
  place : Place

/-- The text token of the next characters, if there are any. -/
def textTokens (place : Place) (count : Nat) : List Token :=
  if count = 0 then []
  else [place.token (.text (String.ofList (place.rest.take count))) count]

/-- Takes a comment with its delimiters. The left delimiter stands at `opening`,
the comment itself at `inner`. -/
def stepComment (d : Delimiters) (opening inner : Place) : Except SyntaxFault (Token × Place) :=
  match find? ['*', '/'] (inner.rest.drop 2) with
  | none => .error ⟨.unclosedComment, ⟨opening.offset, inner.endOffset⟩⟩
  | some count =>
      let closing := inner.advance (count + 4)
      match rightDelim? d closing.rest with
      | none => .error ⟨.commentEndsEarly, ⟨opening.offset, closing.offset⟩⟩
      | some (length, trims) =>
          let content := String.ofList (inner.rest.take (count + 4))
          let taken := opening.rest.length - closing.rest.length + length
          .ok (opening.token (.comment content) taken, afterDelim closing length trims)

/-- Takes the text up to a left delimiter `count` characters further on, and the
delimiter; a comment is taken as a whole. -/
def stepText (d : Delimiters) (place : Place) (count : Nat) : Except SyntaxFault Step :=
  let opening := place.advance count
  let trims := trimsLeft (opening.rest.drop d.left.length)
  let length := if trims then d.left.length + markerLength else d.left.length
  let inner := opening.advance length
  let kept := if trims then
      ((place.rest.take count).reverse.dropWhile isBlank).length else count
  let tokens := textTokens place kept
  if ['/', '*'].isPrefixOf inner.rest then
    match stepComment d opening inner with
    | .error fault => .error fault
    | .ok (token, next) => .ok ⟨tokens ++ [token], .text, next⟩
  else .ok ⟨tokens ++ [opening.token .leftDelim length], .action opening.offset 0, inner⟩

/-- Takes one token of an action whose next character is `c`. -/
def stepAction (d : Delimiters) (start depth : Nat) (place : Place) (c : Char)
    (cs : List Char) : Except SyntaxFault Step :=
  match rightDelim? d place.rest with
  | some (length, trims) =>
      if depth = 0 then
        .ok ⟨[place.token .rightDelim length], .text, afterDelim place length trims⟩
      else .error ⟨.unclosedParen, ⟨start, place.offset⟩⟩
  | none =>
      match scan d c cs with
      | .error stop => .error (stop.at place)
      | .ok (kind, more) =>
          let step (depth : Nat) : Except SyntaxFault Step :=
            .ok ⟨[place.token kind (more + 1)], .action start depth, place.advance (more + 1)⟩
          match kind, depth with
          | .leftParen, depth => step (depth + 1)
          | .rightParen, 0 => .error ((⟨.unexpectedRightParen, 0, 1⟩ : Stop).at place)
          | .rightParen, depth + 1 => step depth
          | _, depth => step depth

/-- The end of the source as a token. -/
def eofToken (place : Place) : Token := place.token .eof 0

/-- One step of the lexer, or the last tokens. -/
def step (d : Delimiters) (mode : Mode) (place : Place) :
    Except SyntaxFault (List Token ⊕ Step) :=
  match mode, place.rest with
  | .text, [] => .ok (.inl [eofToken place])
  | .text, _ :: _ =>
      match find? d.left place.rest with
      | none =>
          let length := place.rest.length
          .ok (.inl (textTokens place length ++ [eofToken (place.advance length)]))
      | some count => (stepText d place count).map .inr
  | .action start _, [] => .error ⟨.unclosedAction, ⟨start, place.offset⟩⟩
  | .action start depth, c :: cs => (stepAction d start depth place c cs).map .inr

theorem length_afterDelim_le (place : Place) (length : Nat) (trims : Bool) :
    (afterDelim place length trims).rest.length ≤ place.rest.length - length := by
  unfold afterDelim
  split
  · simpa using (place.advance length).length_skipBlanks_le
  · simp

theorem length_stepComment_le {d : Delimiters} {opening inner next : Place} {token : Token}
    (h : stepComment d opening inner = .ok (token, next)) :
    next.rest.length ≤ inner.rest.length := by
  unfold stepComment at h
  split at h
  · simp at h
  · rename_i count _
    simp only at h
    split at h
    · simp at h
    · rename_i length trims _
      simp only [Except.ok.injEq, Prod.mk.injEq] at h
      have := length_afterDelim_le (inner.advance (count + 4)) length trims
      rw [← h.2]
      simp only [Place.length_advance] at this
      omega

/-- Taking text and a left delimiter leaves less of the source. -/
theorem length_stepText_lt {d : Delimiters} {place : Place} {count : Nat} {s : Step}
    (hplace : place.rest ≠ []) (h : stepText d place count = .ok s) :
    s.place.rest.length < place.rest.length := by
  have hpos := List.length_pos_iff.mpr hplace
  have hleft := List.length_pos_iff.mpr d.left_ne_nil
  unfold stepText at h
  simp only at h
  generalize hlength : (if trimsLeft _ = true then _ else d.left.length) = length at h
  have hlen : 0 < length := by rw [← hlength]; split <;> omega
  split at h
  · split at h
    · simp at h
    · rename_i hcomment
      simp only [Except.ok.injEq] at h
      have := length_stepComment_le hcomment
      rw [← h]
      simp only [Place.length_advance] at this ⊢
      omega
  · simp only [Except.ok.injEq] at h
    rw [← h]
    simp only [Place.length_advance]
    omega

theorem rightDelim?_pos {d : Delimiters} {cs : List Char} {length : Nat} {trims : Bool}
    (h : rightDelim? d cs = some (length, trims)) : 0 < length := by
  have hright := List.length_pos_iff.mpr d.right_ne_nil
  unfold rightDelim? at h
  split at h
  · simp only [Option.some.injEq, Prod.mk.injEq] at h
    omega
  · split at h
    · simp only [Option.some.injEq, Prod.mk.injEq] at h
      omega
    · simp at h

/-- Taking a token of an action leaves less of the source. -/
theorem length_stepAction_lt {d : Delimiters} {start depth : Nat} {place : Place} {c : Char}
    {cs : List Char} {s : Step} (hplace : place.rest ≠ [])
    (h : stepAction d start depth place c cs = .ok s) :
    s.place.rest.length < place.rest.length := by
  have hpos := List.length_pos_iff.mpr hplace
  unfold stepAction at h
  split at h
  · rename_i length trims hdelim
    split at h
    · simp only [Except.ok.injEq] at h
      have hlen := rightDelim?_pos hdelim
      have := length_afterDelim_le place length trims
      rw [← h]
      simp only
      omega
    · simp at h
  · split at h
    · simp at h
    · simp only at h
      split at h
      all_goals first
        | (simp only [Except.ok.injEq] at h
           rw [← h]
           simp only [Place.length_advance]
           omega)
        | simp at h

/-- Each step of the lexer leaves less of the source. -/
theorem length_step_lt {d : Delimiters} {mode : Mode} {place : Place} {s : Step}
    (h : step d mode place = .ok (.inr s)) : s.place.rest.length < place.rest.length := by
  unfold step at h
  split at h
  · simp at h
  · rename_i hrest
    split at h
    · simp at h
    · rename_i count _
      cases hstep : stepText d place count with
      | error fault => simp [hstep, Except.map] at h
      | ok s' =>
          simp only [hstep, Except.map, Except.ok.injEq, Sum.inr.injEq] at h
          exact h ▸ length_stepText_lt (by simp [hrest]) hstep
  · simp at h
  · rename_i start depth c cs hrest
    cases hstep : stepAction d start depth place c cs with
    | error fault => simp [hstep, Except.map] at h
    | ok s' =>
        simp only [hstep, Except.map, Except.ok.injEq, Sum.inr.injEq] at h
        exact h ▸ length_stepAction_lt (by simp [hrest]) hstep

/-- The tokens from a place on. -/
def tokensFrom (d : Delimiters) (mode : Mode) (place : Place) :
    Except SyntaxFault (List Token) :=
  match h : step d mode place with
  | .error fault => .error fault
  | .ok (.inl tokens) => .ok tokens
  | .ok (.inr s) =>
      have := length_step_lt h
      (tokensFrom d s.mode s.place).map (s.tokens ++ ·)
termination_by place.rest.length

end Lexer

/-- The tokens of a source, the last of which marks its end. -/
def tokenize (d : Delimiters) (source : String) : Except SyntaxFault (List Token) :=
  Lexer.tokensFrom d .text ⟨0, source.toList⟩

end TemplateTyping
