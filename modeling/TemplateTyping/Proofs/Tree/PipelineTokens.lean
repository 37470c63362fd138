import TemplateTyping.Proofs.Tree.PipelineSpans

/-!
# Tokens of pipelines

A pipeline is printed with other spaces than it was written with, and without a bar after its last
command.  Everything else that was written is printed again, in the same order.

To see this, derivations are followed token by token: whatever is read is read from tokens whose
pieces, apart from spaces and idle bars, are those of the node that is made of them.
-/

namespace TemplateTyping

open Lexer

/-! ## Written pieces -/

/-- The pieces that are no spaces. -/
def bare (pieces : List Piece) : List Piece := pieces.filter (·.1 != .space)

/-- The pieces of tokens that are no spaces. -/
def lexemes (tokens : List Token) : List Piece := bare (tokens.map Token.piece)

/-- Leaves out the bars after which nothing comes but the end of their pipeline: a closing
parenthesis or the end of the pieces. -/
def withoutIdleBars : List Piece → List Piece
  | [] => []
  | piece :: pieces =>
      if piece.1 = .pipe ∧ pieces.head?.all (·.1 == .rightParen) then withoutIdleBars pieces
      else piece :: withoutIdleBars pieces

section Bare

variable {piece : Piece} {pieces more : List Piece}

@[simp]
theorem bare_nil : bare [] = [] := rfl

@[simp]
theorem bare_append : bare (pieces ++ more) = bare pieces ++ bare more :=
  List.filter_append ..

@[simp]
theorem bare_space : bare (spacePiece :: pieces) = bare pieces := rfl

theorem bare_cons (h : piece.1 ≠ .space) : bare (piece :: pieces) = piece :: bare pieces :=
  List.filter_cons_of_pos (by simpa using h)

@[simp]
theorem lexemes_append (tokens rest : List Token) :
    lexemes (tokens ++ rest) = lexemes tokens ++ lexemes rest := by
  rw [lexemes, List.map_append, bare_append, lexemes, lexemes]

theorem lexemes_eq_nil {tokens : List Token} (h : ∀ token ∈ tokens, token.kind = .space) :
    lexemes tokens = [] := by
  rw [lexemes, bare, List.filter_eq_nil_iff]
  intro piece hpiece
  obtain ⟨token, htoken, rfl⟩ := List.mem_map.mp hpiece
  simp [Token.piece, h token htoken]

theorem bare_fields (path : List String) : bare (path.map fieldPiece) = path.map fieldPiece := by
  rw [bare, List.filter_eq_self]
  intro piece hpiece
  obtain ⟨name, _, rfl⟩ := List.mem_map.mp hpiece
  rfl

end Bare

section IdleBars

variable {piece : Piece} {pieces more : List Piece}

theorem withoutIdleBars_cons (h : piece.1 ≠ .pipe) :
    withoutIdleBars (piece :: pieces) = piece :: withoutIdleBars pieces := by
  rw [withoutIdleBars, if_neg]
  exact fun hidle => h hidle.1

/-- A bar before another command stays. -/
theorem withoutIdleBars_bar (hhead : ∃ next, pieces.head? = some next ∧ next.1 ≠ .rightParen) :
    withoutIdleBars (piece :: pieces) = piece :: withoutIdleBars pieces := by
  obtain ⟨next, hnext, hkind⟩ := hhead
  rw [withoutIdleBars, if_neg]
  intro hidle
  rw [hnext, Option.all_some, beq_iff_eq] at hidle
  exact hkind hidle.2

theorem withoutIdleBars_eq_self (h : ∀ piece ∈ pieces, piece.1 ≠ .pipe) :
    withoutIdleBars pieces = pieces := by
  induction pieces with
  | nil => rfl
  | cons piece pieces ih =>
      rw [withoutIdleBars_cons (h piece (by simp)),
        ih fun other hother => h other (List.mem_cons_of_mem _ hother)]

theorem withoutIdleBars_sublist : (withoutIdleBars pieces).Sublist pieces := by
  induction pieces with
  | nil => exact .slnil
  | cons piece pieces ih =>
      rw [withoutIdleBars]
      split
      · exact ih.cons piece
      · exact ih.cons_cons piece

/-- Whether a bar is idle depends on the next piece only. -/
theorem withoutIdleBars_cons_of_head {pieces' tail : List Piece}
    (hhead : pieces'.head?.all (·.1 == .rightParen) = pieces.head?.all (·.1 == .rightParen))
    (h : withoutIdleBars pieces' = withoutIdleBars pieces ++ tail) :
    withoutIdleBars (piece :: pieces') = withoutIdleBars (piece :: pieces) ++ tail := by
  rw [withoutIdleBars, withoutIdleBars, hhead, h]
  by_cases hidle : piece.1 = .pipe ∧ pieces.head?.all (·.1 == .rightParen)
  · rw [if_pos hidle, if_pos hidle]
  · rw [if_neg hidle, if_neg hidle, List.cons_append]

/-- Pieces that do not end with a bar can be looked at on their own. -/
theorem withoutIdleBars_append (hlast : ∀ piece ∈ pieces.getLast?, piece.1 ≠ .pipe) :
    withoutIdleBars (pieces ++ more) = withoutIdleBars pieces ++ withoutIdleBars more := by
  induction pieces with
  | nil => rfl
  | cons piece pieces ih =>
      cases pieces with
      | nil =>
          have hpiece : piece.1 ≠ .pipe := hlast piece rfl
          rw [List.singleton_append, withoutIdleBars_cons hpiece, withoutIdleBars_cons hpiece]
          rfl
      | cons next pieces =>
          have htail := ih fun other hother => hlast other (by simpa using hother)
          exact withoutIdleBars_cons_of_head (by rfl) htail

/-- A closing parenthesis ends a pipeline as the end of the pieces does. -/
theorem withoutIdleBars_paren {closing : Piece} (h : closing.1 = .rightParen) :
    withoutIdleBars (pieces ++ [closing]) = withoutIdleBars pieces ++ [closing] := by
  induction pieces with
  | nil =>
      rw [List.nil_append, withoutIdleBars_cons (by simp [h])]
      rfl
  | cons piece pieces ih =>
      refine withoutIdleBars_cons_of_head ?_ ih
      cases pieces with
      | nil => simp [h]
      | cons next pieces => rfl

end IdleBars

/-- What was written for a node with given pieces.  It starts like an operand and does not end with
a bar, so it can stand beside other operands. -/
structure Writes (written pieces : List Piece) : Prop where
  eq : withoutIdleBars written = bare pieces
  head : ∀ piece ∈ written.head?, TokenReader.startsOperand piece.1 = true
  last : ∀ piece ∈ written.getLast?, piece.1 ≠ .pipe

namespace Writes

variable {written written' pieces pieces' : List Piece}

theorem nil : Writes [] [] := ⟨rfl, by simp, by simp⟩

theorem append (h : Writes written pieces) (h' : Writes written' pieces') :
    Writes (written ++ written') (pieces ++ pieces') := by
  constructor
  · rw [withoutIdleBars_append h.last, h.eq, h'.eq, bare_append]
  · intro piece hpiece
    rw [List.head?_append, Option.mem_def, Option.or_eq_some_iff] at hpiece
    rcases hpiece with hpiece | ⟨_, hpiece⟩
    · exact h.head piece hpiece
    · exact h'.head piece hpiece
  · intro piece hpiece
    rw [List.getLast?_append, Option.mem_def, Option.or_eq_some_iff] at hpiece
    rcases hpiece with hpiece | ⟨_, hpiece⟩
    · exact h'.last piece hpiece
    · exact h.last piece hpiece

/-- A single token. -/
theorem single {piece : Piece} (hspace : piece.1 ≠ .space)
    (hstarts : TokenReader.startsOperand piece.1 = true) : Writes [piece] [piece] := by
  have hpipe : piece.1 ≠ .pipe := TokenKind.ne_of_class hstarts rfl
  constructor
  · rw [withoutIdleBars_cons hpipe, bare_cons hspace]
    rfl
  · simpa using hstarts
  · simpa using hpipe

/-- A pipeline in parentheses. -/
theorem paren (h : withoutIdleBars written = bare pieces) :
    Writes ((.leftParen, "(") :: (written ++ [(.rightParen, ")")]))
      ((.leftParen, "(") :: (pieces ++ [(.rightParen, ")")])) := by
  constructor
  · rw [withoutIdleBars_cons (by simp), withoutIdleBars_paren rfl, h, bare_cons (by simp),
      bare_append]
    rfl
  · simp [TokenReader.startsOperand]
  · rw [← List.cons_append, List.getLast?_concat]
    simp

end Writes

/-! ## Texts of tokens -/

/-- The source text of a sign. -/
def TokenKind.sign? : TokenKind → Option String
  | .assign => some "="
  | .declare => some ":="
  | .pipe => some "|"
  | .comma => some ","
  | .leftParen => some "("
  | .rightParen => some ")"
  | _ => none

theorem TokenKind.sign?_ofWord (word : String) : (ofWord word).sign? = none :=
  ofWord_induct word rfl (fun _ => rfl) fun _ => rfl

namespace Token.IsLexed

variable {token : Token}

/-- A sign is spelled as its kind tells. -/
theorem piece_of_sign (h : token.IsLexed) {text : String}
    (hsign : token.kind.sign? = some text) : token.piece = (token.kind, text) := by
  have hinner : token.kind.IsInner := by
    generalize token.kind = kind at hsign
    cases kind with
    | text | comment | leftDelim | rightDelim | eof => cases hsign
    | _ => trivial
  have hlexeme := (h.lexeme hinner).1
  have htext : token.text = text := by
    rw [← String.toList_inj]
    generalize token.text.toList = written at hlexeme
    generalize token.kind = kind at hsign hlexeme
    cases hlexeme with
    | assign | declare | pipe | comma | leftParen | rightParen =>
        obtain rfl := Option.some.inj hsign
        rfl
    | word =>
        rw [TokenKind.sign?_ofWord] at hsign
        cases hsign
    | _ => cases hsign
  rw [Token.piece, htext]

theorem piece_of_spelling (h : token.IsLexed) {text : String}
    (hspelling : token.kind.spelling? = some text) : token.piece = (token.kind, text) := by
  rw [Token.piece, h.text_eq hspelling]

theorem piece_of_number (h : token.IsLexed)
    (hkind : token.kind = .number ∨ token.kind = .charConstant) :
    token.piece = (numberKind token.text, token.text) := by
  rcases hkind with hkind | hkind
  · have hhead := (h.lexeme (by rw [hkind]; trivial)).1.allowsHead
    rw [hkind] at hhead
    have hnumber : numberKind token.text = .number := if_neg hhead
    rw [Token.piece, hkind, hnumber]
  · have hhead := (h.lexeme (by rw [hkind]; trivial)).1.allowsHead
    rw [hkind] at hhead
    have hnumber : numberKind token.text = .charConstant := if_pos hhead
    rw [Token.piece, hkind, hnumber]

theorem piece_of_string (h : token.IsLexed)
    (hkind : token.kind = .string ∨ token.kind = .rawString) :
    token.piece = (stringKind token.text, token.text) := by
  rcases hkind with hkind | hkind
  · have hhead := (h.lexeme (by rw [hkind]; trivial)).1.allowsHead
    rw [hkind] at hhead
    have hstring : stringKind token.text = .string := if_neg hhead
    rw [Token.piece, hkind, hstring]
  · have hhead := (h.lexeme (by rw [hkind]; trivial)).1.allowsHead
    rw [hkind] at hhead
    have hstring : stringKind token.text = .rawString := if_pos hhead
    rw [Token.piece, hkind, hstring]

end Token.IsLexed

/-! ## Tokens that are taken -/

/-- Tokens that a reader of pipelines is given: they come from the lexer, and their action is
closed. -/
structure Fed (tokens : List Token) : Prop where
  closes : Closes true tokens
  lexed : ∀ token ∈ tokens, token.IsLexed

/-- Tokens were taken until a rest was left, no right delimiter among them.  Apart from spaces,
this is what they show. -/
def Took (tokens rest : List Token) (written : List Piece) : Prop :=
  ∃ taken, tokens = taken ++ rest ∧ (∀ token ∈ taken, token.kind ≠ .rightDelim) ∧
    lexemes taken = written

namespace Took

variable {tokens middle rest : List Token} {token : Token} {written written' : List Piece}

theorem refl (tokens : List Token) : Took tokens tokens [] := ⟨[], rfl, by simp, rfl⟩

theorem trans (h : Took tokens middle written) (h' : Took middle rest written') :
    Took tokens rest (written ++ written') := by
  obtain ⟨taken, rfl, hinner, rfl⟩ := h
  obtain ⟨taken', rfl, hinner', rfl⟩ := h'
  refine ⟨taken ++ taken', (List.append_assoc ..).symm, ?_, lexemes_append ..⟩
  intro token htoken
  rcases List.mem_append.mp htoken with htoken | htoken
  · exact hinner token htoken
  · exact hinner' token htoken

theorem cons (hspace : token.kind ≠ .space) (hinner : token.kind ≠ .rightDelim) :
    Took (token :: rest) rest [token.piece] := by
  refine ⟨[token], rfl, by simpa using hinner, ?_⟩
  exact bare_cons hspace

/-- A sign is taken with the text that its kind tells. -/
theorem sign {kind : TokenKind} {text : String} (hlexed : token.IsLexed)
    (hkind : token.kind = kind) (hsign : kind.sign? = some text) :
    Took (token :: rest) rest [(kind, text)] := by
  subst hkind
  rw [← hlexed.piece_of_sign hsign]
  apply cons
  · intro hkind
    rw [hkind] at hsign
    cases hsign
  · intro hkind
    rw [hkind] at hsign
    cases hsign

theorem spaces {taken : List Token} (h : ∀ token ∈ taken, token.kind = .space) :
    Took (taken ++ rest) rest [] := by
  refine ⟨taken, rfl, ?_, lexemes_eq_nil h⟩
  intro token htoken
  simp [h token htoken]

theorem of_reaches (h : Reaches tokens token rest) : Took tokens (token :: rest) [] := by
  obtain ⟨taken, rfl, hspaces⟩ := h.split
  exact spaces hspaces

theorem fed (h : Took tokens rest written) (hfed : Fed tokens) : Fed rest := by
  obtain ⟨taken, rfl, hinner, _⟩ := h
  refine ⟨hfed.closes.of_append hinner, ?_⟩
  intro token htoken
  exact hfed.lexed token (List.mem_append_right _ htoken)

/-- What is taken starts with the first token, unless that is a space. -/
theorem head? (h : Took (token :: rest) middle written) (hspace : token.kind ≠ .space) :
    written = [] ∨ written.head? = some token.piece := by
  obtain ⟨taken, heq, _, rfl⟩ := h
  cases taken with
  | nil => exact .inl rfl
  | cons first taken =>
      obtain rfl := (List.cons.inj heq).1
      right
      rw [lexemes, List.map_cons, bare_cons hspace]
      rfl

end Took

/-- The first token closes a pipeline. -/
def AtCloser (tokens : List Token) : Prop :=
  ∃ token rest, tokens = token :: rest ∧ (token.kind = .rightDelim ∨ token.kind = .rightParen)

/-- Nothing that could start an operand is taken from tokens that close a pipeline. -/
theorem Took.eq_nil_of_atCloser {tokens rest : List Token} {written : List Piece}
    (h : Took tokens rest written) (hcloser : AtCloser tokens)
    (hhead : ∀ piece ∈ written.head?, TokenReader.startsOperand piece.1 = true) : written = [] := by
  obtain ⟨token, later, rfl, hkind⟩ := hcloser
  have hspace : token.kind ≠ .space := by
    rcases hkind with hkind | hkind <;> simp [hkind]
  rcases h.head? hspace with hnil | hfirst
  · exact hnil
  · have hstarts : TokenReader.startsOperand token.kind = true := hhead token.piece hfirst
    rcases hkind with hkind | hkind <;>
    · rw [hkind] at hstarts
      cases hstarts

/-! ## Declarations -/

open TokenReader

theorem piece_of_variable {token : Token} {name : String} (h : token.IsLexed)
    (hkind : token.kind = .variable name) : token.piece = (.variable name, name) := by
  have hspelling : token.kind.spelling? = some name := by
    rw [hkind]
    rfl
  rw [h.piece_of_spelling hspelling, hkind]

namespace Fed

variable {token : Token} {c c' : Cursor} (h : Fed c.tokens)
include h

/-- The tokens that are left are those of the lexer inside of an action as well. -/
theorem enclosed : Enclosed c.tokens c := ⟨List.suffix_refl _, h.closes⟩

/-- The next token that is no space is taken. -/
theorem took_next (hnext : nextNonSpace c = .ok (token, c')) (hkind : token.kind ≠ .rightDelim) :
    Took c.tokens c'.tokens [token.piece] := by
  have hreaches := h.enclosed.reaches hnext
  exact (Took.of_reaches hreaches).trans (.cons hreaches.ne_space hkind)

theorem lexed_next (hnext : nextNonSpace c = .ok (token, c')) : token.IsLexed :=
  h.lexed token (h.enclosed.mem hnext)

theorem took_sign {kind : TokenKind} {text : String}
    (hnext : nextNonSpace c = .ok (token, c')) (hkind : token.kind = kind)
    (hsign : kind.sign? = some text) : Took c.tokens c'.tokens [(kind, text)] :=
  (Took.of_reaches (h.enclosed.reaches hnext)).trans (.sign (h.lexed_next hnext) hkind hsign)

theorem took_variable {name : String} (hnext : nextNonSpace c = .ok (token, c'))
    (hkind : token.kind = .variable name) : Took c.tokens c'.tokens [(.variable name, name)] := by
  rw [← piece_of_variable (h.lexed_next hnext) hkind]
  exact h.took_next hnext (by simp [hkind])

theorem took_peek (hpeek : peekNonSpace c = .ok (token, c')) : Took c.tokens c'.tokens [] := by
  obtain ⟨htokens, hreaches⟩ := h.enclosed.peek_reaches hpeek
  rw [htokens]
  exact .of_reaches hreaches

end Fed

/-- The sign of a declaration is spelled as it is printed. -/
theorem sign?_sign (isAssign : Bool) :
    (TokenKind.sign isAssign).sign? = some (signPiece isAssign).2 ∧
      (TokenKind.sign isAssign, (signPiece isAssign).2) = signPiece isAssign := by
  cases isAssign <;> exact ⟨rfl, rfl⟩

/-- The variables that a pipeline sets are written with the sign after them.  Only before the end
of the pipeline there may be a variable without sign. -/
theorem Declares.took {clause : Clause} {isAssign : Bool} {declared : List Variable}
    {c c' : Cursor} (h : Declares clause c isAssign declared c') (hfed : Fed c.tokens) :
    ∃ written, Took c.tokens c'.tokens written ∧
      (written = bare (declaredPieces isAssign declared) ∨ AtCloser c'.tokens) := by
  have hsign : ∀ {c c' : Cursor} {sign : Token} {isAssign : Bool}, Fed c.tokens →
      nextNonSpace c = .ok (sign, c') → sign.kind = .sign isAssign →
        Took c.tokens c'.tokens [signPiece isAssign] := by
    intro c c' sign isAssign hc hrun hkind
    obtain ⟨htext, hpiece⟩ := sign?_sign isAssign
    rw [← hpiece]
    exact hc.took_sign hrun hkind htext
  cases h with
  | none hpeek => exact ⟨[], hfed.took_peek hpeek, .inl rfl⟩
  | unsigned => exact ⟨[], .refl _, .inl rfl⟩
  | one hfirst hname hrun hkind =>
      have hvariable := hfed.took_variable hfirst hname
      refine ⟨_, hvariable.trans (hsign (hvariable.fed hfed) hrun hkind), .inl ?_⟩
      cases isAssign <;> rfl
  | @trailing _ _ _ closing _ _ _ c' hfirst hname hrun hcomma hpeek hkind =>
      have hvariable := hfed.took_variable hfirst hname
      have hrest := hvariable.trans ((hvariable.fed hfed).took_sign hrun hcomma rfl)
      have hlater := hrest.fed hfed
      refine ⟨_, hrest.trans (hlater.took_peek hpeek), .inr ⟨closing, c'.later, ?_, hkind⟩⟩
      exact (hlater.enclosed.peek_reaches hpeek).1
  | two _ hfirst hname hrun hcomma hsecond hname' hrun' hkind =>
      have hvariable := hfed.took_variable hfirst hname
      have hrest := hvariable.trans ((hvariable.fed hfed).took_sign hrun hcomma rfl)
      have hboth := hrest.trans ((hrest.fed hfed).took_variable hsecond hname')
      refine ⟨_, hboth.trans (hsign (hboth.fed hfed) hrun' hkind), .inl ?_⟩
      cases isAssign <;> rfl

/-! ## Operands -/

/-- A term with names after it is printed with them. -/
theorem Gains.operandPieces {fields : List Token} {term node : Node} (h : Gains fields term node)
    (hterm : ∀ v, term = .variable v → v.path ≠ []) :
    node.operandPieces = term.operandPieces ++ (fields.filterMap fieldName?).map fieldPiece := by
  cases h with
  | field => rw [Node.operandPieces, Node.operandPieces, List.map_append]
  | «variable» =>
      obtain ⟨name, path, hpath⟩ := List.exists_cons_of_ne_nil (hterm _ rfl)
      simp [Node.operandPieces, Variable.pieces, hpath]
  | chain => rw [Node.operandPieces]

theorem lexemes_fields {fields : List Token}
    (h : ∀ token ∈ fields, token.IsLexed ∧ isField token.kind = true) :
    lexemes fields = (fields.filterMap fieldName?).map fieldPiece := by
  induction fields with
  | nil => rfl
  | cons token fields ih =>
      obtain ⟨hlexed, hfield⟩ := h token List.mem_cons_self
      obtain ⟨name, hname⟩ := exists_fieldName hfield
      have hspelling : token.kind.spelling? = some ("." ++ name) := by
        rw [hname]
        rfl
      have hpiece : token.piece = fieldPiece name := by
        rw [hlexed.piece_of_spelling hspelling, hname, fieldPiece]
      have hrest := ih fun other hother => h other (List.mem_cons_of_mem _ hother)
      rw [lexemes, List.map_cons, bare_cons (by simp [hpiece, fieldPiece]), ← lexemes, hrest,
        List.filterMap_cons_some (b := name) (by rw [fieldName?, hname]), List.map_cons, hpiece]

theorem writes_fields (path : List String) :
    Writes (path.map fieldPiece) (path.map fieldPiece) := by
  have hkind : ∀ piece ∈ path.map fieldPiece, ∃ name, piece.1 = .field name := by
    intro piece hpiece
    obtain ⟨name, _, rfl⟩ := List.mem_map.mp hpiece
    exact ⟨name, rfl⟩
  constructor
  · rw [bare_fields, withoutIdleBars_eq_self]
    intro piece hpiece
    obtain ⟨name, hname⟩ := hkind piece hpiece
    simp [hname]
  · intro piece hpiece
    obtain ⟨name, hname⟩ := hkind piece (List.mem_of_mem_head? hpiece)
    rw [hname]
    rfl
  · intro piece hpiece
    obtain ⟨name, hname⟩ := hkind piece (List.mem_of_getLast? hpiece)
    simp [hname]

/-- The names after a term are taken as they are printed. -/
theorem Fed.took_pass {c : Cursor} (h : Fed c.tokens) :
    Took c.tokens (c.pass isField).2.tokens
      (((c.pass isField).1.filterMap fieldName?).map fieldPiece) := by
  obtain ⟨hsplit, hfields⟩ := c.tokens_pass isField
  have hlexed : ∀ token ∈ (c.pass isField).1, token.IsLexed ∧ isField token.kind = true := by
    intro token htoken
    refine ⟨h.lexed token ?_, hfields token htoken⟩
    rw [hsplit]
    exact List.mem_append_left _ htoken
  refine ⟨(c.pass isField).1, hsplit, ?_, lexemes_fields hlexed⟩
  intro token htoken hkind
  have hfield := hfields token htoken
  rw [hkind] at hfield
  cases hfield

/-- A term of one token is printed as the token is written. -/
theorem Token.Denotes.operandPieces {token : Token} {node : Node} (h : token.Denotes node)
    (hlexed : token.IsLexed) : node.operandPieces = [token.piece] := by
  have hspelled : ∀ {kind : TokenKind} {text : String}, token.kind = kind →
      kind.spelling? = some text → token.piece = (kind, text) := by
    rintro _ text rfl hspelling
    exact hlexed.piece_of_spelling hspelling
  cases h with
  | identifier hkind | dot hkind | nil hkind | «variable» hkind | field hkind | bool hkind =>
      rw [hspelled hkind rfl]
      rfl
  | character hkind hvalue =>
      rw [Node.operandPieces, Number.ofCharacter_text hvalue, hlexed.piece_of_number (.inr hkind)]
  | number hkind hvalue =>
      rw [Node.operandPieces, Number.ofText_text hvalue, hlexed.piece_of_number (.inl hkind)]
  | string hkind => rw [Node.operandPieces, hlexed.piece_of_string hkind]

/-! ## Commands -/

theorem bare_operandsPieces_cons (operand : Node) (operands : List Node) :
    bare (operandsPieces (operand :: operands)) =
      bare operand.operandPieces ++ bare (operandsPieces operands) := by
  rw [operandsPieces, bare_append, bare_append]
  cases operands with
  | nil => simp
  | cons next operands => simp

/-- What was written for the operands of a command. -/
structure WritesOperands (written : List Piece) (operands : List Node) : Prop
    extends Writes written (operandsPieces operands) where
  eq_nil_iff : written = [] ↔ operands = []

/-- What was written for the commands of a pipeline; a bar may come last. -/
structure WritesCommands (written : List Piece) (commands : List (Command Node)) : Prop where
  eq : withoutIdleBars written = bare (commandsPieces commands)
  head : ∀ piece ∈ written.head?, startsOperand piece.1 = true
  eq_nil_iff : written = [] ↔ commands = []

section Commands

variable {written written' : List Piece} {operand : Node} {operands : List Node}
  {commands : List (Command Node)} {span : Span}

theorem WritesOperands.nil : WritesOperands [] [] := ⟨.nil, by simp⟩

theorem writesOperands_singleton :
    WritesOperands written [operand] ↔ Writes written operand.operandPieces ∧ written ≠ [] := by
  have hpieces : bare (operandsPieces [operand]) = bare operand.operandPieces := by
    rw [bare_operandsPieces_cons]
    simp [operandsPieces]
  constructor
  · intro h
    exact ⟨⟨h.eq.trans hpieces, h.head, h.last⟩, by simp [h.eq_nil_iff]⟩
  · rintro ⟨h, hne⟩
    exact ⟨⟨h.eq.trans hpieces.symm, h.head, h.last⟩, by simp [hne]⟩

theorem WritesOperands.append {operands' : List Node} (h : WritesOperands written operands)
    (h' : WritesOperands written' operands') :
    WritesOperands (written ++ written') (operands ++ operands') := by
  have hpieces : bare (operandsPieces (operands ++ operands')) =
      bare (operandsPieces operands ++ operandsPieces operands') := by
    rw [bare_append]
    clear h
    induction operands with
    | nil => simp [operandsPieces]
    | cons operand operands ih =>
        rw [List.cons_append, bare_operandsPieces_cons, ih, bare_operandsPieces_cons,
          List.append_assoc]
  have hwrites := h.toWrites.append h'.toWrites
  refine ⟨⟨?_, hwrites.head, hwrites.last⟩, ?_⟩
  · rw [hwrites.eq, hpieces]
  · rw [List.append_eq_nil_iff, List.append_eq_nil_iff, h.eq_nil_iff, h'.eq_nil_iff]

theorem WritesCommands.nil : WritesCommands [] [] := ⟨rfl, by simp, by simp⟩

/-- A command at the end of a pipeline. -/
theorem WritesCommands.last (h : WritesOperands written operands) (hne : operands ≠ []) :
    WritesCommands written [⟨span, operands⟩] := by
  refine ⟨?_, h.head, ?_⟩
  · rw [h.eq]
    simp [commandsPieces, Command.pieces]
  · simpa [h.eq_nil_iff] using hne

/-- A command with a bar after it.  The bar is idle if no command follows. -/
theorem WritesCommands.cons (h : WritesOperands written operands) (hne : operands ≠ [])
    (h' : WritesCommands written' commands) :
    WritesCommands (written ++ (.pipe, "|") :: written') (⟨span, operands⟩ :: commands) := by
  have hwritten : written ≠ [] := fun hnil => hne (h.eq_nil_iff.mp hnil)
  refine ⟨?_, ?_, by simp⟩
  · rw [withoutIdleBars_append h.last, h.eq, commandsPieces, bare_append, bare_append,
      Command.pieces]
    cases commands with
    | nil =>
        rw [h'.eq_nil_iff.mpr rfl]
        simp [withoutIdleBars, commandsPieces]
    | cons command commands =>
        have hnext : written' ≠ [] := fun hnil => by
          cases h'.eq_nil_iff.mp hnil
        obtain ⟨next, later, rfl⟩ := List.exists_cons_of_ne_nil hnext
        have hstarts := h'.head next rfl
        have hkind : next.1 ≠ .rightParen := by
          intro hkind
          rw [hkind] at hstarts
          cases hstarts
        rw [withoutIdleBars_bar ⟨next, rfl, hkind⟩, h'.eq, List.append_assoc]
        rfl
  · intro piece hpiece
    obtain ⟨first, later, rfl⟩ := List.exists_cons_of_ne_nil hwritten
    exact h.head piece hpiece

end Commands

/-! ## Pipelines -/

theorem declaredPieces_ne_pipe (isAssign : Bool) (declared : List Variable) :
    ∀ piece ∈ declaredPieces isAssign declared, piece.1 ≠ .pipe := by
  have hvariable : ∀ (v : Variable), ∀ piece ∈ v.pieces, piece.1 ≠ .pipe := by
    rintro ⟨span, path⟩ piece hpiece
    cases path with
    | nil => cases hpiece
    | cons name path =>
        rcases List.mem_cons.mp hpiece with rfl | hpiece
        · simp
        · obtain ⟨field, _, rfl⟩ := List.mem_map.mp hpiece
          simp [fieldPiece]
  have hsign : (signPiece isAssign).1 ≠ .pipe := by
    cases isAssign <;> simp [signPiece]
  fun_induction declaredPieces isAssign declared with
  | case1 => simp
  | case2 v =>
      intro piece hpiece
      simp only [List.mem_append, List.mem_cons, List.not_mem_nil, or_false] at hpiece
      rcases hpiece with hpiece | rfl | rfl | rfl
      · exact hvariable v piece hpiece
      · simp [spacePiece]
      · exact hsign
      · simp [spacePiece]
  | case3 v declared hne ih =>
      intro piece hpiece
      simp only [List.mem_append, List.mem_cons] at hpiece
      rcases hpiece with hpiece | rfl | rfl | hpiece
      · exact hvariable v piece hpiece
      · simp
      · simp [spacePiece]
      · exact ih piece hpiece

theorem withoutIdleBars_declared (isAssign : Bool) (declared : List Variable)
    (written : List Piece) :
    withoutIdleBars (bare (declaredPieces isAssign declared) ++ written) =
      bare (declaredPieces isAssign declared) ++ withoutIdleBars written := by
  have hpipe : ∀ piece ∈ bare (declaredPieces isAssign declared), piece.1 ≠ .pipe := by
    intro piece hpiece
    exact declaredPieces_ne_pipe isAssign declared piece (List.mem_filter.mp hpiece).1
  rw [withoutIdleBars_append, withoutIdleBars_eq_self hpipe]
  intro piece hpiece
  exact hpipe piece (List.mem_of_getLast? hpiece)

/-! ## Derivations -/

/-- The tokens that are taken for a pipeline: they start with its first token, and apart from idle
bars they are printed again. -/
def ReadsPipeline (closer : TokenKind) (tokens : List Token) (pipe : Pipe Node)
    (rest : List Token) : Prop :=
  ∃ first later written closing, Reaches tokens first later ∧
    first.span.start = pipe.span.start ∧ Took (first :: later) (closing :: rest) written ∧
    closing.kind = closer ∧ withoutIdleBars written = bare pipe.pieces ∧ written ≠ []

/-- The tokens that are taken for commands, up to what closes their pipeline. -/
def ReadsCommands (closer : TokenKind) (tokens : List Token) (commands : List (Command Node))
    (rest : List Token) : Prop :=
  ∃ written closing, Took tokens (closing :: rest) written ∧ closing.kind = closer ∧
    WritesCommands written commands

/-- The tokens that are taken for operands.  A bar after them is taken as well; otherwise they come
last in their pipeline. -/
def ReadsOperands (tokens : List Token) (operands : List Node) (rest : List Token) : Prop :=
  ∃ written, WritesOperands written operands ∧
    (Took tokens rest written ∧ AtCloser rest ∨ Took tokens rest (written ++ [(.pipe, "|")]))

/-- The tokens that are taken for an operand, if there is one. -/
def ReadsOperand (tokens : List Token) (operand : Option Node) (rest : List Token) : Prop :=
  ∃ written, WritesOperands written operand.toList ∧ Took tokens rest written

/-- The tokens from which a phrase is read. -/
def PipePhrase.ReadsTokens (tokens rest : List Token) : PipePhrase → Prop
  | .pipeline _ closer found => ReadsPipeline closer tokens found rest
  | .commands closer found => ReadsCommands closer tokens found rest
  | .operands found => ReadsOperands tokens found rest
  | .operand found | .term found => ReadsOperand tokens found rest

section Derived

variable {source : List Token} {phrase : PipePhrase} {c c' : Cursor}

theorem ReadsPipeline.of_commands {clause : Clause} {closer : TokenKind} {first : Token}
    {isAssign : Bool} {declared : List Variable} {commands : List (Command Node)} {c₁ c₂ : Cursor}
    (hfed : Fed c.tokens) (hpeek : peekNonSpace c = .ok (first, c₁))
    (hdeclared : Declares clause c₁ isAssign declared c₂) (hne : commands ≠ [])
    (h : ReadsCommands closer c₂.tokens commands c'.tokens) :
    ReadsPipeline closer c.tokens
      ⟨pipeSpan first.span.start commands, isAssign, declared, commands⟩ c'.tokens := by
  obtain ⟨htokens, hreaches⟩ := hfed.enclosed.peek_reaches hpeek
  obtain ⟨written, htook, hdeclared⟩ := hdeclared.took ((hfed.took_peek hpeek).fed hfed)
  obtain ⟨written', closing, htook', hclosing, hcommands⟩ := h
  have hwritten : written' ≠ [] := fun hnil => hne (hcommands.eq_nil_iff.mp hnil)
  refine ⟨first, c₁.later, _, closing, hreaches, rfl, htokens ▸ htook.trans htook', hclosing, ?_,
    List.append_ne_nil_of_right_ne_nil _ hwritten⟩
  rcases hdeclared with rfl | hcloser
  · rw [withoutIdleBars_declared, hcommands.eq, Pipe.pieces, bare_append]
  · -- At the end of a pipeline no command can be read any more.
    exact absurd (htook'.eq_nil_of_atCloser hcloser hcommands.head) hwritten

theorem ReadsCommands.of_command {closer : TokenKind} {span : Span} {operands : List Node}
    {commands : List (Command Node)} {tokens first middle rest : List Token}
    (hspaces : Took tokens first []) (hne : operands ≠ []) (h : ReadsOperands first operands middle)
    (h' : ReadsCommands closer middle commands rest) :
    ReadsCommands closer tokens (⟨span, operands⟩ :: commands) rest := by
  obtain ⟨written, hoperands, hmiddle⟩ := h
  obtain ⟨written', closing, hrest, hclosing, hcommands⟩ := h'
  rcases hmiddle with ⟨hmiddle, hcloser⟩ | hmiddle
  · -- Without a bar nothing but the end of the pipeline is left.
    obtain rfl := hrest.eq_nil_of_atCloser hcloser hcommands.head
    obtain rfl := hcommands.eq_nil_iff.mp rfl
    refine ⟨written, closing, ?_, hclosing, .last hoperands hne⟩
    simpa using (hspaces.trans hmiddle).trans hrest
  · refine ⟨_, closing, ?_, hclosing, .cons hoperands hne hcommands⟩
    simpa using (hspaces.trans hmiddle).trans hrest

theorem ReadsOperands.of_more {operand : Option Node} {operands : List Node}
    {tokens middle rest : List Token} (h : ReadsOperand tokens operand middle)
    (h' : ReadsOperands middle operands rest) :
    ReadsOperands tokens (operand.toList ++ operands) rest := by
  obtain ⟨written, hoperand, hmiddle⟩ := h
  obtain ⟨written', hoperands, hrest⟩ := h'
  refine ⟨written ++ written', hoperand.append hoperands, ?_⟩
  rcases hrest with ⟨hrest, hcloser⟩ | hrest
  · exact .inl ⟨hmiddle.trans hrest, hcloser⟩
  · right
    rw [List.append_assoc]
    exact hmiddle.trans hrest

/-- A space before what is read is of no account. -/
theorem ReadsOperands.of_space {operands : List Node} {token : Token} {tokens rest : List Token}
    (h : ReadsOperands tokens operands rest) (hkind : token.kind = .space) :
    ReadsOperands (token :: tokens) operands rest := by
  have hspace : Took ([token] ++ tokens) tokens [] := Took.spaces (by simp [hkind])
  obtain ⟨written, hoperands, hrest⟩ := h
  refine ⟨written, hoperands, ?_⟩
  exact hrest.imp (fun hrest => ⟨hspace.trans hrest.1, hrest.2⟩) hspace.trans

theorem ReadsOperand.of_atom {token : Token} {node : Node} (hfed : Fed c.tokens)
    (hnext : nextNonSpace c = .ok (token, c')) (h : token.Denotes node) :
    ReadsOperand c.tokens (some node) c'.tokens := by
  have hspace : token.kind ≠ .space := TokenKind.ne_of_class h.startsOperand rfl
  have hdelim : token.kind ≠ .rightDelim := TokenKind.ne_of_class h.startsOperand rfl
  have hwrites : Writes [token.piece] node.operandPieces := by
    rw [h.operandPieces (hfed.lexed_next hnext)]
    exact .single hspace h.startsOperand
  exact ⟨_, writesOperands_singleton.mpr ⟨hwrites, by simp⟩, hfed.took_next hnext hdelim⟩

theorem ReadsOperand.of_paren {token : Token} {pipe : Pipe Node} {span : Span} {c₁ : Cursor}
    (hfed : Fed c.tokens) (hnext : nextNonSpace c = .ok (token, c₁))
    (hkind : token.kind = .leftParen)
    (h : ReadsPipeline .rightParen c₁.tokens pipe c'.tokens) :
    ReadsOperand c.tokens (some (.pipe { pipe with span })) c'.tokens := by
  obtain ⟨_, isAssign, declared, commands⟩ := pipe
  obtain ⟨first, later, written, closing, hfirst, -, hwritten, hclosing, hpipe, -⟩ := h
  have hopening := hfed.took_sign hnext hkind rfl
  have hinner := (hopening.trans (.of_reaches hfirst)).trans hwritten
  have hlexed := (hinner.fed hfed).lexed closing List.mem_cons_self
  have hclosed := hinner.trans (.sign hlexed hclosing rfl)
  simp only [List.nil_append, List.append_nil, List.cons_append] at hclosed
  refine ⟨_, writesOperands_singleton.mpr ⟨?_, by simp⟩, hclosed⟩
  rw [Pipe.pieces] at hpipe
  rw [Node.operandPieces, Pipe.pieces]
  exact .paren hpipe

/-- Whatever is read is printed as it is written, spaces and idle bars aside. -/
theorem DerivesPipe.readsTokens (hlexed : ∀ token ∈ source, token.IsLexed)
    (h : DerivesPipe source phrase c c') : phrase.ReadsTokens c.tokens c'.tokens := by
  have hfed : ∀ {c : Cursor}, Enclosed source c → Fed c.tokens := fun hin =>
    ⟨hin.closes, fun token htoken => hlexed token (hin.suffix.subset htoken)⟩
  induction h with
  | pipeline hin hpeek hdeclared _ hne _ ih => exact .of_commands (hfed hin) hpeek hdeclared hne ih
  | closed hin hnext hkind =>
      exact ⟨[], _, .of_reaches (hin.reaches hnext), hkind, .nil⟩
  | command hin hnext _ _ hfirst _ _ hoperands hcommands =>
      refine .of_command (.of_reaches (hin.reaches hnext)) ?_ hoperands hcommands
      rintro rfl
      cases hfirst
  | more hread hkind _ hoperand hoperands =>
      refine .of_more hoperand ?_
      rw [hread.enclosed_operand.tokens_eq]
      exact hoperands.of_space hkind
  | last hread hkind hoperand =>
      obtain ⟨written, hwrites, htook⟩ := hoperand
      refine ⟨written, hwrites, .inl ?_⟩
      rw [hread.enclosed_operand.tokens_restore]
      exact ⟨htook, _, _, rfl, hkind⟩
  | bar hread hkind hoperand =>
      obtain ⟨written, hwrites, htook⟩ := hoperand
      have hin := hread.enclosed_operand
      rw [hin.tokens_eq] at htook
      exact ⟨written, hwrites, .inr (htook.trans (.sign (hlexed _ hin.current_mem) hkind rfl))⟩
  | absent _ ih | plain _ ih => exact ih
  | fields hread _ hgains ih =>
      obtain ⟨written, hterm, htook⟩ := ih
      obtain ⟨hwrites, hne⟩ := writesOperands_singleton.mp hterm
      refine ⟨_, writesOperands_singleton.mpr ⟨?_, by simp [hne]⟩,
        htook.trans (hfed hread.enclosed_term).took_pass⟩
      rw [hgains.operandPieces hread.path_ne]
      exact hwrites.append (writes_fields _)
  | atom hin hnext hdenotes => exact .of_atom (hfed hin) hnext hdenotes
  | paren hin hnext hkind _ ih => exact .of_paren (hfed hin) hnext hkind ih
  | empty hin hnext => exact ⟨[], .nil, .of_reaches (hin.reaches hnext)⟩

end Derived

end TemplateTyping
