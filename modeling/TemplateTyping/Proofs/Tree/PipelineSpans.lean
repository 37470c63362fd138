import TemplateTyping.Proofs.Tree.Placement
import TemplateTyping.Proofs.Tree.Pieces
import TemplateTyping.Proofs.Tree.PipelineDerivation

/-!
# Spans of pipelines

A reader makes spans from the tokens it takes, from tokens it only looks at, and from
the end of the token taken last.  The last of these goes wrong if a token is put back
in between, so it has to be known which token was taken last whenever its end is asked
for.  This is known of a cursor that stands right behind a token; otherwise it suffices to
know that a cursor stands at an offset or behind it.

What is derived from such a cursor is placed, and whatever fault is reported of a pipeline
lies in the source.
-/

namespace TemplateTyping

open Lexer

/-! ## Tokens in a line -/

/-- The token stands in the source, where the lexer has cut it. -/
structure Token.IsPlaced (source : String) (token : Token) : Prop where
  stands : token.StandsIn source
  lexed : token.IsLexed
  text : ∀ content, token.kind = .text content → token.text = content
  lt : token.kind ≠ .eof → token.span.start < token.span.stop

/-- Tokens that follow one another in the source, up to the mark of its end.  Inside of
an action nothing is left out between them. -/
inductive Lined (source : String) : List Token → Prop
  | eof {token : Token} : token.IsPlaced source → token.span.stop ≤ token.span.start →
      Lined source [token]
  | cons {token next : Token} {tokens : List Token} : token.IsPlaced source →
      token.span.stop ≤ next.span.start →
      (token.kind.IsInner → next.kind.IsInner → token.span.stop = next.span.start) →
      Lined source (next :: tokens) → Lined source (token :: next :: tokens)

namespace Token.IsPlaced

variable {source : String} {token : Token}

theorem shows (h : token.IsPlaced source) : token.span.Shows source token.text := h.stands

theorem liesIn (h : token.IsPlaced source) : token.span.LiesIn source := h.shows.liesIn

theorem ordered (h : token.IsPlaced source) : token.span.start ≤ token.span.stop :=
  h.liesIn.ordered

end Token.IsPlaced

theorem TokenKind.IsInner.ne_eof {kind : TokenKind} (h : kind.IsInner) : kind ≠ .eof := by
  rintro rfl
  exact h

/-- What comes first in a layout, and the gap before it. -/
theorem Laid.head
    {d : Delimiters} {previous : Option Token} {offset : Nat} {text : List Char}
    {tokens : List Token} (h : Laid d previous offset text tokens) :
    ∃ first rest gap, tokens = first :: rest ∧ Seam d previous gap first ∧
      first.span.start = offset + textBytes gap := by
  cases h with
  | eof hseam htoken => exact ⟨_, _, _, rfl, hseam, by rw [htoken]⟩
  | cons hseam hcovers _ => exact ⟨_, _, _, rfl, hseam, by rw [hcovers.span_eq]⟩

/-- There is no gap inside of an action. -/
theorem Seam.eq_nil
    {d : Delimiters} {token next : Token} {gap : List Char}
    (h : Seam d (some token) gap next) (htoken : token.kind.IsInner)
    (hnext : next.kind.IsInner) : gap = [] := by
  apply Decidable.byContradiction
  intro hne
  rcases h.trimmed hne with ⟨_, ⟨⟩, hkind | ⟨content, hkind⟩, _⟩ | ⟨hkind | ⟨content, hkind⟩, _⟩
  · rw [hkind] at htoken
    exact htoken
  · rw [hkind] at htoken
    exact htoken
  · rw [hkind] at hnext
    exact hnext
  · rw [hkind] at hnext
    exact hnext

/-- Tokens that are laid out over the source stand in a line. -/
theorem Laid.lined
    {d : Delimiters} {previous : Option Token} {offset : Nat} {text : List Char}
    {tokens : List Token} (h : Laid d previous offset text tokens)
    {source : String} {done : List Char} (hsource : source.toList = done ++ text)
    (hoffset : textBytes done = offset) : Lined source tokens := by
  induction h generalizing done with
  | @eof previous offset gap token hseam htoken =>
      have hstands := (Laid.eof hseam htoken).stands hsource hoffset token (by simp)
      subst htoken
      exact .eof ⟨hstands, trivial, by simp, by simp⟩ (Nat.le_refl _)
  | @cons previous offset gap rest token tokens hseam hcovers hlaid ih =>
      have hstands := (Laid.cons hseam hcovers hlaid).stands hsource hoffset token (by simp)
      have hplaced : token.IsPlaced source := by
        refine ⟨hstands, hcovers.lexed, ?_, ?_⟩
        · intro content hkind
          have hcarries := hcovers.carries
          rwa [Token.Carries, hkind] at hcarries
        · intro _
          rw [hcovers.span_eq]
          exact Nat.lt_add_of_pos_right (textBytes_pos hcovers.ne_nil)
      have hrest : Lined source tokens := by
        apply @ih (done ++ gap ++ token.text.toList)
        · simpa using hsource
        · rw [textBytes_append, textBytes_append, hoffset, hcovers.span_eq]
      obtain ⟨first, later, gap', rfl, hseam', hstart⟩ := hlaid.head
      refine .cons hplaced ?_ ?_ hrest
      · rw [hstart]
        exact Nat.le_add_right _ _
      · intro htoken hfirst
        rw [hstart, hseam'.eq_nil htoken hfirst]
        rfl

/-! ## Cursors -/

namespace Cursor

/-- The cursor stands at an offset or behind it. -/
structure At (source : String) (low : Nat) (c : Cursor) : Prop where
  lined : Lined source c.tokens
  low_le : low ≤ c.current.span.start

/-- The cursor stands right behind a token that starts at an offset or behind it. -/
def Behind (source : String) (low : Nat) (token : Token) (c : Cursor) : Prop :=
  ∃ before : Cursor, before.At source low ∧ before.current = token ∧ c = before.step

/-- The cursor stands right behind a token that ends at an offset or behind it. -/
def Past (source : String) (low stop : Nat) (c : Cursor) : Prop :=
  ∃ token, c.Behind source low token ∧ token.kind ≠ .eof ∧ stop ≤ token.span.stop

variable {source : String} {low low' stop : Nat} {c : Cursor} {token : Token}

theorem At.current (h : c.At source low) : c.current.IsPlaced source := by
  obtain ⟨current, later, lastEnd⟩ := c
  cases h.lined with
  | eof hplaced => exact hplaced
  | cons hplaced => exact hplaced

theorem At.mono (h : c.At source low) (hle : low' ≤ low) : c.At source low' :=
  ⟨h.lined, Nat.le_trans hle h.low_le⟩

theorem At.behind (h : c.At source low) : c.step.Behind source low c.current :=
  ⟨c, h, rfl, rfl⟩

namespace Behind

theorem placed (h : c.Behind source low token) : token.IsPlaced source := by
  obtain ⟨before, hbefore, rfl, _⟩ := h
  exact hbefore.current

theorem low_le (h : c.Behind source low token) : low ≤ token.span.start := by
  obtain ⟨before, hbefore, rfl, _⟩ := h
  exact hbefore.low_le

theorem mono (h : c.Behind source low token) (hle : low' ≤ low) :
    c.Behind source low' token := by
  obtain ⟨before, hbefore, hcurrent, hc⟩ := h
  exact ⟨before, hbefore.mono hle, hcurrent, hc⟩

theorem lastEnd_eq (h : c.Behind source low token) : c.lastEnd = token.span.stop := by
  obtain ⟨⟨current, later, lastEnd⟩, _, rfl, rfl⟩ := h
  cases later with
  | nil => rfl
  | cons next later => rfl

/-- What comes next does not start before the end of the token. -/
theorem at_stop (h : c.Behind source low token) : c.At source token.span.stop := by
  obtain ⟨⟨current, later, lastEnd⟩, hbefore, rfl, rfl⟩ := h
  cases hbefore.lined with
  | eof hplaced hend => exact ⟨.eof hplaced hend, hend⟩
  | cons hplaced hle _ hlined => exact ⟨hlined, hle⟩

theorem low_le_stop (h : c.Behind source low token) : low ≤ token.span.stop :=
  Nat.le_trans h.low_le h.placed.ordered

theorem at_low (h : c.Behind source low token) : c.At source low :=
  h.at_stop.mono h.low_le_stop

/-- Inside of an action it starts right there. -/
theorem abuts
    (h : c.Behind source low token) (htoken : token.kind.IsInner)
    (hnext : c.current.kind.IsInner) : token.span.stop = c.current.span.start := by
  obtain ⟨⟨current, later, lastEnd⟩, hbefore, rfl, rfl⟩ := h
  cases hbefore.lined with
  | eof hplaced hend =>
      have hlt := hplaced.lt htoken.ne_eof
      exact absurd hend (Nat.not_le_of_lt hlt)
  | cons _ _ hinner _ => exact hinner htoken hnext

/-- A token that was put back comes next. -/
theorem restore (h : c.Behind source low token) (hkind : token.kind ≠ .eof) :
    (c.restore token).At source low := by
  obtain ⟨⟨current, later, lastEnd⟩, hbefore, rfl, rfl⟩ := h
  cases hbefore.lined with
  | eof hplaced hend =>
      have hlt := hplaced.lt hkind
      exact absurd hend (Nat.not_le_of_lt hlt)
  | cons hplaced hle hinner hlined => exact ⟨.cons hplaced hle hinner hlined, hbefore.low_le⟩

theorem past (h : c.Behind source low token) (hkind : token.kind ≠ .eof) :
    c.Past source low token.span.stop :=
  ⟨token, h, hkind, Nat.le_refl _⟩

end Behind

namespace Past

theorem at_stop (h : c.Past source low stop) : c.At source stop := by
  obtain ⟨token, hbehind, _, hstop⟩ := h
  exact hbehind.at_stop.mono hstop

theorem mono (h : c.Past source low stop) {stop' : Nat} (hle : low' ≤ low)
    (hstop : stop' ≤ stop) : c.Past source low' stop' := by
  obtain ⟨token, hbehind, hkind, hle'⟩ := h
  exact ⟨token, hbehind.mono hle, hkind, Nat.le_trans hstop hle'⟩

theorem stop_le (h : c.Past source low stop) : stop ≤ c.lastEnd := by
  obtain ⟨token, hbehind, _, hstop⟩ := h
  rw [hbehind.lastEnd_eq]
  exact hstop

theorem low_lt (h : c.Past source low stop) : low < c.lastEnd := by
  obtain ⟨token, hbehind, hkind, _⟩ := h
  rw [hbehind.lastEnd_eq]
  exact Nat.lt_of_le_of_lt hbehind.low_le (hbehind.placed.lt hkind)

theorem lastEnd (h : c.Past source low stop) : c.Past source low c.lastEnd := by
  obtain ⟨token, hbehind, hkind, _⟩ := h
  exact ⟨token, hbehind, hkind, Nat.le_of_eq hbehind.lastEnd_eq⟩

/-- A span that starts before the token may end with it. -/
theorem liesIn
    (h : c.Past source low stop) {start : Nat}
    (hstart : String.Pos.Raw.IsValid source ⟨start⟩) (hle : start ≤ low) :
    Span.LiesIn source ⟨start, c.lastEnd⟩ := by
  have hlt := h.low_lt
  obtain ⟨token, hbehind, _, _⟩ := h
  refine .of_valid (Nat.le_trans hle (Nat.le_of_lt hlt)) hstart ?_
  rw [hbehind.lastEnd_eq]
  exact hbehind.placed.liesIn.validStop

end Past

/-- What every token that is passed over preserves holds after passing. -/
theorem pass_induct
    {P : Cursor → Prop} {p : TokenKind → Bool}
    (hstep : ∀ c, p c.current.kind = true → P c → P c.step) (h : P c) :
    P (c.pass p).2 := by
  obtain ⟨current, later, lastEnd⟩ := c
  induction later generalizing current lastEnd with
  | nil => exact h
  | cons next later ih =>
      rw [pass, passFrom]
      split
      · rename_i hcurrent
        exact ih next current.span.stop (hstep _ hcurrent h)
      · exact h

theorem At.pass (h : c.At source low) (p : TokenKind → Bool) :
    (c.pass p).2.At source low := by
  refine pass_induct ?_ h
  intro c _ hc
  exact hc.behind.at_low

theorem Past.pass
    (h : c.Past source low stop) {p : TokenKind → Bool} (hp : p .eof = false) :
    (c.pass p).2.Past source low stop := by
  refine pass_induct ?_ h
  intro c hkind hc
  have hat := hc.at_stop
  have hlow : c.At source low := by
    obtain ⟨token, hbehind, _, _⟩ := hc
    exact hbehind.at_low
  refine ⟨c.current, hlow.behind, ?_, Nat.le_trans hat.low_le hat.current.ordered⟩
  intro heof
  rw [heof, hp] at hkind
  cases hkind

/-- The next token that is no space is taken, or only looked at. -/
theorem At.next (h : c.At source low) {c' : Cursor}
    (hnext : TokenReader.nextNonSpace c = .ok (token, c')) : c'.Behind source low token := by
  cases hnext
  exact (h.pass _).behind

theorem At.peek (h : c.At source low) {c' : Cursor}
    (hpeek : TokenReader.peekNonSpace c = .ok (token, c')) :
    token = c'.current ∧ c'.At source low := by
  cases hpeek
  exact ⟨rfl, h.pass _⟩

end Cursor

namespace Lined

variable {text : String} {source tokens : List Token} {token next : Token}

/-- What comes later is in a line as well, and it does not start earlier. -/
theorem suffix
    (h : Lined text (token :: source)) (hsuffix : next :: tokens <:+ token :: source) :
    Lined text (next :: tokens) ∧ token.span.start ≤ next.span.start := by
  induction source generalizing token with
  | nil =>
      rcases List.suffix_cons_iff.mp hsuffix with heq | hnil
      · cases heq
        exact ⟨h, Nat.le_refl _⟩
      · cases List.suffix_nil.mp hnil
  | cons second source ih =>
      rcases List.suffix_cons_iff.mp hsuffix with heq | hlater
      · cases heq
        exact ⟨h, Nat.le_refl _⟩
      · cases h with
        | cons hplaced hle _ hlined =>
            obtain ⟨hnext, hstart⟩ := ih hlined hlater
            exact ⟨hnext, Nat.le_trans hplaced.ordered (Nat.le_trans hle hstart)⟩

/-- A cursor over some of the tokens stands at its own token. -/
theorem at_current (h : Lined text source) {c : Cursor} (hsuffix : c.tokens <:+ source) :
    c.At text c.current.span.start := by
  cases source with
  | nil => cases List.suffix_nil.mp hsuffix
  | cons first source => exact ⟨(h.suffix hsuffix).1, Nat.le_refl _⟩

theorem mem (h : Lined text source) (htoken : token ∈ source) : token.IsPlaced text := by
  obtain ⟨before, after, rfl⟩ := List.append_of_mem htoken
  let c : Cursor := ⟨token, after, 0⟩
  have hat : c.At text c.current.span.start := h.at_current (List.suffix_append before _)
  exact hat.current

end Lined

/-! ## Spelling -/

/-- The source text of a token, if its kind tells it. -/
def TokenKind.spelling? : TokenKind → Option String
  | .identifier name | .variable name => some name
  | .field name => some ("." ++ name)
  | .dot => some "."
  | .keyword written => some written.word
  | .bool value => some (if value then "true" else "false")
  | _ => none

theorem TokenKind.isInner_of_spelling?
    {kind : TokenKind} {text : String} (h : kind.spelling? = some text) : kind.IsInner := by
  cases kind with
  | text content => cases h
  | comment content => cases h
  | leftDelim => cases h
  | rightDelim => cases h
  | eof => cases h
  | _ => trivial

/-- A word is spelled as it stands. -/
theorem TokenKind.spelling?_ofWord (word : String) : (ofWord word).spelling? = some word := by
  have hword := word?_ofWord word
  generalize ofWord word = kind at hword
  cases kind with
  | identifier | bool | keyword => exact hword
  | _ => cases hword

/-- A token is spelled as its kind tells. -/
theorem Token.IsLexed.text_eq
    {token : Token} {text : String} (h : token.IsLexed)
    (hspelling : token.kind.spelling? = some text) : token.text = text := by
  have hlexeme := (h.lexeme (TokenKind.isInner_of_spelling? hspelling)).1
  rw [← String.toList_inj]
  generalize token.text.toList = written at hlexeme
  generalize token.kind = kind at hspelling hlexeme
  cases hlexeme with
  | dot =>
      obtain rfl := Option.some.inj hspelling
      rfl
  | «variable» =>
      obtain rfl := Option.some.inj hspelling
      simp
  | field =>
      obtain rfl := Option.some.inj hspelling
      simp
  | word =>
      rw [TokenKind.spelling?_ofWord] at hspelling
      obtain rfl := Option.some.inj hspelling
      simp
  | _ => cases hspelling

/-! ## Declarations -/

open TokenReader

variable {source : String} {low : Nat} {c c' : Cursor}

theorem declaredVariable_isPlaced
    {token : Token} {name : String} (h : token.IsPlaced source)
    (hkind : token.kind = .variable name) :
    (Node.variable (declaredVariable token name)).IsPlaced source := by
  have htext : token.text = name := h.lexed.text_eq (by rw [hkind]; rfl)
  have hprint : (Node.variable (declaredVariable token name)).print = token.text := by
    simp [Node.print, Variable.print, declaredVariable, htext]
  refine .of_shows rfl trivial ?_
  rw [hprint]
  exact h.shows

/-- The variables that a pipeline sets are placed, and reading goes on behind them. -/
theorem Declares.isPlaced
    {clause : Clause} {isAssign : Bool} {declared : List Variable}
    (h : Declares clause c isAssign declared c') (hat : c.At source low) :
    ∃ high, low ≤ high ∧ AreDeclaredIn source low high declared ∧ c'.At source high := by
  have hone : ∀ {first name} {c₁ : Cursor}, c₁.Behind source low first →
      first.kind = .variable name →
        AreDeclaredIn source low first.span.stop [declaredVariable first name] := by
    intro first name c₁ hfirst hname v hv
    rw [List.mem_singleton.mp hv]
    exact ⟨declaredVariable_isPlaced hfirst.placed hname, hfirst.low_le, Nat.le_refl _⟩
  cases h with
  | none hpeek => exact ⟨low, Nat.le_refl _, by simp [AreDeclaredIn], (hat.peek hpeek).2⟩
  | unsigned => exact ⟨low, Nat.le_refl _, by simp [AreDeclaredIn], hat⟩
  | one hrun hname hsign =>
      have hfirst := hat.next hrun
      exact ⟨_, hfirst.low_le_stop, hone hfirst hname, (hfirst.at_stop.next hsign).at_low⟩
  | trailing hrun hname hcomma _ hpeek =>
      have hfirst := hat.next hrun
      have hrest := (hfirst.at_stop.next hcomma).at_low
      exact ⟨_, hfirst.low_le_stop, hone hfirst hname, (hrest.peek hpeek).2⟩
  | two _ hrun hname hcomma _ hrun' hname' hsign =>
      have hfirst := hat.next hrun
      have hsecond := (hfirst.at_stop.next hcomma).at_low.next hrun'
      have hlow := Nat.le_trans hfirst.low_le_stop hsecond.low_le
      refine ⟨_, Nat.le_trans hlow hsecond.placed.ordered, ?_,
        (hsecond.at_stop.next hsign).at_low⟩
      intro v hv
      rcases List.mem_cons.mp hv with rfl | hv
      · obtain ⟨hplaced, hstart, hstop⟩ := hone hfirst hname _ List.mem_cons_self
        exact ⟨hplaced, hstart, Nat.le_trans hstop hsecond.low_le_stop⟩
      · rw [List.mem_singleton.mp hv]
        exact ⟨declaredVariable_isPlaced hsecond.placed hname', hlow, Nat.le_refl _⟩

/-! ## Commands -/

/-- A pipeline that is read and its end: it is placed, and the cursor stands right behind
the token that closes it. -/
structure ReadsPipe (source : String) (low : Nat) (closer : TokenKind) (pipe : Pipe Node)
    (c : Cursor) : Prop where
  placed : (Node.pipe pipe).IsPlaced source
  low_le : low ≤ pipe.span.start
  closed : ∃ token, token.kind = closer ∧ c.Behind source pipe.span.stop token

/-- A pipeline reaches from its first token to its last command. -/
theorem readsPipe_of_commands
    {closer : TokenKind} {start middle high : Nat} {isAssign : Bool}
    {declared : List Variable} {commands : List (Command Node)} {token : Token}
    (hstart : String.Pos.Raw.IsValid source ⟨start⟩) (hlow : low ≤ start)
    (hmiddle : start ≤ middle) (hdeclared : AreDeclaredIn source start middle declared)
    (hcommands : Row source middle (commands.map .command) high) (hne : commands ≠ [])
    (hkind : token.kind = closer) (h : c.Behind source high token) :
    ReadsPipe source low closer ⟨pipeSpan start commands, isAssign, declared, commands⟩ c := by
  obtain ⟨last, hlast⟩ : ∃ last, commands.getLast? = some last :=
    ⟨_, List.getLast?_eq_some_getLast hne⟩
  have hlastNode : (commands.map Node.command).getLast? = some (.command last) := by
    rw [List.getLast?_map, hlast]
    rfl
  have hrow := hcommands.to_last hlastNode
  have hlastMem := hcommands.mem _ (List.mem_of_getLast? hlastNode)
  have hspan : pipeSpan start commands = ⟨start, last.span.stop⟩ := by
    have hle : start ≤ last.span.stop := Nat.le_trans hmiddle hrow.le
    rw [pipeSpan, hlast]
    exact congrArg (Span.mk start) (Nat.max_eq_left hle)
  rw [hspan]
  have hlies : Span.LiesIn source ⟨start, last.span.stop⟩ :=
    .of_valid (Nat.le_trans hmiddle hrow.le) hstart hlastMem.1.sits.lies.validStop
  exact ⟨pipe_isPlaced hlies hdeclared hmiddle hrow, hlow, token, hkind, h.mono hlastMem.2.2⟩

/-- A command reaches from its first operand to its last one. -/
theorem row_of_operands
    {operands : List Node} {first last : Node} {high : Nat}
    (hoperands : Row source low operands high) (hfirst : operands.head? = some first)
    (hlast : operands.getLast? = some last) :
    Row source low [.command ⟨first.span.join last.span, operands⟩] high := by
  have hrow := (hoperands.of_head hfirst).to_last hlast
  have hmem := hrow.mem first (List.mem_of_head? hfirst)
  have hmem' := hrow.mem last (List.mem_of_getLast? hlast)
  have hspan : first.span.join last.span = ⟨first.span.start, last.span.stop⟩ := by
    rw [Span.join, Nat.min_eq_left hmem'.2.1, Nat.max_eq_right hmem.2.2]
  rw [hspan]
  have hlies : Span.LiesIn source ⟨first.span.start, last.span.stop⟩ :=
    .of_valid hrow.le hmem.1.sits.lies.validStart hmem'.1.sits.lies.validStop
  refine .cons (command_isPlaced hlies hrow) ?_ (.nil ?_)
  · exact (hoperands.mem first (List.mem_of_head? hfirst)).2.1
  · exact (hoperands.mem last (List.mem_of_getLast? hlast)).2.2

/-! ## Terms and the names after them -/

/-- A field token prints as a name after a dot. -/
theorem fieldName?_eq
    {token : Token} (h : token.IsLexed) (hkind : isField token.kind = true) :
    ∃ name, fieldName? token = some name ∧ token.text = "." ++ name := by
  obtain ⟨name, hname⟩ := exists_fieldName hkind
  exact ⟨name, by simp [fieldName?, hname], h.text_eq (by rw [hname]; rfl)⟩

@[simp]
theorem spanOver_nil (span : Span) : spanOver span [] = span := rfl

@[simp]
theorem spanOver_cons (span : Span) (token : Token) (tokens : List Token) :
    spanOver span (token :: tokens) = spanOver (span.join token.span) tokens := rfl

/-- What is known of the names after a term: the span that reaches over them goes on from
that of the term, and so does the text that stands there. -/
structure Extends (source : String) (span : Span) (fields : List Token) (c : Cursor) : Prop where
  lies : (spanOver span fields).LiesIn source
  start_eq : (spanOver span fields).start = span.start
  stop_le : span.stop ≤ (spanOver span fields).stop
  shows : ∀ text, span.Shows source text →
    (spanOver span fields).Shows source (text ++ printPath (fields.filterMap fieldName?))
  at_stop : c.At source (spanOver span fields).stop

theorem Extends.nil
    {span : Span} (hlies : span.LiesIn source) (h : c.At source span.stop) :
    Extends source span [] c :=
  ⟨hlies, rfl, Nat.le_refl _, fun text htext => by simpa [printPath] using htext, h⟩

theorem Extends.cons
    {token : Token} {fields : List Token} {span : Span} (hlies : span.LiesIn source)
    (hplaced : token.IsPlaced source) (hfield : isField token.kind = true)
    (hnext : span.stop = token.span.start)
    (h : Extends source (span.join token.span) fields c) :
    Extends source span (token :: fields) c := by
  obtain ⟨name, hname, htext⟩ := fieldName?_eq hplaced.lexed hfield
  have hstart : (span.join token.span).start = span.start :=
    Nat.min_eq_left (hnext ▸ hlies.ordered)
  refine ⟨h.lies, h.start_eq.trans hstart, ?_, ?_, h.at_stop⟩
  · exact Nat.le_trans (Nat.le_max_left _ _) h.stop_le
  · intro text hshows
    have hboth := h.shows _ (hshows.join hplaced.shows hnext)
    rw [htext] at hboth
    simpa [hname, printPath, String.append_assoc] using hboth

/-- The names that directly follow a term extend it. -/
theorem extends_pass
    {token : Token} (h : c.Behind source low token) (hinner : token.kind.IsInner)
    {span : Span} (hlies : span.LiesIn source) (hstop : span.stop = token.span.stop) :
    Extends source span (c.pass isField).1 (c.pass isField).2 := by
  have hdone : Extends source span [] c := .nil hlies (hstop ▸ h.at_stop)
  obtain ⟨current, later, lastEnd⟩ := c
  induction later generalizing current lastEnd token span low with
  | nil => exact hdone
  | cons next later ih =>
      rw [Cursor.pass, Cursor.passFrom]
      split
      · rename_i hfield
        have hat := h.at_stop
        have hplaced : current.IsPlaced source := hat.current
        have hcurrent : current.kind.IsInner := by
          cases hkind : current.kind with
          | field name => trivial
          | _ => simp [isField, hkind] at hfield
        have hnext : span.stop = current.span.start := hstop.trans (h.abuts hinner hcurrent)
        have hstop' : (span.join current.span).stop = current.span.stop :=
          Nat.max_eq_right (hnext ▸ hplaced.ordered)
        have hlies' := hlies.join hplaced.liesIn
        refine .cons hlies hplaced hfield hnext ?_
        refine ih hcurrent hlies' hstop' next current.span.stop hat.behind (.nil hlies' ?_)
        rw [hstop']
        exact hat.behind.at_stop
      · exact hdone

/-- A term that is read: it is placed, and the cursor stands right behind its last
token. -/
structure ReadsTerm (source : String) (low : Nat) (term : Node) (c : Cursor) : Prop where
  placed : term.IsPlaced source
  low_le : low ≤ term.span.start
  closed : ∃ token, token.kind.IsInner ∧ token.span.stop = term.span.stop ∧
    c.Behind source low token

theorem ReadsTerm.of_token
    {token : Token} {node : Node} (h : c.Behind source low token)
    (hinner : token.kind.IsInner) (hspan : node.span = token.span) (hparts : node.parts = [])
    (hfollow : node.PartsFollow) (hprint : node.print = token.text) :
    ReadsTerm source low node c where
  placed := .of_shows hparts hfollow (by rw [hspan, hprint]; exact h.placed.shows)
  low_le := by rw [hspan]; exact h.low_le
  closed := ⟨token, hinner, by rw [hspan], h⟩

/-- A term of one token stands where the token does. -/
theorem Token.Denotes.readsTerm
    {token : Token} {node : Node} (h : token.Denotes node) (hbehind : c.Behind source low token) :
    ReadsTerm source low node c := by
  have hlexed := hbehind.placed.lexed
  -- Words and signs are spelled as their kind tells.
  have hspelled : ∀ {kind : TokenKind} (text : String), token.kind = kind →
      kind.spelling? = some text → node.span = token.span → node.parts = [] →
        node.PartsFollow → node.print = text → ReadsTerm source low node c := by
    rintro _ text rfl hspelling hspan hparts hfollow hprint
    exact .of_token hbehind (TokenKind.isInner_of_spelling? hspelling) hspan hparts hfollow
      (hprint.trans (hlexed.text_eq hspelling).symm)
  cases h with
  | identifier hkind | dot hkind | nil hkind | bool hkind =>
      exact hspelled _ hkind rfl rfl rfl trivial rfl
  | «variable» hkind =>
      exact hspelled _ hkind rfl rfl rfl trivial (by simp [Node.print, Variable.print])
  | field hkind => exact hspelled _ hkind rfl rfl rfl trivial (by simp [Node.print, printPath])
  | character hkind hvalue =>
      exact .of_token hbehind (by rw [hkind]; trivial) rfl rfl trivial
        (Number.ofCharacter_text hvalue)
  | number hkind hvalue =>
      exact .of_token hbehind (by rw [hkind]; trivial) rfl rfl trivial (Number.ofText_text hvalue)
  | string hkind =>
      have hinner : token.kind.IsInner := by
        rcases hkind with hkind | hkind <;> rw [hkind] <;> trivial
      exact .of_token hbehind hinner rfl rfl trivial rfl

/-- The names that follow a term extend it. -/
theorem ReadsTerm.extends_pass {term : Node} (h : ReadsTerm source low term c) :
    Extends source term.span (c.pass isField).1 (c.pass isField).2 := by
  obtain ⟨token, hinner, hstop, hbehind⟩ := h.closed
  exact TemplateTyping.extends_pass hbehind hinner h.placed.sits.lies hstop.symm

theorem printPath_append (names path : List String) :
    printPath (names ++ path) = printPath names ++ printPath path := by
  simp [printPath]

theorem print_variable_append
    {v : Variable} (h : v.path ≠ []) (span : Span) (path : List String) :
    Variable.print ⟨span, v.path ++ path⟩ = v.print ++ printPath path := by
  obtain ⟨span', names⟩ := v
  cases names with
  | nil => exact absurd rfl h
  | cons name names =>
      rw [← String.toList_inj, String.toList_append, List.cons_append, toList_print_variable,
        toList_print_variable, printPath_append]
      simp

/-- A term is placed with the names after it. -/
theorem Gains.isPlaced
    {fields : List Token} {term node : Node} (h : Gains fields term node)
    (hterm : term.IsPlaced source) (hlow : low ≤ term.span.start)
    (hpath : ∀ v, term = .variable v → v.path ≠ []) (hextends : Extends source term.span fields c) :
    ∃ high, Row source low [node] high ∧ c.At source high := by
  -- Whatever the fields are added to takes their common span.
  have hrow : node.IsPlaced source → node.span = spanOver term.span fields →
      ∃ high, Row source low [node] high ∧ c.At source high := by
    intro hplaced hspan
    refine ⟨_, .cons hplaced ?_ (.nil (Nat.le_refl _)), hspan ▸ hextends.at_stop⟩
    rw [hspan, hextends.start_eq]
    exact hlow
  cases h with
  | field =>
      refine hrow (.of_shows rfl trivial ?_) rfl
      rw [Node.print, printPath_append]
      exact hextends.shows _ (hterm.sits.verbatim rfl)
  | «variable» =>
      refine hrow (.of_shows rfl trivial ?_) rfl
      rw [Node.print, print_variable_append (hpath _ rfl)]
      exact hextends.shows _ (hterm.sits.verbatim rfl)
  | chain =>
      refine hrow (chain_isPlaced hextends.lies hterm ?_) rfl
      exact ⟨Nat.le_of_eq hextends.start_eq, hextends.stop_le⟩

/-! ## Derivations -/

/-- What is read from an offset on is placed behind it. -/
def PipePhrase.IsPlaced (text : String) (low : Nat) (c : Cursor) : PipePhrase → Prop
  | .pipeline _ closer found => ReadsPipe text low closer found c
  | .commands closer found => ∃ high token, Row text low (found.map .command) high ∧
      token.kind = closer ∧ c.Behind text high token
  | .operands found => ∃ high, Row text low found high ∧ c.At text high
  | .operand found => ∃ high, Row text low found.toList high ∧ c.At text high
  | .term none => c.At text low
  | .term (some found) => ReadsTerm text low found c

section Derived

variable {text : String} {source : List Token} {phrase : PipePhrase}

theorem DerivesPipe.isPlaced
    (h : DerivesPipe source phrase c c') (hat : c.At text low) : phrase.IsPlaced text low c' := by
  induction h generalizing low with
  | pipeline _ hpeek hdeclared _ hne _ ih =>
      obtain ⟨rfl, hat₁⟩ := hat.peek hpeek
      have hstart := hat₁.current.liesIn.validStart
      obtain ⟨middle, hmiddle, hplaced, hat₂⟩ := hdeclared.isPlaced ⟨hat₁.lined, Nat.le_refl _⟩
      obtain ⟨high, token, hcommands, hkind, hbehind⟩ := ih hat₂
      exact readsPipe_of_commands hstart hat₁.low_le hmiddle hplaced hcommands hne hkind hbehind
  | closed _ hnext hkind => exact ⟨low, _, .nil (Nat.le_refl _), hkind, hat.next hnext⟩
  | command hin hnext _ _ hfirst hlast _ hoperands hcommands =>
      have hback := (hat.next hnext).restore (hin.reaches hnext).closes.ne_eof
      obtain ⟨middle, hrow, hat₂⟩ := hoperands hback
      obtain ⟨high, token, hrow', hkind, hbehind⟩ := hcommands hat₂
      exact ⟨high, token, (row_of_operands hrow hfirst hlast).append hrow', hkind, hbehind⟩
  | more _ _ _ hoperand hoperands =>
      obtain ⟨middle, hrow, hat₁⟩ := hoperand hat
      obtain ⟨high, hrow', hat₂⟩ := hoperands hat₁.behind.at_low
      exact ⟨high, hrow.append hrow', hat₂⟩
  | last _ hkind hoperand =>
      obtain ⟨middle, hrow, hat₁⟩ := hoperand hat
      refine ⟨middle, hrow, hat₁.behind.restore ?_⟩
      rcases hkind with hkind | hkind <;> simp [hkind]
  | bar _ _ hoperand =>
      obtain ⟨middle, hrow, hat₁⟩ := hoperand hat
      exact ⟨middle, hrow, hat₁.behind.at_low⟩
  | absent _ ih => exact ⟨low, .nil (Nat.le_refl _), ih hat⟩
  | plain _ ih =>
      have hterm := ih hat
      obtain ⟨token, _, hstop, hbehind⟩ := hterm.closed
      refine ⟨_, .cons hterm.placed hterm.low_le (.nil (Nat.le_refl _)), ?_⟩
      rw [← hstop]
      exact hbehind.at_stop
  | fields hread _ hgains ih =>
      have hterm := ih hat
      exact hgains.isPlaced hterm.placed hterm.low_le hread.path_ne hterm.extends_pass
  | atom _ hnext hdenotes => exact hdenotes.readsTerm (hat.next hnext)
  | @paren token pipe _ _ _ _ hnext _ _ ih =>
      have htoken := hat.next hnext
      obtain ⟨hplaced, hlow, closing, hclosing, hbehind⟩ := ih htoken.at_stop
      have hstart := Nat.le_trans htoken.placed.ordered hlow
      have hstop : pipe.span.stop ≤ closing.span.stop := hbehind.low_le_stop
      have hlies : Span.LiesIn text ⟨token.span.start, closing.span.stop⟩ :=
        .of_valid (Nat.le_trans hstart (Nat.le_trans hplaced.ordered hstop))
          htoken.placed.liesIn.validStart hbehind.placed.liesIn.validStop
      rw [hbehind.lastEnd_eq]
      refine ⟨pipe_isPlaced_of_inside hplaced hlies ⟨hstart, hstop⟩, htoken.low_le, closing, ?_,
        rfl, hbehind.mono ?_⟩
      · rw [hclosing]
        trivial
      · exact Nat.le_trans htoken.low_le (Nat.le_trans hstart hplaced.ordered)
  | empty hin hnext => exact (hat.next hnext).restore (hin.reaches hnext).closes.ne_eof

/-- Whatever fault is reported of a pipeline lies in the source. -/
theorem ReportsPipe.liesIn
    (hlined : Lined text source) {fault : SyntaxFault} (h : ReportsPipe source fault) :
    fault.span.LiesIn text := by
  cases h with
  | token hmem | literal hmem => exact (hlined.mem hmem).liesIn
  | missing hmem =>
      have hstart := (hlined.mem hmem).liesIn.validStart
      exact .of_valid (Nat.le_max_right _ _) hstart (by simpa [pipeSpan] using hstart)
  | command hread hmem =>
      obtain ⟨high, token, hrow, -⟩ := hread.isPlaced (hlined.at_current hread.enclosed.suffix)
      exact (hrow.mem _ (List.mem_map_of_mem hmem)).1.sits.lies
  | fields hread =>
      have hterm := hread.isPlaced (hlined.at_current hread.enclosed.suffix)
      exact hterm.extends_pass.lies

end Derived

end TemplateTyping
