import TemplateTyping.Proofs.Token.Closing
import TemplateTyping.Proofs.Tree.Reading

/-!
# What the readers of pipelines read

A relation says once what the readers of pipelines do when they succeed: where they start, what
they read and up to where.  The depth of a reader does not occur in it.  A second relation says
which faults the readers report; each lies with a token of the source, or with something that was
read from it.

What is known of everything that is read follows by induction on derivations.  Here it is shown
which tokens are left and that pipelines are readable.  A reader inside of an action does not get
past the right delimiter, hence not to the mark of the end.
-/

namespace TemplateTyping

open Lexer

/-- The tokens from here on. -/
def Cursor.tokens (c : Cursor) : List Token := c.current :: c.later

theorem Cursor.fuel_eq (c : Cursor) : c.fuel = 8 * (c.tokens.length + 1) := rfl

theorem Cursor.length_lt_fuel (c : Cursor) : c.tokens.length < c.fuel := by
  rw [c.fuel_eq]
  omega

/-! ## Tokens that are left -/

/-- What is left of given tokens, of which something is known. -/
structure Leaves (p : List Token → Prop) (tokens rest : List Token) : Prop where
  suffix : rest <:+ tokens
  holds : p rest

/-- What is left after some token was taken. -/
structure LeavesLess (p : List Token → Prop) (tokens rest : List Token) : Prop
    extends Leaves p tokens rest where
  length_lt : rest.length < tokens.length

/-- A token inside of an action with the spaces before it, and what follows it. -/
structure Reaches (tokens : List Token) (token : Token) (rest : List Token) : Prop where
  split : ∃ spaces, tokens = spaces ++ token :: rest ∧ ∀ space ∈ spaces, space.kind = .space
  closes : Closes true (token :: rest)
  ne_space : token.kind ≠ .space

section Left

variable {p q : List Token → Prop} {tokens middle rest : List Token} {token : Token}

theorem Leaves.refl (h : p tokens) : Leaves p tokens tokens :=
  ⟨List.suffix_refl _, h⟩

theorem Leaves.trans (h : Leaves p tokens middle) (h' : Leaves q middle rest) :
    Leaves q tokens rest :=
  ⟨h'.suffix.trans h.suffix, h'.holds⟩

theorem Leaves.transLess
    (h : Leaves p tokens middle) (h' : LeavesLess q middle rest) :
    LeavesLess q tokens rest :=
  ⟨h.trans h'.toLeaves, Nat.lt_of_lt_of_le h'.length_lt h.suffix.length_le⟩

theorem LeavesLess.trans
    (h : LeavesLess p tokens middle) (h' : Leaves q middle rest) :
    LeavesLess q tokens rest :=
  ⟨h.toLeaves.trans h', Nat.lt_of_le_of_lt h'.suffix.length_le h.length_lt⟩

theorem LeavesLess.of_cons (h : p rest) :
    LeavesLess p (token :: rest) rest :=
  ⟨⟨List.suffix_cons _ _, h⟩, by simp⟩

theorem Reaches.leaves (h : Reaches tokens token rest) :
    Leaves (Closes true) tokens (token :: rest) := by
  obtain ⟨spaces, hsplit, _⟩ := h.split
  exact ⟨⟨spaces, hsplit.symm⟩, h.closes⟩

theorem Reaches.leavesLess (h : Reaches tokens token rest) :
    LeavesLess (Closes (token.kind != .rightDelim)) tokens rest :=
  h.leaves.transLess (.of_cons h.closes.after)

/-- Taking a token other than the right delimiter does not lead out of the action. -/
theorem Reaches.next (h : Reaches tokens token rest) (hkind : token.kind ≠ .rightDelim) :
    LeavesLess (Closes true) tokens rest :=
  h.leaves.transLess (.of_cons (h.closes.tail hkind))

/-- A first token that is no space is the one that is reached. -/
theorem Reaches.eq_of_cons
    {first : Token} {later : List Token} (h : Reaches (first :: later) token rest)
    (hfirst : first.kind ≠ .space) : token = first := by
  obtain ⟨spaces, hsplit, hspaces⟩ := h.split
  cases spaces with
  | nil =>
      cases hsplit
      rfl
  | cons space spaces =>
      cases hsplit
      exact absurd (hspaces first (by simp)) hfirst

end Left

/-! ## Passing over tokens -/

namespace Cursor

/-- Passing over tokens of a kind ends at a token that is not of this kind, or at the
last token. -/
theorem passFrom_stops
    (p : TokenKind → Bool) (current : Token) (lastEnd : Nat) (later : List Token) :
    p (passFrom p current lastEnd later).2.current.kind = true →
      (passFrom p current lastEnd later).2.later = [] := by
  induction later generalizing current lastEnd with
  | nil => simp [passFrom]
  | cons token later ih =>
      rw [passFrom]
      split
      · exact ih token current.span.stop
      · rename_i hcurrent
        intro hkind
        exact absurd hkind hcurrent

theorem tokens_pass (c : Cursor) (p : TokenKind → Bool) :
    c.tokens = (c.pass p).1 ++ (c.pass p).2.tokens ∧
      ∀ token ∈ (c.pass p).1, p token.kind = true :=
  passFrom_spec p c.current c.lastEnd c.later

theorem pass_eq_self {c : Cursor} {p : TokenKind → Bool} (h : p c.current.kind = false) :
    (c.pass p).2 = c := by
  obtain ⟨current, later, lastEnd⟩ := c
  cases later with
  | nil => rfl
  | cons token later =>
      rw [pass, passFrom, if_neg (by simpa using h)]

/-- Passing over the spaces inside of an action ends at a token of the action. -/
theorem reaches_pass {c : Cursor} (h : Closes true c.tokens) :
    Reaches c.tokens (c.pass (· == .space)).2.current (c.pass (· == .space)).2.later := by
  obtain ⟨hsplit, hpassed⟩ := c.tokens_pass (· == .space)
  have hspaces : ∀ space ∈ (c.pass (· == .space)).1, space.kind = .space := by
    intro space hspace
    exact eq_of_beq (hpassed space hspace)
  have hcloses : Closes true (c.pass (· == .space)).2.tokens := by
    rw [hsplit] at h
    apply h.of_append
    intro space hspace
    rw [hspaces space hspace]
    simp
  refine ⟨⟨_, hsplit, hspaces⟩, hcloses, ?_⟩
  intro hkind
  apply hcloses.rest_ne_nil
  apply passFrom_stops
  simpa [pass] using hkind

end Cursor

theorem Cursor.tokens_step {c : Cursor} (h : c.later ≠ []) :
    c.tokens = c.current :: c.step.tokens := by
  obtain ⟨current, later, lastEnd⟩ := c
  obtain ⟨token, later, rfl⟩ := List.exists_cons_of_ne_nil h
  rfl

/-! ## Inside of an action -/

/-- The cursor stands inside of an action of the source. -/
structure Enclosed (source : List Token) (c : Cursor) : Prop where
  suffix : c.tokens <:+ source
  closes : Closes true c.tokens

namespace Enclosed

open TokenReader

variable {source : List Token} {token : Token} {c c' : Cursor} (h : Enclosed source c)
include h

theorem of_leaves (hleaves : Leaves (Closes true) c.tokens c'.tokens) : Enclosed source c' :=
  ⟨hleaves.suffix.trans h.suffix, hleaves.holds⟩

theorem current_mem : c.current ∈ source := h.suffix.subset List.mem_cons_self

theorem tokens_eq : c.tokens = c.current :: c.step.tokens :=
  Cursor.tokens_step h.closes.rest_ne_nil

/-- Taking a token other than the right delimiter does not lead out of the action. -/
theorem step_leaves (hkind : c.current.kind ≠ .rightDelim) :
    LeavesLess (Closes true) c.tokens c.step.tokens := by
  have hcloses := h.closes
  rw [h.tokens_eq] at hcloses ⊢
  exact .of_cons (hcloses.tail hkind)

/-- A token that is taken and put back comes next again. -/
theorem tokens_restore : (c.step.restore c.current).tokens = c.tokens := by
  rw [c.restore_step h.closes.rest_ne_nil]
  rfl

/-- The next token that is no space. -/
theorem peek_reaches (hpeek : peekNonSpace c = .ok (token, c')) :
    c'.tokens = token :: c'.later ∧ Reaches c.tokens token c'.later := by
  cases hpeek
  exact ⟨rfl, Cursor.reaches_pass h.closes⟩

theorem peek_leaves (hpeek : peekNonSpace c = .ok (token, c')) :
    Leaves (Closes true) c.tokens c'.tokens := by
  obtain ⟨htokens, hreaches⟩ := h.peek_reaches hpeek
  rw [htokens]
  exact hreaches.leaves

variable (hnext : nextNonSpace c = .ok (token, c'))
include hnext

/-- The next token of an action. -/
theorem reaches : Reaches c.tokens token c'.tokens := by
  cases hnext
  have hreaches := Cursor.reaches_pass h.closes
  have htokens := Cursor.tokens_step hreaches.closes.rest_ne_nil
  rwa [(List.cons.inj htokens).2] at hreaches

theorem mem : token ∈ source :=
  h.suffix.subset ((h.reaches hnext).leaves.suffix.subset List.mem_cons_self)

/-- After a token other than the right delimiter the action goes on. -/
theorem next (hkind : token.kind ≠ .rightDelim) : Enclosed source c' :=
  h.of_leaves ((h.reaches hnext).next hkind).toLeaves

/-- The right delimiter leads out of the action. -/
theorem closed (hkind : token.kind = .rightDelim) :
    LeavesLess (Closes false) c.tokens c'.tokens := by
  have hless := (h.reaches hnext).leavesLess
  rwa [hkind] at hless

/-- A token that is put back comes next. -/
theorem restore : Enclosed source (c'.restore token) :=
  h.of_leaves (h.reaches hnext).leaves

end Enclosed

/-! ## Derivations -/

/-- The sign after variables that are assigned or declared. -/
def TokenKind.sign (isAssign : Bool) : TokenKind := if isAssign then .assign else .declare

/-- The node that a token alone is the term of. -/
inductive Token.Denotes (token : Token) : Node → Prop
  | identifier {name} : token.kind = .identifier name → Denotes token (.identifier token.span name)
  | dot : token.kind = .dot → Denotes token (.dot token.span)
  | nil : token.kind = .keyword .nilKeyword → Denotes token (.nil token.span)
  | variable {name} : token.kind = .variable name →
      Denotes token (.variable ⟨token.span, [name]⟩)
  | field {name} : token.kind = .field name → Denotes token (.field token.span [name])
  | bool {value} : token.kind = .bool value → Denotes token (.bool token.span value)
  | character {number} : token.kind = .charConstant →
      Number.ofCharacter token.text = .ok number → Denotes token (.number token.span number)
  | number {number} : token.kind = .number → Number.ofText token.text = .ok number →
      Denotes token (.number token.span number)
  | string {value} : token.kind = .string ∨ token.kind = .rawString →
      Quotation.string token.text = .ok value → Denotes token (.string token.span token.text value)

/-- The literal of the token has no value. -/
inductive Token.Misspells (token : Token) : LiteralError → Prop
  | character {error} : Number.ofCharacter token.text = .error error → Misspells token error
  | number {error} : Number.ofText token.text = .error error → Misspells token error
  | string {error} : token.kind = .string ∨ token.kind = .rawString →
      Quotation.string token.text = .error error → Misspells token error

/-- The span that reaches over some tokens as well. -/
def spanOver (span : Span) (tokens : List Token) : Span :=
  tokens.foldl (fun span token => span.join token.span) span

/-- What the readers of pipelines read: what they are asked for, and what they find. -/
inductive PipePhrase
  | pipeline (clause : Clause) (closer : TokenKind) (pipe : Pipe Node)
  | commands (closer : TokenKind) (commands : List (Command Node))
  | operands (operands : List Node)
  | operand (operand : Option Node)
  | term (term : Option Node)

/-- Whether a fault is one of the value of a literal. -/
def SyntaxCause.isLiteral : SyntaxCause → Bool
  | .literal _ => true
  | _ => false

section

open TokenReader

/-- From one cursor to another the variables are read that a pipeline sets.  Before the end of a
range's pipeline there may be a variable without sign. -/
inductive Declares (clause : Clause) : Cursor → Bool → List Variable → Cursor → Prop
  | none {token c c'} : peekNonSpace c = .ok (token, c') → Declares clause c false [] c'
  | unsigned {c} : Declares clause c false [] c
  | one {isAssign name first sign c c₁ c'} :
      nextNonSpace c = .ok (first, c₁) → first.kind = .variable name →
      nextNonSpace c₁ = .ok (sign, c') → sign.kind = .sign isAssign →
      Declares clause c isAssign [declaredVariable first name] c'
  | trailing {name first comma closing c c₁ c₂ c'} :
      nextNonSpace c = .ok (first, c₁) → first.kind = .variable name →
      nextNonSpace c₁ = .ok (comma, c₂) → comma.kind = .comma →
      peekNonSpace c₂ = .ok (closing, c') →
      closing.kind = .rightDelim ∨ closing.kind = .rightParen →
      Declares clause c false [declaredVariable first name] c'
  | two {isAssign name name' first comma second sign c c₁ c₂ c₃ c'} :
      clause = .branch .rangeKeyword →
      nextNonSpace c = .ok (first, c₁) → first.kind = .variable name →
      nextNonSpace c₁ = .ok (comma, c₂) → comma.kind = .comma →
      nextNonSpace c₂ = .ok (second, c₃) → second.kind = .variable name' →
      nextNonSpace c₃ = .ok (sign, c') → sign.kind = .sign isAssign →
      Declares clause c isAssign [declaredVariable first name, declaredVariable second name'] c'

/-- What a term becomes with the names after it. -/
inductive Gains (fields : List Token) : Node → Node → Prop
  | field {span names} : Gains fields (.field span names)
      (.field (spanOver span fields) (names ++ fields.filterMap fieldName?))
  | variable {v} : Gains fields (.variable v)
      (.variable ⟨spanOver v.span fields, v.path ++ fields.filterMap fieldName?⟩)
  | chain {term} : (∀ span path, term ≠ .field span path) → (∀ v, term ≠ .variable v) →
      isConstant term = false →
      Gains fields term (.chain (spanOver term.span fields) term (fields.filterMap fieldName?))

variable (source : List Token)

/-- From one cursor to another a phrase is read in an action of the source. -/
inductive DerivesPipe : PipePhrase → Cursor → Cursor → Prop
  | pipeline {clause closer isAssign declared first commands c c₁ c₂ c'} :
      Enclosed source c → peekNonSpace c = .ok (first, c₁) →
      Declares clause c₁ isAssign declared c₂ →
      DerivesPipe (.commands closer commands) c₂ c' → commands ≠ [] →
      notExecutable? 2 commands.tail = none →
      DerivesPipe (.pipeline clause closer
        ⟨pipeSpan first.span.start commands, isAssign, declared, commands⟩) c c'
  | closed {closer token c c'} :
      Enclosed source c → nextNonSpace c = .ok (token, c') → token.kind = closer →
      DerivesPipe (.commands closer []) c c'
  | command {closer token operands first last commands c c₁ c₂ c'} :
      Enclosed source c → nextNonSpace c = .ok (token, c₁) → startsOperand token.kind = true →
      DerivesPipe (.operands operands) (c₁.restore token) c₂ → operands.head? = some first →
      operands.getLast? = some last → DerivesPipe (.commands closer commands) c₂ c' →
      DerivesPipe (.commands closer (⟨first.span.join last.span, operands⟩ :: commands)) c c'
  | more {operand operands c c₁ c'} :
      DerivesPipe (.operand operand) c c₁ → c₁.current.kind = .space →
      DerivesPipe (.operands operands) c₁.step c' →
      DerivesPipe (.operands (operand.toList ++ operands)) c c'
  | last {operand c c₁} :
      DerivesPipe (.operand operand) c c₁ →
      c₁.current.kind = .rightDelim ∨ c₁.current.kind = .rightParen →
      DerivesPipe (.operands operand.toList) c (c₁.step.restore c₁.current)
  | bar {operand c c₁} :
      DerivesPipe (.operand operand) c c₁ → c₁.current.kind = .pipe →
      DerivesPipe (.operands operand.toList) c c₁.step
  | absent {c c'} : DerivesPipe (.term none) c c' → DerivesPipe (.operand none) c c'
  | plain {term c c'} :
      DerivesPipe (.term (some term)) c c' → DerivesPipe (.operand (some term)) c c'
  | fields {term node c c₁} :
      DerivesPipe (.term (some term)) c c₁ → (c₁.pass isField).1 ≠ [] →
      Gains (c₁.pass isField).1 term node →
      DerivesPipe (.operand (some node)) c (c₁.pass isField).2
  | atom {token node c c'} :
      Enclosed source c → nextNonSpace c = .ok (token, c') → token.Denotes node →
      DerivesPipe (.term (some node)) c c'
  | paren {token pipe c c₁ c'} :
      Enclosed source c → nextNonSpace c = .ok (token, c₁) → token.kind = .leftParen →
      DerivesPipe (.pipeline .parenthesized .rightParen pipe) c₁ c' →
      DerivesPipe (.term (some (.pipe { pipe with span := ⟨token.span.start, c'.lastEnd⟩ }))) c c'
  | empty {token c c₁} :
      Enclosed source c → nextNonSpace c = .ok (token, c₁) → startsOperand token.kind = false →
      DerivesPipe (.term none) c (c₁.restore token)

/-- The faults that the readers of tokens report. -/
inductive ReportsPipe : SyntaxFault → Prop
  | token {token cause} : token ∈ source → cause.isLiteral = false →
      ReportsPipe ⟨cause, token.span⟩
  | literal {token error} : token ∈ source → token.Misspells error →
      ReportsPipe ⟨.literal error, token.span⟩
  | missing {token cause} : token ∈ source → cause.isLiteral = false →
      ReportsPipe ⟨cause, pipeSpan token.span.start []⟩
  | command {closer commands command c c' cause} :
      DerivesPipe source (.commands closer commands) c c' → command ∈ commands →
      cause.isLiteral = false → ReportsPipe ⟨cause, command.span⟩
  | fields {term c c' cause} :
      DerivesPipe source (.term (some term)) c c' → cause.isLiteral = false →
      ReportsPipe ⟨cause, spanOver term.span (c'.pass isField).1⟩

end

section Derived

open TokenReader

variable {source : List Token} {phrase : PipePhrase} {c c' : Cursor}

theorem DerivesPipe.enclosed (h : DerivesPipe source phrase c c') : Enclosed source c := by
  induction h with
  | pipeline h | closed h | command h | atom h | paren h | empty h => exact h
  | more _ _ _ ih | last _ _ ih | bar _ _ ih | absent _ ih | plain _ ih | fields _ _ _ ih =>
      exact ih

/-- A term is no variable without a name. -/
theorem DerivesPipe.path_ne
    {term : Node} (h : DerivesPipe source (.term (some term)) c c') (v : Variable)
    (hterm : term = .variable v) : v.path ≠ [] := by
  subst hterm
  cases h with
  | atom _ _ hdenotes =>
      cases hdenotes
      simp

/-! ## Tokens that are left -/

/-- The first token starts an operand. -/
def StartsOperand (tokens : List Token) : Prop :=
  ∃ token rest, tokens = token :: rest ∧ startsOperand token.kind = true

/-- What the readers of operands leave: they do not get past the right delimiter, and
if an operand comes first, they take it. -/
structure LeavesOperand (tokens rest : List Token) : Prop
    extends Leaves (Closes true) tokens rest where
  length_lt : StartsOperand tokens → rest.length < tokens.length

/-- What is left after a phrase. -/
def PipePhrase.Leaves (tokens rest : List Token) : PipePhrase → Prop
  | .pipeline _ closer _ | .commands closer _ =>
      LeavesLess (Closes (closer != .rightDelim)) tokens rest
  | .operands _ | .operand _ | .term _ => LeavesOperand tokens rest

section Left

variable {tokens middle rest : List Token}

theorem LeavesOperand.of_less (h : LeavesLess (Closes true) tokens rest) :
    LeavesOperand tokens rest :=
  ⟨h.toLeaves, fun _ => h.length_lt⟩

theorem LeavesOperand.trans (h : LeavesOperand tokens middle)
    (h' : TemplateTyping.Leaves (Closes true) middle rest) : LeavesOperand tokens rest :=
  ⟨h.toLeaves.trans h', fun hstarts =>
    Nat.lt_of_le_of_lt h'.suffix.length_le (h.length_lt hstarts)⟩

end Left

theorem Declares.leaves
    {clause : Clause} {isAssign : Bool} {declared : List Variable}
    (h : Declares clause c isAssign declared c') (hin : Enclosed source c) :
    Leaves (Closes true) c.tokens c'.tokens := by
  have hnext : ∀ {c c' : Cursor} {token : Token}, Enclosed source c →
      nextNonSpace c = .ok (token, c') → token.kind ≠ .rightDelim →
        Enclosed source c' ∧ Leaves (Closes true) c.tokens c'.tokens := by
    intro c c' token hc hrun hkind
    exact ⟨hc.next hrun hkind, ((hc.reaches hrun).next hkind).toLeaves⟩
  have hsign : ∀ isAssign, TokenKind.sign isAssign ≠ .rightDelim := by
    intro isAssign
    cases isAssign <;> simp [TokenKind.sign]
  cases h with
  | none hpeek => exact hin.peek_leaves hpeek
  | unsigned => exact .refl hin.closes
  | one hfirst hname hrun hkind =>
      obtain ⟨hin₁, hleaves⟩ := hnext hin hfirst (by simp [hname])
      exact hleaves.trans (hnext hin₁ hrun (hkind ▸ hsign _)).2
  | trailing hfirst hname hcomma hkind hpeek =>
      obtain ⟨hin₁, hleaves⟩ := hnext hin hfirst (by simp [hname])
      obtain ⟨hin₂, hleaves'⟩ := hnext hin₁ hcomma (by simp [hkind])
      exact (hleaves.trans hleaves').trans (hin₂.peek_leaves hpeek)
  | two _ hfirst hname hcomma hkind hsecond hname' hrun hkind' =>
      obtain ⟨hin₁, hleaves⟩ := hnext hin hfirst (by simp [hname])
      obtain ⟨hin₂, hleaves'⟩ := hnext hin₁ hcomma (by simp [hkind])
      obtain ⟨hin₃, hleaves''⟩ := hnext hin₂ hsecond (by simp [hname'])
      have hlast := (hnext hin₃ hrun (hkind' ▸ hsign _)).2
      exact ((hleaves.trans hleaves').trans hleaves'').trans hlast

/-- No right delimiter is among the names after a term. -/
theorem Enclosed.pass_leaves (h : Enclosed source c) :
    Leaves (Closes true) c.tokens (c.pass isField).2.tokens := by
  obtain ⟨hsplit, hfields⟩ := c.tokens_pass isField
  have hcloses := h.closes
  rw [hsplit] at hcloses
  refine ⟨⟨_, hsplit.symm⟩, hcloses.of_append ?_⟩
  intro token htoken hkind
  have hfield := hfields token htoken
  simp [isField, hkind] at hfield

theorem Token.Denotes.startsOperand
    {token : Token} {node : Node} (h : token.Denotes node) : startsOperand token.kind = true := by
  cases h with
  | string hkind => rcases hkind with hkind | hkind <;> rw [hkind] <;> rfl
  | identifier hkind | dot hkind | nil hkind | «variable» hkind | field hkind | bool hkind
  | character hkind | number hkind =>
      rw [hkind]
      rfl

theorem DerivesPipe.leaves (h : DerivesPipe source phrase c c') :
    phrase.Leaves c.tokens c'.tokens := by
  induction h with
  | pipeline hin hpeek hdeclared _ _ _ ih =>
      have hpeeked := hin.peek_leaves hpeek
      have hleaves := hpeeked.trans (hdeclared.leaves (hin.of_leaves hpeeked))
      exact hleaves.transLess ih
  | closed hin hnext hkind => exact hkind ▸ (hin.reaches hnext).leavesLess
  | command hin hnext _ _ _ _ _ hoperands hcommands =>
      exact ((hin.reaches hnext).leaves.trans hoperands.toLeaves).transLess hcommands
  | more hread hkind _ hoperand hoperands =>
      have hin := hread.enclosed.of_leaves hoperand.toLeaves
      have hstep := (hin.step_leaves (by simp [hkind])).toLeaves
      exact hoperand.trans (hstep.trans hoperands.toLeaves)
  | last hread _ hoperand =>
      have hin := hread.enclosed.of_leaves hoperand.toLeaves
      exact hin.tokens_restore.symm ▸ hoperand
  | bar hread hkind hoperand =>
      have hin := hread.enclosed.of_leaves hoperand.toLeaves
      exact hoperand.trans (hin.step_leaves (by simp [hkind])).toLeaves
  | absent _ ih | plain _ ih => exact ih
  | fields hread _ _ hterm =>
      exact hterm.trans (hread.enclosed.of_leaves hterm.toLeaves).pass_leaves
  | atom hin hnext hdenotes =>
      have hinner : _ ≠ TokenKind.rightDelim := TokenKind.ne_of_class hdenotes.startsOperand rfl
      exact .of_less ((hin.reaches hnext).next hinner)
  | paren hin hnext hkind _ ih =>
      exact .of_less (((hin.reaches hnext).next (by simp [hkind])).trans ih.toLeaves)
  | empty hin hnext hkind =>
      have hreaches := hin.reaches hnext
      refine ⟨hreaches.leaves, ?_⟩
      rintro ⟨first, later, htokens, hstarts⟩
      rw [htokens] at hreaches
      have hfirst := hreaches.eq_of_cons (TokenKind.ne_of_class hstarts rfl)
      rw [hfirst, hstarts] at hkind
      cases hkind

/-- Operands and terms do not lead out of the action. -/
theorem DerivesPipe.enclosed_operand {operand : Option Node}
    (h : DerivesPipe source (.operand operand) c c') : Enclosed source c' :=
  h.enclosed.of_leaves h.leaves.toLeaves

theorem DerivesPipe.enclosed_term {term : Option Node}
    (h : DerivesPipe source (.term term) c c') : Enclosed source c' :=
  h.enclosed.of_leaves h.leaves.toLeaves

/-! ## Readable phrases -/

namespace TokenReader

theorem areDeclared_nil (limit : Nat) : AreDeclared limit false [] :=
  ⟨by simp, by simp, by simp⟩

theorem areDeclared_one
    {token : Token} {name : String} (h : IsVariableName name) (clause : Clause)
    (isAssign : Bool) :
    AreDeclared clause.limit isAssign [declaredVariable token name] := by
  refine ⟨?_, by simp, ?_⟩
  · cases clause with
    | branch keyword => cases keyword <;> simp [Clause.limit, BranchKeyword.limit]
    | _ => simp [Clause.limit]
  · intro v hv
    rw [List.mem_singleton] at hv
    exact ⟨name, by rw [hv]; rfl, h⟩

theorem areDeclared_two
    {first second : Token} {name name' : String} (h : IsVariableName name)
    (h' : IsVariableName name') (isAssign : Bool) :
    AreDeclared 2 isAssign
      [declaredVariable first name, declaredVariable second name'] := by
  refine ⟨by simp, by simp, ?_⟩
  intro v hv
  simp only [List.mem_cons, List.not_mem_nil, or_false] at hv
  rcases hv with rfl | rfl
  · exact ⟨name, rfl, h⟩
  · exact ⟨name', rfl, h'⟩

/-- What a term can be: an operand that is no chain yet. -/
def IsTerm (node : Node) : Prop :=
  node.IsOperand ∧ ∀ span receiver path, node ≠ .chain span receiver path

theorem IsTerm.isReceiver
    {term : Node} (h : IsTerm term) (hconstant : ¬ isConstant term = true)
    (hfield : ∀ span path, term ≠ .field span path) (hvariable : ∀ v, term ≠ .variable v) :
    term.isReceiver = true := by
  cases term with
  | identifier span name => rfl
  | pipe p => rfl
  | chain span receiver path => exact absurd rfl (h.2 span receiver path)
  | field span path => exact absurd rfl (hfield span path)
  | «variable» v => exact absurd rfl (hvariable v)
  | dot span => exact absurd rfl hconstant
  | nil span => exact absurd rfl hconstant
  | bool span value => exact absurd rfl hconstant
  | number span number => exact absurd rfl hconstant
  | string span quoted value => exact absurd rfl hconstant
  | _ => exact h.1.elim

end TokenReader

/-- What is read is readable. -/
def PipePhrase.IsReadable : PipePhrase → Prop
  | .pipeline clause _ found => found.IsReadable clause.limit
  | .commands _ found => AreReadable found
  | .operands found => AreOperands found
  | .operand found => ∀ node ∈ found, node.IsOperand
  | .term found => ∀ node ∈ found, IsTerm node

theorem areOperands_append {operand : Option Node} {operands : List Node}
    (hoperand : ∀ node ∈ operand, node.IsOperand) (hoperands : AreOperands operands) :
    AreOperands (operand.toList ++ operands) := by
  cases operand with
  | none => exact hoperands
  | some node => exact ⟨hoperand node rfl, hoperands⟩

theorem Token.Denotes.isTerm
    {token : Token} {node : Node} (h : token.Denotes node) (htoken : token.IsLexed) :
    IsTerm node := by
  have hlexeme : ∀ {kind : TokenKind}, token.kind = kind → kind.IsInner →
      Lexeme kind token.text.toList := by
    rintro _ rfl hinner
    exact (htoken.lexeme hinner).1
  cases h with
  | identifier hkind => exact ⟨htoken.identifier hkind, by simp⟩
  | dot | nil | bool => exact ⟨trivial, by simp⟩
  | «variable» hkind => exact ⟨⟨_, [], rfl, htoken.variableName hkind, by simp⟩, by simp⟩
  | field hkind =>
      refine ⟨⟨by simp, ?_⟩, by simp⟩
      rw [List.forall_mem_singleton]
      exact htoken.fieldName hkind
  | character hkind hvalue =>
      refine ⟨.inr ?_, by simp⟩
      rw [Number.ofCharacter_text hvalue]
      exact ⟨hlexeme hkind trivial, hvalue⟩
  | number hkind hvalue =>
      refine ⟨.inl ?_, by simp⟩
      rw [Number.ofText_text hvalue]
      exact ⟨hlexeme hkind trivial, hvalue⟩
  | string hkind hvalue =>
      refine ⟨⟨?_, hvalue⟩, by simp⟩
      exact hkind.imp (hlexeme · trivial) (hlexeme · trivial)

/-- A name after a dot is the name of a field. -/
theorem exists_fieldName {token : Token} (h : isField token.kind = true) :
    ∃ name, token.kind = .field name := by
  cases hkind : token.kind with
  | field name => exact ⟨name, rfl⟩
  | _ => simp [isField, hkind] at h

theorem Gains.isOperand
    {fields : List Token} {term node : Node} (h : Gains fields term node) (hterm : IsTerm term)
    (hne : fields ≠ [])
    (hfields : ∀ token ∈ fields, token.IsLexed ∧ isField token.kind = true) :
    node.IsOperand := by
  have hpath : ∀ name ∈ fields.filterMap fieldName?, IsFieldName name := by
    intro name hname
    obtain ⟨token, htoken, htokenName⟩ := List.mem_filterMap.mp hname
    obtain ⟨hlexed, hfield⟩ := hfields token htoken
    obtain ⟨name', hkind⟩ := exists_fieldName hfield
    simp only [fieldName?, hkind, Option.some.injEq] at htokenName
    rw [← htokenName]
    exact hlexed.fieldName hkind
  have hpathNe : fields.filterMap fieldName? ≠ [] := by
    obtain ⟨token, fields, rfl⟩ := List.exists_cons_of_ne_nil hne
    obtain ⟨name, hkind⟩ := exists_fieldName (hfields token List.mem_cons_self).2
    simp [fieldName?, hkind]
  cases h with
  | field => exact ⟨by simp [hpathNe], List.forall_mem_append.mpr ⟨hterm.1.2, hpath⟩⟩
  | «variable» =>
      obtain ⟨name, path, hv, hname, hnames⟩ := hterm.1
      exact ⟨name, path ++ fields.filterMap fieldName?, by simp [hv], hname,
        List.forall_mem_append.mpr ⟨hnames, hpath⟩⟩
  | chain hfield hvariable hconstant =>
      exact ⟨hterm.isReceiver (by simp [hconstant]) hfield hvariable, hterm.1, hpathNe, hpath⟩

theorem Declares.areDeclared
    {clause : Clause} {isAssign : Bool} {declared : List Variable}
    (h : Declares clause c isAssign declared c') (hin : Enclosed source c)
    (hlexed : ∀ token ∈ source, token.IsLexed) : AreDeclared clause.limit isAssign declared := by
  cases h with
  | none | unsigned => exact areDeclared_nil _
  | one hfirst hname | trailing hfirst hname =>
      exact areDeclared_one ((hlexed _ (hin.mem hfirst)).variableName hname) clause _
  | two hclause hfirst hname hcomma hkind hsecond hname' =>
      have hin₂ := (hin.next hfirst (by simp [hname])).next hcomma (by simp [hkind])
      rw [hclause]
      exact areDeclared_two ((hlexed _ (hin.mem hfirst)).variableName hname)
        ((hlexed _ (hin₂.mem hsecond)).variableName hname') _

theorem DerivesPipe.isReadable
    (hlexed : ∀ token ∈ source, token.IsLexed) (h : DerivesPipe source phrase c c') :
    phrase.IsReadable := by
  induction h with
  | pipeline hin hpeek hdeclared _ hne hcallable ih =>
      have hin₁ := hin.of_leaves (hin.peek_leaves hpeek)
      exact ⟨hdeclared.areDeclared hin₁ hlexed, hne, hcallable, ih⟩
  | closed => trivial
  | command _ _ _ _ hfirst _ _ hoperands hcommands =>
      refine ⟨⟨?_, hoperands⟩, hcommands⟩
      rintro rfl
      cases hfirst
  | more _ _ _ hoperand hoperands => exact areOperands_append hoperand hoperands
  | last _ _ hoperand | bar _ _ hoperand =>
      rw [← List.append_nil (Option.toList _)]
      exact areOperands_append hoperand trivial
  | absent | empty =>
      rintro _ ⟨⟩
  | plain _ ih =>
      rintro _ ⟨⟩
      exact (ih _ rfl).1
  | @fields _ _ _ c₁ hread hne hgains ih =>
      rintro _ ⟨⟩
      obtain ⟨hsplit, hfields⟩ := c₁.tokens_pass isField
      refine hgains.isOperand (ih _ rfl) hne fun token htoken => ⟨?_, hfields token htoken⟩
      refine hlexed token (hread.enclosed_term.suffix.subset ?_)
      rw [hsplit]
      exact List.mem_append_left _ htoken
  | atom hin hnext hdenotes =>
      rintro _ ⟨⟩
      exact hdenotes.isTerm (hlexed _ (hin.mem hnext))
  | @paren _ pipe _ _ _ _ _ _ _ ih =>
      rintro _ ⟨⟩
      obtain ⟨span, isAssign, declared, commands⟩ := pipe
      exact ⟨ih, by simp⟩

end Derived

end TemplateTyping
