import TemplateTyping.Proofs.Tree.RoundTrip

/-!
# What readers reject

The counterpart of the logic of readers that deliver: a reader rejects if it reports a
given fault on all tokens with given pieces.  A reader that delivers what another one
rejects makes both together reject.  The main result is that a number literal without
a value, alone in an action, makes reading a source fail with the fault of the literal.
-/

namespace TemplateTyping

open Lexer

/-- The fuel of a reader lasts for several calls, whatever is left to read. -/
theorem Cursor.exists_fuel_eq (c : Cursor) {count : Nat} (h : count ≤ 8) :
    ∃ fuel, c.fuel = fuel + count := by
  refine ⟨c.fuel - count, ?_⟩
  unfold Cursor.fuel
  omega

/-! ## Readers of tokens -/

namespace TokenReader

/-- On tokens with given pieces the reader reports a fault with a given cause. -/
def Rejects {α : Type} (reader : TokenReader α) (pieces : List Piece)
    (cause : SyntaxCause) : Prop :=
  ∀ c : Cursor, c.pieces = pieces → ∃ span, reader c = .error (.fault ⟨cause, span⟩)

variable {α β : Type} {reader : TokenReader α} {pieces middle : List Piece}
  {cause : SyntaxCause}

theorem Rejects.bind (h : reader.Rejects pieces cause) (next : α → TokenReader β) :
    Rejects (reader >>= next) pieces cause := by
  intro c hc
  obtain ⟨span, hrun⟩ := h c hc
  refine ⟨span, ?_⟩
  simp only [Bind.bind, StateT.bind, hrun, Except.bind]

/-- What comes after a reader that delivers may reject. -/
theorem Delivers.rejects
    {post : α → Prop} (h : reader.Delivers pieces middle post) {next : α → TokenReader β}
    (hnext : ∀ value, post value → Rejects (next value) middle cause) :
    Rejects (reader >>= next) pieces cause := by
  intro c hc
  obtain ⟨value, c', hrun, hc', hvalue⟩ := h c hc
  obtain ⟨span, hrun'⟩ := hnext value hvalue c' hc'
  refine ⟨span, ?_⟩
  simp only [Bind.bind, StateT.bind, hrun, Except.bind]
  exact hrun'

theorem Rejects.literal
    {token : Token} {value : Except LiteralError α} {error : LiteralError}
    (h : value = .error error) :
    Rejects (TokenReader.literal token value) pieces (.literal error) := by
  intro c _
  rw [h]
  exact ⟨token.span, rfl⟩

/-! ## Literals without value -/

section Literals

variable {text : String} {error : LiteralError} (hvalue : Number.ofText text = .error error)
  {later : List Piece} (hlater : later ≠ [])
include hvalue hlater

theorem termWithin_rejects (fuel : Nat) :
    Rejects (termWithin (fuel + 1)) ((.number, text) :: later) (.literal error) := by
  refine (Delivers.nextNonSpace (.inl rfl) (by simp) hlater).rejects ?_
  rintro _ ⟨span, rfl⟩
  exact (Rejects.literal hvalue).bind _

theorem operandsWithin_rejects (fuel : Nat) :
    Rejects (operandsWithin (fuel + 3)) ((.number, text) :: later) (.literal error) :=
  ((termWithin_rejects hvalue hlater fuel).bind _).bind _

theorem commandsWithin_rejects (fuel : Nat) (clause : Clause) :
    Rejects (commandsWithin (fuel + 4) clause .rightDelim) ((.number, text) :: later)
      (.literal error) := by
  refine (Delivers.nextNonSpace (.inl rfl) (by simp) hlater).rejects ?_
  rintro _ ⟨span, rfl⟩
  refine (Delivers.putBack (by simp) span text).rejects fun _ _ => ?_
  exact (operandsWithin_rejects hvalue hlater fuel).bind _

theorem pipeline_rejects (clause : Clause) :
    Rejects (pipeline clause) ((.number, text) :: later) (.literal error) := by
  refine Delivers.get.rejects fun c hc => ?_
  have hstarts : StartsValue ((.number, text) :: later) :=
    ⟨_, _, rfl, rfl, by simp⟩
  obtain ⟨fuel, hfuel⟩ := c.exists_fuel_eq (show 5 ≤ 8 by decide)
  rw [hfuel]
  refine (Delivers.peekNonSpace (.inl rfl) (by simp)).rejects fun _ _ => ?_
  refine (declarations_delivers_nil hstarts clause).rejects ?_
  rintro _ rfl
  exact (commandsWithin_rejects hvalue hlater fuel clause).bind _

end Literals

end TokenReader

/-! ## Readers of trees -/

namespace TreeReader

open TokenReader

/-- On tokens with given pieces the reader reports a fault with a given cause, whatever
templates were collected. -/
def Rejects {α : Type} (reader : TreeReader α) (pieces : List Piece)
    (cause : SyntaxCause) : Prop :=
  ∀ set : TemplateSet, TokenReader.Rejects (reader set) pieces cause

variable {α β : Type} {reader : TreeReader α} {pieces middle : List Piece}
  {cause : SyntaxCause}

theorem Rejects.bind (h : Rejects reader pieces cause) (next : α → TreeReader β) :
    Rejects (reader >>= next) pieces cause := by
  intro set
  rw [bind_apply]
  exact (h set).bind _

theorem Delivers.rejects
    {post : α → Prop} (h : Delivers reader pieces middle post) {next : α → TreeReader β}
    (hnext : ∀ value, post value → Rejects (next value) middle cause) :
    Rejects (reader >>= next) pieces cause := by
  intro set
  rw [bind_apply]
  refine (h set).rejects ?_
  rintro ⟨value, set'⟩ ⟨rfl, hvalue⟩
  exact hnext value hvalue set'

theorem Rejects.lift {reader : TokenReader α} (h : reader.Rejects pieces cause) :
    Rejects (liftM reader) pieces cause := by
  intro set
  rw [liftM_apply]
  exact h.bind _

section Literals

variable {text : String} {error : LiteralError} (hvalue : Number.ofText text = .error error)
  {later : List Piece} (hlater : later ≠ [])
include hvalue hlater

theorem itemWithin_rejects (fuel : Nat) (origin : Origin) (inRange : Bool) :
    Rejects (itemWithin (fuel + 2) origin inRange) (leftPiece :: (.number, text) :: later)
      (.literal error) := by
  have hleft : leftPiece.1 ≠ .space := by simp [leftPiece]
  refine (Delivers.lift (.nextNonSpace (.inl rfl) hleft (by simp))).rejects ?_
  rintro _ ⟨span, rfl⟩
  refine (Delivers.lift (.nextNonSpace (.inl rfl) (by simp) hlater)).rejects ?_
  rintro _ ⟨span', rfl⟩
  refine (Delivers.lift (.putBack (by simp) span' text)).rejects fun _ _ => ?_
  exact (Rejects.lift (pipeline_rejects hvalue hlater .command)).bind _

theorem topLevel_rejects (origin : Origin) :
    Rejects (topLevel origin) (leftPiece :: (.number, text) :: later) (.literal error) := by
  refine Delivers.getCursor.rejects fun c hc => ?_
  refine Rejects.bind ?_ _
  obtain ⟨fuel, hfuel⟩ := c.exists_fuel_eq (show 1 ≤ 8 by decide)
  rw [hfuel]
  refine (Delivers.lift .peek).rejects ?_
  rintro _ ⟨span, rfl⟩
  refine (definitionStart?_delivers_action rfl hlater).rejects ?_
  rintro _ rfl
  refine Delivers.getCursor.rejects fun c' _ => ?_
  obtain ⟨fuel', hfuel'⟩ := c'.exists_fuel_eq (show 2 ≤ 8 by decide)
  rw [hfuel']
  exact (itemWithin_rejects hvalue hlater fuel' origin false).bind _

end Literals

end TreeReader

/-! ## Sources -/

theorem TemplateSet.ofTokens_eq_error
    {origin : Origin} {tokens : List Token} {halt : Halt}
    (h : TreeReader.topLevel origin NameMap.empty (Cursor.ofTokens tokens) = .error halt) :
    TemplateSet.ofTokens origin tokens = .error halt := by
  unfold TemplateSet.ofTokens
  rw [TreeReader.templates_eq]
  simp [StateT.run, Bind.bind, StateT.bind, Except.bind, h]

/-- A number literal alone between delimiters is cut out as one token. -/
theorem tokenize_number {text : String} (h : IsNumeral text.toList) :
    ∃ tokens, tokenize .standard (delimited text) = .ok tokens ∧
      tokens.map Token.piece =
        [leftPiece, (.number, text), rightPiece, (.eof, "")] := by
  have hright : LexesAction 0 ['\x7d', '\x7d'] [rightPiece, (.eof, "")] :=
    LexesAction.rightDelim LexesAfterText.eof.lexesFrom
  have hends : EndsNumber ['\x7d', '\x7d'] := by
    rintro c ⟨⟩
    exact .inr (.inr rfl)
  have hnumber := LexesAction.lexeme (.number h) hends (.plain (by simp) (by simp)) hright
  have hlexes := (LexesAfterText.leftDelim (h.1.opens _) hnumber).lexesFrom
  rw [String.ofList_toList] at hlexes
  have hsource : (delimited text).toList =
      '\x7b' :: '\x7b' :: (text.toList ++ ['\x7d', '\x7d']) := by
    simp [delimited, String.toList_append]
  rw [← hsource] at hlexes
  exact hlexes 0

/-- A number literal without value makes reading fail. -/
theorem TemplateSet.parse_number_eq_error
    {text : String} (h : IsNumeral text.toList) {error : LiteralError}
    (hvalue : Number.ofText text = .error error) (name : String) :
    ∃ span, TemplateSet.parse .standard name (delimited text) =
      .error (.fault ⟨.literal error, span⟩) := by
  obtain ⟨tokens, htokens, hpieces⟩ := tokenize_number h
  have hne : tokens ≠ [] := by
    rintro rfl
    simp at hpieces
  have hcursor := (Cursor.pieces_ofTokens hne).trans hpieces
  obtain ⟨span, hread⟩ := TreeReader.topLevel_rejects hvalue (by simp)
    ⟨name, delimited text⟩ NameMap.empty _ hcursor
  refine ⟨span, ?_⟩
  unfold TemplateSet.parse
  rw [htokens]
  exact TemplateSet.ofTokens_eq_error hread

end TemplateTyping
