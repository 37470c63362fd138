import TemplateTyping.Proofs.Tree.Pieces
import TemplateTyping.Proofs.Tree.Reading

/-!
# What readers deliver

A small logic of total correctness for readers: a reader delivers if it succeeds on
all tokens with given pieces, leaves given pieces behind, and its result has a
property.  A reader of trees that delivers leaves the collected templates as they are.
-/

namespace TemplateTyping

open Lexer

/-- The pieces from here on. -/
def Cursor.pieces (c : Cursor) : List Piece := (c.current :: c.later).map Token.piece

/-! ## Passing over tokens -/

namespace Cursor

variable {p : TokenKind → Bool} {piece : Piece} {later : List Piece}

theorem passFrom_of_append
    (hpiece : p piece.1 = false) {front : List Piece}
    (hfront : ∀ other ∈ front, p other.1 = true)
    (current : Token) (lastEnd : Nat) (tokens : List Token)
    (h : (current :: tokens).map Token.piece = front ++ piece :: later) :
    (passFrom p current lastEnd tokens).1.map Token.piece = front ∧
      (passFrom p current lastEnd tokens).2.pieces = piece :: later := by
  induction front generalizing current lastEnd tokens with
  | nil =>
      have hcurrent : current.piece = piece := (List.cons.inj h).1
      have hkind : ¬ p current.kind = true := by
        rw [← hcurrent] at hpiece
        exact Bool.eq_false_iff.mp hpiece
      cases tokens with
      | nil => exact ⟨rfl, h⟩
      | cons token tokens =>
          rw [passFrom, if_neg hkind]
          exact ⟨rfl, h⟩
  | cons other front ih =>
      obtain ⟨hcurrent, htokens⟩ := List.cons.inj h
      have hkind : p current.kind = true := by
        have hother := hfront other (by simp)
        rw [← hcurrent] at hother
        exact hother
      cases tokens with
      | nil => simp at htokens
      | cons token tokens =>
          obtain ⟨hpassed, hrest⟩ := ih
            (fun other hother => hfront other (List.mem_cons_of_mem _ hother))
            token current.span.stop tokens htokens
          rw [passFrom, if_pos hkind]
          exact ⟨by rw [List.map_cons, hpassed, hcurrent], hrest⟩

/-- Tokens of a kind before a token of another kind are passed. -/
theorem pass_of_append
    (hpiece : p piece.1 = false) {front : List Piece}
    (hfront : ∀ other ∈ front, p other.1 = true) {c : Cursor}
    (h : c.pieces = front ++ piece :: later) :
    (c.pass p).1.map Token.piece = front ∧ (c.pass p).2.pieces = piece :: later :=
  passFrom_of_append hpiece hfront c.current c.lastEnd c.later h

theorem length_pieces (c : Cursor) : c.pieces.length = c.size := by
  simp [pieces, size]

theorem step_pieces
    {c : Cursor} (hlater : later ≠ []) (h : c.pieces = piece :: later) :
    c.step.pieces = later := by
  obtain ⟨current, tokens, lastEnd⟩ := c
  obtain ⟨_, htokens⟩ := List.cons.inj h
  cases tokens with
  | nil => exact absurd htokens.symm hlater
  | cons token tokens => exact htokens

end Cursor

/-! ## Readers of tokens -/

namespace TokenReader

/-- On tokens with given pieces the reader succeeds, leaves given pieces behind, and
its result has a property. -/
def Delivers {α : Type} (reader : TokenReader α) (pieces later : List Piece)
    (post : α → Prop) : Prop :=
  ∀ c : Cursor, c.pieces = pieces →
    ∃ result c', reader c = .ok (result, c') ∧ c'.pieces = later ∧ post result

/-- Nothing or one space. -/
def IsGap (gap : List Piece) : Prop := gap = [] ∨ gap = [spacePiece]

namespace Delivers

variable {α β : Type} {reader : TokenReader α} {pieces middle later : List Piece}
  {post : α → Prop}

theorem pure {value : α} (h : post value) :
    Delivers (Pure.pure value) pieces pieces post :=
  fun c hc => ⟨value, c, rfl, hc, h⟩

theorem bind
    (hreader : Delivers reader pieces middle post) {next : α → TokenReader β}
    {post' : β → Prop}
    (hnext : ∀ value, post value → Delivers (next value) middle later post') :
    Delivers (reader >>= next) pieces later post' := by
  intro c hc
  obtain ⟨value, c', hrun, hc', hvalue⟩ := hreader c hc
  obtain ⟨result, c'', hrun', hc'', hresult⟩ := hnext value hvalue c' hc'
  refine ⟨result, c'', ?_, hc'', hresult⟩
  simp only [Bind.bind, StateT.bind, hrun, Except.bind]
  exact hrun'

theorem mono
    (hreader : Delivers reader pieces later post) {post' : α → Prop}
    (h : ∀ value, post value → post' value) : Delivers reader pieces later post' := by
  intro c hc
  obtain ⟨result, c', hrun, hc', hresult⟩ := hreader c hc
  exact ⟨result, c', hrun, hc', h result hresult⟩

theorem get : Delivers get pieces pieces fun c => c.pieces = pieces :=
  fun c hc => ⟨c, c, rfl, hc, hc⟩

theorem set {c : Cursor} (h : c.pieces = later) :
    Delivers (set c) pieces later fun _ => True :=
  fun _ _ => ⟨(), c, rfl, h, trivial⟩

theorem lastEnd : Delivers lastEnd pieces pieces fun _ => True :=
  fun c hc => ⟨c.lastEnd, c, rfl, hc, trivial⟩

variable {piece : Piece}

theorem peek :
    Delivers peek (piece :: later) (piece :: later)
      fun token => ∃ span, token = ⟨piece.1, span, piece.2⟩ := by
  intro c hc
  obtain ⟨rfl, _⟩ := List.cons.inj hc
  exact ⟨c.current, c, rfl, hc, c.current.span, rfl⟩

theorem next (hlater : later ≠ []) :
    Delivers next (piece :: later) later
      fun token => ∃ span, token = ⟨piece.1, span, piece.2⟩ := by
  intro c hc
  have hstep := Cursor.step_pieces hlater hc
  obtain ⟨rfl, _⟩ := List.cons.inj hc
  exact ⟨c.current, c.step, rfl, hstep, c.current.span, rfl⟩

theorem putBack
    {kind : TokenKind} (hkind : kind ≠ .eof) (span : Span) (text : String) :
    Delivers (putBack ⟨kind, span, text⟩) later ((kind, text) :: later) fun _ => True := by
  intro c hc
  refine ⟨(), c.restore ⟨kind, span, text⟩, ?_, ?_, trivial⟩
  · simp only [TokenReader.putBack, if_neg hkind]
    rfl
  · rw [← hc]
    rfl

theorem skipSpaces {gap : List Piece} (hgap : IsGap gap) (hpiece : piece.1 ≠ .space) :
    Delivers skipSpaces (gap ++ piece :: later) (piece :: later) fun _ => True := by
  intro c hc
  have hkind : (piece.1 == TokenKind.space) = false := beq_false_of_ne hpiece
  have hfront : ∀ other ∈ gap, (other.1 == TokenKind.space) = true := by
    rcases hgap with rfl | rfl
    · simp
    · simp [spacePiece]
  have hpass := Cursor.pass_of_append (p := (· == .space)) hkind hfront hc
  exact ⟨(), (c.pass (· == .space)).2, rfl, hpass.2, trivial⟩

theorem nextNonSpace
    {gap : List Piece} (hgap : IsGap gap) (hpiece : piece.1 ≠ .space)
    (hlater : later ≠ []) :
    Delivers nextNonSpace (gap ++ piece :: later) later
      fun token => ∃ span, token = ⟨piece.1, span, piece.2⟩ :=
  (skipSpaces hgap hpiece).bind fun _ _ => next hlater

theorem peekNonSpace {gap : List Piece} (hgap : IsGap gap) (hpiece : piece.1 ≠ .space) :
    Delivers peekNonSpace (gap ++ piece :: later) (piece :: later)
      fun token => ∃ span, token = ⟨piece.1, span, piece.2⟩ :=
  (skipSpaces hgap hpiece).bind fun _ _ => peek

theorem expectRightDelim (clause : Clause) (hlater : later ≠ []) :
    Delivers (expectRightDelim clause) (rightPiece :: later) later fun _ => True := by
  refine (nextNonSpace (.inl rfl) (by simp [rightPiece]) hlater).bind ?_
  rintro _ ⟨span, rfl⟩
  exact pure trivial

theorem literal {token : Token} {value : Except LiteralError α} {result : α}
    (h : value = .ok result) :
    Delivers (literal token value) pieces pieces fun other => other = result := by
  rw [h]
  exact pure rfl

end Delivers

end TokenReader

/-! ## Readers of trees -/

namespace TreeReader

/-- On tokens with given pieces the reader succeeds, leaves given pieces behind, keeps
the templates collected, and its result has a property. -/
def Delivers {α : Type} (reader : TreeReader α) (pieces later : List Piece)
    (post : α → Prop) : Prop :=
  ∀ set : TemplateSet, TokenReader.Delivers (reader set) pieces later
    fun result => result.2 = set ∧ post result.1

namespace Delivers

variable {α β : Type} {reader : TreeReader α} {pieces middle later : List Piece}
  {post : α → Prop}

theorem pure {value : α} (h : post value) :
    Delivers (Pure.pure value) pieces pieces post :=
  fun _ => .pure ⟨rfl, h⟩

theorem bind
    (hreader : Delivers reader pieces middle post) {next : α → TreeReader β}
    {post' : β → Prop}
    (hnext : ∀ value, post value → Delivers (next value) middle later post') :
    Delivers (reader >>= next) pieces later post' := by
  intro set
  rw [bind_apply]
  refine (hreader set).bind ?_
  rintro ⟨value, set'⟩ ⟨rfl, hvalue⟩
  exact hnext value hvalue set'

theorem mono
    (hreader : Delivers reader pieces later post) {post' : α → Prop}
    (h : ∀ value, post value → post' value) : Delivers reader pieces later post' :=
  fun set => (hreader set).mono fun _ hresult => ⟨hresult.1, h _ hresult.2⟩

theorem lift {reader : TokenReader α} (h : reader.Delivers pieces later post) :
    Delivers (liftM reader) pieces later post := by
  intro set
  rw [liftM_apply]
  exact h.bind fun value hvalue => .pure ⟨rfl, hvalue⟩

theorem getCursor : Delivers (getThe Cursor) pieces pieces fun c => c.pieces = pieces :=
  lift .get

theorem setCursor {c : Cursor} (h : c.pieces = later) :
    Delivers (MonadStateOf.set c) pieces later fun _ => True :=
  lift (.set h)

end Delivers

end TreeReader

end TemplateTyping
