import TemplateTyping.Proofs.Token.Tiling
import TemplateTyping.Proofs.Tree.Readable
import TemplateTyping.Tree.Parser

/-!
# What readers are given and how they run

The tokens that readers are given come from the lexer, which has cut each of them from a
lexeme of its kind.  The names and literals in them are therefore such as readable nodes
have.  Passing over tokens splits them in two.  A reader of trees runs as a reader of tokens
does, with the set of templates beside it.
-/

namespace TemplateTyping

open Lexer

/-! ## Tokens of the lexer -/

/-- Two kinds of tokens differ if only one of them is in a class. -/
theorem TokenKind.ne_of_class
    {p : TokenKind → Bool} {kind other : TokenKind} (h : p kind = true)
    (hother : p other = false) : kind ≠ other := by
  rintro rfl
  rw [h] at hother
  cases hother

theorem tokenize_lexed
    {d : Delimiters} {source : String} {tokens : List Token}
    (h : tokenize d source = .ok tokens) : ∀ token ∈ tokens, token.IsLexed := by
  have hlaid : Laid d none 0 source.toList tokens :=
    tokensFrom_laid (.start d source.toList) rfl h
  intro token htoken
  rcases hlaid.covers token htoken with hkind | ⟨start, hcovers⟩
  · rw [Token.IsLexed, hkind]
    trivial
  · exact hcovers.lexed

/-- Passing over tokens splits the tokens in two. -/
theorem Cursor.passFrom_spec
    (p : TokenKind → Bool) (current : Token) (lastEnd : Nat) (later : List Token) :
    current :: later = (passFrom p current lastEnd later).1 ++
        (passFrom p current lastEnd later).2.current ::
          (passFrom p current lastEnd later).2.later ∧
      ∀ token ∈ (passFrom p current lastEnd later).1, p token.kind = true := by
  induction later generalizing current lastEnd with
  | nil => simp [passFrom]
  | cons token later ih =>
      rw [passFrom]
      split
      · rename_i hcurrent
        obtain ⟨hsplit, hpassed⟩ := ih token current.span.stop
        refine ⟨by rw [hsplit]; rfl, ?_⟩
        intro other hother
        rcases List.mem_cons.mp hother with rfl | hother
        · exact hcurrent
        · exact hpassed other hother
      · simp

/-! ## Names and literals -/

namespace Token

variable {token : Token} {name : String}

/-- A token inside of an action is read from a lexeme and carries its name. -/
theorem IsLexed.lexeme (h : token.IsLexed) (hkind : token.kind.IsInner) :
    Lexeme token.kind token.text.toList ∧ token.Carries .standard := by
  obtain ⟨kind, span, text⟩ := token
  have hlexeme : Lexeme kind text.toList := by
    cases kind with
    | text content => exact hkind.elim
    | comment content => exact hkind.elim
    | leftDelim => exact hkind.elim
    | rightDelim => exact hkind.elim
    | eof => exact hkind.elim
    | _ => exact h
  have hcarries := (hlexeme.inner (d := .standard) span).2.2
  rw [String.ofList_toList] at hcarries
  exact ⟨hlexeme, hcarries⟩

theorem IsLexed.fieldName (h : token.IsLexed) (hkind : token.kind = .field name) :
    IsFieldName name := by
  have hlexeme := h.lexeme (by rw [hkind]; trivial)
  simp only [Carries, hkind] at hlexeme
  rw [IsFieldName, ← hlexeme.2]
  exact hlexeme.1

theorem IsLexed.variableName (h : token.IsLexed) (hkind : token.kind = .variable name) :
    IsVariableName name := by
  have hlexeme := h.lexeme (by rw [hkind]; trivial)
  simp only [Carries, hkind] at hlexeme
  obtain ⟨hlexeme, rfl⟩ := hlexeme
  exact hlexeme

theorem IsLexed.identifier (h : token.IsLexed) (hkind : token.kind = .identifier name) :
    IsIdentifier name := by
  have hlexeme := h.lexeme (by rw [hkind]; trivial)
  simp only [Carries, hkind] at hlexeme
  obtain ⟨hlexeme, rfl⟩ := hlexeme
  exact hlexeme

end Token

namespace Number

theorem withIntegers_text (number : Number) (value : Float) :
    (number.withIntegers value).text = number.text := by
  unfold withIntegers
  cases Real.exactInt? value with
  | none =>
      cases Real.exactNat? value with
      | none => rfl
      | some n => rfl
  | some i =>
      cases Real.exactNat? value with
      | none => rfl
      | some n => rfl

theorem ofText_text
    {text : String} {number : Number} (h : ofText text = .ok number) :
    number.text = text := by
  unfold ofText at h
  simp only at h
  split at h
  · unfold ofImaginary at h
    split at h
    · cases h
    · simp only at h
      split at h
      · cases h
        rw [withIntegers_text]
      · cases h
        rfl
  · unfold ofReal at h
    split at h
    · split at h
      · cases h
      · split at h
        · cases h
          rw [withIntegers_text]
        · cases h
    · cases h
      rfl

theorem ofCharacter_text
    {text : String} {number : Number} (h : ofCharacter text = .ok number) :
    number.text = text := by
  unfold ofCharacter at h
  cases hc : Quotation.character text with
  | error error => simp [hc, Bind.bind, Except.bind] at h
  | ok c =>
      simp only [hc, Bind.bind, Except.bind] at h
      cases h
      rfl

end Number

/-! ## Pipelines -/

/-- The number of variables that a pipeline may set in a clause. -/
def Clause.limit : Clause → Nat
  | .branch keyword => keyword.limit
  | _ => 1

/-- Whether a token of this kind is a name after a dot. -/
def TokenReader.isField : TokenKind → Bool
  | .field _ => true
  | _ => false

/-! ## Readers of trees -/

/-- A template that is defined is left out only if it is blank; otherwise it is put
under its name, where no template with content stands. -/
theorem TemplateSet.define?_cases
    {set set' : TemplateSet} {tree : Tree} (h : set.define? tree = some set') :
    set' = set ∧ tree.isBlank = true ∨
      set' = set.put tree ∧
        ∀ existing, set.get? tree.name = some existing → existing.isBlank = true := by
  unfold TemplateSet.define? at h
  split at h
  · rename_i existing hexisting
    split at h
    · rename_i hblank
      exact .inl ⟨(Option.some.inj h).symm, hblank⟩
    · split at h
      · rename_i hblank
        right
        refine ⟨(Option.some.inj h).symm, ?_⟩
        intro other hother
        rw [hexisting] at hother
        rwa [← Option.some.inj hother]
      · cases h
  · rename_i hnone
    right
    refine ⟨(Option.some.inj h).symm, ?_⟩
    intro existing hexisting
    rw [hnone] at hexisting
    cases hexisting

namespace TreeReader

theorem bind_apply {α β : Type}
    (reader : TreeReader α) (next : α → TreeReader β) (set : TemplateSet) :
    (reader >>= next) set = reader set >>= fun result => next result.1 result.2 :=
  rfl

theorem liftM_apply {α : Type} (reader : TokenReader α) (set : TemplateSet) :
    (liftM reader : TreeReader α) set = reader >>= fun value => pure (value, set) :=
  rfl

theorem define_apply (tree : Tree) (span : Span) (set : TemplateSet) :
    define tree span set =
      match set.define? tree with
      | some set' => pure ((), set')
      | none => TokenReader.fail span (.multipleDefinition tree.name) := by
  let refuse : TokenReader Unit :=
    TokenReader.fail span (.multipleDefinition tree.name)
  have hrun : define tree span set =
      (match set.define? tree with
      | some set' => (MonadStateOf.set set' : TreeReader Unit)
      | none => liftM refuse) set := rfl
  rw [hrun]
  cases set.define? tree with
  | some set' => rfl
  | none => rfl

end TreeReader

end TemplateTyping
