import TemplateTyping.Proofs.Tree.StringEnds
import TemplateTyping.Proofs.Tree.Termination

/-!
# Faults of strings

A source is never refused for a string whose quotes are wrong: where the lexer has ended a string,
decoding ends it as well.  The lexer reports no faults of literals at all.  It is known which faults
the readers of pipelines and of trees report: of those, only a literal that is misspelled could
blame quotes, and it does not if the lexer has cut it.
-/

namespace TemplateTyping

open Lexer

/-- Reading stopped because of the quotes of a string. -/
def Halt.BlamesQuotes : Halt → Prop
  | .fault reported => ∃ text, reported.cause = .literal (.invalidQuotedString text)
  | _ => False

theorem Halt.not_blamesQuotes {cause : SyntaxCause} (h : cause.isLiteral = false) (span : Span) :
    ¬(Halt.fault ⟨cause, span⟩).BlamesQuotes := by
  rintro ⟨text, rfl⟩
  cases h

/-! ## The lexer -/

/-- Every error that the outcome can be has a property. -/
def Except.FailsWith {ε α : Type} (p : ε → Prop) (outcome : Except ε α) : Prop :=
  ∀ error, outcome = .error error → p error

namespace Except.FailsWith

variable {ε α β : Type} {p : ε → Prop}

theorem ok (value : α) : FailsWith p (.ok value) := by
  intro error h
  cases h

theorem error {error : ε} (h : p error) : FailsWith (α := α) p (.error error) := by
  rintro _ ⟨⟩
  exact h

theorem map {outcome : Except ε α} (h : FailsWith p outcome) (f : α → β) :
    FailsWith p (outcome.map f) := by
  cases outcome with
  | error error => exact .error (h error rfl)
  | ok value => exact .ok _

theorem ite {q : Prop} [Decidable q] {first second : Except ε α} (hfirst : FailsWith p first)
    (hsecond : FailsWith p second) : FailsWith p (if q then first else second) := by
  split
  · exact hfirst
  · exact hsecond

end Except.FailsWith

/-- The fault of a stop is not one of a literal. -/
def Lexer.Stop.IsOutside (stop : Stop) : Prop := stop.cause.isLiteral = false

/-- The fault is not one of a literal. -/
def SyntaxFault.IsOutside (fault : SyntaxFault) : Prop := fault.cause.isLiteral = false

theorem quotedLength_isOutside
    (quote : Char) (quoted : QuotedLiteral) (skip : Nat) (cs : List Char) :
    Except.FailsWith Stop.IsOutside (quotedLength quote quoted skip cs) := by
  fun_induction quotedLength quote quoted skip cs with
  | case1 | case2 | case3 | case5 => exact .error rfl
  | case4 skip c cs _ ih => exact ih.map _
  | case6 => exact .ok _
  | case7 skip c cs _ _ _ ih => exact ih.map _

theorem wordLength_isOutside (d : Delimiters) (skip : Nat) (cs : List Char) :
    Except.FailsWith Stop.IsOutside (wordLength d skip cs) :=
  .ite (.ok _) (.error rfl)

theorem numberLength_isOutside (cs : List Char) :
    Except.FailsWith Stop.IsOutside (numberLength cs) := by
  unfold numberLength
  dsimp only
  split
  · exact .error rfl
  · refine .ite ?_ (.ite (.error rfl) (.ok _))
    split
    · exact .ite (.ite (.error rfl) (.ok _)) (.error rfl)
    · exact .error rfl

theorem scan_isOutside (d : Delimiters) (c : Char) (cs : List Char) :
    Except.FailsWith Stop.IsOutside (scan d c cs) := by
  have hword := wordLength_isOutside d 1 cs
  have hquoted : ∀ {quote quoted},
      Except.FailsWith Stop.IsOutside (quotedLength quote quoted 1 cs) :=
    quotedLength_isOutside _ _ 1 cs
  -- One alternative for each character that can start a token, in the order of the lexer.
  refine .ite (.ok _) <| .ite (.ok _) <| .ite (.ite (.ok _) (.error rfl)) <| .ite (.ok _) <|
    .ite (.ok _) <| .ite (.ok _) <| .ite (.ok _) <| .ite (hquoted.map _) <| .ite ?_ <|
    .ite (hquoted.map _) <| .ite (.ite (.ok _) (hword.map _)) <|
    .ite (.ite (.ok _) (hword.map _)) <| .ite ((numberLength_isOutside _).map _) <|
    .ite (hword.map _) (.error rfl)
  split
  · exact .ok _
  · exact .error rfl

theorem stepComment_isOutside (d : Delimiters) (opening inner : Place) :
    Except.FailsWith SyntaxFault.IsOutside (stepComment d opening inner) := by
  unfold stepComment
  split
  · exact .error rfl
  · dsimp only
    split
    · exact .error rfl
    · exact .ok _

theorem stepText_isOutside (d : Delimiters) (place : Place) (count : Nat) :
    Except.FailsWith SyntaxFault.IsOutside (stepText d place count) := by
  refine .ite ?_ (.ok _)
  split
  · rename_i fault hfault
    exact .error (stepComment_isOutside _ _ _ fault hfault)
  · exact .ok _

theorem stepAction_isOutside
    (d : Delimiters) (start depth : Nat) (place : Place) (c : Char) (cs : List Char) :
    Except.FailsWith SyntaxFault.IsOutside (stepAction d start depth place c cs) := by
  unfold stepAction
  split
  · exact .ite (.ok _) (.error rfl)
  · split
    · rename_i stop hstop
      exact .error (scan_isOutside d c cs stop hstop)
    · dsimp only
      split
      · exact .ok _
      · exact .error rfl
      · exact .ok _
      · exact .ok _

theorem step_isOutside (d : Delimiters) (mode : Mode) (place : Place) :
    Except.FailsWith SyntaxFault.IsOutside (step d mode place) := by
  unfold step
  split
  · exact .ok _
  · split
    · exact .ok _
    · exact (stepText_isOutside d place _).map _
  · exact .error rfl
  · exact (stepAction_isOutside d _ _ place _ _).map _

theorem tokensFrom_isOutside (d : Delimiters) (mode : Mode) (place : Place) :
    Except.FailsWith SyntaxFault.IsOutside (tokensFrom d mode place) := by
  fun_induction tokensFrom d mode place with
  | case1 mode place fault hstep => exact .error (step_isOutside d mode place fault hstep)
  | case2 => exact .ok _
  | case3 mode place s hstep _ ih => exact ih.map _

/-! ## Numbers -/

/-- Whether the quotes of a string are to blame. -/
def LiteralError.isOfQuotes : LiteralError → Bool
  | .invalidQuotedString _ => true
  | _ => false

/-- The quotes of a string are not to blame for a literal without value. -/
def LiteralError.SparesQuotes (error : LiteralError) : Prop := error.isOfQuotes = false

theorem Quotation.character_sparesQuotes (text : String) :
    Except.FailsWith LiteralError.SparesQuotes (Quotation.character text) := by
  unfold Quotation.character
  split
  · split
    · exact .ok _
    · exact .error rfl
    · exact .error rfl
  · exact .ite (.error rfl) (.ok _)
  · exact .error rfl

namespace Number

theorem ofCharacter_sparesQuotes (text : String) :
    Except.FailsWith LiteralError.SparesQuotes (ofCharacter text) :=
  (Quotation.character_sparesQuotes text).map _

theorem ofImaginary_sparesQuotes (text : String) (cs : List Char) :
    Except.FailsWith LiteralError.SparesQuotes (ofImaginary text cs) := by
  unfold ofImaginary
  split
  · exact .error rfl
  · exact .ite (.ok _) (.ok _)

theorem ofReal_sparesQuotes (text : String) (cs : List Char) :
    Except.FailsWith LiteralError.SparesQuotes (ofReal text cs) := by
  unfold ofReal
  split
  · split
    · exact .error rfl
    · exact .ite (.ok _) (.error rfl)
  · exact .ok _

theorem ofText_sparesQuotes (text : String) :
    Except.FailsWith LiteralError.SparesQuotes (ofText text) :=
  .ite (ofImaginary_sparesQuotes _ _) (ofReal_sparesQuotes _ _)

end Number

/-- A string or a raw string that the lexer has cut has the quotes that decoding looks for. -/
theorem Token.IsLexed.string_sparesQuotes
    {token : Token} (h : token.IsLexed) (hkind : token.kind = .string ∨ token.kind = .rawString) :
    Except.FailsWith LiteralError.SparesQuotes (Quotation.string token.text) := by
  rcases hkind with hkind | hkind
  · rcases h.string_value_or_escape hkind with ⟨value, hvalue⟩ | hvalue <;> rw [hvalue]
    · exact .ok value
    · exact .error rfl
  · obtain ⟨value, hvalue⟩ := h.exists_rawString_value hkind
    rw [hvalue]
    exact .ok value

/-! ## Sources -/

theorem ReportsPipe.not_blamesQuotes
    {source : List Token} {fault : SyntaxFault} (hlexed : ∀ token ∈ source, token.IsLexed)
    (h : ReportsPipe source fault) : ¬(Halt.fault fault).BlamesQuotes := by
  cases h with
  | token _ hcause | missing _ hcause | command _ _ hcause | fields _ hcause =>
      exact Halt.not_blamesQuotes hcause _
  | @literal token error hmem hmisspells =>
      have hspares : error.SparesQuotes := by
        cases hmisspells with
        | character hvalue => exact Number.ofCharacter_sparesQuotes token.text error hvalue
        | number hvalue => exact Number.ofText_sparesQuotes token.text error hvalue
        | string hkind hvalue => exact (hlexed token hmem).string_sparesQuotes hkind error hvalue
      rintro ⟨text, ⟨⟩⟩
      cases hspares

theorem Reports.not_blamesQuotes
    {origin : Origin} {source : List Token} {fault : SyntaxFault}
    (hlexed : ∀ token ∈ source, token.IsLexed) (h : Reports origin source fault) :
    ¬(Halt.fault fault).BlamesQuotes := by
  cases h with
  | pipe hpipe => exact hpipe.not_blamesQuotes hlexed
  | ending _ hcause | outside _ hcause => exact Halt.not_blamesQuotes hcause _
  | refused => exact Halt.not_blamesQuotes rfl _

/-- No source is refused for the quotes of a string. -/
theorem TemplateSet.not_blamesQuotes_of_parse
    {d : Delimiters} {name source : String} {halt : Halt}
    (h : TemplateSet.parse d name source = .error halt) : ¬halt.BlamesQuotes := by
  obtain ⟨fault, rfl, hfault | ⟨tokens, htokens, hfault⟩⟩ := TemplateSet.reports_of_parse h
  · exact Halt.not_blamesQuotes (tokensFrom_isOutside d .text _ fault hfault) fault.span
  · exact hfault.not_blamesQuotes (tokenize_lexed htokens)

/-- Decoding ends a string where the lexer has ended it.  Of the tokens of a source, with the text
that stands there, every raw string has a value, and every string has one unless an escape sequence
of it is wrong; so no source is refused because of the quotes of a string. -/
theorem TemplateSet.parse_ends_strings (d : Delimiters) (name source : String) :
    (∀ tokens, tokenize d source = .ok tokens → ∀ token ∈ tokens,
      token.StandsIn source ∧
        (token.kind = .rawString → ∃ value, Quotation.string token.text = .ok value) ∧
        (token.kind = .string → (∃ value, Quotation.string token.text = .ok value) ∨
          Quotation.string token.text = .error (.invalidEscape token.text))) ∧
      ∀ text span, TemplateSet.parse d name source ≠
        .error (.fault ⟨.literal (.invalidQuotedString text), span⟩) := by
  constructor
  · intro tokens htokens token htoken
    have hlexed := tokenize_lexed htokens token htoken
    have hlaid : Laid d none 0 source.toList tokens :=
      tokensFrom_laid (.start d source.toList) rfl htokens
    have hsource : source.toList = [] ++ source.toList := rfl
    exact ⟨hlaid.stands hsource rfl token htoken, hlexed.exists_rawString_value,
      hlexed.string_value_or_escape⟩
  · intro text span hparse
    exact TemplateSet.not_blamesQuotes_of_parse hparse ⟨text, rfl⟩

/-- A string whose escape sequence would reach beyond a quote that the lexer passes over, and a raw
string that is a quote. -/
def quotesSource : String := "\x7b\x7b\"\\x\\\"\" | f \x60\"\x60\x7d\x7d"

theorem TemplateSet.parse_ends_strings_quotes :
    ∃ tokens, tokenize .standard quotesSource = .ok tokens ∧
      tokens.map (·.text) = ["\x7b\x7b", "\"\\x\\\"\"", " ", "|", " ", "f", " ", "\x60\"\x60",
        "\x7d\x7d", ""] ∧
      ((∃ value, Quotation.string "\"\\x\\\"\"" = .ok value) ∨
        Quotation.string "\"\\x\\\"\"" = .error (.invalidEscape "\"\\x\\\"\"")) ∧
      ∃ value, Quotation.string "\x60\"\x60" = .ok value := by
  have htokens : tokenize .standard quotesSource = .ok
      [⟨.leftDelim, ⟨0, 2⟩, "\x7b\x7b"⟩, ⟨.string, ⟨2, 8⟩, "\"\\x\\\"\""⟩, ⟨.space, ⟨8, 9⟩, " "⟩,
        ⟨.pipe, ⟨9, 10⟩, "|"⟩, ⟨.space, ⟨10, 11⟩, " "⟩, ⟨.identifier "f", ⟨11, 12⟩, "f"⟩,
        ⟨.space, ⟨12, 13⟩, " "⟩, ⟨.rawString, ⟨13, 16⟩, "\x60\"\x60"⟩,
        ⟨.rightDelim, ⟨16, 18⟩, "\x7d\x7d"⟩, ⟨.eof, ⟨18, 18⟩, ""⟩] :=
    Except.eq_ok_of_toOption (by decide +kernel)
  have hends := (TemplateSet.parse_ends_strings .standard "page" quotesSource).1 _ htokens
  refine ⟨_, htokens, rfl, ?_, ?_⟩
  · exact (hends ⟨.string, ⟨2, 8⟩, "\"\\x\\\"\""⟩ (by simp)).2.2 rfl
  · exact (hends ⟨.rawString, ⟨13, 16⟩, "\x60\"\x60"⟩ (by simp)).2.1 rfl

end TemplateTyping
