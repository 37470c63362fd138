import TemplateTyping.Proofs.Literal.Escapes
import TemplateTyping.Proofs.Tree.Reading

/-!
# Where strings end

The lexer looks for the quote that closes a string and lets a backslash protect the one character
after it.  Decoding takes an escape sequence as a whole, up to nine characters after the backslash.
The two stay in step, for only the first of these characters can be one that the lexer has to look
at: the others are digits or a plus sign.  So decoding meets no quote and no newline that the lexer
has passed over, and the only thing wrong with a string can be one of its escape sequences.
-/

namespace TemplateTyping

/-! ## Quoted texts -/

namespace Lexer.QuotedRest

variable {quote c : Char} {text front rest : List Char}

/-- A quoted text ends with its quote. -/
theorem exists_body (h : QuotedRest quote text) : ∃ body, text = body ++ [quote] := by
  induction h with
  | close => exact ⟨[], rfl⟩
  | escaped _ _ ih =>
      obtain ⟨body, rfl⟩ := ih
      exact ⟨_ :: _ :: body, rfl⟩
  | plain _ _ _ _ ih =>
      obtain ⟨body, rfl⟩ := ih
      exact ⟨_ :: body, rfl⟩

/-- Before the end of a quoted text, a character without a backslash is neither a quote nor a
newline. -/
theorem of_cons (h : QuotedRest quote (c :: text)) (hslash : c ≠ '\\') (htext : text ≠ []) :
    c ≠ '\n' ∧ c ≠ quote ∧ QuotedRest quote text := by
  cases h with
  | close => exact absurd rfl htext
  | escaped => exact absurd rfl hslash
  | plain _ hnewline hquote hrest => exact ⟨hnewline, hquote, hrest⟩

/-- After a backslash the lexer goes on behind the next character. -/
theorem of_backslash (hquote : quote ≠ '\\') (h : QuotedRest quote ('\\' :: c :: text)) :
    QuotedRest quote text := by
  cases h with
  | escaped _ hrest => exact hrest
  | plain hslash => exact absurd rfl hslash

/-- Characters other than the backslash do not change what the lexer does behind them. -/
theorem of_append (h : QuotedRest quote (front ++ rest)) (hfront : '\\' ∉ front)
    (hrest : rest ≠ []) : QuotedRest quote rest := by
  induction front with
  | nil => exact h
  | cons c front ih =>
      rw [List.mem_cons, not_or] at hfront
      have htail : front ++ rest ≠ [] := by simp [hrest]
      exact ih (h.of_cons (Ne.symm hfront.1) htail).2.2 hfront.2

end Lexer.QuotedRest

open Lexer (QuotedRest Lexeme)

/-! ## Decoding -/

namespace Quotation

theorem backslash_notMem_digits
    {base : Nat} {cs : List Char} {ds : List Nat} (h : List.Forall₂ (Integer.IsDigit base) cs ds) :
    '\\' ∉ cs := by
  intro hmem
  obtain ⟨d, hd⟩ : ∃ d, Integer.IsDigit base '\\' d := by
    induction h with
    | nil => cases hmem
    | cons hdigit _ ih =>
        rcases List.mem_cons.mp hmem with rfl | hmem
        · exact ⟨_, hdigit⟩
        · exact ih hmem
  have hnone : Digits.value? base '\\' = none := rfl
  rw [hd.value?_eq] at hnone
  cases hnone

theorem WritesNumber.backslash_notMem
    {base n : Nat} {cs : List Char} (h : WritesNumber base cs n) : '\\' ∉ cs := by
  cases h with
  | digits _ hds => exact backslash_notMem_digits hds
  | plus _ hds => simpa using backslash_notMem_digits hds

/-- Only the first character of an escape sequence can be a backslash. -/
theorem Escape.exists_cons {taken : List Char} {c : Char} (h : Escape taken c) :
    ∃ first front, taken = first :: front ∧ '\\' ∉ front := by
  cases h with
  | simple hmem => exact ⟨_, [], rfl, by simp⟩
  | hexadecimal _ _ hwrites => exact ⟨_, _, rfl, hwrites.backslash_notMem⟩
  | octal hlength hds _ =>
      have hnone := backslash_notMem_digits hds
      cases taken with
      | nil => cases hlength
      | cons first front => exact ⟨first, front, rfl, fun hmem => hnone (.tail _ hmem)⟩

/-- What the lexer takes for the text between two quotes has no quote and no newline where
decoding looks for one. -/
theorem decode_ne_quoteOrNewline
    {body : List Char} (h : QuotedRest '"' (body ++ ['"'])) :
    decode body ≠ .error .quoteOrNewline := by
  have hmap : ∀ {outcome : Except Fault (List Char)} {c : Char},
      outcome ≠ .error .quoteOrNewline →
        outcome.map (c :: ·) ≠ .error .quoteOrNewline := by
    intro outcome c hne
    cases outcome with
    | error fault => exact fun heq => hne (congrArg _ (Except.error.inj heq))
    | ok value => simp [Except.map]
  fun_induction decode body with
  | case1 => simp
  | case2 cs c rest hread _ ih =>
      obtain ⟨taken, rfl, hescape⟩ := escape?_eq_some_iff.mp hread
      obtain ⟨first, front, rfl, hfront⟩ := hescape.exists_cons
      have hafter : QuotedRest '"' (front ++ (rest ++ ['"'])) := by
        simpa using QuotedRest.of_backslash (by decide) h
      exact hmap (ih (hafter.of_append hfront (by simp)))
  | case3 => simp
  | case4 c cs hslash hquote =>
      obtain ⟨hnewline, hclosing, -⟩ := h.of_cons hslash (by simp)
      exact absurd hquote (not_or.mpr ⟨hclosing, hnewline⟩)
  | case5 c cs hslash _ ih => exact hmap (ih (h.of_cons hslash (by simp)).2.2)

end Quotation

/-! ## Strings of the lexer -/

/-- The texts of strings and raw strings, quotes included. -/
theorem Lexer.Lexeme.quotes {kind : TokenKind} {text : List Char} (h : Lexeme kind text) :
    (kind = .rawString → ∃ body, text = '\x60' :: body ++ ['\x60']) ∧
      (kind = .string → ∃ body, text = '"' :: body ++ ['"'] ∧ QuotedRest '"' (body ++ ['"'])) := by
  cases h with
  | rawString => exact ⟨fun _ => ⟨_, rfl⟩, by simp⟩
  | string hrest =>
      obtain ⟨body, rfl⟩ := hrest.exists_body
      exact ⟨by simp, fun _ => ⟨body, rfl, hrest⟩⟩
  | word =>
      exact ⟨fun hkind => absurd hkind (TokenKind.ofWord_ne rfl _),
        fun hkind => absurd hkind (TokenKind.ofWord_ne rfl _)⟩
  | _ => simp

namespace Token

variable {token : Token}

/-- The text of a raw string has a value. -/
theorem IsLexed.exists_rawString_value (h : token.IsLexed) (hkind : token.kind = .rawString) :
    ∃ value, Quotation.string token.text = .ok value := by
  have hlexeme := (h.lexeme (by simp [hkind, TokenKind.IsInner])).1
  obtain ⟨body, htext⟩ := hlexeme.quotes.1 hkind
  refine ⟨String.ofList (body.filter (· != '\r')), Quotation.StringLiteral.string_eq ?_⟩
  rw [htext, String.toList_ofList]
  exact .raw body

/-- The text of a string has a value, or it has none because of an escape sequence. -/
theorem IsLexed.string_value_or_escape (h : token.IsLexed) (hkind : token.kind = .string) :
    (∃ value, Quotation.string token.text = .ok value) ∨
      Quotation.string token.text = .error (.invalidEscape token.text) := by
  have hlexeme := (h.lexeme (by simp [hkind, TokenKind.IsInner])).1
  obtain ⟨body, htext, hrest⟩ := hlexeme.quotes.2 hkind
  have hraw : Quotation.between? '\x60' token.text.toList = none := by
    rw [htext]
    rfl
  have hquoted := Quotation.between?_eq_some_iff.mpr htext
  cases hdecode : Quotation.decode body with
  | ok value =>
      left
      exact ⟨String.ofList value, by simp only [Quotation.string, hraw, hquoted, hdecode]⟩
  | error fault =>
      cases fault with
      | escape => exact .inr (by simp only [Quotation.string, hraw, hquoted, hdecode])
      | quoteOrNewline => exact absurd hdecode (Quotation.decode_ne_quoteOrNewline hrest)

end Token

end TemplateTyping
