import TemplateTyping.Proofs.Token.Lexeme

/-!
# Quoted text is a string literal

Between double quotes only the quote and the backslash need an escape, as long as
all characters are printable ASCII characters.  Such a text is a lexeme, and its
value as a literal is the text before it was quoted.
-/

namespace TemplateTyping

open Lexer

/-- Printable ASCII characters, the space included. -/
def isPrintableAscii (c : Char) : Bool := 0x20 ≤ c.toNat && c.toNat ≤ 0x7e

namespace Quoted

variable {c : Char}

theorem ne_of_isPrintableAscii
    (h : isPrintableAscii c = true) {other : Char}
    (hother : isPrintableAscii other = false) : c ≠ other := by
  rintro rfl
  rw [h] at hother
  cases hother

/-- The quote and the backslash are escaped, all other characters stand for
themselves. -/
theorem escape_of_isPrintableAscii (h : isPrintableAscii c = true) :
    escape '"' c = if c = '"' ∨ c = '\\' then ['\\', c] else [c] := by
  have hne : ∀ other, isPrintableAscii other = false → c ≠ other :=
    fun other => ne_of_isPrintableAscii h
  have hbounds : 0x20 ≤ c.toNat ∧ c.toNat ≤ 0x7e := by
    simpa [isPrintableAscii] using h
  have hascii : c.toNat < 0x80 := by omega
  have hmark : isExtendingMark c = false := byProperty_of_ascii _ _ hascii
  have hprintable : isPrintable c = true := by
    rw [isPrintable, byProperty_of_ascii _ _ hascii]
    simp
    omega
  simp [escape, hmark, hprintable, hne '\x00' (by decide), hne '\t' (by decide),
    hne '\r' (by decide), hne '\n' (by decide)]

theorem quotedRest_of_isPrintableAscii
    {cs : List Char} (h : ∀ c ∈ cs, isPrintableAscii c = true) :
    QuotedRest '"' (cs.flatMap (escape '"') ++ ['"']) := by
  induction cs with
  | nil => exact .close
  | cons c cs ih =>
      have hc := h c (by simp)
      have hline : c ≠ '\n' := ne_of_isPrintableAscii hc (by decide)
      have hrest := ih fun c hc => h c (List.mem_cons_of_mem _ hc)
      rw [List.flatMap_cons, escape_of_isPrintableAscii hc]
      split
      · exact .escaped hline hrest
      · rename_i hplain
        rw [not_or] at hplain
        exact .plain hplain.2 hline hplain.1 hrest

theorem decode_escape
    {cs rest : List Char} (h : Quotation.escape? cs = some (c, rest)) :
    Quotation.decode ('\\' :: cs) = (Quotation.decode rest).map (c :: ·) := by
  rw [Quotation.decode]
  split
  · rename_i c' rest' heq
    rw [h] at heq
    cases heq
    rfl
  · rename_i heq
    rw [h] at heq
    cases heq

theorem decode_plain
    (hslash : c ≠ '\\') (hquote : c ≠ '"') (hline : c ≠ '\n') (cs : List Char) :
    Quotation.decode (c :: cs) = (Quotation.decode cs).map (c :: ·) := by
  rw [Quotation.decode, if_neg (by simp [hquote, hline])]
  exact hslash

theorem decode_of_isPrintableAscii
    {cs : List Char} (h : ∀ c ∈ cs, isPrintableAscii c = true) :
    Quotation.decode (cs.flatMap (escape '"')) = .ok cs := by
  induction cs with
  | nil => simp [Quotation.decode]
  | cons c cs ih =>
      have hc := h c (by simp)
      have hline : c ≠ '\n' := ne_of_isPrintableAscii hc (by decide)
      have hrest := ih fun c hc => h c (List.mem_cons_of_mem _ hc)
      rw [List.flatMap_cons, escape_of_isPrintableAscii hc]
      split
      · rename_i hescaped
        have hvalue : Quotation.escape? (c :: cs.flatMap (escape '"')) =
            some (c, cs.flatMap (escape '"')) := by
          rcases hescaped with rfl | rfl
          · rfl
          · rfl
        have hdecode := decode_escape hvalue
        rw [hrest] at hdecode
        exact hdecode
      · rename_i hplain
        rw [not_or] at hplain
        have hdecode := decode_plain hplain.2 hplain.1 hline (cs.flatMap (escape '"'))
        rw [hrest] at hdecode
        exact hdecode

/-- Reading undoes quoting. -/
theorem string_text
    {s : String} (h : ∀ c ∈ s.toList, isPrintableAscii c = true) :
    Quotation.string (text s) = .ok s := by
  simp [Quotation.string, Quotation.between?, text, decode_of_isPrintableAscii h]

theorem lexeme_text
    {s : String} (h : ∀ c ∈ s.toList, isPrintableAscii c = true) :
    Lexeme .string (text s).toList := by
  rw [text, String.toList_ofList]
  exact .string (quotedRest_of_isPrintableAscii h)

end Quoted

end TemplateTyping
