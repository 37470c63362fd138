import Mathlib.Data.List.Forall2
import TemplateTyping.Literal.Quotation
import TemplateTyping.Proofs.Literal.IntegerGrammar
import TemplateTyping.Proofs.Token.Lexeme

/-!
# The grammar of quoted literals

What may stand between quotes is said here as a grammar: plain characters, and escape sequences
with the characters they write.  A numeric escape has a fixed number of characters.  They are digits
that write the code point; only the first one after a mark may be a plus sign instead.  The main
statement is that a literal is accepted exactly if it follows the grammar, with the value that the
grammar gives it.
-/

namespace TemplateTyping

open Integer (IsDigit positional)

/-! ## Digits -/

/-- A character of a range is found by its distance from the first one. -/
theorem exists_eq_ofNat_of_le {c low high : Char} (hlow : low ≤ c) (hhigh : c ≤ high) :
    ∃ n ≤ high.toNat - low.toNat, c.toNat - low.toNat = n ∧ c = Char.ofNat (low.toNat + n) := by
  have hlow : low.toNat ≤ c.toNat := hlow
  have hhigh : c.toNat ≤ high.toNat := hhigh
  refine ⟨c.toNat - low.toNat, Nat.sub_le_sub_right hhigh _, rfl, ?_⟩
  rw [Nat.add_sub_cancel' hlow, Char.ofNat_toNat]

theorem Integer.IsDigit.of_value? {base : Nat} {c : Char} {d : Nat}
    (h : Digits.value? base c = some d) : IsDigit base c d := by
  obtain ⟨hvalue, hlt⟩ := Option.filter_eq_some_iff.mp h
  refine ⟨of_decide_eq_true hlt, ?_⟩
  split at hvalue
  · rename_i hdigit
    simp only [Char.isDigit, Bool.and_eq_true, decide_eq_true_eq] at hdigit
    obtain ⟨n, hn, hsub, rfl⟩ := exists_eq_ofNat_of_le hdigit.1 hdigit.2
    rw [hsub, Option.some.injEq] at hvalue
    subst hvalue
    left
    change n ≤ 9 at hn
    interval_cases n <;> rfl
  · split at hvalue
    · rename_i hletter
      obtain ⟨n, hn, hsub, rfl⟩ := exists_eq_ofNat_of_le hletter.1 hletter.2
      rw [hsub, Option.some.injEq] at hvalue
      subst hvalue
      left
      change n ≤ 5 at hn
      interval_cases n <;> rfl
    · split at hvalue
      · rename_i hletter
        obtain ⟨n, hn, hsub, rfl⟩ := exists_eq_ofNat_of_le hletter.1 hletter.2
        rw [hsub, Option.some.injEq] at hvalue
        subst hvalue
        right
        change n ≤ 5 at hn
        interval_cases n <;> rfl
      · cases hvalue

theorem Digits.extend?_eq_some_iff {base acc n : Nat} {cs : List Char} :
    Digits.extend? base acc cs = some n ↔
      ∃ ds, List.Forall₂ (IsDigit base) cs ds ∧
        n = acc * base ^ ds.length + positional base ds := by
  induction cs generalizing acc with
  | nil => simp [Digits.extend?, positional, eq_comm]
  | cons c cs ih =>
      rw [Digits.extend?]
      constructor
      · intro h
        cases hvalue : Digits.value? base c with
        | none =>
            rw [hvalue] at h
            cases h
        | some d =>
            rw [hvalue] at h
            obtain ⟨ds, hds, rfl⟩ := ih.mp h
            refine ⟨d :: ds, .cons (.of_value? hvalue) hds, ?_⟩
            rw [Integer.positional_cons]
      · rintro ⟨ds, hds, rfl⟩
        cases hds with
        | cons hdigit hds =>
            rw [hdigit.value?_eq]
            exact ih.mpr ⟨_, hds, Integer.positional_cons ..⟩

namespace Quotation

/-! ## Grammar -/

/-- Digits of a base that write a number, perhaps after a plus sign. -/
inductive WritesNumber (base : Nat) : List Char → Nat → Prop
  | digits {cs : List Char} {ds : List Nat} : cs ≠ [] → List.Forall₂ (IsDigit base) cs ds →
      WritesNumber base cs (positional base ds)
  | plus {cs : List Char} {ds : List Nat} : cs ≠ [] → List.Forall₂ (IsDigit base) cs ds →
      WritesNumber base ('+' :: cs) (positional base ds)

/-- What stands after the backslash of an escape sequence, and the character it writes. -/
inductive Escape : List Char → Char → Prop
  | simple {letter value : Char} : (letter, value) ∈ simpleEscapes → Escape [letter] value
  | hexadecimal {mark value : Char} {count : Nat} {cs : List Char} :
      (mark, count) ∈ [('x', 2), ('u', 4), ('U', 8)] → cs.length = count →
      WritesNumber 16 cs value.toNat → Escape (mark :: cs) value
  | octal {value : Char} {cs : List Char} {ds : List Nat} : cs.length = 3 →
      List.Forall₂ (IsDigit 8) cs ds → value.toNat = positional 8 ds → Escape cs value

/-- What stands between double quotes, and the text it writes. -/
inductive Interpreted : List Char → List Char → Prop
  | nil : Interpreted [] []
  | plain {c : Char} {cs value : List Char} : c ∉ ['\\', '"', '\n'] → Interpreted cs value →
      Interpreted (c :: cs) (c :: value)
  | escape {c : Char} {cs rest value : List Char} : Escape cs c → Interpreted rest value →
      Interpreted ('\\' :: cs ++ rest) (c :: value)

/-! ## Numbers -/

theorem read?_eq_some_iff {base n : Nat} {cs : List Char} :
    Digits.read? base cs = some n ↔
      cs ≠ [] ∧ ∃ ds, List.Forall₂ (IsDigit base) cs ds ∧ n = positional base ds := by
  cases cs with
  | nil => simp [Digits.read?]
  | cons c cs => simp [Digits.read?, Digits.extend?_eq_some_iff]

theorem not_isDigit_plus {base d : Nat} : ¬IsDigit base '+' d := by
  intro h
  have hnone : Digits.value? base '+' = none := rfl
  rw [h.value?_eq] at hnone
  cases hnone

theorem readPlus?_eq_some_iff {base n : Nat} {cs : List Char} :
    Digits.readPlus? base cs = some n ↔ WritesNumber base cs n := by
  unfold Digits.readPlus?
  constructor
  · intro h
    split at h
    · obtain ⟨hcs, ds, hds, rfl⟩ := read?_eq_some_iff.mp h
      exact .plus hcs hds
    · obtain ⟨hcs, ds, hds, rfl⟩ := read?_eq_some_iff.mp h
      exact .digits hcs hds
  · intro h
    cases h with
    | plus hcs hds => exact read?_eq_some_iff.mpr ⟨hcs, _, hds, rfl⟩
    | digits hcs hds =>
        split
        · cases hds with
          | cons hplus => exact absurd hplus not_isDigit_plus
        · exact read?_eq_some_iff.mpr ⟨hcs, _, hds, rfl⟩

theorem character?_eq_some_iff {code : Nat} {c : Char} :
    character? code = some c ↔ c.toNat = code := by
  unfold character?
  constructor
  · intro h
    split at h
    · rename_i hvalid
      rw [← Option.some.inj h]
      rw [Char.ofNat, dif_pos hvalid]
      rfl
    · cases h
  · rintro rfl
    have hvalid : c.toNat.isValidChar := c.valid
    rw [if_pos hvalid, Char.ofNat_toNat]

theorem codePoint?_eq_some_iff {base count : Nat} {cs rest : List Char} {c : Char} :
    codePoint? base count cs = some (c, rest) ↔
      ∃ digits, cs = digits ++ rest ∧ digits.length = count ∧
        WritesNumber base digits c.toNat := by
  unfold codePoint?
  constructor
  · intro h
    split at h
    · cases h
    · rename_i hlength
      split at h
      · rename_i hread
        obtain ⟨rfl, rfl⟩ := Prod.mk.inj (Option.some.inj h)
        obtain ⟨code, hcode, hc⟩ := Option.bind_eq_some_iff.mp hread
        rw [character?_eq_some_iff] at hc
        refine ⟨cs.take count, (List.take_append_drop count cs).symm, ?_, ?_⟩
        · rw [List.length_take]
          omega
        · rw [hc]
          exact readPlus?_eq_some_iff.mp hcode
      · cases h
  · rintro ⟨digits, rfl, rfl, hwrites⟩
    have hlength : ¬(digits ++ rest).length < digits.length := by
      rw [List.length_append]
      omega
    have hread : (Digits.readPlus? base digits).bind character? = some c :=
      Option.bind_eq_some_iff.mpr
        ⟨_, readPlus?_eq_some_iff.mpr hwrites, character?_eq_some_iff.mpr rfl⟩
    rw [if_neg hlength, List.take_left, List.drop_left, hread]

/-! ## Escape sequences -/

theorem lookup_simpleEscapes_eq_some_iff {letter value : Char} :
    simpleEscapes.lookup letter = some value ↔ (letter, value) ∈ simpleEscapes := by
  constructor
  · intro h
    obtain ⟨before, after, heq, -⟩ := List.lookup_eq_some_iff.mp h
    rw [heq]
    simp
  · intro h
    simp only [simpleEscapes, List.mem_cons, Prod.mk.injEq, List.not_mem_nil, or_false] at h
    rcases h with ⟨rfl, rfl⟩ | ⟨rfl, rfl⟩ | ⟨rfl, rfl⟩ | ⟨rfl, rfl⟩ | ⟨rfl, rfl⟩ | ⟨rfl, rfl⟩ |
      ⟨rfl, rfl⟩ | ⟨rfl, rfl⟩ | ⟨rfl, rfl⟩ | ⟨rfl, rfl⟩ <;> rfl

theorem escape?_of_mark {mark : Char} {count : Nat}
    (h : (mark, count) ∈ [('x', 2), ('u', 4), ('U', 8)]) (cs : List Char) :
    escape? (mark :: cs) = codePoint? 16 count cs := by
  simp only [List.mem_cons, Prod.mk.injEq, List.not_mem_nil, or_false] at h
  rcases h with ⟨rfl, rfl⟩ | ⟨rfl, rfl⟩ | ⟨rfl, rfl⟩ <;> rfl

theorem escape?_of_isDigit {c : Char} {d : Nat} (h : IsDigit 8 c d) (cs : List Char) :
    escape? (c :: cs) = codePoint? 8 3 (c :: cs) := by
  obtain ⟨hd, hc⟩ := h
  interval_cases d <;> rcases hc with hc | hc <;> cases hc <;> rfl

theorem Escape.exists_of_mark {mark c : Char} {count : Nat} {cs rest : List Char}
    (hmark : (mark, count) ∈ [('x', 2), ('u', 4), ('U', 8)])
    (h : codePoint? 16 count cs = some (c, rest)) :
    ∃ taken, mark :: cs = taken ++ rest ∧ Escape taken c := by
  obtain ⟨digits, rfl, hlength, hwrites⟩ := codePoint?_eq_some_iff.mp h
  exact ⟨mark :: digits, rfl, .hexadecimal hmark hlength hwrites⟩

/-- The first character of an octal escape is a digit, so there is no place for a plus sign. -/
theorem Escape.exists_of_isDigit {first c : Char} {d : Nat} {cs rest : List Char}
    (hfirst : IsDigit 8 first d) (h : codePoint? 8 3 (first :: cs) = some (c, rest)) :
    ∃ taken, first :: cs = taken ++ rest ∧ Escape taken c := by
  obtain ⟨digits, heq, hlength, hwrites⟩ := codePoint?_eq_some_iff.mp h
  refine ⟨digits, heq, ?_⟩
  generalize hcode : c.toNat = code at hwrites
  cases hwrites with
  | digits hcs hds => exact .octal hlength hds hcode
  | plus =>
      obtain rfl : first = '+' := (List.cons.inj heq).1
      exact absurd hfirst not_isDigit_plus

/-- An escape sequence is read from a text exactly if the text starts with one. -/
theorem escape?_eq_some_iff {cs rest : List Char} {c : Char} :
    escape? cs = some (c, rest) ↔ ∃ taken, cs = taken ++ rest ∧ Escape taken c := by
  constructor
  · intro h
    cases cs with
    | nil => cases h
    | cons first cs =>
    rw [escape?] at h
    split at h
    · rename_i value hlookup
      obtain ⟨rfl, rfl⟩ := Prod.mk.inj (Option.some.inj h)
      exact ⟨[first], rfl, .simple (lookup_simpleEscapes_eq_some_iff.mp hlookup)⟩
    · split_ifs at h with hx hu hU hdigit
      · exact Escape.exists_of_mark (by simp [hx]) h
      · exact Escape.exists_of_mark (by simp [hu]) h
      · exact Escape.exists_of_mark (by simp [hU]) h
      · obtain ⟨d, hd⟩ := Option.isSome_iff_exists.mp hdigit
        exact Escape.exists_of_isDigit (.of_value? hd) h
  · rintro ⟨taken, rfl, hescape⟩
    cases hescape with
    | @simple letter value hmem =>
        rw [List.singleton_append, escape?, lookup_simpleEscapes_eq_some_iff.mpr hmem]
    | hexadecimal hmark hlength hwrites =>
        rw [List.cons_append, escape?_of_mark hmark]
        exact codePoint?_eq_some_iff.mpr ⟨_, rfl, hlength, hwrites⟩
    | @octal _ _ ds hlength hds hvalue =>
        have hne : taken ≠ [] := by
          rintro rfl
          cases hlength
        have hread : codePoint? 8 3 (taken ++ rest) = some (c, rest) := by
          refine codePoint?_eq_some_iff.mpr ⟨taken, rfl, hlength, ?_⟩
          rw [hvalue]
          exact .digits hne hds
        cases hds with
        | nil => exact absurd rfl hne
        | cons hfirst =>
            rw [List.cons_append] at hread ⊢
            rw [escape?_of_isDigit hfirst, hread]

/-! ## Quoted texts -/

theorem Interpreted.decode_eq {cs value : List Char} (h : Interpreted cs value) :
    decode cs = .ok value := by
  induction h with
  | nil => rw [decode]
  | @plain c cs value hc hvalue ih =>
      simp only [List.mem_cons, List.not_mem_nil, or_false, not_or] at hc
      rw [decode.eq_3 _ _ hc.1, if_neg (not_or.mpr hc.2), ih]
      rfl
  | @escape c cs rest value hescape hvalue ih =>
      have hread : escape? (cs ++ rest) = some (c, rest) :=
        escape?_eq_some_iff.mpr ⟨cs, rfl, hescape⟩
      rw [List.cons_append, decode.eq_2]
      split
      · rename_i hread'
        obtain ⟨rfl, rfl⟩ := Prod.mk.inj (Option.some.inj (hread.symm.trans hread'))
        rw [ih]
        rfl
      · rename_i hread'
        cases hread.symm.trans hread'

theorem Interpreted.of_decode {cs value : List Char} (h : decode cs = .ok value) :
    Interpreted cs value := by
  fun_induction decode cs generalizing value with
  | case1 =>
      obtain rfl := Except.ok.inj h
      exact .nil
  | case2 cs c rest hread hlt ih =>
      obtain ⟨taken, rfl, hescape⟩ := escape?_eq_some_iff.mp hread
      obtain ⟨tail, htail, rfl⟩ := Except.map_eq_ok h
      exact .escape hescape (ih htail)
  | case3 cs hread => cases h
  | case4 c cs hslash hquote => cases h
  | case5 c cs hslash hquote ih =>
      obtain ⟨tail, htail, rfl⟩ := Except.map_eq_ok h
      refine .plain ?_ (ih htail)
      intro hmem
      simp only [List.mem_cons, List.not_mem_nil, or_false] at hmem
      exact hmem.elim hslash hquote

/-- The text between double quotes is decoded exactly if it follows the grammar. -/
theorem decode_eq_ok_iff {cs value : List Char} :
    decode cs = .ok value ↔ Interpreted cs value :=
  ⟨Interpreted.of_decode, Interpreted.decode_eq⟩

theorem between?_eq_some_iff {quote : Char} {cs body : List Char} :
    between? quote cs = some body ↔ cs = quote :: body ++ [quote] := by
  cases cs with
  | nil => simp [between?]
  | cons c cs =>
      rw [between?]
      constructor
      · intro h
        split at h
        · rename_i hquotes
          obtain ⟨rfl, hlast⟩ := hquotes
          obtain rfl := Option.some.inj h
          rw [List.cons_append, List.dropLast_append_getLast? c hlast]
        · cases h
      · intro h
        obtain ⟨rfl, rfl⟩ := List.cons.inj h
        simp

/-! ## Literals -/

/-- The text of a string literal, and its value. -/
inductive StringLiteral : List Char → List Char → Prop
  | raw (body : List Char) :
      StringLiteral ('\x60' :: body ++ ['\x60']) (body.filter (· != '\r'))
  | interpreted {body value : List Char} : Interpreted body value →
      StringLiteral ('"' :: body ++ ['"']) value

/-- The text of a character constant, and its character. -/
inductive CharacterLiteral : List Char → Char → Prop
  | plain {c : Char} : c ∉ ['\\', '\''] → CharacterLiteral ['\'', c, '\''] c
  | escape {cs : List Char} {c : Char} : Escape cs c →
      CharacterLiteral ('\'' :: '\\' :: cs ++ ['\'']) c

theorem StringLiteral.of_string {text value : String} (h : string text = .ok value) :
    StringLiteral text.toList value.toList := by
  cases hraw : between? '\x60' text.toList with
  | some raw =>
      simp only [string, hraw, Except.ok.injEq] at h
      rw [← h, String.toList_ofList, between?_eq_some_iff.mp hraw]
      exact .raw raw
  | none =>
  cases hquoted : between? '"' text.toList with
  | none =>
      simp only [string, hraw, hquoted] at h
      cases h
  | some body =>
  cases hdecode : decode body with
  | error fault =>
      simp only [string, hraw, hquoted, hdecode] at h
      cases fault <;> cases h
  | ok tail =>
      simp only [string, hraw, hquoted, hdecode, Except.ok.injEq] at h
      rw [← h, String.toList_ofList, between?_eq_some_iff.mp hquoted]
      exact .interpreted (decode_eq_ok_iff.mp hdecode)

theorem StringLiteral.string_eq {text value : String}
    (h : StringLiteral text.toList value.toList) : string text = .ok value := by
  generalize htext : text.toList = cs at h
  generalize hvalue : value.toList = tail at h
  obtain rfl : value = String.ofList tail := by rw [← hvalue, String.ofList_toList]
  cases h with
  | raw body =>
      have hraw := between?_eq_some_iff.mpr htext
      simp only [string, hraw]
  | @interpreted body _ hbody =>
      have hraw : between? '\x60' text.toList = none := by
        rw [htext]
        rfl
      have hquoted := between?_eq_some_iff.mpr htext
      simp only [string, hraw, hquoted, hbody.decode_eq]

theorem CharacterLiteral.of_character {text : String} {c : Char}
    (h : character text = .ok c) : CharacterLiteral text.toList c := by
  unfold character at h
  split at h
  · rename_i cs hbetween
    rw [between?_eq_some_iff.mp hbetween]
    split at h
    · rename_i value hread
      obtain rfl := Except.ok.inj h
      obtain ⟨taken, rfl, hescape⟩ := escape?_eq_some_iff.mp hread
      rw [List.append_nil]
      exact .escape hescape
    · cases h
    · cases h
  · rename_i first hslash hbetween
    rw [between?_eq_some_iff.mp hbetween]
    split at h
    · cases h
    · rename_i hquote
      obtain rfl := Except.ok.inj h
      refine .plain ?_
      intro hmem
      simp only [List.mem_cons, List.not_mem_nil, or_false] at hmem
      exact hmem.elim hslash hquote
  · cases h

theorem CharacterLiteral.character_eq {text : String} {c : Char}
    (h : CharacterLiteral text.toList c) : character text = .ok c := by
  generalize htext : text.toList = cs at h
  unfold character
  cases h with
  | plain hc =>
      have hbetween : between? '\'' text.toList = some [c] := between?_eq_some_iff.mpr htext
      rw [hbetween]
      simp only [List.mem_cons, List.not_mem_nil, or_false, not_or] at hc
      simp [hc]
  | @escape cs _ hescape =>
      have hbetween : between? '\'' text.toList = some ('\\' :: cs) :=
        between?_eq_some_iff.mpr htext
      have hread : escape? cs = some (c, []) :=
        escape?_eq_some_iff.mpr ⟨cs, cs.append_nil.symm, hescape⟩
      simp only [hbetween, hread]

/-- The grammar of literals is exact: an escape sequence is read exactly if it is one, and a string
literal or a character constant is accepted exactly if it follows the grammar, with the value that
the grammar gives it. -/
theorem accepts_iff_literal (cs rest : List Char) (c : Char) (text value : String) :
    (escape? cs = some (c, rest) ↔ ∃ taken, cs = taken ++ rest ∧ Escape taken c) ∧
    (string text = .ok value ↔ StringLiteral text.toList value.toList) ∧
    (character text = .ok c ↔ CharacterLiteral text.toList c) := by
  refine ⟨escape?_eq_some_iff, ?_, ?_⟩
  · exact ⟨StringLiteral.of_string, StringLiteral.string_eq⟩
  · exact ⟨CharacterLiteral.of_character, CharacterLiteral.character_eq⟩

/-- A plus sign is no hexadecimal digit, but it is accepted in place of the first one. -/
theorem string_accepts_plus :
    string "\"\\x+f\"" = .ok "\x0f" ∧ ¬∃ d, IsDigit 16 '+' d := by
  constructor
  · have hdigits : WritesNumber 16 ['+', 'f'] (positional 16 [15]) :=
      .plus (by simp) (.cons ⟨by decide, .inl rfl⟩ .nil)
    have hescape : Escape ['x', '+', 'f'] '\x0f' := .hexadecimal (by simp) rfl hdigits
    exact StringLiteral.string_eq (.interpreted (.escape hescape .nil))
  · rintro ⟨d, hd⟩
    exact not_isDigit_plus hd

end Quotation

end TemplateTyping
