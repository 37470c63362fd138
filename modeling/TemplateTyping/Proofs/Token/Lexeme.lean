import TemplateTyping.Proofs.Token.Cut
import TemplateTyping.Proofs.Token.Numeral

/-!
# Lexemes

The texts that the tokens inside of actions are read from, each kind with its
own.  What the lexer scans is a lexeme, and a lexeme tells the name that its token
carries; what comes after it in the source plays no role.
-/

namespace TemplateTyping

theorem Except.map_eq_ok {ε α β : Type}
    {f : α → β} {outcome : Except ε α} {result : β}
    (h : outcome.map f = .ok result) :
    ∃ value, outcome = .ok value ∧ f value = result := by
  cases outcome with
  | error error => cases h
  | ok value => exact ⟨value, rfl, Except.ok.inj h⟩

theorem Except.eq_ok_of_toOption {ε α : Type} {outcome : Except ε α} {value : α}
    (h : outcome.toOption = some value) : outcome = .ok value := by
  cases outcome with
  | error error => cases h
  | ok other => exact congrArg Except.ok (Option.some.inj h)

namespace Lexer

/-! ## Quoted literals -/

/-- What follows an opening quote, up to and including the closing one. -/
inductive QuotedRest (quote : Char) : List Char → Prop
  | close : QuotedRest quote [quote]
  | escaped {c : Char} {body : List Char} : c ≠ '\n' → QuotedRest quote body →
      QuotedRest quote ('\\' :: c :: body)
  | plain {c : Char} {body : List Char} : c ≠ '\\' → c ≠ '\n' → c ≠ quote →
      QuotedRest quote body → QuotedRest quote (c :: body)

theorem quotedLength_eq_ok
    {quote : Char} {literal : QuotedLiteral} {skip count : Nat} {cs : List Char}
    (h : quotedLength quote literal skip cs = .ok count) :
    QuotedRest quote (cs.take count) := by
  fun_induction quotedLength quote literal skip cs generalizing count with
  | case1 skip => cases h
  | case2 skip => cases h
  | case3 skip cs => cases h
  | case4 skip c cs hc ih =>
      cases hrest : quotedLength quote literal (skip + 2) cs with
      | error stop => simp [hrest, Except.map] at h
      | ok count' =>
          simp only [hrest, Except.map, Except.ok.injEq] at h
          rw [← h]
          exact .escaped hc (ih hrest)
  | case5 skip cs hc => cases h
  | case6 skip cs hc hn =>
      rw [← Except.ok.inj h]
      exact .close
  | case7 skip c cs hc hn hq ih =>
      cases hrest : quotedLength quote literal (skip + 1) cs with
      | error stop => simp [hrest, Except.map] at h
      | ok count' =>
          simp only [hrest, Except.map, Except.ok.injEq] at h
          rw [← h]
          exact .plain hc hn hq (ih hrest)

/-! ## Lexemes -/

/-- The texts of number literals: the lexer takes one as a whole, if what comes
after it allows. -/
def IsNumeral (text : List Char) : Prop :=
  StartsNumber text ∧ ∃ rest, numberLength (text ++ rest) = .ok text.length

/-- The texts of words: characters of names. -/
def IsWord (text : List Char) : Prop := ∀ c ∈ text, isWordChar c = true

/-- The texts of the tokens inside of actions, by their kinds. -/
inductive Lexeme : TokenKind → List Char → Prop
  | space {text : List Char} : text ≠ [] → (∀ c ∈ text, isBlank c = true) →
      Lexeme .space text
  | assign : Lexeme .assign ['=']
  | declare : Lexeme .declare [':', '=']
  | pipe : Lexeme .pipe ['|']
  | comma : Lexeme .comma [',']
  | leftParen : Lexeme .leftParen ['(']
  | rightParen : Lexeme .rightParen [')']
  | dot : Lexeme .dot ['.']
  | string {body : List Char} : QuotedRest '"' body →
      Lexeme .string ('"' :: body)
  | rawString {body : List Char} : '\x60' ∉ body →
      Lexeme .rawString ('\x60' :: body ++ ['\x60'])
  | charConstant {body : List Char} : QuotedRest '\'' body →
      Lexeme .charConstant ('\'' :: body)
  | number {text : List Char} : IsNumeral text → Lexeme .number text
  | variable {word : List Char} : IsWord word →
      Lexeme (.variable (String.ofList ('$' :: word))) ('$' :: word)
  | field {word : List Char} : IsWord word → word ≠ [] →
      word.head?.any Char.isDigit = false →
        Lexeme (.field (String.ofList word)) ('.' :: word)
  | word {c : Char} {word : List Char} : isWordChar c = true →
      c.isDigit = false → IsWord word →
        Lexeme (.ofWord (String.ofList (c :: word))) (c :: word)

theorem isWord_take_runLength (cs : List Char) :
    IsWord (cs.take (Numeral.runLength isWordChar cs)) := by
  have htake : cs.take (Numeral.runLength isWordChar cs) =
      cs.takeWhile isWordChar :=
    (List.prefix_iff_eq_take.mp (List.takeWhile_prefix isWordChar)).symm
  rw [htake]
  intro c hc
  exact List.all_eq_true.mp List.all_takeWhile c hc

theorem wordLength_eq_ok
    {d : Delimiters} {skip count : Nat} {cs : List Char}
    (h : wordLength d skip cs = .ok count) :
    IsWord (cs.take count) ∧ atTerminator d (cs.drop count) = true := by
  simp only [wordLength] at h
  split at h
  · rename_i hend
    rw [← Except.ok.inj h]
    exact ⟨isWord_take_runLength cs, hend⟩
  · cases h

theorem blanks_take_blanksLength (d : Delimiters) (cs : List Char) :
    ∀ c ∈ cs.take (blanksLength d cs), isBlank c = true := by
  induction cs with
  | nil => simp
  | cons b cs ih =>
      rw [blanksLength]
      split
      · rename_i hblank
        rw [Bool.and_eq_true] at hblank
        intro c hc
        rcases List.mem_cons.mp hc with rfl | hc
        · exact hblank.1
        · exact ih c hc
      · simp

theorem find?_single_eq_some
    {mark : Char} {cs : List Char} {count : Nat} (h : find? [mark] cs = some count) :
    mark ∉ cs.take count ∧ cs.take (count + 1) = cs.take count ++ [mark] := by
  induction cs generalizing count with
  | nil => cases h
  | cons c cs ih =>
      rw [find?] at h
      split at h
      · rename_i hmark
        rw [← Option.some.inj h]
        simp only [List.isPrefixOf, Bool.and_true, beq_iff_eq] at hmark
        simp [hmark]
      · rename_i hmark
        obtain ⟨count', hcount', rfl⟩ := Option.map_eq_some_iff.mp h
        obtain ⟨hnot, htake⟩ := ih hcount'
        simp only [List.isPrefixOf, Bool.and_true, beq_iff_eq] at hmark
        simp [hmark, hnot, htake]

theorem field_lexeme
    {d : Delimiters} {skip count : Nat} {cs : List Char}
    (h : wordLength d skip cs = .ok count) (hend : ¬ atTerminator d cs = true)
    (hdigit : cs.head?.any Char.isDigit = false) :
    Lexeme (.field (String.ofList (cs.take count))) ('.' :: cs.take count) := by
  obtain ⟨hword, hafter⟩ := wordLength_eq_ok h
  cases count with
  | zero => exact absurd hafter hend
  | succ count =>
      cases cs with
      | nil => exact absurd rfl hend
      | cons c cs => exact .field hword (by simp) hdigit

theorem number_lexeme
    {c : Char} {cs : List Char} {count : Nat} (h : numberLength (c :: cs) = .ok count)
    (hstart : (c = '.' || c = '+' || c = '-' || c.isDigit) = true)
    (hpoint : ¬ (c = '.' && !cs.head?.any Char.isDigit) = true) :
    Lexeme .number ((c :: cs).take (count - 1 + 1)) := by
  obtain ⟨hpos, hle⟩ := numberLength_le h
  rw [Nat.sub_add_cancel hpos]
  refine .number ⟨startsNumber_take h hstart hpoint, (c :: cs).drop count, ?_⟩
  rw [List.take_append_drop, h, List.length_take_of_le hle]

/-- What the lexer scans inside of an action is a lexeme. -/
theorem scan_lexeme
    {d : Delimiters} {c : Char} {cs : List Char} {kind : TokenKind} {more : Nat}
    (h : scan d c cs = .ok (kind, more)) :
    Lexeme kind ((c :: cs).take (more + 1)) := by
  rw [scan] at h
  by_cases hblank : isBlank c = true
  · rw [if_pos hblank] at h
    cases h
    refine .space (by simp) ?_
    intro b hb
    rcases List.mem_cons.mp hb with rfl | hb
    · exact hblank
    · exact blanks_take_blanksLength d cs b hb
  rw [if_neg hblank] at h
  by_cases hassign : c = '='
  · rw [if_pos hassign] at h
    cases h
    rw [hassign]
    exact .assign
  rw [if_neg hassign] at h
  by_cases hcolon : c = ':'
  · rw [if_pos hcolon] at h
    by_cases hequal : cs.head? = some '='
    · rw [if_pos hequal] at h
      cases h
      obtain ⟨cs', rfl⟩ := List.head?_eq_some_iff.mp hequal
      rw [hcolon]
      exact .declare
    · rw [if_neg hequal] at h
      cases h
  rw [if_neg hcolon] at h
  by_cases hpipe : c = '|'
  · rw [if_pos hpipe] at h
    cases h
    rw [hpipe]
    exact .pipe
  rw [if_neg hpipe] at h
  by_cases hcomma : c = ','
  · rw [if_pos hcomma] at h
    cases h
    rw [hcomma]
    exact .comma
  rw [if_neg hcomma] at h
  by_cases hleft : c = '('
  · rw [if_pos hleft] at h
    cases h
    rw [hleft]
    exact .leftParen
  rw [if_neg hleft] at h
  by_cases hright : c = ')'
  · rw [if_pos hright] at h
    cases h
    rw [hright]
    exact .rightParen
  rw [if_neg hright] at h
  by_cases hquote : c = '"'
  · rw [if_pos hquote] at h
    obtain ⟨count, hcount, hkind⟩ := Except.map_eq_ok h
    cases hkind
    rw [hquote]
    exact .string (quotedLength_eq_ok hcount)
  rw [if_neg hquote] at h
  by_cases hraw : c = '\x60'
  · rw [if_pos hraw] at h
    cases hfound : find? ['\x60'] cs with
    | none => simp [hfound] at h
    | some count =>
        simp only [hfound, Except.ok.injEq, Prod.mk.injEq] at h
        obtain ⟨rfl, rfl⟩ := h
        obtain ⟨hbody, htake⟩ := find?_single_eq_some hfound
        rw [hraw, List.take_succ_cons, htake]
        exact .rawString hbody
  rw [if_neg hraw] at h
  by_cases hchar : c = '\''
  · rw [if_pos hchar] at h
    obtain ⟨count, hcount, hkind⟩ := Except.map_eq_ok h
    cases hkind
    rw [hchar]
    exact .charConstant (quotedLength_eq_ok hcount)
  rw [if_neg hchar] at h
  by_cases hdollar : c = '$'
  · rw [if_pos hdollar] at h
    rw [hdollar]
    by_cases hend : atTerminator d cs = true
    · rw [if_pos hend] at h
      cases h
      have hword : IsWord [] := by simp [IsWord]
      exact .variable hword
    · rw [if_neg hend] at h
      obtain ⟨count, hcount, hkind⟩ := Except.map_eq_ok h
      cases hkind
      exact .variable (wordLength_eq_ok hcount).1
  rw [if_neg hdollar] at h
  by_cases hdot : (c = '.' && !cs.head?.any Char.isDigit) = true
  · rw [if_pos hdot] at h
    rw [Bool.and_eq_true, decide_eq_true_eq, Bool.not_eq_true'] at hdot
    rw [hdot.1]
    by_cases hend : atTerminator d cs = true
    · rw [if_pos hend] at h
      cases h
      exact .dot
    · rw [if_neg hend] at h
      obtain ⟨count, hcount, hkind⟩ := Except.map_eq_ok h
      cases hkind
      exact field_lexeme hcount hend hdot.2
  rw [if_neg hdot] at h
  by_cases hnumber : (c = '.' || c = '+' || c = '-' || c.isDigit) = true
  · rw [if_pos hnumber] at h
    obtain ⟨count, hcount, hkind⟩ := Except.map_eq_ok h
    cases hkind
    exact number_lexeme hcount hnumber hdot
  rw [if_neg hnumber] at h
  by_cases hword : isWordChar c = true
  · rw [if_pos hword] at h
    obtain ⟨count, hcount, hkind⟩ := Except.map_eq_ok h
    cases hkind
    have hdigit : c.isDigit = false := by
      simp only [Bool.or_eq_true, not_or] at hnumber
      simpa using hnumber.2
    exact .word hword hdigit (wordLength_eq_ok hcount).1
  · rw [if_neg hword] at h
    cases h

end Lexer

/-! ## Kinds of words -/

namespace TokenKind

/-- The word that a kind stands for.  Names, truth values and keywords have one. -/
def word? : TokenKind → Option String
  | identifier name => some name
  | bool value => some (if value then "true" else "false")
  | keyword written => some written.word
  | _ => none

/-- The kind of a word stands for this word. -/
theorem word?_ofWord (word : String) : (ofWord word).word? = some word := by
  unfold ofWord ofWord?
  split
  · rename_i hword
    rw [hword]
    rfl
  · split
    · rename_i hword
      rw [hword]
      rfl
    · cases hfind : Keyword.all.find? (·.word == word) with
      | none => rfl
      | some written =>
          have hword := List.find?_some hfind
          exact congrArg some (eq_of_beq hword)

/-- A kind that stands for no word is not the kind of a word. -/
theorem ofWord_ne {kind : TokenKind} (h : kind.word? = none) (word : String) :
    ofWord word ≠ kind := by
  rintro rfl
  rw [word?_ofWord] at h
  cases h

/-- What holds of the name, of the truth values and of the keywords holds of the kind of a
word. -/
@[elab_as_elim]
theorem ofWord_induct {motive : TokenKind → Prop} (word : String)
    (identifier : motive (identifier word)) (bool : ∀ value, motive (bool value))
    (keyword : ∀ written, motive (keyword written)) : motive (ofWord word) := by
  have hword := word?_ofWord word
  cases hkind : ofWord word with
  | identifier name =>
      rw [hkind] at hword
      obtain rfl := Option.some.inj hword
      exact identifier
  | bool value => exact bool value
  | keyword written => exact keyword written
  | _ => exact absurd hkind (ofWord_ne rfl word)

end TokenKind

/-- What the lexer makes sure of for a token, whatever stands around it. -/
def Token.IsLexed (token : Token) : Prop :=
  match token.kind with
  | .text content => content ≠ ""
  | .comment content => Lexer.IsComment content.toList
  | .leftDelim | .rightDelim | .eof => True
  | kind => Lexer.Lexeme kind token.text.toList

end TemplateTyping
