import TemplateTyping.Proofs.Token.Lexeme

/-!
# Lexemes are scanned again

A lexeme that is written down anew, with other text after it, is scanned as the
same token, provided that the text after it cannot continue it.  With the default
delimiters this module puts such lexemes together to actions, and actions,
comments and text to whole sources.
-/

namespace TemplateTyping

open Lexer

/-! ## What may come next -/

/-- Text before which a word or a sign may end. -/
def EndsWord (rest : List Char) : Prop :=
  ∃ c cs, rest = c :: cs ∧
    (c = ' ' ∨ c = ')' ∨ c = '.' ∨ c = ',' ∨ c = '\x7d' ∧ cs.head? = some '\x7d')

/-- Text that neither continues a blank nor completes a delimiter before it. -/
def Opens (rest : List Char) : Prop :=
  ∃ c cs, rest = c :: cs ∧ isBlank c = false ∧ c ≠ '\x7d' ∧ c ≠ '/' ∧
    (c = '-' → ∃ c' cs', cs = c' :: cs' ∧ isBlank c' = false ∧ c' ≠ '\x7d')

/-- The text after a lexeme does not continue it. -/
def Fits (kind : TokenKind) (rest : List Char) : Prop :=
  match kind with
  | .space => Opens rest
  | .number => EndsNumber rest
  | .dot | .variable _ | .field _ | .identifier _ | .bool _ | .keyword _ =>
      EndsWord rest
  | _ => True

section Characters

variable {c : Char}

theorem ne_of_isWordChar
    {other : Char} (h : isWordChar c = true) (hother : isWordChar other = false) :
    c ≠ other := by
  rintro rfl
  rw [h] at hother
  cases hother

theorem isBlank_of_isWordChar (h : isWordChar c = true) : isBlank c = false := by
  simp [isBlank, ne_of_isWordChar h (by decide : isWordChar ' ' = false),
    ne_of_isWordChar h (by decide : isWordChar '\t' = false),
    ne_of_isWordChar h (by decide : isWordChar '\r' = false),
    ne_of_isWordChar h (by decide : isWordChar '\n' = false)]

theorem isWordChar_of_isDigit (h : c.isDigit = true) : isWordChar c = true := by
  have hascii : c.toNat < 0x80 := by
    simp only [Char.isDigit, Bool.and_eq_true, decide_eq_true_eq] at h
    have hle := UInt32.le_iff_toNat_le.mp h.2
    simp at hle
    omega
  simp [isWordChar, isNumeric, byProperty_of_ascii _ _ hascii, h]

end Characters

/-! ## Scanning -/

section Scanning

variable {rest : List Char}

theorem EndsWord.not_head
    {p : Char → Bool} (hp : [' ', ')', '.', ',', '\x7d'].any p = false)
    (h : EndsWord rest) : rest.head?.any p = false := by
  obtain ⟨c, cs, rfl, hc⟩ := h
  rw [List.head?_cons, Option.any_some, ← Bool.not_eq_true]
  apply List.any_eq_false.mp hp c
  simp only [List.mem_cons, List.not_mem_nil, or_false]
  exact hc.imp_right (.imp_right (.imp_right (.imp_right And.left)))

theorem EndsWord.atTerminator (h : EndsWord rest) :
    atTerminator .standard rest = true := by
  obtain ⟨c, cs, rfl, rfl | rfl | rfl | rfl | ⟨rfl, hbrace⟩⟩ := h
  · rfl
  · rfl
  · rfl
  · rfl
  · obtain ⟨cs', rfl⟩ := List.head?_eq_some_iff.mp hbrace
    rfl

theorem not_atTerminator_of_word
    {c : Char} (h : isWordChar c = true) (cs : List Char) :
    ¬ atTerminator .standard (c :: cs) = true := by
  have hne : ∀ other, isWordChar other = false → c ≠ other :=
    fun other => ne_of_isWordChar h
  simp [Lexer.atTerminator, isBlank_of_isWordChar h, hne '.' (by decide),
    hne ',' (by decide), hne '|' (by decide), hne ':' (by decide),
    hne ')' (by decide), hne '(' (by decide), hne '=' (by decide),
    Delimiters.standard, (hne '\x7d' (by decide)).symm]

theorem wordLength_of_word
    {word : List Char} (hword : IsWord word) (hends : EndsWord rest) (skip : Nat) :
    wordLength .standard skip (word ++ rest) = .ok word.length := by
  have hrun : Numeral.runLength isWordChar (word ++ rest) = word.length := by
    have hnone : rest.takeWhile isWordChar = [] := by
      have hhead := hends.not_head (p := isWordChar) (by decide)
      cases rest with
      | nil => rfl
      | cons c rest => exact List.takeWhile_cons_of_neg (by simpa using hhead)
    rw [Numeral.runLength, List.takeWhile_append_of_pos hword, hnone, List.append_nil]
  simp [wordLength, hrun, hends.atTerminator]

theorem quotedLength_of_rest
    {quote : Char} (hslash : quote ≠ '\\') (hline : quote ≠ '\n')
    {body : List Char} (h : QuotedRest quote body) (literal : QuotedLiteral)
    (skip : Nat) :
    quotedLength quote literal skip (body ++ rest) = .ok body.length := by
  induction h generalizing skip with
  | close => simp [quotedLength, hline]
  | escaped hc hbody ih => simp [quotedLength, hc, ih, Except.map]
  | plain hc hn hq hbody ih => simp [quotedLength, hn, hq, ih, Except.map]

theorem find?_single_of_not_mem
    {mark : Char} {body : List Char} (h : mark ∉ body) :
    find? [mark] (body ++ mark :: rest) = some body.length := by
  induction body with
  | nil => simp [find?]
  | cons c body ih =>
      rw [List.mem_cons, not_or] at h
      simp [find?, h.1, ih h.2]

theorem scan_of_startsNumber
    {c : Char} {cs : List Char} (h : StartsNumber (c :: cs)) (d : Delimiters)
    (rest : List Char) :
    scan d c (cs ++ rest) =
      (numberLength (c :: (cs ++ rest))).map fun count => (.number, count - 1) := by
  cases h with
  | digit hdigit =>
      have hword := isWordChar_of_isDigit hdigit
      have hne : ∀ other, isWordChar other = false → c ≠ other :=
        fun other => ne_of_isWordChar hword
      simp [scan, isBlank_of_isWordChar hword, hdigit, hne '=' (by decide),
        hne ':' (by decide), hne '|' (by decide), hne ',' (by decide),
        hne '(' (by decide), hne ')' (by decide), hne '"' (by decide),
        hne '\x60' (by decide), hne '\'' (by decide), hne '$' (by decide),
        hne '.' (by decide)]
  | point hdigit => simp [scan, isBlank, hdigit]
  | sign hsign hnext =>
      rcases hsign with rfl | rfl
      · simp [scan, isBlank]
      · simp [scan, isBlank]

theorem scan_of_word
    {c : Char} (hchar : isWordChar c = true) (hdigit : c.isDigit = false)
    (d : Delimiters) (cs : List Char) :
    scan d c cs = (wordLength d 1 cs).map fun count =>
      (.ofWord (String.ofList (c :: cs.take count)), count) := by
  have hne : ∀ other, isWordChar other = false → c ≠ other :=
    fun other => ne_of_isWordChar hchar
  simp [scan, isBlank_of_isWordChar hchar, hchar, hdigit, hne '=' (by decide),
    hne ':' (by decide), hne '|' (by decide), hne ',' (by decide),
    hne '(' (by decide), hne ')' (by decide), hne '"' (by decide),
    hne '\x60' (by decide), hne '\'' (by decide), hne '$' (by decide),
    hne '.' (by decide), hne '+' (by decide), hne '-' (by decide)]

theorem Opens.not_trimsRight (h : Opens rest) (blank : Char) :
    trimsRight .standard (blank :: rest) = false := by
  obtain ⟨c, cs, rfl, _, _, _, hminus⟩ := h
  by_cases hc : c = '-'
  · obtain ⟨c', cs', rfl, _, hbrace⟩ := hminus hc
    simp [trimsRight, Delimiters.standard, List.isPrefixOf, hbrace.symm]
  · simp [trimsRight, hc]

theorem not_trimsRight_of_blanks
    {blanks : List Char} (hblank : ∀ c ∈ blanks, isBlank c = true)
    (hopens : Opens rest) (blank : Char) :
    trimsRight .standard (blank :: (blanks ++ rest)) = false := by
  cases blanks with
  | nil => exact hopens.not_trimsRight blank
  | cons c blanks =>
      have hc : c ≠ '-' := by
        rintro rfl
        exact absurd (hblank '-' (by simp)) (by decide)
      simp [trimsRight, hc]

theorem blanksLength_of_blanks
    {blanks : List Char} (hblank : ∀ c ∈ blanks, isBlank c = true)
    (hopens : Opens rest) :
    blanksLength .standard (blanks ++ rest) = blanks.length := by
  induction blanks with
  | nil =>
      obtain ⟨c, cs, rfl, hc, _⟩ := hopens
      simp [blanksLength, hc]
  | cons c blanks ih =>
      have hrest : ∀ b ∈ blanks, isBlank b = true :=
        fun b hb => hblank b (List.mem_cons_of_mem _ hb)
      simp [blanksLength, not_trimsRight_of_blanks hrest hopens c,
        hblank c (by simp), ih hrest]

theorem Fits.endsWord_of_word {word : String} (h : Fits (.ofWord word) rest) :
    EndsWord rest := by
  revert h
  exact TokenKind.ofWord_induct word id (fun _ => id) fun _ => id

/-- A lexeme is scanned again, whatever fits after it. -/
theorem scan_of_lexeme
    {kind : TokenKind} {text : List Char} (h : Lexeme kind text)
    (hfits : Fits kind rest) :
    ∃ c cs, text = c :: cs ∧
      scan .standard c (cs ++ rest) = .ok (kind, cs.length) := by
  cases h with
  | @space text hne hblank =>
      cases text with
      | nil => exact absurd rfl hne
      | cons c cs =>
          have hcs : ∀ b ∈ cs, isBlank b = true :=
            fun b hb => hblank b (List.mem_cons_of_mem _ hb)
          refine ⟨c, cs, rfl, ?_⟩
          rw [scan, if_pos (hblank c (by simp)), blanksLength_of_blanks hcs hfits]
  | assign => exact ⟨'=', [], rfl, rfl⟩
  | declare => exact ⟨':', ['='], rfl, rfl⟩
  | pipe => exact ⟨'|', [], rfl, rfl⟩
  | comma => exact ⟨',', [], rfl, rfl⟩
  | leftParen => exact ⟨'(', [], rfl, rfl⟩
  | rightParen => exact ⟨')', [], rfl, rfl⟩
  | dot =>
      refine ⟨'.', [], rfl, ?_⟩
      have hdigit := hfits.not_head (p := Char.isDigit) (by decide)
      simp [scan, isBlank, hdigit, EndsWord.atTerminator hfits]
  | @string body hbody =>
      refine ⟨'"', body, rfl, ?_⟩
      have hlength : quotedLength '"' .string 1 (body ++ rest) = .ok body.length :=
        quotedLength_of_rest (by decide) (by decide) hbody .string 1
      simp [scan, isBlank, hlength, Except.map]
  | @rawString body hbody =>
      refine ⟨'\x60', body ++ ['\x60'], rfl, ?_⟩
      have hlength : find? ['\x60'] (body ++ '\x60' :: rest) = some body.length :=
        find?_single_of_not_mem hbody
      simp [scan, isBlank, hlength]
  | @charConstant body hbody =>
      refine ⟨'\'', body, rfl, ?_⟩
      have hlength : quotedLength '\'' .character 1 (body ++ rest) = .ok body.length :=
        quotedLength_of_rest (by decide) (by decide) hbody .character 1
      simp [scan, isBlank, hlength, Except.map]
  | number hnumeral =>
      obtain ⟨hstart, after, hlength⟩ := hnumeral
      cases text with
      | nil => exact absurd rfl hstart.ne_nil
      | cons c cs =>
          have hstable := numberLength_stable hfits hlength
          refine ⟨c, cs, rfl, ?_⟩
          rw [List.cons_append] at hstable
          rw [scan_of_startsNumber hstart, hstable]
          rfl
  | @«variable» word hword =>
      refine ⟨'$', word, rfl, ?_⟩
      cases word with
      | nil => simp [scan, isBlank, EndsWord.atTerminator hfits]
      | cons c word =>
          have hend := not_atTerminator_of_word (hword c (by simp)) (word ++ rest)
          have hlength := wordLength_of_word hword hfits 1
          rw [List.cons_append] at hlength
          simp [scan, isBlank, hend, hlength, Except.map]
  | @field word hword hne hdigit =>
      refine ⟨'.', word, rfl, ?_⟩
      cases word with
      | nil => exact absurd rfl hne
      | cons c word =>
          have hend := not_atTerminator_of_word (hword c (by simp)) (word ++ rest)
          have hlength := wordLength_of_word hword hfits 1
          rw [List.cons_append] at hlength
          have hc : c.isDigit = false := by simpa using hdigit
          simp [scan, isBlank, hc, hend, hlength, Except.map]
  | @word c word hchar hdigit hword =>
      refine ⟨c, word, rfl, ?_⟩
      rw [scan_of_word hchar hdigit, wordLength_of_word hword hfits.endsWord_of_word]
      simp [Except.map]

theorem opens_cons
    {c : Char} (hblank : isBlank c = false) (hbrace : c ≠ '\x7d') (hslash : c ≠ '/')
    (hminus : c ≠ '-') (cs : List Char) : Opens (c :: cs) :=
  ⟨c, cs, rfl, hblank, hbrace, hslash, fun h => absurd h hminus⟩

theorem opens_of_word {c : Char} (h : isWordChar c = true) (cs : List Char) :
    Opens (c :: cs) :=
  opens_cons (isBlank_of_isWordChar h) (ne_of_isWordChar h (by decide))
    (ne_of_isWordChar h (by decide)) (ne_of_isWordChar h (by decide)) cs

theorem StartsNumber.opens
    {text : List Char} (h : StartsNumber text) (rest : List Char) :
    Opens (text ++ rest) := by
  cases h with
  | digit hdigit => exact opens_of_word (isWordChar_of_isDigit hdigit) _
  | point hdigit => exact opens_cons rfl (by decide) (by decide) (by decide) _
  | @sign mark c cs hmark hnext =>
      have hc : isBlank c = false ∧ c ≠ '\x7d' := by
        rcases hnext with hdigit | rfl | rfl
        · have hword := isWordChar_of_isDigit hdigit
          exact ⟨isBlank_of_isWordChar hword, ne_of_isWordChar hword (by decide)⟩
        · decide
        · decide
      have hnext' : ∃ c' cs', c :: cs ++ rest = c' :: cs' ∧
          isBlank c' = false ∧ c' ≠ '\x7d' := ⟨c, cs ++ rest, rfl, hc⟩
      rcases hmark with rfl | rfl
      · exact ⟨'+', c :: cs ++ rest, rfl, rfl, by decide, by decide, fun _ => hnext'⟩
      · exact ⟨'-', c :: cs ++ rest, rfl, rfl, by decide, by decide, fun _ => hnext'⟩

/-- Every lexeme but blanks can follow a blank or a left delimiter. -/
theorem Lexer.Lexeme.opens
    {kind : TokenKind} {text : List Char} (h : Lexeme kind text)
    (hkind : kind ≠ .space) (rest : List Char) : Opens (text ++ rest) := by
  cases h with
  | space hne hblank => exact absurd rfl hkind
  | number hnumeral => exact hnumeral.1.opens rest
  | word hchar hdigit hword => exact opens_of_word hchar _
  | _ => exact opens_cons rfl (by decide) (by decide) (by decide) _

theorem Opens.rightDelim? (h : Opens rest) : rightDelim? .standard rest = none := by
  obtain ⟨c, cs, rfl, hblank, hbrace, _⟩ := h
  have htrims : ¬ trimsRight .standard (c :: cs) = true := by
    rw [trimsRight_eq_true]
    rintro ⟨blank, rest, hblank', heq⟩
    cases heq
    rw [hblank] at hblank'
    cases hblank'
  have hright : ¬ Delimiters.standard.right.isPrefixOf (c :: cs) = true := by
    simp [Delimiters.standard, List.isPrefixOf, hbrace.symm]
  rw [Lexer.rightDelim?, if_neg htrims, if_neg hright]

theorem rightDelim?_of_blank
    {blank : Char} (hblank : isBlank blank = true) {cs : List Char}
    (h : trimsRight .standard (blank :: cs) = false) :
    rightDelim? .standard (blank :: cs) = none := by
  have hbrace : blank ≠ '\x7d' := by
    rintro rfl
    exact absurd hblank (by decide)
  have hright : ¬ Delimiters.standard.right.isPrefixOf (blank :: cs) = true := by
    simp [Delimiters.standard, List.isPrefixOf, hbrace.symm]
  rw [Lexer.rightDelim?, h, if_neg Bool.false_ne_true, if_neg hright]

theorem Lexer.Lexeme.blanks
    {kind : TokenKind} {text : List Char} (h : Lexeme kind text)
    (hkind : kind = .space) :
    ∃ blank blanks, text = blank :: blanks ∧ ∀ c ∈ blank :: blanks, isBlank c = true := by
  cases h with
  | @space text hne hblank =>
      cases text with
      | nil => exact absurd rfl hne
      | cons blank blanks => exact ⟨blank, blanks, rfl, hblank⟩
  | word => exact absurd hkind (TokenKind.ofWord_ne rfl _)
  | _ => cases hkind

/-- No right delimiter stands where a lexeme fits. -/
theorem rightDelim?_of_lexeme
    {kind : TokenKind} {text : List Char} (h : Lexeme kind text)
    (hfits : Fits kind rest) : rightDelim? .standard (text ++ rest) = none := by
  by_cases hkind : kind = .space
  · obtain ⟨blank, blanks, rfl, hblank⟩ := h.blanks hkind
    rw [hkind] at hfits
    have hblanks : ∀ c ∈ blanks, isBlank c = true :=
      fun c hc => hblank c (List.mem_cons_of_mem _ hc)
    exact rightDelim?_of_blank (hblank blank (by simp))
      (not_trimsRight_of_blanks hblanks hfits blank)
  · exact (h.opens hkind rest).rightDelim?

end Scanning

/-! ## Actions -/

/-- What a token is read from, without its place: its kind and its text. -/
abbrev Piece := TokenKind × String

/-- The kind and the text of a token. -/
def Token.piece (token : Token) : Piece := (token.kind, token.text)

/-- A text is cut into given pieces, wherever it stands. -/
def LexesFrom (mode : Mode) (text : List Char) (pieces : List Piece) : Prop :=
  ∀ offset, ∃ tokens, tokensFrom .standard mode ⟨offset, text⟩ = .ok tokens ∧
    tokens.map Token.piece = pieces

/-- A text inside of an action with open parentheses is cut into given pieces. -/
def LexesAction (depth : Nat) (text : List Char) (pieces : List Piece) : Prop :=
  ∀ start, LexesFrom (.action start depth) text pieces

theorem tokensFrom_of_step
    {d : Delimiters} {mode : Mode} {place : Place} {s : Step}
    (h : step d mode place = .ok (.inr s)) :
    tokensFrom d mode place = (tokensFrom d s.mode s.place).map (s.tokens ++ ·) := by
  rw [tokensFrom]
  split
  · rename_i hstep
    rw [h] at hstep
    cases hstep
  · rename_i hstep
    rw [h] at hstep
    cases hstep
  · rename_i hstep
    rw [h] at hstep
    cases hstep
    rfl

/-- A step takes the first pieces, the steps after it the others. -/
theorem LexesFrom.step
    {mode : Mode} {text : List Char} {first later : List Piece}
    (h : ∀ offset, ∃ s, step .standard mode ⟨offset, text⟩ = .ok (.inr s) ∧
      s.tokens.map Token.piece = first ∧ LexesFrom s.mode s.place.rest later) :
    LexesFrom mode text (first ++ later) := by
  intro offset
  obtain ⟨s, hstep, hfirst, hlater⟩ := h offset
  obtain ⟨tokens, htokens, hpieces⟩ := hlater s.place.offset
  refine ⟨s.tokens ++ tokens, ?_, ?_⟩
  · rw [tokensFrom_of_step hstep, htokens]
    rfl
  · rw [List.map_append, hfirst, hpieces]

/-- The number of open parentheses before and after a token. -/
inductive Nests : TokenKind → Nat → Nat → Prop
  | opening {depth : Nat} : Nests .leftParen depth (depth + 1)
  | closing {depth : Nat} : Nests .rightParen (depth + 1) depth
  | plain {kind : TokenKind} {depth : Nat} : kind ≠ .leftParen →
      kind ≠ .rightParen → Nests kind depth depth

theorem step_of_lexeme
    {kind : TokenKind} {text rest : List Char} (h : Lexeme kind text)
    (hfits : Fits kind rest) {depth depth' : Nat} (hnests : Nests kind depth depth')
    (start offset : Nat) :
    step .standard (.action start depth) ⟨offset, text ++ rest⟩ =
      .ok (.inr ⟨[⟨kind, ⟨offset, offset + textBytes text⟩, String.ofList text⟩],
        .action start depth', ⟨offset + textBytes text, rest⟩⟩) := by
  -- A step looks for a right delimiter before it scans a lexeme.
  have hdelim := rightDelim?_of_lexeme h hfits
  obtain ⟨c, cs, rfl, hscan⟩ := scan_of_lexeme h hfits
  have hplace : (⟨offset, c :: cs ++ rest⟩ : Place).rest = c :: cs ++ rest := rfl
  have htoken := Place.token_of_append hplace kind
  have hadvance := Place.advance_of_append hplace
  rw [List.length_cons] at htoken hadvance
  simp only [List.cons_append] at hdelim htoken hadvance ⊢
  simp only [step, stepAction, hdelim, hscan, htoken, hadvance]
  cases hnests with
  | opening => rfl
  | closing => rfl
  | plain hleft hright =>
      split
      · exact absurd rfl hleft
      · exact absurd rfl hright
      · exact absurd rfl hright
      · rfl

/-- A lexeme and what fits after it. -/
theorem LexesAction.lexeme
    {kind : TokenKind} {text rest : List Char} (h : Lexeme kind text)
    (hfits : Fits kind rest) {depth depth' : Nat} (hnests : Nests kind depth depth')
    {pieces : List Piece} (hrest : LexesAction depth' rest pieces) :
    LexesAction depth (text ++ rest) ((kind, String.ofList text) :: pieces) := by
  intro start
  have hstep := step_of_lexeme h hfits hnests start
  change LexesFrom _ _ ([(kind, String.ofList text)] ++ pieces)
  exact LexesFrom.step fun offset => ⟨_, hstep offset, rfl, hrest start⟩

/-- The right delimiter and the text after it. -/
theorem LexesAction.rightDelim
    {rest : List Char} {pieces : List Piece} (hrest : LexesFrom .text rest pieces) :
    LexesAction 0 ('\x7d' :: '\x7d' :: rest) ((.rightDelim, "\x7d\x7d") :: pieces) := by
  intro start
  have hstep : ∀ offset,
      step .standard (.action start 0) ⟨offset, '\x7d' :: '\x7d' :: rest⟩ =
        .ok (.inr ⟨[⟨.rightDelim, ⟨offset, offset + 2⟩, "\x7d\x7d"⟩], .text,
          ⟨offset + 2, rest⟩⟩) := by
    intro offset
    rfl
  change LexesFrom _ _ ([(.rightDelim, "\x7d\x7d")] ++ pieces)
  exact LexesFrom.step fun offset => ⟨_, hstep offset, rfl, hrest⟩

/-! ## Text -/

/-- The piece of a text, if there is any. -/
def textPieces (text : List Char) : List Piece :=
  if text = [] then [] else [(.text (String.ofList text), String.ofList text)]

/-- What follows any text without opening braces is cut into given pieces, as well
as the text before it. -/
def LexesAfterText (rest : List Char) (pieces : List Piece) : Prop :=
  ∀ text, '\x7b' ∉ text → LexesFrom .text (text ++ rest) (textPieces text ++ pieces)

theorem LexesAfterText.lexesFrom
    {rest : List Char} {pieces : List Piece} (h : LexesAfterText rest pieces) :
    LexesFrom .text rest pieces :=
  h [] (by simp)

theorem find?_braces
    {text : List Char} (h : '\x7b' ∉ text) (rest : List Char) :
    find? ['\x7b', '\x7b'] (text ++ '\x7b' :: '\x7b' :: rest) = some text.length := by
  induction text with
  | nil => rfl
  | cons c text ih =>
      rw [List.mem_cons, not_or] at h
      simp [find?, List.isPrefixOf, h.1, ih h.2]

theorem find?_braces_eq_none
    {text : List Char} (h : '\x7b' ∉ text) : find? ['\x7b', '\x7b'] text = none := by
  induction text with
  | nil => rfl
  | cons c text ih =>
      rw [List.mem_cons, not_or] at h
      simp [find?, List.isPrefixOf, h.1, ih h.2]

theorem map_piece_textTokens
    {place : Place} {text after : List Char} (h : place.rest = text ++ after) :
    (textTokens place text.length).map Token.piece = textPieces text := by
  cases text with
  | nil => rfl
  | cons c text =>
      rw [textTokens, if_neg (by simp), Place.token_of_append h, h, List.take_left]
      rfl

theorem Opens.not_trimsLeft {rest : List Char} (h : Opens rest) :
    trimsLeft rest = false := by
  obtain ⟨c, cs, rfl, _, _, _, hminus⟩ := h
  rw [Bool.eq_false_iff, ne_eq, trimsLeft_eq_true]
  rintro ⟨blank, rest, hblank, heq⟩
  cases heq
  obtain ⟨c', cs', hcs, hc', _⟩ := hminus rfl
  cases hcs
  rw [hblank] at hc'
  cases hc'

theorem Opens.not_comment {rest : List Char} (h : Opens rest) :
    ¬ ['/', '*'].isPrefixOf rest = true := by
  obtain ⟨c, cs, rfl, _, _, hslash, _⟩ := h
  simp [List.isPrefixOf, hslash.symm]

theorem step_of_find?_eq_some
    {d : Delimiters} {place : Place} {count : Nat} (hplace : place.rest ≠ [])
    (h : find? d.left place.rest = some count) :
    step d .text place = (stepText d place count).map .inr := by
  obtain ⟨offset, rest⟩ := place
  cases rest with
  | nil => exact absurd rfl hplace
  | cons c rest => simp only [step, h]

theorem step_of_find?_eq_none
    {d : Delimiters} {place : Place} (h : find? d.left place.rest = none) :
    step d .text place = .ok (.inl (textTokens place place.rest.length ++
      [eofToken (place.advance place.rest.length)])) := by
  obtain ⟨offset, rest⟩ := place
  cases rest with
  | nil => rfl
  | cons c rest => simp only [step, h]

/-- The end of the source. -/
theorem LexesAfterText.eof : LexesAfterText [] [(.eof, "")] := by
  intro text htext offset
  rw [List.append_nil]
  have hstep : step .standard .text ⟨offset, text⟩ =
      .ok (.inl (textTokens ⟨offset, text⟩ text.length ++
        [eofToken ((⟨offset, text⟩ : Place).advance text.length)])) :=
    step_of_find?_eq_none (find?_braces_eq_none htext)
  have htokens : tokensFrom .standard .text ⟨offset, text⟩ =
      .ok (textTokens ⟨offset, text⟩ text.length ++
        [eofToken ((⟨offset, text⟩ : Place).advance text.length)]) := by
    rw [tokensFrom]
    split
    · rename_i heq
      rw [hstep] at heq
      cases heq
    · rename_i heq
      rw [hstep] at heq
      cases heq
      rfl
    · rename_i heq
      rw [hstep] at heq
      cases heq
  have hplace : (⟨offset, text⟩ : Place).rest = text ++ [] := by simp
  refine ⟨_, htokens, ?_⟩
  rw [List.map_append, map_piece_textTokens hplace]
  rfl

/-- A step from text up to the next braces. -/
theorem LexesAfterText.of_stepText
    {rest : List Char} {piece : Piece} {later : List Piece}
    (h : ∀ offset text,
      ∃ token mode next,
        stepText .standard ⟨offset, text ++ '\x7b' :: '\x7b' :: rest⟩ text.length =
          .ok ⟨textTokens ⟨offset, text ++ '\x7b' :: '\x7b' :: rest⟩ text.length ++
            [token], mode, next⟩ ∧
        token.piece = piece ∧ LexesFrom mode next.rest later) :
    LexesAfterText ('\x7b' :: '\x7b' :: rest) (piece :: later) := by
  intro text htext
  have hpieces : textPieces text ++ piece :: later =
      (textPieces text ++ [piece]) ++ later := by simp
  rw [hpieces]
  apply LexesFrom.step
  intro offset
  obtain ⟨token, mode, next, hstep, hpiece, hlater⟩ := h offset text
  have hfound : find? Delimiters.standard.left
      (text ++ '\x7b' :: '\x7b' :: rest) = some text.length := find?_braces htext rest
  have hstep' : step .standard .text ⟨offset, text ++ '\x7b' :: '\x7b' :: rest⟩ = _ :=
    step_of_find?_eq_some (by simp) hfound
  rw [hstep] at hstep'
  refine ⟨_, hstep', ?_, hlater⟩
  rw [List.map_append, map_piece_textTokens rfl, List.map_singleton, hpiece]

/-- The left delimiter and the action after it. -/
theorem LexesAfterText.leftDelim
    {rest : List Char} (hopens : Opens rest) {pieces : List Piece}
    (hrest : LexesAction 0 rest pieces) :
    LexesAfterText ('\x7b' :: '\x7b' :: rest) ((.leftDelim, "\x7b\x7b") :: pieces) := by
  apply LexesAfterText.of_stepText
  intro offset text
  refine ⟨⟨.leftDelim, ⟨offset + textBytes text, offset + textBytes text + 2⟩,
    "\x7b\x7b"⟩, .action (offset + textBytes text) 0,
    ⟨offset + textBytes text + 2, rest⟩, ?_, rfl, hrest _⟩
  have hplace : (⟨offset, text ++ '\x7b' :: '\x7b' :: rest⟩ : Place).rest =
      text ++ '\x7b' :: '\x7b' :: rest := rfl
  have hopening := Place.advance_of_append hplace
  have hinner : Place.advance
      ⟨offset + textBytes text, '\x7b' :: '\x7b' :: rest⟩ 2 =
        ⟨offset + textBytes text + 2, rest⟩ := rfl
  have htrims : trimsLeft (('\x7b' :: '\x7b' :: rest).drop 2) = false :=
    hopens.not_trimsLeft
  simp only [stepText, hopening, Delimiters.standard, List.length_cons, List.length_nil,
    Nat.zero_add, Nat.reduceAdd, htrims, if_neg Bool.false_ne_true, hinner,
    if_neg hopens.not_comment]
  rfl

/-- A comment between its delimiters. -/
def delimitedComment (content : List Char) : List Char :=
  '\x7b' :: '\x7b' :: (content ++ ['\x7d', '\x7d'])

theorem stepComment_of_content
    {content : List Char} (h : IsComment content) (rest : List Char) (offset : Nat) :
    stepComment .standard
        ⟨offset, '\x7b' :: '\x7b' :: (content ++ '\x7d' :: '\x7d' :: rest)⟩
        ⟨offset + 2, content ++ '\x7d' :: '\x7d' :: rest⟩ =
      .ok (⟨.comment (String.ofList content),
        ⟨offset, offset + textBytes (delimitedComment content)⟩,
        String.ofList (delimitedComment content)⟩,
        ⟨offset + textBytes (delimitedComment content), rest⟩) := by
  have hopening : (⟨offset,
      '\x7b' :: '\x7b' :: (content ++ '\x7d' :: '\x7d' :: rest)⟩ : Place).rest =
        delimitedComment content ++ rest := by
    simp [delimitedComment]
  have hplace : (⟨offset + 2, content ++ '\x7d' :: '\x7d' :: rest⟩ : Place).rest =
      content ++ '\x7d' :: '\x7d' :: rest := rfl
  have hbytes : textBytes (delimitedComment content) = 2 + textBytes content + 2 := by
    have hbraces : textBytes ['\x7b', '\x7b'] = 2 := rfl
    have hclosing : textBytes ['\x7d', '\x7d'] = 2 := rfl
    have hwhole : delimitedComment content =
        ['\x7b', '\x7b'] ++ content ++ ['\x7d', '\x7d'] := rfl
    rw [hwhole, textBytes_append, textBytes_append, hbraces, hclosing]
  obtain ⟨inner, hcontent, hfound⟩ := h
  have hlength : content.length = inner.length + 4 := by
    rw [hcontent]
    simp
  have hmark : find? ['*', '/']
      ((content ++ '\x7d' :: '\x7d' :: rest).drop 2) = some inner.length := by
    have hafter : find? ['*', '/'] (inner ++ ['*', '/'] ++ []) = some inner.length := by
      rwa [List.append_nil]
    rw [hcontent]
    have hrest := find?_append_of_eq hafter ('\x7d' :: '\x7d' :: rest)
    rw [List.append_assoc] at hrest ⊢
    exact hrest
  have hclosing := Place.advance_of_append hplace
  rw [hlength] at hclosing
  have hdelim : rightDelim? .standard ('\x7d' :: '\x7d' :: rest) = some (2, false) := rfl
  have htaken : ('\x7b' :: '\x7b' :: (content ++ '\x7d' :: '\x7d' :: rest)).length -
      ('\x7d' :: '\x7d' :: rest).length + 2 = (delimitedComment content).length := by
    simp [delimitedComment]
    omega
  have htake : (content ++ '\x7d' :: '\x7d' :: rest).take (inner.length + 4) =
      content := List.take_left' hlength
  simp only [stepComment, hmark, hclosing, hdelim, htaken, htake,
    Place.token_of_append hopening]
  rw [hbytes, ← Nat.add_assoc, ← Nat.add_assoc]
  rfl

/-- A comment and the text after it. -/
theorem LexesAfterText.comment
    {content rest : List Char} (hcontent : IsComment content) {pieces : List Piece}
    (hrest : LexesFrom .text rest pieces) :
    LexesAfterText ('\x7b' :: '\x7b' :: (content ++ '\x7d' :: '\x7d' :: rest))
      ((.comment (String.ofList content),
        String.ofList (delimitedComment content)) :: pieces) := by
  apply LexesAfterText.of_stepText
  intro offset text
  let start := offset + textBytes text
  let stop := start + textBytes (delimitedComment content)
  refine ⟨⟨.comment (String.ofList content), ⟨start, stop⟩,
    String.ofList (delimitedComment content)⟩, .text, ⟨stop, rest⟩, ?_, rfl, hrest⟩
  have hplace : (⟨offset, text ++
      '\x7b' :: '\x7b' :: (content ++ '\x7d' :: '\x7d' :: rest)⟩ : Place).rest =
        text ++ '\x7b' :: '\x7b' :: (content ++ '\x7d' :: '\x7d' :: rest) := rfl
  have hopening := Place.advance_of_append hplace
  have hinner : Place.advance
      ⟨start, '\x7b' :: '\x7b' :: (content ++ '\x7d' :: '\x7d' :: rest)⟩ 2 =
        ⟨start + 2, content ++ '\x7d' :: '\x7d' :: rest⟩ := rfl
  have hslash : ['/', '*'].isPrefixOf (content ++ '\x7d' :: '\x7d' :: rest) = true := by
    obtain ⟨inner, rfl, _⟩ := hcontent
    rfl
  have htrims : trimsLeft (('\x7b' :: '\x7b' ::
      (content ++ '\x7d' :: '\x7d' :: rest)).drop 2) = false := by
    obtain ⟨inner, rfl, _⟩ := hcontent
    rfl
  have hcomment := stepComment_of_content hcontent rest start
  simp only [Delimiters.standard] at hcomment
  simp only [stepText, hopening, Delimiters.standard, List.length_cons, List.length_nil,
    Nat.zero_add, Nat.reduceAdd, htrims, if_neg Bool.false_ne_true, hinner,
    if_pos hslash, start]
  rw [hcomment]

end TemplateTyping
