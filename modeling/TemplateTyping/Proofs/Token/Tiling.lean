import TemplateTyping.Proofs.Token.Lexeme

/-!
# Tokens tile the source

The tokens of a source stand in it one after the other, up to its end.  What is
left out between two of them are blanks next to a trim marker, and no text next to
a trim marker keeps a blank there.  The names and texts that tokens carry are
pieces of the source that they cover.

Text, comments and actions alternate in any order.  One step of the lexer lays out
a few tokens and leaves the blanks that it has skipped to the step after it; the
relation `Laid` describes what all steps together lay out.
-/

namespace TemplateTyping

open Lexer

/-! ## What tokens look like -/

namespace Token

/-- The token opens an action or a comment and trims the blanks before it. -/
def TrimsBefore (d : Delimiters) (token : Token) : Prop :=
  (token.kind = .leftDelim ∨ ∃ content, token.kind = .comment content) ∧
    ∃ blank rest, isBlank blank = true ∧
      token.text.toList = d.left ++ '-' :: blank :: rest

/-- The token closes an action or a comment and trims the blanks after it. -/
def TrimsAfter (d : Delimiters) (token : Token) : Prop :=
  (token.kind = .rightDelim ∨ ∃ content, token.kind = .comment content) ∧
    ∃ front blank, isBlank blank = true ∧
      token.text.toList = front ++ blank :: '-' :: d.right

/-- The name or text that the token carries is a piece of its source text: a
comment without its delimiters, a field without its dot, and all others in
full. -/
def Carries (d : Delimiters) (token : Token) : Prop :=
  match token.kind with
  | .text content => token.text = content
  | .comment content => ∃ before after opening closing,
      IsLeftDelim d before opening ∧ IsRightDelim d after closing ∧
        IsComment content.toList ∧
          token.text.toList = opening ++ content.toList ++ closing
  | .field name => token.text.toList = '.' :: name.toList
  | .variable name => token.text = name
  | .identifier name => token.text = name
  | _ => True

/-- The token covers some text from an offset on. -/
structure Covers (d : Delimiters) (start : Nat) (token : Token) : Prop where
  ne_eof : token.kind ≠ .eof
  ne_nil : token.text.toList ≠ []
  carries : token.Carries d
  lexed : token.IsLexed
  span_eq : token.span = ⟨start, start + textBytes token.text.toList⟩

end Token

/-- What may stand between a token and the next one, or before the first token:
blanks next to a trim marker.  Text next to a trim marker has no blank there. -/
structure Seam (d : Delimiters) (previous : Option Token) (gap : List Char)
    (next : Token) : Prop where
  blank : ∀ c ∈ gap, isBlank c = true
  trimmed : gap ≠ [] →
    (∃ token, previous = some token ∧ token.TrimsAfter d) ∨ next.TrimsBefore d
  textBefore : ∀ token content, previous = some token →
    token.kind = .text content → next.TrimsBefore d →
      ∀ c, token.text.toList.getLast? = some c → isBlank c = false
  textAfter : ∀ token content, previous = some token →
    token.TrimsAfter d → next.kind = .text content →
      ∀ c, next.text.toList.head? = some c → isBlank c = false

/-- Tokens laid out over a text that starts at an offset, where the previous token
ends. -/
inductive Laid (d : Delimiters) : Option Token → Nat → List Char → List Token → Prop
  | eof {previous : Option Token} {offset : Nat} {gap : List Char} {token : Token} :
      Seam d previous gap token →
      token = ⟨.eof, ⟨offset + textBytes gap, offset + textBytes gap⟩, ""⟩ →
      Laid d previous offset gap [token]
  | cons {previous : Option Token} {offset : Nat} {gap rest : List Char}
      {token : Token} {tokens : List Token} :
      Seam d previous gap token →
      token.Covers d (offset + textBytes gap) →
      Laid d (some token) token.span.stop rest tokens →
      Laid d previous offset (gap ++ (token.text.toList ++ rest)) (token :: tokens)

/-! ## Trim markers -/

section TrimMarkers

variable {d : Delimiters} {trims : Bool} {span : Span}

theorem trimsBefore_iff_of_leftDelim
    {delim : List Char} (h : IsLeftDelim d trims delim) :
    Token.TrimsBefore d ⟨.leftDelim, span, String.ofList delim⟩ ↔
      trims = true := by
  cases h with
  | plain => simp [Token.TrimsBefore]
  | trimming hblank =>
      simp only [iff_true]
      exact ⟨.inl rfl, _, [], hblank, by simp⟩

theorem trimsAfter_iff_of_rightDelim
    {delim : List Char} (h : IsRightDelim d trims delim) :
    Token.TrimsAfter d ⟨.rightDelim, span, String.ofList delim⟩ ↔
      trims = true := by
  cases h with
  | plain =>
      simp only [Token.TrimsAfter, String.toList_ofList, Bool.false_eq_true,
        iff_false]
      rintro ⟨_, front, blank, _, htext⟩
      have hlength := congrArg List.length htext
      simp at hlength
      omega
  | trimming hblank =>
      simp only [iff_true]
      exact ⟨.inl rfl, [], _, hblank, by simp⟩

theorem trimsBefore_iff_of_comment
    {opening content closing : List Char} (h : IsLeftDelim d trims opening)
    (hcontent : IsComment content) {carried : String} :
    Token.TrimsBefore d ⟨.comment carried, span,
        String.ofList (opening ++ content ++ closing)⟩ ↔ trims = true := by
  obtain ⟨inner, rfl, _⟩ := hcontent
  cases h with
  | plain => simp [Token.TrimsBefore]
  | trimming hblank =>
      simp only [iff_true]
      refine ⟨.inr ⟨_, rfl⟩, _, '/' :: '*' :: inner ++ ['*', '/'] ++ closing,
        hblank, ?_⟩
      simp

theorem trimsAfter_iff_of_comment
    {opening content closing : List Char} (h : IsRightDelim d trims closing)
    (hcontent : IsComment content) {carried : String} :
    Token.TrimsAfter d ⟨.comment carried, span,
        String.ofList (opening ++ content ++ closing)⟩ ↔ trims = true := by
  obtain ⟨inner, rfl, _⟩ := hcontent
  cases h with
  | plain =>
      simp only [Token.TrimsAfter, String.toList_ofList, Bool.false_eq_true,
        iff_false]
      rintro ⟨_, front, blank, _, htext⟩
      have hfront : (opening ++ '/' :: '*' :: inner ++ ['*']) ++ '/' :: d.right =
          (front ++ [blank]) ++ '-' :: d.right := by
        simpa using htext
      have hlast := (List.append_inj' hfront (by simp)).2
      simp at hlast
  | trimming hblank =>
      simp only [iff_true]
      refine ⟨.inr ⟨_, rfl⟩, opening ++ '/' :: '*' :: inner ++ ['*', '/'], _,
        hblank, ?_⟩
      simp

end TrimMarkers

/-! ## Tokens of actions -/

/-- The kinds of the tokens inside of actions. -/
def TokenKind.IsInner : TokenKind → Prop
  | .text _ | .comment _ | .leftDelim | .rightDelim | .eof => False
  | _ => True

/-- A lexeme is not empty, belongs to an action, and tells the name it carries. -/
theorem Lexer.Lexeme.inner
    {d : Delimiters} {kind : TokenKind} {text : List Char}
    (h : Lexeme kind text) (span : Span) :
    kind.IsInner ∧ text ≠ [] ∧
      Token.Carries d ⟨kind, span, String.ofList text⟩ := by
  cases h with
  | space hne hblank => exact ⟨trivial, hne, trivial⟩
  | number hnumeral => exact ⟨trivial, hnumeral.1.ne_nil, trivial⟩
  | «variable» hword => exact ⟨trivial, by simp, rfl⟩
  | field hword hne hdigit =>
      exact ⟨trivial, by simp, by simp [Token.Carries]⟩
  | @word c word hchar hdigit hword =>
      exact TokenKind.ofWord_induct (String.ofList (c :: word)) ⟨trivial, by simp, rfl⟩
        (fun _ => ⟨trivial, by simp, trivial⟩) fun _ => ⟨trivial, by simp, trivial⟩
  | _ => exact ⟨trivial, by simp, trivial⟩

theorem Lexer.Lexeme.isLexed
    {kind : TokenKind} {text : List Char} (h : Lexeme kind text) (span : Span) :
    Token.IsLexed ⟨kind, span, String.ofList text⟩ := by
  have hinner := (h.inner (d := .standard) span).1
  cases kind with
  | text content => exact hinner.elim
  | comment content => exact hinner.elim
  | leftDelim => trivial
  | rightDelim => trivial
  | eof => trivial
  | _ => simpa [Token.IsLexed] using h

/-- Without a gap every token of an action may follow, and a right delimiter. -/
theorem Seam.of_inner
    {d : Delimiters} {previous : Option Token} {next : Token}
    (h : next.kind.IsInner ∨ next.kind = .rightDelim) :
    Seam d previous [] next where
  blank := by simp
  trimmed := by simp
  textBefore := by
    rintro token content _ _ ⟨hleft | ⟨comment, hcomment⟩, _⟩
    · rw [hleft] at h
      simp [TokenKind.IsInner] at h
    · rw [hcomment] at h
      simp [TokenKind.IsInner] at h
  textAfter := by
    intro token content _ _ htext
    rw [htext] at h
    simp [TokenKind.IsInner] at h

/-! ## Where the lexer stands -/

/-- The lexer may go on in a mode, after the previous token and a gap: in an action
there is no gap, and in text it consists of blanks that the previous token
trims. -/
structure Ready (d : Delimiters) (mode : Mode) (previous : Option Token)
    (gap rest : List Char) : Prop where
  blank : ∀ c ∈ gap, isBlank c = true
  trimmed : gap ≠ [] → ∃ token, previous = some token ∧ token.TrimsAfter d
  inAction : ∀ start depth, mode = .action start depth → gap = []
  noText : mode = .text → ∀ token content, previous = some token →
    token.kind ≠ .text content
  noBlank : mode = .text → ∀ token, previous = some token → token.TrimsAfter d →
    ∀ c, rest.head? = some c → isBlank c = false

theorem Ready.start (d : Delimiters) (text : List Char) :
    Ready d .text none [] text where
  blank := by simp
  trimmed := by simp
  inAction := by simp
  noText := by simp
  noBlank := by simp

theorem Ready.action
    (d : Delimiters) (start depth : Nat) (previous : Option Token)
    (rest : List Char) : Ready d (.action start depth) previous [] rest where
  blank := by simp
  trimmed := by simp
  inAction := by simp
  noText := by simp
  noBlank := by simp

/-- After a closing delimiter the lexer goes on with text. -/
theorem Ready.afterDelim
    {d : Delimiters} {token : Token} {trims : Bool} {gap rest : List Char}
    (hskips : Skips trims gap rest) (htrims : token.TrimsAfter d ↔ trims = true)
    (htext : ∀ content, token.kind ≠ .text content) :
    Ready d .text (some token) gap rest where
  blank := hskips.blank
  trimmed := by
    intro hgap
    refine ⟨token, rfl, htrims.mpr ?_⟩
    cases trims with
    | false => exact absurd (hskips.plain rfl) hgap
    | true => rfl
  inAction := by simp
  noText := by
    rintro _ _ content ⟨⟩
    exact htext content
  noBlank := by
    rintro _ _ ⟨⟩ hafter
    exact hskips.trimming (htrims.mp hafter)

/-- A step from a place lays out tokens: whatever is laid out from where it leads
to, is laid out with these tokens before it. -/
structure Lays (d : Delimiters) (previous : Option Token) (offset : Nat)
    (text : List Char) (s : Step) (next : Option Token) (start : Nat)
    (gap : List Char) : Prop where
  ready : Ready d s.mode next gap s.place.rest
  offset_eq : s.place.offset = start + textBytes gap
  laid : ∀ later, Laid d next start (gap ++ s.place.rest) later →
    Laid d previous offset text (s.tokens ++ later)

/-- A step that takes one token and skips the gap after it. -/
theorem Lays.of_token
    {d : Delimiters} {previous : Option Token} {place : Place} {token : Token}
    {mode : Mode} {gap rest : List Char}
    (hseam : Seam d previous [] token) (hcovers : token.Covers d place.offset)
    (hrest : place.rest = token.text.toList ++ (gap ++ rest))
    (hready : Ready d mode (some token) gap rest) :
    Lays d previous place.offset place.rest
      ⟨[token], mode, ⟨token.span.stop + textBytes gap, rest⟩⟩
      (some token) token.span.stop gap where
  ready := hready
  offset_eq := rfl
  laid := by
    intro later hlater
    rw [hrest]
    exact .cons hseam hcovers hlater

/-! ## Steps in an action -/

theorem lexeme_lays
    {d : Delimiters} {place : Place} {kind : TokenKind} {count : Nat}
    (h : Lexeme kind (place.rest.take count)) (start depth : Nat)
    (previous : Option Token) :
    ∃ next start' gap, Lays d previous place.offset place.rest
      ⟨[place.token kind count], .action start depth, place.advance count⟩
      next start' gap := by
  obtain ⟨hinner, hne, hcarries⟩ :=
    h.inner ⟨place.offset, (place.advance count).offset⟩
  have hkind : kind ≠ .eof := by
    rintro rfl
    exact hinner
  have hadvance : place.advance count =
      ⟨(place.token kind count).span.stop + textBytes [], place.rest.drop count⟩ :=
    rfl
  rw [hadvance]
  refine ⟨_, _, [], Lays.of_token (Seam.of_inner (.inl hinner)) ?_ ?_ ?_⟩
  · exact ⟨hkind, by simpa [Place.token] using hne, hcarries, h.isLexed _,
      by simp [Place.token, Place.advance]⟩
  · simp [Place.token, Place.advance]
  · exact .action d start depth _ _

theorem stepAction_lays
    {d : Delimiters} {start depth : Nat} {place : Place} {c : Char}
    {cs : List Char} (hplace : place.rest = c :: cs) {s : Step}
    (h : stepAction d start depth place c cs = .ok s) (previous : Option Token) :
    ∃ next start' gap,
      Lays d previous place.offset place.rest s next start' gap := by
  rw [stepAction] at h
  split at h
  · rename_i length trims hdelim
    obtain ⟨delim, after, hrest, rfl, hright⟩ := rightDelim?_eq_some hdelim
    obtain ⟨gap, rest, rfl, hskips, hafter⟩ := afterDelim_of_append hrest trims
    split at h
    · rw [Place.token_of_append hrest, hafter] at h
      cases h
      refine ⟨_, _, gap, Lays.of_token (Seam.of_inner (.inr rfl)) ?_ ?_ ?_⟩
      · exact ⟨by simp, by simpa using hright.ne_nil, trivial, trivial, by simp⟩
      · simpa using hrest
      · exact .afterDelim hskips (trimsAfter_iff_of_rightDelim hright) (by simp)
    · cases h
  · split at h
    · cases h
    · rename_i kind more hscan
      have hlexeme := scan_lexeme hscan
      rw [← hplace] at hlexeme
      simp only at h
      split at h
      · cases h
        exact lexeme_lays hlexeme start _ previous
      · cases h
      · cases h
        exact lexeme_lays hlexeme start _ previous
      · cases h
        exact lexeme_lays hlexeme start _ previous

/-! ## Steps in text -/

/-- Of the text before a delimiter that trims the last blanks are left out. -/
structure Keeps (trims : Bool) (text blanks : List Char) : Prop where
  blank : ∀ c ∈ blanks, isBlank c = true
  plain : trims = false → blanks = []
  trimming : trims = true → ∀ c, text.getLast? = some c → isBlank c = false

theorem exists_keeps (trims : Bool) (whole : List Char) :
    ∃ text blanks, whole = text ++ blanks ∧ Keeps trims text blanks ∧
      text.length = if trims then (whole.reverse.dropWhile isBlank).length
        else whole.length := by
  cases trims with
  | false => exact ⟨whole, [], by simp, ⟨by simp, by simp, by simp⟩, rfl⟩
  | true =>
      refine ⟨(whole.reverse.dropWhile isBlank).reverse,
        (whole.reverse.takeWhile isBlank).reverse, ?_, ⟨?_, by simp, ?_⟩, by simp⟩
      · rw [← List.reverse_append, List.takeWhile_append_dropWhile,
          List.reverse_reverse]
      · intro c hc
        rw [List.mem_reverse] at hc
        exact List.all_eq_true.mp List.all_takeWhile c hc
      · intro _ c hc
        have hhead := List.head?_dropWhile_not isBlank whole.reverse
        rw [List.getLast?_reverse] at hc
        rw [hc] at hhead
        simpa using hhead

/-- The token of a text from an offset on. -/
def textToken (start : Nat) (text : List Char) : Token :=
  ⟨.text (String.ofList text), ⟨start, start + textBytes text⟩, String.ofList text⟩

theorem textTokens_of_append
    {place : Place} {text after : List Char} (h : place.rest = text ++ after)
    (hne : text ≠ []) :
    textTokens place text.length = [textToken place.offset text] := by
  have hlength : text.length ≠ 0 := by simpa using hne
  rw [textTokens, if_neg hlength, Place.token_of_append h, h, List.take_left]
  rfl

/-- The text before a token is laid out with it, if there is any. -/
theorem laid_textTokens
    {d : Delimiters} {previous : Option Token} {offset : Nat} {gap : List Char}
    {place : Place} (hready : Ready d .text previous gap place.rest)
    (hoffset : place.offset = offset + textBytes gap)
    {text blanks rest : List Char} (hrest : place.rest = text ++ (blanks ++ rest))
    {trims : Bool} (hkeeps : Keeps trims text blanks)
    {next : Token} (htrims : next.TrimsBefore d ↔ trims = true)
    (hkind : ∀ content, next.kind ≠ .text content) {later : List Token}
    (hnext : ∀ previous offset gap, Seam d previous gap next →
      offset + textBytes gap = place.offset + textBytes (text ++ blanks) →
        Laid d previous offset (gap ++ rest) (next :: later)) :
    Laid d previous offset (gap ++ place.rest)
      (textTokens place text.length ++ next :: later) := by
  have hblanks : blanks ≠ [] → next.TrimsBefore d := by
    intro hne
    apply htrims.mpr
    cases trims with
    | false => exact absurd (hkeeps.plain rfl) hne
    | true => rfl
  rw [hrest]
  by_cases htext : text = []
  · subst htext
    rw [List.nil_append, ← List.append_assoc]
    refine hnext previous offset (gap ++ blanks) ⟨?_, ?_, ?_, ?_⟩ ?_
    · intro c hc
      rcases List.mem_append.mp hc with hc | hc
      · exact hready.blank c hc
      · exact hkeeps.blank c hc
    · intro hne
      by_cases hgap : gap = []
      · right
        apply hblanks
        rwa [hgap, List.nil_append] at hne
      · exact .inl (hready.trimmed hgap)
    · intro token content hprevious hcontent
      exact absurd hcontent (hready.noText rfl token content hprevious)
    · intro token content _ _ hcontent
      exact absurd hcontent (hkind content)
    · rw [textBytes_append, hoffset, List.nil_append]
      omega
  · rw [textTokens_of_append hrest htext]
    have hlaid : Laid d previous offset
        (gap ++ ((textToken place.offset text).text.toList ++ (blanks ++ rest)))
        (textToken place.offset text :: next :: later) := by
      refine .cons ⟨hready.blank, ?_, ?_, ?_⟩ ?_ (hnext _ _ _ ⟨?_, ?_, ?_, ?_⟩ ?_)
      · intro hgap
        exact .inl (hready.trimmed hgap)
      · rintro _ _ _ _ ⟨hleft | ⟨content, hcomment⟩, _⟩
        · cases hleft
        · cases hcomment
      · intro token content hprevious hafter _ c hc
        apply hready.noBlank rfl token hprevious hafter
        have hhead : text.head? = some c := by simpa [textToken] using hc
        rw [hrest, List.head?_append, hhead]
        rfl
      · rw [← hoffset]
        exact ⟨by simp [textToken], by simpa [textToken] using htext, rfl,
          by simpa [Token.IsLexed, textToken] using htext, by simp [textToken]⟩
      · exact hkeeps.blank
      · intro hne
        exact .inr (hblanks hne)
      · rintro _ _ ⟨⟩ _ hnextTrims c hc
        apply hkeeps.trimming (htrims.mp hnextTrims)
        simpa [textToken] using hc
      · rintro _ _ ⟨⟩ ⟨hright | ⟨content, hcomment⟩, _⟩
        · cases hright
        · cases hcomment
      · simp [textToken, Nat.add_assoc]
    simpa [textToken] using hlaid

/-- The left delimiter at a place where the lexer has found one. -/
theorem exists_leftDelim (d : Delimiters) (after : List Char) :
    ∃ trims delim body, d.left ++ after = delim ++ body ∧
      IsLeftDelim d trims delim ∧ trimsLeft after = trims ∧
        delim.length = if trims then d.left.length + markerLength
          else d.left.length := by
  cases htrims : trimsLeft after with
  | false => exact ⟨false, d.left, after, rfl, .plain, rfl, rfl⟩
  | true =>
      obtain ⟨blank, body, hblank, rfl⟩ := trimsLeft_eq_true.mp htrims
      refine ⟨true, d.left ++ ['-', blank], body, by simp, .trimming hblank, rfl, ?_⟩
      simp [markerLength]

/-- A step that takes text and one token, and skips the gap after it. -/
theorem Lays.of_text
    {d : Delimiters} {previous : Option Token} {offset : Nat} {gap : List Char}
    {place : Place} (hready : Ready d .text previous gap place.rest)
    (hoffset : place.offset = offset + textBytes gap)
    {text blanks rest gap' : List Char} {token : Token}
    (hrest : place.rest =
      text ++ (blanks ++ (token.text.toList ++ (gap' ++ rest))))
    {trims : Bool} (hkeeps : Keeps trims text blanks)
    (htrims : token.TrimsBefore d ↔ trims = true)
    (hkind : ∀ content, token.kind ≠ .text content)
    (hcovers : token.Covers d (place.offset + textBytes (text ++ blanks)))
    {mode : Mode} (hready' : Ready d mode (some token) gap' rest) :
    Lays d previous offset (gap ++ place.rest)
      ⟨textTokens place text.length ++ [token], mode,
        ⟨token.span.stop + textBytes gap', rest⟩⟩
      (some token) token.span.stop gap' where
  ready := hready'
  offset_eq := rfl
  laid := by
    intro later hlater
    rw [List.append_assoc]
    apply laid_textTokens hready hoffset hrest hkeeps htrims hkind
    intro previous offset gap hseam hstart
    rw [← hstart] at hcovers
    exact .cons hseam hcovers hlater

theorem stepText_lays
    {d : Delimiters} {previous : Option Token} {offset : Nat} {gap : List Char}
    {place : Place} (hready : Ready d .text previous gap place.rest)
    (hoffset : place.offset = offset + textBytes gap)
    {count : Nat} (hfound : find? d.left place.rest = some count)
    {s : Step} (h : stepText d place count = .ok s) :
    ∃ next start' gap',
      Lays d previous offset (gap ++ place.rest) s next start' gap' := by
  obtain ⟨whole, after, hplace, rfl⟩ := find?_eq_some hfound
  obtain ⟨trims, delim, body, hdelim, hleft, htrims, hlength⟩ :=
    exists_leftDelim d after
  obtain ⟨text, blanks, hwhole, hkeeps, hkept⟩ := exists_keeps trims whole
  rw [List.append_assoc] at hplace
  have hrest : place.rest = text ++ (blanks ++ (delim ++ body)) := by
    rw [hplace, hdelim, hwhole, List.append_assoc]
  let opening : Place := ⟨place.offset + textBytes whole, delim ++ body⟩
  have hopening : place.advance whole.length = opening := by
    rw [Place.advance_of_append hplace, hdelim]
  have hafter : (delim ++ body).drop d.left.length = after := by
    rw [← hdelim, List.drop_left]
  have htake : place.rest.take whole.length = whole := by
    rw [hplace, List.take_left]
  have hinner : opening.advance delim.length =
      ⟨place.offset + textBytes whole + textBytes delim, body⟩ :=
    Place.advance_of_append rfl
  simp only [stepText, hopening, opening, hafter, htake, htrims, ← hlength,
    ← hkept] at h
  split at h
  · rename_i hslash
    rw [hinner] at hslash
    obtain ⟨comment, rfl⟩ := List.isPrefixOf_iff_prefix.mp hslash
    split at h
    · cases h
    · rename_i token next hcomment
      obtain ⟨content, trims', closing, gap', rest, hbody, hcontent, hright,
        hskips, rfl, rfl⟩ := stepComment_eq_ok rfl hcomment
      cases h
      refine ⟨_, _, gap', Lays.of_text hready hoffset ?_ hkeeps
        (trimsBefore_iff_of_comment hleft hcontent) (by simp) ?_
        (.afterDelim hskips (trimsAfter_iff_of_comment hright hcontent) (by simp))⟩
      · rw [hrest]
        simpa using hbody
      · refine ⟨by simp, ?_, ?_, by simpa [Token.IsLexed] using hcontent, ?_⟩
        · simp [hleft.ne_nil]
        · exact ⟨_, _, delim, closing, hleft, hright, by simpa using hcontent,
            by simp⟩
        · simp [hwhole]
  · have htoken : opening.token .leftDelim delim.length =
        ⟨.leftDelim, ⟨opening.offset, opening.offset + textBytes delim⟩,
          String.ofList delim⟩ := Place.token_of_append rfl .leftDelim
    rw [hinner, htoken] at h
    cases h
    refine ⟨_, _, [], Lays.of_text hready hoffset ?_ hkeeps
      (trimsBefore_iff_of_leftDelim hleft) (by simp) ?_
      (.action d opening.offset 0 _ body)⟩
    · simpa using hrest
    · exact ⟨by simp, by simpa using hleft.ne_nil, trivial, trivial,
        by simp [opening, hwhole]⟩

/-! ## Runs -/

/-- One step of the lexer lays out its tokens. -/
theorem step_lays
    {d : Delimiters} {mode : Mode} {previous : Option Token} {offset : Nat}
    {gap : List Char} {place : Place} (hready : Ready d mode previous gap place.rest)
    (hoffset : place.offset = offset + textBytes gap)
    {s : Step} (h : step d mode place = .ok (.inr s)) :
    ∃ next start' gap',
      Lays d previous offset (gap ++ place.rest) s next start' gap' := by
  unfold step at h
  split at h
  · cases h
  · split at h
    · cases h
    · rename_i count hfound
      obtain ⟨s', hstep, hs⟩ := Except.map_eq_ok h
      cases hs
      exact stepText_lays hready hoffset hfound hstep
  · cases h
  · rename_i start depth c cs hplace
    obtain ⟨s', hstep, hs⟩ := Except.map_eq_ok h
    cases hs
    obtain rfl : gap = [] := hready.inAction start depth rfl
    obtain rfl : place.offset = offset := hoffset
    exact stepAction_lays hplace hstep previous

/-- The text up to the end of the source is laid out with the token of the end. -/
theorem laid_toEnd
    {d : Delimiters} {previous : Option Token} {offset : Nat} {gap : List Char}
    {place : Place} (hready : Ready d .text previous gap place.rest)
    (hoffset : place.offset = offset + textBytes gap) :
    Laid d previous offset (gap ++ place.rest)
      (textTokens place place.rest.length ++
        [eofToken (place.advance place.rest.length)]) := by
  have hkeeps : Keeps false place.rest [] := ⟨by simp, by simp, by simp⟩
  have hrest : place.rest = place.rest ++ ([] ++ []) := by simp
  have htrims : (eofToken (place.advance place.rest.length)).TrimsBefore d ↔
      false = true := by
    simp [Token.TrimsBefore, eofToken, Place.token]
  apply laid_textTokens hready hoffset hrest hkeeps htrims
  · intro content hkind
    cases hkind
  · intro previous offset gap hseam hstart
    rw [List.append_nil]
    refine .eof hseam ?_
    simp [eofToken, Place.token, Place.advance, textBytes, hstart]

/-- The last step of the lexer lays out what is left. -/
theorem laid_of_step
    {d : Delimiters} {mode : Mode} {previous : Option Token} {offset : Nat}
    {gap : List Char} {place : Place} (hready : Ready d mode previous gap place.rest)
    (hoffset : place.offset = offset + textBytes gap)
    {tokens : List Token} (h : step d mode place = .ok (.inl tokens)) :
    Laid d previous offset (gap ++ place.rest) tokens := by
  unfold step at h
  split at h
  · rename_i hplace
    cases h
    have hend := laid_toEnd hready hoffset
    have hstay : place.advance 0 = place := rfl
    rw [hplace] at hend ⊢
    rwa [List.length_nil, hstay] at hend
  · split at h
    · cases h
      exact laid_toEnd hready hoffset
    · obtain ⟨s', hstep, hs⟩ := Except.map_eq_ok h
      cases hs
  · cases h
  · obtain ⟨s', hstep, hs⟩ := Except.map_eq_ok h
    cases hs

/-- All steps of the lexer together lay out the tokens over the text. -/
theorem tokensFrom_laid
    {d : Delimiters} {mode : Mode} {previous : Option Token} {offset : Nat}
    {gap : List Char} {place : Place} (hready : Ready d mode previous gap place.rest)
    (hoffset : place.offset = offset + textBytes gap)
    {tokens : List Token} (h : tokensFrom d mode place = .ok tokens) :
    Laid d previous offset (gap ++ place.rest) tokens := by
  -- A step may leave out blanks after its last token; they are the gap before the
  -- tokens of the next step, which is why the gap is generalized.
  fun_induction tokensFrom d mode place generalizing previous offset gap tokens with
  | case1 mode place fault hstep => cases h
  | case2 mode place tokens' hstep =>
      cases h
      exact laid_of_step hready hoffset hstep
  | case3 mode place s hstep _ ih =>
      obtain ⟨later, hlater, rfl⟩ := Except.map_eq_ok h
      obtain ⟨next, start', gap', hlays⟩ := step_lays hready hoffset hstep
      exact hlays.laid later (ih hlays.ready hlays.offset_eq hlater)

/-! ## The whole source -/

/-- The token stands in the source where its span says: at character boundaries,
and its text is what stands there. -/
def Token.StandsIn (source : String) (token : Token) : Prop :=
  ∃ before after, source.toList = before ++ token.text.toList ++ after ∧
    token.span =
      ⟨textBytes before, textBytes before + textBytes token.text.toList⟩

/-- Tokens that tile a source. -/
structure Tiling (d : Delimiters) (source : String) (tokens : List Token) : Prop where
  stands : ∀ token ∈ tokens, token.StandsIn source
  ne_empty : ∀ token ∈ tokens, token.kind ≠ .eof →
    token.span.start < token.span.stop
  carries : ∀ token ∈ tokens, token.Carries d
  /-- What is left out before a token starts where the token before it ends. -/
  seams : ∀ before next after, tokens = before ++ next :: after →
    ∃ done gap rest, source.toList = done ++ gap ++ rest ∧
      textBytes done = (before.getLast?.map (·.span.stop)).getD 0 ∧
      next.span.start = textBytes (done ++ gap) ∧
      Seam d before.getLast? gap next
  ends : ∃ before,
    tokens = before ++
      [⟨.eof, ⟨source.utf8ByteSize, source.utf8ByteSize⟩, ""⟩] ∧
    ∀ token ∈ before, token.kind ≠ .eof

namespace Laid

variable {d : Delimiters} {previous : Option Token} {offset : Nat}
  {text : List Char} {tokens : List Token}

theorem stands
    (h : Laid d previous offset text tokens) {source : String} {done : List Char}
    (hsource : source.toList = done ++ text) (hoffset : textBytes done = offset) :
    ∀ token ∈ tokens, token.StandsIn source := by
  induction h generalizing done with
  | @eof previous offset gap token hseam htoken =>
      intro other hother
      rw [List.mem_singleton] at hother
      rw [hother, htoken]
      exact ⟨done ++ gap, [], by simpa using hsource, by simp [hoffset, textBytes]⟩
  | @cons previous offset gap rest token tokens hseam hcovers hlaid ih =>
      have hsource' : source.toList = done ++ gap ++ token.text.toList ++ rest := by
        simpa using hsource
      have hstart : textBytes (done ++ gap) = offset + textBytes gap := by
        simp [hoffset]
      intro other hother
      rcases List.mem_cons.mp hother with rfl | hother
      · exact ⟨done ++ gap, rest, hsource', by rw [hcovers.span_eq, hstart]⟩
      · apply ih hsource' ?_ other hother
        rw [textBytes_append, hstart, hcovers.span_eq]

theorem covers
    (h : Laid d previous offset text tokens) :
    ∀ token ∈ tokens, token.kind = .eof ∨ ∃ start, token.Covers d start := by
  induction h with
  | eof hseam htoken =>
      intro other hother
      rw [List.mem_singleton] at hother
      rw [hother, htoken]
      exact .inl rfl
  | cons hseam hcovers hlaid ih =>
      intro other hother
      rcases List.mem_cons.mp hother with rfl | hother
      · exact .inr ⟨_, hcovers⟩
      · exact ih other hother

theorem ends
    (h : Laid d previous offset text tokens) :
    ∃ before, tokens = before ++
        [⟨.eof, ⟨offset + textBytes text, offset + textBytes text⟩, ""⟩] ∧
      ∀ token ∈ before, token.kind ≠ .eof := by
  induction h with
  | eof hseam htoken => exact ⟨[], by rw [htoken]; rfl, by simp⟩
  | @cons previous offset gap rest token tokens hseam hcovers hlaid ih =>
      obtain ⟨before, htokens, hbefore⟩ := ih
      refine ⟨token :: before, ?_, ?_⟩
      · rw [htokens, hcovers.span_eq]
        simp [Nat.add_assoc]
      · intro other hother
        rcases List.mem_cons.mp hother with rfl | hother
        · exact hcovers.ne_eof
        · exact hbefore other hother

theorem seams
    (h : Laid d previous offset text tokens) {source : String} {done : List Char}
    (hsource : source.toList = done ++ text) (hoffset : textBytes done = offset)
    {before : List Token} {next : Token} {after : List Token}
    (htokens : tokens = before ++ next :: after) :
    ∃ done gap rest, source.toList = done ++ gap ++ rest ∧
      textBytes done = (before.getLast?.map (·.span.stop)).getD offset ∧
      next.span.start = textBytes (done ++ gap) ∧
      Seam d (before.getLast?.or previous) gap next := by
  induction h generalizing done before with
  | @eof previous offset gap token hseam htoken =>
      obtain ⟨rfl, hnext⟩ : before = [] ∧ [token] = next :: after := by
        cases before with
        | nil => exact ⟨rfl, htokens⟩
        | cons first before => simp at htokens
      cases hnext
      refine ⟨done, gap, [], by simpa using hsource, hoffset, ?_, hseam⟩
      rw [htoken, textBytes_append, hoffset]
  | @cons previous offset gap rest token tokens hseam hcovers hlaid ih =>
      have hstart : textBytes (done ++ gap) = offset + textBytes gap := by
        simp [hoffset]
      cases before with
      | nil =>
          cases htokens
          refine ⟨done, gap, next.text.toList ++ rest, by simpa using hsource,
            hoffset, ?_, hseam⟩
          rw [hcovers.span_eq, hstart]
      | cons first before =>
          cases htokens
          have hdone : source.toList =
              (done ++ gap ++ token.text.toList) ++ rest := by
            simpa using hsource
          have hstop : textBytes (done ++ gap ++ token.text.toList) =
              token.span.stop := by
            rw [textBytes_append, hstart, hcovers.span_eq]
          obtain ⟨done', gap', rest', hsplit, hbytes, hnext, hseam'⟩ :=
            ih hdone hstop rfl
          refine ⟨done', gap', rest', hsplit, ?_, hnext, ?_⟩
          · rw [hbytes, List.getLast?_cons]
            cases before.getLast? with
            | none => rfl
            | some last => rfl
          · rw [List.getLast?_cons]
            cases hlast : before.getLast? with
            | none => simpa [hlast] using hseam'
            | some last => simpa [hlast] using hseam'

end Laid

/-- The tokens of every source tile it, whatever the delimiters are. -/
theorem tokenize_tiling
    (d : Delimiters) (source : String) (tokens : List Token)
    (h : tokenize d source = .ok tokens) :
    Tiling d source tokens := by
  have hlaid : Laid d none 0 source.toList tokens :=
    tokensFrom_laid (.start d source.toList) rfl h
  have hsource : source.toList = [] ++ source.toList := rfl
  constructor
  · exact hlaid.stands hsource rfl
  · intro token htoken heof
    rcases hlaid.covers token htoken with hkind | ⟨start, hcovers⟩
    · exact absurd hkind heof
    · rw [hcovers.span_eq]
      exact Nat.lt_add_of_pos_right (textBytes_pos hcovers.ne_nil)
  · intro token htoken
    rcases hlaid.covers token htoken with hkind | ⟨start, hcovers⟩
    · simp [Token.Carries, hkind]
    · exact hcovers.carries
  · intro before next after htokens
    have hseams := hlaid.seams hsource rfl htokens
    rwa [Option.or_none] at hseams
  · have hends := hlaid.ends
    rwa [Nat.zero_add, textBytes_toList] at hends

/-- Trim markers on both sides of an action and after a comment. -/
theorem tokenize_tiling_trimmed :
    ∃ tokens, tokenize .standard
        "a \x7b\x7b- .X -\x7d\x7d\n é\x7b\x7b/**/ -\x7d\x7d " = .ok tokens ∧
      tokens.map (·.span) = [⟨0, 1⟩, ⟨2, 6⟩, ⟨6, 8⟩, ⟨8, 12⟩, ⟨14, 16⟩, ⟨16, 26⟩,
        ⟨27, 27⟩] ∧
      Tiling .standard
        "a \x7b\x7b- .X -\x7d\x7d\n é\x7b\x7b/**/ -\x7d\x7d " tokens := by
  have h : tokenize .standard
      "a \x7b\x7b- .X -\x7d\x7d\n é\x7b\x7b/**/ -\x7d\x7d " = .ok
        [⟨.text "a", ⟨0, 1⟩, "a"⟩, ⟨.leftDelim, ⟨2, 6⟩, "\x7b\x7b- "⟩,
          ⟨.field "X", ⟨6, 8⟩, ".X"⟩, ⟨.rightDelim, ⟨8, 12⟩, " -\x7d\x7d"⟩,
          ⟨.text "é", ⟨14, 16⟩, "é"⟩,
          ⟨.comment "/**/", ⟨16, 26⟩, "\x7b\x7b/**/ -\x7d\x7d"⟩,
          ⟨.eof, ⟨27, 27⟩, ""⟩] := by
    exact Except.eq_ok_of_toOption (by decide +kernel)
  exact ⟨_, h, rfl, tokenize_tiling _ _ _ h⟩

end TemplateTyping
