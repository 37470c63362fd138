import Mathlib.Data.List.Chain
import TemplateTyping.Proofs.Token.Closing

/-!
# The shape of token streams

Whoever reads the tokens of a source relies on their shape: portions of text, comments and
actions follow one another up to the mark of the end, and an action has its tokens between its
two delimiters.  Two portions of text never follow one another, nor do two spaces, and the
parentheses of an action are balanced.

The lexer counts the parentheses that are open.  A space ends where no blank follows, or in front
of a trim marker that belongs to the right delimiter; in both cases the next token is no space.
-/

namespace TemplateTyping

namespace Lexer

/-! ## Portions of a source -/

/-- The tokens of an action. -/
structure Action where
  opening : Token
  inner : List Token
  closing : Token
  opens : opening.kind = .leftDelim
  holds : ∀ token ∈ inner, token.kind.IsInner
  /-- No front part closes more parentheses than it opens. -/
  opensFirst : ∀ front, front <+: inner.map Token.kind →
    front.count .rightParen ≤ front.count .leftParen
  balanced : (inner.map Token.kind).count .rightParen = (inner.map Token.kind).count .leftParen
  spaced : inner.IsChain fun token next => ¬(token.kind = .space ∧ next.kind = .space)
  closes : closing.kind = .rightDelim

/-- A portion of a source: text, a comment, or an action. -/
inductive Portion
  | text (token : Token) (content : String) (h : token.kind = .text content)
  | comment (token : Token) (content : String) (h : token.kind = .comment content)
  | action (action : Action)

namespace Portion

/-- The tokens of a portion. -/
def tokens : Portion → List Token
  | text token _ _ | comment token _ _ => [token]
  | action a => a.opening :: (a.inner ++ [a.closing])

/-- Whether a portion is text. -/
def isText : Portion → Bool
  | text _ _ _ => true
  | _ => false

end Portion

/-- The tokens are those of portions, of which no two texts follow one another, and the mark of
the end comes last. -/
def IsStream (tokens : List Token) : Prop :=
  ∃ (portions : List Portion) (eof : Token),
    tokens = portions.flatMap Portion.tokens ++ [eof] ∧ eof.kind = .eof ∧
      portions.IsChain fun portion next => ¬(portion.isText = true ∧ next.isText = true)

namespace IsStream

variable {tokens : List Token}

theorem eof {token : Token} (h : token.kind = .eof) : IsStream [token] :=
  ⟨[], token, rfl, h, .nil⟩

/-- Anything but text can stand before a stream. -/
theorem cons {portion : Portion} (h : portion.isText = false) (hstream : IsStream tokens) :
    IsStream (portion.tokens ++ tokens) := by
  obtain ⟨portions, eof, rfl, heof, hchain⟩ := hstream
  refine ⟨portion :: portions, eof, by simp, heof, ?_⟩
  refine List.isChain_cons.mpr ⟨?_, hchain⟩
  intro next _ htexts
  rw [h] at htexts
  cases htexts.1

/-- Text can stand before the end, and before anything but text. -/
theorem text_eof {place : Place} (count : Nat) {token : Token} (h : token.kind = .eof) :
    IsStream (textTokens place count ++ [token]) := by
  unfold textTokens
  split
  · exact eof h
  · exact ⟨[.text _ _ rfl], token, rfl, h, .singleton _⟩

theorem text_cons {place : Place} (count : Nat) (portion : Portion)
    (h : portion.isText = false) (hstream : IsStream tokens) :
    IsStream (textTokens place count ++ (portion.tokens ++ tokens)) := by
  unfold textTokens
  split
  · exact cons h hstream
  · obtain ⟨portions, eof, rfl, heof, hchain⟩ := hstream
    refine ⟨.text (place.token (.text _) count) _ rfl :: portion :: portions, eof,
      by simp only [Portion.tokens, List.flatMap_cons, List.append_assoc]; rfl, heof, ?_⟩
    refine List.isChain_cons.mpr ⟨?_, List.isChain_cons.mpr ⟨?_, hchain⟩⟩
    · intro next hnext htexts
      cases hnext
      rw [h] at htexts
      cases htexts.2
    · intro next _ htexts
      rw [h] at htexts
      cases htexts.1

end IsStream

/-! ## Tokens of an action that has begun -/

/-- Kinds of tokens that close `depth` parentheses and those they open themselves, and never
close one that is not open. -/
inductive ClosesParens : (depth : Nat) → List TokenKind → Prop
  | nil : ClosesParens 0 []
  | opens {depth : Nat} {kinds : List TokenKind} :
      ClosesParens (depth + 1) kinds → ClosesParens depth (.leftParen :: kinds)
  | closes {depth : Nat} {kinds : List TokenKind} :
      ClosesParens depth kinds → ClosesParens (depth + 1) (.rightParen :: kinds)
  | other {depth : Nat} {kind : TokenKind} {kinds : List TokenKind} :
      kind ≠ .leftParen → kind ≠ .rightParen →
        ClosesParens depth kinds → ClosesParens depth (kind :: kinds)

namespace ClosesParens

variable {depth : Nat} {kinds : List TokenKind}

theorem balanced (h : ClosesParens depth kinds) :
    kinds.count .rightParen = depth + kinds.count .leftParen := by
  induction h with
  | nil => rfl
  | opens _ ih =>
      rw [List.count_cons_self, List.count_cons_of_ne (by simp), ih]
      omega
  | closes _ ih =>
      rw [List.count_cons_self, List.count_cons_of_ne (by simp), ih]
      omega
  | other hleft hright _ ih =>
      rw [List.count_cons_of_ne hleft, List.count_cons_of_ne hright, ih]

theorem opensFirst (h : ClosesParens depth kinds) {front : List TokenKind}
    (hfront : front <+: kinds) : front.count .rightParen ≤ depth + front.count .leftParen := by
  induction h generalizing front with
  | nil =>
      rw [List.prefix_nil.mp hfront]
      simp
  | opens _ ih =>
      rcases List.prefix_cons_iff.mp hfront with rfl | ⟨rest, rfl, hrest⟩
      · simp
      · have hle := ih hrest
        rw [List.count_cons_self, List.count_cons_of_ne (by simp)]
        omega
  | closes _ ih =>
      rcases List.prefix_cons_iff.mp hfront with rfl | ⟨rest, rfl, hrest⟩
      · simp
      · have hle := ih hrest
        rw [List.count_cons_self, List.count_cons_of_ne (by simp)]
        omega
  | other hleft hright _ ih =>
      rcases List.prefix_cons_iff.mp hfront with rfl | ⟨rest, rfl, hrest⟩
      · simp
      · rw [List.count_cons_of_ne hleft, List.count_cons_of_ne hright]
        exact ih hrest

end ClosesParens

/-- What follows in an action with `depth` open parentheses: its other tokens, its right
delimiter, and a stream.  It starts with a space only if a space can be taken from the text. -/
def FinishesAction (d : Delimiters) (depth : Nat) (text : List Char) (tokens : List Token) :
    Prop :=
  ∃ inner closing rest, tokens = inner ++ closing :: rest ∧
    (∀ token ∈ inner, token.kind.IsInner) ∧ ClosesParens depth (inner.map Token.kind) ∧
      inner.IsChain (fun token next => ¬(token.kind = .space ∧ next.kind = .space)) ∧
        (∀ token ∈ inner.head?, token.kind = .space → blanksLength d text ≠ 0) ∧
          closing.kind = .rightDelim ∧ IsStream rest

/-- A left delimiter and what finishes the action make up one portion of a stream. -/
theorem FinishesAction.exists_action
    {d : Delimiters} {text : List Char} {tokens : List Token}
    (h : FinishesAction d 0 text tokens) (opening : Token) (hopening : opening.kind = .leftDelim) :
    ∃ (a : Action) (rest : List Token),
      opening :: tokens = (Portion.action a).tokens ++ rest ∧ IsStream rest := by
  obtain ⟨inner, closing, rest, rfl, hinner, hparens, hspaced, -, hclosing, hrest⟩ := h
  refine ⟨⟨opening, inner, closing, hopening, hinner, ?_, ?_, hspaced, hclosing⟩, rest, ?_, hrest⟩
  · intro front hfront
    simpa using hparens.opensFirst hfront
  · simpa using hparens.balanced
  · simp [Portion.tokens]

/-- After the blanks of a space token no further space can be taken. -/
theorem blanksLength_drop (d : Delimiters) (cs : List Char) :
    blanksLength d (cs.drop (blanksLength d cs)) = 0 := by
  induction cs with
  | nil => rfl
  | cons c cs ih =>
      rw [blanksLength]
      split
      · exact ih
      · rename_i hblank
        rw [List.drop_zero, blanksLength, if_neg hblank]

/-- A space token is taken where a blank stands. -/
theorem isBlank_of_scan_space
    {d : Delimiters} {c : Char} {cs : List Char} {more : Nat}
    (h : scan d c cs = .ok (.space, more)) : isBlank c = true ∧ more = blanksLength d cs := by
  have hblank : isBlank c = true := by
    have hlexeme := scan_lexeme h
    generalize hkind : TokenKind.space = kind at hlexeme
    generalize htext : (c :: cs).take (more + 1) = text at hlexeme
    cases hlexeme with
    | space _ hblanks => exact hblanks c (by simp [← htext])
    | word => exact absurd hkind.symm (TokenKind.ofWord_ne rfl _)
    | _ => cases hkind
  refine ⟨hblank, ?_⟩
  rw [scan, if_pos hblank] at h
  cases h
  rfl

/-- What the lexer goes on with, by where it stands. -/
def GoesOn (d : Delimiters) (place : Place) (tokens : List Token) : Mode → Prop
  | .text => IsStream tokens
  | .action _ depth => FinishesAction d depth place.rest tokens

theorem stepComment_kind_comment
    {d : Delimiters} {opening inner next : Place} {token : Token}
    (h : stepComment d opening inner = .ok (token, next)) :
    ∃ content, token.kind = .comment content := by
  unfold stepComment at h
  split at h
  · cases h
  · simp only at h
    split at h
    · cases h
    · cases h
      exact ⟨_, rfl⟩

theorem stepText_goesOn
    {d : Delimiters} {place : Place} {count : Nat} {s : Step}
    (h : stepText d place count = .ok s) {later : List Token}
    (hlater : GoesOn d s.place later s.mode) : IsStream (s.tokens ++ later) := by
  unfold stepText at h
  simp only at h
  generalize (if trimsLeft _ = true then _ else d.left.length) = length at h
  generalize (if trimsLeft _ = true then _ else count) = kept at h
  split at h
  · split at h
    · cases h
    · rename_i token next hcomment
      cases h
      obtain ⟨content, hkind⟩ := stepComment_kind_comment hcomment
      rw [List.append_assoc]
      exact .text_cons kept (.comment token content hkind) rfl hlater
  · cases h
    obtain ⟨a, rest, hrest, hstream⟩ :=
      hlater.exists_action ((place.advance count).token .leftDelim length) rfl
    rw [List.append_assoc, List.singleton_append, hrest]
    exact .text_cons kept (.action a) rfl hstream

/-- A token of an action, with the parentheses that are open before it and after it. -/
theorem FinishesAction.cons
    {d : Delimiters} {depth after : Nat} {text text' : List Char} {token : Token}
    {later : List Token} (hinner : token.kind.IsInner)
    (hcount : ∀ kinds, ClosesParens after kinds → ClosesParens depth (token.kind :: kinds))
    (hspace : token.kind = .space → blanksLength d text ≠ 0 ∧ blanksLength d text' = 0)
    (h : FinishesAction d after text' later) : FinishesAction d depth text (token :: later) := by
  obtain ⟨inner, closing, rest, rfl, hall, hparens, hspaced, hhead, hclosing, hrest⟩ := h
  refine ⟨token :: inner, closing, rest, rfl, ?_, hcount _ hparens, ?_, ?_, hclosing, hrest⟩
  · exact List.forall_mem_cons.mpr ⟨hinner, hall⟩
  · refine List.isChain_cons.mpr ⟨?_, hspaced⟩
    rintro next hnext ⟨htoken, hnextSpace⟩
    exact hhead next hnext hnextSpace (hspace htoken).2
  · rintro _ ⟨⟩ htoken
    exact (hspace htoken).1

theorem stepAction_goesOn
    {d : Delimiters} {start depth : Nat} {place : Place} {c : Char} {cs : List Char}
    (hplace : place.rest = c :: cs) {s : Step}
    (h : stepAction d start depth place c cs = .ok s) {later : List Token}
    (hlater : GoesOn d s.place later s.mode) :
    FinishesAction d depth place.rest (s.tokens ++ later) := by
  unfold stepAction at h
  split at h
  · split at h
    · rename_i hdepth
      cases h
      subst hdepth
      exact ⟨[], _, later, rfl, by simp, .nil, .nil, by simp, rfl, hlater⟩
    · cases h
  · rename_i hdelim
    split at h
    · cases h
    · rename_i kind more hscan
      have hinner : kind.IsInner := ((scan_lexeme hscan).inner (d := d) .origin).1
      have hspace : kind = .space → blanksLength d place.rest ≠ 0 ∧
          blanksLength d (place.advance (more + 1)).rest = 0 := by
        rintro rfl
        obtain ⟨hblank, rfl⟩ := isBlank_of_scan_space hscan
        have htrims : trimsRight d place.rest = false := by
          unfold rightDelim? at hdelim
          split at hdelim
          · cases hdelim
          · rename_i htrims
            simpa using htrims
        rw [hplace] at htrims
        constructor
        · rw [hplace, blanksLength, if_pos (by simp [hblank, htrims])]
          simp
        · simp only [Place.advance, hplace, List.drop_succ_cons]
          exact blanksLength_drop d cs
      simp only at h
      split at h
      · cases h
        exact .cons hinner (fun _ => .opens) hspace hlater
      · cases h
      · cases h
        exact .cons hinner (fun _ => .closes) hspace hlater
      · rename_i hleft hzero hright
        cases h
        have hright : kind ≠ .rightParen := by
          intro hkind
          cases depth with
          | zero => exact hzero hkind rfl
          | succ depth => exact hright depth hkind rfl
        exact .cons hinner (fun _ => .other hleft hright) hspace hlater

/-- One step of the lexer stands before what it goes on with. -/
theorem step_goesOn
    {d : Delimiters} {mode : Mode} {place : Place} {s : Step}
    (h : step d mode place = .ok (.inr s)) {later : List Token}
    (hlater : GoesOn d s.place later s.mode) : GoesOn d place (s.tokens ++ later) mode := by
  unfold step at h
  split at h
  · cases h
  · split at h
    · cases h
    · obtain ⟨s', hstep, hs⟩ := Except.map_eq_ok h
      cases hs
      exact stepText_goesOn hstep hlater
  · cases h
  · rename_i hplace
    obtain ⟨s', hstep, hs⟩ := Except.map_eq_ok h
    cases hs
    exact stepAction_goesOn hplace hstep hlater

/-- The last tokens are text and the mark of the end. -/
theorem goesOn_of_step
    {d : Delimiters} {mode : Mode} {place : Place} {tokens : List Token}
    (h : step d mode place = .ok (.inl tokens)) : GoesOn d place tokens mode := by
  unfold step at h
  split at h
  · cases h
    exact IsStream.eof rfl
  · split at h
    · cases h
      exact IsStream.text_eof _ rfl
    · obtain ⟨s', hstep, hs⟩ := Except.map_eq_ok h
      cases hs
  · cases h
  · obtain ⟨s', hstep, hs⟩ := Except.map_eq_ok h
    cases hs

theorem tokensFrom_goesOn
    {d : Delimiters} {mode : Mode} {place : Place} {tokens : List Token}
    (h : tokensFrom d mode place = .ok tokens) : GoesOn d place tokens mode := by
  fun_induction tokensFrom d mode place generalizing tokens with
  | case1 mode place fault hstep => cases h
  | case2 mode place tokens' hstep =>
      cases h
      exact goesOn_of_step hstep
  | case3 mode place s hstep _ ih =>
      obtain ⟨later, hlater, rfl⟩ := Except.map_eq_ok h
      exact step_goesOn hstep (ih hlater)

end Lexer

/-- The tokens of every source that can be cut have the shape of a stream, whatever the
delimiters are. -/
theorem tokenize_isStream
    {d : Delimiters} {source : String} {tokens : List Token}
    (h : tokenize d source = .ok tokens) : Lexer.IsStream tokens :=
  Lexer.tokensFrom_goesOn h

/-- Round delimiters, the left one of which is a parenthesis itself. -/
def roundDelimiters : Delimiters := Delimiters.standard.replace "(<" ">)"

/-- Text, a comment, and an action with nested parentheses and a space before its trim marker. -/
theorem tokenize_isStream_round :
    ∃ tokens, tokenize roundDelimiters "a(</**/>)b(<f ((.X)  (g)) ->) " = .ok tokens ∧
      tokens.map Token.kind = [.text "a", .comment "/**/", .text "b", .leftDelim,
        .identifier "f", .space, .leftParen, .leftParen, .field "X", .rightParen, .space,
        .leftParen, .identifier "g", .rightParen, .rightParen, .rightDelim, .eof] ∧
      Lexer.IsStream tokens := by
  have hruns : (tokenize roundDelimiters "a(</**/>)b(<f ((.X)  (g)) ->) ").toOption.any
      (fun tokens => decide (tokens.map Token.kind = [.text "a", .comment "/**/", .text "b",
        .leftDelim, .identifier "f", .space, .leftParen, .leftParen, .field "X", .rightParen,
        .space, .leftParen, .identifier "g", .rightParen, .rightParen, .rightDelim, .eof])) =
      true := by
    decide +kernel
  obtain ⟨tokens, htokens, hkinds⟩ := (Option.any_eq_true _ _).mp hruns
  have htokens := Except.eq_ok_of_toOption htokens
  exact ⟨tokens, htokens, of_decide_eq_true hkinds, tokenize_isStream htokens⟩

end TemplateTyping
