import TemplateTyping.Proofs.Token.Tiling

/-!
# Every action is closed

The tokens of a source stand in a fixed order: text and comments outside of actions,
the tokens of an action between its two delimiters, and the mark of the end at the
very end.  In particular the end is never met inside of an action, so that whoever
reads an action comes to its right delimiter first.
-/

namespace TemplateTyping

open Lexer

/-- The kinds of the tokens outside of actions, the left delimiter and the mark of
the end aside. -/
def TokenKind.IsOuter : TokenKind → Prop
  | .text _ | .comment _ => True
  | _ => False

/-- Tokens up to the end of the source, the first of which stands inside or outside
of an action. -/
inductive Closes : (inAction : Bool) → List Token → Prop
  | eof {token : Token} : token.kind = .eof → Closes false [token]
  | outer {token : Token} {tokens : List Token} : token.kind.IsOuter →
      Closes false tokens → Closes false (token :: tokens)
  | opening {token : Token} {tokens : List Token} : token.kind = .leftDelim →
      Closes true tokens → Closes false (token :: tokens)
  | inner {token : Token} {tokens : List Token} : token.kind.IsInner →
      Closes true tokens → Closes true (token :: tokens)
  | closing {token : Token} {tokens : List Token} : token.kind = .rightDelim →
      Closes false tokens → Closes true (token :: tokens)

namespace Closes

variable {token : Token} {front rest : List Token}

theorem ne_nil {inAction : Bool} {tokens : List Token} (h : Closes inAction tokens) :
    tokens ≠ [] := by
  cases h <;> simp

theorem ne_eof (h : Closes true (token :: rest)) : token.kind ≠ .eof := by
  intro hkind
  cases h with
  | inner hinner _ =>
      rw [hkind] at hinner
      exact hinner
  | closing hclosing _ =>
      rw [hkind] at hclosing
      cases hclosing

theorem rest_ne_nil (h : Closes true (token :: rest)) : rest ≠ [] := by
  cases h with
  | inner _ hrest => exact hrest.ne_nil
  | closing _ hrest => exact hrest.ne_nil

/-- Only a right delimiter leads out of an action. -/
theorem tail (h : Closes true (token :: rest)) (hkind : token.kind ≠ .rightDelim) :
    Closes true rest := by
  cases h with
  | inner _ hrest => exact hrest
  | closing hclosing _ => exact absurd hclosing hkind

theorem after (h : Closes true (token :: rest)) :
    Closes (token.kind != .rightDelim) rest := by
  by_cases hkind : token.kind = .rightDelim
  · cases h with
    | inner hinner _ =>
        rw [hkind] at hinner
        exact hinner.elim
    | closing _ hrest => simpa [hkind] using hrest
  · have hne : (token.kind != .rightDelim) = true := by simpa using hkind
    rw [hne]
    exact h.tail hkind

theorem of_append (h : Closes true (front ++ rest))
    (hfront : ∀ other ∈ front, other.kind ≠ .rightDelim) : Closes true rest := by
  induction front with
  | nil => exact h
  | cons other front ih =>
      apply ih (h.tail (hfront other (by simp)))
      intro another hanother
      exact hfront another (by simp [hanother])

/-- No space stands outside of actions. -/
theorem ne_space (h : Closes false (token :: rest)) : token.kind ≠ .space := by
  intro hkind
  cases h with
  | eof heof =>
      rw [hkind] at heof
      cases heof
  | outer houter _ =>
      rw [hkind] at houter
      exact houter
  | opening hopening _ =>
      rw [hkind] at hopening
      cases hopening

/-- The last token is the mark of the end. -/
theorem kind_of_suffix
    {inAction : Bool} {tokens : List Token} {token : Token}
    (h : Closes inAction tokens) (hsuffix : [token] <:+ tokens) : token.kind = .eof := by
  have hlater : ∀ {first : Token} {rest : List Token}, Closes false rest ∨ Closes true rest →
      [token] <:+ first :: rest → [token] <:+ rest := by
    intro first rest hrest hcons
    rcases List.suffix_cons_iff.mp hcons with heq | hrest'
    · cases heq
      rcases hrest with hnil | hnil <;> exact absurd rfl hnil.ne_nil
    · exact hrest'
  induction h with
  | eof heof =>
      rcases List.suffix_cons_iff.mp hsuffix with heq | hnil
      · cases heq
        exact heof
      · exact absurd (List.suffix_nil.mp hnil) (by simp)
  | outer _ hrest ih => exact ih (hlater (.inl hrest) hsuffix)
  | opening _ hrest ih => exact ih (hlater (.inr hrest) hsuffix)
  | inner _ hrest ih => exact ih (hlater (.inr hrest) hsuffix)
  | closing _ hrest ih => exact ih (hlater (.inl hrest) hsuffix)

end Closes

namespace Lexer

/-- Whether the lexer stands in an action. -/
def Mode.inAction : Mode → Bool
  | .text => false
  | .action _ _ => true

theorem textTokens_closes
    (place : Place) (count : Nat) {tokens : List Token} (h : Closes false tokens) :
    Closes false (textTokens place count ++ tokens) := by
  unfold textTokens
  split
  · exact h
  · exact .outer trivial h

theorem stepComment_kind
    {d : Delimiters} {opening inner next : Place} {token : Token}
    (h : stepComment d opening inner = .ok (token, next)) : token.kind.IsOuter := by
  unfold stepComment at h
  split at h
  · cases h
  · simp only at h
    split at h
    · cases h
    · cases h
      trivial

theorem stepText_closes
    {d : Delimiters} {place : Place} {count : Nat} {s : Step}
    (h : stepText d place count = .ok s) {later : List Token}
    (hlater : Closes s.mode.inAction later) : Closes false (s.tokens ++ later) := by
  unfold stepText at h
  simp only at h
  generalize (if trimsLeft _ = true then _ else d.left.length) = length at h
  generalize (if trimsLeft _ = true then _ else count) = kept at h
  split at h
  · split at h
    · cases h
    · rename_i token next hcomment
      cases h
      rw [List.append_assoc]
      exact textTokens_closes _ _ (.outer (stepComment_kind hcomment) hlater)
  · cases h
    rw [List.append_assoc]
    exact textTokens_closes _ _ (.opening rfl hlater)

theorem stepAction_closes
    {d : Delimiters} {start depth : Nat} {place : Place} {c : Char} {cs : List Char}
    {s : Step} (h : stepAction d start depth place c cs = .ok s) {later : List Token}
    (hlater : Closes s.mode.inAction later) : Closes true (s.tokens ++ later) := by
  unfold stepAction at h
  split at h
  · split at h
    · cases h
      exact .closing rfl hlater
    · cases h
  · split at h
    · cases h
    · rename_i kind more hscan
      have hinner : kind.IsInner := ((scan_lexeme hscan).inner (d := d) .origin).1
      simp only at h
      split at h
      · cases h
        exact .inner hinner hlater
      · cases h
      · cases h
        exact .inner hinner hlater
      · cases h
        exact .inner hinner hlater

/-- One step of the lexer keeps the order. -/
theorem step_closes
    {d : Delimiters} {mode : Mode} {place : Place} {s : Step}
    (h : step d mode place = .ok (.inr s)) {later : List Token}
    (hlater : Closes s.mode.inAction later) :
    Closes mode.inAction (s.tokens ++ later) := by
  unfold step at h
  split at h
  · cases h
  · split at h
    · cases h
    · obtain ⟨s', hstep, hs⟩ := Except.map_eq_ok h
      cases hs
      exact stepText_closes hstep hlater
  · cases h
  · obtain ⟨s', hstep, hs⟩ := Except.map_eq_ok h
    cases hs
    exact stepAction_closes hstep hlater

/-- The last step of the lexer is taken outside of actions. -/
theorem closes_of_step
    {d : Delimiters} {mode : Mode} {place : Place} {tokens : List Token}
    (h : step d mode place = .ok (.inl tokens)) : Closes mode.inAction tokens := by
  unfold step at h
  split at h
  · cases h
    exact .eof rfl
  · split at h
    · cases h
      exact textTokens_closes _ _ (.eof rfl)
    · obtain ⟨s', hstep, hs⟩ := Except.map_eq_ok h
      cases hs
  · cases h
  · obtain ⟨s', hstep, hs⟩ := Except.map_eq_ok h
    cases hs

theorem tokensFrom_closes
    {d : Delimiters} {mode : Mode} {place : Place} {tokens : List Token}
    (h : tokensFrom d mode place = .ok tokens) : Closes mode.inAction tokens := by
  fun_induction tokensFrom d mode place generalizing tokens with
  | case1 mode place fault hstep => cases h
  | case2 mode place tokens' hstep =>
      cases h
      exact closes_of_step hstep
  | case3 mode place s hstep _ ih =>
      obtain ⟨later, hlater, rfl⟩ := Except.map_eq_ok h
      exact step_closes hstep (ih hlater)

end Lexer

/-- In the tokens of a source every action is closed before the end. -/
theorem tokenize_closes
    {d : Delimiters} {source : String} {tokens : List Token}
    (h : tokenize d source = .ok tokens) : Closes false tokens :=
  tokensFrom_closes h

end TemplateTyping
