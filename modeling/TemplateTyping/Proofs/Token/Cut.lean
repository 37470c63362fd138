import TemplateTyping.Token.Lexer

/-!
# How the lexer cuts a source

The lexer counts characters, and takes and drops as many of them.  This module
says what it cuts in terms of pieces that are put together again: where a pattern
stands in a text, which characters a delimiter or a comment is made of, and which
blanks are left out after a delimiter that trims.
-/

namespace TemplateTyping

@[simp]
theorem textBytes_append (front back : List Char) :
    textBytes (front ++ back) = textBytes front + textBytes back := by
  induction front with
  | nil => simp [textBytes]
  | cons c front ih =>
      rw [List.cons_append, textBytes, textBytes, ih, Nat.add_assoc]

theorem textBytes_pos {text : List Char} (h : text ≠ []) : 0 < textBytes text := by
  cases text with
  | nil => exact absurd rfl h
  | cons c text =>
      rw [textBytes]
      exact Nat.add_pos_left c.utf8Size_pos _

theorem textBytes_toList (text : String) :
    textBytes text.toList = text.utf8ByteSize := by
  have hlist : ∀ cs : List Char, (String.ofList cs).utf8ByteSize = textBytes cs := by
    intro cs
    induction cs with
    | nil => rfl
    | cons c cs ih =>
        rw [textBytes, ← ih, String.ofList_cons]
        simp
  rw [← hlist, String.ofList_toList]

namespace Place

variable {place : Place} {front back : List Char}

theorem advance_of_append (h : place.rest = front ++ back) :
    place.advance front.length = ⟨place.offset + textBytes front, back⟩ := by
  simp [advance, h]

theorem token_of_append (h : place.rest = front ++ back) (kind : TokenKind) :
    place.token kind front.length =
      ⟨kind, ⟨place.offset, place.offset + textBytes front⟩,
        String.ofList front⟩ := by
  rw [token, advance_of_append h, h, List.take_left]

/-- The blanks that come next are left out. -/
theorem skipBlanks_spec (place : Place) :
    ∃ gap rest, place.rest = gap ++ rest ∧
      place.skipBlanks = ⟨place.offset + textBytes gap, rest⟩ ∧
      (∀ c ∈ gap, isBlank c = true) ∧
      ∀ c, rest.head? = some c → isBlank c = false := by
  refine ⟨place.rest.takeWhile isBlank, place.rest.dropWhile isBlank,
    List.takeWhile_append_dropWhile.symm, ?_, ?_, ?_⟩
  · exact advance_of_append List.takeWhile_append_dropWhile.symm
  · intro c hc
    exact List.all_eq_true.mp List.all_takeWhile c hc
  · intro c hc
    have hhead := List.head?_dropWhile_not isBlank place.rest
    rw [hc] at hhead
    simpa using hhead

end Place

namespace Lexer

/-! ## Patterns -/

/-- A pattern is found where it stands. -/
theorem find?_eq_some
    {pattern text : List Char} {count : Nat} (h : find? pattern text = some count) :
    ∃ before after, text = before ++ pattern ++ after ∧ before.length = count := by
  induction text generalizing count with
  | nil =>
      rw [find?] at h
      split at h
      · rename_i hempty
        obtain rfl : pattern = [] := by simpa using hempty
        exact ⟨[], [], rfl, Option.some.inj h⟩
      · cases h
  | cons c text ih =>
      rw [find?] at h
      split at h
      · rename_i hpattern
        obtain ⟨after, hafter⟩ := List.isPrefixOf_iff_prefix.mp hpattern
        exact ⟨[], after, hafter.symm, Option.some.inj h⟩
      · obtain ⟨count', hcount', rfl⟩ := Option.map_eq_some_iff.mp h
        obtain ⟨before, after, htext, hlength⟩ := ih hcount'
        exact ⟨c :: before, after, by rw [htext]; rfl, by rw [← hlength]; rfl⟩

/-- Where a pattern is found does not depend on the text after it. -/
theorem find?_append_of_eq
    {pattern before after : List Char}
    (h : find? pattern (before ++ pattern ++ after) = some before.length)
    (rest : List Char) :
    find? pattern (before ++ pattern ++ rest) = some before.length := by
  induction before with
  | nil =>
      have hpattern : pattern.isPrefixOf ([] ++ pattern ++ rest) = true := by
        simp
      cases hrest : [] ++ pattern ++ rest with
      | nil =>
          have hempty : pattern = [] := by simp_all
          rw [hempty]
          rfl
      | cons c cs =>
          rw [hrest] at hpattern
          rw [find?, if_pos hpattern]
          rfl
  | cons c before ih =>
      simp only [List.cons_append, find?, List.length_cons] at h ⊢
      split at h
      · simp at h
      · rename_i hpattern
        have hpattern' :
            ¬ pattern.isPrefixOf (c :: (before ++ pattern ++ rest)) = true := by
          rw [List.isPrefixOf_iff_prefix] at hpattern ⊢
          intro hprefix
          have hlength : pattern.length ≤ (c :: (before ++ pattern)).length := by
            simp
            omega
          have hwithin : pattern <+: c :: (before ++ pattern) :=
            List.prefix_of_prefix_length_le hprefix
              (List.prefix_append (c :: (before ++ pattern)) rest) hlength
          exact hpattern (hwithin.trans
            (List.prefix_append (c :: (before ++ pattern)) after))
        rw [if_neg hpattern', ih (by simpa using h)]
        rfl

/-! ## Delimiters -/

/-- The texts of a left delimiter, which may have a trim marker. -/
inductive IsLeftDelim (d : Delimiters) : Bool → List Char → Prop
  | plain : IsLeftDelim d false d.left
  | trimming {blank : Char} : isBlank blank = true →
      IsLeftDelim d true (d.left ++ ['-', blank])

/-- The texts of a right delimiter, which may have a trim marker. -/
inductive IsRightDelim (d : Delimiters) : Bool → List Char → Prop
  | plain : IsRightDelim d false d.right
  | trimming {blank : Char} : isBlank blank = true →
      IsRightDelim d true (blank :: '-' :: d.right)

theorem IsLeftDelim.ne_nil
    {d : Delimiters} {trims : Bool} {delim : List Char}
    (h : IsLeftDelim d trims delim) : delim ≠ [] := by
  cases h with
  | plain => exact d.left_ne_nil
  | trimming hblank => simp

theorem IsRightDelim.ne_nil
    {d : Delimiters} {trims : Bool} {delim : List Char}
    (h : IsRightDelim d trims delim) : delim ≠ [] := by
  cases h with
  | plain => exact d.right_ne_nil
  | trimming hblank => simp

theorem trimsLeft_eq_true {text : List Char} :
    trimsLeft text = true ↔
      ∃ blank rest, isBlank blank = true ∧ text = '-' :: blank :: rest := by
  constructor
  · intro h
    match text with
    | [] => cases h
    | [c] => cases h
    | c :: blank :: rest =>
        rw [trimsLeft, Bool.and_eq_true, beq_iff_eq] at h
        obtain ⟨rfl, hblank⟩ := h
        exact ⟨blank, rest, hblank, rfl⟩
  · rintro ⟨blank, rest, hblank, rfl⟩
    simp [trimsLeft, hblank]

theorem trimsRight_eq_true {d : Delimiters} {text : List Char} :
    trimsRight d text = true ↔ ∃ blank rest, isBlank blank = true ∧
      text = blank :: '-' :: d.right ++ rest := by
  constructor
  · intro h
    match text with
    | [] => cases h
    | [c] => cases h
    | blank :: mark :: text =>
        rw [trimsRight, Bool.and_eq_true, Bool.and_eq_true, beq_iff_eq] at h
        obtain ⟨⟨hblank, rfl⟩, hright⟩ := h
        obtain ⟨rest, rfl⟩ := List.isPrefixOf_iff_prefix.mp hright
        exact ⟨blank, rest, hblank, rfl⟩
  · rintro ⟨blank, rest, hblank, rfl⟩
    simp [trimsRight, hblank]

theorem rightDelim?_eq_some
    {d : Delimiters} {text : List Char} {length : Nat} {trims : Bool}
    (h : rightDelim? d text = some (length, trims)) :
    ∃ delim after, text = delim ++ after ∧ delim.length = length ∧
      IsRightDelim d trims delim := by
  rw [rightDelim?] at h
  split at h
  · rename_i htrims
    obtain ⟨blank, rest, hblank, rfl⟩ := trimsRight_eq_true.mp htrims
    cases h
    exact ⟨_, rest, rfl, rfl, .trimming hblank⟩
  · split at h
    · rename_i hright
      obtain ⟨rest, rfl⟩ := List.isPrefixOf_iff_prefix.mp hright
      cases h
      exact ⟨d.right, rest, rfl, rfl, .plain⟩
    · cases h

/-- After a delimiter that trims blanks are left out, and none comes next. -/
structure Skips (trims : Bool) (gap rest : List Char) : Prop where
  blank : ∀ c ∈ gap, isBlank c = true
  plain : trims = false → gap = []
  trimming : trims = true → ∀ c, rest.head? = some c → isBlank c = false

theorem afterDelim_of_append
    {place : Place} {delim after : List Char} (h : place.rest = delim ++ after)
    (trims : Bool) :
    ∃ gap rest, after = gap ++ rest ∧ Skips trims gap rest ∧
      afterDelim place delim.length trims =
        ⟨place.offset + textBytes delim + textBytes gap, rest⟩ := by
  cases trims with
  | false =>
      refine ⟨[], after, rfl, ⟨by simp, fun _ => rfl, by simp⟩, ?_⟩
      exact Place.advance_of_append h
  | true =>
      obtain ⟨gap, rest, hrest, hskip, hblank, hhead⟩ :=
        (place.advance delim.length).skipBlanks_spec
      rw [Place.advance_of_append h] at hrest hskip
      refine ⟨gap, rest, hrest, ⟨hblank, by simp, fun _ => hhead⟩, ?_⟩
      rw [afterDelim, if_pos rfl, Place.advance_of_append h]
      exact hskip

/-! ## Comments -/

/-- The texts of comments without their delimiters: the end mark stands at the end
alone. -/
def IsComment (content : List Char) : Prop :=
  ∃ inner, content = '/' :: '*' :: inner ++ ['*', '/'] ∧
    find? ['*', '/'] (inner ++ ['*', '/']) = some inner.length

theorem stepComment_eq_ok
    {d : Delimiters} {opening : Place} {delim body : List Char}
    (hopening : opening.rest = delim ++ '/' :: '*' :: body)
    {token : Token} {next : Place}
    (h : stepComment d opening (opening.advance delim.length) = .ok (token, next)) :
    ∃ content trims closing gap rest,
      opening.rest = delim ++ content ++ closing ++ gap ++ rest ∧
      IsComment content ∧ IsRightDelim d trims closing ∧ Skips trims gap rest ∧
      token = ⟨.comment (String.ofList content),
        ⟨opening.offset,
          opening.offset + textBytes (delim ++ content ++ closing)⟩,
        String.ofList (delim ++ content ++ closing)⟩ ∧
      next = ⟨opening.offset + textBytes (delim ++ content ++ closing) +
        textBytes gap, rest⟩ := by
  rw [Place.advance_of_append hopening, stepComment] at h
  split at h
  · cases h
  · rename_i count hcount
    obtain ⟨inner, after, hbody, rfl⟩ := find?_eq_some hcount
    obtain rfl : body = inner ++ ['*', '/'] ++ after := hbody
    have hinner : find? ['*', '/'] (inner ++ ['*', '/']) = some inner.length := by
      simpa using find?_append_of_eq hcount []
    let content := '/' :: '*' :: inner ++ ['*', '/']
    have hlength : inner.length + 4 = content.length := by simp [content]
    have hcontent : '/' :: '*' :: (inner ++ ['*', '/'] ++ after) =
        content ++ after := by simp [content]
    rw [hcontent] at hopening h
    have hadvance : Place.advance
        ⟨opening.offset + textBytes delim, content ++ after⟩ content.length =
          ⟨opening.offset + textBytes delim + textBytes content, after⟩ :=
      Place.advance_of_append rfl
    simp only [hlength, hadvance, List.take_left] at h
    split at h
    · cases h
    · rename_i length trims hclosing
      obtain ⟨closing, after, rfl, rfl, hdelim⟩ := rightDelim?_eq_some hclosing
      have hplace : (⟨opening.offset + textBytes delim + textBytes content,
          closing ++ after⟩ : Place).rest = closing ++ after := rfl
      obtain ⟨gap, rest, rfl, hskips, hafter⟩ := afterDelim_of_append hplace trims
      have hopening' : opening.rest =
          (delim ++ content ++ closing) ++ (gap ++ rest) := by
        rw [hopening]
        simp
      have htaken : opening.rest.length - (closing ++ (gap ++ rest)).length +
          closing.length = (delim ++ content ++ closing).length := by
        rw [hopening']
        simp
        omega
      rw [hafter, htaken, Place.token_of_append hopening'] at h
      cases h
      refine ⟨content, trims, closing, gap, rest, ?_, ⟨inner, rfl, hinner⟩, hdelim,
        hskips, rfl, ?_⟩
      · rw [hopening', ← List.append_assoc]
      · simp [Nat.add_assoc]

end Lexer

end TemplateTyping
