import TemplateTyping.Token.Lexer

/-!
# Extent of number literals

The lexer measures a number literal by the characters it finds, and looks ahead
where an exponent or an imaginary part may follow.  This module bounds what it
takes and shows that the measure stays the same if other text comes after the
literal, as long as that text cannot continue it.
-/

namespace TemplateTyping

/-! ## Bounds -/

namespace Numeral

theorem runLength_le (p : Char → Bool) (cs : List Char) :
    runLength p cs ≤ cs.length :=
  (List.takeWhile_prefix p).length_le

theorem oneLength_le (p : Char → Bool) (cs : List Char) :
    oneLength p cs ≤ cs.length := by
  cases cs with
  | nil => exact Nat.le_refl 0
  | cons c cs =>
      rw [oneLength, List.length_cons]
      split
      · exact Nat.le_add_left _ _
      · exact Nat.zero_le _

theorem oneLength_le_one (p : Char → Bool) (cs : List Char) :
    oneLength p cs ≤ 1 := by
  rw [oneLength]
  split
  · exact Nat.le_refl 1
  · exact Nat.zero_le 1

theorem exponentLength_le (mark : Char → Bool) (cs : List Char) :
    exponentLength mark cs ≤ cs.length := by
  rw [exponentLength]
  split
  · rename_i hmark
    have hcs : cs ≠ [] := by
      rintro rfl
      cases hmark
    have hpos : 0 < cs.length := List.length_pos_iff.mpr hcs
    have hsign : signLength (cs.drop 1) ≤ (cs.drop 1).length := oneLength_le _ _
    have hdigits : digitsLength (cs.drop (1 + signLength (cs.drop 1))) ≤
        (cs.drop (1 + signLength (cs.drop 1))).length := runLength_le _ _
    simp only [List.length_drop] at hsign hdigits
    simp only
    split
    · exact Nat.zero_le _
    · omega
  · exact Nat.zero_le _

theorem prefixedLength?_le
    {cs : List Char} {count : Nat} (h : prefixedLength? cs = some count) :
    0 < count ∧ count ≤ cs.length := by
  unfold prefixedLength? at h
  split at h
  · rename_i mark cs
    split at h
    · have hdigits := runLength_le
        (fun c => Digits.isDigitOf 16 c || c == '_' || c == '.') cs
      have hexponent := exponentLength_le (fun c => c == 'p' || c == 'P')
        (cs.drop (runLength
          (fun c => Digits.isDigitOf 16 c || c == '_' || c == '.') cs))
      simp only [List.length_drop] at hexponent
      rw [← Option.some.inj h, List.length_cons, List.length_cons]
      omega
    · cases h
  · cases h

theorem mantissaLength?_le
    {cs : List Char} {count : Nat} (h : mantissaLength? cs = some count) :
    0 < count ∧ count ≤ cs.length := by
  have hwhole : digitsLength cs ≤ cs.length := runLength_le _ cs
  have hpoint : oneLength (· == '.') (cs.drop (digitsLength cs)) ≤
      (cs.drop (digitsLength cs)).length := oneLength_le _ _
  have hfraction : digitsLength (cs.drop (digitsLength cs + 1)) ≤
      (cs.drop (digitsLength cs + 1)).length := runLength_le _ _
  simp only [List.length_drop] at hpoint hfraction
  have hone : oneLength (· == '.') (cs.drop (digitsLength cs)) ≤ 1 :=
    oneLength_le_one _ _
  simp only [mantissaLength?] at h
  split at h
  · split at h
    · cases h
    · rename_i hdigits
      rw [← Option.some.inj h]
      omega
  · split at h
    · cases h
    · rename_i hdigits
      rw [← Option.some.inj h]
      omega

theorem decimalLength?_le
    {cs : List Char} {count : Nat} (h : decimalLength? cs = some count) :
    0 < count ∧ count ≤ cs.length := by
  obtain ⟨mantissa, hmantissa, rfl⟩ := Option.map_eq_some_iff.mp h
  obtain ⟨hpos, hle⟩ := mantissaLength?_le hmantissa
  have hexponent := exponentLength_le (fun c => c == 'e' || c == 'E')
    (cs.drop mantissa)
  rw [List.length_drop] at hexponent
  omega

theorem length?_le
    {cs : List Char} {count : Nat} (h : length? cs = some count) :
    0 < count ∧ count ≤ cs.length := by
  have hsign : signLength cs ≤ cs.length := oneLength_le _ cs
  simp only [length?] at h
  split at h
  · cases h
  · rename_i digits hdigits
    have hbounds : 0 < digits ∧ digits ≤ (cs.drop (signLength cs)).length := by
      rcases Option.or_eq_some_iff.mp hdigits with hprefixed | ⟨_, hdecimal⟩
      · exact prefixedLength?_le hprefixed
      · exact decimalLength?_le hdecimal
    have hmark := oneLength_le (· == 'i') (cs.drop (signLength cs + digits))
    rw [List.length_drop] at hbounds hmark
    rw [← Option.some.inj h]
    omega

end Numeral

/-! ## What comes after a literal -/

/-- Text that cannot continue a number literal: it starts with a space, a closing
parenthesis or a closing brace, unless it is empty. -/
def EndsNumber (rest : List Char) : Prop :=
  ∀ c, rest.head? = some c → c = ' ' ∨ c = ')' ∨ c = '\x7d'

namespace Numeral

/-- A class of characters that can stand in a number literal. -/
structure IsInside (p : Char → Bool) : Prop where
  space : p ' ' = false
  paren : p ')' = false
  brace : p '\x7d' = false

theorem IsInside.not_head
    {p : Char → Bool} (hp : IsInside p) {rest : List Char} (h : EndsNumber rest) :
    rest.head?.any p = false := by
  cases rest with
  | nil => rfl
  | cons c rest =>
      rcases h c rfl with rfl | rfl | rfl
      · exact hp.space
      · exact hp.paren
      · exact hp.brace

/-- A measure that does not change if the text after what it measures is replaced
by text that ends a number. -/
def Stable (length : List Char → Nat) : Prop :=
  ∀ text rest rest', EndsNumber rest' → length (text ++ rest) ≤ text.length →
    length (text ++ rest') = length (text ++ rest)

theorem Stable.drop
    {length : List Char → Nat} (h : Stable length)
    {text rest' : List Char} (hends : EndsNumber rest') (rest : List Char)
    {skip : Nat} (hskip : skip ≤ text.length)
    (hle : skip + length ((text ++ rest).drop skip) ≤ text.length) :
    length ((text ++ rest').drop skip) = length ((text ++ rest).drop skip) := by
  rw [List.drop_append_of_le_length hskip] at hle
  rw [List.drop_append_of_le_length hskip, List.drop_append_of_le_length hskip]
  apply h _ _ _ hends
  rw [List.length_drop]
  omega

theorem runLength_stable {p : Char → Bool} (hp : IsInside p) :
    Stable (runLength p) := by
  intro text rest rest' hends hle
  induction text with
  | nil =>
      have hrest : runLength p rest = 0 := Nat.le_zero.mp hle
      have hrest' : runLength p rest' = 0 := by
        have hhead := hp.not_head hends
        cases rest' with
        | nil => rfl
        | cons c rest' =>
            have hc : ¬ p c = true := by simpa using hhead
            rw [runLength, List.takeWhile_cons, if_neg hc, List.length_nil]
      rw [List.nil_append, List.nil_append, hrest, hrest']
  | cons c text ih =>
      simp only [runLength, List.cons_append, List.takeWhile_cons] at hle ih ⊢
      by_cases hc : p c = true
      · rw [if_pos hc] at hle
        rw [if_pos hc, if_pos hc, List.length_cons, List.length_cons,
          ih (Nat.le_of_succ_le_succ hle)]
      · rw [if_neg hc, if_neg hc]

theorem oneLength_cons (p : Char → Bool) (c : Char) (cs : List Char) :
    oneLength p (c :: cs) = if p c then 1 else 0 := rfl

theorem oneLength_of_ends
    {p : Char → Bool} (hp : IsInside p) {rest : List Char} (h : EndsNumber rest) :
    oneLength p rest = 0 := by
  rw [oneLength, hp.not_head h, if_neg Bool.false_ne_true]

theorem oneLength_stable {p : Char → Bool} (hp : IsInside p) :
    Stable (oneLength p) := by
  intro text rest rest' hends hle
  cases text with
  | nil =>
      rw [List.nil_append, List.nil_append, oneLength_of_ends hp hends]
      exact (Nat.le_zero.mp hle).symm
  | cons c text =>
      rw [List.cons_append, List.cons_append, oneLength_cons, oneLength_cons]

theorem isInside_digit : IsInside (fun c => c.isDigit || c == '_') :=
  ⟨by decide, by decide, by decide⟩

theorem isInside_sign : IsInside (fun c => c == '+' || c == '-') :=
  ⟨by decide, by decide, by decide⟩

theorem digitsLength_stable : Stable digitsLength :=
  runLength_stable isInside_digit

theorem signLength_stable : Stable signLength :=
  oneLength_stable isInside_sign

theorem exponentLength_stable {mark : Char → Bool} (hmark : IsInside mark) :
    Stable (exponentLength mark) := by
  intro text rest rest' hends hle
  cases text with
  | nil =>
      rw [List.nil_append, List.length_nil, Nat.le_zero] at hle
      rw [List.nil_append, List.nil_append, hle, exponentLength,
        hmark.not_head hends, if_neg Bool.false_ne_true]
  | cons c text =>
      simp only [exponentLength, List.cons_append, List.head?_cons, Option.any_some,
        List.drop_succ_cons, List.drop_zero, Nat.add_comm 1 (signLength _),
        List.length_cons] at hle ⊢
      by_cases hc : mark c = true
      · rw [if_pos hc] at hle
        rw [if_pos hc, if_pos hc]
        cases text with
        | nil =>
            -- The digits of an exponent would lie beyond the text.
            have hsign : signLength rest' = 0 := oneLength_of_ends isInside_sign hends
            have hdigits : digitsLength rest' = 0 :=
              digitsLength_stable [] [] rest' hends (Nat.le_refl 0)
            rw [List.nil_append, hsign, List.drop_zero, if_pos hdigits]
            split at hle
            · rename_i hzero
              rw [if_pos hzero]
            · rw [List.length_nil] at hle
              omega
        | cons c' text =>
            have hsign : signLength (c' :: text ++ rest') =
                signLength (c' :: text ++ rest) := rfl
            have hone : signLength (c' :: text ++ rest) ≤ 1 := oneLength_le_one _ _
            have hbound : signLength (c' :: text ++ rest) + digitsLength
                ((c' :: text ++ rest).drop (signLength (c' :: text ++ rest))) ≤
                  (c' :: text).length := by
              rw [List.length_cons] at hle ⊢
              split at hle
              · omega
              · omega
            have hskip : signLength (c' :: text ++ rest) ≤ (c' :: text).length :=
              Nat.le_trans (Nat.le_add_right _ _) hbound
            rw [hsign, digitsLength_stable.drop hends rest hskip hbound]
      · rw [if_neg hc, if_neg hc]

/-- The measure of the digits after a base prefix. -/
def basedLength (cs : List Char) : Nat :=
  runLength (fun c => Digits.isDigitOf 16 c || c == '_' || c == '.') cs

theorem basedLength_stable : Stable basedLength :=
  runLength_stable ⟨by decide, by decide, by decide⟩

theorem prefixedLength?_singleton (c : Char) : prefixedLength? [c] = none := by
  unfold prefixedLength?
  split
  · rename_i heq
    cases heq
  · rfl

theorem prefixedLength?_cons (c mark : Char) (cs : List Char) :
    prefixedLength? (c :: mark :: cs) =
      if c = '0' ∧ mark ∈ ['x', 'X', 'o', 'O', 'b', 'B'] then
        some (2 + basedLength cs +
          exponentLength (fun c => c == 'p' || c == 'P') (cs.drop (basedLength cs)))
      else none := by
  by_cases hzero : c = '0'
  · subst hzero
    rw [prefixedLength?]
    simp only [true_and, basedLength]
  · rw [if_neg (fun h => hzero h.1)]
    unfold prefixedLength?
    split
    · rename_i heq
      exact absurd (List.cons.inj heq).1 hzero
    · rfl

theorem prefixedLength?_stable
    {text rest rest' : List Char} (hends : EndsNumber rest') {count : Nat}
    (h : prefixedLength? (text ++ rest) = some count) (hle : count ≤ text.length) :
    prefixedLength? (text ++ rest') = some count := by
  match text with
  | [] =>
      have hpos := (prefixedLength?_le h).1
      rw [List.length_nil] at hle
      omega
  | [c] =>
      cases rest with
      | nil => rw [List.append_nil, prefixedLength?_singleton] at h; cases h
      | cons mark rest =>
          rw [List.singleton_append, prefixedLength?_cons] at h
          split at h
          · rw [← Option.some.inj h, List.length_singleton] at hle
            omega
          · cases h
  | c :: mark :: text =>
      rw [List.cons_append, List.cons_append, prefixedLength?_cons] at h ⊢
      split at h
      · rename_i hmark
        rw [← Option.some.inj h, List.length_cons, List.length_cons] at hle
        have hdigits : basedLength (text ++ rest') = basedLength (text ++ rest) :=
          basedLength_stable text rest rest' hends (by omega)
        have hexponent := exponentLength_stable
          (⟨by decide, by decide, by decide⟩ : IsInside fun c => c == 'p' || c == 'P')
        rw [if_pos hmark, hdigits, hexponent.drop hends rest (by omega) (by omega), h]
      · cases h

theorem prefixedLength?_none_stable
    {text rest rest' : List Char} (hends : EndsNumber rest')
    (h : prefixedLength? (text ++ rest) = none) :
    prefixedLength? (text ++ rest') = none := by
  match text with
  | [] =>
      match rest' with
      | [] => rfl
      | [c] => exact prefixedLength?_singleton c
      | c :: mark :: rest' =>
          rw [List.nil_append, prefixedLength?_cons, if_neg]
          rintro ⟨rfl, _⟩
          simpa using hends '0' rfl
  | [c] =>
      match rest' with
      | [] => exact prefixedLength?_singleton c
      | mark :: rest' =>
          rw [List.singleton_append, prefixedLength?_cons, if_neg]
          rintro ⟨_, hmark⟩
          rcases hends mark rfl with rfl | rfl | rfl
          · simp at hmark
          · simp at hmark
          · simp at hmark
  | c :: mark :: text =>
      rw [List.cons_append, List.cons_append, prefixedLength?_cons] at h ⊢
      split at h
      · cases h
      · rename_i hmark
        rw [if_neg hmark]

theorem mantissaLength?_stable
    {text rest rest' : List Char} (hends : EndsNumber rest') {count : Nat}
    (h : mantissaLength? (text ++ rest) = some count) (hle : count ≤ text.length) :
    mantissaLength? (text ++ rest') = some count := by
  have hpoint := oneLength_stable
    (⟨by decide, by decide, by decide⟩ : IsInside fun c => c == '.')
  simp only [mantissaLength?] at h ⊢
  by_cases hzero :
      oneLength (· == '.') ((text ++ rest).drop (digitsLength (text ++ rest))) = 0
  · rw [if_pos hzero] at h
    split at h
    · cases h
    · rename_i hsome
      rw [← Option.some.inj h] at hle
      have hwhole : digitsLength (text ++ rest') = digitsLength (text ++ rest) :=
        digitsLength_stable text rest rest' hends (by omega)
      rw [hwhole, hpoint.drop hends rest (by omega) (by omega), if_pos hzero,
        if_neg hsome, h]
  · rw [if_neg hzero] at h
    have hone := oneLength_le_one (· == '.')
      ((text ++ rest).drop (digitsLength (text ++ rest)))
    split at h
    · cases h
    · rename_i hsome
      rw [← Option.some.inj h] at hle
      have hwhole : digitsLength (text ++ rest') = digitsLength (text ++ rest) :=
        digitsLength_stable text rest rest' hends (by omega)
      rw [hwhole, hpoint.drop hends rest (by omega) (by omega), if_neg hzero,
        digitsLength_stable.drop hends rest (by omega) (by omega), if_neg hsome, h]

theorem decimalLength?_stable
    {text rest rest' : List Char} (hends : EndsNumber rest') {count : Nat}
    (h : decimalLength? (text ++ rest) = some count) (hle : count ≤ text.length) :
    decimalLength? (text ++ rest') = some count := by
  obtain ⟨mantissa, hmantissa, rfl⟩ := Option.map_eq_some_iff.mp h
  have hexponent := exponentLength_stable
    (⟨by decide, by decide, by decide⟩ : IsInside fun c => c == 'e' || c == 'E')
  rw [decimalLength?, mantissaLength?_stable hends hmantissa (by omega),
    Option.map_some, hexponent.drop hends rest (by omega) hle]

theorem length?_eq_some
    {cs : List Char} {count : Nat} (h : length? cs = some count) :
    ∃ digits, (prefixedLength? (cs.drop (signLength cs)) = some digits ∨
        prefixedLength? (cs.drop (signLength cs)) = none ∧
          decimalLength? (cs.drop (signLength cs)) = some digits) ∧
      count = signLength cs + digits +
        oneLength (· == 'i') (cs.drop (signLength cs + digits)) := by
  simp only [length?] at h
  split at h
  · cases h
  · rename_i digits hdigits
    exact ⟨digits, Option.or_eq_some_iff.mp hdigits, (Option.some.inj h).symm⟩

theorem length?_stable
    {text rest rest' : List Char} (hends : EndsNumber rest') {count : Nat}
    (h : length? (text ++ rest) = some count) (hle : count ≤ text.length) :
    length? (text ++ rest') = some count := by
  obtain ⟨digits, hdigits, rfl⟩ := length?_eq_some h
  have hsign : signLength (text ++ rest') = signLength (text ++ rest) :=
    signLength_stable text rest rest' hends (by omega)
  have hmark := oneLength_stable
    (⟨by decide, by decide, by decide⟩ : IsInside fun c => c == 'i')
  have hdrop : ∀ after, (text ++ after).drop (signLength (text ++ rest)) =
      text.drop (signLength (text ++ rest)) ++ after := by
    intro after
    exact List.drop_append_of_le_length (by omega)
  have hlength : digits ≤ (text.drop (signLength (text ++ rest))).length := by
    rw [List.length_drop]
    omega
  rw [hdrop] at hdigits
  simp only [length?, hsign, hdrop]
  have hfound : (prefixedLength? (text.drop (signLength (text ++ rest)) ++ rest')).or
      (decimalLength? (text.drop (signLength (text ++ rest)) ++ rest')) =
        some digits := by
    rcases hdigits with hprefixed | ⟨hnone, hdecimal⟩
    · rw [prefixedLength?_stable hends hprefixed hlength]
      rfl
    · rw [prefixedLength?_none_stable hends hnone,
        decimalLength?_stable hends hdecimal hlength]
      rfl
  rw [hfound]
  simp only
  rw [hmark.drop hends rest (by omega) hle]

end Numeral

/-! ## How a literal starts -/

/-- The start of a number literal: a digit, a point and a digit, or a sign and what
can follow it. -/
inductive StartsNumber : List Char → Prop
  | digit {c : Char} {cs : List Char} : c.isDigit = true → StartsNumber (c :: cs)
  | point {c : Char} {cs : List Char} : c.isDigit = true →
      StartsNumber ('.' :: c :: cs)
  | sign {sign c : Char} {cs : List Char} : sign = '+' ∨ sign = '-' →
      c.isDigit = true ∨ c = '_' ∨ c = '.' → StartsNumber (sign :: c :: cs)

theorem StartsNumber.ne_nil
    {text : List Char} (h : StartsNumber text) : text ≠ [] := by
  cases h with
  | digit hdigit => simp
  | point hdigit => simp
  | sign hsign hnext => simp

namespace Numeral

theorem digitsLength_ne_zero
    {cs : List Char} (h : digitsLength cs ≠ 0) :
    ∃ c cs', cs = c :: cs' ∧ (c.isDigit = true ∨ c = '_') := by
  cases cs with
  | nil => exact absurd rfl h
  | cons c cs =>
      refine ⟨c, cs, rfl, ?_⟩
      rw [digitsLength, runLength, List.takeWhile_cons] at h
      split at h
      · rename_i hc
        simpa using hc
      · exact absurd rfl h

theorem mantissaLength?_head
    {cs : List Char} {count : Nat} (h : mantissaLength? cs = some count) :
    ∃ c cs', cs = c :: cs' ∧ (c.isDigit = true ∨ c = '_' ∨ c = '.') := by
  by_cases hwhole : digitsLength cs = 0
  · simp only [mantissaLength?, hwhole, List.drop_zero] at h
    by_cases hpoint : oneLength (· == '.') cs = 0
    · simp [hpoint] at h
    · cases cs with
      | nil => exact absurd rfl hpoint
      | cons c cs =>
          refine ⟨c, cs, rfl, .inr (.inr ?_)⟩
          simpa [oneLength_cons] using hpoint
  · obtain ⟨c, cs', rfl, hc⟩ := digitsLength_ne_zero hwhole
    exact ⟨c, cs', rfl, hc.imp_right .inl⟩

theorem length?_head_of_sign
    {sign : Char} {cs : List Char} {count : Nat} (hsign : sign = '+' ∨ sign = '-')
    (h : length? (sign :: cs) = some count) :
    1 < count ∧ ∃ c cs', cs = c :: cs' ∧ (c.isDigit = true ∨ c = '_' ∨ c = '.') := by
  have hone : signLength (sign :: cs) = 1 := by
    rcases hsign with rfl | rfl
    · rfl
    · rfl
  obtain ⟨digits, hdigits, rfl⟩ := length?_eq_some h
  rw [hone, List.drop_succ_cons, List.drop_zero] at hdigits
  rcases hdigits with hprefixed | ⟨_, hdecimal⟩
  · have hpos := (prefixedLength?_le hprefixed).1
    refine ⟨by omega, ?_⟩
    match cs with
    | [] => cases hprefixed
    | [c] =>
        rw [prefixedLength?_singleton] at hprefixed
        cases hprefixed
    | c :: mark :: cs =>
        rw [prefixedLength?_cons] at hprefixed
        split at hprefixed
        · rename_i hmark
          exact ⟨c, mark :: cs, rfl, .inl (by rw [hmark.1]; rfl)⟩
        · cases hprefixed
  · have hpos := (decimalLength?_le hdecimal).1
    obtain ⟨mantissa, hmantissa, _⟩ := Option.map_eq_some_iff.mp hdecimal
    exact ⟨by omega, mantissaLength?_head hmantissa⟩

theorem one_lt_length?_of_point
    {cs : List Char} {count : Nat} (h : length? ('.' :: cs) = some count) :
    1 < count := by
  have hsign : signLength ('.' :: cs) = 0 := rfl
  obtain ⟨digits, hdigits, rfl⟩ := length?_eq_some h
  rw [hsign, List.drop_zero] at hdigits
  have hdecimal : decimalLength? ('.' :: cs) = some digits := by
    rcases hdigits with hprefixed | ⟨_, hdecimal⟩
    · cases cs with
      | nil =>
          rw [prefixedLength?_singleton] at hprefixed
          cases hprefixed
      | cons mark cs =>
          rw [prefixedLength?_cons, if_neg (by simp)] at hprefixed
          cases hprefixed
    · exact hdecimal
  obtain ⟨mantissa, hmantissa, rfl⟩ := Option.map_eq_some_iff.mp hdecimal
  have hwhole : digitsLength ('.' :: cs) = 0 := rfl
  have hpoint : oneLength (· == '.') ('.' :: cs) = 1 := rfl
  simp only [mantissaLength?, hwhole, List.drop_zero, hpoint, List.drop_succ_cons,
    Nat.one_ne_zero, if_false, true_and, Nat.zero_add] at hmantissa
  split at hmantissa
  · cases hmantissa
  · rename_i hfraction
    rw [← Option.some.inj hmantissa]
    omega

end Numeral

/-! ## Whole literals -/

namespace Lexer

/-- A number constant is one literal, or two of which the second has a sign and is
imaginary; no character of a name comes next. -/
theorem numberLength_eq_ok {cs : List Char} {count : Nat} :
    numberLength cs = .ok count ↔
      (cs.drop count).head?.any isWordChar = false ∧
      ∃ first, Numeral.length? cs = some first ∧
        (((cs.drop first).head?.any fun c => c == '+' || c == '-') = false ∧
            count = first ∨
          ((cs.drop first).head?.any fun c => c == '+' || c == '-') = true ∧
            ∃ more, Numeral.length? (cs.drop first) = some more ∧
              ((cs.drop first).take more).getLast? = some 'i' ∧
              count = first + more) := by
  constructor
  · intro h
    simp only [numberLength] at h
    split at h
    · cases h
    · rename_i first hfirst
      split at h
      · rename_i hsign
        split at h
        · rename_i more hmore
          split at h
          · rename_i himaginary
            split at h
            · cases h
            · rename_i hword
              cases h
              exact ⟨Bool.eq_false_iff.mpr hword, first, hfirst,
                .inr ⟨hsign, more, hmore, himaginary, rfl⟩⟩
          · cases h
        · cases h
      · rename_i hsign
        split at h
        · cases h
        · rename_i hword
          cases h
          exact ⟨Bool.eq_false_iff.mpr hword, count, hfirst,
            .inl ⟨Bool.eq_false_iff.mpr hsign, rfl⟩⟩
  · rintro ⟨hword, first, hfirst, ⟨hsign, rfl⟩ | ⟨hsign, more, hmore, himaginary, rfl⟩⟩
    · simp only [numberLength, hfirst, hsign, hword, if_neg Bool.false_ne_true]
    · simp only [numberLength, hfirst, hsign, hmore, himaginary, hword, if_true,
        if_neg Bool.false_ne_true]

theorem numberLength_le
    {cs : List Char} {count : Nat} (h : numberLength cs = .ok count) :
    0 < count ∧ count ≤ cs.length := by
  obtain ⟨_, first, hfirst, hparts⟩ := numberLength_eq_ok.mp h
  have hbounds := Numeral.length?_le hfirst
  rcases hparts with ⟨_, rfl⟩ | ⟨_, more, hmore, _, rfl⟩
  · exact hbounds
  · have hmoreBounds := Numeral.length?_le hmore
    rw [List.length_drop] at hmoreBounds
    omega

/-- The extent of a number constant does not depend on the text after it, as long
as that text cannot continue it. -/
theorem numberLength_stable
    {text rest rest' : List Char} (hends : EndsNumber rest')
    (h : numberLength (text ++ rest) = .ok text.length) :
    numberLength (text ++ rest') = .ok text.length := by
  obtain ⟨_, first, hfirst, hparts⟩ := numberLength_eq_ok.mp h
  have hword : ((text ++ rest').drop text.length).head?.any isWordChar = false := by
    rw [List.drop_left]
    exact Numeral.IsInside.not_head ⟨by decide, by decide, by decide⟩ hends
  have hle : first ≤ text.length := by
    rcases hparts with ⟨_, heq⟩ | ⟨_, more, _, _, heq⟩
    · omega
    · omega
  have hdrop : ∀ after, (text ++ after).drop first = text.drop first ++ after :=
    fun after => List.drop_append_of_le_length hle
  rw [hdrop] at hparts
  refine numberLength_eq_ok.mpr
    ⟨hword, first, Numeral.length?_stable hends hfirst hle, ?_⟩
  rw [hdrop]
  rcases hparts with ⟨_, heq⟩ | ⟨hsign, more, hmore, himaginary, heq⟩
  · refine .inl ⟨?_, heq⟩
    rw [← heq, List.drop_length, List.nil_append]
    exact Numeral.isInside_sign.not_head hends
  · have hpos := (Numeral.length?_le hmore).1
    have hlength : (text.drop first).length = more := by
      rw [List.length_drop]
      omega
    refine .inr ⟨?_, more, Numeral.length?_stable hends hmore (by omega), ?_, heq⟩
    · cases hsecond : text.drop first with
      | nil =>
          rw [hsecond, List.length_nil] at hlength
          omega
      | cons c second =>
          rw [hsecond] at hsign
          exact hsign
    · rw [List.take_left' hlength] at himaginary ⊢
      exact himaginary

theorem startsNumber_take
    {c : Char} {cs : List Char} {count : Nat} (h : numberLength (c :: cs) = .ok count)
    (hstart : (c = '.' || c = '+' || c = '-' || c.isDigit) = true)
    (hpoint : ¬ (c = '.' && !cs.head?.any Char.isDigit) = true) :
    StartsNumber ((c :: cs).take count) := by
  obtain ⟨_, first, hfirst, hparts⟩ := numberLength_eq_ok.mp h
  have hcount : first ≤ count := by
    rcases hparts with ⟨_, rfl⟩ | ⟨_, more, _, _, rfl⟩
    · exact Nat.le_refl _
    · exact Nat.le_add_right _ _
  by_cases hdigit : c.isDigit = true
  · have hpos := (numberLength_le h).1
    obtain ⟨count, rfl⟩ := Nat.exists_eq_add_of_le' hpos
    exact .digit hdigit
  · by_cases hdot : c = '.'
    · subst hdot
      have htwo := Numeral.one_lt_length?_of_point hfirst
      obtain ⟨count, rfl⟩ := Nat.exists_eq_add_of_le' (Nat.le_trans htwo hcount)
      cases cs with
      | nil => simp at hpoint
      | cons c cs => exact .point (by simpa using hpoint)
    · have hsign : c = '+' ∨ c = '-' := by simpa [hdot, hdigit] using hstart
      obtain ⟨htwo, c', cs', rfl, hc'⟩ := Numeral.length?_head_of_sign hsign hfirst
      obtain ⟨count, rfl⟩ := Nat.exists_eq_add_of_le' (Nat.le_trans htwo hcount)
      exact .sign hsign hc'

end Lexer

end TemplateTyping
