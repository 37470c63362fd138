import TemplateTyping.Proofs.Literal.Escapes

/-!
# Scanning integer literals

A text is scanned in parts that know nothing of each other.  One checks the underscores, one
takes off the prefix, and one reads the digits that are left when the underscores are dropped.
This module shows that the parts together accept nothing but the literals of the grammar, with
the numbers they write; that they accept those was shown with the grammar.
-/

namespace TemplateTyping.Integer

/-! ## Digits and underscores -/

/-- Digits whose underscores pass the check form a run.  The second part is for a run whose
first underscore has been passed already. -/
theorem digitRun_of_underscoresFrom
    {base : Nat} {hex : Bool} (hle : base ≤ if hex then 16 else 10)
    {cs : List Char} {ds : List Nat}
    (hds : List.Forall₂ (IsDigit base) (cs.filter (· != '_')) ds) :
    (underscoresFrom hex .digit cs = true → DigitRun base cs ds) ∧
      (underscoresFrom hex .underscore cs = true → DigitRun base ('_' :: cs) ds) := by
  induction cs generalizing ds with
  | nil =>
      obtain rfl : ds = [] := by simpa using hds
      exact ⟨fun _ => .nil, fun hok => absurd hok Bool.false_ne_true⟩
  | cons c cs ih =>
      by_cases hc : c = '_'
      · subst hc
        have hunderscore : ¬ Digits.isDigitOf (if hex then 16 else 10) '_' = true := by
          simp [Digits.isDigitOf, Digits.value?]
        rw [List.filter_cons_of_neg (by simp)] at hds
        simp only [underscoresFrom, if_neg hunderscore, if_true, Bool.and_eq_true]
        exact ⟨fun hok => (ih hds).2 hok.2, fun hok => absurd hok.1 (by decide)⟩
      · rw [List.filter_cons_of_pos (by simpa using hc)] at hds
        obtain ⟨d, ds, hdigit, hrest, rfl⟩ := List.forall₂_cons_left_iff.mp hds
        rw [hdigit.underscoresFrom_cons hex hle, hdigit.underscoresFrom_cons hex hle]
        exact ⟨fun hok => .digit hdigit ((ih hrest).1 hok),
          fun hok => .separated hdigit ((ih hrest).1 hok)⟩

/-- What is read from digits with underscores is the number that their run writes. -/
theorem exists_digitRun_of_read?
    {base n : Nat} {hex : Bool} (hle : base ≤ if hex then 16 else 10) {cs : List Char}
    (hok : underscoresFrom hex .digit cs = true)
    (hread : Digits.read? base (cs.filter (· != '_')) = some n) :
    ∃ ds, DigitRun base cs ds ∧ ds ≠ [] ∧ positional base ds = n := by
  obtain ⟨hne, ds, hds, rfl⟩ := Quotation.read?_eq_some_iff.mp hread
  refine ⟨ds, (digitRun_of_underscoresFrom hle hds).1 hok, ?_, rfl⟩
  rintro rfl
  exact hne (List.forall₂_nil_right_iff.mp hds)

/-! ## Literals without sign -/

theorem underscoresOk_of_ne
    {c : Char} (hminus : c ≠ '-') (hplus : c ≠ '+') (hzero : c ≠ '0') (cs : List Char) :
    underscoresOk (c :: cs) = underscoresFrom false .start (c :: cs) := by
  have hsign : Digits.splitSign (c :: cs) = (false, c :: cs) := by
    simp [Digits.splitSign, hminus, hplus]
  rw [underscoresOk, hsign]
  split
  · simp_all
  · rfl

/-- A decimal text starts with a digit: an underscore would have to follow one. -/
theorem exists_first_digit
    {n : Nat} {c : Char} {cs : List Char} (hok : underscoresOk (c :: cs) = true)
    (hread : Digits.read? 10 ((c :: cs).filter (· != '_')) = some n) :
    ∃ d ds, IsDigit 10 c d ∧ List.Forall₂ (IsDigit 10) (cs.filter (· != '_')) ds ∧
      positional 10 (d :: ds) = n := by
  by_cases hc : c = '_'
  · subst hc
    exact absurd hok Bool.false_ne_true
  · rw [List.filter_cons_of_pos (by simpa using hc)] at hread
    obtain ⟨-, ds, hds, rfl⟩ := Quotation.read?_eq_some_iff.mp hread
    obtain ⟨d, ds, hdigit, hrest, rfl⟩ := List.forall₂_cons_left_iff.mp hds
    exact ⟨d, ds, hdigit, hrest, rfl⟩

namespace Literal

variable {n : Nat} {mark : Char} {cs : List Char}

/-- A text that starts with a digit other than zero is a decimal literal. -/
theorem of_decimal
    {c : Char} (hzero : c ≠ '0') (hok : underscoresOk (c :: cs) = true)
    (hread : Digits.read? 10 ((c :: cs).filter (· != '_')) = some n) :
    Literal (c :: cs) n := by
  obtain ⟨d, ds, hdigit, hrest, rfl⟩ := exists_first_digit hok hread
  have hc : c.isDigit = true := hdigit.isDigit (Nat.le_refl 10)
  have hminus : c ≠ '-' := by
    rintro rfl
    cases hc
  have hplus : c ≠ '+' := by
    rintro rfl
    cases hc
  rw [underscoresOk_of_ne hminus hplus hzero, hdigit.underscoresFrom_cons false (Nat.le_refl 10)]
    at hok
  have hd : d ≠ 0 := by
    rintro rfl
    exact hzero (by simpa [eq_comm] using hdigit.2)
  have hle : 10 ≤ if false then 16 else 10 := Nat.le_refl 10
  exact .decimal hdigit hd ((digitRun_of_underscoresFrom hle hrest).1 hok)

/-- A text with a base prefix is a literal of that base. -/
theorem of_based
    {base : Nat} (hmark : MarksBase mark base) {hex : Bool}
    (hle : base ≤ if hex then 16 else 10) (hok : underscoresFrom hex .digit cs = true)
    (hread : Digits.read? base (cs.filter (· != '_')) = some n) :
    Literal ('0' :: mark :: cs) n := by
  obtain ⟨ds, hrun, hds, rfl⟩ := exists_digitRun_of_read? hle hok hread
  exact .based hmark hrun hds

/-- A text that starts with a zero has the base that is told by the character after it. -/
theorem of_zero
    {base : Nat} {run : List Char} (hok : underscoresOk ('0' :: mark :: cs) = true)
    (hsplit : splitBase ('0' :: mark :: cs) = (base, run))
    (hread : Digits.read? base (run.filter (· != '_')) = some n) :
    Literal ('0' :: mark :: cs) n := by
  -- The zero is neither a sign nor an underscore, so the check goes on after it.
  change (if mark = 'x' ∨ mark = 'X' then underscoresFrom true .digit cs
    else if mark = 'o' ∨ mark = 'O' ∨ mark = 'b' ∨ mark = 'B' then underscoresFrom false .digit cs
    else underscoresFrom false .digit (mark :: cs)) = true at hok
  rw [splitBase] at hsplit
  by_cases hx : mark = 'x' ∨ mark = 'X'
  · rw [if_pos hx] at hok hsplit
    obtain ⟨rfl, rfl⟩ := Prod.mk.inj hsplit
    have hmark : MarksBase mark 16 := by simpa [MarksBase] using hx
    exact of_based hmark (by decide) hok hread
  rw [if_neg hx] at hok hsplit
  by_cases ho : mark = 'o' ∨ mark = 'O'
  · rw [if_pos (by tauto)] at hok
    rw [if_pos ho] at hsplit
    obtain ⟨rfl, rfl⟩ := Prod.mk.inj hsplit
    have hmark : MarksBase mark 8 := by rcases ho with rfl | rfl <;> simp [MarksBase]
    exact of_based hmark (by decide) hok hread
  rw [if_neg ho] at hsplit
  by_cases hb : mark = 'b' ∨ mark = 'B'
  · rw [if_pos (by tauto)] at hok
    rw [if_pos hb] at hsplit
    obtain ⟨rfl, rfl⟩ := Prod.mk.inj hsplit
    have hmark : MarksBase mark 2 := by rcases hb with rfl | rfl <;> simp [MarksBase]
    exact of_based hmark (by decide) hok hread
  rw [if_neg (by tauto)] at hok
  rw [if_neg hb] at hsplit
  obtain ⟨rfl, rfl⟩ := Prod.mk.inj hsplit
  obtain ⟨ds, hrun, -, rfl⟩ := exists_digitRun_of_read? (by decide) hok hread
  exact .octal hrun

/-- Only literals are read as integers without sign. -/
theorem of_unsigned? (h : unsigned? cs = some n) : Literal cs n ∧ n < unsignedLimit := by
  obtain ⟨base, run, hsplit⟩ : ∃ base run, splitBase cs = (base, run) := ⟨_, _, rfl⟩
  rw [unsigned?, hsplit] at h
  by_cases hok : underscoresOk cs = true
  · rw [if_pos hok] at h
    obtain ⟨hread, hlt⟩ := Option.filter_eq_some_iff.mp h
    refine ⟨?_, of_decide_eq_true hlt⟩
    cases cs with
    | nil =>
        obtain ⟨rfl, rfl⟩ := Prod.mk.inj hsplit
        cases hread
    | cons c cs =>
        by_cases hzero : c = '0'
        · subst hzero
          cases cs with
          | nil =>
              obtain ⟨rfl, rfl⟩ := Prod.mk.inj hsplit
              obtain rfl : 0 = n := Option.some.inj hread
              exact .octal .nil
          | cons mark cs => exact of_zero hok hsplit hread
        · rw [splitBase_of_ne_zero hzero] at hsplit
          obtain ⟨rfl, rfl⟩ := Prod.mk.inj hsplit
          exact of_decimal hzero hok hread
  · rw [if_neg hok] at h
    cases h

end Literal

theorem unsigned?_eq_some_iff {cs : List Char} {n : Nat} :
    unsigned? cs = some n ↔ Literal cs n ∧ n < 2 ^ 64 := by
  constructor
  · exact Literal.of_unsigned?
  · rintro ⟨hliteral, hlt⟩
    rw [hliteral.unsigned?_eq]
    exact if_pos hlt

/-! ## Literals with sign -/

theorem exists_sign (cs : List Char) :
    ∃ sign : Sign, cs = sign.chars ++ (Digits.splitSign cs).2 := by
  unfold Digits.splitSign
  split
  · exact ⟨.minus, rfl⟩
  · exact ⟨.plus, rfl⟩
  · exact ⟨.absent, rfl⟩

/-- A text is read as an integer with sign exactly if it is a literal after an optional sign
and its number fits. -/
theorem signed?_eq_some_iff {cs : List Char} {z : Int} :
    signed? cs = some z ↔
      ∃ sign body n, cs = Sign.chars sign ++ body ∧ Literal body n ∧ z = sign.apply n ∧
        -2 ^ 63 ≤ z ∧ z < 2 ^ 63 := by
  constructor
  · intro h
    obtain ⟨sign, hcs⟩ := exists_sign cs
    cases hread : unsigned? (Digits.splitSign cs).2 with
    | none =>
        simp only [signed?, hread] at h
        cases h
    | some n =>
        have hliteral := (Literal.of_unsigned? hread).1
        have hsigned := hliteral.signed?_eq sign
        rw [← hcs, h] at hsigned
        split at hsigned
        · rename_i hfits
          obtain rfl := Option.some.inj hsigned
          exact ⟨sign, _, n, hcs, hliteral, rfl, hfits⟩
        · cases hsigned
  · rintro ⟨sign, body, n, rfl, hliteral, rfl, hfits⟩
    rw [hliteral.signed?_eq sign]
    exact if_pos hfits

/-- Scanning accepts exactly the integer literals, with the numbers they write: those below
`2 ^ 64` without a sign, and with an optional sign those from `-2 ^ 63` to below `2 ^ 63`. -/
theorem scan_iff_literal (text : String) (n : Nat) (z : Int) :
    (unsigned? text.toList = some n ↔ Literal text.toList n ∧ n < 2 ^ 64) ∧
      (signed? text.toList = some z ↔
        ∃ sign body m, text.toList = Sign.chars sign ++ body ∧ Literal body m ∧
          z = sign.apply m ∧ -2 ^ 63 ≤ z ∧ z < 2 ^ 63) :=
  ⟨unsigned?_eq_some_iff, signed?_eq_some_iff⟩

end TemplateTyping.Integer
