import Mathlib.Data.Nat.Digits.Defs
import Mathlib.Tactic.IntervalCases
import Mathlib.Tactic.Ring
import TemplateTyping.Check.Walk

/-!
# The grammar of integer literals

An integer literal is a decimal number without leading zero, a zero with octal
digits after it, or a base prefix with digits of that base; a single underscore may
stand before every digit but the first.  This module states the grammar with the
number that each literal writes and follows a literal through its reading: the
digits are read exactly, a literal is a signed or an unsigned integer as far as its
value fits, and one that fits neither is no number at all.
-/

namespace TemplateTyping

theorem Real.splitAt?_eq_none
    {p : Char → Bool} {cs : List Char} (h : ∀ c ∈ cs, p c = false) :
    Real.splitAt? p cs = none := by
  induction cs with
  | nil => rfl
  | cons c cs ih =>
      have hc : ¬ p c = true := Bool.eq_false_iff.mp (h c List.mem_cons_self)
      rw [Real.splitAt?, if_neg hc, ih fun c hc => h c (List.mem_cons_of_mem _ hc)]
      rfl

namespace Integer

/-! ## Digits -/

/-- The character is the digit of a value in a base. -/
def IsDigit (base : Nat) (c : Char) (d : Nat) : Prop :=
  d < base ∧ ("0123456789abcdef".toList[d]? = some c ∨
    "0123456789ABCDEF".toList[d]? = some c)

/-- Digits of a base, each of which may have an underscore before it. -/
inductive DigitRun (base : Nat) : List Char → List Nat → Prop
  | nil : DigitRun base [] []
  | digit {c : Char} {cs : List Char} {d : Nat} {ds : List Nat} :
      IsDigit base c d → DigitRun base cs ds → DigitRun base (c :: cs) (d :: ds)
  | separated {c : Char} {cs : List Char} {d : Nat} {ds : List Nat} :
      IsDigit base c d → DigitRun base cs ds → DigitRun base ('_' :: c :: cs) (d :: ds)

/-- The number that digits write, the most significant one first. -/
def positional (base : Nat) (ds : List Nat) : Nat := Nat.ofDigits base ds.reverse

theorem IsDigit.mono
    {base base' : Nat} {c : Char} {d : Nat} (h : IsDigit base c d) (hle : base ≤ base') :
    IsDigit base' c d :=
  ⟨Nat.lt_of_lt_of_le h.1 hle, h.2⟩

theorem IsDigit.value?_eq
    {base : Nat} {c : Char} {d : Nat} (h : IsDigit base c d) :
    Digits.value? base c = some d := by
  obtain ⟨hlt, hc⟩ := h
  have hd : d < 16 := by
    rcases hc with hc | hc <;> exact (List.getElem?_eq_some_iff.mp hc).1
  have hsome : (some d).filter (· < base) = some d := by simp [hlt]
  rw [← hsome]
  interval_cases d <;> rcases hc with hc | hc <;> cases hc <;> rfl

theorem IsDigit.ne_underscore
    {base : Nat} {c : Char} {d : Nat} (h : IsDigit base c d) : c ≠ '_' := by
  rintro rfl
  have hnone : Digits.value? base '_' = none := rfl
  rw [h.value?_eq] at hnone
  cases hnone

theorem IsDigit.isDigitOf
    {base base' : Nat} {c : Char} {d : Nat} (h : IsDigit base c d) (hle : base ≤ base') :
    Digits.isDigitOf base' c = true := by
  rw [Digits.isDigitOf, (h.mono hle).value?_eq, Option.isSome_some]

theorem IsDigit.underscoresFrom_cons
    {base : Nat} {c : Char} {d : Nat} (h : IsDigit base c d) (hex : Bool)
    (hle : base ≤ if hex then 16 else 10) (last : Last) (cs : List Char) :
    underscoresFrom hex last (c :: cs) = underscoresFrom hex .digit cs := by
  rw [underscoresFrom, if_pos (h.isDigitOf hle)]

/-- The digits below ten are the decimal digits. -/
theorem IsDigit.isDigit
    {base : Nat} {c : Char} {d : Nat} (h : IsDigit base c d) (hle : base ≤ 10) :
    c.isDigit = true := by
  obtain ⟨hlt, hc⟩ := h
  have hd : d < 10 := Nat.lt_of_lt_of_le hlt hle
  interval_cases d <;> rcases hc with hc | hc <;> cases hc <;> rfl

theorem IsDigit.extend?_cons
    {base : Nat} {c : Char} {d : Nat} (h : IsDigit base c d) (acc : Nat) (cs : List Char) :
    Digits.extend? base acc ((c :: cs).filter (· != '_')) =
      Digits.extend? base (acc * base + d) (cs.filter (· != '_')) := by
  rw [List.filter_cons_of_pos (by simp [h.ne_underscore]), Digits.extend?, h.value?_eq]

/-- The first digit may as well be counted to what comes before all of them. -/
theorem positional_cons (base acc d : Nat) (ds : List Nat) :
    acc * base ^ (d :: ds).length + positional base (d :: ds) =
      (acc * base + d) * base ^ ds.length + positional base ds := by
  rw [positional, List.reverse_cons, Nat.ofDigits_append, Nat.ofDigits_singleton,
    List.length_reverse, List.length_cons, positional]
  ring

namespace DigitRun

variable {base : Nat} {cs : List Char} {ds : List Nat}

theorem mem (h : DigitRun base cs ds) {c : Char} (hc : c ∈ cs) :
    c = '_' ∨ ∃ d, IsDigit base c d := by
  induction h with
  | nil => cases hc
  | digit hdigit hrun ih =>
      rcases List.mem_cons.mp hc with rfl | hc
      · exact .inr ⟨_, hdigit⟩
      · exact ih hc
  | separated hdigit hrun ih =>
      rcases List.mem_cons.mp hc with rfl | hc
      · exact .inl rfl
      · rcases List.mem_cons.mp hc with rfl | hc
        · exact .inr ⟨_, hdigit⟩
        · exact ih hc

/-- Every underscore of a run has a digit on its right, and on its left as well if
one comes before the run. -/
theorem underscoresFrom_eq
    (h : DigitRun base cs ds) {hex : Bool} (hle : base ≤ if hex then 16 else 10) :
    underscoresFrom hex .digit cs = true := by
  induction h with
  | nil => rfl
  | digit hdigit hrun ih =>
      exact (hdigit.underscoresFrom_cons hex hle _ _).trans ih
  | separated hdigit hrun ih =>
      have hunderscore : Digits.isDigitOf (if hex then 16 else 10) '_' = false := rfl
      rw [underscoresFrom, if_neg (Bool.eq_false_iff.mp hunderscore), if_pos rfl,
        hdigit.underscoresFrom_cons hex hle, ih]
      rfl

/-- What is read from a run is the number it writes, after the digits before it. -/
theorem extend?_eq (h : DigitRun base cs ds) (acc : Nat) :
    Digits.extend? base acc (cs.filter (· != '_')) =
      some (acc * base ^ ds.length + positional base ds) := by
  induction h generalizing acc with
  | nil => simp [Digits.extend?, positional]
  | digit hdigit hrun ih => rw [hdigit.extend?_cons, ih, positional_cons]
  | separated hdigit hrun ih =>
      rw [List.filter_cons_of_neg (by simp), hdigit.extend?_cons, ih, positional_cons]

theorem read?_eq (h : DigitRun base cs ds) (hds : ds ≠ []) :
    Digits.read? base (cs.filter (· != '_')) = some (positional base ds) := by
  have hfilter : (cs.filter (· != '_')).isEmpty = false := by
    cases h with
    | nil => exact absurd rfl hds
    | digit hdigit hrun => simp [hdigit.ne_underscore]
    | separated hdigit hrun => simp [hdigit.ne_underscore]
  rw [Digits.read?, hfilter, if_neg Bool.false_ne_true, h.extend?_eq, Nat.zero_mul,
    Nat.zero_add]

end DigitRun

/-! ## Literals -/

/-- The letter marks a base after a leading zero. -/
def MarksBase (mark : Char) (base : Nat) : Prop :=
  (mark, base) ∈ [('x', 16), ('X', 16), ('o', 8), ('O', 8), ('b', 2), ('B', 2)]

/-- The text of an integer literal without sign, and the number it writes.  A zero
alone is an octal literal without further digits. -/
inductive Literal : List Char → Nat → Prop
  | decimal {c : Char} {cs : List Char} {d : Nat} {ds : List Nat} :
      IsDigit 10 c d → d ≠ 0 → DigitRun 10 cs ds →
        Literal (c :: cs) (positional 10 (d :: ds))
  | octal {cs : List Char} {ds : List Nat} :
      DigitRun 8 cs ds → Literal ('0' :: cs) (positional 8 ds)
  | based {mark : Char} {base : Nat} {cs : List Char} {ds : List Nat} :
      MarksBase mark base → DigitRun base cs ds → ds ≠ [] →
        Literal ('0' :: mark :: cs) (positional base ds)

/-- The sign before a literal. -/
inductive Sign
  | absent
  | plus
  | minus
  deriving DecidableEq, Repr

/-- The characters of a sign. -/
def Sign.chars : Sign → List Char
  | absent => []
  | plus => ['+']
  | minus => ['-']

/-- The number with a sign before it. -/
def Sign.apply : Sign → Nat → Int
  | absent, n => n
  | plus, n => n
  | minus, n => -n

theorem MarksBase.cases
    {mark : Char} {base : Nat} (h : MarksBase mark base) :
    base = 16 ∧ (mark = 'x' ∨ mark = 'X') ∨ base = 8 ∧ (mark = 'o' ∨ mark = 'O') ∨
      base = 2 ∧ (mark = 'b' ∨ mark = 'B') := by
  simp only [MarksBase, List.mem_cons, Prod.mk.injEq, List.not_mem_nil, or_false] at h
  tauto

/-- No digit of a base up to ten marks a base, nor does an underscore. -/
theorem DigitRun.not_mark
    {base : Nat} {mark : Char} {cs : List Char} {ds : List Nat}
    (h : DigitRun base (mark :: cs) ds) (hle : base ≤ 10) :
    mark ∉ ['x', 'X', 'o', 'O', 'b', 'B'] := by
  have hmarks : ['x', 'X', 'o', 'O', 'b', 'B'].any Char.isDigit = false := rfl
  rcases h.mem List.mem_cons_self with rfl | ⟨d, hd⟩
  · decide
  · intro hmark
    exact List.any_eq_false.mp hmarks mark hmark (hd.isDigit hle)

theorem IsDigit.ne_zero
    {base : Nat} {c : Char} {d : Nat} (h : IsDigit base c d) (hd : d ≠ 0) : c ≠ '0' := by
  rintro rfl
  have hbase : 0 < base := Nat.zero_lt_of_lt h.1
  have hzero : IsDigit base '0' 0 := ⟨hbase, .inl rfl⟩
  exact hd (Option.some.inj (h.value?_eq.symm.trans hzero.value?_eq))

theorem not_sign_of_isDigit {c : Char} (h : c.isDigit = true) :
    ¬ (c == '+' || c == '-') = true := by
  rw [Bool.or_eq_true, beq_iff_eq, beq_iff_eq]
  rintro (rfl | rfl) <;> cases h

theorem splitBase_of_ne_zero {c : Char} (h : c ≠ '0') (cs : List Char) :
    splitBase (c :: cs) = (10, c :: cs) := by
  rw [splitBase.eq_2]
  rintro mark cs' ⟨⟩
  exact h rfl

namespace Literal

variable {cs : List Char} {n : Nat}

theorem head (h : Literal cs n) : ∃ c rest, cs = c :: rest ∧ c.isDigit = true := by
  cases h with
  | decimal hc hd hrun => exact ⟨_, _, rfl, hc.isDigit (Nat.le_refl 10)⟩
  | octal hrun => exact ⟨'0', _, rfl, rfl⟩
  | based hmark hrun hds => exact ⟨'0', _, rfl, rfl⟩

/-- A literal is a run of digits of its base after the prefix. -/
theorem splitBase_eq (h : Literal cs n) :
    ∃ base run ds, splitBase cs = (base, run) ∧ DigitRun base run ds ∧ ds ≠ [] ∧
      positional base ds = n := by
  cases h with
  | decimal hc hd hrun =>
      exact ⟨10, _, _, splitBase_of_ne_zero (hc.ne_zero hd) _, .digit hc hrun, by simp, rfl⟩
  | @octal cs ds hrun =>
      cases cs with
      | nil =>
          -- The base is told by what follows the zero, so here it is ten.
          cases hrun
          exact ⟨10, ['0'], [0], rfl, .digit ⟨by decide, .inl rfl⟩ .nil, by simp, rfl⟩
      | cons mark cs =>
          have hmark := hrun.not_mark (by decide)
          have hds : ds ≠ [] := by
            rintro rfl
            cases hrun
          refine ⟨8, mark :: cs, ds, ?_, hrun, hds, rfl⟩
          simp only [List.mem_cons, List.not_mem_nil, or_false, not_or] at hmark
          simp [splitBase, hmark]
  | @based mark base cs ds hmark hrun hds =>
      refine ⟨base, cs, ds, ?_, hrun, hds, rfl⟩
      rcases hmark.cases with ⟨rfl, rfl | rfl⟩ | ⟨rfl, rfl | rfl⟩ | ⟨rfl, rfl | rfl⟩ <;> rfl

theorem splitSign_eq (h : Literal cs n) (sign : Sign) :
    Digits.splitSign (sign.chars ++ cs) = (decide (sign = .minus), cs) := by
  obtain ⟨c, rest, rfl, hc⟩ := h.head
  cases sign with
  | absent =>
      change Digits.splitSign (c :: rest) = (false, c :: rest)
      rw [Digits.splitSign.eq_3]
      · rintro cs' ⟨⟩
        cases hc
      · rintro cs' ⟨⟩
        cases hc
  | plus => rfl
  | minus => rfl

/-- The underscores of a literal stand where they may, whatever its sign. -/
theorem underscoresOk_eq (h : Literal cs n) (sign : Sign) :
    underscoresOk (sign.chars ++ cs) = true := by
  rw [underscoresOk, h.splitSign_eq sign]
  cases h with
  | @decimal c cs d ds hc hd hrun =>
      have hrest : underscoresFrom false .digit cs = true :=
        hrun.underscoresFrom_eq (Nat.le_refl 10)
      have hstart : underscoresFrom false .start (c :: cs) = true := by
        rw [← hrest]
        exact hc.underscoresFrom_cons false (Nat.le_refl 10) .start cs
      split
      · rename_i heq
        cases heq
        exact absurd rfl (hc.ne_zero hd)
      · exact hstart
  | @octal cs ds hrun =>
      have hstart : underscoresFrom false .start ('0' :: cs) = true :=
        hrun.underscoresFrom_eq (by decide)
      split
      · rename_i mark cs' heq
        cases heq
        have hmark := hrun.not_mark (by decide)
        simp only [List.mem_cons, List.not_mem_nil, or_false, not_or] at hmark
        simpa [hmark] using hstart
      · exact hstart
  | based hmark hrun hds =>
      rcases hmark.cases with ⟨rfl, rfl | rfl⟩ | ⟨rfl, rfl | rfl⟩ | ⟨rfl, rfl | rfl⟩ <;>
        exact hrun.underscoresFrom_eq (by decide)

/-! ## Values -/

/-- Without a sign a literal is read as the number it writes, if that fits. -/
theorem unsigned?_eq (h : Literal cs n) :
    unsigned? cs = if n < unsignedLimit then some n else none := by
  obtain ⟨base, run, ds, hsplit, hrun, hds, rfl⟩ := h.splitBase_eq
  have hok : underscoresOk cs = true := h.underscoresOk_eq .absent
  rw [unsigned?, if_pos hok, hsplit]
  simp only [hrun.read?_eq hds, Option.filter_some, decide_eq_true_eq]

/-- A literal with a sign is no unsigned integer. -/
theorem unsigned?_signed (h : Literal cs n) {sign : Sign} (hsign : sign ≠ .absent) :
    unsigned? (sign.chars ++ cs) = none := by
  rw [unsigned?, if_pos (h.underscoresOk_eq sign)]
  cases sign with
  | absent => exact absurd rfl hsign
  | plus => rfl
  | minus => rfl

/-- With or without a sign a literal is read as the number it writes, if that fits. -/
theorem signed?_eq (h : Literal cs n) (sign : Sign) :
    signed? (sign.chars ++ cs) =
      if -2 ^ 63 ≤ sign.apply n ∧ sign.apply n < 2 ^ 63 then some (sign.apply n)
      else none := by
  have hunsigned : unsignedLimit = 2 ^ 64 := rfl
  have hsigned : signedLimit = 2 ^ 63 := rfl
  rw [signed?, h.splitSign_eq sign]
  simp only [h.unsigned?_eq]
  by_cases hn : n < unsignedLimit
  · rw [if_pos hn]
    cases sign with
    | minus =>
        simp only [Sign.apply, decide_true, if_true]
        congr 1
        exact propext (by omega)
    | _ =>
        simp only [Sign.apply, reduceCtorEq, decide_false, Bool.false_eq_true, if_false]
        congr 1
        exact propext (by omega)
  · rw [if_neg hn, if_neg]
    cases sign <;> simp only [Sign.apply] <;> omega

end Literal

/-! ## Literals that look like fractions -/

/-- The text of a hexadecimal literal without sign. -/
def IsHexadecimal (cs : List Char) : Prop :=
  ∃ mark run ds, cs = '0' :: mark :: run ∧ (mark = 'x' ∨ mark = 'X') ∧
    DigitRun 16 run ds ∧ ds ≠ []

theorem DigitRun.not_mem
    {base : Nat} {cs : List Char} {ds : List Nat} (h : DigitRun base cs ds) {c : Char}
    (hunderscore : c ≠ '_') (hvalue : Digits.value? base c = none) : c ∉ cs := by
  intro hc
  rcases h.mem hc with rfl | ⟨d, hd⟩
  · exact hunderscore rfl
  · rw [hd.value?_eq] at hvalue
    cases hvalue

/-- A run of hexadecimal digits has no binary exponent. -/
theorem DigitRun.not_exponent
    {cs : List Char} {ds : List Nat} (h : DigitRun 16 cs ds) {c : Char} (hc : c ∈ cs) :
    c ≠ 'p' ∧ c ≠ 'P' := by
  constructor
  · rintro rfl
    exact h.not_mem (by decide) rfl hc
  · rintro rfl
    exact h.not_mem (by decide) rfl hc

namespace Literal

variable {cs : List Char} {n : Nat}

/-- Letters are digits of a hexadecimal literal, or else mark another base. -/
theorem isHexadecimal_or (h : Literal cs n) :
    IsHexadecimal cs ∨ ∀ c ∈ cs, c.isDigit = true ∨ c ∈ ['_', 'o', 'O', 'b', 'B'] := by
  have hlow : ∀ {base run ds}, DigitRun base run ds → base ≤ 10 →
      ∀ c ∈ run, c.isDigit = true ∨ c ∈ ['_', 'o', 'O', 'b', 'B'] := by
    intro base run ds hrun hle c hc
    rcases hrun.mem hc with rfl | ⟨d, hd⟩
    · exact .inr List.mem_cons_self
    · exact .inl (hd.isDigit hle)
  cases h with
  | decimal hc hd hrun => exact .inr (hlow (.digit hc hrun) (Nat.le_refl 10))
  | octal hrun =>
      exact .inr (List.forall_mem_cons.mpr ⟨.inl rfl, hlow hrun (by decide)⟩)
  | @based mark base run ds hmark hrun hds =>
      rcases hmark.cases with ⟨rfl, hx⟩ | ⟨rfl, rfl | rfl⟩ | ⟨rfl, rfl | rfl⟩
      · exact .inl ⟨mark, run, ds, rfl, hx, hrun, hds⟩
      all_goals
        refine .inr (List.forall_mem_cons.mpr ⟨.inl rfl, ?_⟩)
        exact List.forall_mem_cons.mpr ⟨.inr (by decide), hlow hrun (by decide)⟩

/-- Only a hexadecimal literal can show what looks like an exponent. -/
theorem isHexadecimal_of_showsFraction
    (h : Literal cs n) {sign : Sign}
    (hshows : Number.showsFraction (sign.chars ++ cs) = true) : IsHexadecimal cs := by
  rcases h.isHexadecimal_or with hhex | hplain
  · exact hhex
  · obtain ⟨c, hc, hfraction⟩ := List.any_eq_true.mp hshows
    exfalso
    have hdigit : c.isDigit = true ∨ c ∈ ['_', 'o', 'O', 'b', 'B', '+', '-'] := by
      rcases List.mem_append.mp hc with hc | hc
      · right
        cases sign <;> simp_all [Sign.chars]
      · rcases hplain c hc with hc | hc
        · exact .inl hc
        · right
          simp only [List.mem_cons, List.not_mem_nil, or_false] at hc ⊢
          tauto
    simp only [Bool.or_eq_true, decide_eq_true_eq] at hfraction
    rcases hfraction with (((rfl | rfl) | rfl) | rfl) | rfl <;> revert hdigit <;> decide

theorem not_imaginary (h : Literal cs n) (sign : Sign) : 'i' ∉ sign.chars ++ cs := by
  rw [List.mem_append, not_or]
  constructor
  · cases sign <;> decide
  · rcases h.isHexadecimal_or with ⟨mark, run, ds, rfl, hmark, hrun, _⟩ | hplain
    · have hrun := hrun.not_mem (c := 'i') (by decide) rfl
      rcases hmark with rfl | rfl <;> simp [hrun]
    · intro hi
      exact absurd (hplain 'i' hi) (by decide)

/-- A hexadecimal literal without exponent is no floating-point number. -/
theorem read?_of_isHexadecimal (h : Literal cs n) (hhex : IsHexadecimal cs) (sign : Sign) :
    Real.read? (sign.chars ++ cs) = none := by
  have hmagnitude : Real.magnitude? (cs.filter (· != '_')) = none := by
    obtain ⟨mark, run, ds, rfl, hmark, hrun, _⟩ := hhex
    have hsplit : Real.splitAt? (fun c => c = 'p' || c = 'P')
        (run.filter (· != '_')) = none := by
      apply Real.splitAt?_eq_none
      intro c hc
      simp [hrun.not_exponent (List.mem_filter.mp hc).1]
    rcases hmark with rfl | rfl <;>
      simp [Real.magnitude?, Real.hexadecimal?, hsplit]
  simp [Real.read?, h.underscoresOk_eq sign, h.splitSign_eq sign, hmagnitude]

theorem dropWhile_sign (h : Literal cs n) (sign : Sign) :
    (sign.chars ++ cs).dropWhile (fun c => c == '+' || c == '-') = cs := by
  have hsign : ∀ c ∈ sign.chars, (c == '+' || c == '-') = true :=
    List.all_eq_true.mp (by cases sign <;> rfl)
  obtain ⟨c, rest, rfl, hc⟩ := h.head
  rw [List.dropWhile_append_of_pos hsign, List.dropWhile_cons, if_neg (not_sign_of_isDigit hc)]

theorem isHexInteger_of_isHexadecimal
    (h : Literal cs n) (hhex : IsHexadecimal cs) {sign : Sign} {text : String}
    (htext : text.toList = sign.chars ++ cs) : isHexInteger text = true := by
  rw [isHexInteger, htext, h.dropWhile_sign sign]
  obtain ⟨mark, run, ds, rfl, hmark, hrun, hds⟩ := hhex
  cases run with
  | nil =>
      cases hrun
      exact absurd rfl hds
  | cons c run =>
      have hany : ((c :: run).any fun c => c == 'p' || c == 'P') = false := by
        rw [List.any_eq_false]
        intro c hc
        simp [hrun.not_exponent hc]
      rcases hmark with rfl | rfl <;> simp only [hany] <;> rfl

/-! ## Constants -/

section Constants

variable {sign : Sign} {text : String}

theorem ofText_eq (h : Literal cs n) (htext : text.toList = sign.chars ++ cs) :
    Number.ofText text = Number.ofReal text (sign.chars ++ cs) := by
  have hlast : ¬ (sign.chars ++ cs).getLast? = some 'i' :=
    fun hlast => h.not_imaginary sign (List.mem_of_getLast? hlast)
  simp only [Number.ofText, htext, if_neg hlast]

/-- A literal whose number fits 64 bits with a sign is the constant of that number. -/
theorem ofText_of_fits
    (h : Literal cs n) (htext : text.toList = sign.chars ++ cs)
    (hfits : -2 ^ 63 ≤ sign.apply n ∧ sign.apply n < 2 ^ 63) :
    ∃ uint, Number.ofText text = .ok (Number.ofInteger text (some (sign.apply n)) uint) := by
  have hsigned := h.signed?_eq sign
  rw [if_pos hfits] at hsigned
  refine ⟨unsigned? (sign.chars ++ cs), ?_⟩
  rw [h.ofText_eq htext]
  simp only [Number.ofReal, hsigned]

/-- A literal without sign whose number fits 64 bits without a sign only. -/
theorem ofText_of_unsigned
    (h : Literal cs n) (htext : text.toList = cs) (hlow : 2 ^ 63 ≤ n) (hhigh : n < 2 ^ 64) :
    Number.ofText text = .ok (Number.ofInteger text none (some n)) := by
  have hsigned : signed? cs = none := by
    refine (h.signed?_eq .absent).trans (if_neg ?_)
    simp only [Sign.apply]
    omega
  have hunsigned : unsigned? cs = some n := h.unsigned?_eq.trans (if_pos hhigh)
  have htext' : text.toList = Sign.absent.chars ++ cs := htext
  have hreal : Number.ofText text = Number.ofReal text cs := h.ofText_eq htext'
  simp only [hreal, Number.ofReal, hsigned, hunsigned]

/-- Every other literal has no constant: it is no integer, and it does not become a
floating-point number either. -/
theorem ofText_eq_error
    (h : Literal cs n) (htext : text.toList = sign.chars ++ cs)
    (hsigned : ¬ (-2 ^ 63 ≤ sign.apply n ∧ sign.apply n < 2 ^ 63))
    (hunsigned : sign = .absent → 2 ^ 64 ≤ n) :
    ∃ error, Number.ofText text = .error error := by
  have hint : signed? (sign.chars ++ cs) = none := (h.signed?_eq sign).trans (if_neg hsigned)
  have huint : unsigned? (sign.chars ++ cs) = none := by
    by_cases hsign : sign = .absent
    · subst hsign
      exact h.unsigned?_eq.trans (if_neg (Nat.not_lt.mpr (hunsigned rfl)))
    · exact h.unsigned?_signed hsign
  rw [h.ofText_eq htext]
  simp only [Number.ofReal, hint, huint]
  cases hread : Real.read? (sign.chars ++ cs) with
  | none => exact ⟨_, rfl⟩
  | some value =>
      -- Only a hexadecimal literal could show a fraction, but it has no such value.
      have hshows : ¬ Number.showsFraction (sign.chars ++ cs) = true := by
        intro hshows
        rw [h.read?_of_isHexadecimal (h.isHexadecimal_of_showsFraction hshows)] at hread
        cases hread
      exact ⟨_, if_neg hshows⟩

/-- The constant of a literal is typed as an integer, if it is one with a sign. -/
theorem kind_ofInteger
    (h : Literal cs n) (htext : text.toList = sign.chars ++ cs)
    (int : Option Int) (uint : Option Nat) :
    (Number.ofInteger text int uint).kind =
      if int.isSome then .ok .untypedInt
      else if uint.isSome then .error (.overflow text) else .ok .untypedInt := by
  have hfraction : (!isHexInteger text && !isCharacterText text &&
      Number.showsFraction text.toList) = false := by
    cases hshows : Number.showsFraction text.toList with
    | false => rw [Bool.and_false]
    | true =>
        rw [htext] at hshows
        rw [h.isHexInteger_of_isHexadecimal (h.isHexadecimal_of_showsFraction hshows) htext]
        rfl
  simp only [Number.kind, Number.ofInteger, Bool.true_and, hfraction, Bool.false_eq_true,
    if_false]
  rfl

end Constants

end Literal

end Integer

end TemplateTyping
