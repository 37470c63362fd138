import Mathlib.Data.List.Count
import Mathlib.Data.Nat.SuccPred
import Mathlib.Data.Prod.Lex
import Mathlib.Order.Interval.Set.Monotone
import TemplateTyping.Source.Location

/-!
# Places and offsets

The line and the column of an offset are found by two scans of the bytes before it.
Here they are compared with a walk through the text that takes one byte at a time: a
newline leads to the first column of the next line, any other byte to the next column.
Every step leads to a later place in the order of reading, and a place keeps saying
where the walk is: so many bytes after the start of its line.

The main statement is that places and offsets within a text determine one another.
Later offsets have later places, and the place of an offset is the only one that is
`column - 1` bytes after the start of its line, with no newline in between.
-/

namespace TemplateTyping

theorem length_sourceBytes (source : String) :
    (sourceBytes source).length = source.utf8ByteSize := rfl

namespace Location

/-! ## The order of reading -/

/-- Line and column, to be compared in this order. -/
def key (place : Location) : ℕ ×ₗ ℕ := toLex (place.line, place.column)

theorem key_injective : Function.Injective key := by
  rintro ⟨line, column⟩ ⟨line', column'⟩ h
  simpa [key] using h

/-- Places are ordered by their lines, and by their columns within a line. -/
instance : LinearOrder Location := LinearOrder.lift' key key_injective

theorem lt_iff {place later : Location} :
    place < later ↔
      place.line < later.line ∨ place.line = later.line ∧ place.column < later.column :=
  Prod.Lex.toLex_lt_toLex

/-! ## A walk through a text -/

/-- The place after one more byte. -/
def advance (place : Location) (byte : UInt8) : Location :=
  if byte = newline then ⟨place.line + 1, 1⟩ else ⟨place.line, place.column + 1⟩

theorem advance_newline (place : Location) :
    place.advance newline = ⟨place.line + 1, 1⟩ := if_pos rfl

theorem advance_of_ne {byte : UInt8} (h : byte ≠ newline) (place : Location) :
    place.advance byte = ⟨place.line, place.column + 1⟩ := if_neg h

theorem lt_advance (place : Location) (byte : UInt8) : place < place.advance byte := by
  by_cases h : byte = newline
  · subst h
    rw [advance_newline]
    exact lt_iff.mpr (.inl (Nat.lt_succ_self _))
  · rw [advance_of_ne h]
    exact lt_iff.mpr (.inr ⟨rfl, Nat.lt_succ_self _⟩)

/-- Both scans go on by one byte together. -/
theorem after_concat (before : List UInt8) (byte : UInt8) :
    after (before ++ [byte]) = (after before).advance byte := by
  by_cases h : byte = newline
  · subst h
    simp [after, advance_newline]
  · simp [after, advance_of_ne h, h]

theorem locate_zero (source : String) : locate source 0 = ⟨1, 1⟩ := by
  simp [locate, after]

/-- The place of the next offset is one step further on. -/
theorem exists_locate_succ {source : String} {offset : ℕ}
    (h : offset < source.utf8ByteSize) :
    ∃ byte, (sourceBytes source)[offset]? = some byte ∧
      locate source (offset + 1) = (locate source offset).advance byte := by
  rw [← length_sourceBytes] at h
  have hbyte := List.getElem?_eq_getElem h
  refine ⟨_, hbyte, ?_⟩
  rw [locate, List.take_add_one, hbyte]
  exact after_concat _ _

/-- From the end of the text on, the place does not change. -/
theorem locate_of_le {source : String} {offset : ℕ} (h : source.utf8ByteSize ≤ offset) :
    locate source offset = locate source source.utf8ByteSize := by
  rw [← length_sourceBytes] at h ⊢
  rw [locate, locate, List.take_of_length_le h, List.take_length]

/-- Since every step leads to a later place, so does every walk within the text. -/
theorem strictMonoOn_locate (source : String) :
    StrictMonoOn (locate source) (Set.Iic source.utf8ByteSize) := by
  apply strictMonoOn_Iic_of_lt_succ
  intro offset hoffset
  obtain ⟨byte, _, hstep⟩ := exists_locate_succ hoffset
  rw [Nat.succ_eq_succ, Nat.succ_eq_add_one, hstep]
  exact lt_advance _ byte

/-! ## Lines -/

/-- The offset at which a line starts, if the text has so many lines.  Lines count from
one: the first starts with the text, the second just after the first newline, and so on. -/
def lineStart? (bytes : List UInt8) : ℕ → Option ℕ
  | 0 => none
  | 1 => some 0
  | ended + 2 => (bytes.idxsOf newline)[ended]?.map (· + 1)

/-- The place is at the offset: `column - 1` bytes after the start of its line, with no
newline in between. -/
def IsAt (bytes : List UInt8) (place : Location) (offset : ℕ) : Prop :=
  ∃ start, lineStart? bytes place.line = some start ∧
    1 ≤ place.column ∧ start + (place.column - 1) = offset ∧
    ∀ i, start ≤ i → i < offset → bytes[i]? ≠ some newline

section Lines

variable {bytes : List UInt8}

theorem count_take_of_newline {i : ℕ} (h : bytes[i]? = some newline) :
    (bytes.take (i + 1)).count newline = (bytes.take i).count newline + 1 := by
  rw [List.take_add_one, h, Option.toList_some, List.count_append, List.count_singleton_self]

/-- The newlines before an offset are those before any earlier one, if there is none in
between. -/
theorem count_take_of_no_newline {start offset : ℕ} (hle : start ≤ offset)
    (h : ∀ i, start ≤ i → i < offset → bytes[i]? ≠ some newline) :
    (bytes.take offset).count newline = (bytes.take start).count newline := by
  induction offset, hle using Nat.le_induction with
  | base => rfl
  | succ offset hle ih =>
      have hnone : bytes[offset]?.toList.count newline = 0 := by
        rw [List.count_eq_zero, Option.mem_toList]
        exact h offset hle (Nat.lt_succ_self offset)
      rw [List.take_add_one, List.count_append, hnone, Nat.add_zero]
      exact ih fun i hstart hi => h i hstart (Nat.lt_succ_of_lt hi)

/-- After a newline starts the line whose number is one more than that of the newlines so
far. -/
theorem lineStart?_of_newline {offset : ℕ} (h : bytes[offset]? = some newline) :
    lineStart? bytes ((bytes.take offset).count newline + 2) = some (offset + 1) := by
  obtain ⟨hoffset, hbyte⟩ := List.getElem?_eq_some_iff.mp h
  have hbeq : (bytes[offset] == newline) = true := beq_iff_eq.mpr hbyte
  have hlt : bytes.countBefore newline offset < (bytes.idxsOf newline).length := by
    rw [List.length_idxsOf]
    exact List.countBefore_lt_count_of_lt_length_of_beq hbeq
  rw [← List.countBefore_eq_count_take, lineStart?, List.getElem?_eq_getElem hlt,
    List.getElem_idxOf_eq_idxOfNth, List.idxOfNth_countBefore_of_lt_length_of_beq hbeq,
    Option.map_some]

/-- Before the start of a line stand the newlines of all earlier lines. -/
theorem count_take_of_lineStart? {line start : ℕ} (h : lineStart? bytes line = some start) :
    (bytes.take start).count newline + 1 = line := by
  rcases line with _ | _ | ended
  · exact absurd h (Option.some_ne_none start).symm
  · cases h
    rfl
  · obtain ⟨i, hi, rfl⟩ := Option.map_eq_some_iff.mp h
    obtain ⟨hended, rfl⟩ := List.getElem?_eq_some_iff.mp hi
    rw [List.length_idxsOf] at hended
    have hlt := List.idxOfNth_lt_length_of_lt_count hended
    have hbyte : bytes[bytes.idxOfNth newline ended]? = some newline := by
      rw [List.getElem?_eq_getElem hlt, List.getElem_idxOfNth_eq]
    rw [List.getElem_idxOf_eq_idxOfNth, count_take_of_newline hbyte,
      ← List.countBefore_eq_count_take, List.countBefore_idxOfNth_of_lt_count hended]

end Lines

/-! ## The place of an offset -/

namespace IsAt

variable {bytes : List UInt8} {place place' : Location} {offset : ℕ}

theorem origin (bytes : List UInt8) : IsAt bytes ⟨1, 1⟩ 0 := by
  refine ⟨0, rfl, Nat.le_refl 1, rfl, ?_⟩
  intro i _ hi
  exact absurd hi (Nat.not_lt_zero i)

/-- The line counts the newlines before the offset. -/
theorem line_eq (h : place.IsAt bytes offset) :
    place.line = (bytes.take offset).count newline + 1 := by
  obtain ⟨start, hstart, _, rfl, hnone⟩ := h
  rw [count_take_of_no_newline (Nat.le_add_right _ _) hnone, count_take_of_lineStart? hstart]

/-- One step of the walk: the place after a byte is at the offset after it. -/
theorem advance {byte : UInt8} (h : place.IsAt bytes offset)
    (hbyte : bytes[offset]? = some byte) :
    (place.advance byte).IsAt bytes (offset + 1) := by
  by_cases hnewline : byte = newline
  · -- The next line starts here, since the place has counted all newlines up to this one.
    subst hnewline
    rw [advance_newline, h.line_eq]
    refine ⟨offset + 1, lineStart?_of_newline hbyte, Nat.le_refl 1, rfl, ?_⟩
    intro i hi hlt
    omega
  · obtain ⟨start, hstart, hcolumn, hoffset, hnone⟩ := h
    rw [advance_of_ne hnewline]
    refine ⟨start, hstart, Nat.le_add_left 1 _, by simp only; omega, ?_⟩
    intro i hi hlt
    rcases Nat.lt_or_eq_of_le (Nat.le_of_lt_succ hlt) with hlt | rfl
    · exact hnone i hi hlt
    · rw [hbyte]
      exact fun heq => hnewline (Option.some.inj heq)

/-- No two places are at one offset. -/
theorem unique (h : place.IsAt bytes offset) (h' : place'.IsAt bytes offset) :
    place = place' := by
  -- With the line its start is given, and with that the column.
  have hline : place.line = place'.line := h.line_eq.trans h'.line_eq.symm
  obtain ⟨start, hstart, hcolumn, hoffset, _⟩ := h
  obtain ⟨start', hstart', hcolumn', hoffset', _⟩ := h'
  rw [hline, hstart', Option.some.injEq] at hstart
  have hcolumns : place.column = place'.column := by omega
  exact key_injective (congrArg toLex (Prod.ext hline hcolumns))

end IsAt

/-- The place found for an offset is at this offset. -/
theorem isAt_locate {source : String} {offset : ℕ} (h : offset ≤ source.utf8ByteSize) :
    (locate source offset).IsAt (sourceBytes source) offset := by
  induction offset with
  | zero =>
      rw [locate_zero]
      exact .origin _
  | succ offset ih =>
      obtain ⟨byte, hbyte, hstep⟩ := exists_locate_succ h
      rw [hstep]
      exact (ih (Nat.le_of_succ_le h)).advance hbyte

/-- Places identify offsets.  Up to the end of a text, later offsets have later places, and
a place is at an offset exactly if it is found there; all offsets from the end on have the
place of the end. -/
theorem locate_identifies_offsets (source : String) :
    StrictMonoOn (locate source) (Set.Iic source.utf8ByteSize) ∧
    (∀ offset ≤ source.utf8ByteSize, ∀ place : Location,
      place.IsAt (sourceBytes source) offset ↔ locate source offset = place) ∧
    ∀ offset, source.utf8ByteSize ≤ offset →
      locate source offset = locate source source.utf8ByteSize := by
  refine ⟨strictMonoOn_locate source, ?_, fun offset => locate_of_le⟩
  intro offset hoffset place
  have hat := isAt_locate hoffset
  constructor
  · intro h
    exact hat.unique h
  · rintro rfl
    exact hat

/-- A text with characters of two bytes, an empty line and a newline at its end: the
newline at offset 2 comes before the empty line, offset 5 is inside of a character of the
third line, and offset 8, the end, is alone on the fourth one. -/
theorem locate_identifies_offsets_blank :
    "é\n\nλx\n".utf8ByteSize = 8 ∧
    locate "é\n\nλx\n" 2 < locate "é\n\nλx\n" 3 ∧
    IsAt (sourceBytes "é\n\nλx\n") ⟨3, 2⟩ 5 ∧
    IsAt (sourceBytes "é\n\nλx\n") ⟨4, 1⟩ 8 ∧
    locate "é\n\nλx\n" 99 = locate "é\n\nλx\n" 8 := by
  have hsize : "é\n\nλx\n".utf8ByteSize = 8 := by decide
  obtain ⟨hmono, hplace, hpast⟩ := locate_identifies_offsets "é\n\nλx\n"
  rw [hsize] at hmono hplace hpast
  refine ⟨hsize, hmono (by decide) (by decide) (by decide), ?_, ?_, hpast 99 (by decide)⟩
  · exact (hplace 5 (by decide) _).mpr (by decide)
  · exact (hplace 8 (by decide) _).mpr (by decide)

end Location

end TemplateTyping
