import TemplateTyping.Proofs.Token.Tiling

/-!
# Spans that lie in a source

A span lies in a source if its ends are in order, do not go beyond the source, and do
not fall inside of a character.  The spans of tokens do, since these stand in the
source, and so do the spans of the faults for which the lexer gives up.  These are
made from the place where the lexer stands and from places further on, or from where
an action or a comment has begun.
-/

namespace TemplateTyping

open Lexer

/-! ## Places and texts -/

/-- The span is a stretch of the source, between boundaries of characters. -/
structure Span.LiesIn (source : String) (span : Span) : Prop where
  ordered : span.start ≤ span.stop
  within : span.stop ≤ source.utf8ByteSize
  validStart : String.Pos.Raw.IsValid source ⟨span.start⟩
  validStop : String.Pos.Raw.IsValid source ⟨span.stop⟩

/-- The text stands in the source at the span. -/
def Span.Shows (source : String) (span : Span) (text : String) : Prop :=
  ∃ before after, source.toList = before ++ text.toList ++ after ∧
    span = ⟨textBytes before, textBytes before + textBytes text.toList⟩

section Source

variable {source : String} {before after : List Char}

/-- A source can be cut where a part of its characters ends. -/
theorem isValid_of_append (h : source.toList = before ++ after) :
    String.Pos.Raw.IsValid source ⟨textBytes before⟩ := by
  apply String.Pos.Raw.isValid_iff_exists_append.mpr
  refine ⟨String.ofList before, String.ofList after, ?_, ?_⟩
  · rw [← String.toList_inj, h]
    simp
  · rw [String.rawEndPos, ← textBytes_toList, String.toList_ofList]

/-- The characters before a place are determined by their number of bytes. -/
theorem eq_of_textBytes_eq
    {before' after' : List Char} (happend : before ++ after = before' ++ after')
    (hbytes : textBytes before = textBytes before') : before = before' := by
  have hnil : ∀ more : List Char, textBytes more = 0 → more = [] := by
    intro more hmore
    apply Decidable.byContradiction
    intro hne
    exact Nat.ne_of_gt (textBytes_pos hne) hmore
  rcases List.append_eq_append_iff.mp happend with ⟨more, rfl, _⟩ | ⟨more, rfl, _⟩
  · rw [textBytes_append] at hbytes
    rw [hnil more (by omega), List.append_nil]
  · rw [textBytes_append] at hbytes
    rw [hnil more (by omega), List.append_nil]

end Source

namespace Span

variable {source : String} {span span' : Span} {text text' : String}

theorem LiesIn.of_valid
    (hle : span.start ≤ span.stop)
    (hstart : String.Pos.Raw.IsValid source ⟨span.start⟩)
    (hstop : String.Pos.Raw.IsValid source ⟨span.stop⟩) : span.LiesIn source :=
  ⟨hle, hstop.le_rawEndPos, hstart, hstop⟩

theorem LiesIn.origin (source : String) : Span.origin.LiesIn source := by
  have hvalid : String.Pos.Raw.IsValid source ⟨0⟩ := isValid_of_append (List.nil_append _).symm
  exact .of_valid (Nat.le_refl 0) hvalid hvalid

theorem LiesIn.whole (source : String) : LiesIn source ⟨0, source.utf8ByteSize⟩ := by
  have hend : source.toList = source.toList ++ [] := (List.append_nil _).symm
  have hvalid := isValid_of_append hend
  rw [textBytes_toList] at hvalid
  exact .of_valid (Nat.zero_le _) (LiesIn.origin source).validStart hvalid

theorem LiesIn.join (h : span.LiesIn source) (h' : span'.LiesIn source) :
    (span.join span').LiesIn source := by
  refine .of_valid ?_ ?_ ?_
  · exact Nat.le_trans (Nat.min_le_left _ _) (Nat.le_trans h.ordered (Nat.le_max_left _ _))
  · rw [join_start]
    rcases Nat.le_total span.start span'.start with hle | hle
    · rw [Nat.min_eq_left hle]
      exact h.validStart
    · rw [Nat.min_eq_right hle]
      exact h'.validStart
  · rw [join_stop]
    rcases Nat.le_total span.stop span'.stop with hle | hle
    · rw [Nat.max_eq_right hle]
      exact h'.validStop
    · rw [Nat.max_eq_left hle]
      exact h.validStop

theorem Shows.liesIn (h : span.Shows source text) : span.LiesIn source := by
  obtain ⟨before, after, hsource, rfl⟩ := h
  refine .of_valid (Nat.le_add_right _ _) ?_ ?_
  · rw [List.append_assoc] at hsource
    exact isValid_of_append hsource
  · have hvalid := isValid_of_append hsource
    rwa [textBytes_append] at hvalid

/-- Texts that follow one another directly make up one text. -/
theorem Shows.join
    (h : span.Shows source text) (h' : span'.Shows source text')
    (hnext : span.stop = span'.start) :
    (span.join span').Shows source (text ++ text') := by
  obtain ⟨before, after, hsource, rfl⟩ := h
  obtain ⟨before', after', hsource', rfl⟩ := h'
  have hbefore : before ++ text.toList = before' := by
    apply eq_of_textBytes_eq
    · rw [← hsource, hsource', List.append_assoc]
    · rw [textBytes_append]
      exact hnext
  refine ⟨before, after', ?_, ?_⟩
  · rw [hsource', ← hbefore]
    simp
  · simp only [Span.join, Span.mk.injEq, String.toList_append, textBytes_append] at hnext ⊢
    omega

end Span

/-! ## Where the lexer stands -/

/-- The place stands in the source. -/
def Place.StandsIn (source : String) (place : Place) : Prop :=
  ∃ done, source.toList = done ++ place.rest ∧ textBytes done = place.offset

/-- A place is come to from another one by taking characters. -/
structure Place.LeadsTo (place later : Place) : Prop where
  offset_le : place.offset ≤ later.offset
  stands : ∀ source, place.StandsIn source → later.StandsIn source

namespace Place

variable {source : String} {place later : Place}

theorem StandsIn.valid (h : place.StandsIn source) :
    String.Pos.Raw.IsValid source ⟨place.offset⟩ := by
  obtain ⟨done, hsource, hbytes⟩ := h
  rw [← hbytes]
  exact isValid_of_append hsource

theorem LeadsTo.trans {middle : Place} (h : place.LeadsTo middle) (h' : middle.LeadsTo later) :
    place.LeadsTo later :=
  ⟨Nat.le_trans h.offset_le h'.offset_le, fun source hplace => h'.stands source (h.stands source hplace)⟩

theorem leadsTo_advance (place : Place) (count : Nat) : place.LeadsTo (place.advance count) where
  offset_le := Nat.le_add_right _ _
  stands := by
    rintro source ⟨done, hsource, hbytes⟩
    refine ⟨done ++ place.rest.take count, ?_, ?_⟩
    · rw [hsource, List.append_assoc, advance, List.take_append_drop]
    · rw [textBytes_append, hbytes]
      rfl

theorem leadsTo_afterDelim (place : Place) (length : Nat) (trims : Bool) :
    place.LeadsTo (Lexer.afterDelim place length trims) := by
  unfold Lexer.afterDelim
  split
  · exact (place.leadsTo_advance length).trans ((place.advance length).leadsTo_advance _)
  · exact place.leadsTo_advance length

theorem advance_add (place : Place) (first second : Nat) :
    place.advance (first + second) = (place.advance first).advance second := by
  simp [advance, List.take_add, Nat.add_assoc]

/-- The span from a place to a later one lies in the source. -/
theorem LeadsTo.liesIn (h : place.LeadsTo later) (hplace : place.StandsIn source) :
    Span.LiesIn source ⟨place.offset, later.offset⟩ :=
  .of_valid h.offset_le hplace.valid (h.stands source hplace).valid

theorem StandsIn.endOffset (h : place.StandsIn source) :
    place.endOffset = source.utf8ByteSize := by
  obtain ⟨done, hsource, hbytes⟩ := h
  rw [Place.endOffset, ← hbytes, ← textBytes_append, ← hsource, textBytes_toList]

end Place

/-- The lexer stands at a place of the source, in a mode that it may have there: an
action has begun before. -/
structure Lexer.Mode.StandsAt (source : String) (mode : Mode) (place : Place) : Prop where
  stands : place.StandsIn source
  action : ∀ start depth, mode = .action start depth →
    Span.LiesIn source ⟨start, place.offset⟩

namespace Lexer.Mode.StandsAt

variable {source : String} {place later : Place} {start depth depth' : Nat}

theorem text (h : place.StandsIn source) : StandsAt source .text place :=
  ⟨h, by simp⟩

/-- An action goes on further on. -/
theorem next
    (h : StandsAt source (.action start depth) place) (hlater : place.LeadsTo later) :
    StandsAt source (.action start depth') later := by
  have hstands := hlater.stands source h.stands
  have hlies := h.action start depth rfl
  refine ⟨hstands, ?_⟩
  rintro _ _ ⟨⟩
  exact .of_valid (Nat.le_trans hlies.ordered hlater.offset_le) hlies.validStart hstands.valid

end Lexer.Mode.StandsAt

/-! ## Steps of the lexer -/

/-- The fault of a stop lies in the source. -/
theorem Lexer.Stop.at_liesIn {source : String} (stop : Stop) {place : Place}
    (h : place.StandsIn source) : (stop.at place).span.LiesIn source := by
  have hskip := place.leadsTo_advance stop.skip
  have hcount := (place.advance stop.skip).leadsTo_advance stop.count
  rw [← Place.advance_add] at hcount
  exact hcount.liesIn (hskip.stands source h)

/-- What a step of the lexer comes to: a fault that lies in the source, or a place and a
mode from which it can go on. -/
def StepStands (source : String) : Except SyntaxFault Step → Prop
  | .error fault => fault.span.LiesIn source
  | .ok s => Mode.StandsAt source s.mode s.place

theorem stepComment_stands
    {source : String} (d : Delimiters) {opening inner : Place}
    (hopening : opening.StandsIn source) (hinner : opening.LeadsTo inner) :
    (∀ fault, stepComment d opening inner = .error fault → fault.span.LiesIn source) ∧
      ∀ token next, stepComment d opening inner = .ok (token, next) →
        next.StandsIn source := by
  have hstands := hinner.stands source hopening
  unfold stepComment
  split
  · refine ⟨?_, by simp⟩
    rintro _ ⟨⟩
    refine .of_valid ?_ hopening.valid ?_
    · exact Nat.le_trans hinner.offset_le (Nat.le_add_right _ _)
    · rw [hstands.endOffset]
      exact (Span.LiesIn.whole source).validStop
  · rename_i count _
    have hclosing := hinner.trans (inner.leadsTo_advance (count + 4))
    dsimp only
    split
    · refine ⟨?_, by simp⟩
      rintro _ ⟨⟩
      exact hclosing.liesIn hopening
    · rename_i length trims _
      refine ⟨by simp, ?_⟩
      rintro _ _ ⟨⟩
      exact (hclosing.trans (Place.leadsTo_afterDelim _ length trims)).stands source hopening

theorem stepText_stands
    {source : String} (d : Delimiters) {place : Place} (h : place.StandsIn source)
    (count : Nat) : StepStands source (stepText d place count) := by
  have hopening := (place.leadsTo_advance count).stands source h
  unfold stepText
  dsimp only
  generalize (if trimsLeft _ = true then d.left.length + markerLength
    else d.left.length) = length
  have hinner := (place.advance count).leadsTo_advance length
  split
  · obtain ⟨hfault, hnext⟩ := stepComment_stands d hopening hinner
    split
    · rename_i fault hcomment
      exact hfault fault hcomment
    · rename_i token next hcomment
      exact .text (hnext token next hcomment)
  · refine ⟨hinner.stands source hopening, ?_⟩
    rintro _ _ ⟨⟩
    exact hinner.liesIn hopening

theorem stepAction_stands
    {source : String} (d : Delimiters) {start depth : Nat} {place : Place}
    (h : Mode.StandsAt source (.action start depth) place) (c : Char) (cs : List Char) :
    StepStands source (stepAction d start depth place c cs) := by
  unfold stepAction
  split
  · rename_i length trims _
    split
    · exact .text ((place.leadsTo_afterDelim length trims).stands source h.stands)
    · exact h.action start depth rfl
  · split
    · rename_i stop _
      exact stop.at_liesIn h.stands
    · rename_i kind more _
      dsimp only
      split
      · exact h.next (place.leadsTo_advance _)
      · exact Stop.at_liesIn _ h.stands
      · exact h.next (place.leadsTo_advance _)
      · exact h.next (place.leadsTo_advance _)

/-- One step of the lexer reports a fault that lies in the source, or leads on in it. -/
theorem step_stands
    {source : String} (d : Delimiters) {mode : Mode} {place : Place}
    (h : Mode.StandsAt source mode place) :
    (∀ fault, step d mode place = .error fault → fault.span.LiesIn source) ∧
      ∀ s, step d mode place = .ok (.inr s) → Mode.StandsAt source s.mode s.place := by
  have hmapped : ∀ outcome : Except SyntaxFault Step, StepStands source outcome →
      (∀ fault, outcome.map Sum.inr = (.error fault : Except SyntaxFault (List Token ⊕ Step)) →
        fault.span.LiesIn source) ∧
      ∀ s, outcome.map Sum.inr = (.ok (.inr s) : Except SyntaxFault (List Token ⊕ Step)) →
        Mode.StandsAt source s.mode s.place := by
    intro outcome houtcome
    cases outcome with
    | error fault =>
        refine ⟨?_, by simp [Except.map]⟩
        rintro _ ⟨⟩
        exact houtcome
    | ok s =>
        refine ⟨by simp [Except.map], ?_⟩
        rintro _ ⟨⟩
        exact houtcome
  unfold step
  split
  · simp
  · split
    · simp
    · rename_i count _
      exact hmapped _ (stepText_stands d h.stands count)
  · refine ⟨?_, by simp⟩
    rintro _ ⟨⟩
    exact h.action _ _ rfl
  · rename_i c cs _
    exact hmapped _ (stepAction_stands d h c cs)

/-- The faults of all steps together lie in the source. -/
theorem tokensFrom_liesIn
    {source : String} {d : Delimiters} {mode : Mode} {place : Place}
    (h : Mode.StandsAt source mode place) {fault : SyntaxFault}
    (hfault : tokensFrom d mode place = .error fault) : fault.span.LiesIn source := by
  fun_induction tokensFrom d mode place with
  | case1 mode place fault' hstep =>
      cases hfault
      exact (step_stands d h).1 fault hstep
  | case2 mode place tokens hstep => cases hfault
  | case3 mode place s hstep _ ih =>
      apply ih ((step_stands d h).2 s hstep)
      cases htokens : tokensFrom d s.mode s.place with
      | error fault' =>
          rw [htokens] at hfault
          cases hfault
          rfl
      | ok tokens =>
          rw [htokens] at hfault
          cases hfault

/-- A source that cannot be cut into tokens has a fault that lies in it. -/
theorem tokenize_liesIn
    {d : Delimiters} {source : String} {fault : SyntaxFault}
    (h : tokenize d source = .error fault) : fault.span.LiesIn source :=
  tokensFrom_liesIn (.text ⟨[], rfl, rfl⟩) h

end TemplateTyping
