import TemplateTyping.Proofs.Tree.PipelineDerivation

/-!
# Reading a pipeline comes to an end

A reader may stop for two reasons that are no faults of the source: its depth does
not suffice, or it puts back the mark of the end.  Neither happens inside of an action.
A small logic for readers says so: a reader settles if from a cursor it reports a fault
of the source, or succeeds with a derivation of what it has found.

What a reader leaves is always a part of what it was given, so a token that was put
back is the one that was taken just before.  Every eight calls that are nested take a
token at least, so that the depth suffices.
-/

namespace TemplateTyping.TokenReader

theorem putBack_run {c : Cursor} {token : Token} (h : token.kind ≠ .eof) :
    putBack token c = .ok ((), c.restore token) := by
  simp only [putBack, if_neg h]
  rfl

/-! ## A logic for readers of tokens -/

/-- From a cursor the reader reports a fault of the source, or it succeeds, and its result and
the cursor that it leaves have a property. -/
inductive Settles {α : Type} (source : List Token) (reader : TokenReader α) (c : Cursor)
    (post : α → Cursor → Prop) : Prop
  | fault {fault : SyntaxFault} : reader c = .error (.fault fault) → ReportsPipe source fault →
      Settles source reader c post
  | ok {value : α} {c' : Cursor} : reader c = .ok (value, c') → post value c' →
      Settles source reader c post

namespace Settles

variable {α β : Type} {source : List Token} {reader : TokenReader α} {c c' : Cursor} {value : α}
  {token : Token} {post : α → Cursor → Prop} {post' : β → Cursor → Prop}

theorem pure (h : post value c) : Settles source (Pure.pure value) c post := .ok rfl h

/-- A reader that is known to succeed. -/
theorem bind_ok
    {next : α → TokenReader β} (hrun : reader c = .ok (value, c'))
    (hnext : Settles source (next value) c' post') : Settles source (reader >>= next) c post' := by
  have hbind : (reader >>= next) c = next value c' := by
    simp only [Bind.bind, StateT.bind, hrun, Except.bind]
  cases hnext with
  | fault hfault hreports => exact .fault (hbind.trans hfault) hreports
  | ok hok hpost => exact .ok (hbind.trans hok) hpost

theorem bind
    {next : α → TokenReader β} (hreader : Settles source reader c post)
    (hnext : ∀ value c', post value c' → Settles source (next value) c' post') :
    Settles source (reader >>= next) c post' := by
  cases hreader with
  | fault hrun hreports =>
      refine .fault ?_ hreports
      simp only [Bind.bind, StateT.bind, hrun, Except.bind]
  | ok hrun hpost => exact .bind_ok hrun (hnext _ _ hpost)

theorem mono
    (hreader : Settles source reader c post) {post' : α → Cursor → Prop}
    (h : ∀ value c', post value c' → post' value c') : Settles source reader c post' := by
  cases hreader with
  | fault hrun hreports => exact .fault hrun hreports
  | ok hrun hpost => exact .ok hrun (h _ _ hpost)

theorem fail {span : Span} {cause : SyntaxCause} (h : ReportsPipe source ⟨cause, span⟩) :
    Settles source (TokenReader.fail span cause) c post :=
  .fault rfl h

theorem unexpected (h : token ∈ source) (clause : Clause) :
    Settles source (TokenReader.unexpected token clause) c post :=
  .fail (.token h rfl)

/-- A token that was looked at may be taken. -/
theorem bind_peekNonSpace
    {reader : Token → TokenReader β}
    (h : ∀ token c', peekNonSpace c = .ok (token, c') → nextNonSpace c = .ok (token, c'.step) →
      next c' = .ok (token, c'.step) → Settles source (reader token) c' post') :
    Settles source (peekNonSpace >>= reader) c post' :=
  .bind_ok rfl (h _ _ rfl rfl rfl)

theorem bind_nextNonSpace
    {reader : Token → TokenReader β}
    (h : ∀ token c', nextNonSpace c = .ok (token, c') →
      Settles source (reader token) c' post') :
    Settles source (nextNonSpace >>= reader) c post' :=
  .bind_ok rfl (h _ _ rfl)

/-- A token other than the mark of the end can be put back. -/
theorem bind_putBack
    {reader : Unit → TokenReader β} (hkind : token.kind ≠ .eof)
    (h : Settles source (reader ()) (c.restore token) post') :
    Settles source (putBack token >>= reader) c post' :=
  .bind_ok (putBack_run hkind) h

theorem expectRightDelim (clause : Clause) (h : Enclosed source c) :
    Settles source (expectRightDelim clause) c fun _ c' =>
      ∃ token, nextNonSpace c = .ok (token, c') ∧ token.kind = .rightDelim := by
  refine .bind_nextNonSpace fun token c' hnext => ?_
  split
  · exact .unexpected (h.mem hnext) clause
  · rename_i hkind
    exact .pure ⟨token, hnext, Decidable.not_not.mp hkind⟩

theorem bind_literal
    {value : Except LiteralError α} {reader : α → TokenReader β} (hmem : token ∈ source)
    (herror : ∀ error, value = .error error → token.Misspells error)
    (h : ∀ result, value = .ok result → Settles source (reader result) c post') :
    Settles source (literal token value >>= reader) c post' := by
  cases value with
  | ok result => exact .bind_ok rfl (h result rfl)
  | error error =>
      have hfail : Settles source (TokenReader.fail (α := α) token.span (.literal error)) c
          fun _ _ => False := .fail (.literal hmem (herror error rfl))
      exact hfail.bind fun _ _ => False.elim

end Settles

/-! ## Pipelines -/

section Pipelines

variable {source : List Token} {c c₁ : Cursor}

theorem secondDeclaration_settles
    (clause : Clause) (first : Variable) {name : String} {second : Token}
    (hin : Enclosed source c₁.step) (hnext : next c₁ = .ok (second, c₁.step)) :
    Settles source (secondDeclaration clause first name) c₁ fun result c' =>
      result.2 = [first, declaredVariable second name] ∧
        ∃ sign, nextNonSpace c₁.step = .ok (sign, c') ∧ sign.kind = .sign result.1 := by
  refine .bind_ok hnext (.bind_peekNonSpace fun sign c₂ _ hsign hcurrent => ?_)
  split
  · rename_i hassign
    exact .bind_ok hcurrent (.pure ⟨rfl, sign, hsign, hassign⟩)
  · rename_i hdeclare
    exact .bind_ok hcurrent (.pure ⟨rfl, sign, hsign, hdeclare⟩)
  · exact .bind_ok hcurrent (.fail (.token (hin.mem hsign) rfl))
  · exact .unexpected (hin.mem hsign) clause

theorem declarations_settles (clause : Clause) (h : Enclosed source c) :
    Settles source (declarations clause) c fun result => Declares clause c result.1 result.2 := by
  refine .bind_ok rfl (.bind_peekNonSpace fun first c₁ hpeek hfirst hcurrent => ?_)
  dsimp only
  split
  · rename_i name hname
    have hin₁ := h.next hfirst (by simp [hname])
    refine .bind_ok hcurrent (.bind_peekNonSpace fun sign c₂ _ hsign hcurrent => ?_)
    split
    · rename_i hassign
      exact .bind_ok hcurrent (.pure (.one hfirst hname hsign hassign))
    · rename_i hdeclare
      exact .bind_ok hcurrent (.pure (.one hfirst hname hsign hdeclare))
    · rename_i hcomma
      have hmem := hin₁.mem hsign
      have hin₂ := hin₁.next hsign (by simp [hcomma])
      refine .bind_ok hcurrent ?_
      split
      · rename_i hclause
        refine .bind_peekNonSpace fun second c₃ hpeek hsecond hcurrent => ?_
        split
        · rename_i name' hname'
          have hin₃ := hin₂.next hsecond (by simp [hname'])
          refine (secondDeclaration_settles clause _ hin₃ hcurrent).mono ?_
          rintro ⟨isAssign, _⟩ c' ⟨rfl, last, hlast, hkind⟩
          exact .two hclause hfirst hname hsign hcomma hsecond hname' hlast hkind
        · rename_i hdelim
          exact .pure (.trailing hfirst hname hsign hcomma hpeek (.inl hdelim))
        · rename_i hparen
          exact .pure (.trailing hfirst hname hsign hcomma hpeek (.inr hparen))
        · exact .fail (.token hmem rfl)
      · exact .fail (.token hmem rfl)
    · exact .bind_ok rfl (.pure .unsigned)
  · exact .pure (.none hpeek)

theorem notExecutable?_cases
    {stage : Nat} {commands : List (Command Node)} {span : Span} {cause : SyntaxCause}
    (h : notExecutable? stage commands = some (span, cause)) :
    cause.isLiteral = false ∧ ∃ command ∈ commands, command.span = span := by
  induction commands generalizing stage with
  | nil => cases h
  | cons command commands ih =>
      obtain ⟨span', operands⟩ := command
      have hlater : ∀ stage, notExecutable? stage commands = some (span, cause) →
          cause.isLiteral = false ∧ ∃ command ∈ ⟨span', operands⟩ :: commands,
            command.span = span := by
        intro stage hstage
        obtain ⟨hcause, command, hmem, hspan⟩ := ih hstage
        exact ⟨hcause, command, List.mem_cons_of_mem _ hmem, hspan⟩
      cases operands with
      | nil => exact hlater _ h
      | cons first operands =>
          rw [notExecutable?] at h
          split at h
          · cases h
            exact ⟨rfl, _, List.mem_cons_self, rfl⟩
          · exact hlater _ h

/-- What is checked of a pipeline is known of its derivation. -/
theorem checkedPipe_settles
    {clause : Clause} {closer : TokenKind} {first : Token} {isAssign : Bool}
    {declared : List Variable} {commands : List (Command Node)} {c₂ c' : Cursor}
    (h : Enclosed source c) (hpeek : peekNonSpace c = .ok (first, c₁))
    (hdeclared : Declares clause c₁ isAssign declared c₂)
    (hcommands : DerivesPipe source (.commands closer commands) c₂ c') :
    Settles source
      (checkedPipe clause ⟨pipeSpan first.span.start commands, isAssign, declared, commands⟩) c'
        fun pipe => DerivesPipe source (.pipeline clause closer pipe) c := by
  have hmem : first ∈ source :=
    h.suffix.subset ((h.peek_reaches hpeek).2.leaves.suffix.subset List.mem_cons_self)
  cases commands with
  | nil => exact .fail (.missing hmem rfl)
  | cons command rest =>
      cases hcallable : notExecutable? 2 rest with
      | none =>
          have hpipe := DerivesPipe.pipeline h hpeek hdeclared hcommands (by simp) hcallable
          refine .ok ?_ hpipe
          simp only [checkedPipe, hcallable]
          rfl
      | some fault =>
          obtain ⟨span, cause⟩ := fault
          obtain ⟨hcause, other, hother, rfl⟩ := notExecutable?_cases hcallable
          refine .fault ?_ (.command hcommands (List.mem_cons_of_mem _ hother) hcause)
          simp only [checkedPipe, hcallable]
          rfl

theorem commandOf_settles {operands : List Node} (h : c.current ∈ source) :
    Settles source (commandOf operands) c fun command c' => c' = c ∧ ∃ first last,
      operands.head? = some first ∧ operands.getLast? = some last ∧
        command = ⟨first.span.join last.span, operands⟩ := by
  unfold commandOf
  split
  · rename_i first last hfirst hlast
    exact .pure ⟨rfl, first, last, hfirst, hlast, rfl⟩
  · exact .bind_ok rfl (.fail (.token h rfl))

theorem followingFields_settles
    {term : Node} (h : DerivesPipe source (.term (some term)) c c₁) :
    Settles source (followingFields term) c₁
      fun node => DerivesPipe source (.operand (some node)) c := by
  refine .bind_ok rfl ?_
  dsimp only
  split
  · exact .pure (.plain h)
  · rename_i hne
    have hfields : (c₁.pass isField).1 ≠ [] := fun hnil => hne (List.isEmpty_iff.mpr hnil)
    refine .bind_ok rfl ?_
    unfold withFields
    dsimp only
    split
    · exact .pure (.fields h hfields .field)
    · exact .pure (.fields h hfields .variable)
    · rename_i hfield hvariable
      split
      · exact .fail (.fields h rfl)
      · rename_i hconstant
        exact .pure (.fields h hfields (.chain hfield hvariable (by simpa using hconstant)))

end Pipelines

/-- The readers of pipelines settle inside of an action if their depth suffices for the
tokens. -/
structure SettlesWithin (source : List Token) (fuel : Nat) : Prop where
  pipeline : ∀ clause closer {c : Cursor}, Enclosed source c → 8 * c.tokens.length + 5 ≤ fuel →
    Settles source (pipelineWithin fuel clause closer) c
      fun pipe => DerivesPipe source (.pipeline clause closer pipe) c
  commands : ∀ clause closer {c : Cursor}, Enclosed source c → 8 * c.tokens.length + 4 ≤ fuel →
    Settles source (commandsWithin fuel clause closer) c
      fun commands => DerivesPipe source (.commands closer commands) c
  operands : ∀ {c : Cursor}, Enclosed source c → 8 * c.tokens.length + 3 ≤ fuel →
    Settles source (operandsWithin fuel) c
      fun operands => DerivesPipe source (.operands operands) c
  operand : ∀ {c : Cursor}, Enclosed source c → 8 * c.tokens.length + 2 ≤ fuel →
    Settles source (operandWithin fuel) c fun operand => DerivesPipe source (.operand operand) c
  term : ∀ {c : Cursor}, Enclosed source c → 8 * c.tokens.length + 1 ≤ fuel →
    Settles source (termWithin fuel) c fun term => DerivesPipe source (.term term) c

section Depth

variable {source : List Token} {fuel : Nat} (ih : SettlesWithin source fuel) {c : Cursor}
  (h : Enclosed source c)
include ih h

theorem pipelineWithin_settles
    (clause : Clause) (closer : TokenKind) (hfuel : 8 * c.tokens.length + 5 ≤ fuel + 1) :
    Settles source (pipelineWithin (fuel + 1) clause closer) c
      fun pipe => DerivesPipe source (.pipeline clause closer pipe) c := by
  refine .bind_peekNonSpace fun first c₁ hpeek _ _ => ?_
  have hpeeked := h.peek_leaves hpeek
  refine (declarations_settles clause (h.of_leaves hpeeked)).bind ?_
  rintro ⟨isAssign, declared⟩ c₂ hdeclared
  have hleaves := hpeeked.trans (hdeclared.leaves (h.of_leaves hpeeked))
  have hlength := hleaves.suffix.length_le
  refine (ih.commands clause closer (h.of_leaves hleaves) (by omega)).bind ?_
  intro commands c' hcommands
  exact checkedPipe_settles h hpeek hdeclared hcommands

theorem commandsWithin_settles
    (clause : Clause) (closer : TokenKind) (hfuel : 8 * c.tokens.length + 4 ≤ fuel + 1) :
    Settles source (commandsWithin (fuel + 1) clause closer) c
      fun commands => DerivesPipe source (.commands closer commands) c := by
  refine .bind_nextNonSpace fun token c₁ hnext => ?_
  have htoken := h.reaches hnext
  have hback := h.restore hnext
  have hlength : (c₁.restore token).tokens.length ≤ c.tokens.length :=
    htoken.leaves.suffix.length_le
  split
  · rename_i hcloser
    exact .pure (.closed h hnext hcloser)
  · split
    · rename_i hstarts
      refine .bind_putBack htoken.closes.ne_eof ?_
      refine (ih.operands hback (by omega)).bind fun operands c₂ hoperands => ?_
      have hshorter := hoperands.leaves.length_lt ⟨token, c₁.tokens, rfl, hstarts⟩
      have hin₂ := hback.of_leaves hoperands.leaves.toLeaves
      refine (commandOf_settles hin₂.current_mem).bind ?_
      rintro _ _ ⟨rfl, first, last, hfirst, hlast, rfl⟩
      refine (ih.commands clause closer hin₂ (by omega)).bind ?_
      intro commands c' hcommands
      exact .pure (.command h hnext hstarts hoperands hfirst hlast hcommands)
    · exact .unexpected (h.mem hnext) clause

theorem operandsWithin_settles (hfuel : 8 * c.tokens.length + 3 ≤ fuel + 1) :
    Settles source (operandsWithin (fuel + 1)) c
      fun operands => DerivesPipe source (.operands operands) c := by
  refine (ih.operand h (by omega)).bind fun operand c₁ hoperand => ?_
  have hrest := hoperand.leaves.toLeaves
  have hin₁ := h.of_leaves hrest
  refine .bind_ok rfl ?_
  split
  · rename_i hspace
    have hstep := hin₁.step_leaves (by simp [hspace])
    have hlength := hrest.suffix.length_le
    have hlength' := hstep.length_lt
    refine (ih.operands (hin₁.of_leaves hstep.toLeaves) (by omega)).bind ?_
    intro operands c' hoperands
    exact .pure (.more hoperand hspace hoperands)
  · rename_i hdelim
    exact .bind_putBack hin₁.closes.ne_eof (.pure (.last hoperand (.inl hdelim)))
  · rename_i hparen
    exact .bind_putBack hin₁.closes.ne_eof (.pure (.last hoperand (.inr hparen)))
  · rename_i hpipe
    exact .pure (.bar hoperand hpipe)
  · exact .unexpected hin₁.current_mem _

theorem operandWithin_settles (hfuel : 8 * c.tokens.length + 2 ≤ fuel + 1) :
    Settles source (operandWithin (fuel + 1)) c
      fun operand => DerivesPipe source (.operand operand) c := by
  refine (ih.term h (by omega)).bind fun term c₁ hterm => ?_
  cases term with
  | none => exact .pure (.absent hterm)
  | some term =>
      exact (followingFields_settles hterm).bind fun node c' hnode => .pure hnode

theorem termWithin_settles (hfuel : 8 * c.tokens.length + 1 ≤ fuel + 1) :
    Settles source (termWithin (fuel + 1)) c
      fun term => DerivesPipe source (.term term) c := by
  refine .bind_nextNonSpace fun token c₁ hnext => ?_
  have htoken := h.reaches hnext
  have hlength := htoken.leavesLess.length_lt
  have hmem := h.mem hnext
  dsimp only
  split
  · rename_i name hkind
    exact .pure (.atom h hnext (.identifier hkind))
  · rename_i hkind
    exact .pure (.atom h hnext (.dot hkind))
  · rename_i hkind
    exact .pure (.atom h hnext (.nil hkind))
  · rename_i name hkind
    exact .pure (.atom h hnext (.variable hkind))
  · rename_i name hkind
    exact .pure (.atom h hnext (.field hkind))
  · rename_i value hkind
    exact .pure (.atom h hnext (.bool hkind))
  · rename_i hkind
    exact .bind_literal hmem (fun _ => .character) fun number hnumber =>
      .pure (.atom h hnext (.character hkind hnumber))
  · rename_i hkind
    exact .bind_literal hmem (fun _ => .number) fun number hnumber =>
      .pure (.atom h hnext (.number hkind hnumber))
  · rename_i hkind
    exact .bind_literal hmem (fun _ => .string (.inl hkind)) fun value hvalue =>
      .pure (.atom h hnext (.string (.inl hkind) hvalue))
  · rename_i hkind
    exact .bind_literal hmem (fun _ => .string (.inr hkind)) fun value hvalue =>
      .pure (.atom h hnext (.string (.inr hkind) hvalue))
  · rename_i hkind
    have hin₁ := h.next hnext (by simp [hkind])
    refine (ih.pipeline .parenthesized .rightParen hin₁ (by omega)).bind fun pipe c' hpipe => ?_
    exact .bind_ok rfl (.pure (.paren h hnext hkind hpipe))
  · refine .bind_putBack htoken.closes.ne_eof (.pure (.empty h hnext ?_))
    -- Whatever starts an operand is taken by one of the other cases.
    unfold startsOperand
    split
    all_goals simp_all

end Depth

theorem settlesWithin (source : List Token) (fuel : Nat) : SettlesWithin source fuel := by
  induction fuel with
  | zero =>
      -- No list of tokens is short enough for readers without depth.
      constructor <;> intros <;> omega
  | succ fuel ih =>
      constructor
      · intro clause closer c h hfuel
        exact pipelineWithin_settles ih h clause closer hfuel
      · intro clause closer c h hfuel
        exact commandsWithin_settles ih h clause closer hfuel
      · intro c h hfuel
        exact operandsWithin_settles ih h hfuel
      · intro c h hfuel
        exact operandWithin_settles ih h hfuel
      · intro c h hfuel
        exact termWithin_settles ih h hfuel

/-- Reading a pipeline settles at the right delimiter of its action. -/
theorem pipeline_settles
    {source : List Token} {c : Cursor} (clause : Clause) (h : Enclosed source c) :
    Settles source (pipeline clause) c
      fun pipe => DerivesPipe source (.pipeline clause .rightDelim pipe) c := by
  refine .bind_ok rfl ((settlesWithin source c.fuel).pipeline clause .rightDelim h ?_)
  rw [Cursor.fuel_eq]
  omega

end TemplateTyping.TokenReader
