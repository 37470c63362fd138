import TemplateTyping.Proofs.Tree.Derivation
import TemplateTyping.Proofs.Tree.Settling

/-!
# Every source is read to its end

The readers of trees do what derivations say.  They use the set of templates for nothing but
to add trees to it, so what they do is given by the trees that they complete and by their
outcome.  A logic for them speaks of both: a reader settles if from a cursor it reports a
fault of the source, or succeeds with a derivation of what it has found.

Hence a source is either read into a set of templates or refused for a fault of its
own; the reader never stops for lack of depth, and it never puts back the mark of the
end.
-/

namespace TemplateTyping

/-! ## Readers of tokens that succeed -/

namespace TokenReader

variable {c : Cursor}

theorem peekNonSpace_of_ne (h : c.current.kind ≠ .space) :
    peekNonSpace c = .ok (c.current, c) := by
  have hrun : peekNonSpace c =
      .ok ((c.pass (· == .space)).2.current, (c.pass (· == .space)).2) := rfl
  rw [hrun, Cursor.pass_eq_self (by simpa using h)]

theorem nextNonSpace_of_ne (h : c.current.kind ≠ .space) :
    nextNonSpace c = .ok (c.current, c.step) := by
  have hrun : nextNonSpace c =
      .ok ((c.pass (· == .space)).2.current, (c.pass (· == .space)).2.step) := rfl
  rw [hrun, Cursor.pass_eq_self (by simpa using h)]

end TokenReader

/-! ## Trees with their places -/

namespace TemplateSet

/-- Adds a tree that was completed; a refusal is a fault at its place. -/
def defineAt (set : TemplateSet) (completed : Tree × Span) : Except Halt TemplateSet :=
  match set.define? completed.1 with
  | some set' => .ok set'
  | none => .error (.fault ⟨.multipleDefinition completed.1.name, completed.2⟩)

theorem foldlM_defineAt_cons
    {set set' : TemplateSet} {first : Tree × Span} {completed : List (Tree × Span)}
    (h : (first :: completed).foldlM defineAt set = .ok set') :
    ∃ middle, set.define? first.1 = some middle ∧ completed.foldlM defineAt middle = .ok set' := by
  rw [List.foldlM_cons, defineAt] at h
  cases hfirst : set.define? first.1 with
  | none =>
      rw [hfirst] at h
      cases h
  | some middle =>
      rw [hfirst] at h
      exact ⟨middle, rfl, h⟩

theorem foldlM_defineAt_append
    {set set' : TemplateSet} {first second : List (Tree × Span)}
    (h : (first ++ second).foldlM defineAt set = .ok set') :
    ∃ middle, first.foldlM defineAt set = .ok middle ∧
      second.foldlM defineAt middle = .ok set' := by
  rw [List.foldlM_append] at h
  cases hfirst : first.foldlM defineAt set with
  | error halt =>
      rw [hfirst] at h
      cases h
  | ok middle =>
      rw [hfirst] at h
      exact ⟨middle, rfl, h⟩

/-- Whatever a set has is there from the start, or it was added. -/
theorem mem_of_foldlM_defineAt
    {set set' : TemplateSet} {completed : List (Tree × Span)} {name : String} {tree : Tree}
    (h : completed.foldlM defineAt set = .ok set') (htree : set'.get? name = some tree) :
    set.get? name = some tree ∨ tree.name = name ∧ ∃ span, (tree, span) ∈ completed := by
  induction completed generalizing set with
  | nil =>
      cases h
      exact .inl htree
  | cons first completed ih =>
      obtain ⟨middle, hfirst, hrest⟩ := foldlM_defineAt_cons h
      rcases ih hrest with hmiddle | ⟨hname, span, hmem⟩
      · rcases define?_cases hfirst with ⟨rfl, -⟩ | ⟨rfl, -⟩
        · exact .inl hmiddle
        · rw [put, NameMap.get?_insert] at hmiddle
          split at hmiddle
          · rename_i hname
            cases hmiddle
            exact .inr ⟨hname.symm, first.2, List.mem_cons_self⟩
          · exact .inl hmiddle
      · exact .inr ⟨hname, span, List.mem_cons_of_mem _ hmem⟩

/-- A tree is refused at its own place. -/
theorem fault_of_foldlM_defineAt
    {set : TemplateSet} {completed : List (Tree × Span)} {halt : Halt}
    (h : completed.foldlM defineAt set = .error halt) :
    ∃ entry ∈ completed, halt = .fault ⟨.multipleDefinition entry.1.name, entry.2⟩ := by
  induction completed generalizing set with
  | nil => cases h
  | cons first completed ih =>
      rw [List.foldlM_cons, defineAt] at h
      cases hset : set.define? first.1 with
      | none =>
          rw [hset] at h
          exact ⟨first, List.mem_cons_self, (Except.error.inj h).symm⟩
      | some middle =>
          rw [hset] at h
          obtain ⟨entry, hentry, hhalt⟩ := ih h
          exact ⟨entry, List.mem_cons_of_mem _ hentry, hhalt⟩

end TemplateSet

/-! ## The trees that a reader completes -/

namespace TreeReader

variable {α β : Type}

theorem bind_run
    (reader : TreeReader α) (next : α → TreeReader β) (set : TemplateSet) (c : Cursor) :
    (reader >>= next) set c =
      (reader set c).bind fun result => next result.1.1 result.1.2 result.2 :=
  rfl

/-- From a cursor on the reader completes trees and comes to an outcome, whatever set it adds the
trees to; it stops early only if the set refuses one of them. -/
def Completes
    (reader : TreeReader α) (c : Cursor) (completed : List (Tree × Span))
    (outcome : Except Halt (α × Cursor)) : Prop :=
  ∀ set : TemplateSet, reader set c = (completed.foldlM TemplateSet.defineAt set).bind fun set' =>
    outcome.map fun result => ((result.1, set'), result.2)

namespace Completes

variable {reader : TreeReader α} {next : α → TreeReader β} {c c' : Cursor}
  {first second : List (Tree × Span)}

theorem bind_ok
    {value : α} {outcome : Except Halt (β × Cursor)}
    (h : reader.Completes c first (.ok (value, c')))
    (hnext : (next value).Completes c' second outcome) :
    (reader >>= next).Completes c (first ++ second) outcome := by
  intro set
  rw [bind_run, h set, List.foldlM_append]
  cases first.foldlM TemplateSet.defineAt set with
  | error halt => rfl
  | ok set' => exact hnext set'

/-- After a failure nothing more is completed. -/
theorem bind_error {halt : Halt} (h : reader.Completes c first (.error halt)) :
    (reader >>= next).Completes c first (.error halt) := by
  intro set
  rw [bind_run, h set]
  cases first.foldlM TemplateSet.defineAt set with
  | error halt => rfl
  | ok set' => rfl

theorem lift {reader : TokenReader α} {outcome : Except Halt (α × Cursor)}
    (h : reader c = outcome) : (liftM reader : TreeReader α).Completes c [] outcome := by
  intro set
  have hrun : (liftM reader : TreeReader α) set c =
      (reader c).bind fun result => .ok ((result.1, set), result.2) := rfl
  rw [hrun, h]
  cases outcome with
  | error halt => rfl
  | ok result => rfl

theorem of_ok
    {outcome : Except Halt (α × Cursor)} {set set' : TemplateSet} {value : α}
    (h : reader.Completes c first outcome) (hrun : reader set c = .ok ((value, set'), c')) :
    first.foldlM TemplateSet.defineAt set = .ok set' ∧ outcome = .ok (value, c') := by
  rw [h set] at hrun
  cases hset : first.foldlM TemplateSet.defineAt set with
  | error halt =>
      rw [hset] at hrun
      cases hrun
  | ok middle =>
      rw [hset] at hrun
      cases outcome with
      | error halt => cases hrun
      | ok result =>
          cases hrun
          exact ⟨rfl, rfl⟩

/-- A reader fails because the set refuses a tree, or for its own outcome. -/
theorem of_error
    {outcome : Except Halt (α × Cursor)} {set : TemplateSet} {halt : Halt}
    (h : reader.Completes c first outcome) (hrun : reader set c = .error halt) :
    (∃ entry ∈ first, halt = .fault ⟨.multipleDefinition entry.1.name, entry.2⟩) ∨
      outcome = .error halt := by
  rw [h set] at hrun
  cases hset : first.foldlM TemplateSet.defineAt set with
  | error refusal =>
      rw [hset] at hrun
      cases hrun
      exact .inl (TemplateSet.fault_of_foldlM_defineAt hset)
  | ok middle =>
      rw [hset] at hrun
      cases outcome with
      | error halt =>
          cases hrun
          exact .inr rfl
      | ok result => cases hrun

theorem define (tree : Tree) (span : Span) :
    (define tree span).Completes c [(tree, span)] (.ok ((), c)) := by
  intro set
  rw [define_apply, List.foldlM_cons, TemplateSet.defineAt]
  cases set.define? tree with
  | none => rfl
  | some set' => rfl

end Completes

/-! ## A logic for readers of trees -/

/-- From a cursor the reader reports a fault of the source, or it succeeds, and its result,
the trees that it completes and the cursor that it leaves have a property.  The trees may be
refused, which is a fault of the source as well. -/
inductive Settles (origin : Origin) (source : List Token) (reader : TreeReader α) (c : Cursor)
    (post : α → List (Tree × Span) → Cursor → Prop) : Prop
  | fault {completed : List (Tree × Span)} {fault : SyntaxFault} :
      reader.Completes c completed (.error (.fault fault)) →
      (∀ entry ∈ completed, Reports origin source ⟨.multipleDefinition entry.1.name, entry.2⟩) →
      Reports origin source fault → Settles origin source reader c post
  | ok {completed : List (Tree × Span)} {value : α} {c' : Cursor} :
      reader.Completes c completed (.ok (value, c')) →
      (∀ entry ∈ completed, Reports origin source ⟨.multipleDefinition entry.1.name, entry.2⟩) →
      post value completed c' → Settles origin source reader c post

namespace Settles

variable {origin : Origin} {source : List Token} {c c' : Cursor} {value : α} {token : Token}
  {reader : TreeReader α} {next : α → TreeReader β} {post : α → List (Tree × Span) → Cursor → Prop}
  {post' : β → List (Tree × Span) → Cursor → Prop}

/-- A reader that neither fails nor completes a tree. -/
theorem ret (hrun : ∀ set, reader set c = .ok ((value, set), c')) (h : post value [] c') :
    Settles origin source reader c post := by
  have hcompletes : reader.Completes c [] (.ok (value, c')) := hrun
  exact .ok hcompletes (by simp) h

theorem bind
    (hreader : Settles origin source reader c post)
    (hnext : ∀ value completed c', post value completed c' →
      Settles origin source (next value) c' fun result later => post' result (completed ++ later)) :
    Settles origin source (reader >>= next) c post' := by
  cases hreader with
  | fault hrun hentries hfault => exact .fault hrun.bind_error hentries hfault
  | ok hrun hentries hpost =>
      cases hnext _ _ _ hpost with
      | fault hrun' hentries' hfault =>
          have hboth := List.forall_mem_append.mpr ⟨hentries, hentries'⟩
          exact .fault (hrun.bind_ok hrun') hboth hfault
      | ok hrun' hentries' hpost' =>
          have hboth := List.forall_mem_append.mpr ⟨hentries, hentries'⟩
          exact .ok (hrun.bind_ok hrun') hboth hpost'

/-- What comes next neither fails nor completes a tree. -/
theorem bind_ret
    (hreader : Settles origin source reader c post)
    (hnext : ∀ value completed c', post value completed c' →
      ∃ result c'', (∀ set, next value set c' = .ok ((result, set), c'')) ∧
        post' result completed c'') :
    Settles origin source (reader >>= next) c post' := by
  refine hreader.bind fun value completed c' hpost => ?_
  obtain ⟨result, c'', hrun, hpost'⟩ := hnext value completed c' hpost
  refine .ret hrun ?_
  rwa [List.append_nil]

theorem mono
    (hreader : Settles origin source reader c post)
    {post' : α → List (Tree × Span) → Cursor → Prop}
    (h : ∀ value completed c', post value completed c' → post' value completed c') :
    Settles origin source reader c post' := by
  cases hreader with
  | fault hrun hentries hfault => exact .fault hrun hentries hfault
  | ok hrun hentries hpost => exact .ok hrun hentries (h _ _ _ hpost)

/-- A reader that settles uses the set for nothing but to add trees to it. -/
theorem completes (h : Settles origin source reader c post) :
    ∃ completed outcome, reader.Completes c completed outcome := by
  cases h with
  | fault hcompletes | ok hcompletes => exact ⟨_, _, hcompletes⟩

/-- What a reader that settles has found and completed when it succeeds. -/
theorem of_run
    (h : Settles origin source reader c post) {set set' : TemplateSet}
    (hrun : reader set c = .ok ((value, set'), c')) :
    ∃ completed, completed.foldlM TemplateSet.defineAt set = .ok set' ∧
      post value completed c' := by
  cases h with
  | fault hcompletes => cases (hcompletes.of_ok hrun).2
  | ok hcompletes _ hpost =>
      obtain ⟨hset, ⟨⟩⟩ := hcompletes.of_ok hrun
      exact ⟨_, hset, hpost⟩

/-- A reader that settles stops for a fault of the source. -/
theorem reports_of_run
    (h : Settles origin source reader c post) {set : TemplateSet} {halt : Halt}
    (hrun : reader set c = .error halt) :
    ∃ fault, halt = .fault fault ∧ Reports origin source fault := by
  cases h with
  | fault hcompletes hentries hfault =>
      rcases hcompletes.of_error hrun with ⟨entry, hentry, rfl⟩ | ⟨⟨⟩⟩
      · exact ⟨_, rfl, hentries entry hentry⟩
      · exact ⟨_, rfl, hfault⟩
  | ok hcompletes hentries =>
      rcases hcompletes.of_error hrun with ⟨entry, hentry, rfl⟩ | ⟨⟨⟩⟩
      exact ⟨_, rfl, hentries entry hentry⟩

/-- A reader of tokens that is known to succeed. -/
theorem bind_ok
    {reader : TokenReader α} (hrun : reader c = .ok (value, c'))
    (hnext : Settles origin source (next value) c' post') :
    Settles origin source (liftM reader >>= next) c post' := by
  have hlift := Completes.lift hrun
  cases hnext with
  | fault hrun' hentries hfault => exact .fault (hlift.bind_ok hrun') hentries hfault
  | ok hrun' hentries hpost => exact .ok (hlift.bind_ok hrun') hentries hpost

/-- A reader of tokens that settles. -/
theorem bind_lift
    {reader : TokenReader α} {left : α → Cursor → Prop}
    (hreader : TokenReader.Settles source reader c left)
    (hnext : ∀ value c', left value c' → Settles origin source (next value) c' post') :
    Settles origin source (liftM reader >>= next) c post' := by
  cases hreader with
  | fault hrun hfault => exact .fault (Completes.lift hrun).bind_error (by simp) (.pipe hfault)
  | ok hrun hleft => exact .bind_ok hrun (hnext _ _ hleft)

theorem fail {span : Span} {cause : SyntaxCause} (h : Reports origin source ⟨cause, span⟩) :
    Settles origin source (liftM (TokenReader.fail (α := α) span cause)) c post :=
  .fault (.lift rfl) (by simp) h

theorem define
    {tree : Tree} {span : Span}
    (h : Reports origin source ⟨.multipleDefinition tree.name, span⟩) :
    Settles origin source (define tree span) c fun _ completed c' =>
      completed = [(tree, span)] ∧ c' = c :=
  .ok (.define tree span) (List.forall_mem_singleton.mpr h) ⟨rfl, rfl⟩

theorem bind_nextNonSpace
    {next : Token → TreeReader β}
    (hnext : ∀ token c', TokenReader.nextNonSpace c = .ok (token, c') →
      Settles origin source (next token) c' post') :
    Settles origin source (liftM TokenReader.nextNonSpace >>= next) c post' :=
  .bind_ok rfl (hnext _ _ rfl)

theorem bind_templateName
    (htoken : token ∈ source) (clause : Clause) {next : String → TreeReader β}
    (hnext : ∀ name, token.NamesTemplate name → Settles origin source (next name) c post') :
    Settles origin source (templateName token clause >>= next) c post' := by
  have hliteral : token.kind = .string ∨ token.kind = .rawString →
      Settles origin source
        (liftM (TokenReader.literal token (Quotation.string token.text)) >>= next) c post' := by
    intro hkind
    cases hvalue : Quotation.string token.text with
    | ok name => exact .bind_ok rfl (hnext name ⟨hkind, hvalue⟩)
    | error error =>
        have hfault := ReportsPipe.literal htoken (.string hkind hvalue)
        exact .fault (Completes.lift rfl).bind_error (by simp) (.pipe hfault)
  unfold TreeReader.templateName
  split
  · rename_i hkind
    exact hliteral (.inl hkind)
  · rename_i hkind
    exact hliteral (.inr hkind)
  · exact .fault (Completes.lift rfl).bind_error (by simp) (.pipe (.token htoken rfl))

end Settles

/-! ## Actions -/

section Actions

variable {origin : Origin} {source : List Token} {start : Nat} {c c₁ : Cursor} {token : Token}
  (hin : InAction source start c) (hnext : TokenReader.nextNonSpace c = .ok (token, c₁))
include hin hnext

theorem jumpNode_settles
    (inRange : Bool) {keyword : JumpKeyword} (hkind : token.kind = .keyword (.jump keyword)) :
    Settles origin source (jumpNode inRange start token keyword) c₁
      fun node => Derives origin source (.action inRange start (.node node)) c := by
  have hrest := hin.next hnext (by simp [hkind])
  refine .bind_lift (.expectRightDelim _ hrest.toEnclosed) ?_
  rintro ⟨⟩ c₂ ⟨closing, hclosing, hdelim⟩
  cases inRange with
  | true => exact .ret (fun _ => rfl) (.jump hin hnext hkind hclosing hdelim)
  | false => exact .fail (.pipe (.token (hin.mem hnext) rfl))

theorem elseItem_settles (inRange : Bool) (hkind : token.kind = .keyword .elseKeyword) :
    Settles origin source (elseItem start) c₁
      fun item => Derives origin source (.action inRange start item) c := by
  have hrest := hin.next hnext (by simp [hkind])
  refine .bind_ok rfl ?_
  split
  · rename_i hkeyword
    exact .ret (fun _ => rfl) (.elseOpen hin hnext hkind rfl hkeyword)
  · rename_i hkeyword
    exact .ret (fun _ => rfl) (.elseOpen hin hnext hkind rfl hkeyword)
  · have hpeeked := hrest.of_leaves (hrest.peek_leaves rfl)
    refine .bind_lift (.expectRightDelim _ hpeeked.toEnclosed) ?_
    rintro ⟨⟩ c₃ ⟨closing, hclosing, hdelim⟩
    exact .ret (fun _ => rfl) (.elseClause hin hnext hkind rfl hclosing hdelim)

theorem templateNode_settles (inRange : Bool) (hkind : token.kind = .keyword .template) :
    Settles origin source (templateNode start) c₁
      fun node => Derives origin source (.action inRange start (.node node)) c := by
  have hrest := hin.next hnext (by simp [hkind])
  refine .bind_nextNonSpace fun first c₂ hfirst => ?_
  refine .bind_templateName (hrest.mem hfirst) _ fun name hname => ?_
  have hlater := hrest.next hfirst hname.ne_rightDelim
  refine .bind_nextNonSpace fun next c₃ hargument => ?_
  split
  · rename_i hdelim
    exact .ret (fun _ => rfl) (.invocation hin hnext hkind hfirst hname hargument hdelim)
  · refine .bind_ok (TokenReader.putBack_run (hlater.reaches hargument).closes.ne_eof) ?_
    refine .bind_lift (TokenReader.pipeline_settles _ (hlater.restore hargument).toEnclosed) ?_
    intro argument c₄ hread
    exact .ret (fun _ => rfl) (.invocationWith hin hnext hkind hfirst hname hargument hread)

end Actions

/-! ## Bodies and branches -/

/-- The readers of trees do what derivations say if their depth suffices for the tokens. -/
structure SettlesWithin (origin : Origin) (source : List Token) (fuel : Nat) : Prop where
  body : ∀ inRange {c : Cursor}, Leaves OpensBody source c.tokens →
    8 * c.tokens.length + 3 ≤ fuel → Settles origin source (bodyWithin fuel origin inRange) c
      fun result => Derives origin source (.body inRange result.1 result.2) c
  nodes : ∀ inRange {c : Cursor}, Leaves OpensBody source c.tokens →
    8 * c.tokens.length + 2 ≤ fuel → Settles origin source (nodesWithin fuel origin inRange) c
      fun result => Derives origin source (.nodes inRange result.1 result.2) c
  item : ∀ inRange {c : Cursor}, Leaves OpensBody source c.tokens → c.current.kind ≠ .eof →
    8 * c.tokens.length + 1 ≤ fuel → Settles origin source (itemWithin fuel origin inRange) c
      fun item => Derives origin source (.item inRange item) c
  action : ∀ inRange start {c : Cursor}, InAction source start c →
    8 * c.tokens.length + 1 ≤ fuel →
    Settles origin source (actionWithin fuel origin inRange start) c
      fun item => Derives origin source (.action inRange start item) c
  branch : ∀ inRange start keyword {c : Cursor}, InAction source start c →
    8 * c.tokens.length + 1 ≤ fuel →
    Settles origin source (branchWithin fuel origin inRange start keyword) c
      fun branch => Derives origin source (.branch inRange start keyword branch) c
  otherwise : ∀ inRange keyword {c : Cursor}, Leaves OpensBody source c.tokens →
    8 * c.tokens.length + 4 ≤ fuel →
    Settles origin source (otherwiseWithin fuel origin inRange keyword) c
      fun body => Derives origin source (.otherwise inRange keyword body) c
  block : ∀ inRange start {c : Cursor}, InAction source start c →
    8 * c.tokens.length + 1 ≤ fuel →
    Settles origin source (blockWithin fuel origin inRange start) c
      fun node => Derives origin source (.block inRange start node) c

section Depth

variable {origin : Origin} {source : List Token} {fuel : Nat}
  (ih : SettlesWithin origin source fuel) (inRange : Bool) {c : Cursor}
include ih

theorem bodyWithin_settles
    (h : Leaves OpensBody source c.tokens) (hfuel : 8 * c.tokens.length + 3 ≤ fuel + 1) :
    Settles origin source (bodyWithin (fuel + 1) origin inRange) c
      fun result => Derives origin source (.body inRange result.1 result.2) c := by
  refine .bind_ok rfl ((ih.nodes inRange h (by omega)).bind_ret ?_)
  rintro ⟨nodes, ending⟩ completed c' hnodes
  exact ⟨_, _, fun _ => rfl, .body h hnodes⟩

theorem nodesWithin_settles
    (h : Leaves OpensBody source c.tokens) (hfuel : 8 * c.tokens.length + 2 ≤ fuel + 1) :
    Settles origin source (nodesWithin (fuel + 1) origin inRange) c
      fun result => Derives origin source (.nodes inRange result.1 result.2) c := by
  refine .bind_ok (TokenReader.peekNonSpace_of_ne h.holds.ne_space) ?_
  split
  · exact .fail (.pipe (.token (h.suffix.subset List.mem_cons_self) rfl))
  · rename_i hkind
    refine (ih.item inRange h hkind (by omega)).bind fun item completed c₁ hitem => ?_
    cases item with
    | node node =>
        have hless : LeavesLess (Closes false) c.tokens c₁.tokens := hitem.leaves
        have hlength := hless.length_lt
        have hopens : Leaves OpensBody source c₁.tokens :=
          h.trans ⟨hless.suffix, .outside hless.holds⟩
        refine (ih.nodes inRange hopens (by omega)).bind_ret ?_
        rintro ⟨nodes, ending⟩ later c₂ hnodes
        exact ⟨_, _, fun _ => rfl, .node h hitem hnodes⟩
    | elseItem span =>
        refine .ret (fun _ => rfl) ?_
        rw [List.append_nil]
        exact .elseEnding h hitem
    | endItem span =>
        refine .ret (fun _ => rfl) ?_
        rw [List.append_nil]
        exact .endEnding h hitem

theorem itemWithin_settles
    (h : Leaves OpensBody source c.tokens) (hkind : c.current.kind ≠ .eof)
    (hfuel : 8 * c.tokens.length + 1 ≤ fuel + 1) :
    Settles origin source (itemWithin (fuel + 1) origin inRange) c
      fun item => Derives origin source (.item inRange item) c := by
  refine .bind_ok (TokenReader.nextNonSpace_of_ne h.holds.ne_space) ?_
  split
  · rename_i htext
    exact .ret (fun _ => rfl) (.text h htext)
  · rename_i hcomment
    exact .ret (fun _ => rfl) (.comment h hcomment)
  · rename_i hdelim
    have hafter := h.holds.after_leftDelim hdelim
    have hlength := (h.holds.step hkind hafter).length_lt
    exact (ih.action inRange _ (h.inAction hkind hafter) (by omega)).mono
      fun item completed c' hitem => .action h hdelim hitem
  · exact .fail (.pipe (.token (h.suffix.subset List.mem_cons_self) rfl))

theorem actionWithin_settles
    {start : Nat} (hin : InAction source start c)
    (hfuel : 8 * c.tokens.length + 1 ≤ fuel + 1) :
    Settles origin source (actionWithin (fuel + 1) origin inRange start) c
      fun item => Derives origin source (.action inRange start item) c := by
  refine .bind_nextNonSpace fun token c₁ hnext => ?_
  have hlength := (hin.reaches hnext).leavesLess.length_lt
  split
  · rename_i hkind
    refine (ih.block inRange start (hin.next hnext (by simp [hkind])) (by omega)).bind_ret ?_
    intro node completed c' hnode
    exact ⟨_, _, fun _ => rfl, .blockNode hin hnext hkind hnode⟩
  · rename_i hkind
    exact (jumpNode_settles hin hnext inRange hkind).bind_ret fun node completed c' hnode =>
      ⟨_, _, fun _ => rfl, hnode⟩
  · rename_i hkind
    exact elseItem_settles hin hnext inRange hkind
  · rename_i hkind
    have hrest := hin.next hnext (by simp [hkind])
    refine .bind_lift (.expectRightDelim _ hrest.toEnclosed) ?_
    rintro ⟨⟩ c₂ ⟨closing, hclosing, hdelim⟩
    exact .ret (fun _ => rfl) (.endClause hin hnext hkind hclosing hdelim)
  · rename_i keyword hkind
    refine (ih.branch inRange start keyword (hin.next hnext (by simp [hkind]))
      (by omega)).bind_ret ?_
    intro branch completed c' hbranch
    exact ⟨_, _, fun _ => rfl, .branchNode hin hnext hkind hbranch⟩
  · rename_i hkind
    exact (templateNode_settles hin hnext inRange hkind).bind_ret fun node completed c' hnode =>
      ⟨_, _, fun _ => rfl, hnode⟩
  · refine .bind_ok (TokenReader.putBack_run (hin.reaches hnext).closes.ne_eof) ?_
    refine .bind_lift (TokenReader.pipeline_settles _ (hin.restore hnext).toEnclosed) ?_
    intro pipe c₂ hpipe
    exact .ret (fun _ => rfl) (.command hin hnext hpipe)

theorem branchWithin_settles
    {start : Nat} (keyword : BranchKeyword) (hin : InAction source start c)
    (hfuel : 8 * c.tokens.length + 1 ≤ fuel + 1) :
    Settles origin source (branchWithin (fuel + 1) origin inRange start keyword) c
      fun branch => Derives origin source (.branch inRange start keyword branch) c := by
  refine .bind_lift (TokenReader.pipeline_settles _ hin.toEnclosed) fun pipe c₁ hpipe => ?_
  have hrest : LeavesLess (Closes false) c.tokens c₁.tokens := hpipe.leaves
  have hlength := hrest.length_lt
  have hopens := hin.opensBody hrest
  refine (ih.body _ hopens (by omega)).bind ?_
  rintro ⟨body, ending⟩ completed c₂ hbody
  cases ending with
  | endEnding =>
      refine .ret (fun _ => rfl) ?_
      rw [List.append_nil]
      exact .branchEnd hin hpipe hbody
  | elseEnding span =>
      have hless : LeavesLess OpensBody c₁.tokens c₂.tokens := hbody.leaves
      have hlength' := hless.length_lt
      refine (ih.otherwise inRange keyword (hopens.trans hless.toLeaves) (by omega)).bind_ret ?_
      intro otherwise later c₃ hotherwise
      exact ⟨_, _, fun _ => rfl, .branchElse hin hpipe hbody hotherwise⟩

theorem otherwiseWithin_settles
    (keyword : BranchKeyword) (h : Leaves OpensBody source c.tokens)
    (hfuel : 8 * c.tokens.length + 4 ≤ fuel + 1) :
    Settles origin source (otherwiseWithin (fuel + 1) origin inRange keyword) c
      fun body => Derives origin source (.otherwise inRange keyword body) c := by
  refine .bind_ok rfl ?_
  split
  · rename_i hcontinues
    have hkind : c.current.kind = .keyword (.branch keyword) :=
      eq_of_beq (Bool.and_eq_true_iff.mp hcontinues).2
    have hne : c.current.kind ≠ .eof := by simp [hkind]
    have hafter := h.holds.after_keyword hkind
    have hlength := (h.holds.step hne hafter).length_lt
    refine .bind_ok rfl ((ih.branch inRange _ keyword (h.inAction hne hafter)
      (by omega)).bind_ret ?_)
    intro nested completed c' hnested
    exact ⟨_, _, fun _ => rfl, .continued h hcontinues hnested⟩
  · refine (ih.body inRange h (by omega)).bind ?_
    rintro ⟨body, ending⟩ completed c' hbody
    cases ending with
    | endEnding =>
        refine .ret (fun _ => rfl) ?_
        rw [List.append_nil]
        exact .otherwise hbody
    | elseEnding span => exact .fail (.ending hbody rfl)

theorem blockWithin_settles
    {start : Nat} (hin : InAction source start c)
    (hfuel : 8 * c.tokens.length + 1 ≤ fuel + 1) :
    Settles origin source (blockWithin (fuel + 1) origin inRange start) c
      fun node => Derives origin source (.block inRange start node) c := by
  refine .bind_nextNonSpace fun token c₁ hnext => ?_
  refine .bind_templateName (hin.mem hnext) _ fun name hname => ?_
  have hrest := hin.next hnext hname.ne_rightDelim
  refine .bind_lift (TokenReader.pipeline_settles _ hrest.toEnclosed) ?_
  intro argument c₂ hargument
  have hlater : LeavesLess (Closes false) c₁.tokens c₂.tokens := hargument.leaves
  have hlength := (hin.reaches hnext).leavesLess.length_lt
  have hlength' := hlater.length_lt
  have hopens := hrest.opensBody hlater
  refine .bind_ok rfl ((ih.body inRange hopens (by omega)).bind ?_)
  rintro ⟨body, ending⟩ completed c₃ hbody
  cases ending with
  | elseEnding span => exact .fail (.ending hbody rfl)
  | endEnding =>
      have hblock : Derives origin source (.block inRange start _) c _ c₃ :=
        .block hin hnext hname hargument hbody
      have hrefused := Reports.refused hblock (List.mem_append_right _ (List.mem_singleton_self _))
      refine .bind_ok rfl ((Settles.define hrefused).bind_ret ?_)
      rintro _ _ c₃ ⟨rfl, rfl⟩
      exact ⟨_, _, fun _ => rfl, hblock⟩

end Depth

theorem settlesWithin (origin : Origin) (source : List Token) (fuel : Nat) :
    SettlesWithin origin source fuel := by
  induction fuel with
  | zero => constructor <;> intros <;> omega
  | succ fuel ih =>
      constructor
      · intro inRange c h hfuel
        exact bodyWithin_settles ih inRange h hfuel
      · intro inRange c h hfuel
        exact nodesWithin_settles ih inRange h hfuel
      · intro inRange c h hkind hfuel
        exact itemWithin_settles ih inRange h hkind hfuel
      · intro inRange start c h hfuel
        exact actionWithin_settles ih inRange h hfuel
      · intro inRange start keyword c h hfuel
        exact branchWithin_settles ih inRange keyword h hfuel
      · intro inRange keyword c h hfuel
        exact otherwiseWithin_settles ih inRange keyword h hfuel
      · intro inRange start c h hfuel
        exact blockWithin_settles ih inRange h hfuel

/-! ## The whole source -/

section TopLevel

variable {origin : Origin} {source : List Token} {c : Cursor}

theorem definition_settles {start : Nat} (hin : InAction source start c) :
    Settles origin source (definition origin start) c
      fun _ => Derives origin source (.definition start) c := by
  refine .bind_nextNonSpace fun token c₁ hnext => ?_
  refine .bind_templateName (hin.mem hnext) _ fun name hname => ?_
  have hrest := hin.next hnext hname.ne_rightDelim
  refine .bind_lift (.expectRightDelim _ hrest.toEnclosed) ?_
  rintro ⟨⟩ c₂ ⟨closing, hclosing, hdelim⟩
  have hlater := hrest.closed hclosing hdelim
  have hopens := hrest.opensBody hlater
  have hfuel : 8 * c₂.tokens.length + 3 ≤ c₂.fuel := by
    rw [c₂.fuel_eq]
    omega
  refine .bind_ok rfl (((settlesWithin origin source c₂.fuel).body false hopens hfuel).bind ?_)
  rintro ⟨body, ending⟩ completed c₃ hbody
  cases ending with
  | elseEnding span => exact .fail (.ending hbody rfl)
  | endEnding =>
      have hdefinition : Derives origin source (.definition start) c _ c₃ :=
        .definition hin hnext hname hclosing hdelim hbody
      have hrefused :=
        Reports.refused hdefinition (List.mem_append_right _ (List.mem_singleton_self _))
      refine .bind_ok rfl ((Settles.define hrefused).mono ?_)
      rintro _ _ c₃ ⟨rfl, rfl⟩
      exact hdefinition

/-- A definition is recognized by its first two tokens; otherwise the cursor is left where it
stands. -/
theorem definitionStart?_settles
    (h : Leaves OpensBody source c.tokens) (hkind : c.current.kind ≠ .eof) :
    Settles origin source definitionStart? c fun start completed c' =>
      completed = [] ∧ (start = none ∧ c' = c ∨
        start = some c.current.span.start ∧ c.current.kind = .leftDelim ∧
          ∃ token, TokenReader.nextNonSpace c.step = .ok (token, c') ∧
            token.kind = .keyword .define) := by
  refine .bind_ok rfl (.bind_ok rfl ?_)
  split
  · rename_i hdelim
    have hin := h.inAction hkind (h.holds.after_leftDelim hdelim)
    refine .bind_nextNonSpace fun token c₁ hnext => ?_
    split
    · rename_i hdefine
      exact .ret (fun _ => rfl) ⟨rfl, .inr ⟨rfl, hdelim, token, hnext, hdefine⟩⟩
    · exact .ret (fun _ => rfl) ⟨rfl, .inl ⟨rfl, rfl⟩⟩
  · exact .ret (fun _ => rfl) ⟨rfl, .inl ⟨rfl, rfl⟩⟩

theorem topLevelWithin_settles
    (fuel : Nat) (h : Leaves (Closes false) source c.tokens) (hfuel : c.tokens.length < fuel) :
    Settles origin source (topLevelWithin fuel origin) c
      fun nodes => Derives origin source (.topLevel nodes) c := by
  induction fuel generalizing c with
  | zero => omega
  | succ fuel ih =>
      refine .bind_ok rfl ?_
      split
      · rename_i hkind
        exact .ret (fun _ => rfl) (.eof h hkind)
      · rename_i hkind
        have hopens : Leaves OpensBody source c.tokens := ⟨h.suffix, .outside h.holds⟩
        refine (definitionStart?_settles hopens hkind).bind ?_
        rintro _ _ c₁ ⟨rfl, ⟨rfl, rfl⟩ | ⟨rfl, hdelim, token, hnext, hdefine⟩⟩ <;>
          simp only [List.nil_append]
        · have hitem : 8 * c₁.tokens.length + 1 ≤ c₁.fuel := by
            rw [c₁.fuel_eq]
            omega
          refine .bind_ok rfl (((settlesWithin origin source c₁.fuel).item false hopens hkind
            hitem).bind ?_)
          intro item completed c₂ hitem
          cases item with
          | elseItem span => exact .fail (.outside hitem rfl)
          | endItem span => exact .fail (.outside hitem rfl)
          | node node =>
              have hless : LeavesLess (Closes false) c₁.tokens c₂.tokens := hitem.leaves
              have hlength := hless.length_lt
              refine (ih (h.trans hless.toLeaves) (by omega)).bind_ret ?_
              intro nodes later c₃ hnodes
              exact ⟨_, _, fun _ => rfl, .topLevelNode hitem hnodes⟩
        · have hafter := hopens.holds.after_leftDelim hdelim
          have hless := hopens.holds.step hkind hafter
          have hin := hopens.inAction hkind hafter
          refine (definition_settles (hin.next hnext (by simp [hdefine]))).bind ?_
          intro _ completed c₂ hdefinition
          have hleft : LeavesLess (Closes false) c₁.tokens c₂.tokens := hdefinition.leaves
          have hrest := hless.trans
            (((hin.reaches hnext).next (by simp [hdefine])).toLeaves.trans hleft.toLeaves)
          have hlength := hrest.length_lt
          refine (ih (h.trans hrest.toLeaves) (by omega)).mono fun nodes later c₃ hnodes => ?_
          exact .define h hdelim hnext hdefine hdefinition hnodes

theorem templates_settles (origin : Origin) (h : Leaves (Closes false) source c.tokens) :
    Settles origin source (templates origin) c fun _ => Derives origin source .source c := by
  refine .bind_ok rfl ((topLevelWithin_settles c.fuel h c.length_lt_fuel).bind ?_)
  intro nodes completed c' hnodes
  have hsource : Derives origin source .source c _ c' := .source hnodes
  have hrefused := Reports.refused hsource (List.mem_append_right _ (List.mem_singleton_self _))
  refine (Settles.define hrefused).mono ?_
  rintro _ _ c' ⟨rfl, rfl⟩
  exact hsource

end TopLevel

end TreeReader

theorem Cursor.tokens_ofTokens {tokens : List Token} (h : tokens ≠ []) :
    (Cursor.ofTokens tokens).tokens = tokens := by
  obtain ⟨token, rest, rfl⟩ := List.exists_cons_of_ne_nil h
  rfl

theorem Cursor.leaves_ofTokens
    {d : Delimiters} {source : String} {tokens : List Token}
    (h : tokenize d source = .ok tokens) :
    Leaves (Closes false) tokens (Cursor.ofTokens tokens).tokens := by
  have hcloses := tokenize_closes h
  rw [Cursor.tokens_ofTokens hcloses.ne_nil]
  exact .refl hcloses

namespace TemplateSet

/-- A source that is read is derived, and its set holds the trees that are completed. -/
theorem derives_of_parse
    {d : Delimiters} {name source : String} {set : TemplateSet}
    (h : parse d name source = .ok set) :
    ∃ tokens completed c, tokenize d source = .ok tokens ∧
      Derives ⟨name, source⟩ tokens .source (Cursor.ofTokens tokens) completed c ∧
        completed.foldlM defineAt NameMap.empty = .ok set := by
  unfold parse at h
  split at h
  · rename_i tokens htokens
    unfold ofTokens at h
    split at h
    · rename_i value set' c hrun
      cases h
      have hsettles := TreeReader.templates_settles ⟨name, source⟩ (Cursor.leaves_ofTokens htokens)
      obtain ⟨completed, hset, hderives⟩ := hsettles.of_run hrun
      exact ⟨tokens, completed, c, htokens, hderives, hset⟩
    · cases h
  · cases h

/-- What holds of all trees with a body that is read holds of all trees of a source. -/
theorem forall_of_parse
    {d : Delimiters} {name source : String} {set : TemplateSet}
    (h : parse d name source = .ok set) :
    ∃ tokens, tokenize d source = .ok tokens ∧ ∀ p : Tree → Prop,
      (∀ {inRange template body c completed c'},
        Derives ⟨name, source⟩ tokens (.body inRange body .endEnding) c completed c' →
          p (Origin.tree ⟨name, source⟩ template body)) →
      (∀ {nodes c completed c'},
        Derives ⟨name, source⟩ tokens (.topLevel nodes) c completed c' →
          p (Origin.tree ⟨name, source⟩ name ⟨⟨0, source.utf8ByteSize⟩, nodes⟩)) →
      ∀ template tree, set.get? template = some tree → tree.name = template ∧ p tree := by
  obtain ⟨tokens, completed, c, htokens, hderives, hset⟩ := derives_of_parse h
  refine ⟨tokens, htokens, ?_⟩
  intro p hbody hsource template tree htree
  rcases mem_of_foldlM_defineAt hset htree with hempty | ⟨hname, span, hmem⟩
  · cases hempty
  · have hforall := hderives.forall_completed (p := fun tree _ => p tree)
      (fun _ _ hread => hbody hread) hsource
    exact ⟨hname, hforall (tree, span) hmem⟩

/-- A source is refused for a fault that the lexer or the readers of trees report. -/
theorem reports_of_parse
    {d : Delimiters} {name source : String} {halt : Halt}
    (h : parse d name source = .error halt) :
    ∃ fault, halt = .fault fault ∧ (tokenize d source = .error fault ∨
      ∃ tokens, tokenize d source = .ok tokens ∧ Reports ⟨name, source⟩ tokens fault) := by
  unfold parse at h
  split at h
  · rename_i tokens htokens
    unfold ofTokens at h
    split at h
    · cases h
    · rename_i halt' hrun
      obtain rfl := Except.error.inj h
      have hsettles := TreeReader.templates_settles ⟨name, source⟩ (Cursor.leaves_ofTokens htokens)
      obtain ⟨fault, rfl, hfault⟩ := hsettles.reports_of_run hrun
      exact ⟨fault, rfl, .inr ⟨tokens, htokens, hfault⟩⟩
  · rename_i fault hfault
    exact ⟨fault, (Except.error.inj h).symm, .inl hfault⟩

end TemplateSet

/-- A token that is taken and put back comes next again, unless it marks the end. -/
theorem TokenReader.putBack_next
    {c : Cursor} (h : c.later ≠ []) (hkind : c.current.kind ≠ .eof) :
    (next >>= putBack) c = .ok ((), { c with lastEnd := c.current.span.stop }) := by
  have hrun : (next >>= putBack) c = putBack c.current c.step := rfl
  rw [hrun, putBack_run hkind, c.restore_step h]

/-- Reading ends for every source and all delimiters: either with a set of templates or
with a fault of the source, so that a depth given by the number of tokens suffices and
the mark of the end is never put back.  At every other token of the source, putting it
back undoes taking it. -/
theorem TemplateSet.parse_settles (d : Delimiters) (name source : String) :
    ((∃ set, TemplateSet.parse d name source = .ok set) ∨
      ∃ fault, TemplateSet.parse d name source = .error (.fault fault)) ∧
    ∀ tokens, tokenize d source = .ok tokens →
      ∀ c : Cursor, c.tokens <:+ tokens → c.current.kind ≠ .eof →
        (TokenReader.next >>= TokenReader.putBack) c =
          .ok ((), { c with lastEnd := c.current.span.stop }) := by
  constructor
  · cases hparse : TemplateSet.parse d name source with
    | ok set => exact .inl ⟨set, rfl⟩
    | error halt =>
        obtain ⟨fault, rfl, -⟩ := TemplateSet.reports_of_parse hparse
        exact .inr ⟨fault, rfl⟩
  · intro tokens htokens c hsuffix hkind
    apply TokenReader.putBack_next _ hkind
    intro hlater
    apply hkind
    apply (tokenize_closes htokens).kind_of_suffix
    rwa [Cursor.tokens, hlater] at hsuffix

/-- Taking the field of an action and putting it back. -/
theorem TemplateSet.parse_settles_field :
    ∃ tokens, tokenize .standard "\x7b\x7b.X\x7d\x7d" = .ok tokens ∧
      ∃ c : Cursor, c.tokens <:+ tokens ∧ c.current.kind = .field "X" ∧
        (TokenReader.next >>= TokenReader.putBack) c = .ok ((), { c with lastEnd := 4 }) := by
  have htokens : tokenize .standard "\x7b\x7b.X\x7d\x7d" = .ok
      [⟨.leftDelim, ⟨0, 2⟩, "\x7b\x7b"⟩, ⟨.field "X", ⟨2, 4⟩, ".X"⟩,
        ⟨.rightDelim, ⟨4, 6⟩, "\x7d\x7d"⟩, ⟨.eof, ⟨6, 6⟩, ""⟩] := by
    exact Except.eq_ok_of_toOption (by decide +kernel)
  let c : Cursor :=
    { current := ⟨.field "X", ⟨2, 4⟩, ".X"⟩
      later := [⟨.rightDelim, ⟨4, 6⟩, "\x7d\x7d"⟩, ⟨.eof, ⟨6, 6⟩, ""⟩]
      lastEnd := 2 }
  refine ⟨_, htokens, c, ⟨[_], rfl⟩, rfl, ?_⟩
  exact (TemplateSet.parse_settles .standard "page" _).2 _ htokens c ⟨[_], rfl⟩ (by decide)

end TemplateTyping
