import TemplateTyping.Proofs.Tree.PipelineDerivation

/-!
# What the readers of trees read

A relation says once what the readers of trees do when they succeed: where they start, what
they read up to where, and which trees are completed on the way.  It rests on that for
pipelines; neither the depth of a reader nor the set of templates occurs in it.  A second
relation says which faults the readers of trees report.

What is known of everything that is read follows by induction on derivations.  Here it is
shown which tokens are left and that nodes are readable.  A tree that is completed has a body
that was read, so it has whatever property such bodies have.
-/

namespace TemplateTyping

open Lexer

/-! ## Where bodies start -/

/-- Where a body starts: outside of actions, or at a keyword after an else that was
left standing. -/
inductive OpensBody : List Token → Prop
  | outside {tokens : List Token} : Closes false tokens → OpensBody tokens
  | keyword {token : Token} {rest : List Token} {keyword : BranchKeyword} :
      token.kind = .keyword (.branch keyword) → Closes true (token :: rest) →
      OpensBody (token :: rest)

namespace OpensBody

variable {token : Token} {tokens rest : List Token}

theorem ne_space (h : OpensBody (token :: rest)) : token.kind ≠ .space := by
  cases h with
  | outside hcloses => exact hcloses.ne_space
  | keyword hkind _ => simp [hkind]

theorem rest_ne_nil (h : OpensBody (token :: rest)) (hkind : token.kind ≠ .eof) :
    rest ≠ [] := by
  cases h with
  | outside hcloses =>
      cases hcloses with
      | eof heof => exact absurd heof hkind
      | outer _ hrest => exact hrest.ne_nil
      | opening _ hrest => exact hrest.ne_nil
  | keyword _ hcloses => exact hcloses.rest_ne_nil

theorem after_outer (h : OpensBody (token :: rest)) (hkind : token.kind.IsOuter) :
    Closes false rest := by
  cases h with
  | outside hcloses =>
      cases hcloses with
      | eof heof =>
          rw [heof] at hkind
          exact hkind.elim
      | outer _ hrest => exact hrest
      | opening hopening _ =>
          rw [hopening] at hkind
          exact hkind.elim
  | keyword hkeyword _ =>
      rw [hkeyword] at hkind
      exact hkind.elim

theorem after_leftDelim (h : OpensBody (token :: rest)) (hkind : token.kind = .leftDelim) :
    Closes true rest := by
  cases h with
  | outside hcloses =>
      cases hcloses with
      | eof heof =>
          rw [heof] at hkind
          cases hkind
      | outer houter _ =>
          rw [hkind] at houter
          exact houter.elim
      | opening _ hrest => exact hrest
  | keyword hkeyword _ =>
      rw [hkeyword] at hkind
      cases hkind

theorem after_keyword
    {keyword : BranchKeyword} (h : OpensBody (token :: rest))
    (hkind : token.kind = .keyword (.branch keyword)) : Closes true rest := by
  cases h with
  | outside hcloses =>
      cases hcloses with
      | eof heof =>
          rw [heof] at hkind
          cases hkind
      | outer houter _ =>
          rw [hkind] at houter
          exact houter.elim
      | opening hopening _ =>
          rw [hopening] at hkind
          cases hkind
  | keyword _ hcloses => exact hcloses.tail (by simp [hkind])

end OpensBody

/-- Taking the first token of a body, of which it is known what comes after it. -/
theorem OpensBody.step
    {c : Cursor} {p : List Token → Prop} (h : OpensBody c.tokens)
    (hkind : c.current.kind ≠ .eof) (hafter : p c.later) :
    LeavesLess p c.tokens c.step.tokens := by
  have htokens := Cursor.tokens_step (h.rest_ne_nil hkind)
  rw [(List.cons.inj htokens).2] at hafter
  rw [htokens]
  exact .of_cons hafter

/-- The cursor stands inside of an action, in a part of it whose first token starts at an
offset. -/
structure InAction (source : List Token) (start : Nat) (c : Cursor) : Prop
    extends Enclosed source c where
  first : ∃ token tokens, token.span.start = start ∧ token :: tokens <:+ source ∧
    c.tokens <:+ tokens

/-- Taking the first token of a body leads into an action. -/
theorem Leaves.inAction
    {source : List Token} {c : Cursor} (h : Leaves OpensBody source c.tokens)
    (hkind : c.current.kind ≠ .eof) (hafter : Closes true c.later) :
    InAction source c.current.span.start c.step := by
  have hless := h.holds.step hkind hafter
  refine ⟨⟨hless.suffix.trans h.suffix, hless.holds⟩, c.current, c.step.tokens, rfl, ?_,
    List.suffix_refl _⟩
  rw [← Cursor.tokens_step (h.holds.rest_ne_nil hkind)]
  exact h.suffix

namespace InAction

variable {source : List Token} {start : Nat} {token : Token} {c c' : Cursor}
  (h : InAction source start c)
include h

theorem of_leaves (hleaves : Leaves (Closes true) c.tokens c'.tokens) :
    InAction source start c' := by
  obtain ⟨token, tokens, hstart, htoken, hsuffix⟩ := h.first
  exact ⟨h.toEnclosed.of_leaves hleaves, token, tokens, hstart, htoken,
    hleaves.suffix.trans hsuffix⟩

/-- Behind an action a body may start. -/
theorem opensBody (hleaves : LeavesLess (Closes false) c.tokens c'.tokens) :
    Leaves OpensBody source c'.tokens :=
  ⟨hleaves.suffix.trans h.suffix, .outside hleaves.holds⟩

variable (hnext : TokenReader.nextNonSpace c = .ok (token, c'))
include hnext

theorem next (hkind : token.kind ≠ .rightDelim) : InAction source start c' :=
  h.of_leaves ((h.reaches hnext).next hkind).toLeaves

theorem restore : InAction source start (c'.restore token) :=
  h.of_leaves (h.reaches hnext).leaves

end InAction

/-! ## Derivations -/

/-- What the readers of trees read: what they are asked for, and what they find. -/
inductive Phrase
  | body (inRange : Bool) (body : Body Node) (ending : Ending)
  | nodes (inRange : Bool) (nodes : List Node) (ending : Ending)
  | item (inRange : Bool) (item : Item)
  | action (inRange : Bool) (start : Nat) (item : Item)
  | branch (inRange : Bool) (start : Nat) (keyword : BranchKeyword) (branch : Branch Node)
  | otherwise (inRange : Bool) (keyword : BranchKeyword) (body : Body Node)
  | block (inRange : Bool) (start : Nat) (node : Node)
  | definition (start : Nat)
  | topLevel (nodes : List Node)
  | source

/-- The token is a string that names a template. -/
structure Token.NamesTemplate (token : Token) (name : String) : Prop where
  kind : token.kind = .string ∨ token.kind = .rawString
  value : Quotation.string token.text = .ok name

theorem Token.NamesTemplate.ne_rightDelim
    {token : Token} {name : String} (h : token.NamesTemplate name) :
    token.kind ≠ .rightDelim := by
  rcases h.kind with hkind | hkind
  · simp [hkind]
  · simp [hkind]

/-- The span of an item. -/
def Item.span : Item → Span
  | .node held => held.span
  | .elseItem span | .endItem span => span

section

open TokenReader TreeReader

variable (origin : Origin) (source : List Token)

/-- From one cursor to another a phrase is read in the tokens of a source, and trees are
completed at some places. -/
inductive Derives : Phrase → Cursor → List (Tree × Span) → Cursor → Prop
  | body {inRange nodes ending c completed c'} :
      Leaves OpensBody source c.tokens →
      Derives (.nodes inRange nodes ending) c completed c' →
      Derives (.body inRange ⟨bodySpan c.current.span.start nodes, nodes⟩ ending) c completed c'
  | node {inRange node nodes ending c first c₁ second c'} :
      Leaves OpensBody source c.tokens →
      Derives (.item inRange (.node node)) c first c₁ →
      Derives (.nodes inRange nodes ending) c₁ second c' →
      Derives (.nodes inRange (node :: nodes) ending) c (first ++ second) c'
  | elseEnding {inRange span c completed c'} :
      Leaves OpensBody source c.tokens →
      Derives (.item inRange (.elseItem span)) c completed c' →
      Derives (.nodes inRange [] (.elseEnding span)) c completed c'
  | endEnding {inRange span c completed c'} :
      Leaves OpensBody source c.tokens →
      Derives (.item inRange (.endItem span)) c completed c' →
      Derives (.nodes inRange [] .endEnding) c completed c'
  | text {inRange content c} :
      Leaves OpensBody source c.tokens → c.current.kind = .text content →
      Derives (.item inRange (.node (.text c.current.span content))) c [] c.step
  | comment {inRange content c} :
      Leaves OpensBody source c.tokens → c.current.kind = .comment content →
      Derives (.item inRange (.node (.comment c.current.span content))) c [] c.step
  | action {inRange item c completed c'} :
      Leaves OpensBody source c.tokens → c.current.kind = .leftDelim →
      Derives (.action inRange c.current.span.start item) c.step completed c' →
      Derives (.item inRange item) c completed c'
  | blockNode {inRange start node token c c₁ completed c'} :
      InAction source start c → nextNonSpace c = .ok (token, c₁) →
      token.kind = .keyword .block → Derives (.block inRange start node) c₁ completed c' →
      Derives (.action inRange start (.node node)) c completed c'
  | jump {start keyword token closing c c₁ c'} :
      InAction source start c → nextNonSpace c = .ok (token, c₁) →
      token.kind = .keyword (.jump keyword) → nextNonSpace c₁ = .ok (closing, c') →
      closing.kind = .rightDelim →
      Derives (.action true start (.node (.jump ⟨start, c'.lastEnd⟩ keyword))) c [] c'
  | elseOpen {inRange start keyword token next c c₁ c'} :
      InAction source start c → nextNonSpace c = .ok (token, c₁) →
      token.kind = .keyword .elseKeyword → peekNonSpace c₁ = .ok (next, c') →
      next.kind = .keyword (.branch keyword) →
      Derives (.action inRange start (.elseItem ⟨start, c'.lastEnd⟩)) c [] c'
  | elseClause {inRange start token next closing c c₁ c₂ c'} :
      InAction source start c → nextNonSpace c = .ok (token, c₁) →
      token.kind = .keyword .elseKeyword → peekNonSpace c₁ = .ok (next, c₂) →
      nextNonSpace c₂ = .ok (closing, c') → closing.kind = .rightDelim →
      Derives (.action inRange start (.elseItem ⟨start, c'.lastEnd⟩)) c [] c'
  | endClause {inRange start token closing c c₁ c'} :
      InAction source start c → nextNonSpace c = .ok (token, c₁) →
      token.kind = .keyword .endKeyword → nextNonSpace c₁ = .ok (closing, c') →
      closing.kind = .rightDelim →
      Derives (.action inRange start (.endItem ⟨start, c'.lastEnd⟩)) c [] c'
  | branchNode {inRange start keyword branch token c c₁ completed c'} :
      InAction source start c → nextNonSpace c = .ok (token, c₁) →
      token.kind = .keyword (.branch keyword) →
      Derives (.branch inRange start keyword branch) c₁ completed c' →
      Derives (.action inRange start (.node (.branch keyword branch))) c completed c'
  | invocation {inRange start name token first closing c c₁ c₂ c'} :
      InAction source start c → nextNonSpace c = .ok (token, c₁) →
      token.kind = .keyword .template → nextNonSpace c₁ = .ok (first, c₂) →
      first.NamesTemplate name → nextNonSpace c₂ = .ok (closing, c') →
      closing.kind = .rightDelim →
      Derives (.action inRange start (.node (.template ⟨start, c'.lastEnd⟩ name none))) c [] c'
  | invocationWith {inRange start name argument token first next c c₁ c₂ c₃ c'} :
      InAction source start c → nextNonSpace c = .ok (token, c₁) →
      token.kind = .keyword .template → nextNonSpace c₁ = .ok (first, c₂) →
      first.NamesTemplate name → nextNonSpace c₂ = .ok (next, c₃) →
      DerivesPipe source (.pipeline .template .rightDelim argument) (c₃.restore next) c' →
      Derives
        (.action inRange start (.node (.template ⟨start, c'.lastEnd⟩ name (some argument)))) c [] c'
  | command {inRange start pipe token c c₁ c'} :
      InAction source start c → nextNonSpace c = .ok (token, c₁) →
      DerivesPipe source (.pipeline .command .rightDelim pipe) (c₁.restore token) c' →
      Derives (.action inRange start (.node (.action ⟨start, c'.lastEnd⟩ pipe))) c [] c'
  | branchEnd {inRange start keyword pipe body c c₁ completed c'} :
      InAction source start c →
      DerivesPipe source (.pipeline (.branch keyword) .rightDelim pipe) c c₁ →
      Derives (.body (inRange || keyword == .rangeKeyword) body .endEnding) c₁ completed c' →
      Derives (.branch inRange start keyword ⟨⟨start, c'.lastEnd⟩, pipe, body, none⟩) c
        completed c'
  | branchElse {inRange start keyword pipe body span otherwise c c₁ first c₂ second c'} :
      InAction source start c →
      DerivesPipe source (.pipeline (.branch keyword) .rightDelim pipe) c c₁ →
      Derives (.body (inRange || keyword == .rangeKeyword) body (.elseEnding span)) c₁ first c₂ →
      Derives (.otherwise inRange keyword otherwise) c₂ second c' →
      Derives (.branch inRange start keyword ⟨⟨start, c'.lastEnd⟩, pipe, body, some otherwise⟩) c
        (first ++ second) c'
  | continued {inRange keyword nested c completed c'} :
      Leaves OpensBody source c.tokens → continuesBranch keyword c.current.kind = true →
      Derives (.branch inRange c.current.span.start keyword nested) c.step completed c' →
      Derives (.otherwise inRange keyword ⟨nested.span, [.branch keyword nested]⟩) c completed c'
  | otherwise {inRange keyword body c completed c'} :
      Derives (.body inRange body .endEnding) c completed c' →
      Derives (.otherwise inRange keyword body) c completed c'
  | block {inRange start name argument body token c c₁ c₂ completed c'} :
      InAction source start c → nextNonSpace c = .ok (token, c₁) →
      token.NamesTemplate name →
      DerivesPipe source (.pipeline .block .rightDelim argument) c₁ c₂ →
      Derives (.body inRange body .endEnding) c₂ completed c' →
      Derives (.block inRange start (.template ⟨start, c₂.lastEnd⟩ name (some argument))) c
        (completed ++ [(origin.tree name body, ⟨start, c'.lastEnd⟩)]) c'
  | definition {start name body token closing c c₁ c₂ completed c'} :
      InAction source start c → nextNonSpace c = .ok (token, c₁) →
      token.NamesTemplate name → nextNonSpace c₁ = .ok (closing, c₂) →
      closing.kind = .rightDelim →
      Derives (.body false body .endEnding) c₂ completed c' →
      Derives (.definition start) c
        (completed ++ [(origin.tree name body, ⟨start, c'.lastEnd⟩)]) c'
  | eof {c} :
      Leaves (Closes false) source c.tokens → c.current.kind = .eof →
      Derives (.topLevel []) c [] c
  | define {nodes token c c₁ first c₂ second c'} :
      Leaves (Closes false) source c.tokens → c.current.kind = .leftDelim →
      nextNonSpace c.step = .ok (token, c₁) → token.kind = .keyword .define →
      Derives (.definition c.current.span.start) c₁ first c₂ →
      Derives (.topLevel nodes) c₂ second c' →
      Derives (.topLevel nodes) c (first ++ second) c'
  | topLevelNode {node nodes c first c₁ second c'} :
      Derives (.item false (.node node)) c first c₁ →
      Derives (.topLevel nodes) c₁ second c' →
      Derives (.topLevel (node :: nodes)) c (first ++ second) c'
  | source {nodes c completed c'} :
      Derives (.topLevel nodes) c completed c' →
      Derives .source c (completed ++
        [(origin.tree origin.name ⟨⟨0, origin.source.utf8ByteSize⟩, nodes⟩, .origin)]) c'

/-- The faults that the readers of trees report. -/
inductive Reports : SyntaxFault → Prop
  | pipe {fault} : ReportsPipe source fault → Reports fault
  | ending {inRange body span c completed c' cause} :
      Derives origin source (.body inRange body (.elseEnding span)) c completed c' →
      cause.isLiteral = false → Reports ⟨cause, span⟩
  | outside {item c completed c' cause} :
      Derives origin source (.item false item) c completed c' → cause.isLiteral = false →
      Reports ⟨cause, item.span⟩
  | refused {phrase c completed c' entry} :
      Derives origin source phrase c completed c' → entry ∈ completed →
      Reports ⟨.multipleDefinition entry.1.name, entry.2⟩

end

/-! ## Tokens that are left -/

/-- What is left after an item: only an else may leave a keyword standing. -/
def Item.Leaves (tokens rest : List Token) : Item → Prop
  | .elseItem _ => LeavesLess OpensBody tokens rest
  | .node _ | .endItem _ => LeavesLess (Closes false) tokens rest

/-- What is left after a body, by what ends it. -/
def Ending.Leaves (tokens rest : List Token) : Ending → Prop
  | .elseEnding _ => LeavesLess OpensBody tokens rest
  | .endEnding => LeavesLess (Closes false) tokens rest

/-- What is left after a phrase. -/
def Phrase.Leaves (tokens rest : List Token) : Phrase → Prop
  | .body _ _ ending | .nodes _ _ ending => ending.Leaves tokens rest
  | .item _ found | .action _ _ found => found.Leaves tokens rest
  | .branch .. | .otherwise .. | .block .. | .definition _ =>
      LeavesLess (Closes false) tokens rest
  | .topLevel _ | .source => True

section Left

variable {p : List Token → Prop} {tokens middle rest : List Token}

theorem Leaves.transItem (h : Leaves p tokens middle) {item : Item}
    (h' : item.Leaves middle rest) : item.Leaves tokens rest := by
  cases item with
  | node | elseItem | endItem => exact h.transLess h'

theorem Leaves.transEnding (h : Leaves p tokens middle) {ending : Ending}
    (h' : ending.Leaves middle rest) : ending.Leaves tokens rest := by
  cases ending with
  | elseEnding | endEnding => exact h.transLess h'

end Left

section Derived

open TokenReader

variable {origin : Origin} {source : List Token} {phrase : Phrase} {c c' : Cursor}
  {completed : List (Tree × Span)}

theorem Derives.leaves (h : Derives origin source phrase c completed c') :
    phrase.Leaves c.tokens c'.tokens := by
  induction h with
  | body _ _ ih | elseEnding _ _ ih | endEnding _ _ ih | otherwise _ ih => exact ih
  | node _ _ _ hitem hnodes => exact hitem.toLeaves.transEnding hnodes
  | text hopens hkind | comment hopens hkind =>
      have hafter := hopens.holds.after_outer (by simp [hkind, TokenKind.IsOuter])
      exact hopens.holds.step (by simp [hkind]) hafter
  | action hopens hkind _ ih =>
      have hafter := hopens.holds.after_leftDelim hkind
      exact (hopens.holds.step (by simp [hkind]) hafter).toLeaves.transItem ih
  | blockNode hin hnext hkind _ ih | branchNode hin hnext hkind _ ih =>
      exact ((hin.reaches hnext).next (by simp [hkind])).toLeaves.transLess ih
  | jump hin hnext hkind hclosing hdelim | endClause hin hnext hkind hclosing hdelim =>
      have hrest := (hin.reaches hnext).next (by simp [hkind])
      have hclosed := (hin.next hnext (by simp [hkind])).closed hclosing hdelim
      exact hrest.toLeaves.transLess hclosed
  | elseOpen hin hnext hkind hpeek hkeyword =>
      have hrest := (hin.reaches hnext).next (by simp [hkind])
      obtain ⟨htokens, hreaches⟩ := (hin.next hnext (by simp [hkind])).peek_reaches hpeek
      rw [htokens]
      exact hrest.trans ⟨hreaches.leaves.suffix, .keyword hkeyword hreaches.closes⟩
  | elseClause hin hnext hkind hpeek hclosing hdelim =>
      have hrest := (hin.reaches hnext).next (by simp [hkind])
      have hin₁ := hin.next hnext (by simp [hkind])
      have hpeeked := hin₁.peek_leaves hpeek
      have hclosed := (hin₁.of_leaves hpeeked).closed hclosing hdelim
      exact hrest.trans ⟨(hpeeked.trans hclosed.toLeaves).suffix, .outside hclosed.holds⟩
  | invocation hin hnext hkind hfirst hname hclosing hdelim =>
      have hrest := hin.next hnext (by simp [hkind])
      have hleaves := ((hin.reaches hnext).next (by simp [hkind])).trans
        ((hrest.reaches hfirst).next hname.ne_rightDelim).toLeaves
      have hclosed := (hrest.next hfirst hname.ne_rightDelim).closed hclosing hdelim
      exact hleaves.toLeaves.transLess hclosed
  | invocationWith hin hnext hkind hfirst hname hargument hread =>
      have hrest := hin.next hnext (by simp [hkind])
      have hlater := hrest.next hfirst hname.ne_rightDelim
      have hleaves := ((hin.reaches hnext).next (by simp [hkind])).trans
        ((hrest.reaches hfirst).next hname.ne_rightDelim).toLeaves
      have hback := hleaves.trans (hlater.reaches hargument).leaves
      exact hback.toLeaves.transLess hread.leaves
  | command hin hnext hread => exact (hin.reaches hnext).leaves.transLess hread.leaves
  | branchEnd _ hpipe _ ih => exact hpipe.leaves.toLeaves.transLess ih
  | branchElse _ hpipe _ _ hbody hotherwise =>
      exact (hpipe.leaves.toLeaves.trans hbody.toLeaves).transLess hotherwise
  | continued hopens hcontinues _ ih =>
      have hkind := eq_of_beq (Bool.and_eq_true_iff.mp hcontinues).2
      have hafter := hopens.holds.after_keyword hkind
      exact (hopens.holds.step (by simp [hkind]) hafter).toLeaves.transLess ih
  | block hin hnext hname hargument _ ih =>
      have hrest := (hin.reaches hnext).next hname.ne_rightDelim
      exact (hrest.toLeaves.trans hargument.leaves.toLeaves).transLess ih
  | definition hin hnext hname hclosing hdelim _ ih =>
      have hrest := (hin.reaches hnext).next hname.ne_rightDelim
      have hlater := (hin.next hnext hname.ne_rightDelim).closed hclosing hdelim
      exact (hrest.toLeaves.trans hlater.toLeaves).transLess ih
  | eof | define | topLevelNode | source => trivial

/-! ## Readable phrases -/

/-- An item that is a node is readable. -/
def Item.IsReadable (inRange : Bool) : Item → Prop
  | .node held => held.IsReadable inRange
  | .elseItem _ | .endItem _ => True

/-- What is read is readable. -/
def Phrase.IsReadable : Phrase → Prop
  | .body inRange found _ | .otherwise inRange _ found => found.IsReadable inRange
  | .nodes inRange found _ => NodesReadable inRange found
  | .item inRange found | .action inRange _ found => found.IsReadable inRange
  | .branch inRange _ keyword found => found.IsReadable inRange keyword
  | .block inRange _ found => found.IsReadable inRange
  | .topLevel found => NodesReadable false found
  | .definition _ | .source => True

theorem Derives.isReadable
    (hlexed : ∀ token ∈ source, token.IsLexed) (h : Derives origin source phrase c completed c') :
    phrase.IsReadable := by
  have hcurrent : ∀ {c : Cursor}, Leaves OpensBody source c.tokens → c.current.IsLexed :=
    fun hopens => hlexed _ (hopens.suffix.subset List.mem_cons_self)
  induction h with
  | body _ _ ih | action _ _ _ ih | blockNode _ _ _ _ ih | branchNode _ _ _ _ ih
  | otherwise _ ih => exact ih
  | node _ _ _ hnode hnodes | topLevelNode _ _ hnode hnodes => exact ⟨hnode, hnodes⟩
  | text hopens hkind | comment hopens hkind =>
      have hlexed := hcurrent hopens
      simp only [Token.IsLexed, hkind] at hlexed
      exact hlexed
  | jump => exact rfl
  | elseEnding | endEnding | elseOpen | elseClause | endClause | invocation | definition | eof
  | source => trivial
  | invocationWith _ _ _ _ _ _ hpipe | command _ _ hpipe => exact hpipe.isReadable hlexed
  | branchEnd _ hpipe _ hbody => exact ⟨hpipe.isReadable hlexed, hbody, trivial⟩
  | branchElse _ hpipe _ _ hbody hotherwise =>
      exact ⟨hpipe.isReadable hlexed, hbody, hotherwise⟩
  | continued _ _ _ hnested => exact ⟨hnested, trivial⟩
  | block _ _ _ hargument => exact hargument.isReadable hlexed
  | define _ _ _ _ _ _ _ hnodes => exact hnodes

/-! ## Trees that are completed -/

/-- A tree is completed where a body was read that comes after the start of an action, or for
the source itself.  What holds there holds of every tree that is completed. -/
theorem Derives.forall_completed {p : Tree → Span → Prop}
    (hbody : ∀ {inRange start name body c c₁ done c'}, InAction source start c →
      c₁.tokens <:+ c.tokens → Derives origin source (.body inRange body .endEnding) c₁ done c' →
      p (origin.tree name body) ⟨start, c'.lastEnd⟩)
    (hsource : ∀ {nodes c done c'}, Derives origin source (.topLevel nodes) c done c' →
      p (origin.tree origin.name ⟨⟨0, origin.source.utf8ByteSize⟩, nodes⟩) .origin)
    (h : Derives origin source phrase c completed c') :
    ∀ entry ∈ completed, p entry.1 entry.2 := by
  induction h with
  | body _ _ ih | elseEnding _ _ ih | endEnding _ _ ih | action _ _ _ ih
  | blockNode _ _ _ _ ih | branchNode _ _ _ _ ih | branchEnd _ _ _ ih | continued _ _ _ ih
  | otherwise _ ih => exact ih
  | text | comment | jump | elseOpen | elseClause | endClause | invocation | invocationWith
  | command | eof => simp
  | node _ _ _ ih ih' | branchElse _ _ _ _ ih ih' | define _ _ _ _ _ _ ih ih'
  | topLevelNode _ _ ih ih' => exact List.forall_mem_append.mpr ⟨ih, ih'⟩
  | block hin hnext hname hargument hread ih =>
      have hrest := hin.next hnext hname.ne_rightDelim
      refine List.forall_mem_append.mpr ⟨ih, List.forall_mem_singleton.mpr ?_⟩
      exact hbody hrest hargument.leaves.suffix hread
  | definition hin hnext hname hclosing hdelim hread ih =>
      have hrest := hin.next hnext hname.ne_rightDelim
      refine List.forall_mem_append.mpr ⟨ih, List.forall_mem_singleton.mpr ?_⟩
      exact hbody hrest (hrest.closed hclosing hdelim).suffix hread
  | source hread ih =>
      exact List.forall_mem_append.mpr ⟨ih, List.forall_mem_singleton.mpr (hsource hread)⟩

end Derived

end TemplateTyping
