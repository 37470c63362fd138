import TemplateTyping.Proofs.Tree.Parts
import TemplateTyping.Proofs.Tree.PipelineSpans

/-!
# Spans of trees

What is derived is placed, as its pipelines are.  An action
starts at its left delimiter, and it is known of the cursor that it stands behind the
action's last token when its end is asked for.  There are two exceptions.  A branch that
continues after an else starts at its keyword, and a block ends before the body that it
defines.

Two statements about sources follow.  The spans of every tree fit the source and each
other, and whatever fault a source is refused for lies in it.
-/

namespace TemplateTyping

open Lexer

/-! ## Tokens of a source -/

theorem tokenize_lined
    {d : Delimiters} {source : String} {tokens : List Token}
    (h : tokenize d source = .ok tokens) : Lined source tokens := by
  have hlaid : Laid d none 0 source.toList tokens :=
    tokensFrom_laid (.start d source.toList) rfl h
  have hsource : source.toList = [] ++ source.toList := rfl
  exact hlaid.lined hsource rfl

namespace InAction

variable {text : String} {source : List Token} {start : Nat} {token : Token} {c c' : Cursor}
  (h : InAction source start c) (hlined : Lined text source)
include h hlined

/-- Inside of an action the cursor stands behind where the action starts. -/
theorem at_start : String.Pos.Raw.IsValid text ⟨start⟩ ∧ c.At text start := by
  obtain ⟨first, tokens, rfl, hfirst, hsuffix⟩ := h.first
  have hplaced := hlined.mem (hfirst.subset List.mem_cons_self)
  have hat := hlined.at_current (c := ⟨first, tokens, 0⟩) hfirst
  obtain ⟨hrest, hle⟩ := hat.lined.suffix (hsuffix.trans (List.suffix_cons first tokens))
  exact ⟨hplaced.liesIn.validStart, hrest, hle⟩

theorem behind (hnext : TokenReader.nextNonSpace c = .ok (token, c')) :
    c'.Behind text start token :=
  (h.at_start hlined).2.next hnext

theorem past_rightDelim (hnext : TokenReader.nextNonSpace c = .ok (token, c'))
    (hkind : token.kind = .rightDelim) : c'.Past text start start := by
  have hbehind := h.behind hlined hnext
  exact (hbehind.past (by simp [hkind])).mono (Nat.le_refl _) hbehind.low_le_stop

theorem readsPipe {clause : Clause} {pipe : Pipe Node}
    (hread : DerivesPipe source (.pipeline clause .rightDelim pipe) c c') :
    ReadsPipe text start .rightDelim pipe c' :=
  hread.isPlaced (h.at_start hlined).2

end InAction

/-! ## Placed phrases -/

variable {text : String} {low start stop : Nat} {c c₁ c' : Cursor}

/-- The cursor stands behind a span of the source. -/
structure ReadsSpan (text : String) (low : Nat) (span : Span) (c : Cursor) : Prop where
  lies : span.LiesIn text
  low_le : low ≤ span.start
  past : c.Past text span.start span.stop

/-- The cursor stands behind an item, which is placed if it is a node. -/
structure ReadsItem (text : String) (low : Nat) (item : Item) (c : Cursor) : Prop
    extends ReadsSpan text low item.span c where
  placed : ∀ node, item = .node node → node.IsPlaced text

/-- A body is placed, and the cursor stands behind the action that ended it. -/
structure ReadsBody (text : String) (low : Nat) (body : Body Node) (ending : Ending)
    (c : Cursor) : Prop where
  placed : (Node.body body).IsPlaced text
  low_le : low ≤ body.span.start
  past : c.Past text body.span.stop body.span.stop
  ending : ∀ span, ending = .elseEnding span → span.LiesIn text

/-- Nodes stand in a row, and the cursor stands behind the action after them. -/
def ReadsNodes
    (text : String) (low : Nat) (nodes : List Node) (ending : Ending) (c : Cursor) : Prop :=
  ∃ high, Row text low nodes high ∧ c.Past text high high ∧
    ∀ span, ending = .elseEnding span → span.LiesIn text

/-- What is read from a cursor on is placed behind its token, or behind the start of the
action that the cursor stands in. -/
def Phrase.IsPlaced (text : String) (c c' : Cursor) : Phrase → Prop
  | .body _ found ending => ReadsBody text c.current.span.start found ending c'
  | .nodes _ found ending => ReadsNodes text c.current.span.start found ending c'
  | .item _ found => ReadsItem text c.current.span.start found c'
  | .action _ start found => ReadsItem text start found c'
  | .branch _ start keyword found => ReadsItem text start (.node (.branch keyword found)) c'
  | .otherwise _ _ found =>
      (Node.body found).IsPlaced text ∧ c.current.span.start ≤ found.span.start ∧
        c'.Past text c.current.span.start found.span.stop
  | .block _ start found => ReadsItem text start (.node found) c'
  | .definition start => c'.At text start
  | .topLevel found => Row text c.current.span.start found text.utf8ByteSize
  | .source => True

/-- What is read from an offset on ends with the token taken last. -/
theorem ReadsSpan.of_past
    (hstart : String.Pos.Raw.IsValid text ⟨start⟩) (h : c.Past text start stop) :
    ReadsSpan text start ⟨start, c.lastEnd⟩ c :=
  ⟨h.liesIn hstart (Nat.le_refl _), Nat.le_refl _, h.lastEnd⟩

theorem ReadsItem.of_node
    {node : Node} (h : ReadsSpan text low node.span c) (hplaced : node.IsPlaced text) :
    ReadsItem text low (.node node) c := by
  refine ⟨h, ?_⟩
  rintro _ ⟨⟩
  exact hplaced

/-- A pipeline up to a right delimiter, and the span that ends with it. -/
theorem readsSpan_of_pipe
    {pipe : Pipe Node} (hstart : String.Pos.Raw.IsValid text ⟨start⟩)
    (h : ReadsPipe text start .rightDelim pipe c) :
    ReadsSpan text start ⟨start, c.lastEnd⟩ c ∧ pipe.span.Inside ⟨start, c.lastEnd⟩ := by
  obtain ⟨hplaced, hlow, closing, hkind, hbehind⟩ := h
  have hpast := (hbehind.mono (Nat.le_trans hlow hplaced.ordered)).past (by simp [hkind])
  refine ⟨.of_past hstart hpast, hlow, ?_⟩
  rw [hbehind.lastEnd_eq]
  exact hbehind.low_le_stop

/-- An action with its pipeline, from where it starts on. -/
theorem readsItem_of_action
    {pipe : Pipe Node} (hstart : String.Pos.Raw.IsValid text ⟨start⟩)
    (h : ReadsPipe text start .rightDelim pipe c) :
    ReadsItem text start (.node (.action ⟨start, c.lastEnd⟩ pipe)) c := by
  obtain ⟨hspan, hinside⟩ := readsSpan_of_pipe hstart h
  exact .of_node hspan (action_isPlaced hspan.lies h.placed hinside)

/-- An invocation with its argument; the cursor may have moved on. -/
theorem readsItem_of_template
    {name : String} {argument : Pipe Node} (hstart : String.Pos.Raw.IsValid text ⟨start⟩)
    (h : ReadsPipe text start .rightDelim argument c)
    (hpast : c'.Past text start c.lastEnd) :
    ReadsItem text start (.node (.template ⟨start, c.lastEnd⟩ name (some argument))) c' := by
  obtain ⟨hspan, hinside⟩ := readsSpan_of_pipe hstart h
  refine .of_node ⟨hspan.lies, hspan.low_le, hpast⟩ (template_isPlaced hspan.lies ?_)
  rintro _ ⟨⟩
  exact ⟨h.placed, hinside⟩

/-- A body ends with its last node, or where it starts. -/
theorem bodySpan_isPlaced
    {nodes : List Node} {high : Nat} (hstart : String.Pos.Raw.IsValid text ⟨start⟩)
    (h : Row text start nodes high) :
    (Node.body ⟨TreeReader.bodySpan start nodes, nodes⟩).IsPlaced text ∧
      (TreeReader.bodySpan start nodes).stop ≤ high := by
  cases hlast : nodes.getLast? with
  | none =>
      obtain rfl : nodes = [] := List.getLast?_eq_none_iff.mp hlast
      exact ⟨body_isPlaced (.of_valid (Nat.le_refl _) hstart hstart) (.nil (Nat.le_refl _)),
        h.le⟩
  | some last =>
      have hspan : TreeReader.bodySpan start nodes = ⟨start, last.span.stop⟩ := by
        simp [TreeReader.bodySpan, hlast]
      have hrow := h.to_last hlast
      obtain ⟨hplaced, -, hhigh⟩ := h.mem last (List.mem_of_getLast? hlast)
      rw [hspan]
      exact ⟨body_isPlaced (.of_valid hrow.le hstart hplaced.sits.lies.validStop) hrow, hhigh⟩

/-- Reading goes on behind a pipeline that ends with its delimiter. -/
theorem ReadsPipe.stop_le
    {pipe : Pipe Node} (h : ReadsPipe text low .rightDelim pipe c) :
    pipe.span.stop ≤ c.current.span.start := by
  obtain ⟨-, -, closing, -, hclosing⟩ := h
  exact hclosing.at_low.low_le

section Branches

variable {keyword : BranchKeyword} {pipe : Pipe Node} {body : Body Node} {ending : Ending}
  (hstart : String.Pos.Raw.IsValid text ⟨start⟩)
  (hpipe : ReadsPipe text start .rightDelim pipe c)
  (hbody : ReadsBody text c.current.span.start body ending c₁)
include hpipe hbody

/-- Both parts of a branch lie inside of every span that ends behind its body. -/
theorem branch_inside (hstop : body.span.stop ≤ stop) :
    pipe.span.Inside ⟨start, stop⟩ ∧ body.span.Inside ⟨start, stop⟩ := by
  have hpipeStop : start ≤ pipe.span.stop := Nat.le_trans hpipe.low_le hpipe.placed.ordered
  have hbodyStart : pipe.span.stop ≤ body.span.start :=
    Nat.le_trans hpipe.stop_le hbody.low_le
  have hbodyStop := Nat.le_trans hbodyStart hbody.placed.ordered
  exact ⟨⟨hpipe.low_le, Nat.le_trans hbodyStop hstop⟩, ⟨Nat.le_trans hpipeStop hbodyStart, hstop⟩⟩

theorem branch_past : c₁.Past text start body.span.stop := by
  obtain ⟨-, hinside⟩ := branch_inside hpipe hbody (Nat.le_refl _)
  exact hbody.past.mono (Nat.le_trans hinside.1 hbody.placed.ordered) (Nat.le_refl _)

include hstart

theorem readsItem_of_branch :
    ReadsItem text start (.node (.branch keyword ⟨⟨start, c₁.lastEnd⟩, pipe, body, none⟩)) c₁ := by
  have hpast := branch_past hpipe hbody
  have hspan := ReadsSpan.of_past hstart hpast
  obtain ⟨hpipeIn, hbodyIn⟩ := branch_inside hpipe hbody hpast.stop_le
  exact .of_node hspan
    (branch_isPlaced hspan.lies ⟨hpipe.placed, hpipeIn⟩ ⟨hbody.placed, hbodyIn⟩ (by simp))

theorem readsItem_of_branchElse
    {otherwise : Body Node} (hotherwise : (Node.body otherwise).IsPlaced text)
    (hafter : c₁.current.span.start ≤ otherwise.span.start)
    (hpast' : c'.Past text c₁.current.span.start otherwise.span.stop) :
    ReadsItem text start
      (.node (.branch keyword ⟨⟨start, c'.lastEnd⟩, pipe, body, some otherwise⟩)) c' := by
  have hpast := branch_past hpipe hbody
  have hlast : c₁.lastEnd ≤ c₁.current.span.start := hbody.past.lastEnd.at_stop.low_le
  -- The else stands between the bodies, and it is not empty.
  have hbetween : body.span.stop < otherwise.span.start :=
    Nat.lt_of_lt_of_le hbody.past.low_lt (Nat.le_trans hlast hafter)
  have hstop : body.span.stop ≤ c'.lastEnd :=
    Nat.le_trans (Nat.le_of_lt hbetween) (Nat.le_trans hotherwise.ordered hpast'.stop_le)
  have hlow : start ≤ c₁.current.span.start := Nat.le_trans (Nat.le_of_lt hpast.low_lt) hlast
  have hspan := ReadsSpan.of_past hstart (hpast'.mono hlow (Nat.le_refl _))
  obtain ⟨hpipeIn, hbodyIn⟩ := branch_inside hpipe hbody hstop
  refine .of_node hspan
    (branch_isPlaced hspan.lies ⟨hpipe.placed, hpipeIn⟩ ⟨hbody.placed, hbodyIn⟩ ?_)
  rintro _ ⟨⟩
  exact ⟨⟨hotherwise, Nat.le_trans hlow hafter, hpast'.stop_le⟩, hbetween⟩

end Branches

/-! ## Derivations -/

section Derived

variable {origin : Origin} {source : List Token} {phrase : Phrase}
  {completed : List (Tree × Span)} (hlined : Lined origin.source source)
include hlined

theorem Derives.isPlaced (h : Derives origin source phrase c completed c') :
    phrase.IsPlaced origin.source c c' := by
  induction h with
  | action _ _ _ ih | blockNode _ _ _ _ ih | branchNode _ _ _ _ ih => exact ih
  | source => trivial
  | body hopens _ ih =>
      obtain ⟨high, hrow, hpast, hending⟩ := ih
      have hvalid := (hlined.at_current hopens.suffix).current.liesIn.validStart
      obtain ⟨hplaced, hstop⟩ := bodySpan_isPlaced hvalid hrow
      exact ⟨hplaced, Nat.le_refl _, hpast.mono hstop hstop, hending⟩
  | node _ _ _ hitem hnodes =>
      obtain ⟨high, hrow, hpast, hending⟩ := hnodes
      have hrest := hrow.of_le hitem.past.at_stop.low_le
      exact ⟨high, .cons (hitem.placed _ rfl) hitem.low_le hrest, hpast, hending⟩
  | elseEnding _ _ hitem =>
      have hle := Nat.le_trans hitem.low_le hitem.lies.ordered
      refine ⟨_, .nil (Nat.le_refl _), hitem.past.mono hitem.low_le hle, ?_⟩
      rintro _ ⟨⟩
      exact hitem.lies
  | endEnding _ _ hitem =>
      have hle := Nat.le_trans hitem.low_le hitem.lies.ordered
      exact ⟨_, .nil (Nat.le_refl _), hitem.past.mono hitem.low_le hle, by simp⟩
  | text hopens hkind =>
      have htoken := (hlined.at_current hopens.suffix).behind
      refine .of_node ⟨htoken.placed.liesIn, Nat.le_refl _, htoken.past (by simp [hkind])⟩
        (.of_shows rfl trivial ?_)
      rw [Node.print, ← htoken.placed.text _ hkind]
      exact htoken.placed.shows
  | comment hopens hkind =>
      have htoken := (hlined.at_current hopens.suffix).behind
      have hlies := htoken.placed.liesIn
      exact .of_node ⟨hlies, Nat.le_refl _, htoken.past (by simp [hkind])⟩
        (.of_inside hlies rfl trivial (by simp [Node.parts]))
  | jump hin hnext hkind hclosing hdelim =>
      have hrest := hin.next hnext (by simp [hkind])
      have hpast := hrest.past_rightDelim hlined hclosing hdelim
      have hspan := ReadsSpan.of_past (hin.at_start hlined).1 hpast
      exact .of_node hspan (.of_inside hspan.lies rfl trivial (by simp [Node.parts]))
  | elseOpen hin hnext hkind hpeek =>
      -- Spaces before a keyword that is left standing have been passed over.
      have hpast := (hin.behind hlined hnext).past (by simp [hkind])
      cases hpeek
      exact ⟨.of_past (hin.at_start hlined).1 (hpast.pass rfl), by simp⟩
  | elseClause hin hnext hkind hpeek hclosing hdelim =>
      obtain ⟨-, hat⟩ := (hin.behind hlined hnext).at_low.peek hpeek
      have hpast := (hat.next hclosing).past (by simp [hdelim])
      exact ⟨.of_past (hin.at_start hlined).1 hpast, by simp⟩
  | endClause hin hnext hkind hclosing hdelim =>
      have hrest := hin.next hnext (by simp [hkind])
      have hpast := hrest.past_rightDelim hlined hclosing hdelim
      exact ⟨.of_past (hin.at_start hlined).1 hpast, by simp⟩
  | invocation hin hnext hkind hfirst hname hclosing hdelim =>
      have hlater := (hin.next hnext (by simp [hkind])).next hfirst hname.ne_rightDelim
      have hpast := (hlater.behind hlined hclosing).past (by simp [hdelim])
      have hspan := ReadsSpan.of_past (hin.at_start hlined).1 hpast
      exact .of_node hspan (template_isPlaced hspan.lies (by simp))
  | invocationWith hin hnext hkind hfirst hname hargument hread =>
      have hlater := (hin.next hnext (by simp [hkind])).next hfirst hname.ne_rightDelim
      have hpipe := (hlater.restore hargument).readsPipe hlined hread
      have hvalid := (hin.at_start hlined).1
      have hspan := (readsSpan_of_pipe hvalid hpipe).1
      exact readsItem_of_template hvalid hpipe hspan.past
  | command hin hnext hread =>
      exact readsItem_of_action (hin.at_start hlined).1 ((hin.restore hnext).readsPipe hlined hread)
  | branchEnd hin hread _ hbody =>
      exact readsItem_of_branch (hin.at_start hlined).1 (hin.readsPipe hlined hread) hbody
  | branchElse hin hread _ _ hbody hotherwise =>
      exact readsItem_of_branchElse (hin.at_start hlined).1 (hin.readsPipe hlined hread) hbody
        hotherwise.1 hotherwise.2.1 hotherwise.2.2
  | continued _ _ _ hnested =>
      refine ⟨body_isPlaced hnested.lies ?_, hnested.low_le,
        hnested.past.mono hnested.low_le (Nat.le_refl _)⟩
      exact .cons (hnested.placed _ rfl) (Nat.le_refl _) (.nil (Nat.le_refl _))
  | otherwise _ hbody =>
      have hle := Nat.le_trans hbody.low_le hbody.placed.ordered
      exact ⟨hbody.placed, hbody.low_le, hbody.past.mono hle (Nat.le_refl _)⟩
  | block hin hnext hname hread _ hbody =>
      have hpipe := (hin.next hnext hname.ne_rightDelim).readsPipe hlined hread
      have hvalid := (hin.at_start hlined).1
      -- The node ends here; the body only moves the cursor on.
      have hspan := (readsSpan_of_pipe hvalid hpipe).1
      have hstop := Nat.le_trans hspan.past.at_stop.low_le
        (Nat.le_trans hbody.low_le hbody.placed.ordered)
      exact readsItem_of_template hvalid hpipe
        (hbody.past.mono (Nat.le_trans hspan.lies.ordered hstop) hstop)
  | definition hin hnext hname hclosing hdelim _ hbody =>
      have hrest := hin.next hnext hname.ne_rightDelim
      have hpast := hrest.past_rightDelim hlined hclosing hdelim
      have hstop := Nat.le_trans hpast.at_stop.low_le
        (Nat.le_trans hbody.low_le hbody.placed.ordered)
      exact hbody.past.at_stop.mono hstop
  | eof hleaves =>
      have hlies := (hlined.at_current hleaves.suffix).current.liesIn
      exact .nil (Nat.le_trans hlies.ordered hlies.within)
  | define _ _ _ _ _ _ hdefinition hnodes => exact hnodes.of_le hdefinition.low_le
  | topLevelNode _ _ hitem hnodes =>
      exact .cons (hitem.placed _ rfl) hitem.low_le (hnodes.of_le hitem.past.at_stop.low_le)

/-- Every tree that is completed is at a place in the source. -/
theorem Derives.completed_liesIn (h : Derives origin source phrase c completed c') :
    ∀ entry ∈ completed, entry.2.LiesIn origin.source := by
  refine h.forall_completed (p := fun _ span => span.LiesIn origin.source) ?_ ?_
  · intro _ start _ body c c₁ _ c' hin hsuffix hread
    have hbody := hread.isPlaced hlined
    obtain ⟨hvalid, hat⟩ := hin.at_start hlined
    have hstart := Nat.le_trans hat.low_le (hat.lined.suffix hsuffix).2
    exact hbody.past.liesIn hvalid
      (Nat.le_trans hstart (Nat.le_trans hbody.low_le hbody.placed.ordered))
  · exact fun _ => .origin _

/-- Whatever fault the readers of trees report lies in the source. -/
theorem Reports.liesIn {fault : SyntaxFault} (h : Reports origin source fault) :
    fault.span.LiesIn origin.source := by
  cases h with
  | pipe hpipe => exact hpipe.liesIn hlined
  | ending hread => exact (hread.isPlaced hlined).ending _ rfl
  | outside hread => exact (hread.isPlaced hlined).lies
  | refused hread hmem => exact hread.completed_liesIn hlined _ hmem

end Derived

/-! ## Sources -/

/-- Everything in the tree fits its source. -/
def Tree.IsPlaced (tree : Tree) : Prop := (Node.body tree.root).IsPlaced tree.source

/-- The trees of the set stand under their names and were read from the source. -/
def TemplateSet.ReadFrom (source : String) (set : TemplateSet) : Prop :=
  ∀ name tree, set.get? name = some tree →
    tree.name = name ∧ tree.source = source ∧ tree.IsPlaced

theorem TemplateSet.readFrom_of_parse
    {d : Delimiters} {name source : String} {set : TemplateSet}
    (h : TemplateSet.parse d name source = .ok set) : set.ReadFrom source := by
  obtain ⟨tokens, htokens, hforall⟩ := TemplateSet.forall_of_parse h
  have hlined := tokenize_lined htokens
  refine hforall (fun tree => tree.source = source ∧ tree.IsPlaced) ?_ ?_
  · intro _ _ _ _ _ _ hread
    exact ⟨rfl, (hread.isPlaced hlined).placed⟩
  · intro _ _ _ _ hread
    have hrow := (hread.isPlaced hlined).of_le (Nat.zero_le _)
    exact ⟨rfl, body_isPlaced (.whole _) hrow⟩

/-- The spans of every tree of a source fit: each lies in the source and between
characters, the parts of a node lie inside of it and follow one another, and what prints
as it was written shows the source there. -/
theorem TemplateSet.parse_sitsIn
    (d : Delimiters) (name source : String) (set : TemplateSet)
    (h : TemplateSet.parse d name source = .ok set)
    (template : String) (tree : Tree) (htree : set.get? template = some tree) :
    tree.source = source ∧
      ∀ inRange node, (Node.body tree.root).Holds inRange node → node.SitsIn source := by
  obtain ⟨-, hsource, hplaced⟩ := TemplateSet.readFrom_of_parse h template tree htree
  refine ⟨hsource, ?_⟩
  rw [← hsource]
  exact hplaced

/-- A chain on parentheses, a branch that continues after its else, and a block. -/
def continuedSource : String :=
  "é\x7b\x7bif (.A | len).B\x7d\x7dx\x7b\x7belse if eq $ 1\x7d\x7d" ++
    "\x7b\x7bblock \"box\" .C\x7d\x7d y \x7b\x7bend\x7d\x7d\x7b\x7bend\x7d\x7d"

/-- The block ends before its own body, which is a tree with spans of the same source. -/
theorem TemplateSet.parse_sitsIn_continued :
    ∃ set page box, TemplateSet.parse .standard "page" continuedSource = .ok set ∧
      set.get? "page" = some page ∧ set.get? "box" = some box ∧
        page.root.nodes.map Node.span = [⟨0, 2⟩, ⟨2, 75⟩] ∧ box.root.span = ⟨58, 61⟩ ∧
          (∀ inRange node, (Node.body page.root).Holds inRange node →
            node.SitsIn continuedSource) ∧
            ∀ inRange node, (Node.body box.root).Holds inRange node →
              node.SitsIn continuedSource := by
  have hruns : (TemplateSet.parse .standard "page" continuedSource).toOption.any (fun set =>
      ((set.get? "page").any fun page =>
        page.root.nodes.map Node.span == [⟨0, 2⟩, ⟨2, 75⟩]) &&
          (set.get? "box").any fun box => box.root.span == ⟨58, 61⟩) = true := by
    decide +kernel
  obtain ⟨set, hset, hruns⟩ := (Option.any_eq_true _ _).mp hruns
  obtain ⟨hpage, hbox⟩ := Bool.and_eq_true_iff.mp hruns
  obtain ⟨page, hpage, hpageSpans⟩ := (Option.any_eq_true _ _).mp hpage
  obtain ⟨box, hbox, hboxSpan⟩ := (Option.any_eq_true _ _).mp hbox
  have hset := Except.eq_ok_of_toOption hset
  exact ⟨set, page, box, hset, hpage, hbox, eq_of_beq hpageSpans, eq_of_beq hboxSpan,
    (TemplateSet.parse_sitsIn .standard "page" _ set hset "page" page hpage).2,
    (TemplateSet.parse_sitsIn .standard "page" _ set hset "box" box hbox).2⟩

/-- Whatever a source is refused for is a fault that lies in it. -/
theorem TemplateSet.fault_liesIn_of_parse
    {d : Delimiters} {name source : String} {halt : Halt}
    (h : TemplateSet.parse d name source = .error halt) :
    ∃ fault, halt = .fault fault ∧ fault.span.LiesIn source := by
  obtain ⟨fault, rfl, hfault | ⟨tokens, htokens, hfault⟩⟩ := TemplateSet.reports_of_parse h
  · exact ⟨fault, rfl, tokenize_liesIn hfault⟩
  · exact ⟨fault, rfl, hfault.liesIn (tokenize_lined htokens)⟩

end TemplateTyping
