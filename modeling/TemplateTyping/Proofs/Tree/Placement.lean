import TemplateTyping.Proofs.Token.Placing
import TemplateTyping.Proofs.Tree.Holding

/-!
# Nodes that are placed in a source

A node remembers the span of source that it was read from.  This module says what it
means that the spans of a tree fit the source and each other: they lie in the source,
the parts of a node lie inside of it, parts in a list follow one another, and simple
nodes print as the source has them.

Readers put nodes together from parts that stand in a row.  For each kind of node one
lemma says which spans of its parts place it.
-/

namespace TemplateTyping

/-- One span lies inside of another one. -/
structure Span.Inside (inner outer : Span) : Prop where
  start_le : outer.start ≤ inner.start
  stop_le : inner.stop ≤ outer.stop

/-- One span ends before another one starts, or right there. -/
def Span.Precedes (first second : Span) : Prop := first.stop ≤ second.start

namespace Node

/-- Whether a node prints as the source it was read from. -/
def isVerbatim : Node → Bool
  | .text _ _ | .identifier _ _ | .dot _ | .nil _ | .bool _ _ | .number _ _
  | .string _ _ _ | .field _ _ | .variable _ => true
  | _ => false

/-- Parts in a list follow one another.  The body of a branch ends before the one taken
otherwise, with something in between. -/
def PartsFollow : Node → Prop
  | .body b => b.nodes.Pairwise fun first second => first.span.Precedes second.span
  | .pipe p => p.commands.Pairwise fun first second => first.span.Precedes second.span
  | .command c => c.operands.Pairwise fun first second => first.span.Precedes second.span
  | .branch _ b => ∀ otherwise, b.otherwise = some otherwise →
      b.body.span.stop < otherwise.span.start
  | _ => True

/-- The span of the node fits the source and the spans of its parts. -/
structure SitsIn (source : String) (node : Node) : Prop where
  lies : node.span.LiesIn source
  inside : ∀ enters part, (enters, part) ∈ node.parts → part.span.Inside node.span
  follow : node.PartsFollow
  verbatim : node.isVerbatim = true → node.span.Shows source node.print

/-- Everything in the node fits the source. -/
def IsPlaced (source : String) (root : Node) : Prop :=
  ∀ inRange node, root.Holds inRange node → node.SitsIn source

variable {source : String} {node : Node}

theorem IsPlaced.sits (h : node.IsPlaced source) : node.SitsIn source :=
  h false node .refl

theorem IsPlaced.ordered (h : node.IsPlaced source) : node.span.start ≤ node.span.stop :=
  h.sits.lies.ordered

theorem IsPlaced.of_parts
    (h : node.SitsIn source)
    (hparts : ∀ enters part, (enters, part) ∈ node.parts → part.IsPlaced source) :
    node.IsPlaced source := by
  intro inRange other hholds
  rcases hholds.cases_part with ⟨-, rfl⟩ | ⟨enters, part, inRange', hpart, hinner, -⟩
  · exact h
  · exact hparts enters part hpart inRange' other hinner

/-- A node is placed by parts that are placed inside of it. -/
theorem IsPlaced.of_inside
    (hspan : node.span.LiesIn source) (hkind : node.isVerbatim = false)
    (hfollow : node.PartsFollow)
    (hparts : ∀ enters part, (enters, part) ∈ node.parts →
      part.IsPlaced source ∧ part.span.Inside node.span) : node.IsPlaced source := by
  refine .of_parts ⟨hspan, ?_, hfollow, by simp [hkind]⟩ ?_
  · exact fun enters part hpart => (hparts enters part hpart).2
  · exact fun enters part hpart => (hparts enters part hpart).1

/-- A node without parts is placed if it prints as the source. -/
theorem IsPlaced.of_shows
    (hparts : node.parts = []) (hfollow : node.PartsFollow)
    (hshows : node.span.Shows source node.print) : node.IsPlaced source := by
  refine .of_parts ⟨hshows.liesIn, ?_, hfollow, fun _ => hshows⟩ ?_
  · simp [hparts]
  · simp [hparts]

end Node

/-! ## Nodes in a row -/

/-- Nodes that are placed one after the other between two offsets. -/
inductive Row (source : String) : Nat → List Node → Nat → Prop
  | nil {low high : Nat} : low ≤ high → Row source low [] high
  | cons {low high : Nat} {node : Node} {nodes : List Node} :
      node.IsPlaced source → low ≤ node.span.start → Row source node.span.stop nodes high →
      Row source low (node :: nodes) high

namespace Row

variable {source : String} {low high : Nat} {nodes : List Node}

theorem le (h : Row source low nodes high) : low ≤ high := by
  induction h with
  | nil hle => exact hle
  | cons hnode hstart _ ih => exact Nat.le_trans hstart (Nat.le_trans hnode.ordered ih)

theorem of_le {low' : Nat} (h : Row source low nodes high) (hle : low' ≤ low) :
    Row source low' nodes high := by
  cases h with
  | nil hlow => exact .nil (Nat.le_trans hle hlow)
  | cons hnode hstart hrow => exact .cons hnode (Nat.le_trans hle hstart) hrow

theorem append
    {middle : Nat} {more : List Node} (h : Row source low nodes middle)
    (hmore : Row source middle more high) : Row source low (nodes ++ more) high := by
  induction h with
  | nil hle => exact hmore.of_le hle
  | cons hnode hstart _ ih => exact .cons hnode hstart (ih hmore)

/-- The nodes of a row lie between its ends. -/
theorem mem (h : Row source low nodes high) :
    ∀ node ∈ nodes, node.IsPlaced source ∧ low ≤ node.span.start ∧ node.span.stop ≤ high := by
  induction h with
  | nil => simp
  | @cons low high first nodes hfirst hstart hrow ih =>
      intro node hnode
      rcases List.mem_cons.mp hnode with rfl | hnode
      · exact ⟨hfirst, hstart, hrow.le⟩
      · obtain ⟨hplaced, hlow, hhigh⟩ := ih node hnode
        exact ⟨hplaced, Nat.le_trans hstart (Nat.le_trans hfirst.ordered hlow), hhigh⟩

/-- The nodes of a row follow one another. -/
theorem pairwise (h : Row source low nodes high) :
    nodes.Pairwise fun first second => first.span.Precedes second.span := by
  induction h with
  | nil => exact .nil
  | cons _ _ hrow ih => exact .cons (fun node hnode => (hrow.mem node hnode).2.1) ih

/-- A row ends with its last node. -/
theorem to_last {last : Node} (h : Row source low nodes high)
    (hlast : nodes.getLast? = some last) : Row source low nodes last.span.stop := by
  induction h with
  | nil => cases hlast
  | @cons low high node nodes hnode hstart hrow ih =>
      cases hnodes : nodes.getLast? with
      | none =>
          obtain rfl : nodes = [] := List.getLast?_eq_none_iff.mp hnodes
          obtain rfl : node = last := Option.some.inj hlast
          exact .cons hnode hstart (.nil (Nat.le_refl _))
      | some other =>
          rw [List.getLast?_cons, hnodes] at hlast
          exact .cons hnode hstart (ih (hnodes.trans hlast))

/-- A row starts with its first node. -/
theorem of_head {first : Node} (h : Row source low nodes high)
    (hfirst : nodes.head? = some first) : Row source first.span.start nodes high := by
  cases h with
  | nil => cases hfirst
  | cons hnode _ hrow =>
      obtain rfl := Option.some.inj hfirst
      exact .cons hnode (Nat.le_refl _) hrow

end Row

/-! ## How nodes are placed by their parts -/

section Placing

variable {source : String} {span : Span}

/-- Bodies and commands are placed by the row of their parts. -/
theorem Row.isPlaced
    {node : Node} {nodes : List Node} (h : Row source node.span.start nodes node.span.stop)
    (hparts : node.parts = nodes.map (false, ·)) (hspan : node.span.LiesIn source)
    (hkind : node.isVerbatim = false) (hfollow : node.PartsFollow) : node.IsPlaced source := by
  refine .of_inside hspan hkind hfollow ?_
  intro enters part hpart
  rw [hparts] at hpart
  obtain ⟨_, hmem, heq⟩ := List.mem_map.mp hpart
  obtain ⟨hplaced, hstart, hstop⟩ := h.mem part ((Prod.mk.inj heq).2 ▸ hmem)
  exact ⟨hplaced, hstart, hstop⟩

theorem body_isPlaced
    {nodes : List Node} (hspan : span.LiesIn source)
    (h : Row source span.start nodes span.stop) :
    (Node.body ⟨span, nodes⟩).IsPlaced source :=
  @Row.isPlaced source (.body ⟨span, nodes⟩) nodes h rfl hspan rfl h.pairwise

theorem command_isPlaced
    {operands : List Node} (hspan : span.LiesIn source)
    (h : Row source span.start operands span.stop) :
    (Node.command ⟨span, operands⟩).IsPlaced source :=
  @Row.isPlaced source (.command ⟨span, operands⟩) operands h rfl hspan rfl h.pairwise

/-- Variables that are placed between two offsets. -/
def AreDeclaredIn (source : String) (low high : Nat) (declared : List Variable) : Prop :=
  ∀ v ∈ declared, (Node.variable v).IsPlaced source ∧ low ≤ v.span.start ∧ v.span.stop ≤ high

theorem pipe_isPlaced
    {isAssign : Bool} {declared : List Variable} {commands : List (Command Node)}
    {middle : Nat} (hspan : span.LiesIn source)
    (hdeclared : AreDeclaredIn source span.start middle declared)
    (hmiddle : span.start ≤ middle)
    (h : Row source middle (commands.map .command) span.stop) :
    (Node.pipe ⟨span, isAssign, declared, commands⟩).IsPlaced source := by
  have hfollow := List.pairwise_map.mp h.pairwise
  refine .of_inside hspan rfl hfollow ?_
  intro enters part hpart
  simp only [Node.parts, List.mem_append, List.mem_map, Prod.mk.injEq] at hpart
  rcases hpart with ⟨v, hv, rfl, rfl⟩ | ⟨command, hcommand, rfl, rfl⟩
  · obtain ⟨hplaced, hstart, hstop⟩ := hdeclared v hv
    exact ⟨hplaced, hstart, Nat.le_trans hstop h.le⟩
  · obtain ⟨hplaced, hstart, hstop⟩ := h.mem _ (List.mem_map_of_mem hcommand)
    exact ⟨hplaced, Nat.le_trans hmiddle hstart, hstop⟩

/-- A pipeline may be given a greater span, that of the parentheses around it. -/
theorem pipe_isPlaced_of_inside
    {pipe : Pipe Node} (h : (Node.pipe pipe).IsPlaced source) (hspan : span.LiesIn source)
    (hinside : pipe.span.Inside span) :
    (Node.pipe { pipe with span := span }).IsPlaced source := by
  refine .of_inside hspan rfl h.sits.follow ?_
  intro enters part hpart
  have hpart' : (enters, part) ∈ (Node.pipe pipe).parts := hpart
  obtain ⟨hstart, hstop⟩ := h.sits.inside enters part hpart'
  refine ⟨fun inRange node hholds => h _ node (hholds.of_mem_parts hpart'), ?_⟩
  exact ⟨Nat.le_trans hinside.start_le hstart, Nat.le_trans hstop hinside.stop_le⟩

theorem action_isPlaced
    {pipe : Pipe Node} (hspan : span.LiesIn source) (hpipe : (Node.pipe pipe).IsPlaced source)
    (hinside : pipe.span.Inside span) : (Node.action span pipe).IsPlaced source := by
  refine .of_inside hspan rfl trivial ?_
  intro enters part hpart
  obtain ⟨rfl, rfl⟩ := Prod.mk.inj (List.mem_singleton.mp hpart)
  exact ⟨hpipe, hinside⟩

theorem chain_isPlaced
    {receiver : Node} {path : List String} (hspan : span.LiesIn source)
    (hreceiver : receiver.IsPlaced source) (hinside : receiver.span.Inside span) :
    (Node.chain span receiver path).IsPlaced source := by
  refine .of_inside hspan rfl trivial ?_
  intro enters part hpart
  obtain ⟨rfl, rfl⟩ := Prod.mk.inj (List.mem_singleton.mp hpart)
  exact ⟨hreceiver, hinside⟩

theorem template_isPlaced
    {name : String} {argument : Option (Pipe Node)} (hspan : span.LiesIn source)
    (hargument : ∀ pipe, argument = some pipe →
      (Node.pipe pipe).IsPlaced source ∧ pipe.span.Inside span) :
    (Node.template span name argument).IsPlaced source := by
  refine .of_inside hspan rfl trivial ?_
  intro enters part hpart
  simp only [Node.parts, List.mem_map, Option.mem_toList, Prod.mk.injEq] at hpart
  obtain ⟨pipe, hsome, rfl, rfl⟩ := hpart
  exact hargument pipe hsome

theorem branch_isPlaced
    {keyword : BranchKeyword} {branch : Branch Node} (hspan : branch.span.LiesIn source)
    (hpipe : (Node.pipe branch.pipe).IsPlaced source ∧ branch.pipe.span.Inside branch.span)
    (hbody : (Node.body branch.body).IsPlaced source ∧ branch.body.span.Inside branch.span)
    (hotherwise : ∀ otherwise, branch.otherwise = some otherwise →
      ((Node.body otherwise).IsPlaced source ∧ otherwise.span.Inside branch.span) ∧
        branch.body.span.stop < otherwise.span.start) :
    (Node.branch keyword branch).IsPlaced source := by
  refine .of_inside hspan rfl (fun otherwise hsome => (hotherwise otherwise hsome).2) ?_
  intro enters part hpart
  simp only [Node.parts, List.mem_cons, List.mem_map, Option.mem_toList, Prod.mk.injEq]
    at hpart
  rcases hpart with ⟨rfl, rfl⟩ | ⟨rfl, rfl⟩ | ⟨body, hsome, rfl, rfl⟩
  · exact hpipe
  · exact hbody
  · exact (hotherwise body hsome).1

end Placing

end TemplateTyping
