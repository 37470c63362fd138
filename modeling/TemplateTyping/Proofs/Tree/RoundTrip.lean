import TemplateTyping.Proofs.Token.Tiling
import TemplateTyping.Proofs.Tree.Rereading
import TemplateTyping.Proofs.Tree.Termination

/-!
# Printing undoes reading

The pieces of a readable body are read as the body again, up to places.  The printed
form of a body that was read is cut into its pieces, so that reading it again gives
one template with the same body up to places.
-/

namespace TemplateTyping

open Lexer

/-- The keyword that ends a body. -/
def Ending.keyword : Ending → Keyword
  | .elseEnding _ => .elseKeyword
  | .endEnding => .endKeyword

namespace TreeReader

open TokenReader

/-! ## How nodes start -/

/-- Whether a token of this kind starts a node of a body. -/
def startsNode : TokenKind → Bool
  | .text _ | .comment _ | .leftDelim => true
  | _ => false

/-- Whether a token of this kind starts an action that is no definition. -/
def startsAction : TokenKind → Bool
  | .keyword .define | .space => false
  | _ => true

theorem startsAction_of_startsOperand {kind : TokenKind} (h : startsOperand kind = true) :
    startsAction kind = true := by
  cases kind with
  | keyword keyword =>
      cases keyword with
      | define => exact h
      | _ => rfl
  | space => exact h
  | _ => rfl

/-- A node is a piece of its own, or it starts with an action that is no definition. -/
theorem pieces_cases
    {inRange : Bool} {node : Node} (h : node.IsReadable inRange) :
    (∃ piece, node.pieces = [piece] ∧ startsNode piece.1 = true ∧ piece.1 ≠ .leftDelim) ∨
      ∃ piece pieces, node.pieces = leftPiece :: piece :: pieces ∧ pieces ≠ [] ∧
        startsAction piece.1 = true := by
  cases node with
  | text span text => exact .inl ⟨_, rfl, rfl, by simp⟩
  | comment span text => exact .inl ⟨_, rfl, rfl, by simp⟩
  | action span pipe =>
      obtain ⟨piece, pieces, hpieces, hstarts⟩ :=
        exists_pipePieces (show pipe.IsReadable 1 from h)
      refine .inr ⟨piece, pieces ++ [rightPiece], ?_, by simp,
        startsAction_of_startsOperand hstarts⟩
      rw [Node.pieces, hpieces]
      rfl
  | branch keyword b =>
      obtain ⟨span, pipe, body, otherwise⟩ := b
      exact .inr ⟨_, _, rfl, by simp, rfl⟩
  | template span name argument =>
      cases argument with
      | none => exact .inr ⟨_, _, rfl, by simp, rfl⟩
      | some argument => exact .inr ⟨_, _, rfl, by simp, rfl⟩
  | jump span keyword => exact .inr ⟨_, _, rfl, by simp, rfl⟩
  | _ => exact h.elim

theorem exists_nodePieces
    {inRange : Bool} {node : Node} (h : node.IsReadable inRange) :
    ∃ piece pieces, node.pieces = piece :: pieces ∧ startsNode piece.1 = true := by
  rcases pieces_cases h with ⟨piece, hpieces, hstarts, _⟩ | ⟨piece, pieces, hpieces, _⟩
  · exact ⟨piece, [], hpieces, hstarts⟩
  · exact ⟨leftPiece, piece :: pieces, hpieces, rfl⟩

theorem nodePieces_length_pos
    {inRange : Bool} {node : Node} (h : node.IsReadable inRange) :
    0 < node.pieces.length := by
  obtain ⟨piece, pieces, hpieces, _⟩ := exists_nodePieces h
  simp [hpieces]

theorem exists_nodesPieces
    {inRange : Bool} {nodes : List Node} (h : NodesReadable inRange nodes)
    (later : List Piece) :
    ∃ piece pieces, nodesPieces nodes ++ leftPiece :: later = piece :: pieces ∧
      startsNode piece.1 = true := by
  cases nodes with
  | nil => exact ⟨leftPiece, later, rfl, rfl⟩
  | cons node nodes =>
      obtain ⟨piece, pieces, hpieces, hstarts⟩ := exists_nodePieces h.1
      simp only [nodesPieces, hpieces, List.cons_append]
      exact ⟨piece, _, rfl, hstarts⟩

/-! ## Nodes without bodies -/

/-- The item is the node up to places. -/
def IsRereadItem (node : Node) (item : Item) : Prop :=
  ∃ node', item = .node node' ∧ node'.unplaced = node.unplaced

theorem templateName_delivers
    {name : String} (hname : name.toList.all isPrintableAscii = true) (span : Span)
    (clause : Clause) {pieces : List Piece} :
    Delivers (templateName ⟨.string, span, Quoted.text name⟩ clause) pieces pieces
      fun result => result = name :=
  .lift (.literal (Quoted.string_text (List.all_eq_true.mp hname)))

/-- An action is read after its left delimiter. -/
theorem itemWithin_delivers
    {fuel : Nat} {origin : Origin} {inRange : Bool} {pieces later : List Piece}
    {post : Item → Prop} (hne : pieces ≠ [])
    (h : ∀ start, Delivers (actionWithin fuel origin inRange start) pieces later post) :
    Delivers (itemWithin (fuel + 1) origin inRange) (leftPiece :: pieces) later post := by
  refine (Delivers.lift (.nextNonSpace (.inl rfl) (by simp [leftPiece]) hne)).bind ?_
  rintro _ ⟨span, rfl⟩
  exact h span.start

theorem actionWithin_delivers_template
    (fuel : Nat) (origin : Origin) (inRange : Bool) (start : Nat) {later : List Piece}
    {node : Node} {pieces : List Piece} (hne : pieces ≠ [])
    (h : Delivers (templateNode start) pieces later
      fun node' => node'.unplaced = node.unplaced) :
    Delivers (actionWithin (fuel + 1) origin inRange start)
      (Keyword.template.piece :: pieces) later (IsRereadItem node) := by
  refine (Delivers.lift (.nextNonSpace (.inl rfl) (by simp [Keyword.piece]) hne)).bind ?_
  rintro _ ⟨span, rfl⟩
  exact h.bind fun node' hnode' => .pure ⟨node', rfl, hnode'⟩

section Actions

variable (fuel : Nat) (origin : Origin) (inRange : Bool) (start : Nat)
  {later : List Piece} (hlater : later ≠ [])
include hlater

theorem actionWithin_delivers_action
    {pipe : Pipe Node} (h : pipe.IsReadable 1) (span : Span) :
    Delivers (actionWithin (fuel + 1) origin inRange start)
      (pipe.pieces ++ rightPiece :: later) later (IsRereadItem (.action span pipe)) := by
  obtain ⟨⟨kind, text⟩, pieces, hpieces, hstarts⟩ := exists_pipePieces h
  have hpipe := pipeline_delivers .command h (.inl rfl) hlater
  rw [hpieces] at hpipe ⊢
  have hspace : kind ≠ .space := TokenKind.ne_of_class hstarts rfl
  refine (Delivers.lift (.nextNonSpace (.inl rfl) hspace (by simp))).bind ?_
  rintro _ ⟨span', rfl⟩
  have heof : kind ≠ .eof := TokenKind.ne_of_class hstarts rfl
  have hread : Delivers (do
      putBack ⟨kind, span', text⟩
      let pipe ← pipeline .command
      return Item.node (.action ⟨start, ← lastEnd⟩ pipe))
      (pieces ++ rightPiece :: later) later (IsRereadItem (.action span pipe)) := by
    refine (Delivers.lift (.putBack heof span' text)).bind fun _ _ => ?_
    refine (Delivers.lift hpipe).bind fun pipe' hpipe' => ?_
    refine (Delivers.lift .lastEnd).bind fun stop _ => ?_
    exact .pure ⟨_, rfl, congrArg (Node.action .origin) hpipe'⟩
  cases kind with
  | keyword keyword =>
      cases keyword with
      | nilKeyword => exact hread
      | _ => cases hstarts
  | _ => exact hread

theorem actionWithin_delivers_jump
    {keyword : JumpKeyword} (h : inRange = true) (span : Span) :
    Delivers (actionWithin (fuel + 1) origin inRange start)
      ((Keyword.jump keyword).piece :: rightPiece :: later) later
      (IsRereadItem (.jump span keyword)) := by
  refine (Delivers.lift (.nextNonSpace (.inl rfl) (by simp [Keyword.piece])
    (by simp))).bind ?_
  rintro _ ⟨span', rfl⟩
  have hjump : ∀ token, Delivers (jumpNode inRange start token keyword) (rightPiece :: later)
      later fun node => node.unplaced = .jump .origin keyword := by
    intro token
    refine (Delivers.lift (.expectRightDelim _ hlater)).bind fun _ _ => ?_
    rw [if_pos h]
    exact (Delivers.lift .lastEnd).bind fun _ _ => .pure rfl
  exact (hjump _).bind fun node hnode => .pure ⟨node, rfl, hnode⟩

theorem templateNode_delivers_none
    {name : String} (hname : name.toList.all isPrintableAscii = true) :
    Delivers (templateNode start)
      (spacePiece :: (.string, Quoted.text name) :: rightPiece :: later) later
      fun node => node.unplaced = .template .origin name none := by
  refine (Delivers.lift (.nextNonSpace (.inr rfl) (by simp) (by simp))).bind ?_
  rintro _ ⟨span, rfl⟩
  refine (templateName_delivers hname span _).bind ?_
  rintro _ rfl
  refine (Delivers.lift (.nextNonSpace (.inl rfl) (by simp [rightPiece]) hlater)).bind ?_
  rintro _ ⟨span', rfl⟩
  exact (Delivers.lift .lastEnd).bind fun _ _ => .pure rfl

theorem templateNode_delivers_some
    {name : String} (hname : name.toList.all isPrintableAscii = true)
    {argument : Pipe Node} (h : argument.IsReadable 1) :
    Delivers (templateNode start)
      (spacePiece :: (.string, Quoted.text name) :: spacePiece ::
        (argument.pieces ++ rightPiece :: later)) later
      fun node => node.unplaced = .template .origin name (some argument.unplaced) := by
  obtain ⟨⟨kind, text⟩, pieces, hpieces, hstarts⟩ := exists_pipePieces h
  have hargument := pipeline_delivers .template h (.inl rfl) hlater
  rw [hpieces] at hargument ⊢
  have hspace : kind ≠ .space := TokenKind.ne_of_class hstarts rfl
  have heof : kind ≠ .eof := TokenKind.ne_of_class hstarts rfl
  have hright : kind ≠ .rightDelim := TokenKind.ne_of_class hstarts rfl
  refine (Delivers.lift (.nextNonSpace (.inr rfl) (by simp) (by simp))).bind ?_
  rintro _ ⟨span, rfl⟩
  refine (templateName_delivers hname span _).bind ?_
  rintro _ rfl
  refine (Delivers.lift (.nextNonSpace (.inr rfl) hspace (by simp))).bind ?_
  rintro _ ⟨span', rfl⟩
  rw [if_neg hright]
  refine (Delivers.lift (.putBack heof span' text)).bind fun _ _ => ?_
  refine (Delivers.lift hargument).bind fun argument' hargument' => ?_
  refine (Delivers.lift .lastEnd).bind fun _ _ => .pure ?_
  simp [Node.unplaced, unplacedArgument, hargument']

end Actions

/-! ## Bodies -/

/-- The action that ends a body. -/
def endingPieces (keyword : Keyword) : List Piece := [leftPiece, keyword.piece, rightPiece]

/-- The result is the nodes up to places, and the keyword that ends them. -/
def AreReread (nodes : List Node) (keyword : Keyword) (result : List Node × Ending) : Prop :=
  unplacedNodes result.1 = unplacedNodes nodes ∧ result.2.keyword = keyword

/-- The result is the body up to places, and the keyword that ends it. -/
def IsRereadBody (body : Body Node) (keyword : Keyword) (result : Body Node × Ending) : Prop :=
  result.1.unplaced = body.unplaced ∧ result.2.keyword = keyword

/-- An else or an end ends the nodes of a body. -/
theorem nodesWithin_delivers_nil
    (fuel : Nat) (origin : Origin) (inRange : Bool) {keyword : Keyword}
    (h : keyword = .elseKeyword ∨ keyword = .endKeyword) {later : List Piece}
    (hlater : later ≠ []) :
    Delivers (nodesWithin (fuel + 3) origin inRange) (endingPieces keyword ++ later) later
      (AreReread [] keyword) := by
  refine (Delivers.lift (.peekNonSpace (.inl rfl) (by simp [leftPiece]))).bind ?_
  rintro _ ⟨span, rfl⟩
  rw [if_neg (by simp [leftPiece])]
  rcases h with rfl | rfl
  · have hitem : Delivers (itemWithin (fuel + 2) origin inRange)
        (endingPieces .elseKeyword ++ later) later
        fun item => ∃ span, item = .elseItem span := by
      refine itemWithin_delivers (by simp) fun start => ?_
      refine (Delivers.lift (.nextNonSpace (.inl rfl) (by simp [Keyword.piece])
        (by simp))).bind ?_
      rintro _ ⟨span', rfl⟩
      refine (Delivers.lift (.peekNonSpace (.inl rfl) (by simp [rightPiece]))).bind ?_
      rintro _ ⟨span'', rfl⟩
      refine (Delivers.lift (.expectRightDelim _ hlater)).bind fun _ _ => ?_
      exact (Delivers.lift .lastEnd).bind fun _ _ => .pure ⟨_, rfl⟩
    refine hitem.bind ?_
    rintro _ ⟨span', rfl⟩
    exact .pure ⟨rfl, rfl⟩
  · have hitem : Delivers (itemWithin (fuel + 2) origin inRange)
        (endingPieces .endKeyword ++ later) later
        fun item => ∃ span, item = .endItem span := by
      refine itemWithin_delivers (by simp) fun start => ?_
      refine (Delivers.lift (.nextNonSpace (.inl rfl) (by simp [Keyword.piece])
        (by simp))).bind ?_
      rintro _ ⟨span', rfl⟩
      refine (Delivers.lift (.expectRightDelim _ hlater)).bind fun _ _ => ?_
      exact (Delivers.lift .lastEnd).bind fun _ _ => .pure ⟨_, rfl⟩
    refine hitem.bind ?_
    rintro _ ⟨span', rfl⟩
    exact .pure ⟨rfl, rfl⟩

theorem nodesWithin_delivers_cons
    {fuel : Nat} {origin : Origin} {inRange : Bool} {node : Node} {nodes : List Node}
    {keyword : Keyword} {tail later : List Piece} (h : node.IsReadable inRange)
    (hnode : Delivers (itemWithin fuel origin inRange) (node.pieces ++ tail) tail
      (IsRereadItem node))
    (hnodes : Delivers (nodesWithin fuel origin inRange) tail later
      (AreReread nodes keyword)) :
    Delivers (nodesWithin (fuel + 1) origin inRange) (node.pieces ++ tail) later
      (AreReread (node :: nodes) keyword) := by
  obtain ⟨piece, pieces, hpieces, hstarts⟩ := exists_nodePieces h
  rw [hpieces] at hnode ⊢
  have hspace : piece.1 ≠ .space := TokenKind.ne_of_class hstarts rfl
  have heof : piece.1 ≠ .eof := TokenKind.ne_of_class hstarts rfl
  refine (Delivers.lift (.peekNonSpace (.inl rfl) hspace)).bind ?_
  rintro _ ⟨span, rfl⟩
  rw [if_neg heof]
  refine hnode.bind ?_
  rintro _ ⟨node', rfl, hnode'⟩
  refine hnodes.bind ?_
  rintro ⟨nodes', ending⟩ ⟨hnodes', hending⟩
  exact .pure ⟨by simp only [unplacedNodes, hnode', hnodes'], hending⟩

theorem bodyWithin_delivers
    {fuel : Nat} {origin : Origin} {inRange : Bool} {span : Span} {nodes : List Node}
    {keyword : Keyword} {later : List Piece} (h : NodesReadable inRange nodes)
    (hnodes : Delivers (nodesWithin fuel origin inRange)
      (nodesPieces nodes ++ (endingPieces keyword ++ later)) later
      (AreReread nodes keyword)) :
    Delivers (bodyWithin (fuel + 1) origin inRange)
      (nodesPieces nodes ++ (endingPieces keyword ++ later)) later
      (IsRereadBody ⟨span, nodes⟩ keyword) := by
  obtain ⟨piece, pieces, hpieces, hstarts⟩ :=
    exists_nodesPieces h (keyword.piece :: rightPiece :: later)
  change nodesPieces nodes ++ (endingPieces keyword ++ later) = _ at hpieces
  rw [hpieces] at hnodes ⊢
  refine (Delivers.lift .peek).bind fun start _ => ?_
  refine hnodes.bind ?_
  rintro ⟨nodes', ending⟩ ⟨hnodes', hending⟩
  exact .pure ⟨congrArg (Body.mk .origin) hnodes', hending⟩

/-- A body after an else starts with no keyword, so no branch is continued. -/
theorem otherwiseWithin_delivers
    {fuel : Nat} {origin : Origin} {inRange : Bool} (keyword : BranchKeyword)
    {body : Body Node} (h : body.IsReadable inRange) {later : List Piece}
    (hbody : Delivers (bodyWithin fuel origin inRange)
      (body.pieces ++ (endingPieces .endKeyword ++ later)) later
      (IsRereadBody body .endKeyword)) :
    Delivers (otherwiseWithin (fuel + 1) origin inRange keyword)
      (body.pieces ++ (endingPieces .endKeyword ++ later)) later
      fun body' => body'.unplaced = body.unplaced := by
  obtain ⟨span, nodes⟩ := body
  obtain ⟨⟨kind, text⟩, pieces, hpieces, hstarts⟩ :=
    exists_nodesPieces h (Keyword.endKeyword.piece :: rightPiece :: later)
  change Body.pieces ⟨span, nodes⟩ ++ (endingPieces .endKeyword ++ later) = _ at hpieces
  rw [hpieces] at hbody ⊢
  have hcontinues : ¬ continuesBranch keyword kind = true := by
    cases kind with
    | keyword keyword => cases hstarts
    | _ => simp [continuesBranch]
  refine (Delivers.lift .peek).bind ?_
  rintro _ ⟨span', rfl⟩
  rw [if_neg hcontinues]
  refine hbody.bind ?_
  rintro ⟨body', ending⟩ ⟨hbody', hending⟩
  cases ending with
  | elseEnding span => cases hending
  | endEnding => exact .pure hbody'

theorem branchPieces_eq (branch : Branch Node) (keyword : BranchKeyword) :
    ∃ pieces, branch.pieces keyword =
      leftPiece :: (Keyword.branch keyword).piece :: pieces := by
  obtain ⟨span, pipe, body, otherwise⟩ := branch
  exact ⟨_, rfl⟩

mutual

theorem node_delivers
    {inRange : Bool} {node : Node} (h : node.IsReadable inRange)
    (hplain : node.isPlain = true) {fuel : Nat}
    (hfuel : 8 * node.pieces.length ≤ fuel + 2) (origin : Origin) {later : List Piece}
    (hlater : later ≠ []) :
    Delivers (itemWithin fuel origin inRange) (node.pieces ++ later) later
      (IsRereadItem node) := by
  have hpos := nodePieces_length_pos h
  obtain ⟨fuel, rfl⟩ : ∃ depth, fuel = depth + 2 := ⟨fuel - 2, by omega⟩
  cases node with
  | text span text =>
      refine (Delivers.lift (.nextNonSpace (.inl rfl) (by simp) hlater)).bind ?_
      rintro _ ⟨span', rfl⟩
      exact .pure ⟨_, rfl, rfl⟩
  | comment span text =>
      refine (Delivers.lift (.nextNonSpace (.inl rfl) (by simp) hlater)).bind ?_
      rintro _ ⟨span', rfl⟩
      exact .pure ⟨_, rfl, rfl⟩
  | action span pipe =>
      have hpipe : pipe.IsReadable 1 := h
      rw [Node.pieces, List.cons_append, List.append_assoc]
      exact itemWithin_delivers (by simp) fun start =>
        actionWithin_delivers_action fuel origin inRange start hlater hpipe span
  | branch keyword b =>
      obtain ⟨pieces, hpieces⟩ := branchPieces_eq b keyword
      rw [Node.pieces, hpieces] at hfuel ⊢
      simp only [List.length_cons] at hfuel
      refine itemWithin_delivers (by simp) fun start => ?_
      refine (Delivers.lift (.nextNonSpace (.inl rfl) (by simp [Keyword.piece])
        (by simp [hlater]))).bind ?_
      rintro _ ⟨span', rfl⟩
      refine (branch_delivers h hplain hpieces (by omega) origin start hlater).bind ?_
      intro b' hb'
      exact .pure ⟨_, rfl, congrArg (Node.branch keyword) hb'⟩
  | template span name argument =>
      have hname : name.toList.all isPrintableAscii = true := hplain
      cases argument with
      | none =>
          exact itemWithin_delivers (by simp) fun start =>
            actionWithin_delivers_template fuel origin inRange start (by simp)
              (templateNode_delivers_none start hlater hname)
      | some argument =>
          have hargument : argument.IsReadable 1 := h
          simp only [Node.pieces, List.cons_append, List.append_assoc, List.nil_append]
          exact itemWithin_delivers (by simp) fun start =>
            actionWithin_delivers_template fuel origin inRange start (by simp)
              (templateNode_delivers_some start hlater hname hargument)
  | jump span keyword =>
      exact itemWithin_delivers (by simp) fun start =>
        actionWithin_delivers_jump fuel origin inRange start hlater h span
  | _ => exact h.elim
termination_by structural node

/-- The pieces of a branch after its keyword are read as the branch. -/
theorem branch_delivers
    {inRange : Bool} {keyword : BranchKeyword} {branch : Branch Node}
    (h : branch.IsReadable inRange keyword) (hplain : branch.isPlain = true)
    {pieces : List Piece}
    (hpieces : branch.pieces keyword = leftPiece :: (Keyword.branch keyword).piece :: pieces)
    {fuel : Nat} (hfuel : 8 * pieces.length ≤ fuel) (origin : Origin) (start : Nat)
    {later : List Piece} (hlater : later ≠ []) :
    Delivers (branchWithin fuel origin inRange start keyword) (pieces ++ later) later
      fun branch' => branch'.unplaced = branch.unplaced := by
  cases branch with
  | mk span pipe body otherwise =>
      obtain ⟨hpipe, hbody, hotherwise⟩ := h
      rw [Branch.isPlain, Bool.and_eq_true] at hplain
      obtain ⟨_, htail⟩ := List.cons.inj hpieces
      obtain ⟨_, rfl⟩ := List.cons.inj htail
      simp only [List.length_cons, List.length_append, List.length_nil] at hfuel
      obtain ⟨fuel, rfl⟩ : ∃ depth, fuel = depth + 2 := ⟨fuel - 2, by omega⟩
      have hlimit : pipe.IsReadable (Clause.branch keyword).limit := hpipe
      simp only [List.cons_append, List.append_assoc]
      refine (Delivers.lift (pipeline_delivers _ hlimit (.inr rfl) (by simp))).bind ?_
      intro pipe' hpipe'
      cases otherwise with
      | none =>
          have hdepth : 8 * (body.pieces.length + 3) ≤ fuel + 1 := by omega
          refine (body_delivers hbody hplain.1 (.inr rfl) hdepth origin hlater).bind ?_
          rintro ⟨body', ending⟩ ⟨hbody', hending⟩
          cases ending with
          | elseEnding span => cases hending
          | endEnding =>
              refine (Delivers.lift .lastEnd).bind fun stop _ => .pure ?_
              simp only [Branch.unplaced, hpipe', hbody', unplacedOtherwise]
      | some alternative =>
          simp only [otherwisePieces, List.length_cons] at hfuel
          have hdepth : 8 * (body.pieces.length + 3) ≤ fuel + 1 := by omega
          have hdepth' : 8 * (alternative.pieces.length + 3) ≤ fuel := by omega
          have halternative : alternative.IsReadable inRange := hotherwise
          have hotherwise := otherwiseWithin_delivers keyword halternative
            (body_delivers halternative hplain.2 (.inr rfl) hdepth' origin hlater)
          refine (body_delivers hbody hplain.1 (.inl rfl) hdepth origin (by simp)).bind ?_
          rintro ⟨body', ending⟩ ⟨hbody', hending⟩
          cases ending with
          | endEnding => cases hending
          | elseEnding span =>
              refine hotherwise.bind fun alternative' halternative' => ?_
              refine (Delivers.lift .lastEnd).bind fun stop _ => .pure ?_
              simp only [Branch.unplaced, hpipe', hbody', unplacedOtherwise, halternative']
termination_by structural branch

theorem body_delivers
    {inRange : Bool} {body : Body Node} (h : body.IsReadable inRange)
    (hplain : body.isPlain = true) {keyword : Keyword}
    (hkeyword : keyword = .elseKeyword ∨ keyword = .endKeyword) {fuel : Nat}
    (hfuel : 8 * (body.pieces.length + 3) ≤ fuel) (origin : Origin) {later : List Piece}
    (hlater : later ≠ []) :
    Delivers (bodyWithin fuel origin inRange)
      (body.pieces ++ (endingPieces keyword ++ later)) later
      (IsRereadBody body keyword) := by
  obtain ⟨fuel, rfl⟩ : ∃ depth, fuel = depth + 1 := ⟨fuel - 1, by omega⟩
  cases body with
  | mk span nodes =>
      exact bodyWithin_delivers h (nodes_deliver h hplain hkeyword hfuel origin hlater)
termination_by structural body

theorem nodes_deliver
    {inRange : Bool} {nodes : List Node} (h : NodesReadable inRange nodes)
    (hplain : arePlain nodes = true) {keyword : Keyword}
    (hkeyword : keyword = .elseKeyword ∨ keyword = .endKeyword) {fuel : Nat}
    (hfuel : 8 * ((nodesPieces nodes).length + 3) ≤ fuel + 1) (origin : Origin)
    {later : List Piece} (hlater : later ≠ []) :
    Delivers (nodesWithin fuel origin inRange)
      (nodesPieces nodes ++ (endingPieces keyword ++ later)) later
      (AreReread nodes keyword) := by
  obtain ⟨fuel, rfl⟩ : ∃ depth, fuel = depth + 3 := ⟨fuel - 3, by omega⟩
  cases nodes with
  | nil => exact nodesWithin_delivers_nil fuel origin inRange hkeyword hlater
  | cons node nodes =>
      rw [arePlain, Bool.and_eq_true, Bool.and_eq_true] at hplain
      rw [nodesPieces, List.length_append] at hfuel
      have hpos := nodePieces_length_pos h.1
      rw [nodesPieces, List.append_assoc]
      exact nodesWithin_delivers_cons h.1
        (node_delivers h.1 hplain.1.1 (by omega) origin (by simp [hlater]))
        (nodes_deliver h.2 hplain.2 hkeyword (by omega) origin hlater)
termination_by structural nodes

end

/-! ## Templates -/

/-- However far it looked ahead for a definition, the reader goes back to where it
started if there is none. -/
theorem goBack_delivers {c : Cursor} {pieces : List Piece} (hc : c.pieces = pieces)
    (ahead : List Piece) :
    Delivers (do MonadStateOf.set c; return (none : Option Nat)) ahead pieces
      fun start => start = none :=
  (Delivers.setCursor hc).bind fun _ _ => .pure rfl

/-- An action that starts otherwise is no definition. -/
theorem definitionStart?_delivers_action
    {piece : Piece} (hstarts : startsAction piece.1 = true) {pieces : List Piece}
    (hne : pieces ≠ []) :
    Delivers definitionStart? (leftPiece :: piece :: pieces) (leftPiece :: piece :: pieces)
      fun start => start = none := by
  refine Delivers.getCursor.bind fun c hc => ?_
  have hspace : piece.1 ≠ .space := TokenKind.ne_of_class hstarts rfl
  have hdefine : piece.1 ≠ .keyword .define := TokenKind.ne_of_class hstarts rfl
  refine (Delivers.lift (.next (by simp))).bind ?_
  rintro _ ⟨span, rfl⟩
  refine (Delivers.lift (.nextNonSpace (.inl rfl) hspace hne)).bind ?_
  rintro _ ⟨span', rfl⟩
  rw [if_neg hdefine]
  exact goBack_delivers hc _

/-- A node is no definition. -/
theorem definitionStart?_delivers
    {inRange : Bool} {node : Node} (h : node.IsReadable inRange) {later : List Piece}
    (hlater : later ≠ []) :
    Delivers definitionStart? (node.pieces ++ later) (node.pieces ++ later)
      fun start => start = none := by
  rcases pieces_cases h with
    ⟨piece, hpieces, _, hleft⟩ | ⟨piece, pieces, hpieces, hne, hstarts⟩
  · rw [hpieces]
    refine Delivers.getCursor.bind fun c hc => ?_
    refine (Delivers.lift (.next hlater)).bind ?_
    rintro _ ⟨span, rfl⟩
    rw [if_neg hleft]
    exact goBack_delivers hc _
  · rw [hpieces]
    exact definitionStart?_delivers_action hstarts (by simp [hne])

/-- The pieces of readable and plain nodes are read as the nodes, up to places. -/
theorem topLevelWithin_delivers
    {nodes : List Node} (h : NodesReadable false nodes) (hplain : arePlain nodes = true)
    {fuel : Nat} (hfuel : (nodesPieces nodes).length < fuel) (origin : Origin) :
    Delivers (topLevelWithin fuel origin) (nodesPieces nodes ++ [(.eof, "")]) [(.eof, "")]
      fun nodes' => unplacedNodes nodes' = unplacedNodes nodes := by
  induction nodes generalizing fuel with
  | nil =>
      obtain ⟨fuel, rfl⟩ : ∃ depth, fuel = depth + 1 := ⟨fuel - 1, by omega⟩
      refine (Delivers.lift .peek).bind ?_
      rintro _ ⟨span, rfl⟩
      exact .pure rfl
  | cons node nodes ih =>
      have hpos := nodePieces_length_pos h.1
      rw [nodesPieces, List.length_append] at hfuel
      obtain ⟨fuel, rfl⟩ : ∃ depth, fuel = depth + 1 := ⟨fuel - 1, by omega⟩
      rw [arePlain, Bool.and_eq_true, Bool.and_eq_true] at hplain
      have hlater : nodesPieces nodes ++ [(.eof, "")] ≠ [] := by simp
      have hstart := definitionStart?_delivers h.1 hlater
      have hpeek : Delivers peek (node.pieces ++ (nodesPieces nodes ++ [(.eof, "")]))
          (node.pieces ++ (nodesPieces nodes ++ [(.eof, "")]))
          fun token => token.kind ≠ .eof := by
        obtain ⟨piece, pieces, hpieces, hstarts⟩ := exists_nodePieces h.1
        rw [hpieces]
        refine (Delivers.lift .peek).mono ?_
        rintro _ ⟨span, rfl⟩
        exact TokenKind.ne_of_class hstarts rfl
      rw [nodesPieces, List.append_assoc]
      refine hpeek.bind fun token htoken => ?_
      rw [if_neg htoken]
      refine hstart.bind ?_
      rintro _ rfl
      refine Delivers.getCursor.bind fun c hc => ?_
      have hdepth : 8 * node.pieces.length ≤ c.fuel + 2 := by
        have hsize := c.length_pieces
        rw [hc, List.length_append] at hsize
        unfold Cursor.fuel
        omega
      refine (node_delivers h.1 hplain.1.1 hdepth origin hlater).bind ?_
      rintro _ ⟨node', rfl, hnode'⟩
      refine (ih h.2 hplain.2 (by omega)).bind fun nodes' hnodes' => .pure ?_
      simp only [unplacedNodes, hnode', hnodes']

/-- Reads the template of the source itself, and collects all definitions. -/
def topLevel (origin : Origin) : TreeReader Tree := do
  let nodes ← topLevelWithin (← getThe Cursor).fuel origin
  return origin.tree origin.name ⟨⟨0, origin.source.utf8ByteSize⟩, nodes⟩

theorem templates_eq (origin : Origin) :
    templates origin = topLevel origin >>= fun tree => define tree .origin := by
  simp [templates, topLevel]

theorem topLevel_settles
    (origin : Origin) {source : List Token} {c : Cursor}
    (h : Leaves (Closes false) source c.tokens) :
    Settles origin source (topLevel origin) c fun tree completed c' =>
      ∃ nodes, tree = origin.tree origin.name ⟨⟨0, origin.source.utf8ByteSize⟩, nodes⟩ ∧
        Derives origin source (.topLevel nodes) c completed c' := by
  refine .bind_ok rfl ((topLevelWithin_settles c.fuel h c.length_lt_fuel).bind_ret ?_)
  intro nodes completed c' hnodes
  exact ⟨_, _, fun _ => rfl, nodes, rfl, hnodes⟩

theorem topLevel_delivers
    {body : Body Node} (h : body.IsReadable false) (hplain : body.isPlain = true)
    (origin : Origin) :
    Delivers (topLevel origin) (body.pieces ++ [(.eof, "")]) [(.eof, "")]
      fun tree => tree.name = origin.name ∧ tree.root.unplaced = body.unplaced := by
  obtain ⟨span, nodes⟩ := body
  refine Delivers.getCursor.bind fun c hc => ?_
  have hdepth : (nodesPieces nodes).length < c.fuel := by
    have hsize := c.length_pieces
    rw [hc, List.length_append] at hsize
    simp only [Body.pieces] at hsize
    unfold Cursor.fuel
    omega
  refine (topLevelWithin_delivers h hplain hdepth origin).bind fun nodes' hnodes' => ?_
  exact .pure ⟨rfl, congrArg (Body.mk .origin) hnodes'⟩

end TreeReader

/-! ## The template of a source -/

/-- The template of a sequence of tokens itself. -/
def Tree.ofTokens (origin : Origin) (tokens : List Token) : Except Halt Tree :=
  match (TreeReader.topLevel origin).run NameMap.empty |>.run (Cursor.ofTokens tokens) with
  | .ok ((tree, _), _) => .ok tree
  | .error halt => .error halt

/-- The template of a source itself, without those that it defines. -/
def Tree.parse (d : Delimiters) (name source : String) : Except Halt Tree :=
  match tokenize d source with
  | .ok tokens => Tree.ofTokens ⟨name, source⟩ tokens
  | .error fault => .error (.fault fault)

theorem Cursor.pieces_ofTokens {tokens : List Token} (hne : tokens ≠ []) :
    (Cursor.ofTokens tokens).pieces = tokens.map Token.piece := by
  obtain ⟨token, tokens, rfl⟩ := List.exists_cons_of_ne_nil hne
  rfl

/-- Reading all templates reads the template of the source itself, and adds it to
those that the source defines. -/
theorem TemplateSet.ofTokens_eq_ok
    {origin : Origin} {tokens : List Token} {set : TemplateSet} :
    TemplateSet.ofTokens origin tokens = .ok set ↔
      ∃ tree defined c, TreeReader.topLevel origin NameMap.empty (Cursor.ofTokens tokens) =
          .ok ((tree, defined), c) ∧ TemplateSet.define? defined tree = some set := by
  unfold TemplateSet.ofTokens
  rw [TreeReader.templates_eq]
  cases htop : TreeReader.topLevel origin NameMap.empty (Cursor.ofTokens tokens) with
  | error halt => simp [StateT.run, Bind.bind, StateT.bind, Except.bind, htop]
  | ok result =>
      obtain ⟨⟨tree, defined⟩, c⟩ := result
      simp only [StateT.run, Bind.bind, StateT.bind, Except.bind, htop,
        TreeReader.define_apply]
      constructor
      · intro h
        refine ⟨tree, defined, c, rfl, ?_⟩
        cases hset : TemplateSet.define? defined tree with
        | some set' =>
            rw [hset] at h
            cases h
            rfl
        | none =>
            rw [hset] at h
            cases h
      · rintro ⟨_, _, _, ⟨⟩, hset⟩
        rw [hset]
        rfl

/-- What a tree adds to a set: it is found under its name afterwards, unless it is
blank. -/
theorem TemplateSet.get?_of_define?
    {set set' : TemplateSet} {tree : Tree} (h : set.define? tree = some set') :
    set'.get? tree.name = some tree ∨ tree.isBlank = true := by
  rcases TemplateSet.define?_cases h with ⟨-, hblank⟩ | ⟨rfl, -⟩
  · exact .inr hblank
  · simp [TemplateSet.put]

/-- What is read from a source includes its own template, which is readable; it is
found under the name of the source unless it is blank. -/
theorem Tree.parse_of_parse
    {d : Delimiters} {name source : String} {set : TemplateSet}
    (h : TemplateSet.parse d name source = .ok set) :
    ∃ tree, Tree.parse d name source = .ok tree ∧ tree.root.IsReadable false ∧
      (set.get? name = some tree ∨ tree.isBlank = true) := by
  unfold TemplateSet.parse at h
  cases htokens : tokenize d source with
  | error fault =>
      rw [htokens] at h
      cases h
  | ok tokens =>
      rw [htokens] at h
      obtain ⟨tree, defined, c, htop, hset⟩ := TemplateSet.ofTokens_eq_ok.mp h
      have hsettles := TreeReader.topLevel_settles ⟨name, source⟩ (Cursor.leaves_ofTokens htokens)
      obtain ⟨_, -, nodes, rfl, hnodes⟩ := hsettles.of_run htop
      refine ⟨_, ?_, ?_, TemplateSet.get?_of_define? hset⟩
      · simp [Tree.parse, htokens, Tree.ofTokens, StateT.run, htop]
      · exact hnodes.isReadable (tokenize_lexed htokens)

/-- The printed form of a readable and plain body is read as one template, whose body
differs in places only. -/
theorem TemplateSet.parse_print
    {body : Body Node} (h : body.IsReadable false) (hplain : body.isPlain = true)
    (name : String) :
    ∃ set tree, TemplateSet.parse .standard name body.print = .ok set ∧
      set.entries = [(name, tree)] ∧ tree.root.unplaced = body.unplaced := by
  obtain ⟨tokens, htokens, hpieces⟩ := tokenize_print h hplain
  have hne : tokens ≠ [] := by
    rintro rfl
    simp at hpieces
  have hcursor : (Cursor.ofTokens tokens).pieces = body.pieces ++ [(.eof, "")] := by
    rw [Cursor.pieces_ofTokens hne, hpieces]
  obtain ⟨⟨tree, defined⟩, c, hread, _, rfl, hname, hroot⟩ :=
    TreeReader.topLevel_delivers h hplain ⟨name, body.print⟩ NameMap.empty _ hcursor
  refine ⟨TemplateSet.put NameMap.empty tree, tree, ?_, ?_, hroot⟩
  · unfold TemplateSet.parse
    rw [htokens]
    exact TemplateSet.ofTokens_eq_ok.mpr ⟨tree, _, c, hread, rfl⟩
  · exact congrArg (fun name => [(name, tree)]) hname

/-- Printing undoes reading.  The template of every source that can be read is found
under the name of the source, unless it is blank.  If no text in it holds an opening
brace, no text follows another, and the names of the templates it invokes are
printable ASCII text, then its printed form is read as one template of the same name,
which differs from it in places only. -/
theorem print_roundTrip
    {name source : String} {set : TemplateSet}
    (h : TemplateSet.parse .standard name source = .ok set) :
    ∃ tree, Tree.parse .standard name source = .ok tree ∧
      (set.get? name = some tree ∨ tree.isBlank = true) ∧
        (tree.root.isPlain = true → ∃ set' tree',
          TemplateSet.parse .standard name tree.root.print = .ok set' ∧
            set'.entries = [(name, tree')] ∧
              tree'.root.unplaced = tree.root.unplaced) := by
  obtain ⟨tree, hparse, hreadable, hget⟩ := Tree.parse_of_parse h
  refine ⟨tree, hparse, hget, ?_⟩
  intro hplain
  exact TemplateSet.parse_print hreadable hplain name

/-- A source with trim markers, a raw string and a definition. -/
def pageSource : String :=
  "a \x7b\x7b- with $x := (.A).B -\x7d\x7d \x7b\x7btemplate \x60t\x60 $x\x7d\x7d" ++
    "\x7b\x7belse\x7d\x7db\x7b\x7bend\x7d\x7d\x7b\x7bdefine \"t\"\x7d\x7d\x7b\x7bend\x7d\x7d"

/-- The template of that source as it is printed. -/
def pagePrinted : String :=
  "a\x7b\x7bwith $x := (.A).B\x7d\x7d\x7b\x7btemplate \"t\" $x\x7d\x7d" ++
    "\x7b\x7belse\x7d\x7db\x7b\x7bend\x7d\x7d"

/-- Trim markers, raw strings and definitions do not come back. -/
theorem print_roundTrip_page :
    ∃ tree, Tree.parse .standard "page" pageSource = .ok tree ∧
      tree.root.isPlain = true ∧ tree.root.print = pagePrinted ∧
        ∃ set' tree', TemplateSet.parse .standard "page" tree.root.print = .ok set' ∧
          set'.entries = [("page", tree')] ∧
            tree'.root.unplaced = tree.root.unplaced := by
  have hread : (TemplateSet.parse .standard "page" pageSource).isOk = true := by
    decide +kernel
  have hchecks : (Tree.parse .standard "page" pageSource).toOption.any (fun tree =>
      tree.root.isPlain && tree.root.print == pagePrinted) = true := by
    decide +kernel
  cases hset : TemplateSet.parse .standard "page" pageSource with
  | error halt =>
      rw [hset] at hread
      cases hread
  | ok set =>
      obtain ⟨tree, htree, _, hprint⟩ := print_roundTrip hset
      rw [htree] at hchecks
      obtain ⟨hplain, hprinted⟩ := Bool.and_eq_true_iff.mp hchecks
      exact ⟨tree, htree, hplain, eq_of_beq hprinted, hprint hplain⟩

end TemplateTyping
