import TemplateTyping.Proofs.Tree.Holding
import TemplateTyping.Proofs.Tree.RoundTrip

/-!
# Parts of trees

What holds of all nodes that stand somewhere in a tree is shown by going from a node
to its parts.  Two results rest on this.  In a tree that was read every part has a fitting shape:
lists hold text, comments and actions, pipelines have commands, commands have
operands.  And a jump stands in the body of a range, if the tree was read outside of
ranges.
-/

namespace TemplateTyping

open Lexer

/-! ## Parts of readable trees -/

theorem areReadable_iff {commands : List (Command Node)} :
    AreReadable commands ↔ ∀ command ∈ commands, command.IsReadable := by
  induction commands with
  | nil => simp [AreReadable]
  | cons command commands ih => simp [AreReadable, ih]

theorem areOperands_iff {operands : List Node} :
    AreOperands operands ↔ ∀ operand ∈ operands, operand.IsOperand := by
  induction operands with
  | nil => simp [AreOperands]
  | cons operand operands ih => simp [AreOperands, ih]

theorem nodesReadable_iff {inRange : Bool} {nodes : List Node} :
    NodesReadable inRange nodes ↔ ∀ node ∈ nodes, node.IsReadable inRange := by
  induction nodes with
  | nil => simp [NodesReadable]
  | cons node nodes ih => simp [NodesReadable, ih]

theorem Pipe.isReadable_iff {pipe : Pipe Node} {limit : Nat} :
    pipe.IsReadable limit ↔ AreDeclared limit pipe.isAssign pipe.declared ∧
      pipe.commands ≠ [] ∧ TokenReader.notExecutable? 2 pipe.commands.tail = none ∧
        AreReadable pipe.commands := by
  cases pipe
  rfl

theorem Command.isReadable_iff {command : Command Node} :
    command.IsReadable ↔ command.operands ≠ [] ∧ AreOperands command.operands := by
  cases command
  rfl

theorem Body.isReadable_iff {inRange : Bool} {body : Body Node} :
    body.IsReadable inRange ↔ NodesReadable inRange body.nodes := by
  cases body
  rfl

theorem Branch.isReadable_iff {inRange : Bool} {keyword : BranchKeyword} {branch : Branch Node} :
    branch.IsReadable inRange keyword ↔ branch.pipe.IsReadable keyword.limit ∧
      branch.body.IsReadable (inRange || keyword == .rangeKeyword) ∧
        OtherwiseReadable inRange branch.otherwise := by
  cases branch
  rfl

/-- What is known of every node in a readable tree, by the place it may have. -/
def Node.IsReadablePart (inRange : Bool) : Node → Prop
  | .body b => b.IsReadable inRange
  | .pipe p => ∃ limit, p.IsReadable limit
  | .command c => c.IsReadable
  | node => node.IsReadable inRange ∨ node.IsOperand

namespace Node

variable {inRange enters : Bool} {node part : Node}

theorem IsReadable.isReadablePart (h : node.IsReadable inRange) :
    node.IsReadablePart inRange := by
  cases node with
  | body body => exact h.elim
  | command command => exact h.elim
  | pipe pipe => exact h.elim
  | _ => exact .inl h

theorem IsOperand.isReadablePart (h : node.IsOperand) : node.IsReadablePart inRange := by
  cases node with
  | body body => exact h.elim
  | command command => exact h.elim
  | pipe pipe => exact ⟨1, h⟩
  | _ => exact .inr h

/-- The parts of a readable part are readable in their places. -/
theorem IsReadablePart.of_mem_parts
    (h : node.IsReadablePart inRange) (hpart : (enters, part) ∈ node.parts) :
    part.IsReadablePart (inRange || enters) := by
  cases node with
  | action span pipe =>
      obtain ⟨rfl, rfl⟩ : enters = false ∧ part = .pipe pipe := by simpa [parts] using hpart
      rcases h with h | h
      · exact ⟨1, h⟩
      · exact h.elim
  | body body =>
      obtain ⟨part, hmem, rfl, rfl⟩ : ∃ node ∈ body.nodes, false = enters ∧ node = part := by
        simpa [parts] using hpart
      rw [Bool.or_false]
      exact (nodesReadable_iff.mp (Body.isReadable_iff.mp h) part hmem).isReadablePart
  | pipe pipe =>
      obtain ⟨limit, hpipe⟩ := h
      obtain ⟨hdeclared, _, _, hcommands⟩ := Pipe.isReadable_iff.mp hpipe
      simp only [parts, List.mem_append, List.mem_map, Prod.mk.injEq] at hpart
      rcases hpart with ⟨v, hv, rfl, rfl⟩ | ⟨command, hcommand, rfl, rfl⟩
      · obtain ⟨name, hpath, hname⟩ := hdeclared.single v hv
        exact .inr ⟨name, [], hpath, hname, by simp⟩
      · exact areReadable_iff.mp hcommands command hcommand
  | command command =>
      obtain ⟨part, hmem, rfl, rfl⟩ : ∃ node ∈ command.operands, false = enters ∧ node = part := by
        simpa [parts] using hpart
      exact (areOperands_iff.mp (Command.isReadable_iff.mp h).2 part hmem).isReadablePart
  | chain span receiver path =>
      obtain ⟨rfl, rfl⟩ : enters = false ∧ part = receiver := by simpa [parts] using hpart
      rcases h with h | h
      · exact h.elim
      · exact h.2.1.isReadablePart
  | branch keyword branch =>
      rcases h with h | h
      · obtain ⟨hpipe, hbody, hotherwise⟩ := Branch.isReadable_iff.mp h
        simp only [parts, List.mem_cons, List.mem_map, Option.mem_toList, Prod.mk.injEq]
          at hpart
        rcases hpart with ⟨rfl, rfl⟩ | ⟨rfl, rfl⟩ | ⟨body, hsome, rfl, rfl⟩
        · exact ⟨_, hpipe⟩
        · exact hbody
        · rw [hsome] at hotherwise
          rw [Bool.or_false]
          exact hotherwise
      · exact h.elim
  | template span name argument =>
      simp only [parts, List.mem_map, Option.mem_toList, Prod.mk.injEq] at hpart
      obtain ⟨pipe, rfl, rfl, rfl⟩ := hpart
      rcases h with h | h
      · exact ⟨1, h⟩
      · exact h.elim
  | _ => simp [parts] at hpart

theorem IsReadablePart.holds
    {root : Node} (h : root.IsReadablePart enters) (hholds : root.Holds inRange node) :
    node.IsReadablePart (enters || inRange) := by
  induction hholds with
  | refl =>
      rw [Bool.or_false]
      exact h
  | part _ hmem ih =>
      rw [← Bool.or_assoc]
      exact ih.of_mem_parts hmem

end Node

/-- In a body that was read outside of ranges, a jump stands in the body of a range. -/
theorem Body.IsReadable.jump_inRange
    {body : Body Node} (h : body.IsReadable false) {inRange : Bool} {span : Span}
    {keyword : JumpKeyword} (hjump : (Node.body body).Holds inRange (.jump span keyword)) :
    inRange = true := by
  have hroot : (Node.body body).IsReadablePart false := h
  rcases hroot.holds hjump with hreadable | hoperand
  · rwa [Bool.false_or] at hreadable
  · exact hoperand.elim

/-! ## Fitting shapes -/

/-- A name after a dot: a word with at least one character. -/
def isNonemptyWord (name : String) : Bool := name != "" && name.toList.all isWordChar

/-- Names after dots, at least one. -/
def isFieldPath (path : List String) : Bool := !path.isEmpty && path.all isNonemptyWord

/-- Whether a pipeline sets no more variables than it may. -/
def Pipe.sets (pipe : Pipe Node) (limit : Nat) : Bool := pipe.declared.length ≤ limit

/-- Whether a command starts with a term that cannot be called. -/
def Command.isConstant (command : Command Node) : Bool :=
  command.operands.head?.any TokenReader.isConstant

/-- Whether a node may stand in a list. -/
def Node.isListed : Node → Bool
  | .text _ content => content != ""
  | .comment _ _ | .action _ _ | .branch _ _ | .template _ _ _ | .jump _ _ => true
  | _ => false

/-- Whether a node may stand as an operand. -/
def Node.isTerm : Node → Bool
  | .field _ _ | .chain _ _ _ | .variable _ | .identifier _ _ | .dot _ | .bool _ _
  | .string _ _ _ | .number _ _ | .nil _ | .pipe _ => true
  | _ => false

/-- Whether a pipeline that stands as an operand sets at most one variable. -/
def Node.setsOne : Node → Bool
  | .pipe p => p.sets 1
  | _ => true

/-- Whether the parts of a node are of the kinds and the number that they must be. -/
def Node.fits : Node → Bool
  | .body b => b.nodes.all isListed
  | .action _ p => p.sets 1
  | .template _ _ argument => argument.all (·.sets 1)
  | .branch keyword b => b.pipe.sets keyword.limit
  | .pipe p =>
      p.declared.all (·.path.length == 1) && !p.commands.isEmpty &&
        p.commands.tail.all (!·.isConstant)
  | .command c => !c.operands.isEmpty && c.operands.all fun node => node.isTerm && node.setsOne
  | .chain _ receiver path => receiver.isReceiver && receiver.setsOne && isFieldPath path
  | .field _ path => isFieldPath path
  | .variable v => v.path.head?.any (·.toList.head? == some '$') && v.path.tail.all isNonemptyWord
  | _ => true

/-- Every node that stands in this one has a fitting shape. -/
def Node.IsWellFormed (root : Node) : Prop :=
  ∀ inRange node, root.Holds inRange node → node.fits = true

theorem Node.IsWellFormed.fits_self {node : Node} (h : node.IsWellFormed) : node.fits = true :=
  h false node .refl

theorem Node.IsWellFormed.of_holds
    {root node : Node} {inRange : Bool} (h : root.IsWellFormed)
    (hholds : root.Holds inRange node) : node.IsWellFormed :=
  fun _ _ hinner => h _ _ (hholds.trans hinner)

theorem Node.IsWellFormed.of_mem_parts
    {node part : Node} {enters : Bool} (h : node.IsWellFormed)
    (hpart : (enters, part) ∈ node.parts) : part.IsWellFormed :=
  fun _ _ hholds => h _ _ (hholds.of_mem_parts hpart)

/-- Every node of the tree has a fitting shape. -/
def Tree.IsWellFormed (tree : Tree) : Prop := (Node.body tree.root).IsWellFormed

theorem IsFieldName.isNonemptyWord {name : String} (h : IsFieldName name) :
    isNonemptyWord name = true := by
  have hlexeme : Lexeme (.field name) ('.' :: name.toList) := h
  generalize hkind : TokenKind.field name = kind at hlexeme
  generalize '.' :: name.toList = text at hlexeme
  cases hlexeme with
  | @field word hword hne _ =>
      cases hkind
      have hall : word.all isWordChar = true := List.all_eq_true.mpr hword
      simpa [TemplateTyping.isNonemptyWord, hall] using hne
  | word => exact absurd hkind.symm (TokenKind.ofWord_ne rfl _)
  | _ => cases hkind

theorem IsVariableName.head? {name : String} (h : IsVariableName name) :
    name.toList.head? = some '$' := by
  have hlexeme : Lexeme (.variable name) name.toList := h
  generalize hkind : TokenKind.variable name = kind at hlexeme
  generalize htext : name.toList = text at hlexeme
  cases hlexeme with
  | «variable» _ => rfl
  | word => exact absurd hkind.symm (TokenKind.ofWord_ne rfl _)
  | _ => cases hkind

theorem isFieldPath_of_names
    {path : List String} (hne : path ≠ []) (h : ∀ name ∈ path, IsFieldName name) :
    isFieldPath path = true := by
  have hall : path.all isNonemptyWord = true := by
    rw [List.all_eq_true]
    intro name hname
    exact (h name hname).isNonemptyWord
  simpa [isFieldPath, hall] using hne

theorem isConstant_of_notExecutable?
    {stage : Nat} {commands : List (Command Node)}
    (h : TokenReader.notExecutable? stage commands = none) :
    commands.all (!·.isConstant) = true := by
  induction commands generalizing stage with
  | nil => rfl
  | cons command commands ih =>
      obtain ⟨span, operands⟩ := command
      cases operands with
      | nil => simpa [Command.isConstant] using ih h
      | cons first operands =>
          unfold TokenReader.notExecutable? at h
          simp only at h
          split at h
          · cases h
          · rename_i hconstant
            simpa [Command.isConstant, hconstant] using ih h

theorem Pipe.IsReadable.sets {pipe : Pipe Node} {limit : Nat} (h : pipe.IsReadable limit) :
    pipe.sets limit = true :=
  decide_eq_true (Pipe.isReadable_iff.mp h).1.length_le

namespace Node

variable {inRange : Bool} {node : Node}

theorem IsReadable.isListed (h : node.IsReadable inRange) : node.isListed = true := by
  cases node with
  | text span text =>
      have hne : text ≠ "" := h
      simpa [Node.isListed] using hne
  | _ => first | rfl | exact h.elim

theorem IsOperand.isTerm (h : node.IsOperand) : node.isTerm = true := by
  cases node with
  | _ => first | rfl | exact h.elim

theorem IsOperand.setsOne (h : node.IsOperand) : node.setsOne = true := by
  cases node with
  | pipe pipe => exact Pipe.IsReadable.sets h
  | _ => rfl

theorem IsReadablePart.fits (h : node.IsReadablePart inRange) : node.fits = true := by
  cases node with
  | body body =>
      apply List.all_eq_true.mpr
      intro node hnode
      exact (nodesReadable_iff.mp (Body.isReadable_iff.mp h) node hnode).isListed
  | action span pipe =>
      rcases h with h | h
      · exact Pipe.IsReadable.sets h
      · exact h.elim
  | template span name argument =>
      cases argument with
      | none => rfl
      | some pipe =>
          rcases h with h | h
          · exact Pipe.IsReadable.sets h
          · exact h.elim
  | branch keyword branch =>
      rcases h with h | h
      · exact (Branch.isReadable_iff.mp h).1.sets
      · exact h.elim
  | pipe pipe =>
      obtain ⟨limit, hpipe⟩ := h
      obtain ⟨hdeclared, hne, hexecutable, _⟩ := Pipe.isReadable_iff.mp hpipe
      have hsingle : pipe.declared.all (·.path.length == 1) = true := by
        rw [List.all_eq_true]
        intro v hv
        obtain ⟨name, hpath, _⟩ := hdeclared.single v hv
        simp [hpath]
      simpa [Node.fits, hsingle, isConstant_of_notExecutable? hexecutable] using hne
  | command command =>
      obtain ⟨hne, hoperands⟩ := Command.isReadable_iff.mp h
      have hterms : command.operands.all (fun node => node.isTerm && node.setsOne) = true := by
        rw [List.all_eq_true]
        intro operand hmem
        have hoperand := areOperands_iff.mp hoperands operand hmem
        rw [hoperand.isTerm, hoperand.setsOne]
        rfl
      simpa [Node.fits, hterms] using hne
  | chain span receiver path =>
      rcases h with h | ⟨hreceiver, hoperand, hne, hpath⟩
      · exact h.elim
      · simp [Node.fits, hreceiver, hoperand.setsOne, isFieldPath_of_names hne hpath]
  | field span path =>
      rcases h with h | ⟨hne, hpath⟩
      · exact h.elim
      · exact isFieldPath_of_names hne hpath
  | «variable» v =>
      rcases h with h | ⟨name, path, hpath, hname, hfields⟩
      · exact h.elim
      · have hwords : path.all isNonemptyWord = true := by
          rw [List.all_eq_true]
          intro field hfield
          exact (hfields field hfield).isNonemptyWord
        simp [Node.fits, hpath, hname.head?, hwords]
  | _ => rfl

end Node

/-- A body that was read is well formed. -/
theorem Body.IsReadable.isWellFormed
    {body : Body Node} {inRange : Bool} (h : body.IsReadable inRange) :
    (Node.body body).IsWellFormed := by
  have hroot : (Node.body body).IsReadablePart inRange := h
  intro _ _ hholds
  exact (hroot.holds hholds).fits

/-! ## Trees of a source -/

/-- Every tree of the set has a readable root. -/
def TemplateSet.IsReadable (set : TemplateSet) : Prop :=
  ∀ name tree, set.get? name = some tree → ∃ inRange, tree.root.IsReadable inRange

/-- Every tree of a source is readable. -/
theorem TemplateSet.isReadable_of_parse
    {d : Delimiters} {name source : String} {set : TemplateSet}
    (h : TemplateSet.parse d name source = .ok set) : set.IsReadable := by
  obtain ⟨tokens, htokens, hforall⟩ := TemplateSet.forall_of_parse h
  have hlexed := tokenize_lexed htokens
  intro template tree htree
  exact (hforall (fun tree => ∃ inRange, tree.root.IsReadable inRange)
    (fun hbody => ⟨_, hbody.isReadable hlexed⟩) (fun hnodes => ⟨false, hnodes.isReadable hlexed⟩)
    template tree htree).2

/-- Every tree of the set is well formed. -/
def TemplateSet.IsWellFormed (set : TemplateSet) : Prop :=
  ∀ name tree, set.get? name = some tree → tree.IsWellFormed

theorem TemplateSet.isWellFormed_of_parse
    {d : Delimiters} {name source : String} {set : TemplateSet}
    (h : TemplateSet.parse d name source = .ok set) : set.IsWellFormed := by
  intro name tree htree
  obtain ⟨inRange, hreadable⟩ := TemplateSet.isReadable_of_parse h name tree htree
  exact hreadable.isWellFormed

end TemplateTyping
