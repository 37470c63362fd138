import TemplateTyping.Tree.Node

/-!
# What stands in a node

A node is made of parts, and these of parts again.  All that can be come to in this
way stands in the node.
-/

namespace TemplateTyping

/-- The parts of a node, each with whether it is the body of a range. -/
def Node.parts : Node → List (Bool × Node)
  | .action _ p => [(false, .pipe p)]
  | .body b => b.nodes.map (false, ·)
  | .pipe p => p.declared.map (false, .variable ·) ++ p.commands.map (false, .command ·)
  | .command c => c.operands.map (false, ·)
  | .chain _ receiver _ => [(false, receiver)]
  | .branch keyword b =>
      (false, .pipe b.pipe) :: (keyword == .rangeKeyword, .body b.body) ::
        b.otherwise.toList.map (false, .body ·)
  | .template _ _ argument => argument.toList.map (false, .pipe ·)
  | _ => []

/-- A node stands somewhere in another one, with or without the body of a range on the
way to it. -/
inductive Node.Holds (root : Node) : Bool → Node → Prop
  | refl : Holds root false root
  | part {inRange enters : Bool} {node part : Node} :
      Holds root inRange node → (enters, part) ∈ node.parts →
      Holds root (inRange || enters) part

/-- What stands in something that stands in a node stands in the node. -/
theorem Node.Holds.trans
    {root node inner : Node} {inRange inRange' : Bool} (h : root.Holds inRange node)
    (hinner : node.Holds inRange' inner) : root.Holds (inRange || inRange') inner := by
  induction hinner with
  | refl =>
      rw [Bool.or_false]
      exact h
  | part _ hmem ih =>
      rw [← Bool.or_assoc]
      exact .part ih hmem

/-- What stands in a part stands in the node. -/
theorem Node.Holds.of_mem_parts
    {root part node : Node} {enters inRange : Bool} (hpart : (enters, part) ∈ root.parts)
    (h : part.Holds inRange node) : root.Holds (enters || inRange) node := by
  have hfirst : root.Holds enters part := .part .refl hpart
  exact hfirst.trans h

/-- What stands in a node is the node or stands in a part of it. -/
theorem Node.Holds.cases_part
    {root node : Node} {inRange : Bool} (h : root.Holds inRange node) :
    inRange = false ∧ node = root ∨
      ∃ enters part inRange', (enters, part) ∈ root.parts ∧ part.Holds inRange' node ∧
        inRange = (enters || inRange') := by
  induction h with
  | refl => exact .inl ⟨rfl, rfl⟩
  | @part inRange enters node part _ hmem ih =>
      right
      rcases ih with ⟨rfl, rfl⟩ | ⟨enters', first, inRange', hfirst, hholds, rfl⟩
      · exact ⟨enters, part, false, hmem, .refl, by simp⟩
      · exact ⟨enters', first, _, hfirst, .part hholds hmem, Bool.or_assoc _ _ _⟩

/-- What stands in a node is among nodes that the node and the parts of each are among. -/
theorem Node.Holds.mem_of_closed
    {root node : Node} {inRange : Bool} (h : root.Holds inRange node) {nodes : List Node}
    (hroot : root ∈ nodes)
    (hparts : ∀ node ∈ nodes, ∀ enters part, (enters, part) ∈ node.parts → part ∈ nodes) :
    node ∈ nodes := by
  induction h with
  | refl => exact hroot
  | part _ hmem ih => exact hparts _ ih _ _ hmem

end TemplateTyping
