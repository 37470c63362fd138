import TemplateTyping.Proofs.Tree.Parts

/-!
# Where jumps stand

A jump is accepted wherever the reader is inside of a range.  A definition starts a
template outside of all ranges, so a jump in it stands in a range of the same template.
A block starts a template of its own too, but it is read where it stands.  If it stands
in a range, a jump in its template may lie outside of every range of that template.

This is the only exception.  While a body is read, the blocks in it have their
templates in the set already, but the template that they stand in is still to come.
The names of those among them that stand in a range are pending; they are settled when
the template around them is put into the set.
-/

namespace TemplateTyping

/-! ## Blocks in trees -/

/-- The action that starts at an offset is a block. -/
def OpensBlock (source : List Token) (start : Nat) : Prop :=
  ∃ before delim spaces keyword after,
    source = before ++ delim :: (spaces ++ keyword :: after) ∧
      delim.kind = .leftDelim ∧ delim.span.start = start ∧
      (∀ space ∈ spaces, space.kind = .space) ∧ keyword.kind = .keyword .block

/-- A block of this name stands in a node, with or without the body of a range on the
way to it. -/
def Node.HoldsBlock (source : List Token) (root : Node) (inRange : Bool) (name : String) :
    Prop :=
  ∃ span argument, root.Holds inRange (.template span name argument) ∧
    OpensBlock source span.start

/-- A template is that of a block in a range, or of a block in such a template; the
pending names are taken for names of blocks in a range. -/
inductive EntersRange (source : List Token) (set : TemplateSet) (pending : String → Prop) :
    String → Prop
  | pending {name : String} : pending name → EntersRange source set pending name
  | inRange {outer name : String} {tree : Tree} : set.get? outer = some tree →
      (Node.body tree.root).HoldsBlock source true name →
      EntersRange source set pending name
  | nested {outer name : String} {tree : Tree} {inRange : Bool} :
      EntersRange source set pending outer → set.get? outer = some tree →
      (Node.body tree.root).HoldsBlock source inRange name →
      EntersRange source set pending name

/-- A template is that of a block in a range, or of a block in such a template. -/
def TemplateSet.IsBlockInRange (set : TemplateSet) (source : List Token) (name : String) :
    Prop :=
  EntersRange source set (fun _ => False) name

/-- The names of the blocks in a node that stand in a range, if the node does or if
there is a range on the way to them. -/
def Node.Owes (source : List Token) (inRange : Bool) (root : Node) (name : String) : Prop :=
  ∃ within, root.HoldsBlock source within name ∧ (inRange || within) = true

/-- Every template of the set was read outside of ranges, or it is that of a block in
a range. -/
def Traced (source : List Token) (set : TemplateSet) (pending : String → Prop) : Prop :=
  ∀ name tree, set.get? name = some tree →
    tree.root.IsReadable false ∨ EntersRange source set pending name

section Blocks

variable {source : List Token} {set set' : TemplateSet} {pending pending' : String → Prop}
  {inRange enters : Bool} {name : String} {node part : Node} {tree : Tree}

theorem Node.Owes.of_mem_parts
    (h : part.Owes source (inRange || enters) name) (hpart : (enters, part) ∈ node.parts) :
    node.Owes source inRange name := by
  obtain ⟨within, ⟨span, argument, hholds, hopens⟩, hrange⟩ := h
  refine ⟨enters || within, ⟨span, argument, hholds.of_mem_parts hpart, hopens⟩, ?_⟩
  rwa [← Bool.or_assoc]

theorem Node.Owes.of_mem_parts_false
    (h : part.Owes source inRange name) (hpart : (false, part) ∈ node.parts) :
    node.Owes source inRange name := by
  rw [← Bool.or_false inRange] at h
  exact h.of_mem_parts hpart

theorem Node.Owes.of_mem_nodes
    {body : Body Node} (h : node.Owes source inRange name) (hmem : node ∈ body.nodes) :
    (Node.body body).Owes source inRange name :=
  h.of_mem_parts_false (List.mem_map_of_mem hmem)

/-- A blank template holds no block. -/
theorem Tree.not_holdsBlock (h : tree.isBlank = true) :
    ¬(Node.body tree.root).HoldsBlock source inRange name := by
  rintro ⟨span, argument, hholds, _⟩
  rcases hholds.cases_part with ⟨_, hroot⟩ | ⟨enters, part, _, hpart, hinner, _⟩
  · cases hroot
  · obtain ⟨node, hnode, rfl, rfl⟩ :
        ∃ node ∈ tree.root.nodes, false = enters ∧ node = part := by
      simpa [Node.parts] using hpart
    have hblank := List.all_eq_true.mp h node hnode
    -- Neither text nor a comment has parts, and neither is an invocation.
    cases node with
    | text | comment =>
        rcases hinner.cases_part with ⟨_, hself⟩ | ⟨_, _, _, hnone, _⟩
        · cases hself
        · simp [Node.parts] at hnone
    | _ => cases hblank

/-- Blocks in ranges stay so if the templates that hold blocks stay in the set. -/
theorem EntersRange.mono
    (hpending : ∀ name, pending name → EntersRange source set' pending' name)
    (hkept : ∀ outer tree inRange name, set.get? outer = some tree →
      (Node.body tree.root).HoldsBlock source inRange name → set'.get? outer = some tree)
    (h : EntersRange source set pending name) : EntersRange source set' pending' name := by
  induction h with
  | pending hname => exact hpending _ hname
  | inRange htree hblock => exact .inRange (hkept _ _ _ _ htree hblock) hblock
  | nested _ htree hblock ih => exact .nested ih (hkept _ _ _ _ htree hblock) hblock

theorem Traced.mono
    (h : Traced source set pending) (hpending : ∀ name, pending name → pending' name) :
    Traced source set pending' := by
  intro name tree htree
  refine (h name tree htree).imp_right fun henters => ?_
  apply henters.mono
  · intro name hname
    exact .pending (hpending name hname)
  · intro outer tree inRange name houter _
    exact houter

/-- With its template in the set, the blocks of a body are no longer pending; if the
body stands in a range, its own name is. -/
theorem Traced.define?
    (h : Traced source set fun name =>
      pending name ∨ (Node.body tree.root).Owes source inRange name)
    (htree : tree.root.IsReadable inRange) (hdefine : set.define? tree = some set') :
    Traced source set' fun name => pending name ∨ inRange = true ∧ name = tree.name := by
  rcases TemplateSet.define?_cases hdefine with ⟨rfl, hblank⟩ | ⟨rfl, hexisting⟩
  · apply h.mono
    rintro name (hname | ⟨within, hblock, _⟩)
    · exact .inl hname
    · exact absurd hblock (Tree.not_holdsBlock hblank)
  · have hself : (set.put tree).get? tree.name = some tree := by
      rw [TemplateSet.put, NameMap.get?_insert, if_pos rfl]
    have hother : ∀ outer, outer ≠ tree.name →
        (set.put tree).get? outer = set.get? outer := by
      intro outer hne
      rw [TemplateSet.put, NameMap.get?_insert, if_neg hne]
    intro name found hfound
    by_cases hname : name = tree.name
    · subst hname
      rw [hself] at hfound
      rw [← Option.some.inj hfound]
      cases inRange with
      | false => exact .inl htree
      | true => exact .inr (.pending (.inr ⟨rfl, rfl⟩))
    · rw [hother name hname] at hfound
      refine (h name found hfound).imp_right fun henters => ?_
      apply henters.mono
      · rintro name (hpending | ⟨within, hblock, hrange⟩)
        · exact .pending (.inl hpending)
        · cases within with
          | true => exact .inRange hself hblock
          | false =>
              rw [Bool.or_false] at hrange
              exact .nested (.pending (.inr ⟨hrange, rfl⟩)) hself hblock
      · intro outer other within name houter hblock
        by_cases hsame : outer = tree.name
        · subst hsame
          exact absurd hblock (Tree.not_holdsBlock (hexisting other houter))
        · rw [hother outer hsame]
          exact houter

end Blocks

/-! ## Trees that are completed -/

/-- Templates that were traced stay so when the trees are added to them, with some names
pending that were not before. -/
def Records
    (source : List Token) (completed : List (Tree × Span)) (owed : String → Prop) : Prop :=
  ∀ set set' pending, Traced source set pending →
    completed.foldlM TemplateSet.defineAt set = .ok set' →
    Traced source set' fun name => pending name ∨ owed name

namespace Records

variable {source : List Token} {first second : List (Tree × Span)} {owed owed' : String → Prop}

theorem nil : Records source [] owed := by
  intro set set' pending hset hrun
  cases hrun
  exact hset.mono fun _ => .inl

theorem mono (h : Records source first owed) (howed : ∀ name, owed name → owed' name) :
    Records source first owed' :=
  fun set set' pending hset hrun =>
    (h set set' pending hset hrun).mono fun name => Or.imp_right (howed name)

theorem append (h : Records source first owed) (h' : Records source second owed') :
    Records source (first ++ second) fun name => owed name ∨ owed' name := by
  intro set set' pending hset hrun
  obtain ⟨middle, hfirst, hsecond⟩ := TemplateSet.foldlM_defineAt_append hrun
  refine (h' middle set' _ (h set middle pending hset hfirst) hsecond).mono ?_
  rintro name ((hname | hname) | hname)
  · exact .inl hname
  · exact .inr (.inl hname)
  · exact .inr (.inr hname)

/-- A tree settles the names that its body owes, and owes its own if it stands in a range. -/
theorem define
    {origin : Origin} {name : String} {body : Body Node} {inRange : Bool} {span : Span}
    (h : Records source first ((Node.body body).Owes source inRange))
    (hbody : body.IsReadable inRange) :
    Records source (first ++ [(origin.tree name body, span)])
      fun other => inRange = true ∧ other = name := by
  intro set set' pending hset hrun
  obtain ⟨middle, hfirst, hlast⟩ := TemplateSet.foldlM_defineAt_append hrun
  obtain ⟨defined, hdefine, hrest⟩ := TemplateSet.foldlM_defineAt_cons hlast
  cases hrest
  have htraced := h set middle pending hset hfirst
  exact htraced.define? hbody hdefine

end Records

/-! ## Derivations -/

/-- The names that an item owes. -/
def Item.Owes (source : List Token) (inRange : Bool) (name : String) : Item → Prop
  | .node held => held.Owes source inRange name
  | .elseItem _ | .endItem _ => False

/-- The names that a phrase owes. -/
def Phrase.Owes (source : List Token) (name : String) : Phrase → Prop
  | .body inRange found _ | .otherwise inRange _ found =>
      (Node.body found).Owes source inRange name
  | .nodes inRange found _ => ∃ node ∈ found, node.Owes source inRange name
  | .item inRange found | .action inRange _ found => found.Owes source inRange name
  | .branch inRange _ keyword found => (Node.branch keyword found).Owes source inRange name
  | .block inRange _ found => found.Owes source inRange name
  | .topLevel found => ∃ node ∈ found, node.Owes source false name
  | .definition _ | .source => False

/-- Where an action and a block start. -/
def Phrase.Starts (source : List Token) (c : Cursor) : Phrase → Prop
  | .action _ start _ => ∃ delim : Token,
      delim.kind = .leftDelim ∧ delim.span.start = start ∧ delim :: c.tokens <:+ source
  | .block _ start _ => OpensBlock source start
  | _ => True

theorem InAction.opensBlock
    {source : List Token} {start : Nat} {c c' : Cursor} {token : Token}
    (h : InAction source start c) (hnext : TokenReader.nextNonSpace c = .ok (token, c'))
    (hkind : token.kind = .keyword .block)
    (hstarts : ∃ delim : Token,
      delim.kind = .leftDelim ∧ delim.span.start = start ∧ delim :: c.tokens <:+ source) :
    OpensBlock source start := by
  obtain ⟨delim, hdelim, hstart, before, hbefore⟩ := hstarts
  obtain ⟨spaces, hspaces, hall⟩ := (h.reaches hnext).split
  rw [hspaces] at hbefore
  exact ⟨before, delim, spaces, token, c'.tokens, hbefore.symm, hdelim, hstart, hall, hkind⟩

/-- Of the nodes of a row, the first or one of the others owes a name. -/
theorem exists_owes_cons
    {source : List Token} {inRange : Bool} {node : Node} {nodes : List Node} {name : String}
    (h : node.Owes source inRange name ∨ ∃ other ∈ nodes, other.Owes source inRange name) :
    ∃ other ∈ node :: nodes, other.Owes source inRange name := by
  simpa using h

/-- The trees that are completed settle what they owe, so that only what the phrase itself owes
becomes pending. -/
theorem Derives.records
    {origin : Origin} {source : List Token} {phrase : Phrase} {c c' : Cursor}
    {completed : List (Tree × Span)} (hlexed : ∀ token ∈ source, token.IsLexed)
    (h : Derives origin source phrase c completed c') :
    phrase.Starts source c → Records source completed fun name => phrase.Owes source name := by
  induction h with
  | text | comment | jump | elseOpen | elseClause | endClause | invocation | invocationWith
  | command | eof => exact fun _ => .nil
  | body _ _ ih =>
      intro _
      refine (ih trivial).mono ?_
      rintro name ⟨node, hnode, howes⟩
      exact howes.of_mem_nodes hnode
  | node _ _ _ hitem hnodes =>
      exact fun _ => ((hitem trivial).append (hnodes trivial)).mono fun _ => exists_owes_cons
  | elseEnding _ _ ih | endEnding _ _ ih =>
      exact fun _ => (ih trivial).mono fun _ => False.elim
  | action hopens hkind _ ih =>
      intro _
      have htokens := Cursor.tokens_step (hopens.holds.rest_ne_nil (by simp [hkind]))
      exact ih ⟨_, hkind, rfl, htokens ▸ hopens.suffix⟩
  | blockNode hin hnext hkind _ ih =>
      exact fun hstarts => ih (hin.opensBlock hnext hkind hstarts)
  | branchNode _ _ _ _ ih | otherwise _ ih => exact fun _ => ih trivial
  | branchEnd _ _ _ ih =>
      intro _
      refine (ih trivial).mono fun name howes => ?_
      exact howes.of_mem_parts (by simp [Node.parts])
  | branchElse _ _ _ _ hbody hotherwise =>
      intro _
      refine ((hbody trivial).append (hotherwise trivial)).mono ?_
      rintro name (howes | howes)
      · exact howes.of_mem_parts (by simp [Node.parts])
      · exact Node.Owes.of_mem_parts_false howes (by simp [Node.parts])
  | continued _ _ _ ih =>
      intro _
      refine (ih trivial).mono fun name howes => ?_
      exact Node.Owes.of_mem_nodes howes (by simp)
  | block _ _ _ _ hread ih =>
      intro hopens
      refine ((ih trivial).define (hread.isReadable hlexed)).mono ?_
      rintro _ ⟨hrange, rfl⟩
      exact ⟨false, ⟨_, _, .refl, hopens⟩, by simpa using hrange⟩
  | definition _ _ _ _ _ hread ih =>
      -- A definition leaves nothing pending: its template starts outside of ranges.
      intro _
      refine ((ih trivial).define (hread.isReadable hlexed)).mono ?_
      rintro _ ⟨⟨⟩, _⟩
  | define _ _ _ _ _ _ hdefinition hnodes =>
      intro _
      refine ((hdefinition trivial).append (hnodes trivial)).mono ?_
      rintro name (⟨⟨⟩⟩ | howes)
      exact howes
  | topLevelNode _ _ hitem hnodes =>
      exact fun _ => ((hitem trivial).append (hnodes trivial)).mono fun _ => exists_owes_cons
  | @source nodes _ _ _ hread ih =>
      intro _
      have hroot : Body.IsReadable false ⟨⟨0, origin.source.utf8ByteSize⟩, nodes⟩ :=
        hread.isReadable hlexed
      refine (Records.define ((ih trivial).mono ?_) hroot).mono ?_
      · rintro name ⟨node, hnode, howes⟩
        exact howes.of_mem_nodes hnode
      · rintro _ ⟨⟨⟩, _⟩

/-- Every template of a source was read outside of ranges, or it is that of a block in
a range. -/
theorem TemplateSet.traced_of_parse
    {d : Delimiters} {name source : String} {set : TemplateSet}
    (h : TemplateSet.parse d name source = .ok set) :
    ∃ tokens, tokenize d source = .ok tokens ∧ Traced tokens set fun _ => False := by
  obtain ⟨tokens, completed, c, htokens, hderives, hset⟩ := TemplateSet.derives_of_parse h
  refine ⟨tokens, htokens, ?_⟩
  have hempty : Traced tokens NameMap.empty fun _ => False := by
    intro name tree htree
    cases htree
  have hrecords := hderives.records (tokenize_lexed htokens) trivial
  refine (hrecords NameMap.empty set _ hempty hset).mono ?_
  rintro name (⟨⟨⟩⟩ | ⟨⟨⟩⟩)

/-- A block in a range that holds nothing but a jump. -/
def blockInRangeSource : String :=
  "\x7b\x7brange .\x7d\x7d\x7b\x7bblock \"x\" .\x7d\x7d\x7b\x7bbreak\x7d\x7d" ++
    "\x7b\x7bend\x7d\x7d\x7b\x7bend\x7d\x7d"

/-- Whether a tree is a jump alone. -/
def Tree.isJump (tree : Tree) : Bool := tree.root.nodes matches [.jump _ _]

theorem blockInRangeSource_parses :
    ∃ set tree, TemplateSet.parse .standard "page" blockInRangeSource = .ok set ∧
      set.get? "x" = some tree ∧ tree.isJump = true := by
  have hchecks : (TemplateSet.parse .standard "page" blockInRangeSource).toOption.any
      (fun set => (set.get? "x").any Tree.isJump) = true := by
    decide +kernel
  cases hset : TemplateSet.parse .standard "page" blockInRangeSource with
  | error halt =>
      rw [hset] at hchecks
      cases hchecks
  | ok set =>
      rw [hset] at hchecks
      have hfound : (set.get? "x").any Tree.isJump = true := hchecks
      obtain ⟨tree, htree, hjump⟩ := (Option.any_eq_true _ _).mp hfound
      exact ⟨set, tree, rfl, htree, hjump⟩

theorem Tree.holds_jump {tree : Tree} (h : tree.isJump = true) :
    ∃ span keyword, (Node.body tree.root).Holds false (.jump span keyword) := by
  unfold Tree.isJump at h
  split at h
  · rename_i span keyword hnodes
    refine ⟨span, keyword, .part .refl ?_⟩
    simp [Node.parts, hnodes]
  · cases h

end TemplateTyping
