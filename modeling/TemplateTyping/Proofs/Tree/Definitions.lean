import Mathlib.Data.List.Induction
import Mathlib.Data.List.Pairwise
import TemplateTyping.Proofs.Tree.Merging
import TemplateTyping.Proofs.Tree.Termination

/-!
# The definitions of one source

The trees of a source are added to its set one after the other, as they are completed.  One of them
is refused exactly if an earlier one of the same name has content as it has; without such a pair
nothing is lost: adding is merging, and each name is left with its tree with content.  Which trees
there are does not depend on what has been added before, since readers of trees use the set for
nothing but to add to it.  So the order in which the trees are completed is of no account, blank
trees apart.
-/

namespace TemplateTyping

/-- Two trees that cannot both be defined in one source. -/
def Tree.Rivals (first second : Tree) : Prop :=
  first.name = second.name ∧ first.isBlank = false ∧ second.isBlank = false

theorem Tree.Rivals.symm {first second : Tree} (h : first.Rivals second) : second.Rivals first :=
  ⟨h.1.symm, h.2.2, h.2.1⟩

instance : Std.Symm fun first second : Tree => ¬first.Rivals second :=
  ⟨fun _ _ h hrivals => h hrivals.symm⟩

namespace TemplateSet

variable {set set' : TemplateSet} {tree : Tree} {trees order : List Tree} {name : String}

/-! ## One tree after the other -/

/-- Adds trees one after the other; `none` if one of them is refused. -/
def defineAll? (set : TemplateSet) (trees : List Tree) : Option TemplateSet :=
  trees.foldlM define? set

/-- The set holds what the trees define: under each name the tree with content, and the first tree
of the name if all are blank. -/
structure Collects (set : TemplateSet) (trees : List Tree) : Prop where
  names : ∀ name, set.contains name = true ↔ ∃ tree ∈ trees, tree.name = name
  content : ∀ tree ∈ trees, tree.isBlank = false → set.get? tree.name = some tree
  blank : ∀ name, (∀ tree ∈ trees, tree.name = name → tree.isBlank = true) →
    set.get? name = trees.find? (·.name = name)

/-- Both sets have the same names and the same trees with content. -/
def Agrees (set set' : TemplateSet) : Prop :=
  ∀ name, set.contains name = set'.contains name ∧
    ∀ tree, tree.isBlank = false → (set.get? name = some tree ↔ set'.get? name = some tree)

theorem define?_eq_none_iff :
    set.define? tree = none ↔ tree.isBlank = false ∧
      ∃ existing, set.get? tree.name = some existing ∧ existing.isBlank = false := by
  unfold define?
  cases hexisting : set.get? tree.name with
  | none => simp
  | some existing =>
      by_cases htree : tree.isBlank = true
      · simp [htree]
      · by_cases hblank : existing.isBlank = true
        · simp [htree, hblank]
        · simp [htree, hblank]

/-- A tree that is not refused is merged. -/
theorem eq_merge_of_define? (h : set.define? tree = some set') : set' = set.merge tree := by
  unfold define? at h
  unfold TemplateSet.merge NameMap.contains
  cases hexisting : set.get? tree.name with
  | none =>
      rw [hexisting] at h
      exact (Option.some.inj h).symm
  | some existing =>
      rw [hexisting] at h
      by_cases htree : tree.isBlank = true
      · simp only [htree, if_true] at h
        simpa [htree] using (Option.some.inj h).symm
      · simp only [htree] at h
        by_cases hblank : existing.isBlank = true
        · simp only [hblank, if_true] at h
          simpa [htree] using (Option.some.inj h).symm
        · simp [hblank] at h

theorem eq_foldl_merge_of_defineAll? (h : set.defineAll? trees = some set') :
    set' = trees.foldl merge set := by
  induction trees generalizing set with
  | nil => exact (Option.some.inj h).symm
  | cons tree trees ih =>
      rw [defineAll?, List.foldlM_cons] at h
      obtain ⟨middle, hmiddle, hrest⟩ := Option.bind_eq_some_iff.mp h
      rw [ih hrest, eq_merge_of_define? hmiddle, List.foldl_cons]

/-- Without rivals merging loses no tree with content. -/
theorem collects_foldl_merge (h : trees.Pairwise fun first second => ¬first.Rivals second) :
    Collects (trees.foldl merge NameMap.empty) trees := by
  have hget : ∀ name, (trees.foldl merge NameMap.empty).get? name =
      Tree.prevailing? (trees.filter (·.name = name)) := by
    intro name
    rw [get?_foldl_merge, NameMap.get?_empty, Tree.none_overlay]
  constructor
  · intro name
    rw [NameMap.contains, hget, Tree.isSome_prevailing?]
    simp
  · intro tree htree hcontent
    have hmem : tree ∈ trees.filter (·.name = tree.name) := by simpa using htree
    rw [hget]
    -- The tree that prevails has content as well, so if it were another one it would be a rival.
    obtain ⟨last, hlast, hlastMem, hlastContent⟩ := Tree.prevailing?_of_content hmem hcontent
    obtain ⟨hlastMem, hname⟩ := List.mem_filter.mp hlastMem
    by_contra hne
    have hdiffer : last ≠ tree := fun heq => hne (heq ▸ hlast)
    exact h.forall hlastMem htree hdiffer ⟨by simpa using hname, hlastContent, hcontent⟩
  · intro name hblank
    rw [hget, Tree.prevailing?_of_blank, List.head?_filter]
    intro tree htree
    obtain ⟨hmem, hname⟩ := List.mem_filter.mp htree
    exact hblank tree hmem (by simpa using hname)

namespace Collects

variable (h : set.Collects trees)
include h

/-- Every tree of the set is one of those that were added. -/
theorem mem (htree : set.get? name = some tree) : tree ∈ trees ∧ tree.name = name := by
  by_cases hcontent : ∃ other ∈ trees, other.name = name ∧ other.isBlank = false
  · obtain ⟨other, hother, rfl, hblank⟩ := hcontent
    obtain rfl := Option.some.inj (htree.symm.trans (h.content other hother hblank))
    exact ⟨hother, rfl⟩
  · have hblank : ∀ other ∈ trees, other.name = name → other.isBlank = true := by
      intro other hother hname
      by_contra hne
      exact hcontent ⟨other, hother, hname, by simpa using hne⟩
    rw [h.blank name hblank] at htree
    exact ⟨List.mem_of_find?_eq_some htree, by simpa using List.find?_some htree⟩

/-- The next tree is refused exactly if one of those before it is its rival. -/
theorem define?_eq_none_iff :
    set.define? tree = none ↔ ∃ other ∈ trees, other.Rivals tree := by
  rw [TemplateSet.define?_eq_none_iff]
  constructor
  · intro ⟨htree, existing, hexisting, hblank⟩
    obtain ⟨hmem, hname⟩ := h.mem hexisting
    exact ⟨existing, hmem, hname, hblank, htree⟩
  · intro ⟨other, hother, hname, hblank, htree⟩
    exact ⟨htree, other, hname ▸ h.content other hother hblank, hblank⟩

/-- What has content does not depend on the order of the trees. -/
theorem agrees (h' : set'.Collects order) (hperm : order.Perm trees) : set.Agrees set' := by
  intro name
  constructor
  · rw [Bool.eq_iff_iff, h.names, h'.names]
    simp only [hperm.mem_iff]
  · intro tree hcontent
    constructor
    · intro htree
      obtain ⟨hmem, rfl⟩ := h.mem htree
      exact h'.content tree (hperm.mem_iff.mpr hmem) hcontent
    · intro htree
      obtain ⟨hmem, rfl⟩ := h'.mem htree
      exact h.content tree (hperm.mem_iff.mp hmem) hcontent

end Collects

theorem defineAll?_concat :
    set.defineAll? (trees ++ [tree]) = (set.defineAll? trees).bind (·.define? tree) := by
  unfold defineAll?
  rw [List.foldlM_append]
  cases trees.foldlM define? set with
  | none => rfl
  | some set' => simp

/-- A sequence of trees is refused exactly if two of them are rivals. -/
theorem isSome_defineAll?_iff :
    (defineAll? NameMap.empty trees).isSome = true ↔
      trees.Pairwise fun first second => ¬first.Rivals second := by
  -- From the end: the set that refuses the last tree or not is what the trees before it define.
  induction trees using List.reverseRecOn with
  | nil => simp [defineAll?]
  | append_singleton trees tree ih =>
      rw [defineAll?_concat, List.pairwise_append]
      cases hset : defineAll? NameMap.empty trees with
      | none =>
          have hrivals := mt ih.mpr (by simp [hset])
          simp [hrivals]
      | some set =>
          have hpairwise := ih.mp (by simp [hset])
          have hcollects : set.Collects trees := by
            rw [eq_foldl_merge_of_defineAll? hset]
            exact collects_foldl_merge hpairwise
          rw [Option.bind_some, ← Option.ne_none_iff_isSome, ne_eq, hcollects.define?_eq_none_iff]
          simp [hpairwise]

theorem collects_of_defineAll? (h : defineAll? NameMap.empty trees = some set) :
    set.Collects trees := by
  rw [eq_foldl_merge_of_defineAll? h]
  exact collects_foldl_merge (isSome_defineAll?_iff.mp (by simp [h]))

/-- The order of the trees is of no account, blank trees apart. -/
theorem defineAll?_perm (h : order.Perm trees) :
    Option.Rel Agrees (defineAll? NameMap.empty trees) (defineAll? NameMap.empty order) := by
  have haccepted : (defineAll? NameMap.empty order).isSome =
      (defineAll? NameMap.empty trees).isSome := by
    rw [Bool.eq_iff_iff, isSome_defineAll?_iff, isSome_defineAll?_iff]
    exact h.pairwise_iff fun hrivals hrivals' => hrivals hrivals'.symm
  cases htrees : defineAll? NameMap.empty trees with
  | none =>
      rw [htrees, Option.isSome_none, Option.isSome_eq_false_iff, Option.isNone_iff_eq_none]
        at haccepted
      rw [haccepted]
      exact .none
  | some set =>
      rw [htrees, Option.isSome_some, Option.isSome_iff_exists] at haccepted
      obtain ⟨set', horder⟩ := haccepted
      rw [horder]
      exact .some ((collects_of_defineAll? htrees).agrees (collects_of_defineAll? horder) h)

theorem toOption_foldlM_defineAt (set : TemplateSet) (completed : List (Tree × Span)) :
    (completed.foldlM defineAt set).toOption = set.defineAll? (completed.map (·.1)) := by
  induction completed generalizing set with
  | nil => rfl
  | cons first completed ih =>
      rw [List.map_cons, defineAll?, List.foldlM_cons, List.foldlM_cons, defineAt]
      cases set.define? first.1 with
      | none => rfl
      | some set' => exact ih set'

/-! ## Sources -/

section

variable {d : Delimiters} {name source : String} {tokens : List Token} {set : TemplateSet}
  {completed : List (Tree × Span)} {outcome : Except Halt (Unit × Cursor)}

/-- A source is accepted exactly if it is read to its end and none of its trees is refused. -/
theorem toOption_parse
    (htokens : tokenize d source = .ok tokens)
    (h : (TreeReader.templates ⟨name, source⟩).Completes (Cursor.ofTokens tokens) completed
      outcome) :
    (parse d name source).toOption =
      outcome.toOption.bind fun _ => defineAll? NameMap.empty (completed.map (·.1)) := by
  have hrun := h NameMap.empty
  simp only [parse, htokens, ofTokens, StateT.run, hrun, ← toOption_foldlM_defineAt]
  cases completed.foldlM defineAt NameMap.empty with
  | error halt => cases outcome <;> rfl
  | ok set => cases outcome <;> rfl

theorem collects_of_parse
    (htokens : tokenize d source = .ok tokens)
    (h : (TreeReader.templates ⟨name, source⟩).Completes (Cursor.ofTokens tokens) completed
      outcome)
    (hparse : parse d name source = .ok set) : set.Collects (completed.map (·.1)) := by
  have hset := toOption_parse htokens h
  rw [hparse] at hset
  obtain ⟨result, -, hdefined⟩ := Option.bind_eq_some_iff.mp hset.symm
  exact collects_of_defineAll? hdefined

/-- Every tree of a source stands under its own name. -/
theorem isKeyed_of_parse (h : parse d name source = .ok set) : set.IsKeyed := by
  obtain ⟨tokens, -, hforall⟩ := forall_of_parse h
  intro template tree htree
  exact (hforall (fun _ => True) (fun _ => trivial) (fun _ => trivial) template tree htree).1

end

/-- Within one source no definition is lost and none is overridden.  A sequence of trees is refused
exactly if two of them have the same name and both have content; otherwise the set holds what they
define, and in any other order of the trees it would hold the same names and the same trees with
content.  The trees that a source completes do not depend on the set that they are added to, so this
is so of every source that can be cut into tokens. -/
theorem definitions_kept (trees : List Tree) :
    (defineAll? NameMap.empty trees = none ↔
        ∃ first second, [first, second].Sublist trees ∧ first.Rivals second) ∧
      (∀ set, defineAll? NameMap.empty trees = some set → set.Collects trees) ∧
      (∀ order, order.Perm trees →
        Option.Rel Agrees (defineAll? NameMap.empty trees) (defineAll? NameMap.empty order)) ∧
      ∀ d name source tokens, tokenize d source = .ok tokens → ∃ completed outcome,
        (TreeReader.templates ⟨name, source⟩).Completes (Cursor.ofTokens tokens) completed
          outcome ∧
        (∀ set, parse d name source = .ok set → set.Collects (completed.map (·.1))) ∧
        ∀ order, order.Perm (completed.map (·.1)) →
          Option.Rel Agrees (parse d name source).toOption
            (outcome.toOption.bind fun _ => defineAll? NameMap.empty order) := by
  refine ⟨?_, fun set => collects_of_defineAll?, fun order => defineAll?_perm, ?_⟩
  · rw [← Option.not_isSome_iff_eq_none, isSome_defineAll?_iff, List.pairwise_iff_forall_sublist]
    simp
  · intro d name source tokens htokens
    obtain ⟨completed, outcome, hcompletes⟩ :=
      (TreeReader.templates_settles ⟨name, source⟩ (Cursor.leaves_ofTokens htokens)).completes
    refine ⟨completed, outcome, hcompletes, fun set => collects_of_parse htokens hcompletes, ?_⟩
    intro order horder
    rw [toOption_parse htokens hcompletes]
    cases outcome with
    | error halt => exact .none
    | ok result => exact defineAll?_perm horder

/-- A source whose own template is blank, so that its name is left to a definition, and with a block
inside of another definition. -/
def definitionsSource : String :=
  "\x7b\x7bdefine \"page\"\x7d\x7dx\x7b\x7bend\x7d\x7d" ++
    "\x7b\x7bdefine \"row\"\x7d\x7d\x7b\x7bblock \"cell\" .\x7d\x7d" ++
    "y\x7b\x7bend\x7d\x7d\x7b\x7bend\x7d\x7d\n"

theorem definitions_kept_page :
    defineAll? NameMap.empty [.ofText "page" "x", .ofText "page" " ", .ofText "page" "y"] = none ∧
      (∃ set, defineAll? NameMap.empty
          [.ofText "page" " ", .ofText "row" "\n", .ofText "page" "x", .ofText "page" "\n"] =
            some set ∧ set.get? "page" = some (.ofText "page" "x")) ∧
      ∃ set tokens completed outcome, parse .standard "page" definitionsSource = .ok set ∧
        set.names = ["cell", "page", "row"] ∧ tokenize .standard definitionsSource = .ok tokens ∧
        (TreeReader.templates ⟨"page", definitionsSource⟩).Completes (Cursor.ofTokens tokens)
          completed outcome ∧
        set.Collects (completed.map (·.1)) ∧
        Option.Rel Agrees (some set) (outcome.toOption.bind fun _ =>
          defineAll? NameMap.empty (completed.map (·.1)).reverse) := by
  refine ⟨?_, ?_, ?_⟩
  · refine (definitions_kept _).1.mpr ⟨.ofText "page" "x", .ofText "page" "y", ?_, rfl, rfl, rfl⟩
    exact .cons_cons _ (.cons _ (.refl _))
  · refine ⟨_, rfl, ?_⟩
    have hcollects := (definitions_kept
      [.ofText "page" " ", .ofText "row" "\n", .ofText "page" "x", .ofText "page" "\n"]).2.1 _ rfl
    exact hcollects.content (.ofText "page" "x") (by simp) rfl
  · have hruns : (parse .standard "page" definitionsSource).toOption.any (fun set =>
        set.names == ["cell", "page", "row"]) = true := by
      decide +kernel
    have hlexes : (tokenize .standard definitionsSource).toOption.isSome = true := by decide +kernel
    obtain ⟨set, hset, hnames⟩ := (Option.any_eq_true _ _).mp hruns
    obtain ⟨tokens, htokens⟩ := Option.isSome_iff_exists.mp hlexes
    have htokens := Except.eq_ok_of_toOption htokens
    obtain ⟨completed, outcome, hcompletes, hcollects, hreversed⟩ :=
      (definitions_kept []).2.2.2 .standard "page" definitionsSource tokens htokens
    have hagrees := hreversed _ (List.reverse_perm _)
    rw [hset] at hagrees
    have hset := Except.eq_ok_of_toOption hset
    exact ⟨set, tokens, completed, outcome, hset, eq_of_beq hnames, htokens, hcompletes,
      hcollects set hset, hagrees⟩

end TemplateSet

end TemplateTyping
