import Mathlib.Data.List.Basic
import TemplateTyping.TemplateSet

/-!
# Merging template sets

When sets of templates are put together, a tree with content wins over what came before it, and a
blank tree gives way to whatever is there.  For one name this is an associative operation on
trees; of many trees it leaves the last one with content, or the first one if all are blank.  What
holds for each name holds for the sets, since a set is determined by what it gives for each name.
-/

namespace TemplateTyping

namespace Tree

/-- A template that is a piece of text. -/
def ofText (name text : String) : Tree :=
  ⟨name, name, ⟨.origin, [.text .origin text]⟩, text⟩

/-- What a name is left with when another tree of that name comes: the other tree, unless it is
blank and the name has one already. -/
def overlay (held other : Option Tree) : Option Tree :=
  match other with
  | none => held
  | some tree => if held.isSome && tree.isBlank then held else some tree

/-- The tree that a name is left with when trees of that name come one after the other: the last
one with content, or the first one if none has content. -/
def prevailing? (trees : List Tree) : Option Tree :=
  (trees.filter (!·.isBlank)).getLast?.or trees.head?

@[simp]
theorem overlay_none (held : Option Tree) : overlay held none = held := rfl

@[simp]
theorem none_overlay (other : Option Tree) : overlay none other = other := by
  cases other with
  | none => rfl
  | some tree => rfl

theorem overlay_of_isBlank {tree : Tree} (h : tree.isBlank = true) (held : Option Tree) :
    overlay held (some tree) = held.or (some tree) := by
  cases held with
  | none => rfl
  | some first => simp [overlay, h]

theorem overlay_of_not_isBlank {tree : Tree} (h : tree.isBlank = false) (held : Option Tree) :
    overlay held (some tree) = some tree := by
  simp [overlay, h]

theorem overlay_assoc (first second third : Option Tree) :
    overlay (overlay first second) third = overlay first (overlay second third) := by
  cases third with
  | none => rfl
  | some third =>
      cases hthird : third.isBlank with
      | false => simp [overlay_of_not_isBlank hthird]
      | true =>
          rw [overlay_of_isBlank hthird, overlay_of_isBlank hthird]
          cases second with
          | none => simpa using (overlay_of_isBlank hthird first).symm
          | some second =>
              cases first <;> cases hsecond : second.isBlank <;> simp [overlay, hsecond]

theorem overlay_self (held : Option Tree) : overlay held held = held := by
  cases held with
  | none => rfl
  | some tree => cases hblank : tree.isBlank <;> simp [overlay, hblank]

@[simp]
theorem prevailing?_toList (held : Option Tree) : prevailing? held.toList = held := by
  cases held with
  | none => rfl
  | some tree => cases hblank : tree.isBlank <;> simp [prevailing?, hblank]

/-- Trees that come after others are laid over them as one. -/
theorem prevailing?_append (first second : List Tree) :
    prevailing? (first ++ second) = overlay (prevailing? first) (prevailing? second) := by
  simp only [prevailing?, List.filter_append, List.getLast?_append, List.head?_append]
  cases hlast : (second.filter (!·.isBlank)).getLast? with
  | some tree =>
      have hcontent : tree.isBlank = false := by
        simpa using (List.mem_filter.mp (List.mem_of_getLast? hlast)).2
      simp [overlay_of_not_isBlank hcontent]
  | none =>
      cases second with
      | nil => simp
      | cons tree second =>
          have hblank : tree.isBlank = true := by
            have hnil := List.getLast?_eq_none_iff.mp hlast
            simpa using List.filter_eq_nil_iff.mp hnil tree (by simp)
          simp [overlay_of_isBlank hblank]

theorem isSome_prevailing? (trees : List Tree) :
    (prevailing? trees).isSome = !trees.isEmpty := by
  cases trees with
  | nil => rfl
  | cons tree trees => simp [prevailing?]

/-- If one of the trees has content, so has the one that prevails. -/
theorem prevailing?_of_content
    {trees : List Tree} {tree : Tree} (h : tree ∈ trees) (hcontent : tree.isBlank = false) :
    ∃ last, prevailing? trees = some last ∧ last ∈ trees ∧ last.isBlank = false := by
  have hmem : tree ∈ trees.filter (!·.isBlank) := by simpa [hcontent] using h
  have hlast := List.getLast?_eq_some_getLast (List.ne_nil_of_mem hmem)
  obtain ⟨hlastMem, hlastContent⟩ := List.mem_filter.mp (List.getLast_mem (List.ne_nil_of_mem hmem))
  exact ⟨_, by rw [prevailing?, hlast, Option.some_or], hlastMem, by simpa using hlastContent⟩

theorem prevailing?_of_blank {trees : List Tree} (h : ∀ tree ∈ trees, tree.isBlank = true) :
    prevailing? trees = trees.head? := by
  have hnone : trees.filter (!·.isBlank) = [] := by simpa using h
  rw [prevailing?, hnone, List.getLast?_nil, Option.none_or]

end Tree

open TemplateTyping.Tree (overlay prevailing?)

namespace TemplateSet

variable {set other : TemplateSet} {tree : Tree} {name : String}

/-- Every tree of the set stands under its own name. -/
def IsKeyed (set : TemplateSet) : Prop :=
  ∀ name tree, set.get? name = some tree → tree.name = name

theorem get?_merge (set : TemplateSet) (tree : Tree) (name : String) :
    (set.merge tree).get? name =
      if name = tree.name then overlay (set.get? name) (some tree) else set.get? name := by
  unfold TemplateSet.merge
  by_cases hname : name = tree.name
  · subst hname
    rw [if_pos rfl, overlay, NameMap.contains]
    split
    · rfl
    · rw [put, NameMap.get?_insert, if_pos rfl]
  · rw [if_neg hname]
    split
    · rfl
    · rw [put, NameMap.get?_insert, if_neg hname]

/-- After trees are merged one after the other, each name is left with the one that prevails among
those of that name, what the set had before included. -/
theorem get?_foldl_merge (set : TemplateSet) (trees : List Tree) (name : String) :
    (trees.foldl merge set).get? name =
      overlay (set.get? name) (prevailing? (trees.filter (·.name = name))) := by
  induction trees generalizing set with
  | nil => rfl
  | cons tree trees ih =>
      rw [List.foldl_cons, ih, get?_merge]
      by_cases hname : name = tree.name
      · have hfilter : (tree :: trees).filter (·.name = name) =
            (some tree).toList ++ trees.filter (·.name = name) := by
          simp [hname]
        rw [if_pos hname, hfilter, Tree.prevailing?_append, Tree.prevailing?_toList,
          Tree.overlay_assoc]
      · rw [if_neg hname, List.filter_cons_of_neg (by simpa using Ne.symm hname)]

/-- Under a name stands at most one tree. -/
theorem filter_values {entries : List (String × Tree)}
    (hsorted : entries.Pairwise fun a b => a.1 < b.1)
    (hkeyed : ∀ entry ∈ entries, entry.2.name = entry.1) (name : String) :
    (entries.map (·.2)).filter (·.name = name) = (NameMap.findEntry name entries).toList := by
  induction entries with
  | nil => rfl
  | cons entry entries ih =>
      obtain ⟨hfirst, hrest⟩ := List.pairwise_cons.mp hsorted
      obtain ⟨hentry, hlater⟩ := List.forall_mem_cons.mp hkeyed
      rw [List.map_cons, NameMap.findEntry]
      by_cases hname : name = entry.1
      · subst hname
        rw [if_pos rfl, List.filter_cons_of_pos (by simpa using hentry), ih hrest hlater,
          NameMap.findEntry_eq_none_of_lt hfirst]
        rfl
      · rw [if_neg hname, List.filter_cons_of_neg (by simpa [hentry] using Ne.symm hname),
          ih hrest hlater]

/-- Extending a set lays the other one over it, name by name. -/
theorem get?_extend (set : TemplateSet) (h : other.IsKeyed) (name : String) :
    (set.extend other).get? name = overlay (set.get? name) (other.get? name) := by
  have hkeyed : ∀ entry ∈ other.entries, entry.2.name = entry.1 := by
    intro entry hentry
    exact h entry.1 entry.2 (NameMap.get?_of_mem_entries hentry)
  rw [extend, get?_foldl_merge, NameMap.values, filter_values other.sorted hkeyed,
    Tree.prevailing?_toList]
  rfl

theorem isKeyed_empty : IsKeyed NameMap.empty := by
  intro name tree h
  cases h

theorem IsKeyed.put (h : set.IsKeyed) (tree : Tree) : (set.put tree).IsKeyed := by
  intro name other hother
  rw [TemplateSet.put, NameMap.get?_insert] at hother
  split at hother
  · rename_i hname
    cases hother
    exact hname.symm
  · exact h name other hother

theorem IsKeyed.extend (h : set.IsKeyed) (hother : other.IsKeyed) : (set.extend other).IsKeyed := by
  intro name tree htree
  rw [get?_extend set hother] at htree
  cases hfound : other.get? name with
  | none =>
      rw [hfound, Tree.overlay_none] at htree
      exact h name tree htree
  | some found =>
      rw [hfound, overlay] at htree
      split at htree
      · exact h name tree htree
      · exact hother name tree (hfound.trans htree)

theorem extend_assoc {third : TemplateSet} (hother : other.IsKeyed) (hthird : third.IsKeyed) :
    (set.extend other).extend third = set.extend (other.extend third) := by
  apply NameMap.ext_get?
  intro name
  rw [get?_extend _ hthird, get?_extend _ hother, get?_extend _ (hother.extend hthird),
    get?_extend _ hthird, Tree.overlay_assoc]

theorem empty_extend (h : set.IsKeyed) : extend NameMap.empty set = set := by
  apply NameMap.ext_get?
  intro name
  rw [get?_extend _ h, NameMap.get?_empty, Tree.none_overlay]

theorem extend_self (h : set.IsKeyed) : set.extend set = set := by
  apply NameMap.ext_get?
  intro name
  rw [get?_extend _ h, Tree.overlay_self]

/-- After a sequence of extensions each name is left with the tree that prevails among all that the
sets have for it. -/
theorem get?_foldl_extend
    (set : TemplateSet) {others : List TemplateSet} (h : ∀ other ∈ others, other.IsKeyed)
    (name : String) :
    (others.foldl extend set).get? name =
      prevailing? ((set :: others).flatMap fun other => (other.get? name).toList) := by
  induction others generalizing set with
  | nil => simp
  | cons other others ih =>
      obtain ⟨hother, hothers⟩ := List.forall_mem_cons.mp h
      rw [List.foldl_cons, ih _ hothers]
      simp only [List.flatMap_cons, Tree.prevailing?_append, Tree.prevailing?_toList,
        get?_extend _ hother, Tree.overlay_assoc]

/-- Extending is an idempotent monoid on sets whose trees stand under their own names: it is
associative, the empty set is neutral on both sides, and a set that is extended by itself stays as
it is.  Of all the trees that the sets of a sequence have for a name, the last one with content is
left, or the first one if all are blank. -/
theorem extend_idempotent_monoid
    (first second third : TemplateSet) (others : List TemplateSet)
    (hfirst : first.IsKeyed) (hsecond : second.IsKeyed) (hthird : third.IsKeyed)
    (hothers : ∀ other ∈ others, other.IsKeyed) :
    (first.extend second).extend third = first.extend (second.extend third) ∧
      extend NameMap.empty first = first ∧ first.extend NameMap.empty = first ∧
      first.extend first = first ∧
      ∀ name, (others.foldl extend first).get? name =
        prevailing? ((first :: others).filterMap (·.get? name)) := by
  refine ⟨extend_assoc hsecond hthird, empty_extend hfirst, rfl, extend_self hfirst, ?_⟩
  intro name
  rw [get?_foldl_extend first hothers, List.filterMap_eq_flatMap_toList]

/-- The set of one template that is a piece of text. -/
def ofText (name text : String) : TemplateSet :=
  put NameMap.empty (Tree.ofText name text)

theorem isKeyed_ofText (name text : String) : (ofText name text).IsKeyed :=
  isKeyed_empty.put _

/-- A blank page gives way to a page with content, which outlasts another blank page. -/
theorem extend_idempotent_monoid_pages :
    ([ofText "page" "a", ofText "row" "b", ofText "page" "\n"].foldl extend
        (ofText "page" " ")).get? "page" = (ofText "page" "a").get? "page" ∧
      ((ofText "page" " ").extend (ofText "page" "a")).extend (ofText "page" "\n") =
        (ofText "page" " ").extend ((ofText "page" "a").extend (ofText "page" "\n")) := by
  obtain ⟨hassoc, -, -, -, hlast⟩ := extend_idempotent_monoid
    (ofText "page" " ") (ofText "page" "a") (ofText "page" "\n")
    [ofText "page" "a", ofText "row" "b", ofText "page" "\n"]
    (isKeyed_ofText _ _) (isKeyed_ofText _ _) (isKeyed_ofText _ _) (by simp [isKeyed_ofText])
  exact ⟨(hlast "page").trans rfl, hassoc⟩

end TemplateSet

end TemplateTyping
