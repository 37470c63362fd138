import TemplateTyping.NameMap
import TemplateTyping.Tree.Basic

/-!
# Sets of templates

A template set holds trees under their names. A tree that is blank never
replaces one that is already there: within one source a second tree with
content is refused, and a set is extended by another one tree by tree.
-/

namespace TemplateTyping

/-- Templates by name. -/
abbrev TemplateSet := NameMap Tree

namespace TemplateSet

/-- Puts a tree under its name. -/
def put (set : TemplateSet) (tree : Tree) : TemplateSet :=
  set.insert tree.name tree

/-- Puts a tree under its name unless it is blank and the name is taken. -/
def merge (set : TemplateSet) (tree : Tree) : TemplateSet :=
  if set.contains tree.name && tree.isBlank then set else set.put tree

/-- Merges every tree of another set. -/
def extend (set other : TemplateSet) : TemplateSet :=
  other.values.foldl merge set

/-- Adds a tree that was read from the source of the set; `none` if the name is
taken by a tree with content and the new tree has content too. -/
def define? (set : TemplateSet) (tree : Tree) : Option TemplateSet :=
  match set.get? tree.name with
  | some existing =>
      if tree.isBlank then some set
      else if existing.isBlank then some (set.put tree) else none
  | none => some (set.put tree)

end TemplateSet

end TemplateTyping
