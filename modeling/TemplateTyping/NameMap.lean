/-!
# Maps from names

Finite maps whose keys are names. The entries are kept in the order of their
names, so a map is determined by what it gives for each name.
-/

namespace TemplateTyping

/-- A finite map from names to values, listed in the order of the names. -/
structure NameMap (α : Type) where
  entries : List (String × α)
  sorted : entries.Pairwise fun a b => a.1 < b.1

namespace NameMap

variable {α : Type}

/-- The map without entries. -/
def empty : NameMap α := ⟨[], .nil⟩

instance : Inhabited (NameMap α) := ⟨empty⟩

/-- The value of the first entry of a name. -/
def findEntry (name : String) : List (String × α) → Option α
  | [] => none
  | entry :: entries => if name = entry.1 then some entry.2 else findEntry name entries

/-- The value of a name. -/
def get? (m : NameMap α) (name : String) : Option α :=
  findEntry name m.entries

/-- Whether a name has a value. -/
def contains (m : NameMap α) (name : String) : Bool :=
  (m.get? name).isSome

/-- Number of names that have a value. -/
def size (m : NameMap α) : Nat := m.entries.length

/-- Whether no name has a value. -/
def isEmpty (m : NameMap α) : Bool := m.entries.isEmpty

/-- The names that have a value, in order. -/
def names (m : NameMap α) : List String := m.entries.map (·.1)

/-- The values, in the order of their names. -/
def values (m : NameMap α) : List α := m.entries.map (·.2)

/-- Puts an entry at its place, instead of an entry of the same name. -/
def insertEntry (name : String) (value : α) : List (String × α) → List (String × α)
  | [] => [(name, value)]
  | entry :: entries =>
      if name < entry.1 then (name, value) :: entry :: entries
      else if name = entry.1 then (name, value) :: entries
      else entry :: insertEntry name value entries

theorem mem_insertEntry {name : String} {value : α} {entries : List (String × α)}
    {entry : String × α} (h : entry ∈ insertEntry name value entries) :
    entry = (name, value) ∨ entry ∈ entries := by
  induction entries with
  | nil => simpa [insertEntry] using h
  | cons first entries ih => grind [insertEntry]

theorem sorted_insertEntry {name : String} {value : α} {entries : List (String × α)}
    (h : entries.Pairwise fun a b => a.1 < b.1) :
    (insertEntry name value entries).Pairwise fun a b => a.1 < b.1 := by
  induction entries with
  | nil => simp [insertEntry]
  | cons first entries ih =>
      obtain ⟨hfirst, hrest⟩ := List.pairwise_cons.mp h
      rw [insertEntry]
      split
      · rename_i hlt
        refine List.pairwise_cons.mpr ⟨fun b hb => ?_, h⟩
        rcases List.mem_cons.mp hb with rfl | hb
        · exact hlt
        · exact String.lt_trans hlt (hfirst b hb)
      · split
        · rename_i heq
          exact List.pairwise_cons.mpr ⟨fun b hb => heq ▸ hfirst b hb, hrest⟩
        · rename_i hlt hne
          refine List.pairwise_cons.mpr ⟨fun b hb => ?_, ih hrest⟩
          rcases mem_insertEntry hb with rfl | hb
          · exact Std.lt_of_le_of_ne (String.not_lt.mp hlt) (Ne.symm hne)
          · exact hfirst b hb

/-- Gives a name a value, in place of an earlier one. -/
def insert (m : NameMap α) (name : String) (value : α) : NameMap α :=
  ⟨insertEntry name value m.entries, sorted_insertEntry m.sorted⟩

/-- Puts the entries of the second map into the first; they win over entries of
the same name. -/
def union (m n : NameMap α) : NameMap α :=
  n.entries.foldl (fun acc entry => acc.insert entry.1 entry.2) m

/-- The map of a list of entries; later entries win over earlier ones. -/
def ofList (entries : List (String × α)) : NameMap α :=
  entries.foldl (fun acc entry => acc.insert entry.1 entry.2) empty

theorem findEntry_insertEntry (name key : String) (value : α) (entries : List (String × α)) :
    findEntry key (insertEntry name value entries) =
      if key = name then some value else findEntry key entries := by
  induction entries with
  | nil => simp [insertEntry, findEntry]
  | cons first entries ih => grind [insertEntry, findEntry]

@[simp]
theorem get?_empty (key : String) : (empty : NameMap α).get? key = none := rfl

/-- After an insertion the inserted name has the new value, every other name
what it had before. -/
@[simp]
theorem get?_insert (m : NameMap α) (name key : String) (value : α) :
    (m.insert name value).get? key = if key = name then some value else m.get? key :=
  findEntry_insertEntry name key value m.entries

theorem get?_of_mem_entries {m : NameMap α} {name : String} {value : α}
    (h : (name, value) ∈ m.entries) : m.get? name = some value := by
  obtain ⟨entries, sorted⟩ := m
  change findEntry name entries = some value
  induction entries with
  | nil => cases h
  | cons first entries ih =>
      obtain ⟨hfirst, hrest⟩ := List.pairwise_cons.mp sorted
      rw [findEntry]
      rcases List.mem_cons.mp h with rfl | hlater
      · exact if_pos rfl
      · -- The names are in order, so that of a later entry is not the first one.
        have hne : name ≠ first.1 := by
          rintro rfl
          exact String.lt_irrefl _ (hfirst (first.1, value) hlater)
        rw [if_neg hne]
        exact ih hrest hlater

theorem findEntry_eq_none_of_lt {entries : List (String × α)} {key : String}
    (h : ∀ entry ∈ entries, key < entry.1) : findEntry key entries = none := by
  induction entries with
  | nil => rfl
  | cons first entries ih =>
      have hne : key ≠ first.1 := fun heq => String.lt_irrefl _ (heq ▸ h first (by simp))
      rw [findEntry, if_neg hne]
      exact ih fun entry hentry => h entry (List.mem_cons_of_mem _ hentry)

/-- An entry list that does not start with the least of two keys lacks it. -/
theorem findEntry_cons_eq_none {first : String × α} {entries : List (String × α)} {key : String}
    (hsorted : (first :: entries).Pairwise fun a b => a.1 < b.1) (hlt : key < first.1) :
    findEntry key (first :: entries) = none :=
  findEntry_eq_none_of_lt fun entry hentry => by
    rcases List.mem_cons.mp hentry with rfl | hmem
    · exact hlt
    · exact String.lt_trans hlt ((List.pairwise_cons.mp hsorted).1 entry hmem)

theorem eq_of_findEntry_eq {xs ys : List (String × α)}
    (hx : xs.Pairwise fun a b => a.1 < b.1) (hy : ys.Pairwise fun a b => a.1 < b.1)
    (h : ∀ key, findEntry key xs = findEntry key ys) : xs = ys := by
  induction xs generalizing ys with
  | nil =>
      cases ys with
      | nil => rfl
      | cons y ys => simpa [findEntry] using h y.1
  | cons x xs ih =>
      cases ys with
      | nil => simpa [findEntry] using h x.1
      | cons y ys =>
          obtain ⟨a, v⟩ := x
          obtain ⟨b, w⟩ := y
          have hkey : a = b := by
            rcases Std.lt_trichotomy a b with hlt | heq | hlt
            · have := (h a).trans (findEntry_cons_eq_none hy hlt)
              simp [findEntry] at this
            · exact heq
            · have := (h b).symm.trans (findEntry_cons_eq_none hx hlt)
              simp [findEntry] at this
          subst hkey
          have hvalue : v = w := by simpa [findEntry] using h a
          subst hvalue
          congr 1
          refine ih hx.of_cons hy.of_cons fun key => ?_
          by_cases hk : key = a
          · subst hk
            rw [findEntry_eq_none_of_lt (List.pairwise_cons.mp hx).1,
              findEntry_eq_none_of_lt (List.pairwise_cons.mp hy).1]
          · simpa [findEntry, hk] using h key

/-- Two maps that give the same for each name are the same. -/
theorem ext_get? {m n : NameMap α} (h : ∀ key, m.get? key = n.get? key) : m = n := by
  cases m with
  | mk xs hx =>
      cases n with
      | mk ys hy =>
          have := eq_of_findEntry_eq hx hy h
          subst this
          rfl

end NameMap

end TemplateTyping
