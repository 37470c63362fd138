import Mathlib.Data.List.MinMax
import Mathlib.Order.Nat
import TemplateTyping.Proofs.Host.Promotion

/-!
# The end of a search

The search for a name goes on round after round until the name occurs or nothing is left to be
searched.  Named types may embed one another in cycles, but each of them is opened once only.
Structs without a name are opened every time they are met; they stand inside of one another only
as deep as they are written.  The main statement is that the number of rounds is bounded by a
number that depends on the declarations and on the type alone.
-/

namespace TemplateTyping

/-! ## How deep structs are embedded -/

theorem Ty.sizeOf_lt_of_mem_embedded {ty inner : Ty} (h : inner ∈ ty.embedded) :
    sizeOf inner < sizeOf ty := by
  cases ty with
  | struct package fields =>
      obtain ⟨⟨name, type, embedded⟩, hfield, rfl⟩ := List.mem_map.mp h
      have hle := type.sizeOf_withoutPointers_le
      have hlt := List.sizeOf_lt_of_mem (List.mem_filter.mp hfield).1
      simp only [Field.mk.sizeOf_spec, Ty.struct.sizeOf_spec] at hlt ⊢
      omega
  | _ => simp [Ty.embedded] at h

/-- The greatest number of structs without a name, each embedded in the one before, that a type
is written with.  The type itself counts, whatever it is, and what stands behind a name does
not. -/
def Ty.embeddingHeight (ty : Ty) : Nat :=
  (ty.embedded.attach.map fun inner => inner.1.embeddingHeight).foldr max 0 + 1
termination_by sizeOf ty
decreasing_by exact Ty.sizeOf_lt_of_mem_embedded inner.2

theorem Ty.embeddingHeight_pos (ty : Ty) : 0 < ty.embeddingHeight := by
  rw [embeddingHeight]
  omega

/-- What is embedded in a type is not as deep as the type. -/
theorem Ty.embeddingHeight_lt_of_mem_embedded {ty inner : Ty} (h : inner ∈ ty.embedded) :
    inner.embeddingHeight < ty.embeddingHeight := by
  rw [embeddingHeight.eq_1 ty, Nat.lt_succ_iff]
  have hmem : inner.embeddingHeight ∈ ty.embedded.attach.map fun inner => inner.1.embeddingHeight :=
    List.mem_map.mpr ⟨⟨inner, h⟩, List.mem_attach _ _, rfl⟩
  exact List.le_max_of_le' 0 hmem le_rfl

namespace Universe

/-- The greatest depth of the types that stand behind the names. -/
def embeddingHeight (u : Universe) : Nat :=
  (u.names.map fun name => (u.declaration name).underlying.embeddingHeight).foldr max 0

theorem embeddingHeight_underlying_le {u : Universe} {name : TypeName} (h : name ∈ u.names) :
    (u.declaration name).underlying.embeddingHeight ≤ u.embeddingHeight :=
  List.le_max_of_le' 0 (List.mem_map.mpr ⟨name, h, rfl⟩) le_rfl

/-! ## Rounds of the search -/

/-- Where a search stands before a round: the level to be searched, and the named types that were
opened before. -/
structure Frontier where
  level : List Candidate
  seen : List TypeName

/-- Searches a number of rounds at most.  The search ends with an answer, or it has come to a
level that is not searched any more. -/
def searchRounds (u : Universe) (access : Access) : Nat → Frontier → Option Member ⊕ Frontier
  | _, ⟨[], _⟩ => .inl none
  | 0, frontier => .inr frontier
  | rounds + 1, ⟨candidate :: level, seen⟩ =>
      let step := u.searchLevel access (candidate :: level) seen
      match step.1.found with
      | [] => u.searchRounds access rounds ⟨step.1.next, step.2⟩
      | [member] => .inl (some member)
      | _ => .inl none

/-- The greatest depth of the types of a level. -/
def levelHeight (level : List Candidate) : Nat :=
  (level.map fun candidate => candidate.type.embeddingHeight).foldr max 0

theorem embeddingHeight_le_levelHeight {level : List Candidate} {candidate : Candidate}
    (h : candidate ∈ level) : candidate.type.embeddingHeight ≤ levelHeight level :=
  List.le_max_of_le' 0 (List.mem_map.mpr ⟨candidate, h, rfl⟩) le_rfl

theorem levelHeight_lt {level : List Candidate} {bound : Nat} (hpos : 0 < bound)
    (h : ∀ candidate ∈ level, candidate.type.embeddingHeight < bound) :
    levelHeight level < bound := by
  have hle : levelHeight level ≤ bound - 1 := by
    refine List.max_le_of_forall_le _ _ fun height hheight => ?_
    obtain ⟨candidate, hmem, rfl⟩ := List.mem_map.mp hheight
    exact Nat.le_sub_one_of_lt (h candidate hmem)
  omega

/-- How far a search can still go: each named type that is not opened yet leads once more through
what can stand behind a name, and the level leads through itself. -/
def remaining (u : Universe) (frontier : Frontier) : Nat :=
  u.unseen frontier.seen * u.embeddingHeight + levelHeight frontier.level

section round

variable (u : Universe) (access : Access)

theorem embeddingHeight_lt_of_mem_ofComposite {viaPointer : Bool} {ty : Ty} {inner : Candidate}
    (h : inner ∈ (Findings.ofComposite access viaPointer ty).next) :
    inner.type.embeddingHeight < ty.embeddingHeight := by
  apply Ty.embeddingHeight_lt_of_mem_embedded
  cases ty with
  | struct package fields =>
      obtain ⟨field, hfield, rfl⟩ := List.mem_map.mp h
      exact List.mem_map.mpr ⟨field, hfield, rfl⟩
  | interface package methods =>
      simp only [Findings.ofComposite] at h
      split at h <;> simp at h
  | _ => simp [Findings.ofComposite] at h

theorem embeddingHeight_lt_of_mem_ofDeclaration {viaPointer : Bool} {d : Declaration}
    {inner : Candidate} (h : inner ∈ (Findings.ofDeclaration access viaPointer d).next) :
    inner.type.embeddingHeight < d.underlying.embeddingHeight := by
  unfold Findings.ofDeclaration at h
  split at h
  · simp at h
  · exact embeddingHeight_lt_of_mem_ofComposite access h

/-- A candidate of the next level is not as deep as this level, or a named type was opened for
it. -/
theorem mem_next_searchLevel (level : List Candidate) (seen : List TypeName) (inner : Candidate)
    (h : inner ∈ (u.searchLevel access level seen).1.next) :
    inner.type.embeddingHeight < levelHeight level ∨
      u.unseen (u.searchLevel access level seen).2 < u.unseen seen ∧
        inner.type.embeddingHeight < u.embeddingHeight := by
  fun_induction searchLevel u access level seen with
  | case1 seen => simp at h
  | case2 name viaPointer level seen hseen ih =>
      exact (ih h).imp_left (lt_of_lt_of_le · (Nat.le_max_right _ _))
  | case3 name viaPointer level seen hnew findings seen' heq ih =>
      rw [heq] at ih
      rcases List.mem_append.mp h with hown | hrest
      · have hlt := embeddingHeight_lt_of_mem_ofDeclaration access hown
        by_cases hname : name ∈ u.names
        · right
          have hle := (u.searchLevel_decreases access level (name :: seen)).1
          rw [heq] at hle
          exact ⟨lt_of_le_of_lt hle (unseen_cons_lt hname hnew),
            lt_of_lt_of_le hlt (embeddingHeight_underlying_le hname)⟩
        · -- Nothing is embedded in what has no declaration.
          rw [declaration_of_not_mem hname] at hown
          simp [Findings.ofDeclaration, Declaration.methods, Declaration.underlying,
            Ty.emptyStruct, Findings.ofComposite] at hown
      · exact (ih hrest).imp (lt_of_lt_of_le · (Nat.le_max_right _ _))
          (And.imp_left (lt_of_lt_of_le · (u.unseen_cons_le name seen)))
  | case4 ty viaPointer level seen hne findings seen' heq ih =>
      rw [heq] at ih
      rcases List.mem_append.mp h with hown | hrest
      · left
        exact lt_of_lt_of_le (embeddingHeight_lt_of_mem_ofComposite access hown)
          (Nat.le_max_left _ _)
      · exact (ih hrest).imp_left (lt_of_lt_of_le · (Nat.le_max_right _ _))

/-- Each round brings the search nearer to its end. -/
theorem remaining_lt {level : List Candidate} (hlevel : level ≠ []) (seen : List TypeName) :
    u.remaining ⟨(u.searchLevel access level seen).1.next, (u.searchLevel access level seen).2⟩ <
      u.remaining ⟨level, seen⟩ := by
  have hle := (u.searchLevel_decreases access level seen).1
  have hmul := Nat.mul_le_mul_right u.embeddingHeight hle
  have hpos : 0 < levelHeight level := by
    obtain ⟨candidate, hmem⟩ := List.exists_mem_of_ne_nil level hlevel
    exact lt_of_lt_of_le candidate.type.embeddingHeight_pos (embeddingHeight_le_levelHeight hmem)
  have hnext := u.mem_next_searchLevel access level seen
  simp only [remaining]
  generalize u.searchLevel access level seen = step at hle hmul hnext ⊢
  by_cases hopened : u.unseen step.2 < u.unseen seen
  · have hmul : (u.unseen step.2 + 1) * u.embeddingHeight ≤ u.unseen seen * u.embeddingHeight :=
      Nat.mul_le_mul_right _ hopened
    have hlt : levelHeight step.1.next < levelHeight level + u.embeddingHeight := by
      refine levelHeight_lt (by omega) fun inner hinner => ?_
      rcases hnext inner hinner with hlt | ⟨-, hlt⟩ <;> omega
    rw [Nat.add_mul] at hmul
    omega
  · have hlt : levelHeight step.1.next < levelHeight level :=
      levelHeight_lt hpos fun inner hinner => (hnext inner hinner).resolve_right (hopened ·.1)
    omega

/-- As many rounds as remain lead to the answer of the search. -/
theorem searchRounds_eq (rounds : Nat) (frontier : Frontier)
    (hrounds : u.remaining frontier ≤ rounds) :
    u.searchRounds access rounds frontier = .inl (u.search access frontier.level frontier.seen) := by
  induction rounds generalizing frontier with
  | zero =>
      obtain ⟨level, seen⟩ := frontier
      cases level with
      | nil => rw [searchRounds, search]
      | cons candidate level =>
          have := u.remaining_lt access (List.cons_ne_nil candidate level) seen
          omega
  | succ rounds ih =>
      obtain ⟨level, seen⟩ := frontier
      cases level with
      | nil => rw [searchRounds, search]
      | cons candidate level =>
          have hlt := u.remaining_lt access (List.cons_ne_nil candidate level) seen
          rw [searchRounds, search]
          generalize u.searchLevel access (candidate :: level) seen = step at hlt ⊢
          have hnext := ih ⟨step.1.next, step.2⟩ (by omega)
          cases step.1.found with
          | nil => exact hnext
          | cons member members => cases members <;> rfl

end round

/-- A number of rounds after which every search in a type has ended. -/
def roundBound (u : Universe) (ty : Ty) : Nat :=
  u.names.length * u.embeddingHeight + ty.withoutPointers.embeddingHeight

theorem remaining_start_le (u : Universe) (ty : Ty) (viaPointer : Bool) :
    u.remaining ⟨[Candidate.of ty viaPointer], []⟩ ≤ u.roundBound ty := by
  have hunseen : u.unseen [] ≤ u.names.length := List.countP_le_length
  have hmul := Nat.mul_le_mul_right u.embeddingHeight hunseen
  have hlevel : levelHeight [Candidate.of ty viaPointer] = ty.withoutPointers.embeddingHeight :=
    Nat.max_zero _
  simp only [remaining, roundBound, hlevel]
  omega

/-- The search for a name ends, whatever embeds what: after a number of rounds that depends on the
universe and on the type only, it has found what the name means, or that it means nothing. -/
theorem findMember_ends (u : Universe) (ty : Ty) (access : Access) (viaPointer : Bool) :
    u.searchRounds access (u.roundBound ty) ⟨[Candidate.of ty viaPointer], []⟩ =
      .inl (u.findMember ty access viaPointer) :=
  u.searchRounds_eq access _ _ (u.remaining_start_le ty viaPointer)

/-- A type that embeds a pointer to itself, and itself in a struct without a name. -/
def selfEmbedding : Universe where
  declarations := [{
    name := "T"
    definition := some ⟨.struct none [
      { name := "T", type := .pointer (.named (.declared 0)), embedded := true },
      { name := "S", embedded := true,
        type := .struct none [
          { name := "T", type := .named (.declared 0), embedded := true }] }], []⟩ }]

-- The struct without a name is opened one level further down, and then nothing is left.
example : selfEmbedding.searchRounds ⟨"X", none⟩ 3 ⟨[.of (.named (.declared 0)) true], []⟩ =
    .inl none := rfl

end Universe

end TemplateTyping
