import TemplateTyping.Proofs.Check.Interpretation
import TemplateTyping.Proofs.Tree.Parts

/-!
# Arms that are never taken

The walk through a tree has arms for shapes that no source has: a pipeline without
commands and a command without operands have the type of `nil`, and a node that is no
operand, but stands as one, is walked through as if it stood in a list.

An interpretation of the walk leaves these three arms open.  With the arms of the walk
itself it is the walk, for every tree.  Through a well formed tree it is the walk whatever
the arms are, so that none of them is ever taken.
-/

namespace TemplateTyping

/-- What is done for shapes that no source has. -/
structure Fallback where
  /-- The type of a pipeline without commands. -/
  emptyPipe : Context → Checker Ty
  /-- The type of a command without operands. -/
  emptyCommand : Context → Checker Ty
  /-- The type of a node that stands as an operand but is none. -/
  nonOperand : Context → (dot : Ty) → (passed : Option Ty) → Node → Checker Ty

namespace Fallback

/-- What the walk does. -/
def standard : Fallback where
  emptyPipe _ := return nilType
  emptyCommand _ := return nilType
  nonOperand ctx dot passed node := do
    return (← ctx.walk dot { passed := passed } node).getD nilType

/-- The walk with the given arms. -/
def interpretation (arms : Fallback) (ctx : Context) : Interpretation Checker :=
  { Interpretation.ordinary ctx with
    emptyPipe := arms.emptyPipe ctx
    emptyCommand := arms.emptyCommand ctx
    operandType := fun dot passed node walked =>
      if node.isTerm then (do return (← walked).getD nilType)
      else arms.nonOperand ctx dot passed node }

-- A command that no source has takes an arm.
example (arms : Fallback) (ctx : Context) (dot : Ty) (span : Span) :
    (arms.interpretation ctx).checkCommand ctx dot ⟨span, []⟩ none = arms.emptyCommand ctx := rfl

/-- For a node that is no operand, what it is applied to does not matter, but for the
result that is passed on. -/
theorem walk_of_not_isTerm
    (ctx : Context) (dot : Ty) (args : Arguments) {node : Node} (h : node.isTerm = false) :
    ctx.walk dot args node = ctx.walk dot { passed := args.passed } node := by
  cases node <;> first | rfl | cases h

/-- With the arms of the walk the interpretation is the walk everywhere. -/
theorem standard_agreesOn (ctx : Context) :
    (standard.interpretation ctx).AgreesOn ctx fun _ => True where
  steps := rfl
  part _ _ := trivial
  resolve _ _ _ _ := rfl
  emptyPipe _ _ := rfl
  emptyCommand _ _ := rfl
  operand {node operand} dot args _ _ := by
    by_cases hterm : operand.isTerm = true
    · exact if_pos hterm
    · refine (if_neg hterm).trans ?_
      rw [Bool.not_eq_true] at hterm
      unfold Context.operandType
      rw [walk_of_not_isTerm ctx dot args hterm]
      rfl

end Fallback

/-- What stands as an operand in a node of fitting shape is one. -/
theorem Node.isTerm_of_mem_operandParts
    {node operand : Node} (h : node.fits = true) (hoperand : operand ∈ node.operandParts) :
    operand.isTerm = true := by
  cases node with
  | command command =>
      simp only [Node.fits, Bool.and_eq_true, List.all_eq_true] at h
      exact (h.2 operand hoperand).1
  | chain span receiver path =>
      obtain rfl : operand = receiver := List.mem_singleton.mp hoperand
      simp only [Node.fits, Bool.and_eq_true] at h
      have hreceiver := h.1.1
      cases operand <;> simp_all [Node.isReceiver, Node.isTerm]
  | _ => cases hoperand

/-- On well formed nodes the interpretation is the walk with any arms. -/
theorem Fallback.agreesOn_isWellFormed (arms : Fallback) (ctx : Context) :
    (arms.interpretation ctx).AgreesOn ctx Node.IsWellFormed where
  steps := rfl
  part hnode hpart := by
    obtain ⟨⟨enters, part⟩, hmem, rfl⟩ := List.mem_map.mp hpart
    exact hnode.of_mem_parts hmem
  resolve _ _ _ _ := rfl
  emptyPipe hpipe hcommands := by
    have hfits := hpipe.fits_self
    simp [Node.fits, hcommands] at hfits
  emptyCommand hcommand hoperands := by
    have hfits := hcommand.fits_self
    simp [Node.fits, hoperands] at hfits
  operand _ _ hnode hoperand := if_pos (Node.isTerm_of_mem_operandParts hnode.fits_self hoperand)

/-! ## Templates -/

namespace Environment

/-- Checks a tree, with the given arms for it and for the templates it invokes. -/
def checkWith (arms : Fallback) (env : Environment) (tree : Tree) (data : Ty) :
    Except TypeError (Option Ty) :=
  env.checkThrough arms.interpretation tree data

theorem agreesIn_of_isWellFormed (arms : Fallback) (env : Environment) {tree : Tree}
    (h : tree.IsWellFormed) : env.AgreesIn arms.interpretation tree :=
  fun _ => ⟨Node.IsWellFormed, h, arms.agreesOn_isWellFormed _⟩

theorem agreesIn_standard (env : Environment) (tree : Tree) :
    env.AgreesIn Fallback.standard.interpretation tree :=
  fun _ => ⟨fun _ => True, trivial, Fallback.standard_agreesOn _⟩

end Environment

/-- Every tree of a source is well formed.  If the templates in use are well formed,
checking such a tree never takes one of the three arms: the result is the same with
any other arms, where the check with arms of its own is the check itself for every
tree. -/
theorem TemplateSet.parse_isWellFormed
    {d : Delimiters} {name source : String} {set : TemplateSet}
    (h : TemplateSet.parse d name source = .ok set) :
    set.IsWellFormed ∧
      (∀ env : Environment, env.templates.IsWellFormed →
        ∀ template tree, set.get? template = some tree →
          ∀ arms data, env.checkWith arms tree data = env.check tree data) ∧
      ∀ (env : Environment) tree data,
        env.checkWith .standard tree data = env.check tree data := by
  have hset := TemplateSet.isWellFormed_of_parse h
  refine ⟨hset, ?_, ?_⟩
  · intro env htemplates template tree htree arms data
    refine Environment.checkThrough_eq ?_ ?_ data
    · intro name other hother
      exact env.agreesIn_of_isWellFormed arms (htemplates name other hother)
    · exact env.agreesIn_of_isWellFormed arms (hset template tree htree)
  · intro env tree data
    exact Environment.checkThrough_eq (fun _ other _ => env.agreesIn_standard other)
      (env.agreesIn_standard tree) data

/-- A range with two variables, a chain after a pipeline in parentheses, and a call. -/
def itemsSource : String :=
  "\x7b\x7brange $i, $e := .Items\x7d\x7d\x7b\x7b(index $e 0).Name | printf $i\x7d\x7d" ++
    "\x7b\x7bend\x7d\x7d"

/-- The check of that source does not depend on the arms. -/
theorem TemplateSet.parse_isWellFormed_items :
    ∃ set tree, TemplateSet.parse .standard "page" itemsSource = .ok set ∧
      set.get? "page" = some tree ∧ tree.IsWellFormed ∧
        ∀ types arms data, Environment.checkWith arms ⟨types, set, .standard, none, 64⟩ tree data =
          Environment.check ⟨types, set, .standard, none, 64⟩ tree data := by
  have hchecks : (TemplateSet.parse .standard "page" itemsSource).toOption.any
      (·.contains "page") = true := by
    decide +kernel
  cases hset : TemplateSet.parse .standard "page" itemsSource with
  | error halt =>
      rw [hset] at hchecks
      cases hchecks
  | ok set =>
      rw [hset] at hchecks
      obtain ⟨tree, htree⟩ := Option.isSome_iff_exists.mp hchecks
      obtain ⟨hformed, hcheck, _⟩ := TemplateSet.parse_isWellFormed hset
      refine ⟨set, tree, rfl, htree, hformed "page" tree htree, ?_⟩
      intro types arms data
      exact hcheck ⟨types, set, .standard, none, 64⟩ hformed "page" tree htree arms data

end TemplateTyping
