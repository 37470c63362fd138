import TemplateTyping.Proofs.Check.Blame
import TemplateTyping.Proofs.Check.Closure
import TemplateTyping.Proofs.Check.Interpretation

/-!
# Maps with integer keys

A name after a dot can be a key of a map.  For a map with integer keys it would have to write an
integer, but no name in a source does: where a digit follows a dot a number starts, and other
scripts' digits, which may stand in names, do not count as digits of integers.

So such a map cannot be entered by a name.  Every step that comes to one ends with a fault, and
what the check would do after a key that is an integer does not matter.
-/

namespace TemplateTyping

open Lexer

/-! ## Names are no integers -/

theorem Digits.value?_eq_none {c : Char} (h : c.isDigit = false) : value? 10 c = none := by
  unfold value?
  simp only [h, Bool.false_eq_true, if_false]
  split
  · rw [Option.filter_some, if_neg (by simp)]
  · split
    · rw [Option.filter_some, if_neg (by simp)]
    · rfl

/-- A text that starts with neither a sign nor a digit writes no integer. -/
theorem Digits.readSigned?_eq_none {limit : Nat} {c : Char} {cs : List Char}
    (hminus : c ≠ '-') (hplus : c ≠ '+') (hdigit : c.isDigit = false) :
    readSigned? limit (c :: cs) = none := by
  have hsplit : splitSign (c :: cs) = (false, c :: cs) := by
    unfold splitSign
    split
    · rename_i heq
      exact absurd (List.cons.inj heq).1 hminus
    · rename_i heq
      exact absurd (List.cons.inj heq).1 hplus
    · rfl
  simp [readSigned?, hsplit, read?, extend?, value?_eq_none hdigit]

theorem isWordChar_ne {c sign : Char} (h : isWordChar c = true) (hsign : isWordChar sign = false) :
    c ≠ sign := by
  rintro rfl
  rw [h] at hsign
  cases hsign

/-- The name of a field writes no integer. -/
theorem IsFieldName.readSigned?_eq_none {name : String} (h : IsFieldName name) :
    Digits.readSigned? Integer.signedLimit name.toList = none := by
  have hlexeme : Lexeme (.field name) ('.' :: name.toList) := h
  generalize hkind : TokenKind.field name = kind at hlexeme
  generalize htext : '.' :: name.toList = text at hlexeme
  cases hlexeme with
  | @field word hword hne hdigit =>
      obtain rfl : name.toList = word := (List.cons.inj htext).2
      cases hname : name.toList with
      | nil => exact absurd hname hne
      | cons c cs =>
          rw [hname] at hword hdigit
          have hchar : isWordChar c = true := hword c List.mem_cons_self
          exact Digits.readSigned?_eq_none (isWordChar_ne hchar (by decide +kernel))
            (isWordChar_ne hchar (by decide +kernel)) (by simpa using hdigit)
  | word => exact absurd hkind.symm (TokenKind.ofWord_ne rfl _)
  | _ => cases hkind

/-- The names after dots in readable nodes are names of fields. -/
theorem Node.IsReadablePart.isFieldName
    {inRange : Bool} {node : Node} (h : node.IsReadablePart inRange) :
    ∀ name ∈ node.dottedNames, IsFieldName name := by
  cases node with
  | field span path =>
      rcases h with h | ⟨-, hpath⟩
      · exact h.elim
      · exact hpath
  | chain span receiver path =>
      rcases h with h | ⟨-, -, -, hpath⟩
      · exact h.elim
      · exact hpath
  | «variable» v =>
      rcases h with h | ⟨name, path, hpath, -, hfields⟩
      · exact h.elim
      · simpa [dottedNames, hpath] using hfields
  | _ => simp [dottedNames]

/-- All names after dots in the tree have a property. -/
def Tree.NamesAre (names : String → Prop) (tree : Tree) : Prop :=
  ∀ node, tree.Holds node → ∀ name ∈ node.dottedNames, names name

/-- The text writes no integer. -/
def IsNoInteger (name : String) : Prop :=
  Digits.readSigned? Integer.signedLimit name.toList = none

theorem TemplateSet.namesAre_of_parse
    {d : Delimiters} {name source : String} {set : TemplateSet}
    (h : TemplateSet.parse d name source = .ok set) {template : String} {tree : Tree}
    (htree : set.get? template = some tree) : tree.NamesAre IsNoInteger := by
  obtain ⟨inRange, hreadable⟩ := TemplateSet.isReadable_of_parse h template tree htree
  have hroot : (Node.body tree.root).IsReadablePart inRange := hreadable
  rintro node ⟨_, hholds⟩ word hword
  exact ((hroot.holds hholds).isFieldName word hword).readSigned?_eq_none

theorem TemplateSet.IsRead.namesAre
    {set : TemplateSet} (h : set.IsRead) {template : String} {tree : Tree}
    (htree : set.get? template = some tree) : tree.NamesAre IsNoInteger := by
  obtain ⟨d, sourceName, source, read, hread, readName, htree'⟩ := h template tree htree
  exact TemplateSet.namesAre_of_parse hread htree'

/-! ## The key is refused -/

theorem Context.checkKey_of_isInteger
    {u : Universe} {current key : Ty} {name : String} (hkey : u.isInteger key = true)
    (hname : IsNoInteger name) :
    Context.checkKey u current key name = .error (.mapKeyNotInteger name (u.describe current)) := by
  have hnone : (Digits.readSigned? Integer.signedLimit name.toList).isSome = false := by
    rw [show _ = none from hname]
    rfl
  rw [Context.checkKey, if_pos hkey, hnone]
  rfl

/-- A step to a map with integer keys ends with a fault. -/
theorem Context.pathStep_of_isInteger
    (ctx : Context) {node : Node} {args : Arguments} {receiver current key elem : Ty}
    {name : String} (hcurrent : ctx.types.target receiver = .ok current)
    (hmap : ctx.types.underlying current = .map key elem)
    (hkey : ctx.types.isInteger key = true) (hname : IsNoInteger name) (scope : Scope) :
    ctx.pathStep node args receiver name scope =
      .error ⟨ctx.tree, node, .mapKeyNotInteger name (ctx.types.describe current)⟩ := by
  have hresolve : ctx.types.resolve ctx.package receiver name =
      .error (.mapKeyNotInteger name (ctx.types.describe current)) := by
    simp only [Universe.resolve, hcurrent, bind, Except.bind, hmap,
      checkKey_of_isInteger hkey hname]
  rw [Context.pathStep_eq, hresolve]
  rfl

/-! ## What comes after an integer key -/

namespace Universe

/-- What a name stands for, if `accept` decides it where an integer is the key of a map with
integer keys and elements of the given type. -/
def resolveWith (accept : Ty → String → Except Cause Resolution) (u : Universe)
    (package : Option String) (receiver : Ty) (name : String) : Except Cause Resolution := do
  let current ← u.target receiver
  match u.underlying current with
  | .func _ => throw (.chainUnsupported (u.describe current))
  | .map key elem =>
      if u.isInteger key && (Digits.readSigned? Integer.signedLimit name.toList).isSome then
        accept elem name
      else
        Context.checkKey u current key name
        return .value elem
  | _ => u.resolveMember package current name

/-- The choice for a name is the element of the map, if the name is an integer at all. -/
def TakesElement (accept : Ty → String → Except Cause Resolution) (name : String) : Prop :=
  ¬IsNoInteger name → ∀ elem, accept elem name = .ok (.value elem)

theorem resolveWith_eq
    {u : Universe} {accept : Ty → String → Except Cause Resolution} {name : String}
    (h : TakesElement accept name) (package : Option String) (receiver : Ty) :
    u.resolveWith accept package receiver name = u.resolve package receiver name := by
  unfold resolveWith resolve
  refine bind_congr fun current => ?_
  cases u.underlying current with
  | map key elem =>
      by_cases hkey : (u.isInteger key &&
          (Digits.readSigned? Integer.signedLimit name.toList).isSome) = true
      · obtain ⟨hinteger, hsome⟩ := Bool.and_eq_true_iff.mp hkey
        have hname : ¬IsNoInteger name := by
          rw [IsNoInteger, ← Option.not_isSome_iff_eq_none, not_not]
          exact hsome
        simp only [hsome, hinteger, Bool.and_self, if_true, Context.checkKey, h hname elem]
        rfl
      · simp only [hkey, if_false, Bool.false_eq_true]
  | _ => rfl

end Universe

/-- The walk with a choice of its own for integers as keys. -/
def Interpretation.entering (accept : Ty → String → Except Cause Resolution) (ctx : Context) :
    Interpretation Checker :=
  { Interpretation.ordinary ctx with resolve := ctx.types.resolveWith accept ctx.package }

namespace Environment

/-- Checks a tree, and the templates that it invokes, in this way. -/
def checkEntering (accept : Ty → String → Except Cause Resolution) (env : Environment)
    (tree : Tree) (data : Ty) : Except TypeError (Option Ty) :=
  env.checkThrough (Interpretation.entering accept) tree data

variable {accept : Ty → String → Except Cause Resolution} {env : Environment}

theorem agreesIn_entering
    {tree : Tree} (htree : tree.NamesAre (Universe.TakesElement accept)) :
    env.AgreesIn (Interpretation.entering accept) tree := by
  intro invoke
  refine ⟨tree.Holds, ⟨false, .refl⟩, ?_⟩
  constructor
  · rfl
  · intro node part hnode hpart
    exact hnode.part hpart
  · intro node hnode name hname receiver
    exact Universe.resolveWith_eq (htree node hnode name hname) _ receiver
  · intro _ _ _
    rfl
  · intro _ _ _
    rfl
  · intro _ _ _ _ _ _
    rfl

/-- If the choice does not matter for the names in all trees, it does not matter for the check. -/
theorem checkEntering_eq
    (htemplates : ∀ name tree, env.templates.get? name = some tree →
      tree.NamesAre (Universe.TakesElement accept))
    {tree : Tree} (htree : tree.NamesAre (Universe.TakesElement accept)) (data : Ty) :
    env.checkEntering accept tree data = env.check tree data :=
  checkThrough_eq (fun name other hother => agreesIn_entering (htemplates name other hother))
    (agreesIn_entering htree) data

end Environment

/-- Maps with integer keys cannot be entered by name.  No name after a dot in a source writes an
integer.  So in a tree of templates that were read, every step of a path that comes to a map with
integer keys ends with the fault that the key is no integer; and the check does not depend on
what is done for integers, where with the element of the map it is the check itself. -/
theorem integerKeys_not_entered :
    (∀ d name source set, TemplateSet.parse d name source = .ok set →
      ∀ template tree, set.get? template = some tree → ∀ node, tree.Holds node →
        ∀ word ∈ node.dottedNames,
          Digits.readSigned? Integer.signedLimit word.toList = none) ∧
    (∀ env : Environment, env.templates.IsRead →
      ∀ template tree, env.templates.get? template = some tree →
        (∀ invoke node, tree.Holds node → ∀ word ∈ node.dottedNames,
          ∀ args receiver current key elem, env.types.target receiver = .ok current →
            env.types.underlying current = .map key elem → env.types.isInteger key = true →
              ∀ scope, (env.context tree invoke).pathStep node args receiver word scope =
                .error ⟨tree, node, .mapKeyNotInteger word (env.types.describe current)⟩) ∧
        ∀ accept data, env.checkEntering accept tree data = env.check tree data) ∧
    ∀ (env : Environment) tree data,
      env.checkEntering (fun elem _ => .ok (.value elem)) tree data = env.check tree data := by
  refine ⟨?_, ?_, ?_⟩
  · intro d name source set hset template tree htree
    exact TemplateSet.namesAre_of_parse hset htree
  · intro env hread template tree htree
    have hnames : tree.NamesAre IsNoInteger := hread.namesAre htree
    constructor
    · intro invoke node hnode word hword args receiver current key elem hcurrent hmap hkey scope
      exact (env.context tree invoke).pathStep_of_isInteger hcurrent hmap hkey
        (hnames node hnode word hword) scope
    · intro accept data
      have htakes : ∀ {other : Tree}, other.NamesAre IsNoInteger →
          other.NamesAre (Universe.TakesElement accept) :=
        fun hother node hnode word hword hinteger =>
          absurd (hother node hnode word hword) hinteger
      refine Environment.checkEntering_eq ?_ (htakes hnames) data
      intro name other hother
      exact htakes (hread.namesAre hother)
  · intro env tree data
    refine Environment.checkEntering_eq ?_ ?_ data
    · intro name other _ node _ word _ _ elem
      rfl
    · intro node _ word _ _ elem
      rfl

/-- A page that names a key by the Arabic digit three. -/
def digitPage : String := "\x7b\x7b.\u0663\x7d\x7d"

/-- A pointer to a map with integer keys. -/
def countedTexts : Ty := .pointer (.map (.basic .int) (.basic .string))

/-- The path of the field that a tree shows, if it does nothing else. -/
def soleField? (tree : Tree) : Option (Span × List String) :=
  match tree.root.nodes with
  | [.action _ ⟨_, _, _, [⟨_, [.field span path]⟩]⟩] => some (span, path)
  | _ => none

theorem holds_of_soleField?
    {tree : Tree} {span : Span} {path : List String} (h : soleField? tree = some (span, path)) :
    tree.Holds (.field span path) := by
  unfold soleField? at h
  split at h
  · rename_i actionSpan pipeSpan isAssign declared commandSpan fieldSpan names hnodes
    cases h
    let command : Command Node := ⟨commandSpan, [.field span path]⟩
    let pipe : Pipe Node := ⟨pipeSpan, isAssign, declared, [command]⟩
    have hroot : tree.Holds (.body tree.root) := ⟨false, .refl⟩
    have haction : tree.Holds (.action actionSpan pipe) :=
      hroot.part (by simp [Node.parts, hnodes, pipe, command])
    have hpipe : tree.Holds (.pipe pipe) := haction.part (by simp [Node.parts])
    have hcommand : tree.Holds (.command command) := hpipe.part (by simp [Node.parts, pipe])
    exact hcommand.part (by simp [Node.parts, command])
  · cases h

/-- The digit of another script is a name, and no key of the map. -/
theorem integerKeys_not_entered_digit :
    ∃ set page span, TemplateSet.parse .standard "page" digitPage = .ok set ∧
      set.get? "page" = some page ∧ page.Holds (.field span ["\u0663"]) ∧
      Digits.readSigned? Integer.signedLimit "\u0663".toList = none ∧
      (∀ invoke args scope, (Environment.context ⟨⟨[]⟩, set, .standard, none, 64⟩ page
        invoke).pathStep (.field span ["\u0663"]) args countedTexts "\u0663" scope =
          .error ⟨page, .field span ["\u0663"],
            .mapKeyNotInteger "\u0663" "map[int]string"⟩) ∧
      ∀ accept, Environment.checkEntering accept ⟨⟨[]⟩, set, .standard, none, 64⟩ page
          countedTexts =
        Environment.check ⟨⟨[]⟩, set, .standard, none, 64⟩ page countedTexts := by
  have hruns : (TemplateSet.parse .standard "page" digitPage).toOption.any (fun set =>
      (set.get? "page").any fun page =>
        (soleField? page).any fun found => decide (found.2 = ["\u0663"])) = true := by
    decide +kernel
  obtain ⟨set, hset, hruns⟩ := (Option.any_eq_true _ _).mp hruns
  have hset := Except.eq_ok_of_toOption hset
  obtain ⟨page, hpage, hruns⟩ := (Option.any_eq_true _ _).mp hruns
  obtain ⟨⟨span, path⟩, hfield, hpath⟩ := (Option.any_eq_true _ _).mp hruns
  obtain rfl : path = ["\u0663"] := of_decide_eq_true hpath
  have hholds := holds_of_soleField? hfield
  have hword : "\u0663" ∈ (Node.field span ["\u0663"]).dottedNames := List.mem_singleton.mpr rfl
  have hread : set.IsRead := fun name tree htree => ⟨_, _, _, set, hset, name, htree⟩
  obtain ⟨hnames, hchecks, -⟩ := integerKeys_not_entered
  obtain ⟨hsteps, hcheck⟩ := hchecks ⟨⟨[]⟩, set, .standard, none, 64⟩ hread "page" page hpage
  refine ⟨set, page, span, hset, hpage, hholds, ?_, ?_, fun accept => hcheck accept _⟩
  · exact hnames _ _ _ set hset "page" page hpage _ hholds _ hword
  · intro invoke args scope
    have hdescription : Universe.describe ⟨[]⟩ (.map (.basic .int) (.basic .string)) =
        "map[int]string" := by decide +kernel
    rw [← hdescription]
    exact hsteps invoke _ hholds _ hword args countedTexts _ (.basic .int) (.basic .string) rfl rfl
      rfl scope

end TemplateTyping
