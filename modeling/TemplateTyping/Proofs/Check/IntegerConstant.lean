import Mathlib.Data.List.TakeWhile
import TemplateTyping.Check.Template
import TemplateTyping.Proofs.Literal.IntegerGrammar
import TemplateTyping.Proofs.Tree.Rejection

/-!
# Integer constants in templates

An integer literal alone in an action goes through all stages: it is cut out as one
token, read as a number constant, and typed.  The main result says what becomes of it
by the number that it writes.  With a number that fits 64 bits including the sign the
action has the type of untyped integers; one that fits without a sign only is reported
as too large by the check; all others are no number constants at all.
-/

namespace TemplateTyping

open Lexer

/-! ## Extent of integer literals -/

namespace Numeral

theorem runLength_eq_length
    {p : Char → Bool} {cs : List Char} (h : ∀ c ∈ cs, p c = true) :
    runLength p cs = cs.length := by
  rw [runLength, List.takeWhile_eq_self_iff.mpr h]

/-- A decimal literal of digits and underscores is taken as a whole. -/
theorem decimalLength?_eq_length
    {cs : List Char} (hne : cs ≠ []) (h : ∀ c ∈ cs, (c.isDigit || c == '_') = true) :
    decimalLength? cs = some cs.length := by
  have hdigits : digitsLength cs = cs.length := runLength_eq_length h
  have hmantissa : mantissaLength? cs = some cs.length := by
    simp [mantissaLength?, hdigits, oneLength, hne]
  rw [decimalLength?, hmantissa, Option.map_some, List.drop_length]
  rfl

end Numeral

namespace Integer

theorem DigitRun.isDigit_or
    {base : Nat} {cs : List Char} {ds : List Nat} (h : DigitRun base cs ds)
    (hle : base ≤ 10) {c : Char} (hc : c ∈ cs) : (c.isDigit || c == '_') = true := by
  rcases h.mem hc with rfl | ⟨d, hd⟩
  · rfl
  · rw [hd.isDigit hle, Bool.true_or]

namespace Literal

variable {cs : List Char} {n : Nat}

/-- The digits of a literal are taken as a whole, with or without a prefix. -/
theorem magnitudeLength_eq (h : Literal cs n) :
    (Numeral.prefixedLength? cs).or (Numeral.decimalLength? cs) = some cs.length := by
  have hprefixed : ∀ {c mark : Char} {cs : List Char},
      ¬ (c = '0' ∧ mark ∈ ['x', 'X', 'o', 'O', 'b', 'B']) →
        Numeral.prefixedLength? (c :: mark :: cs) = none := by
    intro c mark cs hmark
    rw [Numeral.prefixedLength?_cons, if_neg hmark]
  cases h with
  | @decimal c cs d ds hc hd hrun =>
      have hnone : Numeral.prefixedLength? (c :: cs) = none := by
        cases cs with
        | nil => exact Numeral.prefixedLength?_singleton c
        | cons mark cs => exact hprefixed fun hzero => hc.ne_zero hd hzero.1
      rw [hnone]
      exact Numeral.decimalLength?_eq_length (by simp) fun c' =>
        (DigitRun.digit hc hrun).isDigit_or (Nat.le_refl 10)
  | @octal cs ds hrun =>
      have hnone : Numeral.prefixedLength? ('0' :: cs) = none := by
        cases cs with
        | nil => rfl
        | cons mark cs => exact hprefixed fun hzero => hrun.not_mark (by decide) hzero.2
      rw [hnone]
      refine Numeral.decimalLength?_eq_length (by simp) (List.forall_mem_cons.mpr ⟨rfl, ?_⟩)
      exact fun c => hrun.isDigit_or (by decide)
  | @based mark base cs ds hmark hrun hds =>
      have hmem : mark ∈ ['x', 'X', 'o', 'O', 'b', 'B'] := by
        rcases hmark.cases with ⟨-, rfl | rfl⟩ | ⟨-, rfl | rfl⟩ | ⟨-, rfl | rfl⟩ <;> decide
      have hle : base ≤ 16 := by
        rcases hmark.cases with ⟨rfl, -⟩ | ⟨rfl, -⟩ | ⟨rfl, -⟩ <;> decide
      have hlength : Numeral.basedLength cs = cs.length := by
        apply Numeral.runLength_eq_length
        intro c hc
        rcases hrun.mem hc with rfl | ⟨d, hd⟩
        · rfl
        · simp [hd.isDigitOf hle]
      have hexponent : Numeral.exponentLength (fun c => c == 'p' || c == 'P') [] = 0 := rfl
      rw [Numeral.prefixedLength?_cons, if_pos ⟨rfl, hmem⟩, hlength, List.drop_length,
        hexponent, Option.some_or, List.length_cons, List.length_cons]
      exact congrArg some (by omega)

/-- A literal with or without a sign is cut out as one token. -/
theorem isNumeral (h : Literal cs n) (sign : Sign) : IsNumeral (sign.chars ++ cs) := by
  obtain ⟨c, rest, rfl, hc⟩ := h.head
  constructor
  · cases sign with
    | absent => exact .digit hc
    | plus => exact .sign (.inl rfl) (.inl hc)
    | minus => exact .sign (.inr rfl) (.inl hc)
  · refine ⟨[], ?_⟩
    have hsign : Numeral.signLength (sign.chars ++ c :: rest) = sign.chars.length := by
      cases sign with
      | absent => exact if_neg (not_sign_of_isDigit hc)
      | _ => rfl
    have hlength : Numeral.length? (sign.chars ++ c :: rest) =
        some (sign.chars ++ c :: rest).length := by
      simp only [Numeral.length?, hsign, List.drop_left, h.magnitudeLength_eq]
      simp [Numeral.oneLength]
    rw [List.append_nil, numberLength_eq_ok]
    refine ⟨by simp, _, hlength, .inl ⟨by simp, rfl⟩⟩

end Literal

end Integer

/-! ## Constants alone in an action -/

/-- A body that is an action with one number constant. -/
def Body.IsConstant (body : Body Node) (number : Number) : Prop :=
  ∃ span action pipe command place, body =
    ⟨span, [.action action ⟨pipe, false, [], [⟨command, [.number place number]⟩]⟩]⟩

theorem eq_singleton_of_unplacedNodes
    {nodes : List Node} {other : Node} (h : unplacedNodes nodes = [other]) :
    ∃ node, nodes = [node] ∧ node.unplaced = other := by
  cases nodes with
  | nil => cases h
  | cons node nodes =>
      obtain ⟨hnode, hnodes⟩ := List.cons.inj h
      rw [unplacedNodes_eq_nil.mp hnodes]
      exact ⟨node, rfl, hnode⟩

theorem eq_singleton_of_unplacedCommands
    {commands : List (Command Node)} {other : Command Node}
    (h : unplacedCommands commands = [other]) :
    ∃ command, commands = [command] ∧ command.unplaced = other := by
  cases commands with
  | nil => cases h
  | cons command commands =>
      obtain ⟨hcommand, hcommands⟩ := List.cons.inj h
      rw [unplacedCommands_eq_nil.mp hcommands]
      exact ⟨command, rfl, hcommand⟩

theorem Body.isConstant_of_unplaced
    {body : Body Node} {number : Number}
    (h : body.unplaced = ⟨.origin, [.action .origin
      ⟨.origin, false, [], [⟨.origin, [.number .origin number]⟩]⟩]⟩) :
    body.IsConstant number := by
  obtain ⟨span, nodes⟩ := body
  obtain ⟨node, rfl, hnode⟩ := eq_singleton_of_unplacedNodes (Body.mk.inj h).2
  cases node with
  | action action pipe =>
      obtain ⟨pipe, isAssign, declared, commands⟩ := pipe
      obtain ⟨-, rfl, hdeclared, hcommands⟩ := Pipe.mk.inj (Node.action.inj hnode).2
      obtain rfl := List.map_eq_nil_iff.mp hdeclared
      obtain ⟨⟨command, operands⟩, rfl, hcommand⟩ :=
        eq_singleton_of_unplacedCommands hcommands
      obtain ⟨operand, rfl, hoperand⟩ :=
        eq_singleton_of_unplacedNodes (Command.mk.inj hcommand).2
      cases operand with
      | number place other =>
          obtain rfl := (Node.number.inj hoperand).2
          exact ⟨span, action, pipe, command, place, rfl⟩
      | _ => cases hoperand
  | _ => cases hnode

/-- A number literal with a value, alone between delimiters, is read as the constant
of that value. -/
theorem TemplateSet.parse_number_eq_ok
    {text : String} (h : IsNumeral text.toList) {number : Number}
    (hvalue : Number.ofText text = .ok number) (name : String) :
    ∃ set tree, TemplateSet.parse .standard name (delimited text) = .ok set ∧
      set.get? name = some tree ∧ tree.root.IsConstant number := by
  -- The source is the printed form of the constant, so reading it gives the constant back.
  let body : Body Node := ⟨.origin, [.action .origin
    ⟨.origin, false, [], [⟨.origin, [.number .origin number]⟩]⟩]⟩
  have htext : number.text = text := Number.ofText_text hvalue
  have hprint : body.print = delimited text := by
    simp [body, Body.print, printNodes, Node.print, Pipe.print, printDeclared,
      printCommands, Command.print, printOperands, Node.enclose, Node.isPipe, htext]
  have hliteral : number.IsLiteral := by
    rw [← htext] at h hvalue
    exact .inl ⟨.number h, hvalue⟩
  have hcommand : Command.IsReadable ⟨.origin, [.number .origin number]⟩ :=
    ⟨by simp, hliteral, trivial⟩
  have hreadable : body.IsReadable false :=
    ⟨⟨TokenReader.areDeclared_nil 1, by simp, rfl, hcommand, trivial⟩, trivial⟩
  obtain ⟨set, tree, hparse, hentries, hroot⟩ :=
    TemplateSet.parse_print hreadable rfl name
  rw [hprint] at hparse
  refine ⟨set, tree, hparse, ?_, Body.isConstant_of_unplaced hroot⟩
  apply NameMap.get?_of_mem_entries
  rw [hentries]
  exact List.mem_singleton_self _

/-- The check of a constant alone in an action is the verdict on its kind. -/
theorem Environment.check_of_isConstant
    {tree : Tree} {number : Number} (h : tree.root.IsConstant number)
    (env : Environment) (data : Ty) :
    (∀ kind, number.kind = .ok kind → env.check tree data = .ok (some (.basic kind))) ∧
      ∀ cause, number.kind = .error cause →
        ∃ error, env.check tree data = .error error ∧ error.cause = cause := by
  obtain ⟨span, action, pipe, command, place, hroot⟩ := h
  have hwalk (ctx : Context) : ctx.walkBody data tree.root = do
      let kind ← ctx.located (.number place number) number.kind
      return some (.basic kind) := by
    simp [hroot, Context.walkBody, Context.walkNodes, Context.walk, Context.checkPipe,
      Context.checkCommands, Context.checkCommand, Context.checkApplication, Context.plain,
      Arguments.given]
  constructor
  · intro kind hkind
    rw [check, walkTree, hwalk, hkind]
    rfl
  · intro cause hkind
    rw [check, walkTree, hwalk, hkind]
    exact ⟨_, rfl, rfl⟩

/-! ## Integers -/

/-- An integer literal alone in an action is typed by the number that it writes.  If
the number fits 64 bits including the sign, the source is read as the constant of
that number, and its type is that of untyped integers.  If it fits 64 bits and the
literal has no sign, the source is read, and the check reports that the literal is too
large.  In all other cases the source is not read. -/
theorem check_integerLiteral
    {cs : List Char} {n : Nat} (h : Integer.Literal cs n) (sign : Integer.Sign)
    {text : String} (htext : text.toList = sign.chars ++ cs) (name : String) :
    (-2 ^ 63 ≤ sign.apply n ∧ sign.apply n < 2 ^ 63 →
      ∃ set tree number, TemplateSet.parse .standard name (delimited text) = .ok set ∧
        set.get? name = some tree ∧ tree.root.IsConstant number ∧ number.text = text ∧
          number.isInt = true ∧ number.int = sign.apply n ∧
            ∀ (env : Environment) (data : Ty),
              env.check tree data = .ok (some (.basic .untypedInt))) ∧
    (sign = .absent ∧ 2 ^ 63 ≤ n ∧ n < 2 ^ 64 →
      ∃ set tree number, TemplateSet.parse .standard name (delimited text) = .ok set ∧
        set.get? name = some tree ∧ tree.root.IsConstant number ∧
          ∀ (env : Environment) (data : Ty), ∃ error,
            env.check tree data = .error error ∧ error.cause = .overflow text) ∧
    (¬ (-2 ^ 63 ≤ sign.apply n ∧ sign.apply n < 2 ^ 63) →
      ¬ (sign = .absent ∧ 2 ^ 63 ≤ n ∧ n < 2 ^ 64) →
        ∃ fault, TemplateSet.parse .standard name (delimited text) = .error (.fault fault)) := by
  have hnumeral : IsNumeral text.toList := by
    rw [htext]
    exact h.isNumeral sign
  refine ⟨?_, ?_, ?_⟩
  · intro hfits
    obtain ⟨uint, hvalue⟩ := h.ofText_of_fits htext hfits
    obtain ⟨set, tree, hparse, hget, hroot⟩ :=
      TemplateSet.parse_number_eq_ok hnumeral hvalue name
    refine ⟨set, tree, _, hparse, hget, hroot, rfl, rfl, rfl, fun env data => ?_⟩
    exact (env.check_of_isConstant hroot data).1 _ (h.kind_ofInteger htext _ _)
  · rintro ⟨rfl, hlow, hhigh⟩
    have hvalue := h.ofText_of_unsigned htext hlow hhigh
    obtain ⟨set, tree, hparse, hget, hroot⟩ :=
      TemplateSet.parse_number_eq_ok hnumeral hvalue name
    refine ⟨set, tree, _, hparse, hget, hroot, fun env data => ?_⟩
    exact (env.check_of_isConstant hroot data).2 _ (h.kind_ofInteger htext _ _)
  · intro hsigned hunsigned
    have habsent : sign = .absent → 2 ^ 64 ≤ n := by
      rintro rfl
      simp only [Integer.Sign.apply, true_and] at hsigned hunsigned
      omega
    obtain ⟨error, hvalue⟩ := h.ofText_eq_error htext hsigned habsent
    obtain ⟨span, hparse⟩ := TemplateSet.parse_number_eq_error hnumeral hvalue name
    exact ⟨_, hparse⟩

/-- The digits of the first number that does not fit 64 bits including the sign. -/
theorem Integer.literal_edge : Literal "0x8000_0000_0000_0000".toList (2 ^ 63) := by
  have height : IsDigit 16 '8' 8 := ⟨by decide, .inl rfl⟩
  have hzero : IsDigit 16 '0' 0 := ⟨by decide, .inl rfl⟩
  have hrest {cs : List Char} {ds : List Nat} (h : DigitRun 16 cs ds) :
      DigitRun 16 ('_' :: '0' :: '0' :: '0' :: '0' :: cs) (0 :: 0 :: 0 :: 0 :: ds) :=
    .separated hzero (.digit hzero (.digit hzero (.digit hzero h)))
  have hrun : DigitRun 16 "8000_0000_0000_0000".toList (8 :: List.replicate 15 0) :=
    .digit height (.digit hzero (.digit hzero (.digit hzero (hrest (hrest (hrest .nil))))))
  have hvalue : positional 16 (8 :: List.replicate 15 0) = 2 ^ 63 := rfl
  have hmark : MarksBase 'x' 16 := by simp [MarksBase]
  rw [← hvalue]
  exact .based hmark hrun (by simp)

/-- The literal fits with a minus, is too large without a sign, and is no number
constant with a plus. -/
theorem check_integerLiteral_edge :
    Integer.Literal "0x8000_0000_0000_0000".toList (2 ^ 63) ∧
    (∃ set tree number,
      TemplateSet.parse .standard "edge" (delimited "-0x8000_0000_0000_0000") = .ok set ∧
        set.get? "edge" = some tree ∧ tree.root.IsConstant number ∧
          number.isInt = true ∧ number.int = -2 ^ 63 ∧
            ∀ (env : Environment) (data : Ty),
              env.check tree data = .ok (some (.basic .untypedInt))) ∧
    (∃ set tree,
      TemplateSet.parse .standard "edge" (delimited "0x8000_0000_0000_0000") = .ok set ∧
        set.get? "edge" = some tree ∧
          ∀ (env : Environment) (data : Ty), ∃ error, env.check tree data = .error error ∧
            error.cause = .overflow "0x8000_0000_0000_0000") ∧
    ∃ fault, TemplateSet.parse .standard "edge" (delimited "+0x8000_0000_0000_0000") =
      .error (.fault fault) := by
  refine ⟨Integer.literal_edge, ?_, ?_, ?_⟩
  · have htext : "-0x8000_0000_0000_0000".toList =
        Integer.Sign.minus.chars ++ "0x8000_0000_0000_0000".toList := rfl
    obtain ⟨set, tree, number, hparse, hget, hroot, -, hint, hvalue, hcheck⟩ :=
      (check_integerLiteral Integer.literal_edge .minus htext "edge").1 (by decide)
    exact ⟨set, tree, number, hparse, hget, hroot, hint, hvalue, hcheck⟩
  · obtain ⟨set, tree, number, hparse, hget, -, hcheck⟩ :=
      (check_integerLiteral Integer.literal_edge .absent rfl "edge").2.1 (by decide)
    exact ⟨set, tree, hparse, hget, hcheck⟩
  · have htext : "+0x8000_0000_0000_0000".toList =
        Integer.Sign.plus.chars ++ "0x8000_0000_0000_0000".toList := rfl
    exact (check_integerLiteral Integer.literal_edge .plus htext "edge").2.2
      (by decide) (by decide)

end TemplateTyping
