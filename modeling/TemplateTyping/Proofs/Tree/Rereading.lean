import TemplateTyping.Proofs.Tree.Delivery
import TemplateTyping.Proofs.Tree.Unplaced

/-!
# Pipelines are read again

The pieces of a readable pipeline deliver the pipeline again, up to places, as long
as the reader is deep enough for the number of pieces.
-/

namespace TemplateTyping.TokenReader

open Lexer

/-! ## How pieces start -/

/-- An operand starts with a token that can start one; only names after dots follow
a variable. -/
theorem exists_operandPieces {node : Node} (h : node.IsOperand) :
    ∃ piece pieces, node.operandPieces = piece :: pieces ∧
      startsOperand piece.1 = true ∧
        ∀ name, piece.1 = .variable name →
          ∃ path : List String, pieces = path.map fieldPiece := by
  cases node with
  | dot span => exact ⟨_, _, rfl, rfl, by simp⟩
  | nil span => exact ⟨_, _, rfl, rfl, by simp [Keyword.piece]⟩
  | bool span value => exact ⟨_, _, rfl, rfl, by simp⟩
  | identifier span name => exact ⟨_, _, rfl, rfl, by simp⟩
  | «variable» v =>
      obtain ⟨name, path, hpath, _⟩ := h
      refine ⟨(.variable name, name), path.map fieldPiece, ?_, rfl, ?_⟩
      · simp [Node.operandPieces, Variable.pieces, hpath]
      · exact fun _ _ => ⟨path, rfl⟩
  | field span path =>
      cases path with
      | nil => exact absurd rfl h.1
      | cons name path => exact ⟨_, _, rfl, rfl, by simp [fieldPiece]⟩
  | number span number =>
      refine ⟨_, _, rfl, ?_⟩
      unfold numberKind
      split <;> exact ⟨rfl, by simp⟩
  | string span quoted value =>
      refine ⟨_, _, rfl, ?_⟩
      unfold stringKind
      split <;> exact ⟨rfl, by simp⟩
  | pipe p => exact ⟨_, _, rfl, rfl, by simp⟩
  | chain span receiver path =>
      cases receiver with
      | identifier span name => exact ⟨_, _, rfl, rfl, by simp⟩
      | pipe p => exact ⟨_, _, rfl, rfl, by simp⟩
      | _ => exact absurd h.1 (by simp [Node.isReceiver])
  | _ => exact h.elim

/-- Whether a token of this kind after a variable shows that it is not declared. -/
def endsVariable : TokenKind → Bool
  | .space | .assign | .declare | .comma => false
  | _ => true

theorem endsVariable_of_startsOperand {kind : TokenKind} (h : startsOperand kind = true) :
    endsVariable kind = true := by
  cases kind with
  | space => exact h
  | assign => exact h
  | declare => exact h
  | comma => exact h
  | _ => rfl

/-- Pieces after a variable that is not declared. -/
def Undeclares (pieces : List Piece) : Prop :=
  ∃ gap piece rest, IsGap gap ∧ pieces = gap ++ piece :: rest ∧
    endsVariable piece.1 = true

/-- Pieces that start with an operand and declare nothing. -/
def StartsValue (pieces : List Piece) : Prop :=
  ∃ piece rest, pieces = piece :: rest ∧ startsOperand piece.1 = true ∧
    ∀ name, piece.1 = .variable name → Undeclares rest

/-- The piece that closes a pipeline. -/
def IsCloser (piece : Piece) : Prop := piece.1 = .rightDelim ∨ piece.1 = .rightParen

theorem IsCloser.ne_eof {piece : Piece} (h : IsCloser piece) : piece.1 ≠ .eof := by
  rcases h with h | h <;> simp [h]

theorem IsCloser.startsOperand_eq {piece : Piece} (h : IsCloser piece) :
    startsOperand piece.1 = false := by
  rcases h with h | h <;> rw [h] <;> rfl

theorem IsCloser.ne_space {piece : Piece} (h : IsCloser piece) : piece.1 ≠ .space := by
  rcases h with h | h <;> simp [h]

theorem undeclares_fields {tail : List Piece} (h : Undeclares tail) (path : List String) :
    Undeclares (path.map fieldPiece ++ tail) := by
  cases path with
  | nil => exact h
  | cons name path => exact ⟨[], _, _, .inl rfl, rfl, rfl⟩

theorem undeclares_operands
    {operands : List Node} (h : AreOperands operands) {tail : List Piece}
    (htail : Undeclares tail) :
    Undeclares ((if operands.isEmpty then [] else [spacePiece]) ++
      operandsPieces operands ++ tail) := by
  cases operands with
  | nil => exact htail
  | cons operand operands =>
      obtain ⟨piece, pieces, hpieces, hstarts, _⟩ := exists_operandPieces h.1
      have hends := endsVariable_of_startsOperand hstarts
      simp only [operandsPieces, hpieces, List.cons_append, List.append_assoc]
      exact ⟨[spacePiece], piece, _, .inr rfl, rfl, hends⟩

theorem undeclares_commands
    (commands : List (Command Node)) {closer : Piece} (hcloser : IsCloser closer)
    (later : List Piece) :
    Undeclares ((if commands.isEmpty then [] else [spacePiece, (.pipe, "|"), spacePiece]) ++
      commandsPieces commands ++ closer :: later) := by
  cases commands with
  | nil =>
      refine ⟨[], closer, later, .inl rfl, rfl, ?_⟩
      rcases hcloser with h | h <;> rw [h] <;> rfl
  | cons command commands => exact ⟨[spacePiece], _, _, .inr rfl, rfl, rfl⟩

theorem startsValue_operand
    {operand : Node} (h : operand.IsOperand) {tail : List Piece}
    (htail : Undeclares tail) : StartsValue (operand.operandPieces ++ tail) := by
  obtain ⟨piece, pieces, hpieces, hstarts, hvariable⟩ := exists_operandPieces h
  refine ⟨piece, pieces ++ tail, by rw [hpieces]; rfl, hstarts, ?_⟩
  intro name hname
  obtain ⟨path, rfl⟩ := hvariable name hname
  exact undeclares_fields htail path

theorem startsValue_commands
    {commands : List (Command Node)} (h : AreReadable commands) (hne : commands ≠ [])
    {closer : Piece} (hcloser : IsCloser closer) (later : List Piece) :
    StartsValue (commandsPieces commands ++ closer :: later) := by
  cases commands with
  | nil => exact absurd rfl hne
  | cons command commands =>
      obtain ⟨span, operands⟩ := command
      obtain ⟨⟨hoperands, hareOperands⟩, _⟩ := h
      cases operands with
      | nil => exact absurd rfl hoperands
      | cons operand operands =>
          have htail := undeclares_operands hareOperands.2
            (undeclares_commands commands hcloser later)
          simpa [commandsPieces, Command.pieces, operandsPieces] using
            startsValue_operand hareOperands.1 htail

/-! ## Declarations -/

/-- Where a value starts nothing is declared, even if a variable comes first. -/
theorem declarations_delivers_nil {pieces : List Piece} (h : StartsValue pieces)
    (clause : Clause) :
    Delivers (declarations clause) pieces pieces fun result => result = (false, []) := by
  obtain ⟨piece, rest, rfl, hstarts, hvariable⟩ := h
  refine Delivers.get.bind fun start hstart => ?_
  have hspace : piece.1 ≠ .space := TokenKind.ne_of_class hstarts rfl
  refine (Delivers.peekNonSpace (.inl rfl) hspace).bind ?_
  rintro _ ⟨span, rfl⟩
  split
  · rename_i name hkind
    obtain ⟨gap, ⟨kind, text⟩, rest', hgap, rfl, hends⟩ := hvariable name hkind
    refine (Delivers.next (by simp)).bind ?_
    rintro _ ⟨span', rfl⟩
    have hspace' : kind ≠ .space := by
      rintro rfl
      cases hends
    refine (Delivers.peekNonSpace hgap hspace').bind ?_
    rintro _ ⟨span'', rfl⟩
    -- Without a sign after the variable the reader goes back to where it started.
    cases kind with
    | assign => cases hends
    | declare => cases hends
    | comma => cases hends
    | _ => exact (Delivers.set hstart).bind fun _ _ => .pure rfl
  · exact .pure rfl

theorem secondDeclaration_delivers
    (clause : Clause) (first : Variable) (isAssign : Bool) (name : String)
    {later : List Piece} (hlater : later ≠ []) :
    Delivers (secondDeclaration clause first name)
      ((.variable name, name) :: spacePiece :: signPiece isAssign :: later) later
      fun result => ∃ span, result = (isAssign, [first, ⟨span, [name]⟩]) := by
  refine (Delivers.next (by simp)).bind ?_
  rintro _ ⟨span, rfl⟩
  have hspace : (signPiece isAssign).1 ≠ .space := by
    cases isAssign <;> simp [signPiece]
  refine (Delivers.peekNonSpace (.inr rfl) hspace).bind ?_
  rintro _ ⟨span', rfl⟩
  cases isAssign with
  | true => exact (Delivers.next hlater).bind fun _ _ => .pure ⟨span, rfl⟩
  | false => exact (Delivers.next hlater).bind fun _ _ => .pure ⟨span, rfl⟩

theorem declarations_delivers_one
    (clause : Clause) (isAssign : Bool) (name : String) {later : List Piece}
    (hlater : later ≠ []) :
    Delivers (declarations clause)
      ((.variable name, name) :: spacePiece :: signPiece isAssign :: later) later
      fun result => ∃ span, result = (isAssign, [⟨span, [name]⟩]) := by
  refine Delivers.get.bind fun start _ => ?_
  refine (Delivers.peekNonSpace (.inl rfl) (by simp)).bind ?_
  rintro _ ⟨_, rfl⟩
  refine (Delivers.next (by simp)).bind ?_
  rintro _ ⟨span, rfl⟩
  have hspace : (signPiece isAssign).1 ≠ .space := by
    cases isAssign <;> simp [signPiece]
  refine (Delivers.peekNonSpace (.inr rfl) hspace).bind ?_
  rintro _ ⟨span', rfl⟩
  cases isAssign with
  | true => exact (Delivers.next hlater).bind fun _ _ => .pure ⟨span, rfl⟩
  | false => exact (Delivers.next hlater).bind fun _ _ => .pure ⟨span, rfl⟩

theorem declarations_delivers_two
    (isAssign : Bool) (name name' : String) {later : List Piece} (hlater : later ≠ []) :
    Delivers (declarations (.branch .rangeKeyword))
      ((.variable name, name) :: (.comma, ",") :: spacePiece ::
        (.variable name', name') :: spacePiece :: signPiece isAssign :: later) later
      fun result => ∃ span span',
        result = (isAssign, [⟨span, [name]⟩, ⟨span', [name']⟩]) := by
  refine Delivers.get.bind fun start _ => ?_
  refine (Delivers.peekNonSpace (.inl rfl) (by simp)).bind ?_
  rintro _ ⟨_, rfl⟩
  refine (Delivers.next (by simp)).bind ?_
  rintro _ ⟨span, rfl⟩
  refine (Delivers.peekNonSpace (.inl rfl) (by simp)).bind ?_
  rintro _ ⟨_, rfl⟩
  refine (Delivers.next (by simp)).bind ?_
  rintro _ ⟨_, rfl⟩
  refine (Delivers.peekNonSpace (.inr rfl) (by simp)).bind ?_
  rintro _ ⟨_, rfl⟩
  refine (secondDeclaration_delivers _ _ isAssign name' hlater).mono ?_
  rintro _ ⟨span', rfl⟩
  exact ⟨span, span', rfl⟩

/-- The space after the sign that sets variables. -/
def declaredGap (declared : List Variable) : List Piece :=
  if declared.isEmpty then [] else [spacePiece]

theorem limit_le_two (clause : Clause) :
    clause.limit ≤ 2 ∧ (clause.limit = 2 → clause = .branch .rangeKeyword) := by
  cases clause with
  | branch keyword => cases keyword <;> simp [Clause.limit, BranchKeyword.limit]
  | _ => simp [Clause.limit]

theorem declarations_delivers
    {clause : Clause} {isAssign : Bool} {declared : List Variable}
    (hdeclared : AreDeclared clause.limit isAssign declared) {pieces : List Piece}
    (h : StartsValue pieces) :
    Delivers (declarations clause) (declaredPieces isAssign declared ++ pieces)
      (declaredGap declared ++ pieces) fun result =>
        result.1 = isAssign ∧
          result.2.map Variable.unplaced = declared.map Variable.unplaced := by
  obtain ⟨hlimit, hrange⟩ := limit_le_two clause
  have hlength := hdeclared.length_le
  match declared with
  | [] =>
      refine (declarations_delivers_nil h clause).mono ?_
      rintro _ rfl
      exact ⟨(hdeclared.isAssign_of_nil rfl).symm, rfl⟩
  | [v] =>
      obtain ⟨name, hpath, _⟩ := hdeclared.single v (by simp)
      have hpieces : declaredPieces isAssign [v] ++ pieces = (.variable name, name) ::
          spacePiece :: signPiece isAssign :: spacePiece :: pieces := by
        simp [declaredPieces, Variable.pieces, hpath]
      rw [hpieces]
      refine (declarations_delivers_one clause isAssign name (by simp)).mono ?_
      rintro _ ⟨span, rfl⟩
      exact ⟨rfl, by simp [Variable.unplaced, hpath]⟩
  | [v, v'] =>
      obtain ⟨name, hpath, _⟩ := hdeclared.single v (by simp)
      obtain ⟨name', hpath', _⟩ := hdeclared.single v' (by simp)
      have hpieces : declaredPieces isAssign [v, v'] ++ pieces = (.variable name, name) ::
          (.comma, ",") :: spacePiece :: (.variable name', name') ::
            spacePiece :: signPiece isAssign :: spacePiece :: pieces := by
        simp [declaredPieces, Variable.pieces, hpath, hpath']
      rw [hpieces, hrange (Nat.le_antisymm hlimit hlength)]
      refine (declarations_delivers_two isAssign name name' (by simp)).mono ?_
      rintro _ ⟨span, span', rfl⟩
      exact ⟨rfl, by simp [Variable.unplaced, hpath, hpath']⟩
  | _ :: _ :: _ :: _ =>
      simp only [List.length_cons] at hlength
      omega

/-! ## Names after dots -/

/-- A term with names after dots, without its places. -/
def withPath (term : Node) (path : List String) : Node :=
  match term with
  | .field _ names => .field .origin (names ++ path)
  | .variable v => .variable ⟨.origin, v.path ++ path⟩
  | term => if path.isEmpty then term.unplaced else .chain .origin term.unplaced path

theorem withPath_nil (term : Node) : withPath term [] = term.unplaced := by
  cases term <;> simp [withPath, Node.unplaced, Variable.unplaced]

theorem followingFields_eq (term : Node) :
    followingFields term = (do
      let (fields, c) := (← get).pass isField
      if fields.isEmpty then return term
      set c
      withFields term fields) := rfl

/-- Names after dots make a chain of a term that is read for a receiver. -/
theorem isTerm_of_receiver
    {receiver term : Node} (hreceiver : receiver.isReceiver = true)
    (hterm : term.unplaced = receiver.unplaced) {path : List String} (hne : path ≠ []) :
    (path ≠ [] → isConstant term = false) ∧
      withPath term path = .chain .origin receiver.unplaced path := by
  have hconstant : isConstant term = isConstant receiver := by
    rw [← isConstant_unplaced, hterm, isConstant_unplaced]
  cases receiver with
  | identifier span name =>
      cases term with
      | identifier span' name' => simp [withPath, hne, hterm, isConstant]
      | _ => cases hterm
  | pipe p =>
      cases term with
      | pipe p' => simp [withPath, hne, hterm, isConstant]
      | _ => cases hterm
  | _ => cases hreceiver

/-- Pieces of which the first is no name after a dot. -/
def EndsFields (pieces : List Piece) : Prop :=
  ∃ piece rest, pieces = piece :: rest ∧ isField piece.1 = false

theorem EndsFields.ne_nil {pieces : List Piece} (h : EndsFields pieces) : pieces ≠ [] := by
  obtain ⟨piece, rest, rfl, _⟩ := h
  simp

theorem filterMap_fieldName?
    {fields : List Token} {path : List String}
    (h : fields.map Token.piece = path.map fieldPiece) :
    fields.filterMap fieldName? = path := by
  induction path generalizing fields with
  | nil =>
      cases fields with
      | nil => rfl
      | cons token fields => cases h
  | cons name path ih =>
      cases fields with
      | nil => cases h
      | cons token fields =>
          obtain ⟨htoken, hfields⟩ := List.cons.inj h
          have hkind : token.kind = .field name := congrArg Prod.fst htoken
          have hname : fieldName? token = some name := by rw [fieldName?, hkind]
          rw [List.filterMap_cons_some hname, ih hfields]

theorem withFields_delivers
    {term : Node} (hterm : isConstant term = false) {fields : List Token}
    {path : List String} (hpath : fields.filterMap fieldName? = path) (hne : path ≠ [])
    {pieces : List Piece} :
    Delivers (withFields term fields) pieces pieces
      fun node => node.unplaced = withPath term path := by
  unfold withFields
  simp only [hpath]
  split
  · exact .pure rfl
  · exact .pure rfl
  · rename_i hfield hvariable
    rw [if_neg (by rw [hterm]; exact Bool.false_ne_true)]
    refine .pure ?_
    simp only [withPath, Node.unplaced, List.isEmpty_iff, hne, if_false]

theorem followingFields_delivers
    {term : Node} {path : List String} (hterm : path ≠ [] → isConstant term = false)
    {later : List Piece} (hlater : EndsFields later) :
    Delivers (followingFields term) (path.map fieldPiece ++ later) later
      fun node => node.unplaced = withPath term path := by
  obtain ⟨piece, rest, rfl, hpiece⟩ := hlater
  have hfront : ∀ other ∈ path.map fieldPiece, isField other.1 = true := by
    intro other hother
    obtain ⟨name, _, rfl⟩ := List.mem_map.mp hother
    rfl
  rw [followingFields_eq]
  refine Delivers.get.bind fun c hc => ?_
  obtain ⟨hfields, hafter⟩ := Cursor.pass_of_append hpiece hfront hc
  have hpath := filterMap_fieldName? hfields
  dsimp only
  split
  · rename_i hempty
    rw [List.isEmpty_iff.mp hempty] at hfields
    have hnil : path = [] := List.map_eq_nil_iff.mp hfields.symm
    subst hnil
    exact .pure (withPath_nil term).symm
  · rename_i hempty
    have hne : path ≠ [] := by
      rintro rfl
      rw [List.map_nil, List.map_eq_nil_iff] at hfields
      exact hempty (List.isEmpty_iff.mpr hfields)
    refine (Delivers.set hafter).bind fun _ _ => ?_
    exact withFields_delivers (hterm hne) hpath hne

/-! ## Terms and commands -/

/-- The result is the node up to places. -/
def IsReread (node : Node) (result : Option Node) : Prop :=
  ∃ node', result = some node' ∧ node'.unplaced = node.unplaced

/-- The result is a term that makes the node up to places, once names after dots are
added to it. -/
def IsTermOf (node : Node) (path : List String) (result : Option Node) : Prop :=
  ∃ term, result = some term ∧ (path ≠ [] → isConstant term = false) ∧
    withPath term path = node.unplaced

theorem operandWithin_delivers
    {fuel : Nat} {node : Node} {path : List String} {pieces later : List Piece}
    (hterm : Delivers (termWithin fuel) pieces (path.map fieldPiece ++ later)
      (IsTermOf node path))
    (hlater : EndsFields later) :
    Delivers (operandWithin (fuel + 1)) pieces later (IsReread node) := by
  refine hterm.bind ?_
  rintro _ ⟨term, rfl, hconstant, hnode⟩
  refine (followingFields_delivers hconstant hlater).bind fun node' hnode' => ?_
  exact .pure ⟨node', rfl, hnode'.trans hnode⟩

/-- A node that is read without reading a pipeline. -/
def isAtom : Node → Bool
  | .chain _ _ _ | .pipe _ => false
  | _ => true

/-- The names after dots that follow the term of an operand. -/
def termPath : Node → List String
  | .field _ path => path.tail
  | .variable v => v.path.tail
  | .chain _ _ path => path
  | _ => []

theorem termWithin_delivers_atom
    {node : Node} (hatom : isAtom node = true) (h : node.IsOperand) (fuel : Nat)
    {later : List Piece} (hlater : later ≠ []) :
    Delivers (termWithin (fuel + 1)) (node.operandPieces ++ later)
      ((termPath node).map fieldPiece ++ later) (IsTermOf node (termPath node)) := by
  cases node with
  | dot span =>
      refine (Delivers.nextNonSpace (.inl rfl) (by simp) hlater).bind ?_
      rintro _ ⟨span', rfl⟩
      exact .pure ⟨_, rfl, by simp [termPath], rfl⟩
  | nil span =>
      refine (Delivers.nextNonSpace (.inl rfl) (by simp [Keyword.piece]) hlater).bind ?_
      rintro _ ⟨span', rfl⟩
      exact .pure ⟨_, rfl, by simp [termPath], rfl⟩
  | bool span value =>
      refine (Delivers.nextNonSpace (.inl rfl) (by simp) hlater).bind ?_
      rintro _ ⟨span', rfl⟩
      exact .pure ⟨_, rfl, by simp [termPath], rfl⟩
  | identifier span name =>
      refine (Delivers.nextNonSpace (.inl rfl) (by simp) hlater).bind ?_
      rintro _ ⟨span', rfl⟩
      exact .pure ⟨_, rfl, by simp [termPath], rfl⟩
  | «variable» v =>
      obtain ⟨name, path, hpath, _⟩ := h
      obtain ⟨span, path'⟩ := v
      cases hpath
      refine (Delivers.nextNonSpace (.inl rfl) (by simp) (by simp [hlater])).bind ?_
      rintro _ ⟨span', rfl⟩
      exact .pure ⟨_, rfl, fun _ => rfl, rfl⟩
  | field span path =>
      obtain ⟨name, path, rfl⟩ := List.exists_cons_of_ne_nil h.1
      refine (Delivers.nextNonSpace (.inl rfl) (by simp [fieldPiece])
        (by simp [hlater])).bind ?_
      rintro _ ⟨span', rfl⟩
      exact .pure ⟨_, rfl, fun _ => rfl, rfl⟩
  | number span number =>
      have hnumber : number.IsLiteral := h
      rw [Node.operandPieces]
      rcases hnumber.kind.2 with ⟨hkind, hvalue⟩ | ⟨hkind, hvalue⟩
      · rw [hkind]
        refine (Delivers.nextNonSpace (.inl rfl) (by simp) hlater).bind ?_
        rintro _ ⟨span', rfl⟩
        refine (Delivers.literal hvalue).bind ?_
        rintro _ rfl
        exact .pure ⟨_, rfl, by simp [termPath], rfl⟩
      · rw [hkind]
        refine (Delivers.nextNonSpace (.inl rfl) (by simp) hlater).bind ?_
        rintro _ ⟨span', rfl⟩
        refine (Delivers.literal hvalue).bind ?_
        rintro _ rfl
        exact .pure ⟨_, rfl, by simp [termPath], rfl⟩
  | string span quoted value =>
      have hliteral : IsStringLiteral quoted value := h
      rw [Node.operandPieces]
      rcases hliteral.kind.2 with hkind | hkind
      · rw [hkind]
        refine (Delivers.nextNonSpace (.inl rfl) (by simp) hlater).bind ?_
        rintro _ ⟨span', rfl⟩
        refine (Delivers.literal hliteral.2).bind ?_
        rintro _ rfl
        exact .pure ⟨_, rfl, by simp [termPath], rfl⟩
      · rw [hkind]
        refine (Delivers.nextNonSpace (.inl rfl) (by simp) hlater).bind ?_
        rintro _ ⟨span', rfl⟩
        refine (Delivers.literal hliteral.2).bind ?_
        rintro _ rfl
        exact .pure ⟨_, rfl, by simp [termPath], rfl⟩
  | chain span receiver path => cases hatom
  | pipe p => cases hatom
  | _ => exact h.elim

/-- A bar is no term. -/
theorem termWithin_delivers_none (fuel : Nat) {later : List Piece} (hlater : later ≠ []) :
    Delivers (termWithin (fuel + 1)) ((.pipe, "|") :: later) ((.pipe, "|") :: later)
      fun result => result = none := by
  refine (Delivers.nextNonSpace (.inl rfl) (by simp) hlater).bind ?_
  rintro _ ⟨span, rfl⟩
  have hbar : TokenKind.pipe ≠ .eof := by simp
  exact (Delivers.putBack hbar span "|").bind fun _ _ => .pure rfl

/-- What may follow the operands of a command, and what is left of it once they are
read: the piece that closes the pipeline, or what comes after a bar. -/
inductive FollowsCommand : List Piece → List Piece → Prop
  | closer {closer : Piece} {later : List Piece} (h : IsCloser closer)
      (hlater : later ≠ []) : FollowsCommand (closer :: later) (closer :: later)
  | bar {later : List Piece} (h : later ≠ []) :
      FollowsCommand (spacePiece :: (.pipe, "|") :: later) later

theorem FollowsCommand.endsFields {tail later : List Piece} (h : FollowsCommand tail later) :
    EndsFields tail := by
  cases h with
  | @closer closer later hcloser _ =>
      refine ⟨closer, later, rfl, ?_⟩
      rcases hcloser with hkind | hkind <;> rw [hkind] <;> rfl
  | bar hlater => exact ⟨_, _, rfl, rfl⟩

/-- No operand stands between a space and a bar. -/
theorem operandsWithin_delivers_nil (fuel : Nat) {later : List Piece} (hlater : later ≠ []) :
    Delivers (operandsWithin (fuel + 3)) ((.pipe, "|") :: later) later
      fun result => result = [] := by
  -- No term starts with a bar, so it is put back and then taken as what it is.
  have hnone : Delivers (operandWithin (fuel + 2)) ((.pipe, "|") :: later)
      ((.pipe, "|") :: later) fun result => result = none := by
    refine (termWithin_delivers_none fuel hlater).bind ?_
    rintro _ rfl
    exact .pure rfl
  refine hnone.bind ?_
  rintro _ rfl
  refine (Delivers.next hlater).bind ?_
  rintro _ ⟨span, rfl⟩
  exact .pure rfl

/-- The last operand of a command. -/
theorem operandsWithin_delivers_one
    {fuel : Nat} {node : Node} {pieces tail later : List Piece}
    (hoperand : Delivers (operandWithin (fuel + 3)) pieces tail (IsReread node))
    (htail : FollowsCommand tail later) :
    Delivers (operandsWithin (fuel + 4)) pieces later
      fun result => unplacedNodes result = [node.unplaced] := by
  refine hoperand.bind ?_
  rintro _ ⟨node', rfl, hnode⟩
  have hresult : unplacedNodes [node'] = [node.unplaced] :=
    congrArg (fun node => [node]) hnode
  cases htail with
  | @closer closer later hcloser hlater =>
      refine (Delivers.next hlater).bind ?_
      rintro _ ⟨span, rfl⟩
      have heof := hcloser.ne_eof
      obtain ⟨kind, text⟩ := closer
      rcases hcloser with hkind | hkind
      · cases hkind
        exact (Delivers.putBack heof span text).bind fun _ _ => .pure hresult
      · cases hkind
        exact (Delivers.putBack heof span text).bind fun _ _ => .pure hresult
  | bar hbar =>
      refine (Delivers.next (by simp)).bind ?_
      rintro _ ⟨span, rfl⟩
      refine (operandsWithin_delivers_nil fuel hbar).bind ?_
      rintro _ rfl
      exact .pure hresult

/-- An operand before further ones. -/
theorem operandsWithin_delivers_cons
    {fuel : Nat} {node : Node} {operands : List Node} {pieces tail later : List Piece}
    (hoperand : Delivers (operandWithin fuel) pieces (spacePiece :: tail) (IsReread node))
    (htail : tail ≠ [])
    (hoperands : Delivers (operandsWithin fuel) tail later
      fun result => unplacedNodes result = unplacedNodes operands) :
    Delivers (operandsWithin (fuel + 1)) pieces later
      fun result => unplacedNodes result = unplacedNodes (node :: operands) := by
  refine hoperand.bind ?_
  rintro _ ⟨node', rfl, hnode⟩
  refine (Delivers.next htail).bind ?_
  rintro _ ⟨span, rfl⟩
  refine hoperands.bind fun operands' hoperands' => ?_
  exact .pure (by simp [unplacedNodes, hnode, hoperands'])

theorem commandOf_delivers
    {operands : List Node} (hne : operands ≠ []) {pieces : List Piece} :
    Delivers (commandOf operands) pieces pieces
      fun command => command.operands = operands := by
  obtain ⟨first, rest, rfl⟩ := List.exists_cons_of_ne_nil hne
  unfold commandOf
  rw [List.head?_cons, List.getLast?_cons]
  exact .pure rfl

theorem checkedPipe_delivers
    {clause : Clause} {pipe : Pipe Node} {commands : List (Command Node)}
    (hcommands : unplacedCommands pipe.commands = unplacedCommands commands)
    (hne : commands ≠ []) (hcallable : notExecutable? 2 commands.tail = none)
    {pieces : List Piece} :
    Delivers (checkedPipe clause pipe) pieces pieces fun result => result = pipe := by
  obtain ⟨span, isAssign, declared, commands'⟩ := pipe
  have hcommands' : unplacedCommands commands' = unplacedCommands commands := hcommands
  have hcallable' : (notExecutable? 2 commands'.tail).isNone = true := by
    rw [← isNone_notExecutable?_unplaced, unplacedCommands_tail, hcommands',
      ← unplacedCommands_tail, isNone_notExecutable?_unplaced, hcallable]
    rfl
  cases commands' with
  | nil =>
      exact absurd (unplacedCommands_eq_nil.mp hcommands'.symm) hne
  | cons command commands' =>
      rw [List.tail_cons, Option.isNone_iff_eq_none] at hcallable'
      simp only [checkedPipe, hcallable']
      exact .pure rfl

theorem operandPieces_length_pos {node : Node} (h : node.IsOperand) :
    0 < node.operandPieces.length := by
  obtain ⟨piece, pieces, hpieces, _⟩ := exists_operandPieces h
  simp [hpieces]

theorem exists_operandsPieces
    {operands : List Node} (h : AreOperands operands) (hne : operands ≠ []) :
    ∃ piece pieces, operandsPieces operands = piece :: pieces ∧
      startsOperand piece.1 = true := by
  obtain ⟨operand, operands, rfl⟩ := List.exists_cons_of_ne_nil hne
  obtain ⟨piece, pieces, hpieces, hstarts, _⟩ := exists_operandPieces h.1
  simp only [operandsPieces, hpieces, List.cons_append]
  exact ⟨piece, _, rfl, hstarts⟩

theorem exists_commandsPieces
    {commands : List (Command Node)} (h : AreReadable commands) (hne : commands ≠ []) :
    ∃ piece pieces, commandsPieces commands = piece :: pieces ∧
      startsOperand piece.1 = true := by
  obtain ⟨⟨span, operands⟩, commands, rfl⟩ := List.exists_cons_of_ne_nil hne
  obtain ⟨piece, pieces, hpieces, hstarts⟩ := exists_operandsPieces h.1.2 h.1.1
  simp only [commandsPieces, Command.pieces, hpieces, List.cons_append]
  exact ⟨piece, _, rfl, hstarts⟩

/-- The pieces of a pipeline start with one that can start an operand. -/
theorem exists_pipePieces
    {pipe : Pipe Node} {limit : Nat} (h : pipe.IsReadable limit) :
    ∃ piece pieces, pipe.pieces = piece :: pieces ∧ startsOperand piece.1 = true := by
  obtain ⟨span, isAssign, declared, commands⟩ := pipe
  obtain ⟨hdeclared, hne, _, hcommands⟩ := h
  cases declared with
  | nil => exact exists_commandsPieces hcommands hne
  | cons v declared =>
      obtain ⟨name, hpath, _⟩ := hdeclared.single v (by simp)
      cases declared with
      | nil =>
          simp only [Pipe.pieces, declaredPieces, Variable.pieces, hpath, List.cons_append]
          exact ⟨(.variable name, name), _, rfl, rfl⟩
      | cons v' declared =>
          simp only [Pipe.pieces, declaredPieces, Variable.pieces, hpath, List.cons_append]
          exact ⟨(.variable name, name), _, rfl, rfl⟩

/-- A pipeline in parentheses. -/
theorem termWithin_delivers_paren
    {fuel : Nat} {p : Pipe Node} {later : List Piece}
    (hpipe : Delivers (pipelineWithin fuel .parenthesized .rightParen)
      (p.pieces ++ (.rightParen, ")") :: later) later
      fun p' => p'.unplaced = p.unplaced) :
    Delivers (termWithin (fuel + 1))
      ((.leftParen, "(") :: (p.pieces ++ (.rightParen, ")") :: later)) later
      (IsReread (.pipe p)) := by
  refine (Delivers.nextNonSpace (.inl rfl) (by simp) (by simp)).bind ?_
  rintro _ ⟨span, rfl⟩
  refine hpipe.bind fun p' hp' => ?_
  refine Delivers.lastEnd.bind fun stop _ => ?_
  obtain ⟨span', isAssign, declared, commands⟩ := p'
  exact .pure ⟨_, rfl, congrArg Node.pipe hp'⟩

/-- The first of the commands, and those after it. -/
theorem commandsWithin_delivers
    {fuel : Nat} {clause : Clause} {closer : Piece} (hcloser : IsCloser closer)
    {gap tail middle later : List Piece} (hgap : IsGap gap) (htail : tail ≠ [])
    {operands : List Node} (hne : operands ≠ []) (h : AreOperands operands)
    (hoperands : Delivers (operandsWithin fuel) (operandsPieces operands ++ tail) middle
      fun result => unplacedNodes result = unplacedNodes operands)
    {commands : List (Command Node)}
    (hcommands : Delivers (commandsWithin fuel clause closer.1) middle later
      fun result => unplacedCommands result = unplacedCommands commands) (span : Span) :
    Delivers (commandsWithin (fuel + 1) clause closer.1)
      (gap ++ (operandsPieces operands ++ tail)) later
      fun result => unplacedCommands result =
        unplacedCommands (⟨span, operands⟩ :: commands) := by
  obtain ⟨piece, pieces, hpieces, hstarts⟩ := exists_operandsPieces h hne
  rw [hpieces] at hoperands ⊢
  have hspace : piece.1 ≠ .space := TokenKind.ne_of_class hstarts rfl
  have heof : piece.1 ≠ .eof := TokenKind.ne_of_class hstarts rfl
  have hkind : piece.1 ≠ closer.1 := TokenKind.ne_of_class hstarts hcloser.startsOperand_eq
  refine (Delivers.nextNonSpace hgap hspace (by simp [htail])).bind ?_
  rintro _ ⟨span', rfl⟩
  rw [if_neg hkind, if_pos hstarts]
  refine (Delivers.putBack heof span' piece.2).bind fun _ _ => ?_
  refine hoperands.bind fun operands' hoperands' => ?_
  have hne' : operands' ≠ [] := by
    intro hnil
    rw [hnil] at hoperands'
    exact hne (unplacedNodes_eq_nil.mp hoperands'.symm)
  refine (commandOf_delivers hne').bind fun command hcommand => ?_
  refine hcommands.bind fun commands' hcommands' => ?_
  obtain ⟨span'', operands''⟩ := command
  cases hcommand
  exact .pure (by simp [unplacedCommands, Command.unplaced, hoperands', hcommands'])

mutual

/-- The pieces of an operand are read as its term.  Here and below each piece pays for
eight nested calls, of which the readers on the way down have used up some. -/
theorem term_delivers
    {node : Node} (h : node.IsOperand) {fuel : Nat}
    (hfuel : 8 * node.operandPieces.length ≤ fuel + 4) {later : List Piece}
    (hlater : later ≠ []) :
    Delivers (termWithin fuel) (node.operandPieces ++ later)
      ((termPath node).map fieldPiece ++ later) (IsTermOf node (termPath node)) := by
  have hpos := operandPieces_length_pos h
  obtain ⟨fuel, rfl⟩ : ∃ depth, fuel = depth + 1 := ⟨fuel - 1, by omega⟩
  cases hatom : isAtom node with
  | true => exact termWithin_delivers_atom hatom h fuel hlater
  | false =>
      cases node with
      | pipe p =>
          simp only [Node.operandPieces, List.length_cons, List.length_append,
            List.length_nil] at hfuel
          have hdepth : 8 * p.pieces.length ≤ fuel := by omega
          rw [Node.operandPieces, List.cons_append, List.append_assoc]
          refine (termWithin_delivers_paren (pipe_delivers .parenthesized h
            (.rightParen, ")") (.inr rfl) (.inl rfl) hdepth hlater)).mono ?_
          rintro _ ⟨node', rfl, hnode'⟩
          exact ⟨node', rfl, by simp [termPath], (withPath_nil node').trans hnode'⟩
      | chain span receiver path =>
          obtain ⟨hreceiver, hoperand, hne, _⟩ := h
          simp only [Node.operandPieces, List.length_append] at hfuel
          rw [Node.operandPieces, List.append_assoc]
          refine (receiver_delivers hreceiver hoperand (by omega)
            (by simp [hlater])).mono ?_
          rintro _ ⟨term, rfl, hterm⟩
          exact ⟨term, rfl, isTerm_of_receiver hreceiver hterm hne⟩
      | _ => cases hatom
termination_by structural node

theorem receiver_delivers
    {node : Node} (hreceiver : node.isReceiver = true) (h : node.IsOperand) {fuel : Nat}
    (hfuel : 8 * node.operandPieces.length ≤ fuel + 5) {later : List Piece}
    (hlater : later ≠ []) :
    Delivers (termWithin (fuel + 1)) (node.operandPieces ++ later) later
      (IsReread node) := by
  cases node with
  | identifier span name =>
      refine (Delivers.nextNonSpace (.inl rfl) (by simp) hlater).bind ?_
      rintro _ ⟨span', rfl⟩
      exact .pure ⟨_, rfl, rfl⟩
  | pipe p =>
      simp only [Node.operandPieces, List.length_cons, List.length_append,
        List.length_nil] at hfuel
      have hdepth : 8 * p.pieces.length ≤ fuel := by omega
      rw [Node.operandPieces, List.cons_append, List.append_assoc]
      exact termWithin_delivers_paren (pipe_delivers .parenthesized h
        (.rightParen, ")") (.inr rfl) (.inl rfl) hdepth hlater)
  | _ => cases hreceiver
termination_by structural node

theorem pipe_delivers
    {pipe : Pipe Node} (clause : Clause) (h : pipe.IsReadable clause.limit)
    (closer : Piece) (hcloser : IsCloser closer) {gap : List Piece} (hgap : IsGap gap)
    {fuel : Nat} (hfuel : 8 * pipe.pieces.length ≤ fuel) {later : List Piece}
    (hlater : later ≠ []) :
    Delivers (pipelineWithin fuel clause closer.1) (gap ++ (pipe.pieces ++ closer :: later))
      later fun result => result.unplaced = pipe.unplaced := by
  obtain ⟨piece, pieces, hpieces, hstarts⟩ := exists_pipePieces h
  have hspace : piece.1 ≠ .space := TokenKind.ne_of_class hstarts rfl
  match pipe with
  | ⟨span, isAssign, declared, commands⟩ =>
      obtain ⟨hdeclared, hne, hcallable, hcommands⟩ := h
      have hlength : 0 < (commandsPieces commands).length := by
        obtain ⟨_, _, hpieces, _⟩ := exists_commandsPieces hcommands hne
        simp [hpieces]
      simp only [Pipe.pieces, List.length_append] at hfuel
      obtain ⟨fuel, rfl⟩ : ∃ depth, fuel = depth + 1 := ⟨fuel - 1, by omega⟩
      have hstart : Delivers peekNonSpace (gap ++ (piece :: pieces ++ closer :: later))
          (piece :: pieces ++ closer :: later) fun _ => True :=
        (Delivers.peekNonSpace hgap hspace).mono fun _ _ => trivial
      rw [← hpieces] at hstart
      refine hstart.bind fun start _ => ?_
      have hdeclarations := declarations_delivers hdeclared
        (startsValue_commands hcommands hne hcloser later)
      rw [Pipe.pieces, List.append_assoc]
      refine hdeclarations.bind ?_
      rintro ⟨isAssign', declared'⟩ ⟨rfl, hdeclared'⟩
      have hgap' : IsGap (declaredGap declared) := by
        cases declared with
        | nil => exact .inl rfl
        | cons v declared => exact .inr rfl
      refine (commands_deliver clause hcommands closer hcloser hgap' (by omega) (by omega)
        hlater).bind fun commands' hcommands' => ?_
      refine (checkedPipe_delivers hcommands' hne hcallable).mono ?_
      rintro _ rfl
      simp only [Pipe.unplaced, hdeclared', hcommands']
termination_by structural pipe

theorem commands_deliver
    {commands : List (Command Node)} (clause : Clause) (h : AreReadable commands)
    (closer : Piece) (hcloser : IsCloser closer) {gap : List Piece} (hgap : IsGap gap)
    {fuel : Nat} (hpos : 0 < fuel) (hfuel : 8 * (commandsPieces commands).length ≤ fuel + 1)
    {later : List Piece} (hlater : later ≠ []) :
    Delivers (commandsWithin fuel clause closer.1)
      (gap ++ (commandsPieces commands ++ closer :: later)) later
      fun result => unplacedCommands result = unplacedCommands commands := by
  obtain ⟨fuel, rfl⟩ : ∃ depth, fuel = depth + 1 := ⟨fuel - 1, by omega⟩
  match commands with
  | [] =>
      refine (Delivers.nextNonSpace hgap hcloser.ne_space hlater).bind ?_
      rintro _ ⟨span, rfl⟩
      rw [if_pos rfl]
      exact .pure rfl
  | ⟨span, operands⟩ :: commands =>
      obtain ⟨⟨hoperandsNe, hoperands⟩, hcommands⟩ := h
      simp only [commandsPieces, Command.pieces, List.length_append] at hfuel
      have hlength : 0 < (operandsPieces operands).length := by
        obtain ⟨_, _, hpieces, _⟩ := exists_operandsPieces hoperands hoperandsNe
        simp [hpieces]
      -- The closer is left for the rest of the commands, a bar is taken.
      have hdepth : 8 * (operandsPieces operands).length ≤ fuel + 2 := by omega
      by_cases hmore : commands = []
      · have hlast := operands_deliver hoperands hoperandsNe hdepth (.closer hcloser hlater)
        have hnone := commands_deliver clause hcommands closer hcloser (.inl rfl)
          (show 0 < fuel by omega) (by simp [hmore, commandsPieces]) hlater
        simp only [hmore, commandsPieces, List.nil_append] at hnone
        simpa [hmore, commandsPieces, Command.pieces] using commandsWithin_delivers hcloser
          hgap (by simp) hoperandsNe hoperands hlast hnone span
      · have hfirst := operands_deliver hoperands hoperandsNe hdepth
          (.bar (show spacePiece :: (commandsPieces commands ++ closer :: later) ≠ [] by simp))
        have hrest := commands_deliver clause hcommands closer hcloser (.inr rfl)
          (show 0 < fuel by omega) (by omega) hlater
        simpa [hmore, commandsPieces, Command.pieces] using commandsWithin_delivers hcloser
          hgap (by simp) hoperandsNe hoperands hfirst hrest span
termination_by structural commands

theorem operands_deliver
    {operands : List Node} (h : AreOperands operands) (hne : operands ≠ []) {fuel : Nat}
    (hfuel : 8 * (operandsPieces operands).length ≤ fuel + 2) {tail later : List Piece}
    (htail : FollowsCommand tail later) :
    Delivers (operandsWithin fuel) (operandsPieces operands ++ tail) later
      fun result => unplacedNodes result = unplacedNodes operands := by
  match operands with
  | [] => exact absurd rfl hne
  | operand :: operands =>
      have hpos := operandPieces_length_pos h.1
      simp only [operandsPieces, List.length_append] at hfuel
      obtain ⟨fuel, rfl⟩ : ∃ depth, fuel = depth + 4 := ⟨fuel - 4, by omega⟩
      have hdepth : 8 * operand.operandPieces.length ≤ fuel + 2 + 4 := by omega
      by_cases hmore : operands = []
      · have hends := htail.endsFields
        have hoperand := operandWithin_delivers (term_delivers h.1 hdepth hends.ne_nil) hends
        simpa [hmore, operandsPieces, unplacedNodes] using
          operandsWithin_delivers_one hoperand htail
      · have hends : EndsFields (spacePiece :: (operandsPieces operands ++ tail)) :=
          ⟨_, _, rfl, rfl⟩
        have hoperand := operandWithin_delivers (term_delivers h.1 hdepth hends.ne_nil) hends
        have hrest := operands_deliver h.2 hmore
          (show 8 * (operandsPieces operands).length ≤ fuel + 3 + 2 by omega) htail
        simpa [hmore, operandsPieces] using
          operandsWithin_delivers_cons hoperand (by simp [htail.endsFields.ne_nil]) hrest
termination_by structural operands

end

/-- The pieces of a readable pipeline are read as the pipeline, up to places. -/
theorem pipeline_delivers
    {pipe : Pipe Node} (clause : Clause) (h : pipe.IsReadable clause.limit)
    {gap : List Piece} (hgap : IsGap gap) {later : List Piece} (hlater : later ≠ []) :
    Delivers (pipeline clause) (gap ++ (pipe.pieces ++ rightPiece :: later)) later
      fun result => result.unplaced = pipe.unplaced := by
  refine Delivers.get.bind fun c hc => ?_
  have hsize := c.length_pieces
  rw [hc] at hsize
  simp only [List.length_append, List.length_cons] at hsize
  have hdepth : 8 * pipe.pieces.length ≤ c.fuel := by
    unfold Cursor.fuel
    omega
  exact pipe_delivers clause h rightPiece (.inl rfl) hgap hdepth hlater

end TemplateTyping.TokenReader
