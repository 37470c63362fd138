import TemplateTyping.Proofs.Text.Quoted
import TemplateTyping.Proofs.Token.Rescan
import TemplateTyping.Proofs.Tree.Readable

/-!
# Pieces of printed nodes

A node is printed as a sequence of pieces, each of which is the text of one token.
The printed form of readable nodes is cut into these pieces again, if no text among
them holds an opening brace, no text follows another, and the names of invoked
templates are printable ASCII text.  All other texts of a readable node are lexemes
already.
-/

namespace TemplateTyping

open Lexer

/-! ## Pieces -/

/-- One space. -/
def spacePiece : Piece := (.space, " ")

/-- A left delimiter without trim marker. -/
def leftPiece : Piece := (.leftDelim, "\x7b\x7b")

/-- A right delimiter without trim marker. -/
def rightPiece : Piece := (.rightDelim, "\x7d\x7d")

/-- A keyword. -/
def Keyword.piece (keyword : Keyword) : Piece := (.keyword keyword, keyword.word)

/-- A name after a dot. -/
def fieldPiece (name : String) : Piece := (.field name, "." ++ name)

/-- The pieces of a variable and the names after its dots. -/
def Variable.pieces (v : Variable) : List Piece :=
  match v.path with
  | [] => []
  | name :: path => (.variable name, name) :: path.map fieldPiece

/-- The sign that sets variables. -/
def signPiece (isAssign : Bool) : Piece :=
  if isAssign then (.assign, "=") else (.declare, ":=")

/-- The pieces of the variables that a pipeline sets, and the sign. -/
def declaredPieces (isAssign : Bool) : List Variable → List Piece
  | [] => []
  | [v] => v.pieces ++ [spacePiece, signPiece isAssign, spacePiece]
  | v :: declared => v.pieces ++ (.comma, ",") :: spacePiece ::
      declaredPieces isAssign declared

/-- The kind of a token with the text of a number. -/
def numberKind (text : String) : TokenKind :=
  if text.toList.head? = some '\'' then .charConstant else .number

/-- The kind of a token with the text of a string literal. -/
def stringKind (text : String) : TokenKind :=
  if text.toList.head? = some '\x60' then .rawString else .string

mutual

/-- The pieces of an operand; a pipeline stands in parentheses. -/
def Node.operandPieces (node : Node) : List Piece :=
  match node with
  | .dot _ => [(.dot, ".")]
  | .nil _ => [Keyword.nilKeyword.piece]
  | .bool _ value => [(.bool value, if value then "true" else "false")]
  | .identifier _ name => [(.identifier name, name)]
  | .variable v => v.pieces
  | .field _ path => path.map fieldPiece
  | .number _ number => [(numberKind number.text, number.text)]
  | .string _ quoted _ => [(stringKind quoted, quoted)]
  | .pipe p => (.leftParen, "(") :: (p.pieces ++ [(.rightParen, ")")])
  | .chain _ receiver path => receiver.operandPieces ++ path.map fieldPiece
  | _ => []
termination_by structural node

/-- The pieces of a pipeline. -/
def Pipe.pieces (pipe : Pipe Node) : List Piece :=
  match pipe with
  | ⟨_, isAssign, declared, commands⟩ =>
      declaredPieces isAssign declared ++ commandsPieces commands
termination_by structural pipe

/-- The pieces of commands, with a bar between two of them. -/
def commandsPieces (commands : List (Command Node)) : List Piece :=
  match commands with
  | [] => []
  | command :: commands => command.pieces ++
      (if commands.isEmpty then [] else [spacePiece, (.pipe, "|"), spacePiece]) ++
        commandsPieces commands
termination_by structural commands

/-- The pieces of a command. -/
def Command.pieces (command : Command Node) : List Piece :=
  match command with
  | ⟨_, operands⟩ => operandsPieces operands
termination_by structural command

/-- The pieces of operands, with a space between two of them. -/
def operandsPieces (operands : List Node) : List Piece :=
  match operands with
  | [] => []
  | operand :: operands => operand.operandPieces ++
      (if operands.isEmpty then [] else [spacePiece]) ++ operandsPieces operands
termination_by structural operands

end

mutual

/-- The pieces of a node in a body. -/
def Node.pieces (node : Node) : List Piece :=
  match node with
  | .text _ text => [(.text text, text)]
  | .comment _ text => [(.comment text, delimited text)]
  | .action _ pipe => leftPiece :: (pipe.pieces ++ [rightPiece])
  | .branch keyword b => b.pieces keyword
  | .template _ name none => [leftPiece, Keyword.template.piece, spacePiece,
      (.string, Quoted.text name), rightPiece]
  | .template _ name (some argument) => leftPiece :: Keyword.template.piece ::
      spacePiece :: (.string, Quoted.text name) :: spacePiece ::
        (argument.pieces ++ [rightPiece])
  | .jump _ keyword => [leftPiece, (Keyword.jump keyword).piece, rightPiece]
  | _ => []
termination_by structural node

/-- The pieces of a branch, from its keyword to its end. -/
def Branch.pieces (branch : Branch Node) (keyword : BranchKeyword) : List Piece :=
  match branch with
  | ⟨_, pipe, body, otherwise⟩ => leftPiece :: (Keyword.branch keyword).piece ::
      spacePiece :: (pipe.pieces ++ rightPiece :: (body.pieces ++
        otherwisePieces otherwise ++ [leftPiece, Keyword.endKeyword.piece, rightPiece]))
termination_by structural branch

/-- The pieces of a body taken otherwise. -/
def otherwisePieces (otherwise : Option (Body Node)) : List Piece :=
  match otherwise with
  | none => []
  | some body => leftPiece :: Keyword.elseKeyword.piece :: rightPiece :: body.pieces
termination_by structural otherwise

/-- The pieces of a body. -/
def Body.pieces (body : Body Node) : List Piece :=
  match body with
  | ⟨_, nodes⟩ => nodesPieces nodes
termination_by structural body

/-- The pieces of nodes one after the other. -/
def nodesPieces (nodes : List Node) : List Piece :=
  match nodes with
  | [] => []
  | node :: nodes => node.pieces ++ nodesPieces nodes
termination_by structural nodes

end

/-! ## Conditions on texts -/

/-- Whether the node is a piece of text. -/
def Node.isText : Node → Bool
  | .text _ _ => true
  | _ => false

mutual

/-- Whether no text at any depth holds an opening brace, no text follows another,
and the names of all invoked templates are printable ASCII text. -/
def Node.isPlain (node : Node) : Bool :=
  match node with
  | .text _ text => text.toList.all (· != '\x7b')
  | .template _ name _ => name.toList.all isPrintableAscii
  | .body b => b.isPlain
  | .branch _ b => b.isPlain
  | _ => true
termination_by structural node

/-- Whether the bodies of a branch are plain. -/
def Branch.isPlain (branch : Branch Node) : Bool :=
  match branch with
  | ⟨_, _, body, otherwise⟩ => body.isPlain && isPlainOtherwise otherwise
termination_by structural branch

/-- Whether a body taken otherwise is plain. -/
def isPlainOtherwise (otherwise : Option (Body Node)) : Bool :=
  match otherwise with
  | none => true
  | some body => body.isPlain
termination_by structural otherwise

/-- Whether all nodes of a body are plain and no text follows another. -/
def Body.isPlain (body : Body Node) : Bool :=
  match body with
  | ⟨_, nodes⟩ => arePlain nodes
termination_by structural body

/-- Whether nodes are plain and no text follows another. -/
def arePlain (nodes : List Node) : Bool :=
  match nodes with
  | [] => true
  | node :: nodes => node.isPlain && !(node.isText && nodes.head?.any Node.isText) &&
      arePlain nodes
termination_by structural nodes

end

/-! ## Spelling -/

/-- Text before which an operand may end. -/
def EndsOperand (rest : List Char) : Prop :=
  ∃ c cs, rest = c :: cs ∧ (c = ' ' ∨ c = ')' ∨ c = '\x7d' ∧ cs.head? = some '\x7d')

theorem EndsOperand.endsWord {rest : List Char} (h : EndsOperand rest) :
    EndsWord rest := by
  obtain ⟨c, cs, rfl, rfl | rfl | ⟨rfl, hbrace⟩⟩ := h
  · exact ⟨' ', cs, rfl, by simp⟩
  · exact ⟨')', cs, rfl, by simp⟩
  · exact ⟨'\x7d', cs, rfl, by simp [hbrace]⟩

theorem EndsOperand.endsNumber {rest : List Char} (h : EndsOperand rest) :
    EndsNumber rest := by
  obtain ⟨c, cs, rfl, hc⟩ := h
  rintro _ ⟨⟩
  exact hc.imp_right (.imp_right And.left)

/-- A text before anything of a kind is cut into given pieces, and starts with one
that can follow a space or a left delimiter. -/
def Spells (ends : List Char → Prop) (text : List Char) (pieces : List Piece) : Prop :=
  ∀ depth rest later, ends rest → LexesAction depth rest later →
    LexesAction depth (text ++ rest) (pieces ++ later) ∧ Opens (text ++ rest)

namespace Spells

variable {ends : List Char → Prop} {text text' : List Char} {pieces pieces' : List Piece}

theorem mono
    {ends' : List Char → Prop} (h : Spells ends text pieces)
    (himp : ∀ rest, ends' rest → ends rest) : Spells ends' text pieces :=
  fun depth rest later hends => h depth rest later (himp rest hends)

theorem lexeme
    {kind : TokenKind} {s : String} (h : Lexeme kind s.toList)
    (hspace : kind ≠ .space) (hleft : kind ≠ .leftParen) (hright : kind ≠ .rightParen)
    (hfits : ∀ rest, ends rest → Fits kind rest) : Spells ends s.toList [(kind, s)] := by
  intro depth rest later hends hrest
  have hlexes := LexesAction.lexeme h (hfits rest hends) (.plain hleft hright) hrest
  rw [String.ofList_toList] at hlexes
  exact ⟨hlexes, h.opens hspace rest⟩

theorem lexes_space
    {depth : Nat} {rest : List Char} (hopens : Opens rest) {later : List Piece}
    (hrest : LexesAction depth rest later) :
    LexesAction depth (' ' :: rest) (spacePiece :: later) := by
  have hblank : Lexeme .space [' '] := .space (by simp) (by simp [isBlank])
  exact LexesAction.lexeme hblank hopens (.plain (by simp) (by simp)) hrest

/-- Two texts with a space between them. -/
theorem space
    (h : Spells EndsOperand text pieces) (h' : Spells ends text' pieces') :
    Spells ends (text ++ ' ' :: text') (pieces ++ spacePiece :: pieces') := by
  intro depth rest later hends hrest
  obtain ⟨hlexes, hopens⟩ := h' depth rest later hends hrest
  have hspace := lexes_space hopens hlexes
  simpa using h depth _ _ ⟨' ', _, rfl, .inl rfl⟩ hspace

/-- Two texts with a comma and a space between them. -/
theorem comma
    (h : Spells EndsWord text pieces) (h' : Spells ends text' pieces') :
    Spells ends (text ++ ',' :: ' ' :: text')
      (pieces ++ (.comma, ",") :: spacePiece :: pieces') := by
  intro depth rest later hends hrest
  obtain ⟨hlexes, hopens⟩ := h' depth rest later hends hrest
  have hcomma : LexesAction depth (',' :: ' ' :: (text' ++ rest))
      ((.comma, ",") :: spacePiece :: (pieces' ++ later)) :=
    LexesAction.lexeme .comma trivial (.plain (by simp) (by simp))
      (lexes_space hopens hlexes)
  simpa using h depth _ _ ⟨',', _, rfl, by simp⟩ hcomma

/-- A text in parentheses. -/
theorem paren (h : Spells EndsOperand text pieces) :
    Spells ends ('(' :: (text ++ [')']))
      ((.leftParen, "(") :: (pieces ++ [(.rightParen, ")")])) := by
  intro depth rest later _ hrest
  have hclose : LexesAction (depth + 1) (')' :: rest) ((.rightParen, ")") :: later) :=
    LexesAction.lexeme .rightParen trivial .closing hrest
  obtain ⟨hlexes, _⟩ := h (depth + 1) _ _ ⟨')', rest, rfl, by simp⟩ hclose
  have hopen : LexesAction depth ('(' :: (text ++ ')' :: rest))
      ((.leftParen, "(") :: (pieces ++ (.rightParen, ")") :: later)) :=
    LexesAction.lexeme .leftParen trivial .opening hlexes
  refine ⟨by simpa using hopen, ?_⟩
  exact opens_cons rfl (by decide) (by decide) (by decide) _

theorem field {name : String} (h : IsFieldName name) :
    Spells EndsWord ('.' :: name.toList) [fieldPiece name] := by
  have htext : ("." ++ name).toList = '.' :: name.toList := by simp
  have hlexeme : Lexeme (.field name) ("." ++ name).toList := by
    rw [htext]
    exact h
  rw [← htext]
  exact lexeme hlexeme (by simp) (by simp) (by simp) fun rest hends => hends

/-- A text with names after dots. -/
theorem path
    (h : Spells EndsWord text pieces) {path : List String}
    (hpath : ∀ name ∈ path, IsFieldName name) :
    Spells EndsWord (text ++ (printPath path).toList)
      (pieces ++ path.map fieldPiece) := by
  induction path generalizing text pieces with
  | nil => simpa [printPath] using h
  | cons name path ih =>
      have hfirst : Spells EndsWord (text ++ '.' :: name.toList)
          (pieces ++ [fieldPiece name]) := by
        intro depth rest later hends hrest
        obtain ⟨hlexes, _⟩ := field (hpath name (by simp)) depth rest later hends hrest
        simpa using h depth _ _ ⟨'.', _, rfl, by simp⟩ hlexes
      have hrest := ih hfirst fun name hname => hpath name (List.mem_cons_of_mem _ hname)
      simpa [printPath, String.toList_join] using hrest

theorem fields
    {path : List String} (hne : path ≠ []) (hpath : ∀ name ∈ path, IsFieldName name) :
    Spells EndsWord (printPath path).toList (path.map fieldPiece) := by
  cases path with
  | nil => exact absurd rfl hne
  | cons name path =>
      have hfirst := field (hpath name (by simp))
      have hrest := hfirst.path fun name hname => hpath name (List.mem_cons_of_mem _ hname)
      simpa [printPath, String.toList_join] using hrest

end Spells

/-! ## Printed pipelines -/

theorem toList_print_variable (span : Span) (name : String) (path : List String) :
    (Variable.print ⟨span, name :: path⟩).toList =
      name.toList ++ (printPath path).toList := by
  induction path generalizing name with
  | nil => simp [Variable.print, printPath]
  | cons field path ih =>
      simp only [Variable.print] at ih
      simp [Variable.print, ih, printPath, String.toList_join]

theorem Variable.IsReadable.spells {v : Variable} (h : v.IsReadable) :
    Spells EndsWord v.print.toList v.pieces := by
  obtain ⟨span, names⟩ := v
  obtain ⟨name, path, rfl, hname, hpath⟩ := h
  have hfirst : Spells EndsWord name.toList [(.variable name, name)] :=
    .lexeme hname (by simp) (by simp) (by simp) fun rest hends => hends
  rw [toList_print_variable]
  exact hfirst.path hpath

theorem toList_printDeclared_cons_cons
    (isAssign : Bool) (v w : Variable) (declared : List Variable) :
    (printDeclared isAssign (v :: w :: declared)).toList =
      v.print.toList ++ ',' :: ' ' ::
        (printDeclared isAssign (w :: declared)).toList := by
  simp [printDeclared]

theorem spells_sign
    (isAssign : Bool) {text : List Char} {pieces : List Piece}
    (h : Spells EndsOperand text pieces) :
    Spells EndsOperand ((if isAssign then "=" else ":=").toList ++ ' ' :: text)
      (signPiece isAssign :: spacePiece :: pieces) := by
  cases isAssign with
  | true =>
      have hsign : Spells EndsOperand "=".toList [(.assign, "=")] :=
        .lexeme .assign (by simp) (by simp) (by simp) fun _ _ => trivial
      exact hsign.space h
  | false =>
      have hsign : Spells EndsOperand ":=".toList [(.declare, ":=")] :=
        .lexeme .declare (by simp) (by simp) (by simp) fun _ _ => trivial
      exact hsign.space h

/-- The variables that a pipeline sets, before the rest of the pipeline. -/
theorem spells_declared
    (isAssign : Bool) {declared : List Variable}
    (hdeclared : ∀ v ∈ declared, v.IsReadable) {text : List Char} {pieces : List Piece}
    (h : Spells EndsOperand text pieces) :
    Spells EndsOperand ((printDeclared isAssign declared).toList ++ text)
      (declaredPieces isAssign declared ++ pieces) := by
  induction declared with
  | nil => exact h
  | cons v declared ih =>
      have hv := (hdeclared v (by simp)).spells
      cases declared with
      | nil =>
          have hspell := (hv.mono fun rest => EndsOperand.endsWord).space
            (spells_sign isAssign h)
          cases isAssign with
          | true => simpa [printDeclared, declaredPieces] using hspell
          | false => simpa [printDeclared, declaredPieces] using hspell
      | cons w declared =>
          have hrest := ih fun v hv => hdeclared v (List.mem_cons_of_mem _ hv)
          rw [toList_printDeclared_cons_cons]
          simpa [declaredPieces] using hv.comma hrest

theorem AreDeclared.isReadable
    {limit : Nat} {isAssign : Bool} {declared : List Variable}
    (h : AreDeclared limit isAssign declared) : ∀ v ∈ declared, v.IsReadable := by
  intro v hv
  obtain ⟨name, hpath, hname⟩ := h.single v hv
  exact ⟨name, [], hpath, hname, by simp⟩

/-! ### Words and literals -/

theorem lexeme_of_word
    {s : String} {kind : TokenKind} (hkind : TokenKind.ofWord s = kind)
    (hword : (s.toList.all isWordChar && !s.isEmpty &&
      !s.toList.head?.any Char.isDigit) = true) : Lexeme kind s.toList := by
  obtain ⟨cs, rfl⟩ : ∃ cs, s = String.ofList cs := ⟨s.toList, by simp⟩
  rw [String.toList_ofList] at hword ⊢
  cases cs with
  | nil => simp at hword
  | cons c cs =>
      simp only [List.all_cons, Bool.and_eq_true, List.all_eq_true, List.head?_cons,
        Option.any_some, Bool.not_eq_true'] at hword
      rw [← hkind]
      exact .word hword.1.1.1 hword.2 hword.1.1.2

theorem lexeme_keyword (keyword : Keyword) :
    Lexeme (.keyword keyword) keyword.word.toList := by
  rcases keyword with _ | _ | _ | _ | _ | _ | keyword | keyword
  case branch => cases keyword <;> exact lexeme_of_word (by decide) (by decide)
  case jump => cases keyword <;> exact lexeme_of_word (by decide) (by decide)
  all_goals exact lexeme_of_word (by decide) (by decide)

theorem lexeme_bool (value : Bool) :
    Lexeme (.bool value) (if value then "true" else "false").toList := by
  cases value with
  | true => exact lexeme_of_word (by decide) (by decide)
  | false => exact lexeme_of_word (by decide) (by decide)

/-- The first characters that tell the kinds of numbers and of strings apart. -/
def TokenKind.AllowsHead (kind : TokenKind) (head : Option Char) : Prop :=
  match kind with
  | .number => head ≠ some '\''
  | .charConstant => head = some '\''
  | .string => head ≠ some '\x60'
  | .rawString => head = some '\x60'
  | _ => True

theorem Lexer.Lexeme.allowsHead
    {kind : TokenKind} {text : List Char} (h : Lexeme kind text) :
    kind.AllowsHead text.head? := by
  cases h with
  | number hnumeral =>
      cases hnumeral.1 with
      | digit hdigit =>
          rintro ⟨⟩
          cases hdigit
      | point hdigit => simp [TokenKind.AllowsHead]
      | sign hsign hnext =>
          rcases hsign with rfl | rfl
          · simp [TokenKind.AllowsHead]
          · simp [TokenKind.AllowsHead]
  | string hbody => simp [TokenKind.AllowsHead]
  | @word c word hchar hdigit hword =>
      exact TokenKind.ofWord_induct (String.ofList (c :: word)) trivial (fun _ => trivial)
        fun _ => trivial
  | rawString hbody => rfl
  | charConstant hbody => rfl
  | _ => trivial

theorem Number.IsLiteral.kind {number : Number} (h : number.IsLiteral) :
    Lexeme (numberKind number.text) number.text.toList ∧
      (numberKind number.text = .number ∧ Number.ofText number.text = .ok number ∨
        numberKind number.text = .charConstant ∧
          Number.ofCharacter number.text = .ok number) := by
  rcases h with ⟨hlexeme, hvalue⟩ | ⟨hlexeme, hvalue⟩
  · have hkind : numberKind number.text = .number := if_neg hlexeme.allowsHead
    rw [hkind]
    exact ⟨hlexeme, .inl ⟨rfl, hvalue⟩⟩
  · have hkind : numberKind number.text = .charConstant := if_pos hlexeme.allowsHead
    rw [hkind]
    exact ⟨hlexeme, .inr ⟨rfl, hvalue⟩⟩

theorem IsStringLiteral.kind {quoted value : String} (h : IsStringLiteral quoted value) :
    Lexeme (stringKind quoted) quoted.toList ∧
      (stringKind quoted = .string ∨ stringKind quoted = .rawString) := by
  rcases h.1 with hlexeme | hlexeme
  · have hkind : stringKind quoted = .string := if_neg hlexeme.allowsHead
    rw [hkind]
    exact ⟨hlexeme, .inl rfl⟩
  · have hkind : stringKind quoted = .rawString := if_pos hlexeme.allowsHead
    rw [hkind]
    exact ⟨hlexeme, .inr rfl⟩

theorem Number.IsLiteral.spells {number : Number} (h : number.IsLiteral) :
    Spells EndsOperand number.text.toList [(numberKind number.text, number.text)] := by
  obtain ⟨hlexeme, ⟨hkind, _⟩ | ⟨hkind, _⟩⟩ := h.kind
  · rw [hkind] at hlexeme ⊢
    exact .lexeme hlexeme (by simp) (by simp) (by simp) fun rest => EndsOperand.endsNumber
  · rw [hkind] at hlexeme ⊢
    exact .lexeme hlexeme (by simp) (by simp) (by simp) fun _ _ => trivial

theorem IsStringLiteral.spells {quoted value : String} (h : IsStringLiteral quoted value) :
    Spells EndsOperand quoted.toList [(stringKind quoted, quoted)] := by
  obtain ⟨hlexeme, hkind | hkind⟩ := h.kind
  · rw [hkind] at hlexeme ⊢
    exact .lexeme hlexeme (by simp) (by simp) (by simp) fun _ _ => trivial
  · rw [hkind] at hlexeme ⊢
    exact .lexeme hlexeme (by simp) (by simp) (by simp) fun _ _ => trivial

/-! ### Operands and commands -/

theorem toList_intercalate_of_ne_nil
    (sep first : String) {texts : List String} (h : texts ≠ []) :
    (String.intercalate sep (first :: texts)).toList =
      first.toList ++ sep.toList ++ (String.intercalate sep texts).toList := by
  cases texts with
  | nil => exact absurd rfl h
  | cons second texts => simp

@[simp]
theorem printCommands_eq_nil {commands : List (Command Node)} :
    printCommands commands = [] ↔ commands = [] := by
  cases commands with
  | nil => simp [printCommands]
  | cons command commands => simp [printCommands]

@[simp]
theorem printOperands_eq_nil {operands : List Node} :
    printOperands operands = [] ↔ operands = [] := by
  cases operands with
  | nil => simp [printOperands]
  | cons operand operands => simp [printOperands]

theorem enclose_of_not_pipe
    {node : Node} (h : node.isPipe = false) (printed : String) :
    node.enclose printed = printed := by
  rw [Node.enclose, h, if_neg Bool.false_ne_true]

theorem toList_enclose_pipe (p : Pipe Node) (printed : String) :
    ((Node.pipe p).enclose printed).toList = '(' :: (printed.toList ++ [')']) := by
  simp [Node.enclose, Node.isPipe]

mutual

theorem operand_spells {node : Node} (h : node.IsOperand) :
    Spells EndsOperand (node.enclose node.print).toList node.operandPieces := by
  cases node with
  | dot span =>
      have hdot : Lexeme .dot ".".toList := .dot
      exact .lexeme hdot (by simp) (by simp) (by simp) fun rest => EndsOperand.endsWord
  | nil span =>
      exact .lexeme (lexeme_keyword .nilKeyword) (by simp) (by simp) (by simp)
        fun rest => EndsOperand.endsWord
  | bool span value =>
      exact .lexeme (lexeme_bool value) (by simp) (by simp) (by simp)
        fun rest => EndsOperand.endsWord
  | identifier span name =>
      exact .lexeme h (by simp) (by simp) (by simp) fun rest => EndsOperand.endsWord
  | «variable» v =>
      have hv : v.IsReadable := h
      exact hv.spells.mono fun rest => EndsOperand.endsWord
  | field span path =>
      exact (Spells.fields h.1 h.2).mono fun rest => EndsOperand.endsWord
  | number span number =>
      have hnumber : number.IsLiteral := h
      exact hnumber.spells
  | string span quoted value =>
      have hstring : IsStringLiteral quoted value := h
      exact hstring.spells
  | pipe p =>
      have hpipe : p.IsReadable 1 := h
      rw [toList_enclose_pipe]
      exact (pipe_spells hpipe).paren
  | chain span receiver path =>
      have hreceiver := receiver_spells h.1 h.2.1
      rw [enclose_of_not_pipe rfl, Node.print, String.toList_append]
      exact (hreceiver.path h.2.2.2).mono fun rest => EndsOperand.endsWord
  | _ => exact h.elim
termination_by structural node

theorem receiver_spells
    {node : Node} (hreceiver : node.isReceiver = true) (h : node.IsOperand) :
    Spells EndsWord (node.enclose node.print).toList node.operandPieces := by
  cases node with
  | identifier span name =>
      exact .lexeme h (by simp) (by simp) (by simp) fun rest hends => hends
  | pipe p =>
      have hpipe : p.IsReadable 1 := h
      rw [toList_enclose_pipe]
      exact (pipe_spells hpipe).paren
  | _ => cases hreceiver
termination_by structural node

theorem pipe_spells {pipe : Pipe Node} {limit : Nat} (h : pipe.IsReadable limit) :
    Spells EndsOperand pipe.print.toList pipe.pieces := by
  match pipe with
  | ⟨span, isAssign, declared, commands⟩ =>
      obtain ⟨hdeclared, hne, _, hcommands⟩ := h
      rw [Pipe.print, String.toList_append]
      exact spells_declared isAssign hdeclared.isReadable (commands_spell hne hcommands)
termination_by structural pipe

theorem commands_spell
    {commands : List (Command Node)} (hne : commands ≠ []) (h : AreReadable commands) :
    Spells EndsOperand (String.intercalate " | " (printCommands commands)).toList
      (commandsPieces commands) := by
  match commands with
  | [] => exact absurd rfl hne
  | command :: commands =>
      have hcommand := command_spells h.1
      by_cases hmore : commands = []
      · simpa [hmore, printCommands, commandsPieces] using hcommand
      · have hbar : Lexeme .pipe "|".toList := .pipe
        have hpipe : Spells EndsOperand "|".toList [(.pipe, "|")] :=
          .lexeme hbar (by simp) (by simp) (by simp) fun _ _ => trivial
        have hall := hcommand.space (hpipe.space (commands_spell hmore h.2))
        rw [printCommands, toList_intercalate_of_ne_nil _ _ (by simpa using hmore),
          commandsPieces, if_neg (by simpa using hmore)]
        simpa using hall
termination_by structural commands

theorem command_spells {command : Command Node} (h : command.IsReadable) :
    Spells EndsOperand command.print.toList command.pieces := by
  match command with
  | ⟨span, operands⟩ => exact operands_spell h.1 h.2
termination_by structural command

theorem operands_spell
    {operands : List Node} (hne : operands ≠ []) (h : AreOperands operands) :
    Spells EndsOperand (String.intercalate " " (printOperands operands)).toList
      (operandsPieces operands) := by
  match operands with
  | [] => exact absurd rfl hne
  | operand :: operands =>
      have hoperand := operand_spells h.1
      by_cases hmore : operands = []
      · simpa [hmore, printOperands, operandsPieces] using hoperand
      · have hall := hoperand.space (operands_spell hmore h.2)
        rw [printOperands, toList_intercalate_of_ne_nil _ _ (by simpa using hmore),
          operandsPieces, if_neg (by simpa using hmore)]
        simpa using hall
termination_by structural operands

end

/-! ## Printed bodies -/

theorem Keyword.spells (keyword : Keyword) :
    Spells EndsOperand keyword.word.toList [keyword.piece] :=
  .lexeme (lexeme_keyword keyword) (by simp) (by simp) (by simp)
    fun rest => EndsOperand.endsWord

/-- An action between its delimiters. -/
theorem delimited_lexes
    {text : String} {pieces : List Piece} (h : Spells EndsOperand text.toList pieces)
    {rest : List Char} {later : List Piece} (hrest : LexesFrom .text rest later) :
    LexesAfterText ((delimited text).toList ++ rest)
      (leftPiece :: (pieces ++ rightPiece :: later)) := by
  have hends : EndsOperand ('\x7d' :: '\x7d' :: rest) := ⟨_, _, rfl, by simp⟩
  obtain ⟨hlexes, hopens⟩ := h 0 _ _ hends (LexesAction.rightDelim hrest)
  have htext : (delimited text).toList ++ rest =
      '\x7b' :: '\x7b' :: (text.toList ++ '\x7d' :: '\x7d' :: rest) := by
    simp [delimited]
  rw [htext]
  exact LexesAfterText.leftDelim hopens hlexes

theorem template_spells
    {name : String} (hname : name.toList.all isPrintableAscii = true) :
    Spells EndsOperand ("template " ++ Quoted.text name).toList
      [Keyword.template.piece, spacePiece, (.string, Quoted.text name)] := by
  have hquoted : Spells EndsOperand (Quoted.text name).toList
      [(.string, Quoted.text name)] :=
    .lexeme (Quoted.lexeme_text (List.all_eq_true.mp hname)) (by simp) (by simp) (by simp)
      fun _ _ => trivial
  have hall := (Keyword.spells .template).space hquoted
  simpa [Keyword.word] using hall

theorem comment_lexes
    {text : String} (h : IsComment text.toList) {rest : List Char} {later : List Piece}
    (hrest : LexesFrom .text rest later) :
    LexesAfterText ((delimited text).toList ++ rest)
      ((.comment text, delimited text) :: later) := by
  have hlexes := LexesAfterText.comment h hrest
  have hpiece : String.ofList (delimitedComment text.toList) = delimited text := by
    apply String.toList_injective
    simp [delimitedComment, delimited]
  rw [String.ofList_toList, hpiece] at hlexes
  simpa [delimited] using hlexes

theorem text_lexes
    {inRange : Bool} {node : Node} (h : node.IsReadable inRange)
    (hplain : node.isPlain = true) (htext : node.isText = true)
    {rest : List Char} {later : List Piece} (hrest : LexesAfterText rest later) :
    LexesFrom .text (node.print.toList ++ rest) (node.pieces ++ later) := by
  cases node with
  | text span text =>
      have hne : text ≠ "" := h
      have hbrace : '\x7b' ∉ text.toList := by
        intro hmem
        have hall := List.all_eq_true.mp hplain _ hmem
        simp at hall
      have hpieces : textPieces text.toList = [(.text text, text)] := by
        rw [textPieces, if_neg (by simpa using hne), String.ofList_toList]
      have hlexes := hrest text.toList hbrace
      rw [hpieces] at hlexes
      exact hlexes
  | _ => cases htext

mutual

theorem node_lexes
    {inRange : Bool} {node : Node} (h : node.IsReadable inRange)
    (hplain : node.isPlain = true) (htext : node.isText = false)
    {rest : List Char} {later : List Piece} (hrest : LexesFrom .text rest later) :
    LexesAfterText (node.print.toList ++ rest) (node.pieces ++ later) := by
  cases node with
  | comment span text => exact comment_lexes h hrest
  | action span pipe =>
      have hpipe : pipe.IsReadable 1 := h
      simpa [Node.print, Node.pieces] using delimited_lexes (pipe_spells hpipe) hrest
  | branch keyword b => exact branch_lexes h hplain hrest
  | template span name argument =>
      have hname : name.toList.all isPrintableAscii = true := hplain
      cases argument with
      | none =>
          simpa [Node.print, Node.pieces, printArgument] using
            delimited_lexes (template_spells hname) hrest
      | some argument =>
          have hargument : argument.IsReadable 1 := h
          have hspell := (template_spells hname).space (pipe_spells hargument)
          have htext : ("template " ++ Quoted.text name ++
              printArgument (some argument)).toList =
                ("template " ++ Quoted.text name).toList ++ ' ' :: argument.print.toList := by
            simp [printArgument]
          rw [← htext] at hspell
          simpa [Node.print, Node.pieces] using delimited_lexes hspell hrest
  | jump span keyword =>
      simpa [Node.print, Node.pieces, Keyword.word] using
        delimited_lexes (Keyword.spells (.jump keyword)) hrest
  | text span text => cases htext
  | _ => exact h.elim
termination_by structural node

theorem branch_lexes
    {inRange : Bool} {keyword : BranchKeyword} {branch : Branch Node}
    (h : branch.IsReadable inRange keyword) (hplain : branch.isPlain = true)
    {rest : List Char} {later : List Piece} (hrest : LexesFrom .text rest later) :
    LexesAfterText ((branch.print keyword).toList ++ rest)
      (branch.pieces keyword ++ later) := by
  match branch with
  | ⟨span, pipe, body, otherwise⟩ =>
      obtain ⟨hpipe, hbody, hotherwise⟩ := h
      rw [Branch.isPlain, Bool.and_eq_true] at hplain
      have hend := delimited_lexes (Keyword.spells .endKeyword) hrest
      have helse := otherwise_lexes hotherwise hplain.2 hend
      have hspell := (Keyword.spells (.branch keyword)).space (pipe_spells hpipe)
      have htext : (keyword.word ++ " " ++ pipe.print).toList =
          (Keyword.branch keyword).word.toList ++ ' ' :: pipe.print.toList := by
        simp [Keyword.word]
      rw [← htext] at hspell
      have hall := delimited_lexes hspell (body_lexes hbody hplain.1 helse)
      simpa [Branch.print, Branch.pieces, Keyword.word] using hall
termination_by structural branch

theorem otherwise_lexes
    {inRange : Bool} {otherwise : Option (Body Node)}
    (h : OtherwiseReadable inRange otherwise)
    (hplain : isPlainOtherwise otherwise = true)
    {rest : List Char} {later : List Piece} (hrest : LexesAfterText rest later) :
    LexesAfterText ((printOtherwise otherwise).toList ++ rest)
      (otherwisePieces otherwise ++ later) := by
  match otherwise with
  | none => exact hrest
  | some body =>
      have hbody := body_lexes h hplain hrest
      have helse := delimited_lexes (Keyword.spells .elseKeyword) hbody
      simpa [printOtherwise, otherwisePieces, Keyword.word] using helse
termination_by structural otherwise

theorem body_lexes
    {inRange : Bool} {body : Body Node} (h : body.IsReadable inRange)
    (hplain : body.isPlain = true) {rest : List Char} {later : List Piece}
    (hrest : LexesAfterText rest later) :
    LexesFrom .text (body.print.toList ++ rest) (body.pieces ++ later) := by
  match body with
  | ⟨span, nodes⟩ => exact (nodes_lex h hplain hrest).1
termination_by structural body

/-- Nodes that do not start with text may follow text. -/
theorem nodes_lex
    {inRange : Bool} {nodes : List Node} (h : NodesReadable inRange nodes)
    (hplain : arePlain nodes = true) {rest : List Char} {later : List Piece}
    (hrest : LexesAfterText rest later) :
    LexesFrom .text ((printNodes nodes).toList ++ rest) (nodesPieces nodes ++ later) ∧
      (nodes.head?.any Node.isText = false →
        LexesAfterText ((printNodes nodes).toList ++ rest)
          (nodesPieces nodes ++ later)) := by
  match nodes with
  | [] => exact ⟨hrest.lexesFrom, fun _ => hrest⟩
  | node :: nodes =>
      rw [arePlain, Bool.and_eq_true, Bool.and_eq_true] at hplain
      obtain ⟨⟨hnode, htexts⟩, hnodes⟩ := hplain
      obtain ⟨hfrom, hafter⟩ := nodes_lex h.2 hnodes hrest
      rw [printNodes, nodesPieces, String.toList_append, List.append_assoc,
        List.append_assoc]
      by_cases htext : node.isText = true
      · have hnext : nodes.head?.any Node.isText = false := by
          simpa [htext] using htexts
        refine ⟨text_lexes h.1 hnode htext (hafter hnext), ?_⟩
        intro hhead
        rw [List.head?_cons, Option.any_some, htext] at hhead
        cases hhead
      · have hlexes := node_lexes h.1 hnode (Bool.eq_false_iff.mpr htext) hfrom
        exact ⟨hlexes.lexesFrom, fun _ => hlexes⟩
termination_by structural nodes

end

/-- The printed form of a readable and plain body is cut into its pieces. -/
theorem tokenize_print
    {inRange : Bool} {body : Body Node} (h : body.IsReadable inRange)
    (hplain : body.isPlain = true) :
    ∃ tokens, tokenize .standard body.print = .ok tokens ∧
      tokens.map Token.piece = body.pieces ++ [(.eof, "")] := by
  have hlexes := body_lexes h hplain LexesAfterText.eof
  rw [List.append_nil] at hlexes
  exact hlexes 0

end TemplateTyping
