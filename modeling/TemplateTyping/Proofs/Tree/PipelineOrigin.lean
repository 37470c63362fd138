import TemplateTyping.Proofs.Tree.PipelineTokens
import TemplateTyping.Proofs.Tree.Spans

/-!
# Where pipelines come from

Every pipeline of an action, a branch, an invocation or a block stands in the source: from the
token that it starts with up to the next right delimiter.  Derivations say where pipelines are read,
so it only has to be seen that nothing between the two gets lost.

The main statement compares two sequences of tokens, those that a pipeline was read from and those
that its printed form is cut into.  Apart from spaces, and from the bars after which a pipeline
ends, they are the same.
-/

namespace TemplateTyping

open Lexer

/-! ## Pipelines of trees -/

mutual

/-- The pipelines of the actions, branches and invocations in a node. -/
def Node.pipelines (node : Node) : List (Pipe Node) :=
  match node with
  | .action _ pipe => [pipe]
  | .branch _ b => b.pipelines
  | .template _ _ argument => argument.toList
  | .body b => b.pipelines
  | _ => []
termination_by structural node

/-- The pipelines of a branch and its bodies. -/
def Branch.pipelines (branch : Branch Node) : List (Pipe Node) :=
  match branch with
  | ⟨_, pipe, body, otherwise⟩ => pipe :: (body.pipelines ++ otherwisePipelines otherwise)
termination_by structural branch

/-- The pipelines of a body taken otherwise. -/
def otherwisePipelines (otherwise : Option (Body Node)) : List (Pipe Node) :=
  match otherwise with
  | none => []
  | some body => body.pipelines
termination_by structural otherwise

/-- The pipelines of a body. -/
def Body.pipelines (body : Body Node) : List (Pipe Node) :=
  match body with
  | ⟨_, nodes⟩ => nodesPipelines nodes
termination_by structural body

/-- The pipelines of nodes one after the other. -/
def nodesPipelines (nodes : List Node) : List (Pipe Node) :=
  match nodes with
  | [] => []
  | node :: nodes => node.pipelines ++ nodesPipelines nodes
termination_by structural nodes

end

/-- The pipelines of an item. -/
def Item.pipelines : Item → List (Pipe Node)
  | .node held => held.pipelines
  | .elseItem _ | .endItem _ => []

/-! ## Tokens of a source -/

/-- The tokens of the pipeline that starts at an offset: all up to the next right delimiter. -/
def pipelineTokens (source : List Token) (start : Nat) : List Token :=
  (source.dropWhile (·.span.start < start)).takeWhile (·.kind != .rightDelim)

/-- The tokens between the delimiters of the first action. -/
def actionTokens (source : List Token) : List Token :=
  (source.dropWhile (·.kind != .leftDelim)).tail.takeWhile (·.kind != .rightDelim)

theorem takeWhile_ne_rightDelim {taken rest : List Token} {closing : Token}
    (htaken : ∀ token ∈ taken, token.kind ≠ .rightDelim) (hclosing : closing.kind = .rightDelim) :
    (taken ++ closing :: rest).takeWhile (·.kind != .rightDelim) = taken := by
  rw [List.takeWhile_append_of_pos, List.takeWhile_cons_of_neg (by simp [hclosing]),
    List.append_nil]
  intro token htoken
  simpa using htaken token htoken

/-- Tokens in the order in which the lexer cuts a source. -/
structure AreTokens (text : String) (source : List Token) : Prop where
  closes : Closes false source
  lined : Lined text source

theorem tokenize_areTokens {d : Delimiters} {text : String} {source : List Token}
    (h : tokenize d text = .ok source) : AreTokens text source :=
  ⟨tokenize_closes h, tokenize_lined h⟩

theorem Closes.of_suffix {inAction : Bool} {tokens rest : List Token}
    (h : Closes inAction tokens) (hsuffix : rest <:+ tokens) (hne : rest ≠ []) :
    ∃ inside, Closes inside rest := by
  induction tokens generalizing inAction with
  | nil => exact absurd (List.suffix_nil.mp hsuffix) hne
  | cons token tokens ih =>
      rcases List.suffix_cons_iff.mp hsuffix with rfl | hsuffix
      · exact ⟨inAction, h⟩
      · cases h with
        | eof => exact absurd (List.suffix_nil.mp hsuffix) hne
        | outer _ hrest | opening _ hrest | inner _ hrest | closing _ hrest =>
            exact ih hrest hsuffix

/-- The mark of the end comes last. -/
theorem Closes.ne_eof_of_cons {inAction : Bool} {token : Token} {tokens : List Token}
    (h : Closes inAction (token :: tokens)) (hne : tokens ≠ []) : token.kind ≠ .eof := by
  intro hkind
  cases h with
  | eof => exact hne rfl
  | outer houter =>
      rw [hkind] at houter
      exact houter
  | opening hopening =>
      rw [hkind] at hopening
      cases hopening
  | inner hinner =>
      rw [hkind] at hinner
      exact hinner
  | closing hclosing =>
      rw [hkind] at hclosing
      cases hclosing

theorem Lined.tail {text : String} {token next : Token} {tokens : List Token}
    (h : Lined text (token :: next :: tokens)) :
    token.IsPlaced text ∧ token.span.stop ≤ next.span.start ∧ Lined text (next :: tokens) := by
  cases h with
  | cons hplaced hle _ hlined => exact ⟨hplaced, hle, hlined⟩

/-- Each token starts before those that come after it. -/
theorem Lined.start_lt {text : String} {before rest : List Token} {first : Token}
    {inAction : Bool} (h : Lined text (before ++ first :: rest))
    (hcloses : Closes inAction (before ++ first :: rest)) :
    ∀ token ∈ before, token.span.start < first.span.start := by
  induction before generalizing inAction with
  | nil => simp
  | cons token before ih =>
      have hne : before ++ first :: rest ≠ [] := by simp
      have hkind : token.kind ≠ .eof := hcloses.ne_eof_of_cons hne
      obtain ⟨inside, hinside⟩ := hcloses.of_suffix (List.suffix_cons ..) hne
      obtain ⟨next, later, heq⟩ := List.exists_cons_of_ne_nil hne
      rw [List.cons_append, heq] at h
      obtain ⟨hplaced, hle, hlined⟩ := h.tail
      rw [← heq] at hlined
      have hbefore := ih hlined hinside
      have hnext : next.span.start ≤ first.span.start := by
        cases before with
        | nil =>
            cases heq
            exact Nat.le_refl _
        | cons other before =>
            cases heq
            exact Nat.le_of_lt (hbefore next List.mem_cons_self)
      intro other hother
      rcases List.mem_cons.mp hother with rfl | hother
      · exact Nat.lt_of_lt_of_le (hplaced.lt hkind) (Nat.le_trans hle hnext)
      · exact hbefore other hother

namespace AreTokens

variable {text : String} {source rest : List Token} {token : Token} (h : AreTokens text source)
include h

/-- The tokens from one of them on are found by its start. -/
theorem dropWhile_start (hsuffix : token :: rest <:+ source) :
    source.dropWhile (·.span.start < token.span.start) = token :: rest := by
  obtain ⟨before, rfl⟩ := hsuffix
  rw [List.dropWhile_append_of_pos, List.dropWhile_cons_of_neg (by simp)]
  intro other hother
  exact decide_eq_true (h.lined.start_lt h.closes other hother)

end AreTokens

/-! ## Pipelines of derivations -/

/-- The pipeline stands in the source: it is printed as it is written there, spaces and idle bars
aside. -/
structure Pipe.IsWrittenIn (source : List Token) (pipe : Pipe Node) : Prop where
  readable : ∃ limit, pipe.IsReadable limit
  start : (pipelineTokens source pipe.span.start).head?.map (·.span.start) =
    some pipe.span.start
  eq : withoutIdleBars (lexemes (pipelineTokens source pipe.span.start)) = bare pipe.pieces

/-- A pipeline stands in the source from which it is read. -/
theorem DerivesPipe.isWrittenIn {text : String} {source : List Token} {clause : Clause}
    {pipe : Pipe Node} {c c' : Cursor} (hsource : AreTokens text source)
    (h : DerivesPipe source (.pipeline clause .rightDelim pipe) c c') :
    pipe.IsWrittenIn source := by
  have hlexed : ∀ token ∈ source, token.IsLexed := fun token htoken =>
    (hsource.lined.mem htoken).lexed
  obtain ⟨first, later, written, closing, hfirst, hstart, ⟨taken, htaken, hinner, rfl⟩, hclosing,
    heq, hne⟩ := h.readsTokens hlexed
  have htokens : pipelineTokens source pipe.span.start = taken := by
    have hsuffix := hfirst.leaves.suffix.trans h.enclosed.suffix
    rw [pipelineTokens, ← hstart, hsource.dropWhile_start hsuffix, htaken,
      takeWhile_ne_rightDelim hinner hclosing]
  refine ⟨⟨_, h.isReadable hlexed⟩, ?_, ?_⟩
  · -- Commands are written with tokens, so that the first one is not the delimiter.
    obtain ⟨token, taken, rfl⟩ := List.exists_cons_of_ne_nil fun hnil : taken = [] =>
      hne (by rw [hnil]; rfl)
    rw [List.cons_append] at htaken
    rw [htokens, ← (List.cons.inj htaken).1, List.head?_cons, Option.map_some, hstart]
  · rw [htokens]
    exact heq

/-- The pipelines of a phrase. -/
def Phrase.pipelines : Phrase → List (Pipe Node)
  | .body _ found _ | .otherwise _ _ found => found.pipelines
  | .nodes _ found _ | .topLevel found => nodesPipelines found
  | .item _ found | .action _ _ found => found.pipelines
  | .branch _ _ _ found => found.pipelines
  | .block _ _ found => found.pipelines
  | .definition _ | .source => []

theorem Derives.isWrittenIn {text : String} {origin : Origin} {source : List Token}
    {phrase : Phrase} {c c' : Cursor} {completed : List (Tree × Span)}
    (hsource : AreTokens text source) (h : Derives origin source phrase c completed c') :
    ∀ pipe ∈ phrase.pipelines, pipe.IsWrittenIn source := by
  induction h with
  | body _ _ ih | elseEnding _ _ ih | endEnding _ _ ih | action _ _ _ ih | blockNode _ _ _ _ ih
  | branchNode _ _ _ _ ih | otherwise _ ih => exact ih
  | define _ _ _ _ _ _ _ hnodes => exact hnodes
  | text | comment | jump | elseOpen | elseClause | endClause | invocation | definition | eof
  | source => simp [Phrase.pipelines, Item.pipelines, Node.pipelines, nodesPipelines]
  | node _ _ _ hnode hnodes | topLevelNode _ _ hnode hnodes =>
      simp only [Phrase.pipelines, nodesPipelines, List.forall_mem_append]
      exact ⟨hnode, hnodes⟩
  | invocationWith _ _ _ _ _ _ hread | command _ _ hread | block _ _ _ hread =>
      exact List.forall_mem_singleton.mpr (hread.isWrittenIn hsource)
  | branchEnd _ hread _ hbody =>
      have hpipe := hread.isWrittenIn hsource
      simpa [Phrase.pipelines, Branch.pipelines, otherwisePipelines] using ⟨hpipe, hbody⟩
  | branchElse _ hread _ _ hbody hotherwise =>
      have hpipe := hread.isWrittenIn hsource
      simp only [Phrase.pipelines, Branch.pipelines, otherwisePipelines, List.forall_mem_cons,
        List.forall_mem_append]
      exact ⟨hpipe, hbody, hotherwise⟩
  | continued _ _ _ hnested =>
      simpa [Phrase.pipelines, Body.pipelines, nodesPipelines, Node.pipelines] using hnested

/-- Every pipeline of a source that is read stands in it. -/
theorem TemplateSet.isWrittenIn_of_parse {d : Delimiters} {name source : String}
    {set : TemplateSet} (h : TemplateSet.parse d name source = .ok set) :
    ∃ tokens, tokenize d source = .ok tokens ∧
      ∀ template tree, set.get? template = some tree →
        ∀ pipe ∈ tree.root.pipelines, pipe.IsWrittenIn tokens := by
  obtain ⟨tokens, htokens, hforall⟩ := TemplateSet.forall_of_parse h
  have hsource := tokenize_areTokens htokens
  refine ⟨tokens, htokens, ?_⟩
  intro template tree htree
  exact (hforall (fun tree => ∀ pipe ∈ tree.root.pipelines, pipe.IsWrittenIn tokens)
    (fun hbody => hbody.isWrittenIn hsource) (fun hnodes => hnodes.isWrittenIn hsource)
    template tree htree).2

/-! ## Printed pipelines -/

/-- A readable pipeline is cut into its pieces when it is printed between delimiters. -/
theorem Pipe.tokenize_print {pipe : Pipe Node} {limit : Nat} (h : pipe.IsReadable limit) :
    ∃ printed, tokenize .standard (delimited pipe.print) = .ok printed ∧
      printed.map Token.piece = leftPiece :: (pipe.pieces ++ [rightPiece, (.eof, "")]) := by
  have hlexes := (delimited_lexes (pipe_spells h) LexesAfterText.eof.lexesFrom).lexesFrom
  rw [List.append_nil] at hlexes
  exact hlexes 0

theorem lexemes_actionTokens {printed : List Token} {pieces : List Piece}
    (hprinted : printed.map Token.piece = leftPiece :: (pieces ++ [rightPiece, (.eof, "")]))
    (hinner : ∀ piece ∈ pieces, piece.1 ≠ .rightDelim) :
    lexemes (actionTokens printed) = bare pieces := by
  obtain ⟨left, rest, rfl, hleft, hrest⟩ := List.map_eq_cons_iff.mp hprinted
  obtain ⟨inner, closing, rfl, rfl, hclosing⟩ := List.map_eq_append_iff.mp hrest
  obtain ⟨right, last, rfl, hright, -⟩ := List.map_eq_cons_iff.mp hclosing
  have hleftKind : left.kind = .leftDelim := congrArg Prod.fst hleft
  have hrightKind : right.kind = .rightDelim := congrArg Prod.fst hright
  have hkinds : ∀ token ∈ inner, token.kind ≠ .rightDelim := by
    intro token htoken
    exact hinner token.piece (List.mem_map_of_mem htoken)
  rw [actionTokens, List.dropWhile_cons_of_neg (by simp [hleftKind]), List.tail_cons,
    takeWhile_ne_rightDelim hkinds hrightKind, lexemes]

theorem Pipe.IsWrittenIn.ne_rightDelim {source : List Token} {pipe : Pipe Node}
    (h : pipe.IsWrittenIn source) : ∀ piece ∈ pipe.pieces, piece.1 ≠ .rightDelim := by
  intro piece hpiece hkind
  have hbare : piece ∈ bare pipe.pieces := List.mem_filter.mpr ⟨hpiece, by simp [hkind]⟩
  rw [← h.eq] at hbare
  have hlexeme := (List.mem_filter.mp (withoutIdleBars_sublist.mem hbare)).1
  obtain ⟨token, htoken, rfl⟩ := List.mem_map.mp hlexeme
  have hne := List.all_eq_true.mp List.all_takeWhile token htoken
  exact bne_iff_ne.mp hne hkind

/-- Bars before a right delimiter and before a closing parenthesis, beside one that is needed. -/
def barredSource : String :=
  "a\x7b\x7brange $i, $e := printf (.A | len |  ).B  'c' |\x7d\x7dx\x7b\x7bend\x7d\x7d"

end TemplateTyping
