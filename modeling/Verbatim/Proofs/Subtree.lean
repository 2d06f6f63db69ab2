import Verbatim.Proofs.Spans
import Verbatim.Proofs.Subtree.Stretch
import Verbatim.Proofs.Walk

/-!
# What a node writes on its own

The text that a node of a parsed tree writes is a piece of the source: it starts with the trivia
in front of the node and stops behind the last of its tokens that has text. This is also where
the node stops, unless it ends with a block. The end of a block stands in front of the line that
follows it, behind trivia that the node does not write.
-/

namespace Verbatim

namespace Outline

/-- What a piece writes on its own. -/
def toSource (piece : Outline) : Text :=
  (walk SourceBuffer.writer piece .empty).state.text

theorem toSource_eq (piece : Outline) : piece.toSource = Text.ofTokens piece.tokens := by
  rw [toSource, walk_eq_foldl SourceBuffer.writer_continues, SourceBuffer.foldl_tell_writer,
    filterMap_token?_events]
  exact SourceBuffer.text_addTokens .empty _

mutual

theorem Spanned.of_mem_nodes {piece : Outline} {n : Node} {children : List Outline}
    (h : piece.Spanned) (hmem : (n, children) ∈ piece.nodes) : (node n children).Spanned := by
  cases piece with
  | token t => cases hmem
  | node m inside =>
    rw [nodes] at hmem
    rcases List.mem_cons.mp hmem with heq | hmem
    · cases heq
      exact h
    · rw [Spanned] at h
      exact AllSpanned.of_mem_nodesOf h.2.2 hmem
  | part span inside =>
    rw [nodes] at hmem
    rw [Spanned] at h
    exact AllSpanned.of_mem_nodesOf h.2 hmem

theorem AllSpanned.of_mem_nodesOf {pieces : List Outline} {n : Node} {children : List Outline}
    (h : AllSpanned pieces) (hmem : (n, children) ∈ nodesOf pieces) :
    (node n children).Spanned := by
  cases pieces with
  | nil => cases hmem
  | cons piece pieces =>
    rw [AllSpanned] at h
    rw [nodesOf, List.mem_append] at hmem
    rcases hmem with hmem | hmem
    · exact Spanned.of_mem_nodes h.1 hmem
    · exact AllSpanned.of_mem_nodesOf h.2 hmem

end

/-- What some pieces write, one after the other. -/
def written (pieces : List Outline) : Text :=
  (walkAll SourceBuffer.writer pieces .empty).state.text

theorem written_eq (pieces : List Outline) : written pieces = pieces.flatMap toSource := by
  rw [written, SourceBuffer.walkAll_writer]
  refine (SourceBuffer.text_addPieces .empty pieces).trans ?_
  induction pieces with
  | nil => rfl
  | cons piece pieces ih =>
    have htokens : sourceOf (piece :: pieces) = Text.ofTokens piece.tokens ++ sourceOf pieces :=
      List.flatMap_append
    rw [List.flatMap_cons, toSource_eq, ← ih, htokens]
    rfl

theorem toSource_token (t : Token) : toSource (.token t) = t.fullText := by
  rw [toSource_eq, tokens]
  exact List.append_nil _

end Outline

/-! ## Nodes of a parsed tree -/

open Outline (tokensOf nodesOf toSource written)

variable {options : Options} {t : Text} {span : Span} {pieces children : List Outline} {n : Node}

/-- The tokens of a node stand side by side, and the end of the text is not among them. -/
theorem Parses.exists_between (h : Parses options t span pieces)
    (hmem : (n, children) ∈ nodesOf pieces) :
    ∃ before after last, tokensOf pieces = before ++ (tokensOf children ++ (after ++ [last])) ∧
      last.kind = .endOfFile ∧ ∀ token ∈ tokensOf children, token.kind ≠ .endOfFile := by
  obtain ⟨init, last, htokens, hlast, hinit⟩ := h.holds.endsInside
  obtain ⟨-, -, inner, u, -, -, rfl, -⟩ := h.finishes
  rw [Outline.nodesOf_append, Outline.nodesOf_token, List.append_nil] at hmem
  obtain ⟨before, after, hbetween⟩ := Outline.tokens_infix_of_mem_nodesOf hmem
  have hwhole : tokensOf (inner ++ [.token u.current]) = tokensOf inner ++ [u.current] :=
    Outline.tokensOf_append _ _
  obtain ⟨rfl, -⟩ := List.append_inj' (htokens.symm.trans hwhole) rfl
  refine ⟨before, after, last, ?_, hlast, ?_⟩
  · rw [htokens, ← hbetween]
    simp only [List.append_assoc]
  · intro token htoken
    apply hinit
    rw [← hbetween]
    simp [htoken]

theorem Parses.stretch (h : Parses options t span pieces)
    (hmem : (n, children) ∈ nodesOf pieces) :
    ∃ before after, tokensOf pieces = before ++ (tokensOf children ++ after) ∧
      Token.Stretch t before (tokensOf children) after := by
  have hholds := h.holds
  obtain ⟨before, after, last, htokens, hlast, hinside⟩ := h.exists_between hmem
  obtain ⟨-, hrun⟩ := TokenRun.tokenize_eq_ok_iff.mp hholds.tokenize_eq
  obtain ⟨hspread, htogether⟩ := TokenRun.spread options t
  refine ⟨before, after ++ [last], htokens, ?_⟩
  constructor
  · rwa [← htokens, ← hrun]
  · rw [← htokens, hholds.ofTokens_eq]
  · rwa [← htokens, ← hrun]
  · exact (h.composes Outline.edged_composes).2 n children hmem
  · exact hholds.row.sublist (Outline.tokens_infix_of_mem_nodesOf hmem).sublist
  · exact hinside
  · refine ⟨last, by simp, ?_⟩
    rw [hlast]
    decide

/-- How the text that a node writes and the text of its span stand in the source, with the tokens
`after` behind those of the node. The span of a block goes on over trivia that is not written,
because a later token takes it: the first one that does not end another block. -/
structure Regenerates (source : Text) (n : Node) (children : List Outline) (after : List Token) :
    Prop where
  piece : ∃ first last, (tokensOf children).head? = some first ∧
    Token.lastWithText? (tokensOf children) = some last ∧
    ∃ region : Span, region.start = first.outset ∧ region.stop = last.span.stop ∧
      source.slice? region = some (toSource (.node n children))
  line : ∀ first last, (tokensOf children).head? = some first →
    (tokensOf children).getLast? = some last → last.kind ≠ .dedent →
    ∃ text, source.slice? n.span = some text ∧
      toSource (.node n children) = Trivia.spelled first.leading ++ text
  block : ∀ first last, (tokensOf children).head? = some first →
    (tokensOf children).getLast? = some last → last.kind = .dedent →
    ∃ text closing next rest front back, after = closing ++ next :: rest ∧
      (∀ token ∈ closing, token.kind = .dedent) ∧ (next.kind ≠ .indent ∧ next.kind ≠ .dedent) ∧
      next.leading = front ++ back ∧
      source.slice? n.span = some (text ++ Trivia.spelled front) ∧
      toSource (.node n children) = Trivia.spelled first.leading ++ text

theorem Token.Stretch.regenerates {source : Text} {before after : List Token}
    (h : Token.Stretch source before (tokensOf children) after)
    (hspanned : (Outline.node n children).Spanned) : Regenerates source n children after := by
  rw [Outline.Spanned] at hspanned
  obtain ⟨hspans, ⟨solid, hsolid, hwidth⟩, -⟩ := hspanned
  obtain ⟨first, final, hfirst, hfinal, hstart, hstop⟩ := hspans.exact h.row.inOrder
  have hwritten : toSource (.node n children) = Text.ofTokens (tokensOf children) :=
    Outline.toSource_eq _
  constructor
  · obtain ⟨last, hlast⟩ : ∃ last, Token.lastWithText? (tokensOf children) = some last := by
      refine Token.exists_lastWithText? ⟨solid, hsolid, ?_⟩
      rw [ne_eq, h.row.zeroWidth solid hsolid, hwidth]
      exact Bool.false_ne_true
    exact ⟨first, last, hfirst, hlast, _, (h.first_eq hfirst).1.symm, (h.stop_eq hlast).symm,
      h.slice?.trans (congrArg some hwritten.symm)⟩
  · intro head last hhead hlast hkind
    obtain rfl := Option.some.inj (hfirst.symm.trans hhead)
    obtain rfl := Option.some.inj (hfinal.symm.trans hlast)
    have hend := h.stop_eq (h.lastWithText?_eq_final hfinal hkind)
    have hafter : Text.ofTokens after = [] ++ Text.ofTokens after := rfl
    obtain ⟨text, htext, hslice⟩ := h.slice?_inside hfirst hafter hstart (hstop.trans hend)
    rw [List.append_nil] at hslice
    exact ⟨text, hslice, hwritten.trans htext⟩
  · intro head last hhead hlast hkind
    obtain rfl := Option.some.inj (hfirst.symm.trans hhead)
    obtain rfl := Option.some.inj (hfinal.symm.trans hlast)
    obtain ⟨closing, next, rest, front, back, hafter, hclosing, hnext, hleading, hend, later,
      hlater⟩ := h.exists_owner hfinal hkind
    obtain ⟨text, htext, hslice⟩ := h.slice?_inside hfirst hlater hstart (hstop.trans hend)
    exact ⟨text, closing, next, rest, front, back, hafter, hclosing, hnext, hleading, hslice,
      hwritten.trans htext⟩

/-! ## Roots -/

theorem Outline.flatMap_toSource_token (tokens : List Token) :
    (tokens.map Outline.token).flatMap toSource = tokens.flatMap Token.fullText := by
  rw [List.flatMap_map]
  exact List.flatMap_congr fun token _ => toSource_token token

theorem ModuleTree.written_pieces (tree : ModuleTree) : written tree.pieces =
    (tree.statements.flatMap fun s => s.outline.toSource) ++ tree.endOfFile.fullText := by
  rw [Outline.written_eq, pieces, stmtsPieces_eq, List.flatMap_append, List.flatMap_assoc]
  simp [Outline.toSource_token]

theorem ExpressionTree.written_pieces (tree : ExpressionTree) : written tree.pieces =
    tree.body.outline.toSource ++ tree.newlines.flatMap Token.fullText ++
      tree.endOfFile.fullText := by
  rw [Outline.written_eq, pieces, List.flatMap_cons, List.flatMap_append,
    Outline.flatMap_toSource_token]
  simp [Outline.toSource_token]

theorem SignatureTree.written_pieces (tree : SignatureTree) : written tree.pieces =
    tree.opener.fullText ++ (tree.argumentTypes.elim [] fun types => types.outline.toSource) ++
      tree.closer.fullText ++ tree.arrow.fullText ++ tree.result.outline.toSource ++
      tree.newlines.flatMap Token.fullText ++ tree.endOfFile.fullText := by
  rw [Outline.written_eq, pieces, exprOptionPieces_eq]
  cases tree.argumentTypes <;>
    simp [Outline.toSource_token, Outline.flatMap_toSource_token]

/-! ## Trees -/

/-- What a node of a parsed tree writes is a piece of the source, from the trivia in front of its
first token to the end of its last token with text, and a root writes what its parts write. -/
theorem toSource_eq_slice :
    (∀ (options : Options) (t : Text) (span : Span) (pieces : List Outline),
      Parses options t span pieces →
      ∀ n children, (n, children) ∈ nodesOf pieces →
        ∃ before after, tokensOf pieces = before ++ (tokensOf children ++ after) ∧
          Regenerates t n children after) ∧
    (∀ tree : ModuleTree, written tree.pieces =
      (tree.statements.flatMap fun s => s.outline.toSource) ++ tree.endOfFile.fullText) ∧
    (∀ tree : ExpressionTree, written tree.pieces =
      tree.body.outline.toSource ++ tree.newlines.flatMap Token.fullText ++
        tree.endOfFile.fullText) ∧
    ∀ tree : SignatureTree, written tree.pieces =
      tree.opener.fullText ++ (tree.argumentTypes.elim [] fun types => types.outline.toSource) ++
        tree.closer.fullText ++ tree.arrow.fullText ++ tree.result.outline.toSource ++
        tree.newlines.flatMap Token.fullText ++ tree.endOfFile.fullText := by
  constructor
  · intro options t span pieces h n children hmem
    obtain ⟨before, after, htokens, hstretch⟩ := h.stretch hmem
    have hspanned := h.holds.spanned.of_mem_nodesOf hmem
    exact ⟨before, after, htokens, hstretch.regenerates hspanned⟩
  · exact ⟨ModuleTree.written_pieces, ExpressionTree.written_pieces, SignatureTree.written_pieces⟩

/-- A block in front of a comment that belongs to the statement after it. -/
theorem toSource_eq_slice_of_while :
    ∃ tree, parseModule {} "while 1:\n 2\n# a\n3\n".toList = .ok tree ∧
      ∀ n children, (n, children) ∈ nodesOf tree.pieces →
        ∃ after, Regenerates "while 1:\n 2\n# a\n3\n".toList n children after := by
  have hparses : (parseModule {} "while 1:\n 2\n# a\n3\n".toList).toOption.isSome = true := by
    decide +kernel
  rcases htree : parseModule {} "while 1:\n 2\n# a\n3\n".toList with error | tree
  · rw [htree] at hparses
    cases hparses
  · refine ⟨tree, rfl, fun n children hmem => ?_⟩
    obtain ⟨before, after, -, hregenerates⟩ :=
      toSource_eq_slice.1 {} _ tree.span tree.pieces (.module htree) n children hmem
    exact ⟨after, hregenerates⟩

/-- Where two blocks end together, the token behind the inner one is the end of the outer one,
and the comment that both spans go on over is not in front of it. -/
theorem comment_behind_nested_blocks :
    ∃ tree n children before next after,
      parseModule {} "if a:\n if b:\n  c\n#".toList = .ok tree ∧
      (n, children) ∈ nodesOf tree.pieces ∧
      tokensOf tree.pieces = before ++ (tokensOf children ++ next :: after) ∧
      (∃ final, (tokensOf children).getLast? = some final ∧ final.kind = .dedent) ∧
      (∃ last, Token.lastWithText? (tokensOf children) = some last ∧
        last.span.stop < n.span.stop) ∧
      next.leading = [] := by
  have hfound : ((parseModule {} "if a:\n if b:\n  c\n#".toList).toOption.any fun tree =>
      (nodesOf tree.pieces).any fun p =>
        (tokensOf tree.pieces == (tokensOf tree.pieces).take 5 ++
          (tokensOf p.2 ++ (tokensOf tree.pieces).drop 13)) &&
        ((tokensOf p.2).getLast?.any fun final => final.kind == .dedent) &&
        ((Token.lastWithText? (tokensOf p.2)).any fun last =>
          decide (last.span.stop < p.1.span.stop)) &&
        ((tokensOf tree.pieces).drop 13).head?.any fun next => next.leading.isEmpty) = true := by
    decide +kernel
  rcases htree : parseModule {} "if a:\n if b:\n  c\n#".toList with error | tree
  · rw [htree] at hfound
    cases hfound
  · rw [htree] at hfound
    obtain ⟨⟨n, children⟩, hmem, hnode⟩ := List.any_eq_true.mp hfound
    simp only [Bool.and_eq_true, beq_iff_eq, Option.any_eq_true, decide_eq_true_eq,
      List.isEmpty_iff] at hnode
    obtain ⟨⟨⟨htokens, hfinal⟩, hlast⟩, next, hnext, hleading⟩ := hnode
    obtain ⟨after, hafter⟩ := List.head?_eq_some_iff.mp hnext
    rw [hafter] at htokens
    exact ⟨tree, n, children, _, next, after, rfl, hmem, htokens, hfinal, hlast, hleading⟩

end Verbatim
