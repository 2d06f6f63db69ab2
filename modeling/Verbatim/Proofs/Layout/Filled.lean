import Mathlib.Data.List.Chain
import Verbatim.Proofs.Derivation.Root
import Verbatim.Proofs.Layout.Turn

/-!
# Blocks with nothing inside

A block is opened by the first line of a greater column, and that line has a token of its own
unless all there is of it is a backslash and the line break behind it. At the end of the text
the block is then closed with no statement inside. The trivia of the last token tells:
where it holds no joined line, every block of a module has a statement.
-/

namespace Verbatim

open Outline (tokensOf Every)

namespace Token

/-- No block is closed right after it is opened. -/
def Filled (tokens : List Token) : Prop :=
  tokens.IsChain fun a b => a.kind = .indent → b.kind ≠ .dedent

theorem Filled.of_append {ts us : List Token} (h : Filled (ts ++ us)) : Filled ts ∧ Filled us :=
  ⟨List.IsChain.left_of_append h, List.IsChain.right_of_append h⟩

theorem not_filled (before : List Token) {after : List Token} {opener closer : Token}
    (hopener : opener.kind = .indent) (hcloser : closer.kind = .dedent) :
    ¬ Filled (before ++ opener :: closer :: after) := by
  intro h
  have hpair := (List.isChain_cons_cons.mp h.of_append.2).1
  exact hpair hopener hcloser

/-- The last line before the token is joined to what comes after it. -/
def Continues (token : Token) : Prop :=
  ∃ t ∈ token.leading, t.kind = .lineContinuation

end Token

namespace Scanner

variable {s u : Scanner} {token : Token} {t : Trivia}

/-! ## Trivia on its way to a token -/

theorem waiting_of_dedent (h : s.next = (.ok token, u)) (hkind : token.kind = .dedent)
    (ht : t ∈ s.settled.waiting) : t ∈ u.waiting := by
  have houtcome := s.outcome_next
  rw [h] at houtcome
  cases houtcome with
  | marker kind isMarker place => rwa [place.waiting]
  | lexeme kind text noMarker => exact absurd hkind noMarker.2

theorem leading_of_endOfFile (h : s.next = (.ok token, u)) (hkind : token.kind = .endOfFile)
    (ht : t ∈ s.settled.waiting) : t ∈ token.leading := by
  have houtcome := s.outcome_next
  rw [h] at houtcome
  cases houtcome with
  | marker kind isMarker place =>
    have hkind : kind = .endOfFile := hkind
    rw [hkind] at isMarker
    rcases isMarker with hmarker | hmarker <;> cases hmarker
  | lexeme => exact ht

theorem waiting_settled (ht : t ∈ s.waiting) : t ∈ s.settled.waiting := by
  obtain ⟨ts, hgathers⟩ := s.gathers_settled
  rw [hgathers.waiting]
  exact List.mem_append_left ts ht

/-- Past the end of the text only the last token can take what waits. -/
theorem Scans.leading {tokens : List Token} {failure : Option LexicalError}
    (h : s.Scans tokens failure) (hs : s.Ended) (hnone : failure = none) (ht : t ∈ s.waiting) :
    ∃ last ∈ tokens, last.kind = .endOfFile ∧ t ∈ last.leading := by
  induction h with
  | fault => cases hnone
  | @done s u last hnext hlast =>
    have hleading := leading_of_endOfFile hnext hlast (waiting_settled ht)
    exact ⟨last, List.mem_singleton_self last, hlast, hleading⟩
  | step hnext hkind _ ih =>
    obtain ⟨hended, hdedent⟩ := hs.next hnext
    have hwaiting := waiting_of_dedent hnext (hdedent.resolve_right hkind) (waiting_settled ht)
    obtain ⟨last, hmem, hlast⟩ := ih hended hnone hwaiting
    exact ⟨last, List.mem_cons_of_mem _ hmem, hlast⟩

theorem mem_waiting_passTrivia {kind : TriviaKind} {n : Nat}
    (h : s.triviaAhead? = some (kind, n)) : ∃ t ∈ s.passTrivia.waiting, t.kind = kind := by
  obtain ⟨hpos, hne, -⟩ := triviaAhead?_eq_some h
  obtain ⟨m, hm⟩ := Nat.exists_eq_succ_of_ne_zero (List.length_pos_iff.mpr hne).ne'
  obtain ⟨ts, hgathers⟩ := gathers_passTriviaUpTo m (s.keep kind n)
  have hpass : s.passTrivia = passTriviaUpTo m (s.keep kind n) := by
    rw [passTrivia, hm, passTriviaUpTo, h]
  refine ⟨⟨kind, s.spanOfNext n, s.rest.take n⟩, ?_, rfl⟩
  rw [hpass, hgathers.waiting, keep, if_neg (by omega)]
  simp

/-! ## Blocks that are closed as they are opened -/

variable {tabSize : Nat} {layout : Layout}

/-- The scanner has just given the marker of a block that the line here has opened. -/
structure Opened (s : Scanner) : Prop where
  atLineStart : s.atLineStart = false
  scheduled : s.scheduled = .dedents 0
  brackets : s.brackets = []
  first : s.AtFirst

theorem opened_of_indent (hs : s.Steady) (hlaid : Laid tabSize s layout)
    (h : s.next = (.ok token, u)) (hkind : token.kind = .indent) : u.Opened := by
  have hturn := hs.turn
  rw [h] at hturn
  cases hturn with
  | dedent closed kind => simp [kind] at hkind
  | token takes => exact absurd hkind takes.notIndent
  | indent kind columns deeper before scheduled outside brackets atLineStart =>
    rcases hlaid.next h with ⟨next, hstep, hnext⟩ | ⟨-, hother⟩
    · have hplace : next.place = .lineStart := by
        cases hstep with
        | indent => rfl
        | dedent => rfl
        | first hwidth => simp [hkind, TokenKind.isZeroWidth] at hwidth
        | more hwidth => simp [hkind, TokenKind.isZeroWidth] at hwidth
      cases hnext with
      | start htabSize hstart => simp [atLineStart] at hstart
      | indent hu hindent => simp [scheduled] at hindent
      | dedents hu hdedents => exact ⟨atLineStart, scheduled, brackets, hu.first⟩
      | inside => cases hplace
    · rw [hkind] at hother
      rcases hother with hother | hother <;> cases hother

/-- The only trivia that such a line can begin with is a joined line break. -/
theorem Opened.triviaAhead? {kind : TriviaKind} {n : Nat} (hs : s.Opened)
    (h : s.triviaAhead? = some (kind, n)) : kind = .lineContinuation := by
  unfold Scanner.triviaAhead? at h
  split at h
  · cases h
  · next c rest hrest =>
    have hblank := hs.first.head c (by rw [hrest]; rfl)
    have hhash : c ≠ '#' := by
      rintro rfl
      exact hs.first.noComment (by rw [hrest]; rfl)
    rw [if_neg (by simp [hblank]), if_neg hhash] at h
    split at h
    · split at h
      · cases h
      · cases h
        rfl
    · simp [hs.brackets] at h

/-- A line that opens a block and has no token of its own is joined to the end of the text. -/
theorem Opened.ends (hs : s.Opened) (h : s.next = (.ok token, u)) (hkind : token.kind = .dedent) :
    u.Ended ∧ ∃ t ∈ u.waiting, t.kind = .lineContinuation := by
  have hscan := h
  rw [next_eq_of_atLineStart hs.atLineStart, hs.scheduled] at hscan
  obtain ⟨-, same, stops⟩ := s.settles_passTrivia
  have hstart := same.atLineStart.trans hs.atLineStart
  have hended := scanToken_eq_ok stops hstart (same.scheduled.trans hs.scheduled) hscan
  have hnot : ¬ s.passTrivia.TakesFrom token u := by
    intro htakes
    have hwidth := htakes.isZeroWidth
    rw [hkind] at hwidth
    cases hwidth
  have hrest : s.passTrivia.rest = [] := by
    by_contra hne
    exact hnot (takesFrom_scanToken stops hstart hne hscan)
  refine ⟨(hended.resolve_left hnot).1, ?_⟩
  cases hahead : s.triviaAhead? with
  | none =>
    rw [passTrivia_of_none hahead] at hrest
    exact absurd hrest hs.first.rest_ne_nil
  | some ahead =>
    obtain ⟨kind, n⟩ := ahead
    obtain ⟨t, ht, htkind⟩ := mem_waiting_passTrivia hahead
    have hsettled : s.settled = s.passTrivia := by
      simp [settled, enterLineIfDue, hs.atLineStart, hs.scheduled]
    rw [← hsettled] at ht
    exact ⟨t, waiting_of_dedent h hkind ht, htkind.trans (hs.triviaAhead? hahead)⟩

/-- The scanner stands in some layout, or the text has ended. -/
def Placed (tabSize : Nat) (s : Scanner) : Prop :=
  s.Ended ∨ ∃ layout, Laid tabSize s layout

theorem Placed.next (hs : Placed tabSize s) (h : s.next = (.ok token, u)) : Placed tabSize u := by
  rcases hs with hs | ⟨layout, hs⟩
  · exact .inl (hs.next h).1
  · rcases hs.next h with ⟨next, -, hnext⟩ | ⟨hended, -⟩
    · exact .inr ⟨next, hnext⟩
    · exact .inl hended

theorem Placed.opened (hs : Placed tabSize s) (hsteady : s.Steady) (h : s.next = (.ok token, u))
    (hkind : token.kind = .indent) : u.Opened := by
  rcases hs with hs | ⟨layout, hs⟩
  · rcases (hs.next h).2 with hother | hother <;> simp [hkind] at hother
  · exact opened_of_indent hsteady hs h hkind

/-- In a run to the end of the text no block is closed as it is opened, unless a joined line break
is left over for the last token. -/
theorem Scans.filled {tokens : List Token} {failure : Option LexicalError}
    (h : s.Scans tokens failure) (hs : Placed tabSize s) (hsteady : s.Steady)
    (hnone : failure = none)
    (hlast : ∀ last ∈ tokens, last.kind = .endOfFile → ¬ last.Continues) :
    Token.Filled tokens := by
  induction h with
  | fault => exact List.IsChain.nil
  | done => exact List.IsChain.singleton _
  | @step s u token tokens failure hnext hkind hrest ih =>
    have hturn := hsteady.turn
    rw [hnext] at hturn
    obtain ⟨-, hlast⟩ := List.forall_mem_cons.mp hlast
    have htail := ih (hs.next hnext) (hsteady.of_turn hturn) hnone hlast
    cases tokens with
    | nil => exact List.IsChain.singleton _
    | cons second rest =>
      refine List.isChain_cons_cons.mpr ⟨fun hindent hdedent => ?_, htail⟩
      have hopened := hs.opened hsteady hnext hindent
      cases hrest with
      | done _ hend =>
        rw [hdedent] at hend
        cases hend
      | step hsecond _ hrest =>
        obtain ⟨hended, t, ht, htkind⟩ := hopened.ends hsecond hdedent
        obtain ⟨last, hmem, hend, hleading⟩ := hrest.leading hended hnone ht
        exact hlast last (List.mem_cons_of_mem _ hmem) hend ⟨t, hleading, htkind⟩

end Scanner

theorem TokenRun.filled {options : Options} {t : Text} {tokens : List Token}
    (h : tokenize options t = .ok tokens)
    (hlast : ∀ last ∈ tokens, last.kind = .endOfFile → ¬ last.Continues) :
    Token.Filled tokens := by
  obtain ⟨hnone, rfl⟩ := tokenize_eq_ok_iff.mp h
  have hplaced : Scanner.Placed options.effectiveTabSize (Scanner.ofText options t) :=
    .inr ⟨_, .start rfl rfl rfl rfl rfl⟩
  exact (TokenRun.scans options t).filled hplaced (Scanner.steady_ofText options t) hnone hlast

/-! ## Blocks of a tree -/

namespace Event

def NoEmptyBlock : Event → Prop
  | enter (.block _ statements) => statements ≠ []
  | _ => True

end Event

namespace Outline

/-- Every block inside has a statement, if no token closes a block right after it is opened. -/
def FillsBlocks (pieces : List Outline) : Prop :=
  Token.Filled (tokensOf pieces) → Every Event.NoEmptyBlock pieces

theorem fillsBlocks_token (t : Token) : FillsBlocks [.token t] :=
  fun _ => every_token.mpr ⟨trivial, every_nil⟩

theorem FillsBlocks.append {left right : List Outline} (hleft : FillsBlocks left)
    (hright : FillsBlocks right) : FillsBlocks (left ++ right) := by
  intro h
  rw [tokensOf_append] at h
  exact every_append.mpr ⟨hleft h.of_append.1, hright h.of_append.2⟩

theorem FillsBlocks.node {n : Node} {children : List Outline} (hchildren : FillsBlocks children)
    (hn : Token.Filled (tokensOf children) → Event.NoEmptyBlock (.enter n)) :
    FillsBlocks [.node n children] := by
  intro h
  rw [tokensOf_node] at h
  exact every_node.mpr ⟨⟨hn h, hchildren h, trivial⟩, every_nil⟩

theorem fillsBlocks_composes : ComposesBlocks FillsBlocks := by
  have hlines : Composes FillsBlocks := by
    constructor
    · exact fun _ => every_nil
    · exact FillsBlocks.append
    · exact fun _ => fillsBlocks_token _
    · intro b opener closer body _ _ hbody
      exact (fillsBlocks_token opener).append (hbody.append (fillsBlocks_token closer))
    · intro n children _ hblock _ hchildren
      refine hchildren.node fun _ => ?_
      cases n with
      | block => cases hblock
      | _ => exact trivial
    · intro span children hchildren h
      rw [tokensOf_part] at h
      exact every_part.mpr ⟨hchildren h, every_nil⟩
  constructor
  · exact hlines
  · exact fun _ => fillsBlocks_token _
  · intro span typeComment newline indent dedent statements hcomment hnewline hindent hdedent _
      hstatements
    have hmark (t : Token) (_ : t.kind.isStructural = true) := fillsBlocks_token t
    have hchildren := hlines.block_pieces hmark hcomment hnewline hindent hdedent hstatements
    refine hchildren.node fun hfilled hnone => ?_
    subst hnone
    -- without a statement the two markers of the block stand side by side
    rw [tokensOf_append] at hfilled
    exact Token.not_filled [newline] hindent hdedent hfilled.of_append.2

end Outline

theorem ModuleTree.eq_endOfFile {options : Options} {t : Text} {tree : ModuleTree}
    (h : parseModule options t = .ok tree) {last : Token} (hmem : last ∈ tokensOf tree.pieces)
    (hend : last.kind = .endOfFile) : last = tree.endOfFile := by
  obtain ⟨before, final, htokens, -, hbefore⟩ := (Parses.module h).holds.endsInside
  have hpieces :
      tokensOf tree.pieces = tokensOf (stmtsPieces tree.statements) ++ [tree.endOfFile] :=
    Outline.tokensOf_append _ _
  rw [htokens] at hpieces hmem
  have hfinal : final = tree.endOfFile := by
    simpa using (List.append_inj' hpieces rfl).2
  rcases List.mem_append.mp hmem with hmem | hmem
  · exact absurd hend (hbefore last hmem)
  · exact (List.mem_singleton.mp hmem).trans hfinal

/-- The blocks of a module have statements in them, unless its last token has a joined line break
in front of it. -/
theorem block_statements_ne_nil {options : Options} {t : Text} {tree : ModuleTree}
    (h : parseModule options t = .ok tree) (hlast : ¬ tree.endOfFile.Continues) :
    ∀ span statements, Event.enter (.block span statements) ∈ Outline.eventsOf tree.pieces →
      statements ≠ [] := by
  have hparses := Parses.module h
  have hfilled : Token.Filled (tokensOf tree.pieces) := by
    refine TokenRun.filled hparses.holds.tokenize_eq fun last hmem hend => ?_
    rwa [ModuleTree.eq_endOfFile h hmem hend]
  intro span statements hevent
  exact hparses.composes Outline.fillsBlocks_composes hfilled _ hevent

/-- A joined line inside a block, and a comment as the last line of the text. -/
theorem block_statements_ne_nil_of_while :
    ∃ tree, parseModule {} "while a:\n \\\n b\n # c".toList = .ok tree ∧
      ∀ span statements, Event.enter (.block span statements) ∈ Outline.eventsOf tree.pieces →
        statements ≠ [] := by
  have hlast : ((parseModule {} "while a:\n \\\n b\n # c".toList).toOption.any fun tree =>
      tree.endOfFile.leading.all fun t => t.kind != .lineContinuation) = true := by
    decide +kernel
  rcases htree : parseModule {} "while a:\n \\\n b\n # c".toList with error | tree
  · rw [htree] at hlast
    cases hlast
  · rw [htree] at hlast
    refine ⟨tree, rfl, block_statements_ne_nil htree ?_⟩
    rintro ⟨trivia, hmem, hkind⟩
    have hall := List.all_eq_true.mp hlast trivia hmem
    rw [hkind] at hall
    cases hall

def Event.isEmptyBlock : Event → Bool
  | enter (.block _ []) => true
  | _ => false

/-- A joined line break at the end of the text opens a block all the same. -/
theorem empty_block_of_joined_line :
    ∃ tree, parseModule {} "if x:\n \\\n".toList = .ok tree ∧
      ∃ span, Event.enter (.block span []) ∈ Outline.eventsOf tree.pieces := by
  have hempty : ((parseModule {} "if x:\n \\\n".toList).toOption.any fun tree =>
      (Outline.eventsOf tree.pieces).any Event.isEmptyBlock) = true := by
    decide +kernel
  rcases htree : parseModule {} "if x:\n \\\n".toList with error | tree
  · rw [htree] at hempty
    cases hempty
  · rw [htree] at hempty
    obtain ⟨event, hmem, hevent⟩ := List.any_eq_true.mp hempty
    unfold Event.isEmptyBlock at hevent
    split at hevent
    · exact ⟨tree, rfl, _, hmem⟩
    · cases hevent

end Verbatim
