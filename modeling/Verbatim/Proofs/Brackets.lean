import Verbatim.Proofs.Derivation.Root
import Verbatim.Proofs.Layout.Turn

/-!
# Brackets close

The scanner keeps a stack of open brackets, and the grammar nests them in a tree. As long as
no step fails, the stack is what the tokens so far have opened and not closed; while it is not
empty, the scanner gives no token that would end or begin a line. A source that parses has a tree
in which each bracket is closed by one of its shape, so the scanner is left with an empty stack.
-/

namespace Verbatim

open Outline (tokensOf)

/-! ## The stack of the scanner -/

namespace Scanner

variable {s u : Scanner} {token : Token}

theorem Turn.track (h : s.Turn (.ok token, u)) : token.track s.brackets = some u.brackets := by
  cases h with
  | indent kind columns deeper before scheduled outside brackets =>
    rw [Token.track_of_no_bracket (by rw [kind]; rfl) (by rw [kind]; rfl), outside, brackets]
  | dedent closed kind columns before scheduled due brackets =>
    rw [Token.track_of_no_bracket (by rw [kind]; rfl) (by rw [kind]; rfl), brackets]
  | token takes => exact takes.track

/-- What a token may be while some bracket is open. -/
structure Joined (token : Token) (u : Scanner) : Prop where
  newline : token.kind ≠ .newline
  indent : token.kind ≠ .indent
  typeComment : token.kind ≠ .typeComment
  dedent : token.kind = .dedent → u.rest = []

theorem Turn.joined (h : s.Turn (.ok token, u)) (hopen : s.brackets ≠ []) : Joined token u := by
  cases h with
  | indent kind columns deeper before scheduled outside => exact absurd outside hopen
  | dedent closed kind columns before scheduled due brackets outside =>
    constructor
    · simp [kind]
    · simp [kind]
    · simp [kind]
    · rw [brackets] at outside
      exact fun _ => outside.resolve_left hopen
  | token takes =>
    constructor
    · exact fun hkind => hopen (takes.outside (.inl hkind))
    · exact takes.notIndent
    · exact fun hkind => hopen (takes.outside (.inr hkind))
    · exact fun hkind => absurd hkind takes.notDedent

theorem Attempts.trackAll {options : Options} {t : Text} {scans : List Scan}
    (h : (Scanner.ofText options t).Attempts scans u)
    (hclean : ∀ scan ∈ scans, scan.fault? = none) :
    Token.trackAll [] (scans.filterMap Scan.token?) = some u.brackets := by
  induction h with
  | refl => rfl
  | @snoc v w scans result before next ih =>
    obtain ⟨hbefore, hlast⟩ := List.forall_mem_append.mp hclean
    cases result with
    | error error => simp [Scan.ofStep, Scan.fault?] at hlast
    | ok token =>
      have hturn := before.steady.turn
      rw [next] at hturn
      rw [List.filterMap_append, Token.trackAll_append (ih hbefore)]
      exact Token.trackAll_singleton.trans hturn.track

theorem Steps.trackAll {options : Options} {t : Text} {tokens : List Token}
    (h : (Scanner.ofText options t).Steps tokens u) :
    Token.trackAll [] tokens = some u.brackets := by
  have htrack := h.attempts.trackAll (by simp [Scan.fault?])
  have htokens : (tokens.map Scan.token).filterMap Scan.token? = tokens := by
    rw [List.filterMap_map]
    exact List.filterMap_some
  rwa [htokens] at htrack

end Scanner

/-! ## The brackets of a tree -/

theorem TokenKind.brackets_of_isOrdinary {kind : TokenKind} (h : kind.isOrdinary = true) :
    kind.opens? = none ∧ kind.closes? = none := by
  simp only [isOrdinary, Bool.and_eq_true, Option.isNone_iff_eq_none] at h
  exact ⟨h.1.2, h.2⟩

theorem TokenKind.brackets_of_isStructural {kind : TokenKind} (h : kind.isStructural = true) :
    kind.opens? = none ∧ kind.closes? = none := by
  cases kind <;> first | decide | cases h

/-- Each bracket in a derived tree is closed by one of its shape, inside the same node. -/
theorem Outline.closed_composes : ComposesBlocks fun pieces => Token.Closed (tokensOf pieces) := by
  have hlines : Composes fun pieces => Token.Closed (tokensOf pieces) := by
    constructor
    · exact Token.closed_nil
    · intro left right hleft hright
      rw [tokensOf_append]
      exact Token.closed_append hleft hright
    · intro t hordinary
      obtain ⟨hopens, hcloses⟩ := TokenKind.brackets_of_isOrdinary hordinary
      exact Token.closed_singleton hopens hcloses
    · intro b opener closer body hopener hcloser hbody
      rw [← List.singleton_append, tokensOf_append, tokensOf_append]
      exact Token.closed_enclosed hopener hcloser hbody
    · intro n children _ _ _ hchildren
      exact Token.closed_append hchildren Token.closed_nil
    · intro span children hchildren
      exact Token.closed_append hchildren Token.closed_nil
  have hmark (t : Token) (ht : t.kind.isStructural = true) :
      Token.Closed (tokensOf [.token t]) := by
    obtain ⟨hopens, hcloses⟩ := TokenKind.brackets_of_isStructural ht
    exact Token.closed_singleton hopens hcloses
  constructor
  · exact hlines
  · rintro t (hkind | hkind)
    · exact hmark t (by rw [hkind]; rfl)
    · exact hmark t (by rw [hkind]; rfl)
  · intro span typeComment newline indent dedent statements hcomment hnewline hindent hdedent _
      hstatements
    have hchildren := hlines.block_pieces hmark hcomment hnewline hindent hdedent hstatements
    exact Token.closed_append hchildren Token.closed_nil

/-! ## Accounts -/

/-- What the scans so far tell of the open brackets, and the next one of what may come. -/
structure BracketAccount (scans : List Scan) (look : Lookahead) : Prop where
  depth : look.scanner.bracketDepth ≤ Bracket.maxDepth
  opened : (∀ scan ∈ scans, scan.fault? = none) →
    Token.trackAll [] (scans.filterMap Scan.token?) = some look.scanner.brackets
  joined : look.scanner.brackets ≠ [] → ∀ token, look.scan = .token token →
    Scanner.Joined token look.advance.2.scanner

theorem Lookahead.brackets_of_ofText {options : Options} {source : Text} {look : Lookahead}
    (h : ofText options source = .ok look) (n : Nat) :
    BracketAccount (.token look.current :: look.scans n) (look.after n) := by
  have hattempts := attempts_of_ofText h n
  constructor
  · exact hattempts.steady.depth
  · exact hattempts.trackAll
  · intro hopen token hscan
    have hturn := hattempts.steady.turn
    rw [scan_eq] at hscan
    rw [scanner_advance]
    rcases hnext : (look.after n).scanner.next with ⟨result, u⟩
    rw [hnext] at hturn hscan
    cases result with
    | error error => cases hscan
    | ok other =>
      cases hscan
      exact hturn.joined hopen

theorem Parses.brackets_closed {options : Options} {source : Text} {span : Span}
    {pieces : List Outline} (h : Parses options source span pieces) :
    Token.trackAll [] (tokensOf pieces) = some [] ∧
      ∃ u, (Scanner.ofText options source).Steps (tokensOf pieces) u ∧ u.brackets = [] := by
  have hclosed : Token.trackAll [] (tokensOf pieces) = some [] :=
    h.composes Outline.closed_composes []
  obtain ⟨u, hsteps⟩ := h.holds.steps
  refine ⟨hclosed, u, hsteps, ?_⟩
  have htrack := hsteps.trackAll
  rw [hclosed, Option.some.injEq] at htrack
  exact htrack.symm

/-- Every state of a lookahead keeps account of the open brackets, and a source that parses
leaves none open. -/
theorem brackets_match (options : Options) (source : Text) :
    (∀ look, Lookahead.ofText options source = .ok look →
      ∀ n, BracketAccount (.token look.current :: look.scans n) (look.after n)) ∧
    ∀ span pieces, Parses options source span pieces →
      Token.trackAll [] (tokensOf pieces) = some [] ∧
        ∃ u, (Scanner.ofText options source).Steps (tokensOf pieces) u ∧ u.brackets = [] := by
  constructor
  · intro look hlook n
    exact Lookahead.brackets_of_ofText hlook n
  · intro span pieces hparses
    exact hparses.brackets_closed

/-- Two brackets are open across a line break, and the module closes both. -/
theorem brackets_match_of_call :
    ∃ look tree, Lookahead.ofText {} "f(a[\n0])\n".toList = .ok look ∧
      BracketAccount (.token look.current :: look.scans 4) (look.after 4) ∧
      (look.after 4).scanner.brackets = [(.square, 3), (.paren, 1)] ∧
      parseModule {} "f(a[\n0])\n".toList = .ok tree ∧
      Token.trackAll [] (tokensOf tree.pieces) = some [] := by
  obtain ⟨hstate, hparsed⟩ := brackets_match {} "f(a[\n0])\n".toList
  have hopen : ((Lookahead.ofText {} "f(a[\n0])\n".toList).toOption.map fun look =>
      (look.after 4).scanner.brackets) = some [(.square, 3), (.paren, 1)] := by
    decide +kernel
  have hparses : (parseModule {} "f(a[\n0])\n".toList).toOption.isSome = true := by
    decide +kernel
  rcases hlook : Lookahead.ofText {} "f(a[\n0])\n".toList with error | look
  · rw [hlook] at hopen
    cases hopen
  rcases htree : parseModule {} "f(a[\n0])\n".toList with error | tree
  · rw [htree] at hparses
    cases hparses
  rw [hlook, Except.toOption, Option.map_some, Option.some.injEq] at hopen
  have hclosed := (hparsed tree.span tree.pieces (.module htree)).1
  exact ⟨look, tree, rfl, hstate look hlook 4, hopen, rfl, hclosed⟩

end Verbatim
