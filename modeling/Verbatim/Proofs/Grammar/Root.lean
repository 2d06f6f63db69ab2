import Verbatim.Parse
import Verbatim.Proofs.Grammar.Statement
import Verbatim.Proofs.Scanner.Order

/-!
# Roots hold all tokens of their source

A root goes down to the end of its source, so the tokens that it holds are those of the
whole run of the scanner.
-/

namespace Verbatim

/-- The span and the pieces of a tree that a source parses to, from any of the entry points. -/
inductive Parses (options : Options) (t : Text) : Span → List Outline → Prop
  | module {tree : ModuleTree} (h : parseModule options t = .ok tree) :
      Parses options t tree.span tree.pieces
  | expression {tree : ExpressionTree} (h : parseExpression options t = .ok tree) :
      Parses options t tree.span tree.pieces
  | signature {tree : SignatureTree} (h : parseSignature options t = .ok tree) :
      Parses options t tree.span tree.pieces

open Outline (tokensOf AllSpanned)

/-- Some pieces are read and the end of the source comes next. -/
def Stream.Finishes (s : Stream) (span : Span) (pieces : List Outline) : Prop :=
  ∃ before u, s.Reads before u ∧ u.current.kind = .endOfFile ∧
    pieces = before ++ [.token u.current] ∧
    span = Span.upTo s.current.span.start u.current.span.stop

namespace Parser

theorem endOfFile_eq_ok {s u : Stream} {t : Token} (h : endOfFile s = .ok (t, u)) :
    t = s.current ∧ t.kind = .endOfFile ∧ u.lastEnd = t.span.stop := by
  unfold endOfFile at h
  split at h
  · next hkind =>
    cases h
    exact ⟨rfl, hkind, rfl⟩
  · exact absurd h fail_ne_ok

/-- The last steps of a root: the end of the source, and the span of the whole. -/
theorem finishes {α : Type} {s v u : Stream} {before : List Outline} {root : α}
    {span : α → Span} {pieces : α → List Outline} (make : Span → Token → α)
    (hs : s.Reads before v)
    (h : (do
      let last ← endOfFile
      return make (← spanFrom s.current.span.start) last) v = .ok (root, u))
    (hspan : ∀ a t, span (make a t) = a)
    (hpieces : ∀ a t, pieces (make a t) = before ++ [.token t]) :
    s.Finishes (span root) (pieces root) := by
  obtain ⟨last, w, hlast, h⟩ := bind_eq_ok.mp h
  obtain ⟨rfl, hkind, hend⟩ := endOfFile_eq_ok hlast
  obtain ⟨a, _, ha, h⟩ := bind_eq_ok.mp h
  cases ha
  cases pure_eq_ok.mp h
  refine ⟨before, v, hs, hkind, hpieces _ _, ?_⟩
  rw [hspan, hend]

end Parser

namespace Grammar

open Verbatim.Parser

theorem finishes_moduleRoot {s u : Stream} {tree : ModuleTree}
    (h : moduleRoot s = .ok (tree, u)) : s.Finishes tree.span tree.pieces := by
  obtain ⟨_, _, hstart, h⟩ := bind_eq_ok.mp h
  cases hstart
  obtain ⟨statements, v, hstatements, h⟩ := bind_eq_ok.mp h
  have hread := yields_many (yields_startedBy yields_statement) _ _ _ hstatements
  refine finishes (fun span last => ⟨span, statements, last⟩) hread h
    (fun _ _ => rfl) fun _ _ => ?_
  simp [ModuleTree.pieces, stmtsPieces_eq]

theorem finishes_expressionRoot {s u : Stream} {tree : ExpressionTree}
    (h : expressionRoot s = .ok (tree, u)) : s.Finishes tree.span tree.pieces := by
  obtain ⟨_, _, hstart, h⟩ := bind_eq_ok.mp h
  cases hstart
  obtain ⟨body, v, hbody, h⟩ := bind_eq_ok.mp h
  obtain ⟨newlines, w, hnewlines, h⟩ := bind_eq_ok.mp h
  have hread := (yields_aTestList _ _ _ hbody).trans
    (yields_many (yields_startedBy yields_bump) _ _ _ hnewlines)
  refine finishes (fun span last => ⟨span, body, newlines, last⟩) hread h
    (fun _ _ => rfl) fun _ _ => ?_
  simp [ExpressionTree.pieces, List.map_eq_flatMap]

theorem finishes_signatureRoot {s u : Stream} {tree : SignatureTree}
    (h : signatureRoot s = .ok (tree, u)) : s.Finishes tree.span tree.pieces := by
  obtain ⟨_, _, hstart, h⟩ := bind_eq_ok.mp h
  cases hstart
  obtain ⟨opener, s₁, hopener, h⟩ := bind_eq_ok.mp h
  obtain ⟨arguments, s₂, harguments, h⟩ := bind_eq_ok.mp h
  obtain ⟨closer, s₃, hcloser, h⟩ := bind_eq_ok.mp h
  obtain ⟨arrow, s₄, harrow, h⟩ := bind_eq_ok.mp h
  obtain ⟨result, s₅, hresult, h⟩ := bind_eq_ok.mp h
  obtain ⟨newlines, s₆, hnewlines, h⟩ := bind_eq_ok.mp h
  have hoptional := yields_optional
    (yields_startedBy (yields_withRules fun _ h => yields_typeList h)) _ _ _ harguments
  have hread := (yields_expect _ _ _ _ hopener).trans (hoptional.trans
    ((yields_expect _ _ _ _ hcloser).trans ((yields_expect _ _ _ _ harrow).trans
      ((yields_aTest _ _ _ hresult).trans
        (yields_many (yields_startedBy yields_bump) _ _ _ hnewlines)))))
  refine finishes
    (fun span last => ⟨span, opener, arguments, closer, arrow, result, newlines, last⟩)
    hread h (fun _ _ => rfl) fun _ _ => ?_
  simp [SignatureTree.pieces, exprOptionPieces_eq, List.map_eq_flatMap]

end Grammar

/-! ## The stream of a source -/

/-- Unless the run fails at once, the stream of a source has the tokens of the whole run. -/
theorem Stream.ofRun_eq_ok {options : Options} {t : Text} {s : Stream}
    (h : Stream.ofRun (TokenRun.ofText options t) = .ok s) :
    s.tokens = (TokenRun.ofText options t).tokens ∧
      s.failure = (TokenRun.ofText options t).failure := by
  unfold Stream.ofRun at h
  split at h
  · next token tokens failure htokens =>
    cases h
    exact ⟨htokens.symm, rfl⟩
  · cases h
  · next htokens hfailure => exact absurd htokens (Scanner.run_succ_ne_nil hfailure)

theorem parseWith_eq_ok {α : Type} {root : Parser α} {options : Options} {t : Text} {tree : α}
    (h : parseWith root options t = .ok tree) :
    ∃ s u, Stream.ofRun (TokenRun.ofText options t) = .ok s ∧ root s = .ok (tree, u) := by
  unfold parseWith at h
  split at h
  · cases h
  · next s hs =>
    rcases hroot : root s with error | ⟨a, u⟩
    · rw [hroot] at h
      cases h
    · rw [hroot] at h
      cases h
      exact ⟨s, u, hs, hroot⟩

theorem exists_eq_ok_of_any {ε α : Type} {result : Except ε α} {p : α → Bool}
    (h : result.toOption.any p = true) : ∃ a, result = .ok a ∧ p a = true := by
  cases result with
  | error => cases h
  | ok a => exact ⟨a, rfl, h⟩

theorem Parses.finishes {options : Options} {t : Text} {span : Span} {pieces : List Outline}
    (h : Parses options t span pieces) :
    ∃ s, Stream.ofRun (TokenRun.ofText options t) = .ok s ∧ s.Finishes span pieces := by
  cases h with
  | module h =>
    obtain ⟨s, u, hs, hroot⟩ := parseWith_eq_ok h
    exact ⟨s, hs, Grammar.finishes_moduleRoot hroot⟩
  | expression h =>
    obtain ⟨s, u, hs, hroot⟩ := parseWith_eq_ok h
    exact ⟨s, hs, Grammar.finishes_expressionRoot hroot⟩
  | signature h =>
    obtain ⟨s, u, hs, hroot⟩ := parseWith_eq_ok h
    exact ⟨s, hs, Grammar.finishes_signatureRoot hroot⟩

/-- The tokens of a source and of the tree that it parses to. -/
structure Holds (options : Options) (t : Text) (span : Span) (pieces : List Outline) : Prop where
  tokenize_eq : tokenize options t = .ok (tokensOf pieces)
  steps : ∃ u, (Scanner.ofText options t).Steps (tokensOf pieces) u
  endsInside : ∃ before last, tokensOf pieces = before ++ [last] ∧ last.kind = .endOfFile ∧
    ∀ token ∈ before, token.kind ≠ .endOfFile
  spanned : AllSpanned pieces
  spans : span.Spans (tokensOf pieces)

theorem Parses.holds {options : Options} {t : Text} {span : Span} {pieces : List Outline}
    (h : Parses options t span pieces) : Holds options t span pieces := by
  obtain ⟨s, hs, before, u, hread, hkind, rfl, rfl⟩ := h.finishes
  obtain ⟨htokens, hfailure⟩ := Stream.ofRun_eq_ok hs
  have hmoved := hread.moves.tokens_eq
  have hrun : (TokenRun.ofText options t).tokens =
      tokensOf before ++ u.current :: u.upcoming := htokens.symm.trans hmoved
  obtain ⟨hlast, hnone, hbefore⟩ := Scanner.run_endOfFile hrun hkind
  have hall : tokensOf (before ++ [.token u.current]) = (TokenRun.ofText options t).tokens := by
    rw [Outline.tokensOf_append, hrun, hlast]
    rfl
  have hfirst : (tokensOf (before ++ [.token u.current])).head? = some s.current := by
    rw [hall, ← htokens]
    rfl
  have hend : tokensOf (before ++ [.token u.current]) = tokensOf before ++ [u.current] := by
    rw [Outline.tokensOf_append]
    rfl
  exact {
    tokenize_eq := by rw [hall, tokenize, TokenRun.complete, TokenRun.ofText, hnone]
    steps := by
      rw [hall]
      exact Scanner.steps_run _ _
    endsInside := ⟨tokensOf before, u.current, hend, hkind, hbefore⟩
    spanned := Outline.allSpanned_append.mpr ⟨hread.spanned, trivial, trivial⟩
    spans := ⟨s.current, u.current, hfirst, by rw [hend]; exact List.getLast?_concat, rfl⟩ }

theorem Holds.ofTokens_eq {options : Options} {t : Text} {span : Span} {pieces : List Outline}
    (h : Holds options t span pieces) : Text.ofTokens (tokensOf pieces) = t := by
  obtain ⟨before, last, htokens, hlast, -⟩ := h.endsInside
  obtain ⟨u, hsteps⟩ := h.steps
  rw [htokens] at hsteps ⊢
  exact hsteps.orderly.complete before last [] rfl hlast

end Verbatim
