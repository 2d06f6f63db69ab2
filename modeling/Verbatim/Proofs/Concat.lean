import Verbatim.Proofs.Concat.Module
import Verbatim.Proofs.Concat.Tokens

/-!
# Modules one after the other

Two modules can be written one after the other in one source, if the first one is empty or ends
with a line break, and the line break may run together with the line feed that the other begins
with. The source has the statements of both. What the end of the first text does to its blocks, the
first line of the other one does in its place, and no statement goes on across the seam.
-/

namespace Verbatim

open Outline (tokensOf)

theorem Stream.ofRun_of_ne_nil {run : TokenRun} (h : run.tokens ≠ []) :
    ∃ s, Stream.ofRun run = .ok s ∧ s.tokens = run.tokens ∧ s.failure = run.failure := by
  obtain ⟨token, tokens, htokens⟩ := List.exists_cons_of_ne_nil h
  refine ⟨⟨token, tokens, run.failure, 0⟩, ?_, htokens.symm, rfl⟩
  rw [Stream.ofRun, htokens]

/-- The stream of a run without a fault. -/
theorem Scanner.Scans.exists_stream {options : Options} {t : Text} {tokens : List Token}
    (h : (ofText options t).Scans tokens none) :
    ∃ s, Stream.ofRun (TokenRun.ofText options t) = .ok s ∧ s.tokens = tokens ∧
      s.failure = none := by
  obtain ⟨hrun, hnone⟩ := (TokenRun.scans options t).unique h
  obtain ⟨init, last, hends, -⟩ := h.ends rfl
  have hne : (TokenRun.ofText options t).tokens ≠ [] := by simp [hrun, hends]
  obtain ⟨s, hs, htokens, hfailure⟩ := Stream.ofRun_of_ne_nil hne
  exact ⟨s, hs, htokens.trans hrun, hfailure.trans hnone⟩

/-- A module has a run without a fault, from which its statements are read. -/
theorem exists_stream_of_parseModule {options : Options} {t : Text} {tree : ModuleTree}
    (h : parseModule options t = .ok tree) :
    ∃ s u, Grammar.moduleRoot s = .ok (tree, u) ∧ s.failure = none ∧
      (Scanner.ofText options t).Scans s.tokens none ∧ s.tokens = tokensOf tree.pieces := by
  obtain ⟨s, u, hstream, hroot⟩ := parseWith_eq_ok h
  obtain ⟨htokens, hfailure⟩ := Stream.ofRun_eq_ok hstream
  obtain ⟨hnone, hpieces⟩ := TokenRun.tokenize_eq_ok_iff.mp (Parses.module h).holds.tokenize_eq
  have hscans := TokenRun.scans options t
  rw [hnone, ← htokens] at hscans
  exact ⟨s, u, hroot, hfailure.trans hnone, hscans, htokens.trans hpieces⟩

/-- The stream of both texts is that of the first one up to the seam. -/
theorem Scanner.Appends.joint {options : Options} {a b : Text} {s s' t : Stream} {last : Token}
    {init init' tokens₂' : List Token} (h : Appends options a b init t.tokens init' tokens₂')
    (hs : s.tokens = init ++ [last]) (hlast : last.kind = .endOfFile)
    (hinside : ∀ token ∈ init, token.kind ≠ .endOfFile) (hs' : s'.tokens = init' ++ tokens₂')
    (hfirst : t.current.kind.isContinuation = false) : s.Joint .words init s' where
  left := ⟨last, hs, hlast⟩
  right := by
    obtain ⟨next, rest, rfl, hnext, -⟩ := List.map_eq_cons_iff.mp h.behind
    refine ⟨init', next, rest, hs', h.front.symm, ?_⟩
    rw [Relabelling.words.kind_eq hnext]
    exact hfirst
  inside := hinside
  closed := h.closed

/-- The source has the statements of both modules, but for places, trivia and the texts of line
breaks. -/
theorem parseModule_append {options : Options} {a b : Text} {tree tree₂ : ModuleTree}
    {tokens : List Token} (ha : parseModule options a = .ok tree)
    (hb : parseModule options b = .ok tree₂) (htokens : tokenize options a = .ok tokens)
    (hseam : a = [] ∨ Token.EndInBreak tokens a.size) :
    ∃ tree', parseModule options (a ++ b) = .ok tree' ∧
      relabelStmts .words tree'.statements =
        relabelStmts .words tree.statements ++ relabelStmts .words tree₂.statements := by
  obtain ⟨s, u, hroot, -, hscans, hpieces⟩ := exists_stream_of_parseModule ha
  obtain ⟨t, v, hroot₂, hfailure₂, hscans₂, -⟩ := exists_stream_of_parseModule hb
  have htree : tokens = tokensOf tree.pieces :=
    Except.ok.inj (htokens.symm.trans (Parses.module ha).holds.tokenize_eq)
  rw [htree, ← hpieces] at hseam
  have hclosed := (Parses.module ha).brackets_closed.1
  rw [← hpieces] at hclosed
  obtain ⟨hcontinues, hindent⟩ := Grammar.kind_of_moduleRoot hroot₂
  have hfirst : ∀ token ∈ t.tokens.head?, token.kind ≠ .indent := by
    intro token hmem
    cases hmem
    exact hindent
  obtain ⟨init, last, init', tokens₂', hinit, hlast, happends⟩ :=
    hscans.append hclosed hseam hscans₂ hfirst
  rw [hinit] at hscans
  obtain ⟨s', hstream, htokens', hfailure'⟩ := happends.scans.exists_stream
  have hbehind : t.tokens.map Relabelling.words.token =
      (s'.tokens.drop init.length).map Relabelling.words.token := by
    have hlength : init'.length = init.length := by
      simpa using congrArg List.length happends.front
    rw [htokens', List.drop_left' hlength, happends.behind]
  have hjoint := happends.joint hinit hlast hscans.inside htokens' hcontinues
  obtain ⟨tree', w, hroot', hstatements⟩ :=
    Grammar.moduleRoot_concat hjoint hroot hroot₂ hbehind hfailure₂ hfailure'
  refine ⟨tree', ?_, hstatements⟩
  rw [parseModule, parseWith, hstream]
  dsimp only
  rw [hroot']
  rfl

/-- A pair of carriage return and line feed that belongs to both texts, a block that is open there,
and a comment behind the last statement. -/
theorem parseModule_append_of_pair :
    ∃ tree tree₂ tree',
      parseModule {} "if a:\r\n b # c\r\n # d\r".toList = .ok tree ∧
      parseModule {} "\n\ne\n".toList = .ok tree₂ ∧
      parseModule {} ("if a:\r\n b # c\r\n # d\r".toList ++ "\n\ne\n".toList) = .ok tree' ∧
      relabelStmts .words tree'.statements =
        relabelStmts .words tree.statements ++ relabelStmts .words tree₂.statements := by
  have hok : (parseModule {} "if a:\r\n b # c\r\n # d\r".toList).isOk = true := by decide +kernel
  have hok₂ : (parseModule {} "\n\ne\n".toList).isOk = true := by decide +kernel
  have hbreak : ((tokenize {} "if a:\r\n b # c\r\n # d\r".toList).toOption.any fun tokens =>
      decide (Token.EndInBreak tokens (Text.size "if a:\r\n b # c\r\n # d\r".toList))) = true := by
    decide +kernel
  generalize "if a:\r\n b # c\r\n # d\r".toList = a at hok hbreak ⊢
  generalize "\n\ne\n".toList = b at hok₂ ⊢
  rcases ha : parseModule {} a with error | tree
  · rw [ha] at hok
    cases hok
  rcases hb : parseModule {} b with error | tree₂
  · rw [hb] at hok₂
    cases hok₂
  rcases htokens : tokenize {} a with error | tokens
  · rw [htokens] at hbreak
    cases hbreak
  rw [htokens] at hbreak
  obtain ⟨tree', htree', hstatements⟩ :=
    parseModule_append ha hb htokens (.inr (of_decide_eq_true hbreak))
  exact ⟨tree, tree₂, tree', rfl, rfl, htree', hstatements⟩

end Verbatim
