import Verbatim.Proofs.BlankLines.Cut

/-!
# Blank lines between lines

A line without a token can be put in where any line of a source starts, outside of brackets. It may
stand in front of an indented line, where blocks are still to be closed, or at the end of the text,
and may run together with a carriage return in front of it. The source has the same tokens, with
the same texts but for those of its line breaks.
-/

namespace Verbatim

/-- The token is of the same kind and has the same text, but a line break may be another one. -/
structure Token.SameWord (token token' : Token) : Prop where
  kind : token'.kind = token.kind
  text : token.kind ≠ .newline → token'.text = token.text

theorem Token.sameWord_of_words {token token' : Token}
    (h : Relabelling.words.token token' = Relabelling.words.token token) :
    token.SameWord token' where
  kind := Relabelling.words.kind_eq h
  text := by
    intro hkind
    have htext := congrArg Token.text h
    have hkind' : token'.kind ≠ .newline := by rwa [Relabelling.words.kind_eq h]
    simpa only [Relabelling.words, if_neg hkind, if_neg hkind'] using htext

theorem Scanner.forall₂_sameWord {tokens tokens' : List Token}
    (h : tokens'.map Relabelling.words.token = tokens.map Relabelling.words.token) :
    List.Forall₂ Token.SameWord tokens tokens' := by
  induction tokens generalizing tokens' with
  | nil =>
    obtain rfl := List.map_eq_nil_iff.mp h
    exact .nil
  | cons token tokens ih =>
    obtain ⟨token', more, rfl, hfirst, hmore⟩ := List.map_eq_cons_iff.mp h
    exact .cons (Token.sameWord_of_words hfirst) (ih hmore)

/-- Blank lines and comment lines can be put in where a line of a source starts, and change none of
its tokens. -/
theorem tokenize_blankLine {options : Options} {source : Text} {tokens : List Token} {offset : Nat}
    (h : tokenize options source = .ok tokens) (hline : Token.LineStartsAt tokens offset) :
    ∃ a v, source = a ++ v ∧ Text.size a = offset ∧
      ∀ w : Text, w.BlankLine → ∃ tokens', tokenize options (a ++ w ++ v) = .ok tokens' ∧
        List.Forall₂ Token.SameWord tokens tokens' := by
  have hscans := TokenRun.scans options source
  obtain ⟨hnone, htokens⟩ := TokenRun.tokenize_eq_ok_iff.mp h
  rw [hnone, htokens] at hscans
  obtain ⟨a, v, rfl, hsize, before, u, hleads, hinside⟩ := hscans.exists_cut hline
  refine ⟨a, v, rfl, hsize, fun w hw => ?_⟩
  obtain ⟨tokens', hscans', hwords⟩ := hleads.insert hinside hw hscans
  obtain ⟨hrun, hfailure⟩ := (TokenRun.scans options (a ++ (w ++ v))).unique hscans'
  refine ⟨tokens', ?_, Scanner.forall₂_sameWord hwords⟩
  rw [List.append_assoc]
  exact TokenRun.tokenize_eq_ok_iff.mpr ⟨hfailure, hrun⟩

/-- A comment of another column than the block in front of which it is put, behind a carriage
return. -/
theorem tokenize_blankLine_of_comment :
    ∃ tokens, tokenize {} "if a:\r b\n".toList = .ok tokens ∧ Token.LineStartsAt tokens 6 ∧
      Text.BlankLine "\t# type: e\n".toList ∧
      ∃ a v tokens', "if a:\r b\n".toList = a ++ v ∧ Text.size a = 6 ∧
        tokenize {} (a ++ "\t# type: e\n".toList ++ v) = .ok tokens' ∧
        List.Forall₂ Token.SameWord tokens tokens' := by
  have hline : ((tokenize {} "if a:\r b\n".toList).toOption.any fun tokens =>
      tokens.any fun token => token.kind == .newline && token.span.stop == 6) = true := by
    decide +kernel
  have hblanks : ∀ c ∈ ['\t'], Scanner.isBlank c = true := List.forall_mem_singleton.mpr rfl
  have hbody : ∀ c ∈ " type: e".toList, Text.isLineBreak c = false := by simp [Text.isLineBreak]
  have hblank : Text.BlankLine "\t# type: e\n".toList := Text.BlankLine.comment hblanks hbody
  rcases htokens : tokenize {} "if a:\r b\n".toList with error | tokens
  · rw [htokens] at hline
    cases hline
  rw [htokens] at hline
  obtain ⟨token, hmem, hstop⟩ := List.any_eq_true.mp hline
  rw [Bool.and_eq_true, beq_iff_eq, beq_iff_eq] at hstop
  have hstarts : Token.LineStartsAt tokens 6 := .newline hmem hstop.1 hstop.2
  obtain ⟨a, v, hsource, hsize, hinsert⟩ := tokenize_blankLine htokens hstarts
  obtain ⟨tokens', htokens', hwords⟩ := hinsert _ hblank
  exact ⟨tokens, rfl, hstarts, hblank, a, v, tokens', hsource, hsize, htokens', hwords⟩

end Verbatim
