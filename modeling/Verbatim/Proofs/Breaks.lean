import Verbatim.Proofs.Breaks.Scanner

/-!
# Line breaks of one kind or another

Line feeds, carriage returns and pairs of both break lines alike. A source that is written with
another kind of line break has the same tokens and trivia, with those line breaks in their texts,
or else the same fault at the place that corresponds.
-/

namespace Verbatim

open Text (withBreaks)

/-- The token with other line breaks in its text and in its trivia. -/
structure Token.Rebroken (br : Text) (token token' : Token) : Prop where
  kind : token'.kind = token.kind
  text : token'.text = withBreaks br token.text
  leading : List.Forall₂ (Trivia.Rebroken br) token.leading token'.leading

namespace Scanner

variable {br source : Text} {tracked : Prop} {s s' : Scanner}

/-- The faults that end two runs in step, if there are any. -/
abbrev FailureFollows (br source : Text) (tracked : Prop) :
    Option LexicalError → Option LexicalError → Prop :=
  Option.Rel fun error error' => error'.cause = error.cause ∧
    (tracked → SamePoint br source error.offset error'.offset)

/-- Two runs that begin in step stay in step to their end. -/
theorem Scans.follows {tokens tokens' : List Token} {failure failure' : Option LexicalError}
    (h : s.Scans tokens failure) (h' : s'.Scans tokens' failure')
    (hs : Follows br source tracked s s') :
    List.Forall₂ (TokenFollows br tracked) tokens tokens' ∧
      FailureFollows br source tracked failure failure' := by
  induction h generalizing s' tokens' failure' with
  | fault hnext =>
    have hstep := hs.next
    rw [hnext] at hstep
    generalize hnext' : s'.next = x at hstep
    cases hstep with
    | error cause place =>
      cases h' with
      | fault hfault =>
        cases hnext'.symm.trans hfault
        exact ⟨.nil, .some ⟨cause, place⟩⟩
      | done hlast => cases hnext'.symm.trans hlast
      | step hstep => cases hnext'.symm.trans hstep
  | done hnext hlast =>
    have hstep := hs.next
    rw [hnext] at hstep
    generalize hnext' : s'.next = x at hstep
    cases hstep with
    | ok token follows =>
      cases h' with
      | fault hfault => cases hnext'.symm.trans hfault
      | done hdone =>
        cases hnext'.symm.trans hdone
        exact ⟨.cons token .nil, .none⟩
      | step hmore hkind =>
        cases hnext'.symm.trans hmore
        exact absurd (token.kind.trans hlast) hkind
  | step hnext hkind _ ih =>
    have hstep := hs.next
    rw [hnext] at hstep
    generalize hnext' : s'.next = x at hstep
    cases hstep with
    | ok token follows =>
      cases h' with
      | fault hfault => cases hnext'.symm.trans hfault
      | done hdone hlast =>
        cases hnext'.symm.trans hdone
        exact absurd (token.kind.symm.trans hlast) hkind
      | step hmore _ hrest =>
        cases hnext'.symm.trans hmore
        obtain ⟨htokens, hfailure⟩ := ih hrest follows
        exact ⟨.cons token htokens, hfailure⟩

theorem follows_ofText (options : Options) (h : Text.Rebreaks br source) :
    Follows br source True (ofText options source) (ofText options (withBreaks br source)) where
  breaks := h
  rest := rfl
  tabSize := rfl
  columns := rfl
  brackets := rfl
  scheduled := rfl
  atLineStart := rfl
  place _ := ⟨[], rfl, rfl, rfl⟩
  waiting _ := .nil

end Scanner

/-- A source whose lines end in line feeds can be written with pairs or with carriage returns in
their place. -/
theorem tokenize_withBreaks {br source : Text} (hbr : br = ['\r', '\n'] ∨ br = ['\r'])
    (hsource : '\r' ∉ source) (options : Options) :
    (∀ tokens, tokenize options source = .ok tokens →
      ∃ tokens', tokenize options (withBreaks br source) = .ok tokens' ∧
        List.Forall₂ (Token.Rebroken br) tokens tokens') ∧
    ∀ error, tokenize options source = .error error →
      ∃ error', tokenize options (withBreaks br source) = .error error' ∧
        error'.message = error.message ∧
        Scanner.SamePoint br source error.offset error'.offset := by
  have hbreaks : Text.Rebreaks br source := by
    refine ⟨?_, .inr hsource⟩
    rcases hbr with rfl | rfl <;> decide
  obtain ⟨htokens, hfailure⟩ := (TokenRun.scans options source).follows
    (TokenRun.scans options (withBreaks br source)) (Scanner.follows_ofText options hbreaks)
  constructor
  · intro tokens h
    obtain ⟨hnone, rfl⟩ := TokenRun.tokenize_eq_ok_iff.mp h
    rw [hnone] at hfailure
    generalize hnone' : (TokenRun.ofText options (withBreaks br source)).failure = x at hfailure
    cases hfailure
    refine ⟨_, TokenRun.tokenize_eq_ok_iff.mpr ⟨hnone', rfl⟩, htokens.imp ?_⟩
    intro token token' hfollows
    exact ⟨hfollows.kind, hfollows.text, hfollows.leading trivial⟩
  · intro error h
    rw [TokenRun.tokenize_eq_error_iff.mp h] at hfailure
    generalize hsome : (TokenRun.ofText options (withBreaks br source)).failure = x at hfailure
    cases hfailure with
    | some hfailure =>
      obtain ⟨hcause, hplace⟩ := hfailure
      refine ⟨_, TokenRun.tokenize_eq_error_iff.mpr hsome, ?_, hplace trivial⟩
      rw [LexicalError.message, LexicalError.message, hcause]

/-- Line breaks in a literal, in brackets, behind a comment, between blocks and behind a
backslash. -/
theorem tokenize_withBreaks_of_block :
    ∃ tokens tokens',
      tokenize {} "if a:\n b = ('''c\n''', # e\n f)\n\n\\\ng".toList = .ok tokens ∧
      tokenize {} (withBreaks ['\r', '\n'] "if a:\n b = ('''c\n''', # e\n f)\n\n\\\ng".toList) =
        .ok tokens' ∧
      List.Forall₂ (Token.Rebroken ['\r', '\n']) tokens tokens' := by
  have hok : (tokenize {} "if a:\n b = ('''c\n''', # e\n f)\n\n\\\ng".toList).isOk = true := by
    decide +kernel
  have hclean : '\r' ∉ "if a:\n b = ('''c\n''', # e\n f)\n\n\\\ng".toList := by decide +kernel
  generalize "if a:\n b = ('''c\n''', # e\n f)\n\n\\\ng".toList = source at hok hclean ⊢
  rcases htokens : tokenize {} source with error | tokens
  · rw [htokens] at hok
    cases hok
  · obtain ⟨tokens', htokens', hrebroken⟩ :=
      (tokenize_withBreaks (.inl rfl) hclean {}).1 tokens htokens
    exact ⟨tokens, tokens', rfl, htokens', hrebroken⟩

end Verbatim
