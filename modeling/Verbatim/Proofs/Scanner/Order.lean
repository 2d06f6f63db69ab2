import Verbatim.Proofs.Scanner.Account
import Verbatim.Proofs.Token
import Verbatim.Scanner.Run

/-!
# Runs without a fault

As long as no step fails, the tokens stand one after the other, markers included, and
their full texts spell the source: nothing is left over at the end of the text. This is
what the parser relies on, which never goes on after a lexical error.
-/

namespace Verbatim

namespace Scanner

inductive Steps (s : Scanner) : List Token → Scanner → Prop
  | refl : Steps s [] s
  | snoc {u v : Scanner} {tokens : List Token} {token : Token} (before : Steps s tokens u)
      (next : u.next = (.ok token, v)) : Steps s (tokens ++ [token]) v

theorem Steps.cons {s u v : Scanner} {token : Token} {tokens : List Token}
    (h : s.next = (.ok token, u)) (h' : Steps u tokens v) : Steps s (token :: tokens) v := by
  induction h' with
  | refl => exact .snoc .refl h
  | snoc _ hnext ih => exact .snoc ih hnext

theorem Steps.append {s u v : Scanner} {before more : List Token} (h : s.Steps before u)
    (h' : u.Steps more v) : s.Steps (before ++ more) v := by
  induction h' with
  | refl => rwa [List.append_nil]
  | snoc _ hnext ih =>
    rw [← List.append_assoc]
    exact .snoc ih hnext

theorem enterLineIfDue_of_next {s u : Scanner} {token : Token} (h : s.next = (.ok token, u)) :
    s.enterLineIfDue.1 = .ok () := by
  rcases hdue : s.enterLineIfDue with ⟨result, v⟩
  cases result with
  | ok => rfl
  | error error =>
    rw [next, hdue] at h
    cases h

theorem Ready.next {s u : Scanner} {token : Token} (h : s.Ready) (hnext : s.next = (.ok token, u)) :
    u.Ready := by
  have hpunctual := punctual_settled h (enterLineIfDue_of_next hnext)
  have houtcome := s.outcome_next
  rw [hnext] at houtcome
  cases houtcome with
  | marker kind isMarker place punctual atLineStart =>
    refine ⟨.inr (punctual hpunctual), fun hline => ?_⟩
    rw [atLineStart, s.atLineStart_settled] at hline
    cases hline
  | lexeme kind t noMarker passes waiting scheduled =>
    exact ⟨.inl scheduled, fun _ => scheduled⟩

/-- What the scanner keeps to from one token to the next, if none fails. -/
structure Orderly (source : Text) (tokens : List Token) (s : Scanner) : Prop where
  ready : s.Ready
  source_eq : source = Text.ofTokens tokens ++ Trivia.spelled s.waiting ++ s.rest
  inOrder : Token.InOrder tokens
  bounded : ∀ token ∈ tokens, token.span.stop ≤ s.offset
  zeroWidth : ∀ token ∈ tokens, token.text = [] ↔ token.kind.isZeroWidth = true
  complete : ∀ before last after, tokens = before ++ last :: after → last.kind = .endOfFile →
    Text.ofTokens (before ++ [last]) = source

namespace Orderly

variable {source : Text} {tokens : List Token} {s u : Scanner}

theorem start (options : Options) : Orderly source [] (Scanner.ofText options source) where
  ready := ⟨.inl rfl, fun _ => rfl⟩
  source_eq := rfl
  inOrder := .nil
  bounded := by simp
  zeroWidth := by simp
  complete := by simp

theorem snoc {token : Token} (h : Orderly source tokens s) (hready : u.Ready)
    (hsource : source =
      Text.ofTokens (tokens ++ [token]) ++ Trivia.spelled u.waiting ++ u.rest)
    (hstart : s.offset ≤ token.span.start) (hstop : token.span.stop ≤ u.offset)
    (hwidth : token.text = [] ↔ token.kind.isZeroWidth = true)
    (hend : token.kind = .endOfFile → u.waiting = [] ∧ u.rest = []) :
    Orderly source (tokens ++ [token]) u where
  ready := hready
  source_eq := hsource
  inOrder := by
    refine List.pairwise_append.mpr ⟨h.inOrder, List.pairwise_singleton _ _, ?_⟩
    intro a ha b hb
    rw [List.mem_singleton.mp hb]
    exact Nat.le_trans (h.bounded a ha) hstart
  bounded := by
    intro a ha
    rcases List.mem_append.mp ha with ha | ha
    · have := h.bounded a ha
      have := token.span.start_le_stop
      omega
    · rw [List.mem_singleton.mp ha]
      exact hstop
  zeroWidth := by
    intro a ha
    rcases List.mem_append.mp ha with ha | ha
    · exact h.zeroWidth a ha
    · rw [List.mem_singleton.mp ha]
      exact hwidth
  complete := by
    intro before last after heq hlast
    rcases List.eq_nil_or_concat after with rfl | ⟨init, final, rfl⟩
    · -- the token is the last one, so it has taken all that was waiting
      obtain ⟨rfl, hlast'⟩ := List.append_inj' heq rfl
      obtain rfl : token = last := by simpa using hlast'
      obtain ⟨hwaiting, hrest⟩ := hend hlast
      rw [hsource, hwaiting, hrest]
      simp
    · rw [List.concat_eq_append, ← List.cons_append, ← List.append_assoc] at heq
      exact h.complete before last init (List.append_inj' heq rfl).1 hlast

theorem next {token : Token} (h : Orderly source tokens s) (hnext : s.next = (.ok token, u)) :
    Orderly source (tokens ++ [token]) u := by
  obtain ⟨ts, hgathers⟩ := s.gathers_settled
  have hpunctual := punctual_settled h.ready (enterLineIfDue_of_next hnext)
  have hready := h.ready.next hnext
  have houtcome := s.outcome_next
  rw [hnext] at houtcome
  generalize s.settled = v at *
  have hsource : source = Text.ofTokens tokens ++ Trivia.spelled v.waiting ++ v.rest := by
    rw [h.source_eq, hgathers.passes.rest, hgathers.waiting, Trivia.spelled_append]
    simp only [List.append_assoc]
  have hoffset : s.offset ≤ v.offset := by
    rw [hgathers.passes.offset]
    exact Nat.le_add_right _ _
  cases houtcome with
  | marker kind isMarker place punctual =>
    -- a marker would stand in front of the token before it if a fault had moved the scanner on
    have hplace : u.markerOffset = u.offset := punctual hpunctual
    refine h.snoc hready ?_ ?_ ?_ ?_ ?_
    · rw [hsource, place.rest, place.waiting]
      simp [Text.ofTokens, Scanner.marker, Token.fullText]
    · simp only [Scanner.marker, Span.empty]
      rw [hplace, place.offset]
      exact hoffset
    · exact Nat.le_of_eq hplace
    · rcases isMarker with rfl | rfl <;> simp [Scanner.marker, TokenKind.isZeroWidth]
    · rcases isMarker with rfl | rfl <;> simp [Scanner.marker]
  | lexeme kind t noMarker passes waiting scheduled _ takes atEnd =>
    refine h.snoc hready ?_ hoffset ?_ ?_ ?_
    · rw [hsource, passes.rest, waiting]
      simp [Text.ofTokens, Token.fullText, Trivia.spelled]
    · exact Nat.le_of_eq passes.offset.symm
    · rw [takes, TokenKind.isZeroWidth_iff]
      simp [noMarker.1, noMarker.2]
    · intro hkind
      exact ⟨waiting, atEnd hkind⟩

end Orderly

theorem Steps.orderly {source : Text} {options : Options} {tokens : List Token} {u : Scanner}
    (h : Steps (.ofText options source) tokens u) : Orderly source tokens u := by
  induction h with
  | refl => exact .start options
  | snoc _ hnext ih => exact ih.next hnext

theorem Steps.accounts {source : Text} {options : Options} {tokens : List Token} {u : Scanner}
    (h : Steps (.ofText options source) tokens u) :
    ∃ entries, Accounts source (tokens.map .token) u entries := by
  induction h with
  | refl => exact ⟨[], .start options source⟩
  | snoc _ hnext ih =>
    obtain ⟨entries, h⟩ := ih
    obtain ⟨more, h'⟩ := h.next
    rw [hnext] at h'
    rw [List.map_append]
    exact ⟨entries ++ more, h'⟩

/-! ## Runs up to the end of the text -/

theorem run_succ_of_ok {s u : Scanner} {token : Token} (n : Nat)
    (h : s.next = (.ok token, u)) :
    s.run (n + 1) =
      if token.kind = .endOfFile then ⟨[token], none⟩ else (u.run n).cons token := by
  rw [run, h]

theorem run_succ_of_error {s u : Scanner} {error : LexicalError} (n : Nat)
    (h : s.next = (.error error, u)) : s.run (n + 1) = ⟨[], some error⟩ := by
  rw [run, h]

theorem steps_run (n : Nat) (s : Scanner) : ∃ u, Steps s (s.run n).tokens u := by
  induction n generalizing s with
  | zero => exact ⟨s, .refl⟩
  | succ n ih =>
    rcases hnext : s.next with ⟨result, u⟩
    cases result with
    | error error =>
      rw [run_succ_of_error n hnext]
      exact ⟨s, .refl⟩
    | ok token =>
      rw [run_succ_of_ok n hnext]
      split
      · exact ⟨u, .cons hnext .refl⟩
      · obtain ⟨v, h⟩ := ih u
        exact ⟨v, .cons hnext h⟩

/-- A run stops at the end of the text, where nothing can fail any more. -/
theorem run_endOfFile {n : Nat} {s : Scanner} {before after : List Token} {last : Token}
    (h : (s.run n).tokens = before ++ last :: after) (hlast : last.kind = .endOfFile) :
    after = [] ∧ (s.run n).failure = none ∧ ∀ token ∈ before, token.kind ≠ .endOfFile := by
  -- the run ends at the first `endOfFile`, so by induction it is the last token of the run
  induction n generalizing s before with
  | zero => simp [run] at h
  | succ n ih =>
    rcases hnext : s.next with ⟨result, u⟩
    cases result with
    | error error =>
      rw [run_succ_of_error n hnext] at h
      simp at h
    | ok token =>
      rw [run_succ_of_ok n hnext] at h ⊢
      split at h
      · next hend =>
        rw [if_pos hend]
        cases before with
        | nil =>
          cases h
          exact ⟨rfl, rfl, by simp⟩
        | cons first before => simp at h
      · next hend =>
        rw [if_neg hend]
        cases before with
        | nil =>
          cases h
          exact absurd hlast hend
        | cons first before =>
          obtain ⟨hfirst, htokens⟩ := List.cons.inj h
          obtain ⟨hafter, hfailure, hbefore⟩ := ih htokens
          refine ⟨hafter, hfailure, fun token' htoken => ?_⟩
          rcases List.mem_cons.mp htoken with rfl | htoken
          · rwa [← hfirst]
          · exact hbefore token' htoken

theorem run_succ_ne_nil {n : Nat} {s : Scanner} (h : (s.run (n + 1)).failure = none) :
    (s.run (n + 1)).tokens ≠ [] := by
  rcases hnext : s.next with ⟨result, u⟩
  cases result with
  | error error =>
    rw [run_succ_of_error n hnext] at h
    cases h
  | ok token =>
    rw [run_succ_of_ok n hnext]
    split
    · exact List.cons_ne_nil _ _
    · exact List.cons_ne_nil _ _

end Scanner

end Verbatim
