import Verbatim.Proofs.Decision

/-!
# Errors of parsing and of tokenizing

The parser scans as it goes, so it can meet a syntax error before a lexical one or the other
way round. Its lexical errors are those of tokenizing, its syntax errors are at tokens that
were scanned by then, and a source that does not tokenize does not parse.
-/

namespace Verbatim

namespace TokenRun

variable {entry : EntryPoint} {options : Options} {t : Text}

/-- What a parse returns comes from the run over the source, unless the run fails at once. -/
theorem parse_reaches (entry : EntryPoint) (options : Options) (t : Text) :
    (ofText options t).Reaches 0 (entry.parse options t) := by
  by_cases hnil : (ofText options t).tokens = []
  · cases hfailure : (ofText options t).failure with
    | none => exact absurd hnil (tokens_ne_nil hfailure)
    | some error =>
      have hrun : ofText options t = ⟨[], some error⟩ := by rw [← hnil, ← hfailure]
      change Reaches _ _ ((ofText options t).parse entry.root)
      rw [hrun]
      exact .lexical rfl
  · exact reaches_parse (entry.alike_root .bare) hnil

theorem tokenize_of_parse {tree : entry.Tree} (h : entry.parse options t = .ok tree) :
    (ofText options t).failure = none := by
  have hparses : ∃ span pieces, Parses options t span pieces := by
    cases entry with
    | module => exact ⟨_, _, .module h⟩
    | expression => exact ⟨_, _, .expression h⟩
    | signature => exact ⟨_, _, .signature h⟩
  obtain ⟨span, pieces, hparses⟩ := hparses
  exact (tokenize_eq_ok_iff.mp hparses.holds.tokenize_eq).1

end TokenRun

/-- A source is scanned up to its end or a lexical error. It parses only if it tokenizes, a
lexical error is the one of tokenizing, and a syntax error is at one of the scanned tokens.
Every error is at a place where the source can be cut. -/
theorem errors_agree (entry : EntryPoint) (options : Options) (t : Text) :
    ∃ tokens failure, (Scanner.ofText options t).Scans tokens failure ∧
      (failure = none → tokenize options t = .ok tokens) ∧
      (∀ error, failure = some error → tokenize options t = .error error) ∧
      (∀ tree, entry.parse options t = .ok tree → tokenize options t = .ok tokens) ∧
      (∀ error, entry.parse options t = .error (.lexical error) →
        tokenize options t = .error error) ∧
      (∀ error, entry.parse options t = .error (.syntactic error) →
        error.token ∈ tokens ∧ (ParseError.syntactic error).offset = error.token.span.start) ∧
      (∀ error, tokenize options t = .error error →
        (∃ error', entry.parse options t = .error error') ∧
        error.offset ≤ t.size ∧ t.IsBoundary error.offset) ∧
      ∀ error, entry.parse options t = .error error →
        error.offset ≤ t.size ∧ t.IsBoundary error.offset := by
  have hreaches := TokenRun.parse_reaches entry options t
  obtain ⟨hboundary, hfault⟩ := TokenRun.isBoundary options t
  refine ⟨_, _, TokenRun.scans options t, ?_, ?_, ?_, ?_, ?_, ?_, ?_⟩
  · exact fun hnone => TokenRun.tokenize_eq_ok_iff.mpr ⟨hnone, rfl⟩
  · exact fun error hsome => TokenRun.tokenize_eq_error_iff.mpr hsome
  · intro tree htree
    exact TokenRun.tokenize_eq_ok_iff.mpr ⟨TokenRun.tokenize_of_parse htree, rfl⟩
  · intro error herror
    rw [herror] at hreaches
    cases hreaches with
    | lexical h => exact TokenRun.tokenize_eq_error_iff.mpr h
  · intro error herror
    rw [herror] at hreaches
    cases hreaches with
    | syntactic _ ht => exact ⟨List.mem_of_getElem? ht, rfl⟩
  · intro error herror
    have hfailure := TokenRun.tokenize_eq_error_iff.mp herror
    refine ⟨?_, (hfault error hfailure).le_size, hfault error hfailure⟩
    cases hparse : entry.parse options t with
    | error error' => exact ⟨error', rfl⟩
    | ok tree =>
      rw [TokenRun.tokenize_of_parse hparse] at hfailure
      cases hfailure
  · intro error herror
    rw [herror] at hreaches
    cases hreaches with
    | syntactic _ ht =>
      have hstart := hboundary _ (List.mem_of_getElem? ht)
      exact ⟨hstart.le_size, hstart⟩
    | lexical h => exact ⟨(hfault _ h).le_size, hfault _ h⟩

end Verbatim
