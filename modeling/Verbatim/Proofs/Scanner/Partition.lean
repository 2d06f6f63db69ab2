import Verbatim.Proofs.Scanner.Order

/-!
# The partition of a source

A lookahead partitions the text that it has passed, after any number of calls and whatever
they gave. If none of them failed, the partition is the order of the tokens themselves.
-/

namespace Verbatim

/-- The bytes in front of the scanner's place, divided among the tokens that were scanned, the
trivia that they took or that still waits, and the faults. -/
structure Partition (source : Text) (scans : List Scan) (s : Scanner) (entries : List Entry) :
    Prop where
  tiles : Span.Tiles 0 ((entries.map Entry.span).filter (! ·.isEmpty)) s.offset
  slices : ∀ e ∈ entries, source.slice? e.span = some e.text
  tokens : entries.filterMap Entry.token? = scans.filterMap Scan.token?
  trivia : entries.filterMap Entry.trivia? =
    (scans.filterMap Scan.token?).flatMap Token.leading ++ s.waiting
  faults : entries.filterMap Entry.fault? = scans.filterMap Scan.fault?

theorem Accounts.partition {source : Text} {scans : List Scan} {s : Scanner}
    {entries : List Entry} (h : Accounts source scans s entries) :
    Partition source scans s entries where
  tiles := by
    have htiles := h.placed.tiles
    rwa [Nat.zero_add, ← h.offset] at htiles
  slices := Entry.Placed.slice?_eq [] s.rest h.source_eq h.placed
  tokens := h.tokens
  trivia := h.trivia
  faults := h.faults

/-- A line whose indentation fits no open block is at fault as such, with no text of its own. -/
theorem Scan.isEmpty_of_indentation {s : Scanner} {error : LexicalError} {range : Span}
    (h : ofStep s.settled.offset s.next = .fault error range)
    (hcause : error.cause = .inconsistentIndentation) : range.isEmpty = true := by
  have houtcome := s.outcome_next
  generalize s.next = step at h houtcome
  cases houtcome with
  | marker => cases h
  | lexeme => cases h
  | fault error t passes _ _ indentation =>
    cases h
    rw [passes.offset, indentation hcause]
    simp [Span.isEmpty, Span.upTo]

namespace Lookahead

theorem isEmpty_of_mem_scans {error : LexicalError} {range : Span} {n : Nat} {look : Lookahead}
    (h : Scan.fault error range ∈ look.scans n)
    (hcause : error.cause = .inconsistentIndentation) : range.isEmpty = true := by
  induction n generalizing look with
  | zero => cases h
  | succ n ih =>
    rcases List.mem_cons.mp h with h | h
    · rw [scan_eq] at h
      exact Scan.isEmpty_of_indentation h.symm hcause
    · exact ih h

theorem steps_of_no_fault {s : Scanner} {tokens : List Token} {n : Nat} {look : Lookahead}
    (hs : s.Steps tokens look.scanner) (h : ∀ scan ∈ look.scans n, scan.fault? = none) :
    s.Steps (tokens ++ (look.scans n).filterMap Scan.token?) (look.after n).scanner := by
  induction n generalizing look tokens with
  | zero => simpa [scans, after] using hs
  | succ n ih =>
    have hfirst := h look.scan (List.mem_cons_self ..)
    have hrest : ∀ scan ∈ look.advance.2.scans n, scan.fault? = none := by
      intro scan hscan
      exact h scan (List.mem_cons_of_mem _ hscan)
    rcases hnext : look.scanner.next with ⟨result, u⟩
    cases result with
    | error error =>
      rw [scan_eq, hnext] at hfirst
      cases hfirst
    | ok token =>
      have hadvance : look.advance.2.scanner = u := by rw [scanner_advance, hnext]
      have hscan : look.scan = .token token := by rw [scan_eq, hnext]; rfl
      have hsteps : s.Steps (tokens ++ [token]) look.advance.2.scanner := by
        rw [hadvance]
        exact hs.snoc hnext
      have hrun := ih hsteps hrest
      rw [List.append_assoc] at hrun
      rw [scans, hscan]
      exact hrun

/-- After any number of calls the text that was passed is partitioned. A run without a fault
gives tokens that stand in order, and those up to the end of the text spell the source. -/
theorem partition_of_ofText {options : Options} {source : Text} {look : Lookahead}
    (h : ofText options source = .ok look) (n : Nat) :
    (∃ entries, Partition source (.token look.current :: look.scans n)
      (look.after n).scanner entries) ∧
    (∀ error range, Scan.fault error range ∈ look.scans n →
      error.cause = .inconsistentIndentation → range.isEmpty = true) ∧
    ((∀ scan ∈ look.scans n, scan.fault? = none) →
      Token.InOrder (look.current :: (look.scans n).filterMap Scan.token?) ∧
      ∀ before last after,
        look.current :: (look.scans n).filterMap Scan.token? = before ++ last :: after →
        last.kind = .endOfFile → Text.ofTokens (before ++ [last]) = source) := by
  refine ⟨?_, ?_, ?_⟩
  · obtain ⟨entries, haccounts⟩ := accounts_of_ofText h n
    exact ⟨entries, haccounts.partition⟩
  · intro error range hmem hcause
    exact isEmpty_of_mem_scans hmem hcause
  · intro hclean
    have hfirst := (Scanner.Steps.refl).snoc (ofText_eq_ok h)
    have horderly := (steps_of_no_fault hfirst hclean).orderly
    exact ⟨horderly.inOrder, horderly.complete⟩

/-- A run that goes on after a character that begins no token. -/
theorem partition_after_invalid_character :
    ∃ look, ofText {} ['1', ' ', '$', '\n'] = .ok look ∧
      (∃ entries, Partition ['1', ' ', '$', '\n'] (.token look.current :: look.scans 3)
        (look.after 3).scanner entries) ∧
      (look.scans 3).filterMap Scan.fault? = [Span.sized 2 1] := by
  refine ⟨_, rfl, (partition_of_ofText rfl 3).1, ?_⟩
  decide +kernel

end Lookahead

end Verbatim
