import Verbatim.Proofs.Scanner.Ends

/-!
# Faults take text

A step that fails has taken some text all the same: what it read of a malformed lexeme, or the
blanks in front of a line whose column fits no block. So a lookahead that goes on after a fault
does not come back to the same place.
-/

namespace Verbatim

/-- A reader that finds a fault has gone through a character. -/
def Reading.Consumes (reading : Reading) : Prop :=
  ∀ fault, reading = .error fault → 0 < fault.taken

namespace Reading

@[simp]
theorem consumes_ok (length : Nat) : Consumes (.ok length) := by
  intro fault h
  cases h

@[simp]
theorem consumes_error {fault : Fault} : Consumes (.error fault) ↔ 0 < fault.taken := by
  constructor
  · intro h
    exact h fault rfl
  · rintro h _ ⟨⟩
    exact h

theorem Consumes.after {reading : Reading} (h : reading.Consumes) (n : Nat) :
    (reading.after n).Consumes := by
  cases reading with
  | ok length => exact consumes_ok _
  | error fault => exact consumes_error.mpr (Nat.add_pos_right n (h fault rfl))

theorem consumes_after {n : Nat} (hn : 0 < n) (reading : Reading) :
    (reading.after n).Consumes := by
  cases reading with
  | ok length => exact consumes_ok _
  | error fault => exact consumes_error.mpr (Nat.add_pos_left hn _)

end Reading

namespace Lexeme

theorem digitPart_consumes (t : Text) : (digitPart t).Consumes := by
  induction t with
  | nil => exact Reading.consumes_ok 0
  | cons c t ih =>
    rw [digitPart]
    split
    · exact ih.after 1
    · split
      · split
        · exact ih.after 1
        · simp
      · exact Reading.consumes_ok 0

/-- What follows the point of a number is at fault behind the point. -/
theorem decimalTail_consumes (t : Text) : (decimalTail ('.' :: t)).Consumes := by
  rw [decimalTail]
  cases h : fraction ('.' :: t) with
  | ok n => exact Reading.consumes_after (fraction_pos h) _
  | error fault =>
    have hconsumes : (fraction ('.' :: t)).Consumes := by
      rw [fraction]
      split
      · exact (digitPart_consumes t).after 1
      · exact Reading.consumes_ok 1
    exact Reading.consumes_error.mpr (hconsumes fault h)

theorem decimal_consumes {t : Text} (ht : startsWithDigit t = true ∨ t.head? = some '.') :
    (decimal t).Consumes := by
  unfold decimal
  split
  · next fault h => exact Reading.consumes_error.mpr (digitPart_consumes t fault h)
  · next digits hdigits =>
    by_cases hpos : 0 < digits
    · split
      · split
        · exact Reading.consumes_error.mpr hpos
        · exact Reading.consumes_ok digits
      · exact Reading.consumes_after hpos _
    · -- without digits in front of it a point begins the number
      obtain rfl : digits = 0 := by omega
      have hpoint : t.head? = some '.' := ht.resolve_left fun hdigit =>
        hpos (digitPart_pos hdigit hdigits)
      obtain ⟨u, rfl⟩ := List.head?_eq_some_iff.mp hpoint
      rw [List.drop_zero]
      split
      · split
        · next h hzeros => simp [hasLeadingZeros] at hzeros
        · exact Reading.consumes_ok 0
      · exact (decimalTail_consumes u).after 0

theorem number_consumes {t : Text} (ht : startsWithDigit t = true ∨ t.head? = some '.') :
    (number t).Consumes := by
  unfold number
  split
  · exact Reading.consumes_after (by decide) _
  · exact decimal_consumes ht

theorem extent_consumes {n : Nat} (hn : 0 < n) (width : QuoteWidth) (extent : Extent) :
    ((extent.after n).reading width).Consumes := by
  unfold Extent.reading
  split
  · exact Reading.consumes_ok _
  · exact Reading.consumes_error.mpr (Nat.add_pos_left hn _)

theorem string_consumes (letters : Nat) (quote : Char) (t : Text) :
    (string letters (quote :: t)).Consumes := by
  rw [string]
  split
  · split
    · exact extent_consumes (Nat.succ_pos _) .triple _
    · exact Reading.consumes_ok _
  · exact extent_consumes (Nat.succ_pos _) .single _

theorem taken_pos_of_read {t : Text} {fault : Fault} (h : read t = .error fault) :
    0 < fault.taken := by
  have of_kinded {kind : TokenKind} {reading : Reading} (hreading : reading.Consumes)
      (h : kinded kind reading = .error fault) : 0 < fault.taken := by
    cases reading with
    | ok n => cases h
    | error fault' =>
      cases h
      exact hreading _ rfl
  cases t with
  | nil => cases h
  | cons c t =>
    rw [read] at h
    split at h
    · next hnumber =>
      refine of_kinded (number_consumes ?_) h
      simp only [Bool.or_eq_true, Bool.and_eq_true, beq_iff_eq] at hnumber
      exact hnumber.imp (by simp [startsWithDigit]) (by simp_all)
    · split at h
      · exact of_kinded (string_consumes 0 c t) h
      · split at h
        · rw [word] at h
          split at h
          · next hletters =>
            obtain ⟨quote, u, hrest⟩ : ∃ quote u,
                (c :: t).drop (wordLength (c :: t)) = quote :: u := by
              cases hdrop : (c :: t).drop (wordLength (c :: t)) with
              | nil => simp [hdrop] at hletters
              | cons quote u => exact ⟨quote, u, rfl⟩
            rw [hrest] at h
            exact of_kinded (string_consumes _ quote u) h
          · cases h
        · split at h
          · cases h
          · cases h
            exact Nat.one_pos

end Lexeme

/-! ## Steps that fail -/

namespace Scanner

variable {s u : Scanner} {error : LexicalError}

theorem length_rest_advance_lt {n : Nat} (hne : s.rest ≠ []) (hn : 0 < n) :
    (s.advance n).rest.length < s.rest.length := by
  have hpos := List.length_pos_iff.mpr hne
  rw [advance, List.length_drop]
  omega

theorem length_rest_lexeme_lt {kind : TokenKind} {n : Nat} (hne : s.rest ≠ []) (hn : 0 < n)
    (h : s.lexeme kind n = (.error error, u)) : u.rest.length < s.rest.length := by
  unfold lexeme at h
  split at h
  · split at h
    · cases h
    · cases h
      exact length_rest_advance_lt hne hn
  · split at h
    · cases h
      exact length_rest_advance_lt hne hn
    · split at h
      · cases h
      · cases h
        exact length_rest_advance_lt (s := s.closeBracket) hne hn
  · cases h

theorem length_rest_scanToken_lt (h : s.scanToken = (.error error, u)) :
    u.rest.length < s.rest.length := by
  unfold scanToken at h
  split at h
  · unfold finish at h
    split at h <;> cases h
  · next c t hrest =>
    have hne : s.rest ≠ [] := by simp [hrest]
    split at h
    · cases h
    · split at h
      · cases h
        exact length_rest_advance_lt hne Nat.one_pos
      · split at h
        · cases h
        · split at h
          · next kind n hread =>
            rw [hrest] at hread
            exact length_rest_lexeme_lt hne (Lexeme.read_eq_ok hread).2 h
          · next fault hread =>
            cases h
            exact length_rest_advance_lt hne (Lexeme.taken_pos_of_read hread)

/-- Column zero is that of the module, which every line fits. -/
theorem measure_zero_ne_error (s : Scanner) : (s.measure 0).1 ≠ .error error := by
  unfold measure
  dsimp only
  split
  · simp
  · split
    · simp
    · next hcolumn =>
      have hhead := List.head?_dropWhile_not (fun c => decide (0 < c)) s.columns
      cases hdrop : s.columns.dropWhile (0 < ·) with
      | nil => simp [hdrop] at hcolumn
      | cons column outer =>
        rw [hdrop] at hhead hcolumn
        exact absurd (by simpa using hhead) hcolumn

theorem rest_measure (s : Scanner) (column : Nat) : (s.measure column).2.rest = s.rest :=
  (s.samePlace_measure column).rest

theorem length_rest_enterLine_lt (n : Nat) (h : (enterLine n s).1 = .error error) :
    (enterLine n s).2.rest.length < s.rest.length := by
  induction n generalizing s with
  | zero => cases h
  | succ n ih =>
    unfold enterLine at h ⊢
    dsimp only at h ⊢
    have hblank := s.length_rest_keep .whitespace (blanks s.rest).length
    generalize s.keep .whitespace (blanks s.rest).length = u at hblank h ⊢
    have hcomment := u.length_rest_keep .comment (commentLength u.rest)
    generalize u.keep .comment (commentLength u.rest) = v at hcomment h ⊢
    split at h
    · split at h
      · cases h
      · next hbreak hrest =>
        have hpos : 0 < (blanks s.rest).length := by
          rw [List.length_pos_iff]
          intro hnil
          rw [hnil] at h
          exact v.measure_zero_ne_error h
        have hlength : (blanks s.rest).length ≤ s.rest.length :=
          (List.takeWhile_sublist _).length_le
        rw [if_neg hrest, rest_measure]
        omega
    · next k hbreak =>
      have hnewline := v.length_rest_keep .newline (k + 1)
      have hrest := ih h
      omega

/-- Wherever a step fails, the text that is left gets shorter. -/
theorem length_rest_next_lt (h : s.next = (.error error, u)) : u.rest.length < s.rest.length := by
  unfold next at h
  split at h
  · next error' v hdue =>
    cases h
    unfold enterLineIfDue at hdue
    split at hdue
    · have hlt := length_rest_enterLine_lt (s.rest.length + 1)
        (s := { s with atLineStart := false }) (congrArg Prod.fst hdue)
      rwa [hdue] at hlt
    · cases hdue
  · next v hdue =>
    have hle : v.rest.length ≤ s.rest.length := by
      obtain ⟨ts, hgathers⟩ := s.gathers_enterLineIfDue
      rw [hdue] at hgathers
      rw [hgathers.passes.rest, List.length_append]
      exact Nat.le_add_left _ _
    split at h
    · cases h
    · cases h
    · obtain ⟨ts, hgathers⟩ := gathers_passTriviaUpTo v.rest.length v
      have hscan := length_rest_scanToken_lt h
      have hpass := congrArg List.length hgathers.passes.rest
      rw [List.length_append] at hpass
      rw [passTrivia] at hscan
      omega

end Scanner

end Verbatim
