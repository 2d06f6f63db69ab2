import Verbatim.Proofs.Lexeme.Operator

/-!
# Lexemes take text

A lexeme that is read has at least one character, and its kind is none of the markers that
stand for the structure of lines and blocks. A lexeme that cannot be read is at fault by
itself, not by the indentation of its line.
-/

namespace Verbatim

namespace Reading

theorem after_eq_ok_iff {n length : Nat} {reading : Reading} :
    reading.after n = .ok length ↔ ∃ m, reading = .ok m ∧ length = n + m := by
  cases reading with
  | ok m => simp [after, eq_comm]
  | error fault => simp [after]

theorem andThen_eq_ok_iff {first : Reading} {t : Text} {second : Text → Reading} {length : Nat} :
    first.andThen t second = .ok length ↔
      ∃ m n, first = .ok m ∧ second (t.drop m) = .ok n ∧ length = m + n := by
  cases first with
  | ok m => simp [andThen, after_eq_ok_iff]
  | error fault => simp [andThen]

end Reading

namespace Lexeme

theorem digitPart_pos {t : Text} {n : Nat} (ht : startsWithDigit t = true)
    (h : digitPart t = .ok n) : 0 < n := by
  cases t with
  | nil => simp [startsWithDigit] at ht
  | cons c t =>
    have hc : c.isDigit = true := by simpa [startsWithDigit] using ht
    rw [digitPart, if_pos hc] at h
    obtain ⟨m, _, rfl⟩ := Reading.after_eq_ok_iff.mp h
    omega

theorem fraction_pos {t : Text} {n : Nat} (h : fraction ('.' :: t) = .ok n) : 0 < n := by
  rw [fraction] at h
  split at h
  · obtain ⟨m, _, rfl⟩ := Reading.after_eq_ok_iff.mp h
    omega
  · cases h
    omega

theorem decimal_pos {t : Text} {n : Nat}
    (ht : startsWithDigit t = true ∨ t.head? = some '.') (h : decimal t = .ok n) : 0 < n := by
  unfold decimal at h
  split at h
  · cases h
  · next digits hdigits =>
    rcases ht with ht | ht
    · have := digitPart_pos ht hdigits
      split at h
      · split at h
        · cases h
        · cases h; omega
      · obtain ⟨m, _, rfl⟩ := Reading.after_eq_ok_iff.mp h
        omega
    · -- the digits in front of the point are missing, so the fraction is not
      obtain ⟨u, rfl⟩ : ∃ u, t = '.' :: u := by
        cases t with
        | nil => simp at ht
        | cons c u => exact ⟨u, by simpa using ht⟩
      have hd : digits = 0 := by
        have hpoint : digitPart ('.' :: u) = .ok 0 := by
          rw [digitPart, if_neg (by decide), if_neg (by decide)]
        rw [hpoint] at hdigits
        exact (Except.ok.inj hdigits).symm
      subst hd
      have htail : ∀ m, decimalTail ('.' :: u) = .ok m → 0 < m := by
        intro m hm
        obtain ⟨a, b, ha, _, rfl⟩ := Reading.andThen_eq_ok_iff.mp hm
        have := fraction_pos ha
        omega
      rw [List.drop_zero] at h
      split at h
      · next hzero => exact absurd (htail 0 hzero) (by omega)
      · obtain ⟨m, hm, rfl⟩ := Reading.after_eq_ok_iff.mp h
        have := htail m hm
        omega

theorem number_pos {t : Text} {n : Nat}
    (ht : startsWithDigit t = true ∨ t.head? = some '.') (h : number t = .ok n) : 0 < n := by
  unfold number at h
  split at h
  · obtain ⟨m, _, rfl⟩ := Reading.after_eq_ok_iff.mp h
    omega
  · exact decimal_pos ht h

theorem string_pos {letters n : Nat} {t : Text} (h : string letters t = .ok n) : 0 < n := by
  cases t with
  | nil => simp [string] at h
  | cons quote t =>
    rw [string] at h
    split at h
    · split at h
      · unfold Extent.reading at h
        split at h
        · cases h
          simp only [Extent.after_length]
          omega
        · cases h
      · cases h
        omega
    · unfold Extent.reading at h
      split at h
      · cases h
        simp only [Extent.after_length]
        omega
      · cases h

theorem mem_keywords_of_keyword? {word : Text} {kind : TokenKind}
    (h : TokenKind.keyword? word = some kind) : kind ∈ TokenKind.keywords :=
  List.mem_of_find?_eq_some h

/-- The kinds that a lexeme can have. -/
def kinds : List TokenKind :=
  [.number, .string, .name] ++ TokenKind.keywords ++ TokenKind.operators

theorem of_mem_kinds : ∀ kind ∈ kinds, kind.isStructural = false ∧ kind ≠ .typeComment := by
  decide

theorem wordKind_mem_kinds (word : Text) : wordKind word ∈ kinds := by
  unfold wordKind
  cases h : TokenKind.keyword? word with
  | none => simp [kinds]
  | some kind => simp [kinds, mem_keywords_of_keyword? h]

theorem wordLength_pos {c : Char} {t : Text} (h : isIdentifierStart c = true) :
    0 < wordLength (c :: t) := by
  have hc : isIdentifierContinue c = true := by
    simp only [isIdentifierStart, isIdentifierContinue, Bool.or_eq_true] at h ⊢
    exact .inl h
  simp [wordLength, hc]

theorem kinded_eq_ok_iff {kind kind' : TokenKind} {reading : Reading} {n : Nat} :
    kinded kind' reading = .ok (kind, n) ↔ kind' = kind ∧ reading = .ok n := by
  cases reading with
  | ok m => simp [kinded, Except.map]
  | error fault => simp [kinded, Except.map]

theorem mem_kinds_of_read {c : Char} {t : Text} {kind : TokenKind} {n : Nat}
    (h : read (c :: t) = .ok (kind, n)) : kind ∈ kinds ∧ 0 < n := by
  rw [read] at h
  split at h
  · next hnumber =>
    obtain ⟨rfl, hn⟩ := kinded_eq_ok_iff.mp h
    refine ⟨by simp [kinds], number_pos ?_ hn⟩
    simp only [Bool.or_eq_true, Bool.and_eq_true, beq_iff_eq] at hnumber
    exact hnumber.imp (by simp [startsWithDigit]) (by simp_all)
  · split at h
    · obtain ⟨rfl, hn⟩ := kinded_eq_ok_iff.mp h
      exact ⟨by simp [kinds], string_pos hn⟩
    · split at h
      · next hstart =>
        rw [word] at h
        split at h
        · obtain ⟨rfl, hn⟩ := kinded_eq_ok_iff.mp h
          exact ⟨by simp [kinds], string_pos hn⟩
        · cases h
          exact ⟨wordKind_mem_kinds _, wordLength_pos hstart⟩
      · split at h
        · next hoperator =>
          cases h
          exact ⟨List.mem_append_right _ (mem_operators_of_operator? hoperator),
            operator?_pos hoperator⟩
        · cases h

theorem read_eq_ok {c : Char} {t : Text} {kind : TokenKind} {n : Nat}
    (h : read (c :: t) = .ok (kind, n)) : kind.isStructural = false ∧ 0 < n := by
  obtain ⟨hmem, hpos⟩ := mem_kinds_of_read h
  exact ⟨(of_mem_kinds kind hmem).1, hpos⟩

end Lexeme

/-! ## Faults -/

/-- What is wrong with the reading of a lexeme is never the indentation of its line. -/
def Reading.BlamesText (reading : Reading) : Prop :=
  ∀ fault, reading = .error fault → fault.cause ≠ .inconsistentIndentation

namespace Reading

@[simp]
theorem blamesText_ok (length : Nat) : BlamesText (.ok length) := by
  intro fault h
  cases h

@[simp]
theorem blamesText_error {fault : Fault} :
    BlamesText (.error fault) ↔ fault.cause ≠ .inconsistentIndentation := by
  constructor
  · intro h
    exact h fault rfl
  · rintro h _ ⟨⟩
    exact h

theorem BlamesText.after {reading : Reading} (h : reading.BlamesText) (n : Nat) :
    (reading.after n).BlamesText := by
  cases reading with
  | ok length => exact blamesText_ok _
  | error fault => exact blamesText_error.mpr (h fault rfl)

theorem BlamesText.andThen {first : Reading} {t : Text} {second : Text → Reading}
    (h : first.BlamesText) (h' : ∀ u, (second u).BlamesText) :
    (first.andThen t second).BlamesText := by
  cases first with
  | ok length => exact (h' _).after length
  | error fault => exact h

end Reading

namespace Lexeme

theorem digitPart_blamesText (t : Text) : (digitPart t).BlamesText := by
  induction t with
  | nil => exact Reading.blamesText_ok 0
  | cons c t ih =>
    rw [digitPart]
    split
    · exact ih.after 1
    · split
      · split
        · exact ih.after 1
        · simp
      · simp

theorem radixEnd_blamesText (radix : Radix) (anyDigit : Bool) (t : Text) :
    (radixEnd radix anyDigit t).BlamesText := by
  unfold radixEnd
  split
  · split
    · simp
    · split <;> simp
  · split <;> simp

theorem radixDigits_blamesText (radix : Radix) (anyDigit : Bool) (t : Text) :
    (radixDigits radix anyDigit t).BlamesText := by
  induction t generalizing anyDigit with
  | nil => exact radixEnd_blamesText radix anyDigit []
  | cons c t ih =>
    unfold radixDigits
    split
    · exact (ih true).after 1
    · split
      · split
        · split
          · exact (ih anyDigit).after 1
          · split <;> simp
        · simp
      · exact radixEnd_blamesText radix anyDigit (c :: t)

theorem fraction_blamesText (t : Text) : (fraction t).BlamesText := by
  unfold fraction
  split
  · split
    · exact (digitPart_blamesText _).after 1
    · simp
  · simp

theorem exponent_blamesText (t : Text) : (exponent t).BlamesText := by
  unfold exponent
  split
  · split
    · split
      · split
        · split
          · exact (digitPart_blamesText _).after 2
          · simp
        · split
          · exact (digitPart_blamesText _).after 1
          · simp
      · simp
    · simp
  · simp

theorem imaginary_blamesText (t : Text) : (imaginary t).BlamesText := by
  unfold imaginary
  split
  · split <;> simp
  · simp

theorem decimalTail_blamesText (t : Text) : (decimalTail t).BlamesText :=
  (fraction_blamesText t).andThen fun u => (exponent_blamesText u).andThen imaginary_blamesText

theorem decimal_blamesText (t : Text) : (decimal t).BlamesText := by
  unfold decimal
  split
  · next fault h =>
    rw [← h]
    exact digitPart_blamesText t
  · next digits _ =>
    split
    · split <;> simp
    · exact (decimalTail_blamesText _).after digits

theorem number_blamesText (t : Text) : (number t).BlamesText := by
  unfold number
  split
  · exact (radixDigits_blamesText _ _ _).after 2
  · exact decimal_blamesText t

theorem extent_blamesText (width : QuoteWidth) (extent : Extent) :
    (extent.reading width).BlamesText := by
  unfold Extent.reading
  split
  · simp
  · cases width <;> simp [QuoteWidth.unterminated]

theorem string_blamesText (letters : Nat) (t : Text) : (string letters t).BlamesText := by
  cases t with
  | nil => simp [string]
  | cons quote t =>
    rw [string]
    split
    · split
      · exact extent_blamesText .triple _
      · simp
    · exact extent_blamesText .single _

theorem read_eq_error {t : Text} {fault : Fault} (h : read t = .error fault) :
    fault.cause ≠ .inconsistentIndentation := by
  have of_kinded : ∀ {kind : TokenKind} {reading : Reading}, reading.BlamesText →
      kinded kind reading = .error fault → fault.cause ≠ .inconsistentIndentation := by
    intro kind reading hreading h
    cases reading with
    | ok m => cases h
    | error fault' => cases h; exact hreading _ rfl
  cases t with
  | nil => cases h
  | cons c t =>
    rw [read] at h
    split at h
    · exact of_kinded (number_blamesText _) h
    · split at h
      · exact of_kinded (string_blamesText _ _) h
      · split at h
        · rw [word] at h
          split at h
          · exact of_kinded (string_blamesText _ _) h
          · cases h
        · split at h
          · cases h
          · cases h
            simp

end Lexeme

end Verbatim
