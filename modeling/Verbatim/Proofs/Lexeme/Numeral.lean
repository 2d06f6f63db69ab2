import Verbatim.Proofs.Lexeme.Token

/-!
# The grammar of numbers

The texts of numbers are those of a grammar: an integer in a named base, or digits with an optional
fraction, exponent and imaginary mark. Each reader of a part of a number takes a text of that part,
and takes all of it when nothing behind it goes on with it.
-/

namespace Verbatim

namespace Lexeme

/-- Digits, each with or without an underscore in front of it. -/
inductive Digits (isDigit : Char → Bool) : Text → Prop
  | nil : Digits isDigit []
  | digit {c : Char} {t : Text} (hc : isDigit c = true) (rest : Digits isDigit t) :
      Digits isDigit (c :: t)
  | underscore {c : Char} {t : Text} (hc : isDigit c = true) (rest : Digits isDigit t) :
      Digits isDigit ('_' :: c :: t)

/-- The digits of a decimal number. The first one has no underscore in front of it. -/
structure DigitPart (t : Text) : Prop where
  digits : Digits Char.isDigit t
  starts : startsWithDigit t = true

inductive Fraction : Text → Prop
  | absent : Fraction []
  | point : Fraction ['.']
  | digits {t : Text} (h : DigitPart t) : Fraction ('.' :: t)

/-- A decimal number up to its exponent. -/
inductive Mantissa : Text → Prop
  | whole {t f : Text} (h : DigitPart t) (hf : Fraction f) : Mantissa (t ++ f)
  | point {t : Text} (h : DigitPart t) : Mantissa ('.' :: t)

inductive Exponent : Text → Prop
  | absent : Exponent []
  | plain {mark : Char} {t : Text} (hmark : mark = 'e' ∨ mark = 'E') (h : DigitPart t) :
      Exponent (mark :: t)
  | signed {mark sign : Char} {t : Text} (hmark : mark = 'e' ∨ mark = 'E')
      (hsign : sign = '+' ∨ sign = '-') (h : DigitPart t) : Exponent (mark :: sign :: t)

inductive Imaginary : Text → Prop
  | absent : Imaginary []
  | mark {c : Char} (hc : c = 'j' ∨ c = 'J') : Imaginary [c]

/-- The text of a number that stands in front of another text. In a decimal integer that begins
with zero all digits are zeros. -/
inductive Numeral : Text → Text → Prop
  | based {mark : Char} {base : Radix} {t after : Text} (hmark : Radix.ofMark? mark = some base)
      (h : Digits base.isDigit t) (hne : t ≠ [])
      (hafter : ∀ c ∈ after.head?, isIdentifierContinue c = false) :
      Numeral ('0' :: mark :: t) after
  | decimal {m e j after : Text} (hm : Mantissa m) (he : Exponent e) (hj : Imaginary j)
      (hzeros : '.' ∉ m → e = [] → j = [] → m.head? = some '0' →
        ∀ c ∈ m, c.isDigit = true → c = '0') :
      Numeral (m ++ e ++ j) after

variable {t u : Text} {n : Nat}

/-! ## What the readers take -/

/-- An underscore may stand in front of a digit. -/
theorem Digits.cons_underscore {isDigit : Char → Bool} (h : Digits isDigit t)
    (hunderscore : isDigit '_' = false) (hstarts : t.head?.any isDigit = true) :
    Digits isDigit ('_' :: t) := by
  cases h with
  | nil => cases hstarts
  | digit hc rest => exact .underscore hc rest
  | underscore =>
    rw [List.head?_cons, Option.any_some, hunderscore] at hstarts
    cases hstarts

theorem DigitPart.cons_underscore (h : DigitPart t) : Digits Char.isDigit ('_' :: t) :=
  h.digits.cons_underscore (by decide) h.starts

theorem DigitPart.of_take (hstarts : startsWithDigit t = true) (hn : 0 < n)
    (h : Digits Char.isDigit (t.take n)) : DigitPart (t.take n) := by
  constructor
  · exact h
  · cases t with
    | nil => cases hstarts
    | cons c t =>
      rw [← Nat.succ_pred_eq_of_pos hn, List.take_succ_cons]
      exact hstarts

theorem take_one_add (c : Char) (t : Text) (n : Nat) : (c :: t).take (1 + n) = c :: t.take n := by
  rw [Nat.add_comm, List.take_succ_cons]

theorem take_two_add (c d : Char) (t : Text) (n : Nat) :
    (c :: d :: t).take (2 + n) = c :: d :: t.take n := by
  rw [Nat.add_comm, List.take_succ_cons, List.take_succ_cons]

theorem digits_of_digitPart (h : digitPart t = .ok n) : Digits Char.isDigit (t.take n) := by
  induction t generalizing n with
  | nil =>
    rw [List.take_nil]
    exact .nil
  | cons c t ih =>
    rw [digitPart] at h
    split at h
    · next hc =>
      obtain ⟨m, hm, rfl⟩ := Reading.after_eq_ok_iff.mp h
      rw [take_one_add]
      exact .digit hc (ih hm)
    · split at h
      · next hc =>
        split at h
        · next hstarts =>
          obtain ⟨m, hm, rfl⟩ := Reading.after_eq_ok_iff.mp h
          rw [take_one_add, hc]
          exact (DigitPart.of_take hstarts (digitPart_pos hstarts hm) (ih hm)).cons_underscore
        · cases h
      · cases h
        exact .nil

theorem digitPart_sound (hstarts : startsWithDigit t = true) (h : digitPart t = .ok n) :
    DigitPart (t.take n) :=
  .of_take hstarts (digitPart_pos hstarts h) (digits_of_digitPart h)

theorem fraction_sound (h : fraction t = .ok n) : Fraction (t.take n) := by
  unfold fraction at h
  split at h
  · next t =>
    split at h
    · next hstarts =>
      obtain ⟨m, hm, rfl⟩ := Reading.after_eq_ok_iff.mp h
      rw [take_one_add]
      exact .digits (digitPart_sound hstarts hm)
    · cases h
      exact .point
  · cases h
    exact .absent

theorem exponent_sound (h : exponent t = .ok n) : Exponent (t.take n) := by
  unfold exponent at h
  split at h
  · next mark t =>
    split at h
    · next hmark =>
      split at h
      · next sign t =>
        split at h
        · next hsign =>
          split at h
          · next hstarts =>
            obtain ⟨m, hm, rfl⟩ := Reading.after_eq_ok_iff.mp h
            rw [take_two_add]
            exact .signed hmark hsign (digitPart_sound hstarts hm)
          · cases h
        · split at h
          · next hdigit =>
            obtain ⟨m, hm, rfl⟩ := Reading.after_eq_ok_iff.mp h
            rw [take_one_add]
            exact .plain hmark (digitPart_sound hdigit hm)
          · cases h
            exact .absent
      · cases h
        exact .absent
    · cases h
      exact .absent
  · cases h
    exact .absent

theorem imaginary_sound (h : imaginary t = .ok n) : Imaginary (t.take n) := by
  unfold imaginary at h
  split at h
  · split at h
    · next hc =>
      cases h
      exact .mark hc
    · cases h
      exact .absent
  · cases h
    exact .absent

theorem Digits.mem {isDigit : Char → Bool} (h : Digits isDigit t) :
    ∀ c ∈ t, c = '_' ∨ isDigit c = true := by
  induction h with
  | nil => exact List.forall_mem_nil _
  | digit hc _ ih => exact List.forall_mem_cons.mpr ⟨.inr hc, ih⟩
  | underscore hc _ ih =>
    exact List.forall_mem_cons.mpr ⟨.inl rfl, List.forall_mem_cons.mpr ⟨.inr hc, ih⟩⟩

theorem isDigit_iff {c : Char} :
    c.isDigit = true ↔ c = '0' ∨ ('1' ≤ c && c ≤ '9') = true := by
  have hzero : '0'.val.toNat = 48 := rfl
  have hone : '1'.val.toNat = 49 := rfl
  have hnine : '9'.val.toNat = 57 := rfl
  simp only [Char.isDigit, Bool.and_eq_true, decide_eq_true_eq, ge_iff_le, Char.le_def,
    UInt32.le_iff_toNat_le, ← Char.toNat_inj, hzero, hone, hnine, Char.toNat]
  omega

theorem hasLeadingZeros_eq_false_iff : hasLeadingZeros t = false ↔
    (t.head? = some '0' → ∀ c ∈ t, c.isDigit = true → c = '0') := by
  simp only [hasLeadingZeros, Bool.and_eq_false_imp, beq_iff_eq, List.any_eq_false, isDigit_iff]
  constructor
  · intro h hhead c hc hdigit
    exact hdigit.resolve_right (h hhead c hc)
  · intro h hhead c hc hrange
    obtain rfl := h hhead c hc (.inr hrange)
    exact absurd hrange (by decide)

/-- The lengths of the four parts of a decimal number. -/
structure Parts (t : Text) (k a b d : Nat) : Prop where
  digits : digitPart t = .ok k
  fraction : fraction (t.drop k) = .ok a
  exponent : exponent (t.drop (k + a)) = .ok b
  imaginary : imaginary (t.drop (k + a + b)) = .ok d
  zeros : a = 0 → b = 0 → d = 0 → hasLeadingZeros (t.take k) = false

theorem decimal_eq_ok_iff :
    decimal t = .ok n ↔ ∃ k a b d, Parts t k a b d ∧ n = k + a + b + d := by
  have htail (k m : Nat) : decimalTail (t.drop k) = .ok m ↔
      ∃ a b d, fraction (t.drop k) = .ok a ∧ exponent (t.drop (k + a)) = .ok b ∧
        imaginary (t.drop (k + a + b)) = .ok d ∧ m = a + b + d := by
    simp only [decimalTail, Reading.andThen_eq_ok_iff, List.drop_drop]
    constructor
    · rintro ⟨a, _, hfraction, ⟨b, d, hexponent, himaginary, rfl⟩, rfl⟩
      exact ⟨a, b, d, hfraction, hexponent, himaginary, (Nat.add_assoc _ _ _).symm⟩
    · rintro ⟨a, b, d, hfraction, hexponent, himaginary, rfl⟩
      exact ⟨a, b + d, hfraction, ⟨b, d, hexponent, himaginary, rfl⟩, Nat.add_assoc _ _ _⟩
  constructor
  · intro h
    unfold decimal at h
    split at h
    · cases h
    next k hdigits =>
    split at h
    · next hzero =>
      obtain ⟨a, b, d, hfraction, hexponent, himaginary, hsum⟩ := (htail k 0).mp hzero
      split at h
      · cases h
      · next hzeros =>
        cases h
        exact ⟨n, a, b, d, ⟨hdigits, hfraction, hexponent, himaginary,
          fun _ _ _ => by simpa using hzeros⟩, by omega⟩
    · next hnonzero =>
      obtain ⟨m, hm, rfl⟩ := Reading.after_eq_ok_iff.mp h
      obtain ⟨a, b, d, hfraction, hexponent, himaginary, rfl⟩ := (htail k m).mp hm
      refine ⟨k, a, b, d, ⟨hdigits, hfraction, hexponent, himaginary, ?_⟩, by omega⟩
      rintro rfl rfl rfl
      exact absurd hm hnonzero
  · rintro ⟨k, a, b, d, ⟨hdigits, hfraction, hexponent, himaginary, hzeros⟩, rfl⟩
    have hm := (htail k (a + b + d)).mpr ⟨a, b, d, hfraction, hexponent, himaginary, rfl⟩
    unfold decimal
    rw [hdigits]
    dsimp only
    rw [hm]
    split
    · next hsum =>
      have hsum : a + b + d = 0 := Except.ok.inj hsum
      rw [hzeros (by omega) (by omega) (by omega), if_neg Bool.false_ne_true]
      exact congrArg Except.ok (by omega)
    · rw [Reading.after_ok]
      exact congrArg Except.ok (by omega)

/-- The head of a number is a digit, or a point in front of one. -/
theorem startsNumber_iff : startsNumber t = true ↔
    startsWithDigit t = true ∨ ∃ u, t = '.' :: u ∧ startsWithDigit u = true := by
  cases t with
  | nil => simp [startsNumber, startsWithDigit]
  | cons c t =>
    rw [startsNumber, Bool.or_eq_true, Bool.and_eq_true, beq_iff_eq]
    constructor
    · rintro (hdigit | ⟨rfl, hstarts⟩)
      · exact .inl hdigit
      · exact .inr ⟨t, rfl, hstarts⟩
    · rintro (hdigit | ⟨u, heq, hstarts⟩)
      · exact .inl hdigit
      · obtain ⟨rfl, rfl⟩ := List.cons.inj heq
        exact .inr ⟨rfl, hstarts⟩

theorem mantissa_sound {k a : Nat} (hstarts : startsNumber t = true) (hdigits : digitPart t = .ok k)
    (hfraction : fraction (t.drop k) = .ok a) : Mantissa (t.take (k + a)) := by
  rcases startsNumber_iff.mp hstarts with hdigit | ⟨u, rfl, hdigit⟩
  · rw [List.take_add]
    exact .whole (digitPart_sound hdigit hdigits) (fraction_sound hfraction)
  · rw [digitPart, if_neg (by decide), if_neg (by decide)] at hdigits
    cases hdigits
    rw [List.drop_zero, fraction, if_pos hdigit] at hfraction
    obtain ⟨m, hm, rfl⟩ := Reading.after_eq_ok_iff.mp hfraction
    rw [Nat.zero_add, take_one_add]
    exact .point (digitPart_sound hdigit hm)

theorem Fraction.eq_nil (h : Fraction t) (hpoint : '.' ∉ t) : t = [] := by
  cases h with
  | absent => rfl
  | point => exact absurd List.mem_cons_self hpoint
  | digits => exact absurd List.mem_cons_self hpoint

theorem eq_zero_of_take_eq_nil (hn : n ≤ t.length) (h : t.take n = []) : n = 0 := by
  have hlength := congrArg List.length h
  rwa [List.length_take_of_le hn] at hlength

theorem Parts.eq_zero {k a b d : Nat} (h : Parts t k a b d) (hpoint : '.' ∉ t.take (k + a))
    (he : (t.drop (k + a)).take b = []) (hj : (t.drop (k + a + b)).take d = []) :
    a = 0 ∧ b = 0 ∧ d = 0 := by
  have hfraction := within_fraction (t.drop k)
  have hexponent := within_exponent (t.drop (k + a))
  have himaginary := within_imaginary (t.drop (k + a + b))
  rw [h.fraction] at hfraction
  rw [h.exponent] at hexponent
  rw [h.imaginary] at himaginary
  rw [List.take_add, List.mem_append, not_or] at hpoint
  have hf := (fraction_sound h.fraction).eq_nil hpoint.2
  constructor
  · exact eq_zero_of_take_eq_nil hfraction hf
  constructor
  · exact eq_zero_of_take_eq_nil hexponent he
  · exact eq_zero_of_take_eq_nil himaginary hj

theorem decimal_sound {after : Text} (hstarts : startsNumber t = true) (h : decimal t = .ok n) :
    Numeral (t.take n) after := by
  obtain ⟨k, a, b, d, hparts, rfl⟩ := decimal_eq_ok_iff.mp h
  have hm := mantissa_sound hstarts hparts.digits hparts.fraction
  rw [List.take_add, List.take_add]
  refine .decimal hm (exponent_sound hparts.exponent) (imaginary_sound hparts.imaginary) ?_
  intro hpoint he hj
  obtain ⟨rfl, rfl, rfl⟩ := hparts.eq_zero hpoint he hj
  exact hasLeadingZeros_eq_false_iff.mp (hparts.zeros rfl rfl rfl)

theorem radixEnd_sound {base : Radix} {anyDigit : Bool} (h : radixEnd base anyDigit t = .ok n) :
    n = 0 ∧ anyDigit = true ∧ ∀ c ∈ t.head?, isIdentifierContinue c = false := by
  unfold radixEnd at h
  split at h
  · next c u =>
    split at h
    · cases h
    · split at h
      · cases h
      · next hcontinue =>
        cases h
        simp only [Bool.or_eq_true, not_or, Bool.not_eq_true, Bool.not_eq_false'] at hcontinue
        refine ⟨rfl, hcontinue.2, ?_⟩
        rintro _ ⟨⟩
        exact hcontinue.1
  · split at h
    · next hany =>
      cases h
      exact ⟨rfl, hany, by simp⟩
    · cases h

theorem isDigit_underscore (base : Radix) : base.isDigit '_' = false := by
  cases base <;> decide

theorem radixDigits_cons_digit {base : Radix} {anyDigit : Bool} {c : Char}
    (hc : base.isDigit c = true) :
    radixDigits base anyDigit (c :: t) = (radixDigits base true t).after 1 := by
  rw [radixDigits.eq_def]
  exact if_pos hc

theorem radixDigits_underscore {base : Radix} {anyDigit : Bool} {c : Char}
    (hc : base.isDigit c = true) :
    radixDigits base anyDigit ('_' :: c :: t) =
      (radixDigits base anyDigit (c :: t)).after 1 := by
  rw [radixDigits.eq_def]
  simp only [isDigit_underscore, hc, if_true, Bool.false_eq_true, if_false]

/-- What the digits of a number with a named base are, and what comes behind them. -/
structure RadixPart (base : Radix) (anyDigit : Bool) (t after : Text) : Prop where
  digits : Digits base.isDigit t
  some : anyDigit = true ∨ t ≠ []
  stops : ∀ c ∈ after.head?, isIdentifierContinue c = false

theorem radixDigits_sound {base : Radix} {anyDigit : Bool}
    (h : radixDigits base anyDigit t = .ok n) :
    RadixPart base anyDigit (t.take n) (t.drop n) := by
  fun_induction radixDigits base anyDigit t generalizing n with
  | case1 anyDigit =>
    obtain ⟨rfl, hany, hstops⟩ := radixEnd_sound h
    exact ⟨.nil, .inl hany, hstops⟩
  | case2 anyDigit c t hc ih =>
    obtain ⟨m, hm, rfl⟩ := Reading.after_eq_ok_iff.mp h
    obtain ⟨hdigits, -, hstops⟩ := ih hm
    rw [take_one_add, Nat.add_comm]
    exact ⟨.digit hc hdigits, .inr (List.cons_ne_nil _ _), hstops⟩
  | case3 anyDigit d u hd _ ih =>
    obtain ⟨m, hm, rfl⟩ := Reading.after_eq_ok_iff.mp h
    obtain ⟨hdigits, -, hstops⟩ := ih hm
    rw [radixDigits_cons_digit hd] at hm
    obtain ⟨k, -, rfl⟩ := Reading.after_eq_ok_iff.mp hm
    rw [take_one_add] at hdigits
    rw [take_one_add, take_one_add, Nat.add_comm]
    exact ⟨hdigits.cons_underscore (isDigit_underscore base) hd, .inr (List.cons_ne_nil _ _),
      hstops⟩
  | case4 => cases h
  | case5 => cases h
  | case6 => cases h
  | case7 anyDigit c t hc hunderscore =>
    obtain ⟨rfl, hany, hstops⟩ := radixEnd_sound h
    exact ⟨.nil, .inl hany, hstops⟩

theorem radixDigits_complete {base : Radix} {anyDigit : Bool} (h : Digits base.isDigit t)
    (hany : anyDigit = true ∨ t ≠ []) : radixDigits base anyDigit t = .ok t.length := by
  induction h generalizing anyDigit with
  | nil =>
    have hany : anyDigit = true := hany.resolve_right fun hne => hne rfl
    rw [radixDigits, radixEnd, if_pos hany]
    rfl
  | digit hc _ ih =>
    rw [radixDigits_cons_digit hc, ih (.inl rfl), Reading.after_ok, List.length_cons, Nat.add_comm]
  | underscore hc _ ih =>
    rw [radixDigits_underscore hc, radixDigits_cons_digit hc, ih (.inl rfl), Reading.after_ok,
      Reading.after_ok, List.length_cons, List.length_cons]
    exact congrArg Except.ok (by omega)

theorem number_sound (hstarts : startsNumber t = true) (h : number t = .ok n) :
    Numeral (t.take n) (t.drop n) := by
  unfold number at h
  split at h
  · next base hbase =>
    obtain ⟨m, hm, rfl⟩ := Reading.after_eq_ok_iff.mp h
    unfold radixOf? at hbase
    split at hbase
    · next mark u =>
      obtain ⟨hdigits, hsome, hstops⟩ := radixDigits_sound hm
      rw [take_two_add, Nat.add_comm]
      exact .based hbase hdigits (hsome.resolve_left Bool.false_ne_true) hstops
    · cases hbase
  · exact decimal_sound hstarts h

/-! ## What the readers take of the text of a part -/

/-- The text does not go on with the digits, the fraction or the exponent in front of it. -/
structure Stops (t : Text) : Prop where
  digit : ∀ c ∈ t.head?, c.isDigit = false
  underscore : t.head? ≠ some '_'

theorem digitPart_complete (h : Digits Char.isDigit t) (hu : Stops u) :
    digitPart (t ++ u) = .ok t.length := by
  induction h with
  | nil =>
    cases u with
    | nil => rfl
    | cons c u =>
      have hdigit := hu.digit c rfl
      have hunderscore : c ≠ '_' := fun hc => hu.underscore (congrArg some hc)
      rw [List.nil_append, digitPart, if_neg (by simp [hdigit]), if_neg hunderscore]
      rfl
  | @digit c t hc _ ih =>
    rw [List.cons_append, digitPart, if_pos hc, ih, Reading.after_ok, List.length_cons,
      Nat.add_comm]
  | @underscore c t hc _ ih =>
    have hstarts : startsWithDigit (c :: (t ++ u)) = true := hc
    rw [List.cons_append, List.cons_append, digitPart, if_neg (by decide), if_pos rfl,
      if_pos hstarts, digitPart, if_pos hc, ih, Reading.after_ok, Reading.after_ok,
      List.length_cons, List.length_cons]
    exact congrArg Except.ok (by omega)

theorem startsWithDigit_of_stops (h : Stops t) : startsWithDigit t = false := by
  cases t with
  | nil => rfl
  | cons c t => simpa [startsWithDigit] using h.digit c rfl

theorem DigitPart.startsWithDigit_append (h : DigitPart t) : startsWithDigit (t ++ u) = true := by
  obtain ⟨-, hstarts⟩ := h
  cases t with
  | nil => cases hstarts
  | cons c t => exact hstarts

theorem fraction_complete (h : Fraction t) (hu : Stops u) (hpoint : u.head? ≠ some '.') :
    fraction (t ++ u) = .ok t.length := by
  cases h with
  | absent =>
    unfold fraction
    split
    · next v heq => exact absurd (congrArg List.head? heq) hpoint
    · rfl
  | point =>
    show fraction ('.' :: u) = .ok 1
    rw [fraction, startsWithDigit_of_stops hu, if_neg Bool.false_ne_true]
  | @digits t h =>
    rw [List.cons_append, fraction, if_pos h.startsWithDigit_append,
      digitPart_complete h.digits hu, Reading.after_ok, List.length_cons, Nat.add_comm]

theorem exponent_complete (h : Exponent t) (hu : Stops u)
    (hmark : ∀ c ∈ u.head?, ¬ (c = 'e' ∨ c = 'E')) : exponent (t ++ u) = .ok t.length := by
  cases h with
  | absent =>
    cases u with
    | nil => rfl
    | cons c u =>
      rw [List.nil_append, exponent.eq_def]
      exact if_neg (hmark c rfl)
  | @plain mark t hmark h =>
    have hstarts := h.startsWithDigit_append (u := u)
    have hread := digitPart_complete h.digits hu
    rw [List.cons_append]
    generalize t ++ u = v at hstarts hread
    cases v with
    | nil => cases hstarts
    | cons c v =>
      have hdigit : c.isDigit = true := hstarts
      have hsign : ¬ (c = '+' ∨ c = '-') := by
        rintro (rfl | rfl) <;> cases hdigit
      rw [exponent, if_pos hmark, if_neg hsign, if_pos hdigit, hread, Reading.after_ok,
        List.length_cons, Nat.add_comm]
  | @signed mark sign t hmark hsign h =>
    rw [List.cons_append, List.cons_append, exponent, if_pos hmark, if_pos hsign,
      if_pos h.startsWithDigit_append, digitPart_complete h.digits hu, Reading.after_ok,
      List.length_cons, List.length_cons]
    exact congrArg Except.ok (by omega)

theorem imaginary_complete (h : Imaginary t) : imaginary t = .ok t.length := by
  cases h with
  | absent => rfl
  | mark hc => exact if_pos hc

/-! ## Parts one behind the other -/

/-- The characters that a part of a decimal number other than the first one begins with. -/
def marks : List Char :=
  ['.', 'e', 'E', 'j', 'J']

theorem stops_of_marks (h : ∀ c ∈ t.head?, c ∈ marks) : Stops t := by
  have hmarks : ∀ c ∈ marks, c.isDigit = false ∧ c ≠ '_' := by simp [marks]
  constructor
  · exact fun c hc => (hmarks c (h c hc)).1
  · exact fun hc => (hmarks '_' (h '_' hc)).2 rfl

theorem forall_head?_append {p : Char → Prop} (ht : ∀ c ∈ t.head?, p c)
    (hu : ∀ c ∈ u.head?, p c) : ∀ c ∈ (t ++ u).head?, p c := by
  cases t with
  | nil => exact hu
  | cons c t => exact ht

theorem Fraction.head? (h : Fraction t) : ∀ c ∈ t.head?, c = '.' := by
  cases h <;> simp

theorem Exponent.head? (h : Exponent t) : ∀ c ∈ t.head?, c = 'e' ∨ c = 'E' := by
  cases h <;> simp_all

theorem Imaginary.head? (h : Imaginary t) : ∀ c ∈ t.head?, c = 'j' ∨ c = 'J' := by
  cases h <;> simp_all

theorem ofMark?_eq_none {c : Char} (h : c ∉ ['b', 'B', 'o', 'O', 'x', 'X']) :
    Radix.ofMark? c = none := by
  simp only [List.mem_cons, List.not_mem_nil, or_false, not_or] at h
  unfold Radix.ofMark?
  split <;> simp_all

theorem ofMark?_of_mem_digits (h : Digits Char.isDigit t) : ∀ c ∈ t, Radix.ofMark? c = none := by
  intro c hc
  apply ofMark?_eq_none
  intro hmem
  have hmarks : ∀ c ∈ ['b', 'B', 'o', 'O', 'x', 'X'], c ≠ '_' ∧ c.isDigit = false := by simp
  obtain ⟨hunderscore, hdigit⟩ := hmarks c hmem
  rcases h.mem c hc with rfl | hc
  · exact hunderscore rfl
  · rw [hdigit] at hc
    cases hc

theorem Fraction.ofMark? (h : Fraction t) : ∀ c ∈ t, Radix.ofMark? c = none := by
  have hpoint : Radix.ofMark? '.' = none := rfl
  cases h with
  | absent => exact List.forall_mem_nil _
  | point => exact List.forall_mem_singleton.mpr hpoint
  | digits h => exact List.forall_mem_cons.mpr ⟨hpoint, ofMark?_of_mem_digits h.digits⟩

/-- Digits in front of the point, if there are any, and a fraction. -/
theorem Mantissa.split (h : Mantissa t) :
    ∃ w f, t = w ++ f ∧ Digits Char.isDigit w ∧ Fraction f := by
  cases h with
  | whole h hf => exact ⟨_, _, rfl, h.digits, hf⟩
  | point h => exact ⟨[], _, rfl, .nil, .digits h⟩

theorem Exponent.ofMark? (h : Exponent t) : ∀ c ∈ t, Radix.ofMark? c = none := by
  have hmark {c : Char} (hc : c = 'e' ∨ c = 'E') : Radix.ofMark? c = none := by
    rcases hc with rfl | rfl <;> rfl
  have hsign {c : Char} (hc : c = '+' ∨ c = '-') : Radix.ofMark? c = none := by
    rcases hc with rfl | rfl <;> rfl
  cases h with
  | absent => exact List.forall_mem_nil _
  | plain hc h => exact List.forall_mem_cons.mpr ⟨hmark hc, ofMark?_of_mem_digits h.digits⟩
  | signed hc hc' h =>
    exact List.forall_mem_cons.mpr
      ⟨hmark hc, List.forall_mem_cons.mpr ⟨hsign hc', ofMark?_of_mem_digits h.digits⟩⟩

theorem Imaginary.ofMark? (h : Imaginary t) : ∀ c ∈ t, Radix.ofMark? c = none := by
  cases h with
  | absent => exact List.forall_mem_nil _
  | mark hc =>
    rintro c hmem
    obtain rfl := List.mem_singleton.mp hmem
    rcases hc with rfl | rfl <;> rfl

theorem radixOf?_eq_none (h : ∀ c ∈ t, Radix.ofMark? c = none) : radixOf? t = none := by
  unfold radixOf?
  split
  · exact h _ (by simp)
  · rfl

/-! ## The grammar is complete -/

theorem decimal_of_parts {w f e j : Text} (hdigits : digitPart (w ++ (f ++ (e ++ j))) = .ok w.length)
    (hfraction : fraction (f ++ (e ++ j)) = .ok f.length)
    (hexponent : exponent (e ++ j) = .ok e.length) (himaginary : imaginary j = .ok j.length)
    (hzeros : f = [] → e = [] → j = [] → hasLeadingZeros w = false) :
    decimal (w ++ (f ++ (e ++ j))) = .ok (w ++ (f ++ (e ++ j))).length := by
  rw [decimal_eq_ok_iff]
  refine ⟨w.length, f.length, e.length, j.length, ?_, by simp only [List.length_append, Nat.add_assoc]⟩
  constructor
  · exact hdigits
  · rw [List.drop_left]
    exact hfraction
  · rw [← List.append_assoc w, List.drop_left' (by simp)]
    exact hexponent
  · rw [← List.append_assoc w, ← List.append_assoc (w ++ f), List.drop_left' (by simp only [List.length_append])]
    exact himaginary
  · rw [List.take_left]
    intro hf he hj
    exact hzeros (List.length_eq_zero_iff.mp hf) (List.length_eq_zero_iff.mp he)
      (List.length_eq_zero_iff.mp hj)

theorem decimal_complete {m e j : Text} (hm : Mantissa m) (he : Exponent e) (hj : Imaginary j)
    (hzeros : '.' ∉ m → e = [] → j = [] → m.head? = some '0' →
      ∀ c ∈ m, c.isDigit = true → c = '0') :
    decimal (m ++ e ++ j) = .ok (m ++ e ++ j).length := by
  obtain ⟨w, f, rfl, hw, hf⟩ := hm.split
  have hjmarks : ∀ c ∈ j.head?, c ∈ marks ∧ c ≠ '.' ∧ ¬ (c = 'e' ∨ c = 'E') := by
    intro c hc
    rcases hj.head? c hc with rfl | rfl <;> decide
  have hemarks : ∀ c ∈ (e ++ j).head?, c ∈ marks ∧ c ≠ '.' := by
    refine forall_head?_append ?_ fun c hc => ⟨(hjmarks c hc).1, (hjmarks c hc).2.1⟩
    intro c hc
    rcases he.head? c hc with rfl | rfl <;> decide
  have hfmarks : ∀ c ∈ (f ++ (e ++ j)).head?, c ∈ marks := by
    refine forall_head?_append ?_ fun c hc => (hemarks c hc).1
    intro c hc
    obtain rfl := hf.head? c hc
    decide
  rw [List.append_assoc, List.append_assoc]
  apply decimal_of_parts
  · exact digitPart_complete hw (stops_of_marks hfmarks)
  · exact fraction_complete hf (stops_of_marks fun c hc => (hemarks c hc).1)
      fun hc => (hemarks '.' hc).2 rfl
  · exact exponent_complete he (stops_of_marks fun c hc => (hjmarks c hc).1)
      fun c hc => (hjmarks c hc).2.2
  · exact imaginary_complete hj
  · rintro rfl rfl rfl
    rw [hasLeadingZeros_eq_false_iff]
    rw [List.append_nil] at hzeros
    refine hzeros (fun hmem => ?_) rfl rfl
    rcases hw.mem _ hmem with hc | hc <;> cases hc

theorem number_complete (h : Numeral t []) : number t = .ok t.length := by
  cases h with
  | @based mark base t _ hmark h hne =>
    have hbase : radixOf? ('0' :: mark :: t) = some base := hmark
    rw [number, hbase]
    show (radixDigits base false t).after 2 = _
    rw [radixDigits_complete h (.inr hne), Reading.after_ok, List.length_cons, List.length_cons]
    exact congrArg Except.ok (by omega)
  | @decimal m e j _ hm he hj hzeros =>
    have hmark : ∀ c ∈ m ++ e ++ j, Radix.ofMark? c = none := by
      obtain ⟨w, f, rfl, hw, hf⟩ := hm.split
      simp only [List.forall_mem_append]
      exact ⟨⟨⟨ofMark?_of_mem_digits hw, hf.ofMark?⟩, he.ofMark?⟩, hj.ofMark?⟩
    rw [number, radixOf?_eq_none hmark]
    exact decimal_complete hm he hj hzeros

/-! ## Number tokens -/

theorem Mantissa.startsNumber_append (h : Mantissa t) : startsNumber (t ++ u) = true := by
  rw [startsNumber_iff]
  cases h with
  | whole h hf =>
    rw [List.append_assoc]
    exact .inl h.startsWithDigit_append
  | point h => exact .inr ⟨_, rfl, h.startsWithDigit_append⟩

theorem Numeral.startsNumber {after : Text} (h : Numeral t after) : startsNumber t = true := by
  cases h with
  | based => rfl
  | decimal hm =>
    rw [List.append_assoc]
    exact hm.startsNumber_append

end Lexeme

/-- In any run over any source the text of a number token is a number where it stands, and a source
that is a number is one number token. -/
theorem number_tokens (options : Options) :
    (∀ (source : Text) (scans : List Scan) (u : Scanner) (token : Token),
      (Scanner.ofText options source).Attempts scans u → .token token ∈ scans →
      token.kind = .number → ∃ before after, source = before ++ token.text ++ after ∧
        token.span.start = Text.size before ∧ Lexeme.Numeral token.text after) ∧
    ∀ t : Text, Lexeme.Numeral t [] → tokenize options t =
      .ok [⟨.number, .sized 0 t.size, [], t⟩, ⟨.endOfFile, .empty t.size, [], []⟩] := by
  constructor
  · intro source scans u token hruns hmem hkind
    have hkinds : token.kind ∈ Lexeme.kinds := by
      rw [hkind]
      decide
    obtain ⟨before, t, n, hsource, hstart, hread, htext⟩ := hruns.read_of_mem hmem hkinds
    rw [hkind] at hread
    obtain ⟨hstarts, hnumber⟩ := Lexeme.number_of_read hread
    refine ⟨before, t.drop n, ?_, hstart, ?_⟩
    · rw [htext, List.append_assoc, List.take_append_drop, hsource]
    · rw [htext]
      exact Lexeme.number_sound hstarts hnumber
  · intro t ht
    have hread : Lexeme.read t = .ok (.number, t.length) := by
      rw [Lexeme.read_eq, if_pos ht.startsNumber, Lexeme.number_complete ht]
      rfl
    exact tokenize_of_read options hread (by decide) rfl rfl

/-- A hexadecimal number in front of a bracket, and zeros by themselves. -/
theorem number_tokens_of_zeros : ∃ scans u, (Scanner.ofText {} "0x_Ff)".toList).Attempts scans u ∧
    .token ⟨.number, .sized 0 5, [], "0x_Ff".toList⟩ ∈ scans ∧
    (∃ before after, "0x_Ff)".toList = before ++ "0x_Ff".toList ++ after ∧
      0 = Text.size before ∧ Lexeme.Numeral "0x_Ff".toList after) ∧
    Lexeme.Numeral "00_0".toList [] ∧ tokenize {} "00_0".toList =
      .ok [⟨.number, .sized 0 4, [], "00_0".toList⟩, ⟨.endOfFile, .empty 4, [], []⟩] := by
  have hnumber : (Scanner.ofText {} "0x_Ff)".toList).next.1 =
      .ok ⟨.number, .sized 0 5, [], "0x_Ff".toList⟩ := by
    decide +kernel
  rcases hnext : (Scanner.ofText {} "0x_Ff)".toList).next with ⟨result, u⟩
  rw [hnext] at hnumber
  obtain rfl := hnumber
  have hruns := Scanner.Attempts.refl.snoc hnext
  have hzeros : Lexeme.Numeral "00_0".toList [] := by
    have hpart : Lexeme.DigitPart "00_0".toList :=
      ⟨.digit rfl (.digit rfl (.underscore rfl .nil)), rfl⟩
    exact .decimal (.whole hpart .absent) .absent .absent (by simp)
  exact ⟨_, u, hruns, List.mem_singleton_self _,
    (number_tokens {}).1 _ _ _ _ hruns (List.mem_singleton_self _) rfl, hzeros,
    (number_tokens {}).2 _ hzeros⟩

end Verbatim
