import Mathlib.Data.List.Infix
import Verbatim.Proofs.Scanner.Lexeme

/-!
# Lexemes in front of a separator

No lexeme but a string literal reaches over a space or a line break, so a lexeme is read in the
same way whatever comes after such a character. Each reader is shown to give the same answer with
the separator and without it, also where the answer is a fault.
-/

namespace Verbatim.Lexeme

/-- Characters that stand between lexemes, or before what is no lexeme. -/
def separators : List Char :=
  [' ', '\t', '\x0c', '\n', '\r', '#', '\\']

/-- What a separator is not. -/
structure Separates (c : Char) : Prop where
  digit : c.isDigit = false
  start : isIdentifierStart c = false
  continues : isIdentifierContinue c = false
  quote : isQuote c = false
  radix : ∀ radix : Radix, radix.isDigit c = false
  mark : Radix.ofMark? c = none
  noPoint : c ≠ '.'
  noUnderscore : c ≠ '_'
  noExponent : ¬ (c = 'e' ∨ c = 'E')
  noSign : ¬ (c = '+' ∨ c = '-')
  noImaginary : ¬ (c = 'j' ∨ c = 'J')

variable {c : Char} (hc : c ∈ separators) (t u : Text)

include hc

theorem separates : Separates c := by
  simp only [separators, List.mem_cons, List.not_mem_nil, or_false] at hc
  rcases hc with rfl | rfl | rfl | rfl | rfl | rfl | rfl
  all_goals
    refine ⟨by decide, by decide, by decide, by decide, fun radix => ?_, by decide, by decide,
      by decide, by decide, by decide, by decide⟩
    cases radix <;> decide

theorem startsWithDigit_append : startsWithDigit (t ++ c :: u) = startsWithDigit t := by
  cases t with
  | nil => simp [startsWithDigit, (separates hc).digit]
  | cons d t => rfl

/-! ## Numbers -/

theorem digitPart_append : digitPart (t ++ c :: u) = digitPart t := by
  induction t with
  | nil =>
    show digitPart (c :: u) = .ok 0
    rw [digitPart, if_neg (by simp [(separates hc).digit]), if_neg (separates hc).noUnderscore]
  | cons d t ih =>
    rw [List.cons_append, digitPart, digitPart, ih, startsWithDigit_append hc]

theorem radixEnd_append (radix : Radix) (anyDigit : Bool) :
    radixEnd radix anyDigit (t ++ c :: u) = radixEnd radix anyDigit t := by
  cases t with
  | nil => cases anyDigit <;> simp [radixEnd, (separates hc).digit, (separates hc).continues]
  | cons d t => rfl

theorem radixDigits_append (radix : Radix) (anyDigit : Bool) :
    radixDigits radix anyDigit (t ++ c :: u) = radixDigits radix anyDigit t := by
  have hradix := (separates hc).radix radix
  induction t generalizing anyDigit with
  | nil =>
    rw [List.nil_append, radixDigits.eq_def, radixDigits.eq_def]
    simpa [hradix, (separates hc).noUnderscore] using radixEnd_append hc [] u radix anyDigit
  | cons d t ih =>
    rw [List.cons_append, radixDigits.eq_def, radixDigits.eq_def]
    dsimp only
    rw [ih true, ih anyDigit, ← List.cons_append, radixEnd_append hc]
    cases t with
    | nil => simp [hradix, (separates hc).digit]
    | cons e t => rfl

theorem radixOf?_append : radixOf? (t ++ c :: u) = radixOf? t := by
  have hcons : ∀ (d e : Char) (v : Text),
      radixOf? (d :: e :: v) = if d = '0' then Radix.ofMark? e else none := by
    intro d e v
    unfold radixOf?
    split <;> simp_all
  match t with
  | [] =>
    cases u with
    | nil => simp [radixOf?]
    | cons e v =>
      have hzero : c ≠ '0' := by
        rintro rfl
        cases (separates hc).digit
      rw [List.nil_append, hcons, if_neg hzero]
      rfl
  | [d] =>
    rw [List.cons_append, List.nil_append, hcons, (separates hc).mark]
    simp [radixOf?]
  | d :: e :: t => rw [List.cons_append, List.cons_append, hcons, hcons]

theorem fraction_append : fraction (t ++ c :: u) = fraction t := by
  have hcons : ∀ (d : Char) (v : Text), fraction (d :: v) =
      if d = '.' then if startsWithDigit v then (digitPart v).after 1 else .ok 1 else .ok 0 := by
    intro d v
    unfold fraction
    split <;> simp_all
  cases t with
  | nil =>
    rw [List.nil_append, hcons, if_neg (separates hc).noPoint]
    rfl
  | cons d t =>
    rw [List.cons_append, hcons, hcons, digitPart_append hc, startsWithDigit_append hc]

theorem exponent_append : exponent (t ++ c :: u) = exponent t := by
  match t with
  | [] =>
    simp [exponent, (separates hc).noExponent]
  | [mark] =>
    simp [exponent, (separates hc).noSign, (separates hc).digit]
  | mark :: sign :: t =>
    show exponent (mark :: sign :: (t ++ c :: u)) = _
    rw [exponent, exponent, startsWithDigit_append hc, digitPart_append hc, ← List.cons_append,
      digitPart_append hc]

theorem imaginary_append : imaginary (t ++ c :: u) = imaginary t := by
  cases t with
  | nil =>
    rw [List.nil_append, imaginary, if_neg (separates hc).noImaginary]
    rfl
  | cons d t => rfl

omit hc

/-! ## Readers one after the other -/

/-- What is read, and the character that is at fault, are not past the end of the text. -/
def Within (t : Text) : Reading → Prop
  | .ok n => n ≤ t.length
  | .error fault => fault.position ≤ t.length

variable {t} in
theorem Within.after {reading : Reading} {n : Nat} (h : Within (t.drop n) reading)
    (hn : n ≤ t.length) : Within t (reading.after n) := by
  rw [Within.eq_def, List.length_drop] at h
  cases reading with
  | ok m =>
    change n + m ≤ t.length
    dsimp only at h
    omega
  | error fault =>
    change n + fault.position ≤ t.length
    dsimp only at h
    omega

theorem Within.after_one {t : Text} {reading : Reading} (h : Within t reading) (d : Char) :
    Within (d :: t) (reading.after 1) :=
  Within.after (t := d :: t) h (Nat.succ_pos _)

theorem within_digitPart : Within t (digitPart t) := by
  induction t with
  | nil => exact Nat.le_refl 0
  | cons d t ih =>
    rw [digitPart]
    split
    · exact ih.after_one d
    · split
      · split
        · exact ih.after_one d
        · exact Nat.zero_le _
      · exact Nat.zero_le _

theorem within_radixEnd (radix : Radix) (anyDigit : Bool) :
    Within t (radixEnd radix anyDigit t) := by
  unfold radixEnd
  split
  · split
    · exact Nat.zero_le _
    · split <;> exact Nat.zero_le _
  · split <;> exact Nat.zero_le _

theorem within_radixDigits (radix : Radix) (anyDigit : Bool) :
    Within t (radixDigits radix anyDigit t) := by
  induction t generalizing anyDigit with
  | nil => exact within_radixEnd [] radix anyDigit
  | cons d t ih =>
    rw [radixDigits.eq_def]
    dsimp only
    split
    · exact (ih true).after_one d
    · split
      · split
        · split
          · exact (ih anyDigit).after_one d
          · split
            · exact Nat.succ_le_succ (Nat.zero_le _)
            · exact Nat.zero_le _
        · exact Nat.zero_le _
      · exact within_radixEnd _ radix anyDigit

theorem within_fraction : Within t (fraction t) := by
  unfold fraction
  split
  · split
    · exact (within_digitPart _).after_one _
    · exact Nat.succ_le_succ (Nat.zero_le _)
  · exact Nat.zero_le _

theorem within_exponent : Within t (exponent t) := by
  unfold exponent
  split
  · split
    · split
      · split
        · split
          · exact Within.after (within_digitPart _) (by simp)
          · exact Nat.zero_le _
        · split
          · exact (within_digitPart _).after_one _
          · exact Nat.zero_le _
      · exact Nat.zero_le _
    · exact Nat.zero_le _
  · exact Nat.zero_le _

theorem within_imaginary : Within t (imaginary t) := by
  unfold imaginary
  split
  · split
    · exact Nat.succ_le_succ (Nat.zero_le _)
    · exact Nat.zero_le _
  · exact Nat.zero_le _

theorem within_andThen {first : Reading} {second : Text → Reading} (hfirst : Within t first)
    (hsecond : ∀ v, Within v (second v)) : Within t (first.andThen t second) := by
  cases first with
  | ok n => exact Within.after (hsecond _) hfirst
  | error fault => exact hfirst

theorem within_decimalTail : Within t (decimalTail t) :=
  within_andThen t (within_fraction t) fun u =>
    within_andThen u (within_exponent u) within_imaginary

theorem within_decimal : Within t (decimal t) := by
  unfold decimal
  have hdigits := within_digitPart t
  split
  · next fault h => rwa [h] at hdigits
  · next digits h =>
    rw [h] at hdigits
    split
    · split
      · exact Nat.zero_le _
      · exact hdigits
    · exact (within_decimalTail _).after hdigits

theorem two_le_length_of_radixOf? {radix : Radix} (h : radixOf? t = some radix) :
    2 ≤ t.length := by
  unfold radixOf? at h
  split at h
  · simp
  · cases h

theorem within_number : Within t (number t) := by
  unfold number
  split
  · next radix h => exact (within_radixDigits _ radix false).after (two_le_length_of_radixOf? t h)
  · exact within_decimal t

theorem andThen_append {first second : Text → Reading} (t u : Text)
    (hfirst : first (t ++ c :: u) = first t) (hwithin : Within t (first t))
    (hsecond : ∀ v, second (v ++ c :: u) = second v) :
    (first (t ++ c :: u)).andThen (t ++ c :: u) second = (first t).andThen t second := by
  rw [hfirst]
  cases h : first t with
  | error fault => rfl
  | ok n =>
    rw [h] at hwithin
    simp only [Reading.andThen]
    rw [List.drop_append_of_le_length hwithin, hsecond]

include hc

theorem decimalTail_append : decimalTail (t ++ c :: u) = decimalTail t := by
  apply andThen_append t u (fraction_append hc t u) (within_fraction t)
  intro v
  apply andThen_append v u (exponent_append hc v u) (within_exponent v)
  intro w
  exact imaginary_append hc w u

theorem decimal_append : decimal (t ++ c :: u) = decimal t := by
  unfold decimal
  rw [digitPart_append hc]
  cases h : digitPart t with
  | error fault => rfl
  | ok digits =>
    have hle := within_digitPart t
    rw [h] at hle
    simp only [List.drop_append_of_le_length hle, List.take_append_of_le_length hle,
      decimalTail_append hc]

theorem number_append : number (t ++ c :: u) = number t := by
  unfold number
  rw [radixOf?_append hc]
  split
  · next radix hradix =>
    rw [List.drop_append_of_le_length (two_le_length_of_radixOf? t hradix), radixDigits_append hc]
  · exact decimal_append hc t u

/-! ## Words, operators and lexemes -/

theorem wordLength_append : wordLength (t ++ c :: u) = wordLength t := by
  induction t with
  | nil => simp [wordLength, (separates hc).continues]
  | cons d t ih =>
    simp only [wordLength, List.cons_append, List.takeWhile_cons] at ih ⊢
    split
    · rw [List.length_cons, List.length_cons, ih]
    · rfl

omit hc in
theorem isPrefix_of_append {w : Text} (hw : c ∉ w) (h : w <+: t ++ c :: u) : w <+: t := by
  rcases List.prefix_or_prefix_of_prefix h (List.prefix_append t _) with h' | ⟨v, rfl⟩
  · exact h'
  · have hv : v <+: c :: u := (List.prefix_append_right_inj t).mp h
    cases v with
    | nil => simp
    | cons d v =>
      obtain ⟨rfl, -⟩ := List.cons_prefix_cons.mp hv
      exact absurd (by simp) hw

omit hc in
theorem wordLength_le : wordLength t ≤ t.length :=
  (List.takeWhile_prefix _).length_le

/-- No separator stands in an operator. -/
theorem not_mem_of_heads {kind : TokenKind} {w : Text} (h : kind.Heads w t) : c ∉ w := by
  have hall : ∀ kind ∈ TokenKind.operators, (kind.fixedText?.all fun text =>
      separators.all fun c => !text.toList.contains c) = true := by decide
  obtain ⟨text, htext, rfl⟩ := Option.map_eq_some_iff.mp h.fixed
  have hkind := hall kind h.mem
  rw [htext, Option.all_some] at hkind
  simpa using List.all_eq_true.mp hkind c hc

theorem operator?_append : operator? (t ++ c :: u) = operator? t := by
  have hheads (kind : TokenKind) (w : Text) : kind.Heads w (t ++ c :: u) ↔ kind.Heads w t := by
    constructor
    · intro h
      exact ⟨h.mem, h.fixed, isPrefix_of_append t u (not_mem_of_heads hc _ h) h.isPrefix⟩
    · intro h
      exact ⟨h.mem, h.fixed, h.isPrefix.trans (List.prefix_append t _)⟩
  exact operator?_congr hheads

theorem head?_any_isQuote_append : (t ++ c :: u).head?.any isQuote = t.head?.any isQuote := by
  cases t with
  | nil => simp [(separates hc).quote]
  | cons d t => rfl

omit hc

/-- The number of letters in front of the quote, if a string literal begins here. -/
def lettersAt? (t : Text) : Option Nat :=
  match t with
  | [] => none
  | d :: _ =>
    if isQuote d then some 0
    else if isIdentifierStart d && (t.drop (wordLength t)).head?.any isQuote &&
        isStringLetters (t.take (wordLength t)) then some (wordLength t)
    else none

/-- A lexeme that is neither a number nor a string literal. -/
def plain (t : Text) : Except Fault (TokenKind × Nat) :=
  match t with
  | [] => .ok (.endOfFile, 0)
  | d :: _ =>
    if isIdentifierStart d then .ok (wordKind (t.take (wordLength t)), wordLength t)
    else
      match operator? t with
      | some operator => .ok operator
      | none => .error ⟨.invalidCharacter d, 0, 1⟩

def startsNumber : Text → Bool
  | [] => false
  | d :: t => d.isDigit || (d == '.' && startsWithDigit t)

theorem read_eq : read t =
    if startsNumber t then kinded .number (number t)
    else
      match lettersAt? t with
      | some letters => kinded .string (string letters (t.drop letters))
      | none => plain t := by
  cases t with
  | nil => rfl
  | cons d t =>
    rw [read, startsNumber, lettersAt?, plain]
    split
    · rfl
    · by_cases hquote : isQuote d = true
      · rw [if_pos hquote, if_pos hquote]
        rfl
      · rw [if_neg hquote, if_neg hquote]
        by_cases hstart : isIdentifierStart d = true
        · rw [if_pos hstart, if_pos hstart, word]
          simp only [hstart, Bool.true_and]
          split <;> simp_all
        · simp only [hstart]
          cases operator? (d :: t) <;> rfl

variable {t}

theorem startsNumber_append (hc : c ∈ separators) (hne : t ≠ []) :
    startsNumber (t ++ c :: u) = startsNumber t := by
  cases t with
  | nil => exact absurd rfl hne
  | cons d t => rw [List.cons_append, startsNumber, startsNumber, startsWithDigit_append hc]

theorem lettersAt?_append (hc : c ∈ separators) : lettersAt? (t ++ c :: u) = lettersAt? t := by
  cases t with
  | nil => simp [lettersAt?, (separates hc).quote, (separates hc).start]
  | cons d t =>
    have hle := wordLength_le (d :: t)
    rw [List.cons_append, lettersAt?, lettersAt?, ← List.cons_append, wordLength_append hc,
      List.drop_append_of_le_length hle, List.take_append_of_le_length hle,
      head?_any_isQuote_append hc]

theorem plain_append (hc : c ∈ separators) (hne : t ≠ []) : plain (t ++ c :: u) = plain t := by
  cases t with
  | nil => exact absurd rfl hne
  | cons d t =>
    have hle := wordLength_le (d :: t)
    rw [List.cons_append, plain, plain, ← List.cons_append, wordLength_append hc,
      List.take_append_of_le_length hle, operator?_append hc]

/-- A lexeme other than a string literal is read in the same way whatever comes after it. -/
theorem read_append (hc : c ∈ separators) (hne : t ≠ []) (hletters : lettersAt? t = none) :
    read (t ++ c :: u) = read t := by
  rw [read_eq, read_eq, startsNumber_append u hc hne, lettersAt?_append u hc, hletters,
    number_append hc, plain_append u hc hne]

theorem read_append_space {kind : TokenKind} {n : Nat} (hne : t ≠ [])
    (h : read t = .ok (kind, n)) (hkind : kind ≠ .string) :
    read (t ++ ' ' :: u) = .ok (kind, n) := by
  have hspace : ' ' ∈ separators := List.mem_cons_self
  rw [← h, read_eq, read_eq, startsNumber_append u hspace hne, lettersAt?_append u hspace,
    number_append hspace, plain_append u hspace hne]
  rw [read_eq] at h
  split at h
  · next hnumber => rw [if_pos hnumber, if_pos hnumber]
  · next hnumber =>
    rw [if_neg hnumber, if_neg hnumber]
    split at h
    · exact absurd (kinded_eq_ok_iff.mp h).1.symm hkind
    · rfl

theorem operator?_separator (hc : c ∈ separators) : operator? (c :: u) = none := by
  apply operator?_eq_none_iff.mpr
  intro kind w h
  obtain ⟨d, w, rfl⟩ := List.exists_cons_of_ne_nil h.text_ne_nil
  obtain ⟨rfl, -⟩ := List.cons_prefix_cons.mp h.isPrefix
  exact not_mem_of_heads hc _ h List.mem_cons_self

/-- No lexeme begins with one of the separators. -/
theorem read_separator (hc : c ∈ separators) :
    read (c :: u) = .error ⟨.invalidCharacter c, 0, 1⟩ := by
  have hpoint : (c == '.') = false := beq_eq_false_iff_ne.mpr (separates hc).noPoint
  rw [read, (separates hc).digit, hpoint, (separates hc).quote, (separates hc).start,
    operator?_separator u hc]
  rfl

end Verbatim.Lexeme
