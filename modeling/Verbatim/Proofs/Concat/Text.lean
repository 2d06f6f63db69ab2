import Verbatim.Proofs.Breaks.Lexeme

/-!
# A text behind a line break

To a text that ends with a line break another one can be appended, and what is read up to some
place in front of its end stays as it is. The one thing that looks past a line break is the line
break itself: a carriage return at the end takes a line feed from the text behind it.
-/

namespace Verbatim

namespace Text

variable {t b : Text}

def EndsLine (t : Text) : Prop :=
  ∃ init c, t = init ++ [c] ∧ isLineBreak c = true

/-- What a line break leaves of a text behind it: all, or all but the line feed that it takes. -/
def LeftOf (b r : Text) : Prop :=
  r = b ∨ b = '\n' :: r

theorem head?_append (hne : t ≠ []) : (t ++ b).head? = t.head? := by
  obtain ⟨c, u, rfl⟩ := List.exists_cons_of_ne_nil hne
  rfl

theorem le_length_of_drop_ne_nil {n : Nat} (h : t.drop n ≠ []) : n ≤ t.length := by
  by_contra hgt
  exact h (List.drop_eq_nil_of_le (Nat.le_of_not_le hgt))

theorem take_eq_of_drop_eq_nil {n : Nat} (h : t.drop n = []) : t.take n = t :=
  List.take_of_length_le (List.drop_eq_nil_iff.mp h)

namespace EndsLine

theorem ne_nil (h : t.EndsLine) : t ≠ [] := by
  obtain ⟨init, c, rfl, -⟩ := h
  simp

theorem exists_mem (h : t.EndsLine) : ∃ c ∈ t, isLineBreak c = true := by
  obtain ⟨init, c, rfl, hc⟩ := h
  exact ⟨c, by simp, hc⟩

theorem of_suffix {u : Text} (h : t.EndsLine) (hu : t <:+ u) : u.EndsLine := by
  obtain ⟨init, c, rfl, hc⟩ := h
  obtain ⟨before, rfl⟩ := hu
  exact ⟨before ++ init, c, (List.append_assoc _ _ _).symm, hc⟩

theorem drop {n : Nat} (h : t.EndsLine) (hne : t.drop n ≠ []) :
    EndsLine (t.drop n) := by
  obtain ⟨init, c, rfl, hc⟩ := h
  have hle : n ≤ init.length := by
    by_contra hgt
    apply hne
    rw [List.drop_eq_nil_iff, List.length_append, List.length_singleton]
    omega
  exact ⟨init.drop n, c, List.drop_append_of_le_length hle, hc⟩

/-- A line break stops whatever stops at one, so what is behind it does not matter. -/
theorem takeWhile_append (h : t.EndsLine) {p : Char → Bool}
    (hp : ∀ c, isLineBreak c = true → p c = false) (b : Text) :
    (t ++ b).takeWhile p = t.takeWhile p := by
  rw [List.takeWhile_append, if_neg]
  intro hlength
  obtain ⟨c, hmem, hc⟩ := h.exists_mem
  have hall := (List.takeWhile_prefix p).eq_of_length hlength
  rw [← hall] at hmem
  have hpc := List.mem_takeWhile_imp hmem
  rw [hp c hc] at hpc
  cases hpc

theorem firstLine_append (h : t.EndsLine) (b : Text) : firstLine (t ++ b) = firstLine t :=
  h.takeWhile_append (fun c hc => by simp [hc]) b

/-- Behind what stops at a line break the line break is left. -/
theorem drop_takeWhile_ne_nil (h : t.EndsLine) {p : Char → Bool}
    (hp : ∀ c, isLineBreak c = true → p c = false) : t.drop (t.takeWhile p).length ≠ [] := by
  intro hnil
  rw [List.drop_eq_nil_iff] at hnil
  have hall := (List.takeWhile_prefix p).eq_of_length_le hnil
  obtain ⟨c, hmem, hc⟩ := h.exists_mem
  rw [← hall] at hmem
  have hpc := List.mem_takeWhile_imp hmem
  rw [hp c hc] at hpc
  cases hpc

theorem isPrefixOf_append (h : t.EndsLine) {w : Text} (hw : ∀ c ∈ w, isLineBreak c = false)
    (b : Text) : w.isPrefixOf (t ++ b) = w.isPrefixOf t := by
  rw [Bool.eq_iff_iff, List.isPrefixOf_iff_prefix, List.isPrefixOf_iff_prefix]
  constructor
  · intro hprefix
    rcases List.prefix_or_prefix_of_prefix hprefix (List.prefix_append t b) with hshort | hlong
    · exact hshort
    · obtain ⟨c, hmem, hc⟩ := h.exists_mem
      rw [hw c (hlong.subset hmem)] at hc
      cases hc
  · exact fun hprefix => hprefix.trans (List.prefix_append t b)

end EndsLine

/-! ## Line breaks -/

/-- The line break at the head of a text. -/
inductive Breaks : Text → Nat → Prop
  | pair {u : Text} : Breaks ('\r' :: '\n' :: u) 2
  | carriageReturn {u : Text} (h : u.head? ≠ some '\n') : Breaks ('\r' :: u) 1
  | lineFeed {u : Text} : Breaks ('\n' :: u) 1
  | none {u : Text} (h : ∀ c ∈ u.head?, isLineBreak c = false) : Breaks u 0

theorem breaks_lineBreakLength (t : Text) : Breaks t (lineBreakLength t) := by
  match t with
  | [] => exact .none (by simp)
  | c :: u =>
    by_cases hn : c = '\n'
    · subst hn
      exact .lineFeed
    by_cases hr : c = '\r'
    · subst hr
      by_cases hu : u.head? = some '\n'
      · obtain ⟨v, rfl⟩ := List.head?_eq_some_iff.mp hu
        exact .pair
      · rw [lineBreakLength_carriageReturn hu]
        exact .carriageReturn hu
    · have hc : isLineBreak c = false := by simp [isLineBreak, hn, hr]
      rw [lineBreakLength_of_not_isLineBreak hc]
      exact .none (by simpa using hc)

/-- A line break that is not at the end of its text has all of itself there. -/
theorem lineBreakLength_append (h : t.drop (lineBreakLength t) ≠ []) (b : Text) :
    lineBreakLength (t ++ b) = lineBreakLength t := by
  have hbreaks := breaks_lineBreakLength t
  generalize lineBreakLength t = n at h hbreaks
  cases hbreaks with
  | pair => rfl
  | @carriageReturn u hu =>
    obtain ⟨c, v, rfl⟩ := List.exists_cons_of_ne_nil h
    exact lineBreakLength_carriageReturn hu
  | lineFeed => rfl
  | none hhead =>
    obtain ⟨c, v, rfl⟩ := List.exists_cons_of_ne_nil h
    exact lineBreakLength_of_not_isLineBreak (hhead c rfl)

theorem leftOf_lineBreak (hpos : lineBreakLength t ≠ 0) (h : t.drop (lineBreakLength t) = [])
    (b : Text) : lineBreakLength (t ++ b) ≠ 0 ∧
      LeftOf b ((t ++ b).drop (lineBreakLength (t ++ b))) := by
  have hbreaks := breaks_lineBreakLength t
  generalize lineBreakLength t = n at hpos h hbreaks
  cases hbreaks with
  | @pair u =>
    obtain rfl : u = [] := h
    exact ⟨Nat.succ_ne_zero 1, .inl rfl⟩
  | @carriageReturn u hu =>
    obtain rfl : u = [] := h
    by_cases hb : b.head? = some '\n'
    · obtain ⟨v, rfl⟩ := List.head?_eq_some_iff.mp hb
      exact ⟨Nat.succ_ne_zero 1, .inr rfl⟩
    · rw [List.cons_append, List.nil_append, lineBreakLength_carriageReturn hb]
      exact ⟨Nat.one_ne_zero, .inl rfl⟩
  | @lineFeed u =>
    obtain rfl : u = [] := h
    exact ⟨Nat.one_ne_zero, .inl rfl⟩
  | none => exact absurd rfl hpos

theorem le_lineBreakLength_append (t b : Text) : lineBreakLength t ≤ lineBreakLength (t ++ b) := by
  have hbreaks := breaks_lineBreakLength t
  generalize lineBreakLength t = n at hbreaks
  cases hbreaks with
  | pair => exact Nat.le_refl 2
  | @carriageReturn u =>
    rw [List.cons_append]
    by_cases hhead : (u ++ b).head? = some '\n'
    · obtain ⟨v, hv⟩ := List.head?_eq_some_iff.mp hhead
      rw [hv]
      exact Nat.le_succ 1
    · rw [lineBreakLength_carriageReturn hhead]
  | lineFeed => exact Nat.le_refl 1
  | none => exact Nat.zero_le _

end Text

namespace Lexeme

variable {t b : Text}

/-! ## Lexemes -/

/-- A literal that is closed is closed whatever comes behind it. -/
theorem stringBody_append {quote : Char} {width : QuoteWidth} {run : Nat}
    (h : (stringBody quote width run t).closed = true) (b : Text) :
    stringBody quote width run (t ++ b) = stringBody quote width run t := by
  fun_induction stringBody quote width run t with
  | case1 => cases h
  | case2 run u hlast => rw [List.cons_append, stringBody_quote, if_pos hlast]
  | case3 run u hmore ih => rw [List.cons_append, stringBody_quote, if_neg hmore, ih h]
  | case4 => cases h
  | case5 run u hquote ih =>
    rw [List.cons_append, List.cons_append, List.cons_append, stringBody_escape_pair hquote, ih h]
  | case6 run c u hpair hquote ih =>
    have hne : u ≠ [] := by
      rintro rfl
      cases h
    have hhead : c = '\r' → (u ++ b).head? ≠ some '\n' := by
      intro hc hu
      rw [Text.head?_append hne] at hu
      obtain ⟨v, rfl⟩ := List.head?_eq_some_iff.mp hu
      exact hpair v hc rfl
    rw [List.cons_append, List.cons_append, stringBody_escape hquote hhead, ih h]
  | case7 => cases h
  | case8 run c u hquote hescape hbreak ih =>
    rw [List.cons_append, stringBody_cons_of_ne hquote hescape, if_neg hbreak, ih h]

theorem reading_append {extent extent' : Extent} {width : QuoteWidth} {n : Nat}
    (h : extent.closed = true → extent' = extent) (hok : extent.reading width = .ok n) :
    extent'.reading width = .ok n := by
  rw [Extent.reading] at hok
  split at hok
  · next hclosed =>
    rw [h hclosed, Extent.reading, if_pos hclosed]
    exact hok
  · cases hok

theorem isQuote_of_isLineBreak {c : Char} (hc : Text.isLineBreak c = true) : isQuote c = false := by
  simp only [Text.isLineBreak, Bool.or_eq_true, beq_iff_eq] at hc
  rcases hc with rfl | rfl <;> decide

/-- A quote is not the last character of a text that ends with a line break. -/
theorem exists_cons_of_quote {quote : Char} {u : Text} (h : Text.EndsLine (quote :: u))
    (hquote : isQuote quote = true) : u ≠ [] ∧ Text.EndsLine u := by
  have hne : u ≠ [] := by
    rintro rfl
    obtain ⟨c, hmem, hc⟩ := h.exists_mem
    rw [List.mem_singleton.mp hmem] at hc
    rw [isQuote_of_isLineBreak hc] at hquote
    cases hquote
  exact ⟨hne, h.drop (n := 1) hne⟩

theorem string_append {letters n : Nat} (ht : t.EndsLine)
    (hquote : t.head?.any isQuote = true) (h : string letters t = .ok n) (b : Text) :
    string letters (t ++ b) = .ok n := by
  obtain ⟨quote, u, rfl⟩ := List.exists_cons_of_ne_nil ht.ne_nil
  obtain ⟨hne, hu⟩ := exists_cons_of_quote ht (by simpa using hquote)
  rw [string] at h
  rw [List.cons_append, string, Text.head?_append hne]
  split at h
  · next hsecond =>
    obtain ⟨v, rfl⟩ := List.head?_eq_some_iff.mp hsecond
    obtain ⟨hne', -⟩ := exists_cons_of_quote hu (by simpa using hquote)
    simp only [List.cons_append, List.drop_succ_cons, List.drop_zero,
      Text.head?_append hne'] at h ⊢
    rw [if_pos hsecond]
    split at h
    · next hthird =>
      obtain ⟨w, rfl⟩ := List.head?_eq_some_iff.mp hthird
      rw [if_pos hthird]
      refine reading_append (fun hclosed => ?_) h
      rw [Extent.after_closed, List.drop_succ_cons, List.drop_zero] at hclosed
      rw [List.cons_append, List.drop_succ_cons, List.drop_succ_cons, List.drop_zero,
        List.drop_zero, stringBody_append hclosed]
    · next hthird =>
      rw [if_neg hthird]
      exact h
  · next hsecond =>
    rw [if_neg hsecond]
    refine reading_append (fun hclosed => ?_) h
    rw [Extent.after_closed] at hclosed
    rw [stringBody_append hclosed]

/-! ## Lexemes that stop inside of a text -/

variable {quote : Char} {width : QuoteWidth} {run : Nat}

theorem length_pos_of_closed (h : (stringBody quote width run t).closed = true) :
    0 < (stringBody quote width run t).length := by
  fun_induction stringBody quote width run t with
  | case1 => cases h
  | case2 => exact Nat.one_pos
  | case4 => cases h
  | case7 => cases h
  | _ =>
    rw [Extent.after_length]
    omega

/-- Behind a backslash there is an escape, and then at least the quote that closes the literal. -/
theorem two_lt_length_escape (hquote : '\\' ≠ quote)
    (h : (stringBody quote width run ('\\' :: t)).closed = true) :
    2 < (stringBody quote width run ('\\' :: t)).length := by
  have hafter {u : Text} {k : Nat} (hk : 2 ≤ k)
      (heq : stringBody quote width run ('\\' :: t) = (stringBody quote width 0 u).after k) :
      2 < (stringBody quote width run ('\\' :: t)).length := by
    rw [heq] at h ⊢
    have hpos := length_pos_of_closed (t := u) h
    rw [Extent.after_length]
    omega
  cases t with
  | nil => simp [stringBody, hquote] at h
  | cons c u =>
    by_cases hpair : c = '\r' → u.head? ≠ some '\n'
    · exact hafter (Nat.le_refl 2) (stringBody_escape hquote hpair)
    · simp only [Classical.not_imp, not_not] at hpair
      obtain ⟨rfl, hu⟩ := hpair
      obtain ⟨v, rfl⟩ := List.head?_eq_some_iff.mp hu
      exact hafter (by decide) (stringBody_escape_pair hquote)

/-- A literal that is closed inside of a text is closed there whatever comes behind the text. -/
theorem stringBody_of_append (h : (stringBody quote width run (t ++ b)).closed = true)
    (hle : (stringBody quote width run (t ++ b)).length ≤ t.length) :
    stringBody quote width run t = stringBody quote width run (t ++ b) := by
  fun_induction stringBody quote width run t with
  | case1 run =>
    have hpos := length_pos_of_closed h
    exact absurd hle hpos.not_ge
  | case2 run u hlast => rw [List.cons_append, stringBody_quote, if_pos hlast]
  | case3 run u hmore ih =>
    rw [List.cons_append, stringBody_quote, if_neg hmore] at h hle ⊢
    rw [Extent.after_length, List.length_cons] at hle
    rw [ih h (by omega)]
  | case4 run hquote =>
    have hlong := two_lt_length_escape hquote h
    exact absurd hle (by simpa using Nat.lt_of_succ_lt hlong)
  | case5 run u hquote ih =>
    rw [List.cons_append, List.cons_append, List.cons_append, stringBody_escape_pair hquote]
      at h hle ⊢
    rw [Extent.after_length, List.length_cons, List.length_cons, List.length_cons] at hle
    rw [ih h (by omega)]
  | case6 run c u hpair hquote ih =>
    have hlong := two_lt_length_escape hquote h
    have hne : u ≠ [] := by
      rintro rfl
      exact absurd hle (by simpa using hlong)
    have hhead : c = '\r' → (u ++ b).head? ≠ some '\n' := by
      intro hc hu
      rw [Text.head?_append hne] at hu
      obtain ⟨v, rfl⟩ := List.head?_eq_some_iff.mp hu
      exact hpair v hc rfl
    rw [List.cons_append, List.cons_append, stringBody_escape hquote hhead] at h hle ⊢
    rw [Extent.after_length, List.length_cons, List.length_cons] at hle
    rw [ih h (by omega)]
  | case7 run c u hquote hescape hbreak =>
    rw [List.cons_append, stringBody_cons_of_ne hquote hescape, if_pos hbreak] at h
    cases h
  | case8 run c u hquote hescape hbreak ih =>
    rw [List.cons_append, stringBody_cons_of_ne hquote hescape, if_neg hbreak] at h hle ⊢
    rw [Extent.after_length, List.length_cons] at hle
    rw [ih h (by omega)]

theorem reading_eq_ok {extent : Extent} {n : Nat} (h : extent.reading width = .ok n) :
    extent.closed = true ∧ n = extent.length := by
  rw [Extent.reading] at h
  split at h
  · next hclosed =>
    cases h
    exact ⟨hclosed, rfl⟩
  · cases h

theorem string_of_append {letters n : Nat} (ht : t.EndsLine)
    (hquote : t.head?.any isQuote = true) (h : string letters (t ++ b) = .ok n)
    (hn : n ≤ letters + t.length) : string letters t = .ok n := by
  obtain ⟨quote, u, rfl⟩ := List.exists_cons_of_ne_nil ht.ne_nil
  obtain ⟨hne, hu⟩ := exists_cons_of_quote ht (by simpa using hquote)
  rw [List.cons_append, string, Text.head?_append hne] at h
  rw [string]
  split at h
  · next hsecond =>
    obtain ⟨v, rfl⟩ := List.head?_eq_some_iff.mp hsecond
    obtain ⟨hne', -⟩ := exists_cons_of_quote hu (by simpa using hquote)
    simp only [List.cons_append, List.drop_succ_cons, List.drop_zero,
      Text.head?_append hne'] at h ⊢
    rw [if_pos hsecond]
    split at h
    · next hthird =>
      obtain ⟨w, rfl⟩ := List.head?_eq_some_iff.mp hthird
      rw [if_pos hthird]
      obtain ⟨hclosed, rfl⟩ := reading_eq_ok h
      simp only [List.cons_append, List.drop_succ_cons, List.drop_zero, Extent.after_length,
        Extent.after_closed, List.length_cons] at h hclosed hn ⊢
      rw [stringBody_of_append hclosed (by omega)]
      exact h
    · next hthird =>
      rw [if_neg hthird]
      exact h
  · next hsecond =>
    rw [if_neg hsecond]
    obtain ⟨hclosed, rfl⟩ := reading_eq_ok h
    rw [Extent.after_length, List.length_cons] at hn
    rw [stringBody_of_append hclosed (by omega)]
    exact h

/-- Only a string literal can reach past the line that it begins on, so everything else is read
without the text behind a line break. -/
theorem read_append_cases (ht : t.EndsLine) (hne : Text.firstLine t ≠ []) :
    (∀ b, read (t ++ b) = read t) ∨
      ∃ letters, letters ≤ t.length ∧ Text.EndsLine (t.drop letters) ∧
        (t.drop letters).head?.any isQuote = true ∧
        ∀ b, read (t ++ b) = kinded .string (string letters (t.drop letters ++ b)) := by
  have hsame {α : Type} {f : Text → α}
      (hf : ∀ {c : Char} (_ : c ∈ separators) {t : Text} (u : Text),
        t ≠ [] → f (t ++ c :: u) = f t) (b : Text) : f (t ++ b) = f t := by
    have hfirst := ht.firstLine_append b
    rw [eq_firstLine (by rwa [hfirst]) hf, hfirst, ← eq_firstLine hne hf]
  have hstarts := hsame fun hc _ u hne => startsNumber_append u hc hne
  have hletters := hsame fun hc _ u _ => lettersAt?_append u hc
  cases hnumber : startsNumber t with
  | true =>
    left
    intro b
    rw [read_eq, read_eq, hstarts, hnumber, hsame fun hc t u _ => number_append hc t u]
    rfl
  | false =>
    cases hlettersAt : lettersAt? t with
    | none =>
      left
      intro b
      rw [read_eq, read_eq, hstarts, hletters, hnumber, hlettersAt,
        hsame fun hc _ u hne => plain_append u hc hne]
      rfl
    | some letters =>
      obtain ⟨-, hhead⟩ := lettersAt?_eq_some hlettersAt
      have hrest : t.drop letters ≠ [] := by
        intro hnil
        simp [hnil] at hhead
      have hle := Text.le_length_of_drop_ne_nil hrest
      refine .inr ⟨letters, hle, ht.drop hrest, hhead, fun b => ?_⟩
      rw [read_eq, hstarts, hletters, hnumber, hlettersAt, ← List.drop_append_of_le_length hle]
      rfl

variable {kind : TokenKind} {n : Nat}

/-- A lexeme in front of a line break is the same whatever comes behind the line break. -/
theorem read_append_of_endsLine (ht : t.EndsLine) (hne : Text.firstLine t ≠ [])
    (h : read t = .ok (kind, n)) (b : Text) : read (t ++ b) = .ok (kind, n) := by
  rcases read_append_cases ht hne with hsame | ⟨letters, -, hends, hhead, hstring⟩
  · rw [hsame, h]
  · have hnone := hstring []
    rw [List.append_nil, List.append_nil, h] at hnone
    obtain ⟨rfl, hok⟩ := kinded_eq_ok_iff.mp hnone.symm
    rw [hstring, string_append hends hhead hok b]
    rfl

/-- And a lexeme that stops in front of the line break is there without what comes behind it. -/
theorem read_of_append (ht : t.EndsLine) (hne : Text.firstLine t ≠ [])
    (h : read (t ++ b) = .ok (kind, n)) (hn : n ≤ t.length) : read t = .ok (kind, n) := by
  rcases read_append_cases ht hne with hsame | ⟨letters, hle, hends, hhead, hstring⟩
  · rw [← hsame b, h]
  · rw [hstring] at h
    obtain ⟨rfl, hok⟩ := kinded_eq_ok_iff.mp h
    have hbound : n ≤ letters + (t.drop letters).length := by
      rw [List.length_drop]
      omega
    have hnone := hstring []
    rw [List.append_nil, List.append_nil, string_of_append hends hhead hok hbound] at hnone
    exact hnone

end Lexeme

end Verbatim
