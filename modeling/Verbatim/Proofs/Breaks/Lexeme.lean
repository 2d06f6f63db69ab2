import Verbatim.Proofs.Breaks.Text
import Verbatim.Proofs.Scanner.Separate

/-!
# Lexemes of texts with other line breaks

Only a string literal can reach over a line break: raw if it has three quotes, and else behind a
backslash. Every other lexeme is read from the first line of the text alone. So a lexeme is read
in the same way from a text and from the text with other line breaks, and takes what
stands for the same characters.
-/

namespace Verbatim

open Text (withBreaks stretch firstLine Rebreaks)

variable {br t : Text} {n : Nat}

theorem Text.stretch_add (br t : Text) (m n : Nat) :
    stretch br t (m + n) = stretch br t m + stretch br (t.drop m) n := by
  simp only [stretch, List.take_add, List.count_append, Nat.mul_add]
  omega

theorem Text.take_firstLine (h : n ≤ (firstLine t).length) : t.take n = (firstLine t).take n := by
  obtain ⟨u, hu⟩ : firstLine t <+: t := List.takeWhile_prefix _
  conv_lhs => rw [← hu]
  exact List.take_append_of_le_length h

theorem Text.firstLine_append_of_unbroken {w : Text} (hw : ∀ c ∈ w, isLineBreak c = false)
    (t : Text) : firstLine (w ++ t) = w ++ firstLine t := by
  have hall : ∀ c ∈ w, (!isLineBreak c) = true := fun c hc => by simp [hw c hc]
  exact List.takeWhile_append_of_pos hall

theorem Text.stretch_of_le_firstLine (h : n ≤ (firstLine t).length) : stretch br t n = n := by
  apply stretch_of_not_mem
  rw [take_firstLine h]
  exact fun hmem => not_mem_takeWhile rfl (List.mem_of_mem_take hmem)

namespace Reading

/-- The reading of the text with other line breaks: it takes what stands for the same characters,
or is at fault at the character that stands for the same. -/
inductive Follows (br t : Text) : Reading → Reading → Prop
  | ok {n : Nat} : Follows br t (.ok n) (.ok (stretch br t n))
  | error {fault fault' : Fault} (cause : fault'.cause = fault.cause)
      (position : fault'.position = stretch br t fault.position) :
      Follows br t (.error fault) (.error fault')

theorem follows_of_within {reading : Reading} (h : Lexeme.Within (firstLine t) reading) :
    reading.Follows br t reading := by
  cases reading with
  | ok n =>
    have hok : Follows br t (.ok n) (.ok (stretch br t n)) := .ok
    rwa [Text.stretch_of_le_firstLine h] at hok
  | error fault => exact .error rfl (Text.stretch_of_le_firstLine h).symm

end Reading

namespace Lexeme

/-- A lexeme of the text with other line breaks is of the same kind. -/
inductive Follows (br t : Text) :
    Except Fault (TokenKind × Nat) → Except Fault (TokenKind × Nat) → Prop
  | ok {kind : TokenKind} {n : Nat} : Follows br t (.ok (kind, n)) (.ok (kind, stretch br t n))
  | error {fault fault' : Fault} (cause : fault'.cause = fault.cause)
      (position : fault'.position = stretch br t fault.position) :
      Follows br t (.error fault) (.error fault')

theorem follows_kinded {reading reading' : Reading} (kind : TokenKind)
    (h : reading.Follows br t reading') :
    Follows br t (kinded kind reading) (kinded kind reading') := by
  cases h with
  | ok => exact .ok
  | error cause position => exact .error cause position

/-! ## Readers of the first line -/

theorem mem_separators_of_isLineBreak {c : Char} (h : Text.isLineBreak c = true) :
    c ∈ separators := by
  simp only [Text.isLineBreak, Bool.or_eq_true, beq_iff_eq] at h
  rcases h with rfl | rfl <;> decide

/-- What does not look past a separator sees no more than the first line. -/
theorem eq_firstLine {α : Type} {f : Text → α} (hne : firstLine t ≠ [])
    (hf : ∀ {c : Char} (_ : c ∈ separators) {t : Text} (u : Text), t ≠ [] →
      f (t ++ c :: u) = f t) : f t = f (firstLine t) := by
  have hsplit := List.takeWhile_append_dropWhile (p := fun c => !Text.isLineBreak c) (l := t)
  have hhead := List.head?_dropWhile_not (fun c => !Text.isLineBreak c) t
  cases hrest : t.dropWhile fun c => !Text.isLineBreak c with
  | nil =>
    rw [hrest, List.append_nil] at hsplit
    rw [firstLine, hsplit]
  | cons c u =>
    rw [hrest] at hsplit hhead
    have hc : c ∈ separators := mem_separators_of_isLineBreak (by simpa using hhead)
    conv_lhs => rw [← hsplit]
    exact hf hc u hne

theorem eq_of_firstLine {α : Type} {f : Text → α} (h : Rebreaks br t) (hne : firstLine t ≠ [])
    (hf : ∀ {c : Char} (_ : c ∈ separators) {t : Text} (u : Text), t ≠ [] →
      f (t ++ c :: u) = f t) : f (withBreaks br t) = f t := by
  have hfirst := h.firstLine_withBreaks
  rw [eq_firstLine (by rwa [hfirst]) hf, hfirst, ← eq_firstLine hne hf]

theorem follows_number (h : Rebreaks br t) (hne : firstLine t ≠ []) :
    (number t).Follows br t (number (withBreaks br t)) := by
  have hf {c : Char} (hc : c ∈ separators) {t : Text} (u : Text) (_ : t ≠ []) :
      number (t ++ c :: u) = number t :=
    number_append hc t u
  rw [eq_of_firstLine h hne hf]
  apply Reading.follows_of_within
  rw [eq_firstLine hne hf]
  exact within_number (firstLine t)

theorem follows_plain (h : Rebreaks br t) (hne : firstLine t ≠ []) :
    Follows br t (plain t) (plain (withBreaks br t)) := by
  have hf {c : Char} (hc : c ∈ separators) {t : Text} (u : Text) (hne : t ≠ []) :
      plain (t ++ c :: u) = plain t :=
    plain_append u hc hne
  have hok {kind : TokenKind} {n : Nat} (hn : n ≤ (firstLine t).length) :
      Follows br t (.ok (kind, n)) (.ok (kind, n)) := by
    have hfollows : Follows br t (.ok (kind, n)) (.ok (kind, stretch br t n)) := .ok
    rwa [Text.stretch_of_le_firstLine hn] at hfollows
  rw [eq_of_firstLine h hne hf, eq_firstLine hne hf]
  unfold plain
  split
  · next hnil => exact absurd hnil hne
  · next c u hcons =>
    split
    · exact hok (wordLength_le _)
    · split
      · next hoperator => exact hok (operator?_le hoperator)
      · exact .error rfl Text.stretch_zero.symm

/-! ## String literals -/

/-- The extent of a literal with other line breaks in it. -/
structure Stretches (br t : Text) (extent extent' : Extent) : Prop where
  closed : extent'.closed = extent.closed
  length : extent.closed = true → extent'.length = stretch br t extent.length

variable {extent extent' : Extent}

theorem Stretches.cons {c : Char} (h : Stretches br t extent extent') (hc : c ≠ '\n') :
    Stretches br (c :: t) (extent.after 1) (extent'.after 1) where
  closed := h.closed
  length := by
    intro hclosed
    rw [Extent.after_length, Extent.after_length, h.length hclosed, Nat.add_comm 1,
      Nat.add_comm 1, Text.stretch_cons_succ hc]

theorem Stretches.lineFeed (h : Stretches br t extent extent') (hbr : Rebreaks br t) :
    Stretches br ('\n' :: t) (extent.after 1) (extent'.after br.length) where
  closed := h.closed
  length := by
    intro hclosed
    rw [Extent.after_length, Extent.after_length, h.length hclosed, Nat.add_comm 1,
      hbr.stretch_lineFeed_succ, Nat.add_comm]

theorem stretches_of_not_closed (h : extent.closed = false) (h' : extent'.closed = false) :
    Stretches br t extent extent' :=
  ⟨h'.trans h.symm, by simp [h]⟩

section StringBody

variable {quote : Char} {width : QuoteWidth} {run : Nat} {u : Text} {c : Char}

theorem after_after (extent : Extent) (m n : Nat) :
    (extent.after m).after n = extent.after (n + m) := by
  simp [Extent.after, Nat.add_assoc]

theorem stringBody_quote : stringBody quote width run (quote :: u) =
    if run + 1 = width.count then ⟨1, true⟩
    else (stringBody quote width (run + 1) u).after 1 := by
  rw [stringBody.eq_def]
  simp only [if_true]

theorem stringBody_cons_of_ne (hquote : c ≠ quote) (hescape : c ≠ '\\') :
    stringBody quote width run (c :: u) =
      if width = .single ∧ Text.isLineBreak c then ⟨1, false⟩
      else (stringBody quote width 0 u).after 1 := by
  rw [stringBody.eq_def]
  simp only [hquote, hescape, if_false]

/-- An escape takes the character behind it. -/
theorem stringBody_escape (hquote : '\\' ≠ quote) (hpair : c = '\r' → u.head? ≠ some '\n') :
    stringBody quote width run ('\\' :: c :: u) = (stringBody quote width 0 u).after 2 := by
  rw [stringBody.eq_def]
  simp only [hquote, if_false, if_true]
  split
  · next hnil => cases hnil
  · next hcons =>
    cases hcons
    exact absurd rfl (hpair rfl)
  · next hcons =>
    cases hcons
    rfl

theorem stringBody_escape_pair (hquote : '\\' ≠ quote) :
    stringBody quote width run ('\\' :: '\r' :: '\n' :: u) =
      (stringBody quote width 0 u).after 3 := by
  rw [stringBody.eq_def]
  simp only [hquote, if_false, if_true]

theorem ne_of_isQuote (hquote : isQuote quote = true) :
    '\n' ≠ quote ∧ '\r' ≠ quote ∧ '\\' ≠ quote := by
  simp only [isQuote, Bool.or_eq_true, beq_iff_eq] at hquote
  rcases hquote with rfl | rfl <;> decide

/-- A raw line break inside a literal with three quotes is passed over character by character. -/
theorem stringBody_lineBreak (hquote : isQuote quote = true) (hbr : br ∈ Text.breaks)
    (hwidth : width ≠ .single) :
    stringBody quote width run (br ++ u) = (stringBody quote width 0 u).after br.length := by
  obtain ⟨hn, hr, -⟩ := ne_of_isQuote hquote
  have hstep {c : Char} {run : Nat} (hc : c ≠ quote) (hescape : c ≠ '\\') (u : Text) :
      stringBody quote width run (c :: u) = (stringBody quote width 0 u).after 1 := by
    rw [stringBody_cons_of_ne hc hescape, if_neg (fun hsingle => hwidth hsingle.1)]
  simp only [Text.breaks, List.mem_cons, List.not_mem_nil, or_false] at hbr
  rcases hbr with rfl | rfl | rfl
  · exact hstep hn (by decide) u
  · rw [List.cons_append, hstep hr (by decide), List.cons_append, hstep hn (by decide)]
    simp only [Extent.after, List.nil_append, List.length_cons, List.length_nil]
    congr 1
    omega
  · exact hstep hr (by decide) u

/-- An escaped line break is passed over as a whole. -/
theorem stringBody_escaped_lineBreak (hquote : isQuote quote = true) (hbr : br ∈ Text.breaks)
    (hu : br = ['\r'] → u.head? ≠ some '\n') :
    stringBody quote width run ('\\' :: (br ++ u)) =
      (stringBody quote width 0 u).after (br.length + 1) := by
  obtain ⟨-, -, hescape⟩ := ne_of_isQuote hquote
  simp only [Text.breaks, List.mem_cons, List.not_mem_nil, or_false] at hbr
  rcases hbr with rfl | rfl | rfl
  · exact stringBody_escape hescape (by simp)
  · exact stringBody_escape_pair hescape
  · exact stringBody_escape hescape fun _ => hu rfl

/-- A raw line break ends a literal with one quote before its end. -/
theorem stringBody_single_lineBreak (hquote : isQuote quote = true) (hbr : br ∈ Text.breaks) :
    (stringBody quote .single run (br ++ u)).closed = false := by
  obtain ⟨hn, hr, -⟩ := ne_of_isQuote hquote
  simp only [Text.breaks, List.mem_cons, List.not_mem_nil, or_false] at hbr
  rcases hbr with rfl | rfl | rfl
  · rw [List.cons_append, stringBody_cons_of_ne hn (by decide), if_pos ⟨rfl, rfl⟩]
  · rw [List.cons_append, stringBody_cons_of_ne hr (by decide), if_pos ⟨rfl, rfl⟩]
  · rw [List.cons_append, stringBody_cons_of_ne hr (by decide), if_pos ⟨rfl, rfl⟩]

/-- An escape and what follows it, with other line breaks in both. -/
theorem stretches_escape (hquote : isQuote quote = true) (h : Rebreaks br (c :: t))
    (hclean : '\r' ∉ c :: t)
    (htail : Stretches br t (stringBody quote width 0 t)
      (stringBody quote width 0 (withBreaks br t))) :
    Stretches br ('\\' :: c :: t) (stringBody quote width run ('\\' :: c :: t))
      (stringBody quote width run ('\\' :: withBreaks br (c :: t))) := by
  obtain ⟨-, -, hescape⟩ := ne_of_isQuote hquote
  simp only [List.mem_cons, not_or] at hclean
  have hr : c = '\r' → t.head? ≠ some '\n' := fun hc => absurd hc.symm hclean.1
  have hr' : c = '\r' → (withBreaks br t).head? ≠ some '\n' := fun hc => absurd hc.symm hclean.1
  by_cases hc : c = '\n'
  · subst hc
    rw [Text.withBreaks_lineFeed, stringBody_escape hescape hr,
      stringBody_escaped_lineBreak hquote h.mem]
    · have hboth := (htail.lineFeed h.of_cons).cons (c := '\\') (by decide)
      rwa [after_after, after_after, Nat.add_comm 1 br.length] at hboth
    · rintro rfl hhead
      exact Text.not_mem_withBreaks_carriageReturn (List.mem_of_mem_head? hhead)
  · rw [Text.withBreaks_cons hc, stringBody_escape hescape hr, stringBody_escape hescape hr']
    have hboth := (htail.cons hc).cons (c := '\\') (by decide)
    rwa [after_after, after_after] at hboth

/-- A raw line break and what follows it, with other line breaks in both. -/
theorem stretches_lineBreak (hquote : isQuote quote = true) (h : Rebreaks br ('\n' :: t))
    (htail : Stretches br t (stringBody quote width 0 t)
      (stringBody quote width 0 (withBreaks br t))) :
    Stretches br ('\n' :: t) (stringBody quote width run ('\n' :: t))
      (stringBody quote width run (withBreaks br ('\n' :: t))) := by
  have hlineFeed : ['\n'] ∈ Text.breaks := List.mem_cons_self
  rw [Text.withBreaks_lineFeed, show '\n' :: t = ['\n'] ++ t from rfl]
  by_cases hsingle : width = .single
  · subst hsingle
    exact stretches_of_not_closed (stringBody_single_lineBreak hquote hlineFeed)
      (stringBody_single_lineBreak hquote h.mem)
  · rw [stringBody_lineBreak hquote h.mem hsingle, stringBody_lineBreak hquote hlineFeed hsingle]
    exact htail.lineFeed h.of_cons

/-- One literal with other line breaks in it. Each turn takes a character or an escape. -/
theorem stretches_stringBody (hquote : isQuote quote = true) (h : Rebreaks br t) :
    Stretches br t (stringBody quote width run t)
      (stringBody quote width run (withBreaks br t)) := by
  rcases h.clean with rfl | hclean
  · rw [Text.withBreaks_self]
    exact ⟨rfl, fun _ => Text.stretch_self.symm⟩
  induction hlength : t.length using Nat.strong_induction_on generalizing t run with
  | _ length ih =>
    subst hlength
    match t with
    | [] => exact stretches_of_not_closed rfl rfl
    | c :: t =>
      obtain ⟨hr, hclean'⟩ := not_or.mp fun h => hclean (List.mem_cons.mpr h)
      have htail {run : Nat} :=
        @ih t.length (Nat.lt_succ_self _) t run h.of_cons hclean' rfl
      by_cases hn : c = '\n'
      · subst hn
        exact stretches_lineBreak hquote h htail
      rw [Text.withBreaks_cons hn]
      by_cases hcq : c = quote
      · subst hcq
        rw [stringBody_quote, stringBody_quote]
        split
        · refine ⟨rfl, fun _ => ?_⟩
          rw [Text.stretch_cons_succ hn, Text.stretch_zero]
        · exact htail.cons hn
      by_cases hescape : c = '\\'
      · subst hescape
        match t with
        | [] =>
          refine stretches_of_not_closed ?_ ?_ <;> simp [stringBody, hcq]
        | d :: u =>
          have hlength : u.length < ('\\' :: d :: u).length :=
            Nat.lt_succ_of_lt (Nat.lt_succ_self _)
          have hclean'' : '\r' ∉ u := fun hmem => hclean' (List.mem_cons_of_mem d hmem)
          exact stretches_escape hquote h.of_cons hclean'
            (ih u.length hlength h.of_cons.of_cons hclean'' rfl)
      · have hbreak : ¬ (width = .single ∧ Text.isLineBreak c = true) := by
          simp [Text.isLineBreak, hn, Ne.symm hr]
        rw [stringBody_cons_of_ne hcq hescape, stringBody_cons_of_ne hcq hescape, if_neg hbreak,
          if_neg hbreak]
        exact htail.cons hn

/-- What comes in front of the body holds no line break. -/
theorem Stretches.follows {k : Nat} (h : Stretches br (t.drop k) extent extent')
    (hk : stretch br t k = k) :
    ((extent.after k).reading width).Follows br t ((extent'.after k).reading width) := by
  rw [Extent.reading, Extent.reading, Extent.after_closed, Extent.after_closed, h.closed]
  split
  · next hclosed =>
    rw [Extent.after_length, Extent.after_length, h.length hclosed]
    have hok : Reading.Follows br t (.ok (k + extent.length))
        (.ok (stretch br t (k + extent.length))) := .ok
    rwa [Text.stretch_add, hk] at hok
  · exact .error rfl Text.stretch_zero.symm

variable {letters k : Nat} {w : Text}

/-- As many quotes as open a literal stand for themselves. -/
theorem stretch_quotes (hquote : isQuote quote = true)
    (hletters : stretch br t letters = letters)
    (hw : t.drop letters = List.replicate k quote ++ w) :
    stretch br t (letters + k) = letters + k ∧ t.drop (letters + k) = w := by
  have htake : (t.drop letters).take k = List.replicate k quote := by
    rw [hw, List.take_left' (by simp)]
  constructor
  · rw [Text.stretch_add, hletters, Text.stretch_of_not_mem]
    rw [htake]
    exact fun hmem => (ne_of_isQuote hquote).1 (List.eq_of_mem_replicate hmem)
  · rw [← List.drop_drop, hw, List.drop_left' (by simp)]

theorem follows_body (h : Rebreaks br t) (hquote : isQuote quote = true)
    (hletters : stretch br t letters = letters) (width : QuoteWidth)
    (hw : t.drop letters = List.replicate k quote ++ w) :
    (((stringBody quote width 0 w).after (letters + k)).reading width).Follows br t
      (((stringBody quote width 0 (withBreaks br w)).after (letters + k)).reading width) := by
  obtain ⟨hstretch, hdrop⟩ := stretch_quotes hquote hletters hw
  refine Stretches.follows ?_ hstretch
  rw [hdrop]
  exact stretches_stringBody hquote (hdrop ▸ h.drop (letters + k))

theorem follows_string (h : Rebreaks br t) (hletters : stretch br t letters = letters)
    (hhead : (t.drop letters).head?.any isQuote = true) :
    (string letters (t.drop letters)).Follows br t
      (string letters ((withBreaks br t).drop letters)) := by
  have hdrop := h.drop_withBreaks letters
  have hrest := h.drop letters
  rw [hletters] at hdrop
  rw [hdrop]
  cases hv : t.drop letters with
  | nil => simp [hv] at hhead
  | cons quote u =>
    rw [hv] at hhead hrest
    have hquote : isQuote quote = true := by simpa using hhead
    obtain ⟨hn, hr, -⟩ := ne_of_isQuote hquote
    have hsecond := hrest.of_cons.head?_eq_iff (Ne.symm hn) (Ne.symm hr)
    rw [Text.withBreaks_cons (Ne.symm hn), string, string]
    by_cases htwo : u.head? = some quote
    · rw [if_pos htwo, if_pos (hsecond.mpr htwo)]
      obtain ⟨v, rfl⟩ := List.head?_eq_some_iff.mp htwo
      have hthird := hrest.of_cons.of_cons.head?_eq_iff (Ne.symm hn) (Ne.symm hr)
      rw [Text.withBreaks_cons (Ne.symm hn)]
      simp only [List.drop_succ_cons, List.drop_zero]
      by_cases hthree : v.head? = some quote
      · rw [if_pos hthree, if_pos (hthird.mpr hthree)]
        obtain ⟨w, rfl⟩ := List.head?_eq_some_iff.mp hthree
        rw [Text.withBreaks_cons (Ne.symm hn)]
        exact follows_body (k := 3) h hquote hletters .triple hv
      · rw [if_neg hthree, if_neg (mt hthird.mp hthree)]
        have hok : Reading.Follows br t (.ok (letters + 2))
            (.ok (stretch br t (letters + 2))) := .ok
        rwa [(stretch_quotes (k := 2) hquote hletters hv).1] at hok
    · rw [if_neg htwo, if_neg (mt hsecond.mp htwo)]
      exact follows_body (k := 1) h hquote hletters .single hv

end StringBody

/-! ## All lexemes -/

theorem lettersAt?_eq_some {letters : Nat} (h : lettersAt? t = some letters) :
    '\n' ∉ t.take letters ∧ (t.drop letters).head?.any isQuote = true := by
  unfold lettersAt? at h
  split at h
  · cases h
  · next d u =>
    split at h
    · next hquote =>
      cases h
      exact ⟨by simp, by simpa using hquote⟩
    · split at h
      · next hword =>
        cases h
        rw [Bool.and_eq_true, Bool.and_eq_true] at hword
        refine ⟨?_, hword.1.2⟩
        rw [wordLength, Text.take_length_takeWhile]
        exact Text.not_mem_takeWhile (by decide)
      · cases h

/-- A lexeme is read in the same way whatever the line breaks are. -/
theorem follows_read (h : Rebreaks br t) (hne : firstLine t ≠ []) :
    Follows br t (read t) (read (withBreaks br t)) := by
  have hstarts : startsNumber (withBreaks br t) = startsNumber t :=
    eq_of_firstLine h hne fun hc _ u hne => startsNumber_append u hc hne
  have hletters : lettersAt? (withBreaks br t) = lettersAt? t :=
    eq_of_firstLine h hne fun hc _ u _ => lettersAt?_append u hc
  rw [read_eq, read_eq, hstarts, hletters]
  split
  · exact follows_kinded .number (follows_number h hne)
  · split
    · next letters hsome =>
      obtain ⟨hmem, hhead⟩ := lettersAt?_eq_some hsome
      exact follows_kinded .string (follows_string h (Text.stretch_of_not_mem hmem) hhead)
    · exact follows_plain h hne

end Lexeme

end Verbatim
