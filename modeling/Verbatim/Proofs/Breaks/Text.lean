import Mathlib.Data.List.TakeWhile
import Verbatim.Proofs.Text
import Verbatim.Text.Lines

/-!
# Texts with other line breaks

A text whose lines end in line feeds can be written with carriage returns or with pairs of both in
their place. Whatever stops at a line break finds the same in both texts. A number of characters
of the one stands for that number of the other, plus what is added for each line feed among them.
-/

namespace Verbatim.Text

def breaks : List Text :=
  [['\n'], ['\r', '\n'], ['\r']]

def withBreaks (br t : Text) : Text :=
  t.flatMap fun c => if c = '\n' then br else [c]

/-- How many characters the first `n` become. -/
def stretch (br t : Text) (n : Nat) : Nat :=
  n + (br.length - 1) * (t.take n).count '\n'

/-- The text can be written with other line breaks: unless they stay the same, there is no
carriage return that could run together with one of them. -/
structure Rebreaks (br t : Text) : Prop where
  mem : br ∈ breaks
  clean : br = ['\n'] ∨ '\r' ∉ t

variable {br t u : Text} {c : Char} {n : Nat}

@[simp]
theorem withBreaks_nil : withBreaks br [] = [] := rfl

@[simp]
theorem withBreaks_append : withBreaks br (t ++ u) = withBreaks br t ++ withBreaks br u :=
  List.flatMap_append

@[simp]
theorem withBreaks_lineFeed : withBreaks br ('\n' :: t) = br ++ withBreaks br t := rfl

theorem withBreaks_cons (h : c ≠ '\n') : withBreaks br (c :: t) = c :: withBreaks br t := by
  simp [withBreaks, h]

/-- Line feeds in place of line feeds change nothing. -/
@[simp]
theorem withBreaks_self (t : Text) : withBreaks ['\n'] t = t := by
  induction t with
  | nil => rfl
  | cons c t ih =>
    by_cases hc : c = '\n'
    · rw [hc, withBreaks_lineFeed, ih]
      rfl
    · rw [withBreaks_cons hc, ih]

/-! ## Lengths -/

@[simp]
theorem stretch_zero : stretch br t 0 = 0 := by
  simp [stretch]

@[simp]
theorem stretch_self : stretch ['\n'] t n = n := by
  simp [stretch]

theorem stretch_of_not_mem (h : '\n' ∉ t.take n) : stretch br t n = n := by
  rw [stretch, List.count_eq_zero_of_not_mem h, Nat.mul_zero, Nat.add_zero]

theorem le_stretch : n ≤ stretch br t n :=
  Nat.le_add_right _ _

theorem stretch_eq_zero_iff : stretch br t n = 0 ↔ n = 0 := by
  constructor
  · intro h
    exact Nat.le_zero.mp (h ▸ le_stretch)
  · rintro rfl
    exact stretch_zero

theorem stretch_cons_succ (h : c ≠ '\n') : stretch br (c :: t) (n + 1) = stretch br t n + 1 := by
  simp only [stretch, List.take_succ_cons, List.count_cons_of_ne h]
  omega

theorem Rebreaks.length_pos (h : Rebreaks br t) : 0 < br.length := by
  have hall : ∀ br ∈ breaks, 0 < br.length := by decide
  exact hall br h.mem

theorem Rebreaks.stretch_lineFeed_succ (h : Rebreaks br t) :
    stretch br ('\n' :: t) (n + 1) = stretch br t n + br.length := by
  have hpos := h.length_pos
  simp only [stretch, List.take_succ_cons, List.count_cons_self, Nat.mul_add, Nat.mul_one]
  omega

theorem Rebreaks.of_cons (h : Rebreaks br (c :: t)) : Rebreaks br t :=
  ⟨h.mem, h.clean.imp id fun hnot hmem => hnot (List.mem_cons_of_mem c hmem)⟩

theorem Rebreaks.drop (h : Rebreaks br t) (n : Nat) : Rebreaks br (t.drop n) :=
  ⟨h.mem, h.clean.imp id fun hnot hmem => hnot (List.mem_of_mem_drop hmem)⟩

theorem Rebreaks.drop_withBreaks (h : Rebreaks br t) (n : Nat) :
    (withBreaks br t).drop (stretch br t n) = withBreaks br (t.drop n) := by
  induction t generalizing n with
  | nil => simp
  | cons c t ih =>
    cases n with
    | zero => simp
    | succ n =>
      by_cases hc : c = '\n'
      · subst hc
        rw [h.of_cons.stretch_lineFeed_succ, withBreaks_lineFeed, Nat.add_comm, ← List.drop_drop,
          List.drop_left, ih h.of_cons, List.drop_succ_cons]
      · rw [stretch_cons_succ hc, withBreaks_cons hc, List.drop_succ_cons, ih h.of_cons,
          List.drop_succ_cons]

theorem Rebreaks.take_withBreaks (h : Rebreaks br t) (n : Nat) :
    (withBreaks br t).take (stretch br t n) = withBreaks br (t.take n) := by
  have hsplit := List.take_append_drop (stretch br t n) (withBreaks br t)
  have hparts := congrArg (withBreaks br) (List.take_append_drop n t)
  rw [withBreaks_append, ← hsplit, h.drop_withBreaks] at hparts
  exact (List.append_cancel_right hparts).symm

/-! ## What stops at a line break -/

theorem not_mem_takeWhile {p : Char → Bool} (hp : p c = false) : c ∉ t.takeWhile p := by
  intro hmem
  have := List.mem_takeWhile_imp hmem
  rw [hp] at this
  cases this

/-- The other line break begins with a line feed or a carriage return. -/
theorem Rebreaks.exists_head (h : Rebreaks br t) :
    ∃ c v, br = c :: v ∧ (c = '\n' ∨ c = '\r') := by
  have hall : ∀ br ∈ breaks, ∃ c v, br = c :: v ∧ (c = '\n' ∨ c = '\r') := by
    intro br hbr
    simp only [breaks, List.mem_cons, List.not_mem_nil, or_false] at hbr
    rcases hbr with rfl | rfl | rfl <;> simp
  exact hall br h.mem

theorem Rebreaks.takeWhile_withBreaks (h : Rebreaks br t) {p : Char → Bool} (hn : p '\n' = false)
    (hr : p '\r' = false) : (withBreaks br t).takeWhile p = t.takeWhile p := by
  induction t with
  | nil => rfl
  | cons c t ih =>
    by_cases hc : c = '\n'
    · obtain ⟨d, v, rfl, hd⟩ := h.exists_head
      have hd : p d = false := by rcases hd with rfl | rfl <;> assumption
      rw [hc, withBreaks_lineFeed, List.cons_append, List.takeWhile_cons, List.takeWhile_cons,
        if_neg (by simp [hd]), if_neg (by simp [hn])]
    · rw [withBreaks_cons hc, List.takeWhile_cons, List.takeWhile_cons, ih h.of_cons]

theorem stretch_takeWhile {p : Char → Bool} (hn : p '\n' = false) :
    stretch br t (t.takeWhile p).length = (t.takeWhile p).length := by
  apply stretch_of_not_mem
  rw [take_length_takeWhile]
  exact not_mem_takeWhile hn

theorem Rebreaks.head?_any_withBreaks (h : Rebreaks br t) {p : Char → Bool}
    (hp : p '\n' = p '\r') : (withBreaks br t).head?.any p = t.head?.any p := by
  cases t with
  | nil => rfl
  | cons c t =>
    by_cases hc : c = '\n'
    · obtain ⟨d, v, rfl, hd⟩ := h.exists_head
      rcases hd with rfl | rfl <;> simp [hc, hp]
    · simp [withBreaks_cons hc]

theorem Rebreaks.eq_nil_iff (h : Rebreaks br t) : withBreaks br t = [] ↔ t = [] := by
  have hany := h.head?_any_withBreaks (p := fun _ => true) rfl
  cases t with
  | nil => simp
  | cons c t =>
    cases hw : withBreaks br (c :: t) with
    | nil => simp [hw] at hany
    | cons d v => simp

theorem Rebreaks.head?_eq_iff (h : Rebreaks br t) (hn : c ≠ '\n') (hr : c ≠ '\r') :
    (withBreaks br t).head? = some c ↔ t.head? = some c := by
  have hany := h.head?_any_withBreaks (p := (· == c)) (by simp [Ne.symm hn, Ne.symm hr])
  rw [Bool.eq_iff_iff] at hany
  simpa [Option.any_eq_true] using hany

theorem Rebreaks.firstLine_withBreaks (h : Rebreaks br t) :
    firstLine (withBreaks br t) = firstLine t :=
  h.takeWhile_withBreaks rfl rfl

theorem Rebreaks.isPrefixOf_withBreaks (h : Rebreaks br t) {w : Text} (hn : '\n' ∉ w)
    (hr : '\r' ∉ w) : w.isPrefixOf (withBreaks br t) = w.isPrefixOf t := by
  induction w generalizing t with
  | nil => simp
  | cons d w ih =>
    simp only [List.mem_cons, not_or] at hn hr
    cases t with
    | nil => rfl
    | cons c t =>
      by_cases hc : c = '\n'
      · obtain ⟨e, v, rfl, he⟩ := h.exists_head
        have hdn : (d == '\n') = false := by simpa using Ne.symm hn.1
        have hde : (d == e) = false := by
          rcases he with rfl | rfl
          · exact hdn
          · simpa using Ne.symm hr.1
        simp [hc, List.isPrefixOf, hdn, hde]
      · rw [withBreaks_cons hc, List.isPrefixOf, List.isPrefixOf, ih h.of_cons hn.2 hr.2]

theorem lineBreakLength_of_not_isLineBreak (h : isLineBreak c = false) :
    lineBreakLength (c :: t) = 0 := by
  unfold lineBreakLength
  split <;> simp_all [isLineBreak]

theorem lineBreakLength_carriageReturn (h : t.head? ≠ some '\n') :
    lineBreakLength ('\r' :: t) = 1 := by
  unfold lineBreakLength
  split <;> simp_all

theorem not_mem_withBreaks_carriageReturn : '\n' ∉ withBreaks ['\r'] t := by
  induction t with
  | nil => simp
  | cons c t ih =>
    by_cases hc : c = '\n'
    · simp [hc, ih]
    · simp [withBreaks_cons hc, ih, Ne.symm hc]

theorem Rebreaks.lineBreakLength_withBreaks (h : Rebreaks br t) :
    lineBreakLength (withBreaks br t) = stretch br t (lineBreakLength t) := by
  rcases h.clean with rfl | hclean
  · rw [withBreaks_self, stretch_self]
  · cases t with
    | nil => rfl
    | cons c t =>
      simp only [List.mem_cons, not_or] at hclean
      by_cases hc : c = '\n'
      · subst hc
        have hone : lineBreakLength ('\n' :: t) = 1 := rfl
        rw [hone, h.of_cons.stretch_lineFeed_succ, stretch_zero, Nat.zero_add, withBreaks_lineFeed]
        have hmem := h.mem
        simp only [breaks, List.mem_cons, List.not_mem_nil, or_false] at hmem
        rcases hmem with rfl | rfl | rfl
        · rfl
        · rfl
        · apply lineBreakLength_carriageReturn
          intro hhead
          exact not_mem_withBreaks_carriageReturn (List.mem_of_mem_head? hhead)
      · have hbreak : isLineBreak c = false := by simp [isLineBreak, hc, Ne.symm hclean.1]
        rw [withBreaks_cons hc, lineBreakLength_of_not_isLineBreak hbreak,
          lineBreakLength_of_not_isLineBreak hbreak, stretch_zero]

end Verbatim.Text
