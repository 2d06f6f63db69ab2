import Mathlib.Data.List.Chain
import Verbatim.Search

/-!
# What a binary search finds

In a row in strict order the numbers up to a bound come first, so that the place of the last of
them tells how many they are. The search narrows the places of a row down to that one. Both of its
arms then answer with the number of those that are less than the one looked for.
-/

namespace Verbatim

variable {row : List Nat} {x : Nat}

/-- In a row in strict order, those up to a bound come first. -/
theorem lt_countP_iff {xs : List Nat} (h : xs.Pairwise (· < ·)) {k bound : Nat} :
    k < xs.countP (· ≤ bound) ↔ ∃ x, xs[k]? = some x ∧ x ≤ bound := by
  induction xs generalizing k with
  | nil => simp
  | cons y ys ih =>
    obtain ⟨hfirst, hys⟩ := List.pairwise_cons.mp h
    by_cases hy : y ≤ bound
    · rw [List.countP_cons_of_pos (by simpa using hy)]
      cases k with
      | zero => simp [hy]
      | succ k =>
        rw [List.getElem?_cons_succ, ← ih hys]
        omega
    · -- none of the others is within the bound, as they are even greater
      have hnone : (y :: ys).countP (· ≤ bound) = 0 := by
        rw [List.countP_eq_zero]
        intro x hx
        rcases List.mem_cons.mp hx with rfl | hx
        · simpa using hy
        · have := hfirst x hx
          simp only [decide_eq_true_eq]
          omega
      constructor
      · intro hk
        omega
      · rintro ⟨x, hx, hbound⟩
        have hmem := List.mem_of_getElem? hx
        have := List.countP_eq_zero.mp hnone x hmem
        simp only [decide_eq_true_eq] at this
        omega

/-- A number in the row decides on which side of it the last of those up to `x` is. -/
theorem le_iff_lt_countP (h : row.Pairwise (· < ·)) {k y : Nat} (hk : row[k]? = some y) :
    y ≤ x ↔ k < row.countP (· ≤ x) := by
  rw [lt_countP_iff h, hk]
  constructor
  · exact fun hle => ⟨y, rfl, hle⟩
  · rintro ⟨z, hz, hle⟩
    rwa [Option.some.inj hz]

/-- What the turns of the search keep: the last of those up to `x` is among the places, or there is
none and the places are the first ones. -/
theorem narrow_eq (h : row.Pairwise (· < ·)) {turns base size : Nat} (hpos : 0 < size)
    (hturns : size ≤ turns + 1) (hsize : base + size ≤ row.length)
    (hbase : base ≤ row.countP (· ≤ x) - 1) (hend : row.countP (· ≤ x) ≤ base + size) :
    narrow row x turns base size = row.countP (· ≤ x) - 1 := by
  induction turns generalizing base size with
  | zero =>
    rw [narrow]
    omega
  | succ turns ih =>
    rw [narrow]
    split
    · have hmiddle : row[base + size / 2]? = some (row.getD (base + size / 2) 0) := by
        rw [List.getD_eq_getElem?_getD, List.getElem?_eq_getElem (by omega), Option.getD_some]
      have hside := le_iff_lt_countP (x := x) h hmiddle
      dsimp only
      split
      · exact ih (by omega) (by omega) (by omega) (by omega) (by omega)
      · exact ih (by omega) (by omega) (by omega) (by omega) (by omega)
    · omega

/-- In a row without repetition, those up to `x` are those less than `x`, and `x` if it stands there. -/
theorem countP_le_eq (h : row.Nodup) :
    row.countP (· ≤ x) = row.countP (· < x) + if x ∈ row then 1 else 0 := by
  induction row with
  | nil => rfl
  | cons y ys ih =>
    obtain ⟨hy, hys⟩ := List.nodup_cons.mp h
    rw [List.countP_cons, List.countP_cons, ih hys]
    rcases lt_trichotomy y x with hlt | rfl | hgt
    · simp [hlt, hlt.le, hlt.ne']
      omega
    · simp [hy]
    · simp [hgt.not_ge, hgt.not_gt, hgt.ne]

/-- Both arms answer with the number of those that are less than the one looked for. -/
theorem binarySearch_eq (h : row.Pairwise (· < ·)) :
    binarySearch row x =
      if x ∈ row then .ok (row.countP (· < x)) else .error (row.countP (· < x)) := by
  have hcount := countP_le_eq (x := x) (h.imp ne_of_lt)
  rcases Nat.eq_zero_or_pos row.length with hlength | hlength
  · rw [List.eq_nil_of_length_eq_zero hlength]
    rfl
  have hnarrow : narrow row x row.length 0 row.length = row.countP (· ≤ x) - 1 :=
    narrow_eq h hlength (Nat.le_succ _) (Nat.zero_add _).le (Nat.zero_le _)
      (List.countP_le_length.trans (Nat.zero_add _).ge)
  obtain ⟨found, hfound⟩ : ∃ found, row[row.countP (· ≤ x) - 1]? = some found := by
    have hle := row.countP_le_length (p := fun y => decide (y ≤ x))
    exact ⟨_, List.getElem?_eq_getElem (by omega)⟩
  have hside := le_iff_lt_countP (x := x) h hfound
  rw [binarySearch, hnarrow, hfound]
  by_cases hmem : x ∈ row
  · rw [if_pos hmem] at hcount
    have heq : found = x := by
      obtain ⟨k, hk⟩ := List.mem_iff_getElem?.mp hmem
      have hbefore := (le_iff_lt_countP h hk).mp le_rfl
      have hle : found ≤ x := hside.mpr (by omega)
      rcases (Nat.le_sub_one_of_lt hbefore).lt_or_eq with hlt | rfl
      · -- `x` does not stand in front of a number that is not greater
        obtain ⟨hplace, rfl⟩ := List.getElem?_eq_some_iff.mp hk
        obtain ⟨hlast, rfl⟩ := List.getElem?_eq_some_iff.mp hfound
        exact absurd hle (List.pairwise_iff_getElem.mp h _ _ hplace hlast hlt).not_ge
      · exact Option.some.inj (hfound.symm.trans hk)
    rw [if_pos hmem, heq]
    dsimp only
    rw [if_pos rfl, hcount, Nat.add_sub_cancel]
  · rw [if_neg hmem] at hcount
    have hne : found ≠ x := fun heq => hmem (heq ▸ List.mem_of_getElem? hfound)
    rw [if_neg hmem]
    dsimp only
    rw [if_neg hne]
    split
    · congr 1
      omega
    · congr 1
      omega

end Verbatim
