import Verbatim.Proofs.Derivation.First
import Verbatim.Proofs.Derivation.Root
import Verbatim.Proofs.ExpressionStatement

/-!
# The first target of an assignment

What stands before the first sign of an assignment is parsed like the values after it, so it may be
a `yield`, with or without a value. The first token of the statement tells: where it is no `yield`,
neither is the first target.
-/

namespace Verbatim

open Outline (tokensOf eventsOf Begin)

/-! ## Yields -/

theorem Derives.begin_of_isYield {P : Phrase} {e : Expr} (h : Derives P (.expr e))
    (he : e.isYield = true) : Begin (· == .kwYield) e.pieces := by
  generalize hn : Node.expr e = n at h
  induction h generalizing e with
  | unit _ _ ih => exact ih he hn
  | yield hkeyword | yieldFrom hkeyword =>
    cases hn
    exact .word hkeyword rfl
  | _ =>
    cases hn
    all_goals cases he

theorem Derives.isYield {e : Expr} (h : Derives .yield (.expr e)) : e.isYield = true := by
  cases h with
  | unit h => cases h
  | yield => rfl
  | yieldFrom => rfl
  | lambda h => rcases h with h | h <;> cases h

/-- Of all the values, only the yields begin with their keyword. -/
theorem Derives.isYield_iff {e : Expr} (h : Derives .value (.expr e)) :
    e.isYield = true ↔ Begin (· == .kwYield) e.pieces := by
  refine ⟨h.begin_of_isYield, fun hbegin => ?_⟩
  obtain ⟨t, ts, htokens, ht⟩ := hbegin
  have hother {P : Phrase} (hP : Derives P (.expr e)) (hyield : P.begins .kwYield = false) :
      e.isYield = true := by
    obtain ⟨u, us, hother, hu⟩ := hP.begin
    rw [htokens] at hother
    cases hother
    rw [beq_iff_eq.mp ht, hyield] at hu
    cases hu
  cases h with
  | unit h hn =>
    cases h with
    | yieldValue => exact hn.isYield
    | testValue => exact hother hn rfl
    | listValue => exact hother hn rfl
  | lambda h => rcases h with h | h <;> cases h

/-! ## Assignments -/

/-- The expression before the first sign of an assignment, unless a list stands there. -/
def Node.leading? : Node → Option Expr
  | .small (.assign _ (.single target) _ _) | .small (.annAssign _ target _ _ _)
  | .small (.augAssign _ target _ _) => some target
  | _ => none

theorem Node.Derived.leading {n : Node} {target : Expr} (h : n.Derived)
    (hn : n.leading? = some target) :
    Derives .value (.expr target) ∧
      (Begin (· == .kwYield) n.pieces ↔ Begin (· == .kwYield) target.pieces) := by
  unfold leading? at hn
  split at hn
  · cases hn
    obtain ⟨htarget, -⟩ := h
    have hvalue : tokensOf (Value.pieces (.single target)) ≠ [] := by
      rw [Value.pieces, Expr.outline, Outline.tokensOf_node]
      exact htarget.begin.ne_nil
    exact ⟨htarget, (Begin.node_iff hvalue).trans (Begin.node_iff htarget.begin.ne_nil)⟩
  · cases hn
    exact ⟨h.1, Begin.node_iff h.1.begin.ne_nil⟩
  · cases hn
    exact ⟨h.1, Begin.node_iff h.1.begin.ne_nil⟩
  · cases hn

/-- An assignment of any sort has a `yield` as its first target just if this is its first token. -/
theorem leading_target_isYield_iff {options : Options} {t : Text} {span : Span}
    {pieces : List Outline} (h : Parses options t span pieces) :
    ∀ n target, Event.enter n ∈ eventsOf pieces → n.leading? = some target →
      (target.isYield = true ↔ Begin (· == .kwYield) n.pieces) := by
  intro n target hmem hn
  have hderived : n.Derived := h.every_derived _ hmem
  obtain ⟨htarget, hbegin⟩ := hderived.leading hn
  rw [htarget.isYield_iff, hbegin]

theorem leading_target_of_name :
    ∃ tree n target, parseModule {} "x = yield y\n".toList = .ok tree ∧
      Event.enter n ∈ eventsOf tree.pieces ∧ n.leading? = some target ∧
      ¬ Begin (· == .kwYield) n.pieces ∧ target.isYield = false := by
  have hname : ((parseModule {} "x = yield y\n".toList).toOption.any fun tree =>
      (eventsOf tree.pieces).any (Event.enters fun n => n.leading?.isSome &&
        (tokensOf n.pieces).head?.any (·.kind == .name))) = true := by
    decide +kernel
  obtain ⟨tree, htree, hnodes⟩ := exists_eq_ok_of_any hname
  obtain ⟨n, hmem, hn⟩ := Outline.exists_enter hnodes
  obtain ⟨htarget, hfirst⟩ := Bool.and_eq_true_iff.mp hn
  obtain ⟨target, htarget⟩ := Option.isSome_iff_exists.mp htarget
  have hbegin : ¬ Begin (· == .kwYield) n.pieces := by
    rintro ⟨t, ts, htokens, ht⟩
    rw [htokens] at hfirst
    have hkind : t.kind = .name := beq_iff_eq.mp hfirst
    rw [hkind] at ht
    cases ht
  have hyield := leading_target_isYield_iff (.module htree) n target hmem htarget
  exact ⟨tree, n, target, htree, hmem, htarget, hbegin, by simpa [hbegin] using hyield⟩

/-- A value is assigned to a `yield`. -/
theorem leading_target_of_yield :
    ∃ tree n target, parseModule {} "yield x = 1\n".toList = .ok tree ∧
      Event.enter n ∈ eventsOf tree.pieces ∧ n.leading? = some target ∧
      target.isYield = true := by
  have hyield : ((parseModule {} "yield x = 1\n".toList).toOption.any fun tree =>
      (eventsOf tree.pieces).any (Event.enters fun n => n.leading?.any (·.isYield))) = true := by
    decide +kernel
  obtain ⟨tree, htree, hnodes⟩ := exists_eq_ok_of_any hyield
  obtain ⟨n, hmem, hn⟩ := Outline.exists_enter hnodes
  obtain ⟨target, htarget, htargetYield⟩ := (Option.any_eq_true _ _).mp hn
  exact ⟨tree, n, target, htree, hmem, htarget, htargetYield⟩

end Verbatim
