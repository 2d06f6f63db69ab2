import Verbatim.Parse
import Verbatim.Proofs.Concat.Statement
import Verbatim.Proofs.Grammar.Root

/-!
# Modules on both sides of a seam

The statements in front of a seam are read one after the other, and behind it those of the second
module, with fewer turns of the loop left than it would have on its own but enough for its tokens.
No module begins with a clause, so the last statement in front of the seam does not go on behind it.
-/

namespace Verbatim

namespace Stream

variable {ρ : Relabelling} {s s' : Stream} {ts : List Token}

theorem Joint.kind_ne (h : s.Joint ρ ts s') (hts : ts ≠ []) : s.current.kind ≠ .endOfFile := by
  obtain ⟨last, htokens, -⟩ := h.left
  obtain ⟨t, more, rfl⟩ := List.exists_cons_of_ne_nil hts
  have hcurrent : s.current = t := (List.cons.inj htokens).1
  rw [hcurrent]
  exact h.inside t List.mem_cons_self

/-- Two streams with the same tokens down to the end. -/
theorem agree_of_tokens (h : s.tokens.map ρ.token = s'.tokens.map ρ.token)
    (hs : s.failure = none) (hs' : s'.failure = none) : s.Agree ρ s.upcoming.length s' := by
  have hlength : s.upcoming.length = s'.upcoming.length := by
    simpa [tokens] using congrArg List.length h
  refine ⟨Nat.le_refl _, Nat.le_of_eq hlength, ?_, ?_⟩
  · rw [List.map_take, List.map_take, h]
  · exact iff_of_true ⟨rfl, hs⟩ ⟨hlength.symm, hs'⟩

end Stream

namespace Parser

variable {α γ : Type} {ρ : Relabelling} {view : α → γ} {p p' : Parser α} {s s' u : Stream}
  {ts : List Token}

/-- The parts in front of a seam, and after them those that the second stream goes on with. -/
theorem repeatUpTo_across (h : ∀ b, Closes ρ b view p p') (i : Nat) {as : List α}
    (hi : ts.length < i) (hjoint : s.Joint ρ ts s')
    (hrun : repeatUpTo (.startedBy (· != .endOfFile) p) i s = .ok (as, u)) :
    ∃ as' u', as.map view = as'.map view ∧ as.length ≤ ts.length ∧ s'.Drops ts.length u' ∧
      ∀ j more w, repeatUpTo (.startedBy (· != .endOfFile) p') j u' = .ok (more, w) →
        repeatUpTo (.startedBy (· != .endOfFile) p') (as.length + j) s' = .ok (as' ++ more, w) := by
  induction i generalizing ts s s' as with
  | zero => omega
  | succ i ih =>
    rw [repeatUpTo_startedBy] at hrun
    by_cases hts : ts = []
    · subst hts
      obtain ⟨hkind, -, -⟩ := hjoint.kinds_of_nil
      rw [if_neg (by simp [hkind])] at hrun
      cases hrun
      refine ⟨[], s', rfl, Nat.le_refl _, .refl s', fun j more w hmore => ?_⟩
      rw [List.length_nil, Nat.zero_add]
      exact hmore
    · have hkind := hjoint.kind_ne hts
      rw [if_pos (by simp [hkind])] at hrun
      obtain ⟨a, v, ha, hrest⟩ := bind_eq_ok.mp hrun
      obtain ⟨rest, x, hrest, hpure⟩ := bind_eq_ok.mp hrest
      cases hpure
      have hadvances := (h 0).advances s a v ha
      obtain ⟨m, a', v', ha', hm, hview, hv, hv'⟩ :=
        (h ts.length).both ts s s' hts (Nat.le_refl _) hjoint a v ha
      have hdrop := hjoint.drop hm hv hv'
      have hleft := hdrop.length_eq
      have hlength := List.length_drop (i := m) (l := ts)
      rw [hjoint.length_eq] at hadvances
      obtain ⟨rest', u', hviews, hcount, hu', hgoes⟩ := ih (by omega) hdrop hrest
      refine ⟨a' :: rest', u', ?_, ?_, ?_, fun j more w hmore => ?_⟩
      · rw [List.map_cons, List.map_cons, hview, hviews]
      · rw [List.length_cons]
        omega
      · have hboth := hv'.trans hu'
        rwa [hlength, Nat.add_sub_cancel' hm] at hboth
      · have hturns : (a :: rest).length + j = rest.length + j + 1 := by
          rw [List.length_cons]
          omega
        rw [hturns, repeatUpTo_startedBy, ← hjoint.kind_eq hts, if_pos (by simp [hkind])]
        refine bind_eq_ok.mpr ⟨a', v', ha', bind_eq_ok.mpr ⟨rest' ++ more, w, ?_, rfl⟩⟩
        exact hgoes j more w hmore

end Parser

namespace Grammar

open Verbatim.Parser

variable {ρ : Relabelling} {s s' t u v : Stream} {ts : List Token}

/-- With turns enough for its tokens a stream has the statements of any stream with the same
tokens. -/
theorem statements_of_agree {n j : Nat} {statements : List Stmt}
    (hagree : s.Agree ρ s.upcoming.length s') (hn : s.upcoming.length < n)
    (hj : s.upcoming.length < j)
    (hrun : repeatUpTo (.startedBy (· != .endOfFile) statement) n s = .ok (statements, u)) :
    ∃ statements' u', repeatUpTo (.startedBy (· != .endOfFile) statement) j s' =
        .ok (statements', u') ∧
      statements.map (Stmt.relabel ρ) = statements'.map (Stmt.relabel ρ) ∧
      ρ.token u.current = ρ.token u'.current := by
  have halike := (Alike.repeatUpTo (rel_startedBy (· != .endOfFile)
    (alike_statement (ρ := ρ) (b := s.upcoming.length + 1))) _ n j (Nat.le_refl _) hn hj).both
    s.upcoming.length s s' (Nat.lt_succ_self _) hagree
  rw [hrun] at halike
  generalize repeatUpTo (.startedBy (· != .endOfFile) statement) j s' = x' at halike
  cases halike with
  | ok hm hu hu' hview => exact ⟨_, _, rfl, hview, (hagree.drop hm hu hu').current⟩
  | past hreaches =>
    cases hreaches with
    | ok hm hu =>
      have hlength := hu.length_eq
      omega

theorem statements_of_moduleRoot {tree : ModuleTree} (h : moduleRoot s = .ok (tree, u)) :
    ∃ v, repeatUpTo (.startedBy (· != .endOfFile) statement) (s.upcoming.length + 1) s =
      .ok (tree.statements, v) ∧ v.current.kind = .endOfFile := by
  obtain ⟨_, _, hstart, h⟩ := bind_eq_ok.mp h
  cases hstart
  obtain ⟨statements, v, hstatements, h⟩ := bind_eq_ok.mp h
  obtain ⟨last, w, hlast, h⟩ := bind_eq_ok.mp h
  obtain ⟨span, _, hspan, h⟩ := bind_eq_ok.mp h
  cases hspan
  cases pure_eq_ok.mp h
  obtain ⟨rfl, hkind, -⟩ := endOfFile_eq_ok hlast
  exact ⟨v, hstatements, hkind⟩

theorem moduleRoot_of_statements {statements : List Stmt}
    (h : repeatUpTo (.startedBy (· != .endOfFile) statement) (s.upcoming.length + 1) s =
      .ok (statements, v)) (hkind : v.current.kind = .endOfFile) :
    ∃ tree u, moduleRoot s = .ok (tree, u) ∧ tree.statements = statements := by
  have hlast : endOfFile v = .ok (v.current, { v with lastEnd := v.current.span.stop }) :=
    if_pos hkind
  refine ⟨⟨.upTo s.current.span.start v.current.span.stop, statements, v.current⟩,
    { v with lastEnd := v.current.span.stop }, ?_, rfl⟩
  refine bind_eq_ok.mpr ⟨_, s, rfl, bind_eq_ok.mpr ⟨statements, v, h, ?_⟩⟩
  exact bind_eq_ok.mpr ⟨_, _, hlast, rfl⟩

/-- No module begins with a clause, nor with a line that is set in. -/
theorem kind_of_moduleRoot {tree : ModuleTree} (h : moduleRoot s = .ok (tree, u)) :
    s.current.kind.isContinuation = false ∧ s.current.kind ≠ .indent := by
  have hrefuses (kind : TokenKind) (hkind : kind ≠ .endOfFile)
      (hfails : ∀ failure, ∃ cause, statement ⟨⟨kind, .empty 0, [], []⟩, [], failure, 0⟩ =
        .error (.syntactic ⟨cause, ⟨kind, .empty 0, [], []⟩⟩)) : s.current.kind ≠ kind := by
    intro hs
    obtain ⟨v, hrun, -⟩ := statements_of_moduleRoot h
    rw [repeatUpTo_startedBy, hs, if_pos (by simp [hkind])] at hrun
    obtain ⟨first, w, hfirst, -⟩ := bind_eq_ok.mp hrun
    obtain ⟨cause, herror⟩ := statement_error_of_kind hs hfails
    rw [hfirst] at herror
    cases herror
  constructor
  · by_contra hcontinues
    have helif := hrefuses .kwElif (by decide) fun _ => ⟨.expectedAtom, rfl⟩
    have helse := hrefuses .kwElse (by decide) fun _ => ⟨.expectedAtom, rfl⟩
    have hexcept := hrefuses .kwExcept (by decide) fun _ => ⟨.expectedAtom, rfl⟩
    have hfinally := hrefuses .kwFinally (by decide) fun _ => ⟨.expectedAtom, rfl⟩
    generalize s.current.kind = kind at hcontinues helif helse hexcept hfinally
    cases kind <;> first | exact hcontinues rfl | contradiction
  · exact hrefuses .indent (by decide) fun _ => ⟨.unexpectedIndent, rfl⟩

/-- The statements of two modules, from a stream with the tokens of both. -/
theorem moduleRoot_concat {tree tree₂ : ModuleTree} (hjoint : s.Joint ρ ts s')
    (hs : moduleRoot s = .ok (tree, u)) (ht : moduleRoot t = .ok (tree₂, v))
    (hbehind : t.tokens.map ρ.token = (s'.tokens.drop ts.length).map ρ.token)
    (htfailure : t.failure = none) (hfailure : s'.failure = none) :
    ∃ tree' w, moduleRoot s' = .ok (tree', w) ∧ relabelStmts ρ tree'.statements =
      relabelStmts ρ tree.statements ++ relabelStmts ρ tree₂.statements := by
  obtain ⟨_, hrun, -⟩ := statements_of_moduleRoot hs
  obtain ⟨x, hrun₂, hkind⟩ := statements_of_moduleRoot ht
  have hleft := hjoint.length_eq
  obtain ⟨statements', u', hview, hcount, hu', hgoes⟩ :=
    repeatUpTo_across (fun _ => closes_statement) _ (by omega) hjoint hrun
  have hagree : t.Agree ρ t.upcoming.length u' := by
    refine Stream.agree_of_tokens ?_ htfailure (hu'.failure.trans hfailure)
    rw [hbehind, hu'.tokens_eq]
  have hlength := hu'.length_eq
  have hright := hagree.right
  have hturns : t.upcoming.length < s'.upcoming.length + 1 - tree.statements.length := by omega
  obtain ⟨statements₂', x', hrun₂', hview₂, hlast⟩ :=
    statements_of_agree hagree (Nat.lt_succ_self _) hturns hrun₂
  have hall := hgoes _ _ _ hrun₂'
  rw [Nat.add_sub_cancel' (by omega)] at hall
  obtain ⟨tree', w, htree', hstatements⟩ :=
    moduleRoot_of_statements hall ((ρ.kind_eq hlast).symm.trans hkind)
  refine ⟨tree', w, htree', ?_⟩
  rw [hstatements, relabelStmts_eq, relabelStmts_eq, relabelStmts_eq, List.map_append, hview,
    hview₂]

end Grammar

end Verbatim
