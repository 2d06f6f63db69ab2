import Verbatim.Proofs.Decision.FailsAt

/-!
# The parser is decided by kinds

No spelling, comment, offset or later token has a part in what the parser does: two sources
whose tokens have the same kinds parse to the same bare trees or fail at the same place, and
where one fails every other fails that has tokens of the same kinds up to there, also when a
lexical error comes next.
-/

namespace Verbatim

namespace TokenRun

variable {options options' : Options} {t t' : Text}

theorem ends_of_failure_none (h : (ofText options t).failure = none) :
    ∃ init last, (ofText options t).tokens = init ++ [last] ∧ last.kind = .endOfFile :=
  (scans options t).ends h

theorem tokens_ne_nil (h : (ofText options t).failure = none) :
    (ofText options t).tokens ≠ [] := by
  obtain ⟨init, last, htokens, _⟩ := ends_of_failure_none h
  simp [htokens]

/-- A run over a source ends well at the token that is `endOfFile`. -/
theorem endsAt_iff {i : Nat} :
    (ofText options t).EndsAt i ↔
      ((ofText options t).tokens[i]?.map Token.kind) = some .endOfFile := by
  constructor
  · rintro ⟨hlength, hfailure⟩
    obtain ⟨init, last, htokens, hlast⟩ := ends_of_failure_none hfailure
    obtain rfl : init.length = i := by simpa [htokens] using hlength
    simp [htokens, hlast]
  · intro hi
    obtain ⟨last, hget, hlast⟩ := Option.map_eq_some_iff.mp hi
    obtain ⟨hlt, hget⟩ := List.getElem?_eq_some_iff.mp hget
    have htokens : (ofText options t).tokens =
        (ofText options t).tokens.take i ++ last :: (ofText options t).tokens.drop (i + 1) := by
      rw [← hget, List.getElem_cons_drop, List.take_append_drop]
    obtain ⟨hafter, hfailure, _⟩ := Scanner.run_endOfFile htokens hlast
    refine ⟨?_, hfailure⟩
    have hlength := congrArg List.length hafter
    rw [List.length_drop, List.length_nil] at hlength
    exact Nat.le_antisymm (Nat.le_of_sub_eq_zero hlength) hlt

theorem agree_of_kinds {i : Nat} (hi : i < (ofText options t).tokens.length)
    (hi' : i < (ofText options' t').tokens.length)
    (hkinds : ((ofText options t).tokens.take (i + 1)).map Token.kind =
      ((ofText options' t').tokens.take (i + 1)).map Token.kind) :
    (ofText options t).Agree .bare i (ofText options' t') where
  left := hi
  right := hi'
  tokens := by
    have hbare (tokens : List Token) :
        tokens.map Relabelling.bare.token =
          (tokens.map Token.kind).map fun kind => ⟨kind, .empty 0, [], []⟩ := by
      rw [List.map_map]
      rfl
    rw [hbare, hbare, hkinds]
  ends := by
    have hget := congrArg (·[i]?) hkinds
    simp only [List.getElem?_map, List.getElem?_take_of_lt (Nat.lt_succ_self i)] at hget
    rw [endsAt_iff, endsAt_iff, hget]

theorem agree_of_all_kinds {i : Nat} (hi : i < (ofText options t).tokens.length)
    (hkinds : (ofText options t).tokens.map Token.kind =
      (ofText options' t').tokens.map Token.kind) :
    (ofText options t).Agree .bare i (ofText options' t') := by
  have hlength := congrArg List.length hkinds
  have hprefix := congrArg (List.take (i + 1)) hkinds
  rw [List.length_map, List.length_map] at hlength
  rw [← List.map_take, ← List.map_take] at hprefix
  exact agree_of_kinds hi (hlength ▸ hi) hprefix

theorem failsAt_of_syntactic {entry : EntryPoint} {e : SyntaxError}
    (h : entry.parse options t = .error (.syntactic e)) :
    ∃ i, (ofText options t).FailsAt entry.root i e := by
  refine exists_failsAt (entry.alike_root .bare) h fun hnil => ?_
  cases hfailure : (ofText options t).failure with
  | none => exact tokens_ne_nil hfailure hnil
  | some error =>
    have hrun : ofText options t = ⟨[], some error⟩ := by rw [← hnil, ← hfailure]
    have hparse : entry.parse options t = .error (.lexical error) := by
      change (ofText options t).parse entry.root = _
      rw [hrun]
      rfl
    rw [h] at hparse
    cases hparse

/-- A whole run is parsed as all its kinds tell. -/
theorem parse_of_kinds (entry : EntryPoint) (hfailure : (ofText options t).failure = none)
    (hkinds : (ofText options t).tokens.map Token.kind =
      (ofText options' t').tokens.map Token.kind) :
    (∃ tree tree', entry.parse options t = .ok tree ∧ entry.parse options' t' = .ok tree' ∧
      entry.relabel .bare tree = entry.relabel .bare tree') ∨
    ∃ e, entry.parse options t = .error (.syntactic e) := by
  obtain ⟨k, hk⟩ := Nat.exists_eq_succ_of_ne_zero
    (Nat.ne_of_gt (List.length_pos_iff.mpr (tokens_ne_nil hfailure)))
  have hagree := agree_of_all_kinds (by omega : k < _) hkinds
  have halike := alike_parse (entry.alike_root .bare) hagree
  change Alike _ _ _ _ (entry.parse options t) (entry.parse options' t') at halike
  generalize entry.parse options t = x at halike
  generalize entry.parse options' t' = x' at halike
  cases halike with
  | ok h => exact .inl ⟨_, _, rfl, rfl, h⟩
  | fails => exact .inr ⟨_, rfl⟩
  | past h _ =>
    cases h with
    | ok h => omega
    | syntactic => exact .inr ⟨_, rfl⟩
    | lexical h =>
      rw [hfailure] at h
      cases h

end TokenRun

/-- The first source fails at one of its tokens if it fails. If both sources tokenize to the
same kinds, both parse to the same tree without labels or fail at the same token. If the first
one fails at a token and the other has the same kinds up to there, it fails there too. -/
theorem parse_decided_by_kinds (entry : EntryPoint) (options options' : Options) (t t' : Text) :
    (∀ e, entry.parse options t = .error (.syntactic e) →
      ∃ i, (TokenRun.ofText options t).FailsAt entry.root i e) ∧
    (∀ tokens tokens', tokenize options t = .ok tokens → tokenize options' t' = .ok tokens' →
      tokens.map Token.kind = tokens'.map Token.kind →
      (∃ tree tree', entry.parse options t = .ok tree ∧ entry.parse options' t' = .ok tree' ∧
        entry.relabel .bare tree = entry.relabel .bare tree') ∨
      ∃ i e e', (TokenRun.ofText options t).FailsAt entry.root i e ∧
        (TokenRun.ofText options' t').FailsAt entry.root i e') ∧
    (∀ i e, (TokenRun.ofText options t).FailsAt entry.root i e →
      i < (TokenRun.ofText options' t').tokens.length →
      ((TokenRun.ofText options t).tokens.take (i + 1)).map Token.kind =
        ((TokenRun.ofText options' t').tokens.take (i + 1)).map Token.kind →
      ∃ e', (TokenRun.ofText options' t').FailsAt entry.root i e') := by
  refine ⟨fun e h => TokenRun.failsAt_of_syntactic h, ?_, fun i e h hi' hkinds => ?_⟩
  · intro tokens tokens' htokens htokens' hkinds
    obtain ⟨hfailure, rfl⟩ := TokenRun.tokenize_eq_ok_iff.mp htokens
    obtain ⟨_, rfl⟩ := TokenRun.tokenize_eq_ok_iff.mp htokens'
    refine (TokenRun.parse_of_kinds entry hfailure hkinds).imp_right ?_
    rintro ⟨e, he⟩
    obtain ⟨i, hfails⟩ := TokenRun.failsAt_of_syntactic he
    have hi := (List.getElem?_eq_some_iff.mp hfails.token_eq).1
    obtain ⟨t, hfails'⟩ := hfails.of_agree (entry.alike_root .bare)
      (TokenRun.agree_of_all_kinds hi hkinds)
    exact ⟨i, e, _, hfails, hfails'⟩
  · have hi := (List.getElem?_eq_some_iff.mp h.token_eq).1
    obtain ⟨t, hfails⟩ := h.of_agree (entry.alike_root .bare)
      (TokenRun.agree_of_kinds hi hi' hkinds)
    exact ⟨_, hfails⟩

/-- An operand that is missing at the end of a line, in two spellings; the second source has a
lexical error right after it. -/
theorem parse_decided_by_kinds_of_sum :
    ∃ e e', (TokenRun.ofText {} "x = 1 +\n".toList).FailsAt EntryPoint.module.root 4 e ∧
      (TokenRun.ofText {} "total = 0x2F + # comment\n$".toList).FailsAt EntryPoint.module.root 4
        e' := by
  have hfails : (TokenRun.ofText {} "x = 1 +\n".toList).FailsAt EntryPoint.module.root 4
      ⟨.expectedAtom, ⟨.newline, .sized 7 1, [], ['\n']⟩⟩ := by
    apply TokenRun.FailsAt.of_error? (EntryPoint.module.alike_root .bare)
      ⟨.inconsistentIndentation, 0⟩ <;> decide +kernel
  obtain ⟨e', hfails'⟩ := (parse_decided_by_kinds .module {} {} _
    "total = 0x2F + # comment\n$".toList).2.2 4 _ hfails (by decide +kernel) (by decide +kernel)
  exact ⟨_, _, hfails, hfails'⟩

end Verbatim
