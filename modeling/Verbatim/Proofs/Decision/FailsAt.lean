import Verbatim.Proofs.Decision.Run

/-!
# The token at which a parse fails

The markers of blocks that close together are the same token, so the token in a syntax error
does not say by itself where in the run the parse failed. The parse fails at token `i` if it
is still open after the tokens before it and no longer open after it.
-/

namespace Verbatim

namespace TokenRun

variable {α γ : Type}

/-- After the first `n` tokens no syntax error is found and the parse is not complete. -/
def Undecided (run : TokenRun) (root : Parser α) (n : Nat) : Prop :=
  ∀ stop, (run.upTo n stop).parse root = .error (.lexical stop)

structure FailsAt (run : TokenRun) (root : Parser α) (i : Nat) (e : SyntaxError) : Prop where
  parse_eq : run.parse root = .error (.syntactic e)
  token_eq : run.tokens[i]? = some e.token
  before : run.Undecided root i
  after : run.EndsAt i ∨ ∀ stop, (run.upTo (i + 1) stop).parse root = .error (.syntactic e)

variable {run run' : TokenRun} {root : Parser α} {i j k : Nat} {e : SyntaxError}
  {stop stop' : LexicalError}

theorem undecided_zero : run.Undecided root 0 :=
  fun _ => rfl

theorem length_upTo (stop : LexicalError) (h : k < run.tokens.length) :
    (run.upTo (k + 1) stop).tokens.length = k + 1 := by
  rw [upTo, List.length_take]
  omega

theorem not_endsAt_upTo : ¬ (run.upTo j stop).EndsAt k := by
  rintro ⟨_, hfailure⟩
  cases hfailure

theorem getElem?_upTo_of_le (h : i ≤ k) : (run.upTo (k + 1) stop).tokens[i]? = run.tokens[i]? :=
  List.getElem?_take_of_lt (Nat.lt_succ_of_le h)

theorem upTo_upTo (h : i ≤ j) : (run.upTo j stop).upTo i stop' = run.upTo i stop' := by
  rw [upTo, upTo, upTo, List.take_take, Nat.min_eq_left h]

theorem agree_upTo {ρ : Relabelling} (stop : LexicalError) (hk : k < run.tokens.length)
    (hends : ¬ run.EndsAt k) : run.Agree ρ k (run.upTo (k + 1) stop) where
  left := hk
  right := by
    rw [length_upTo stop hk]
    exact Nat.lt_succ_self k
  tokens := by rw [upTo, List.take_take, Nat.min_self]
  ends := iff_of_false hends not_endsAt_upTo

theorem Agree.upTo {ρ : Relabelling} (h : run.Agree ρ k run') (hj : j ≤ k)
    (stop stop' : LexicalError) :
    (run.upTo (j + 1) stop).Agree ρ j (run'.upTo (j + 1) stop') where
  left := by
    rw [length_upTo stop (Nat.lt_of_le_of_lt hj h.left)]
    exact Nat.lt_succ_self j
  right := by
    rw [length_upTo stop' (Nat.lt_of_le_of_lt hj h.right)]
    exact Nat.lt_succ_self j
  tokens := by
    have htokens := congrArg (List.take (j + 1)) h.tokens
    have hmin : min (j + 1) (k + 1) = j + 1 := by omega
    rw [← List.map_take, ← List.map_take, List.take_take, List.take_take, hmin] at htokens
    rw [TokenRun.upTo, TokenRun.upTo, List.take_take, List.take_take, Nat.min_self]
    exact htokens
  ends := iff_of_false not_endsAt_upTo not_endsAt_upTo

theorem Agree.symm {ρ : Relabelling} (h : run.Agree ρ k run') : run'.Agree ρ k run :=
  ⟨h.right, h.left, h.tokens.symm, h.ends.symm⟩

/-- No more than all tokens can be reached. -/
theorem Reaches.lt_length {x : Except ParseError α} (h : run.Reaches k x)
    (hx : ∀ error, x ≠ .error (.lexical error)) : k < run.tokens.length := by
  cases h with
  | ok h => exact h
  | syntactic hm ht => exact Nat.lt_of_le_of_lt hm (List.getElem?_eq_some_iff.mp ht).1
  | lexical => exact absurd rfl (hx _)

theorem Reaches.eq_lexical {x : Except ParseError α} (hk : k < run.tokens.length)
    (h : (run.upTo (k + 1) stop).Reaches (k + 1) x) : x = .error (.lexical stop) := by
  cases h with
  | ok h =>
    rw [length_upTo stop hk] at h
    omega
  | @syntactic m e hm ht =>
    have hlt := (List.getElem?_eq_some_iff.mp ht).1
    rw [length_upTo stop hk] at hlt
    omega
  | lexical h =>
    cases h
    rfl

section Root

variable {ρ : Relabelling} {view : α → γ} (hroot : ∀ b, Parser.Alike ρ b view root root)

include hroot

/-- If the parse is open after the first `i` tokens, it fails at one that comes later. -/
theorem exists_le_of_undecided (h : run.parse root = .error (.syntactic e))
    (hi : i < run.tokens.length) (hbefore : run.Undecided root i) :
    ∃ m, i ≤ m ∧ run.tokens[m]? = some e.token := by
  have hreaches : run.Reaches i (run.parse root) := by
    cases i with
    | zero => exact reaches_parse hroot (List.ne_nil_of_length_pos hi)
    | succ j =>
      have hends : ¬ run.EndsAt j := fun hends => by
        have := hends.1
        omega
      have halike := alike_parse hroot
        (agree_upTo ⟨.inconsistentIndentation, 0⟩ (Nat.lt_of_succ_lt hi) hends)
      rw [hbefore] at halike
      generalize run.parse root = x at halike
      cases halike with
      | past h => exact h
  rw [h] at hreaches
  cases hreaches with
  | syntactic hm ht => exact ⟨_, hm, ht⟩

theorem getElem?_of_upTo (h : (run.upTo (i + 1) stop).parse root = .error (.syntactic e))
    (hi : i < run.tokens.length) (hbefore : run.Undecided root i) :
    run.tokens[i]? = some e.token := by
  have hlength := length_upTo stop hi
  obtain ⟨m, hm, ht⟩ := exists_le_of_undecided (i := i) hroot h (by omega) fun stop' => by
    rw [upTo_upTo (Nat.le_succ i)]
    exact hbefore stop'
  have hlt := (List.getElem?_eq_some_iff.mp ht).1
  obtain rfl : m = i := by omega
  rwa [getElem?_upTo_of_le (Nat.le_refl m)] at ht

/-- A parse that fails with what the first tokens tell fails on every run that begins with
tokens like them. -/
theorem fails_of_agree (h : run.parse root = .error (.syntactic e))
    (hlength : run.tokens.length = k + 1) (hagree : run.Agree ρ k run') :
    ∃ m t, m ≤ k ∧ run.tokens[m]? = some e.token ∧ run'.tokens[m]? = some t ∧
      run'.parse root = .error (.syntactic ⟨e.cause, t⟩) := by
  have halike := alike_parse hroot hagree
  rw [h] at halike
  generalize run'.parse root = x at halike
  cases halike with
  | fails hm ht ht' => exact ⟨_, _, hm, ht, ht', rfl⟩
  | past h _ =>
    have hlt := h.lt_length fun _ => by simp
    omega

/-- What the tokens up to `i` decide stands whatever follows them. -/
theorem parse_of_upTo (h : (run.upTo (i + 1) stop).parse root = .error (.syntactic e))
    (hi : i < run.tokens.length) (hends : ¬ run.EndsAt i) :
    run.parse root = .error (.syntactic e) := by
  obtain ⟨m, t, hm, ht, ht', hparse⟩ :=
    fails_of_agree hroot h (length_upTo stop hi) (agree_upTo stop hi hends).symm
  rw [getElem?_upTo_of_le hm, ht'] at ht
  cases ht
  exact hparse

theorem parse_upTo_of_upTo (h : (run.upTo (i + 1) stop).parse root = .error (.syntactic e))
    (hi : i < run.tokens.length) (stop' : LexicalError) :
    (run.upTo (i + 1) stop').parse root = .error (.syntactic e) := by
  have hlength := length_upTo stop' hi
  have hupTo : (run.upTo (i + 1) stop').upTo (i + 1) stop = run.upTo (i + 1) stop :=
    upTo_upTo (Nat.le_refl (i + 1))
  rw [← hupTo] at h
  exact parse_of_upTo hroot h (by omega) not_endsAt_upTo

theorem failsAt_or_undecided (h : run.parse root = .error (.syntactic e))
    (hi : i < run.tokens.length) (hbefore : run.Undecided root i) :
    run.FailsAt root i e ∨ i + 1 < run.tokens.length ∧ run.Undecided root (i + 1) := by
  by_cases hends : run.EndsAt i
  · obtain ⟨m, hm, ht⟩ := exists_le_of_undecided hroot h hi hbefore
    have hlt := (List.getElem?_eq_some_iff.mp ht).1
    obtain rfl : m = i := by have := hends.1; omega
    exact .inl ⟨h, ht, hbefore, .inl hends⟩
  · have halike (stop : LexicalError) := alike_parse hroot (agree_upTo stop hi hends)
    by_cases hopen : run.Undecided root (i + 1)
    · have halike := halike ⟨.inconsistentIndentation, 0⟩
      rw [h, hopen] at halike
      cases halike with
      | past h _ => exact .inr ⟨h.lt_length (by simp), hopen⟩
    · obtain ⟨stop, hstop⟩ := Classical.not_forall.mp hopen
      have halike := halike stop
      rw [h] at halike
      have hdecided : (run.upTo (i + 1) stop).parse root = .error (.syntactic e) := by
        generalize (run.upTo (i + 1) stop).parse root = x at halike hstop
        cases halike with
        | fails hm ht ht' =>
          rw [getElem?_upTo_of_le hm, ht] at ht'
          cases ht'
          rfl
        | past _ h => exact absurd (h.eq_lexical hi) hstop
      refine .inl ⟨h, getElem?_of_upTo hroot hdecided hi hbefore, hbefore, .inr ?_⟩
      exact parse_upTo_of_upTo hroot hdecided hi

theorem FailsAt.le {e' : SyntaxError} (h : run.FailsAt root i e) (h' : run.FailsAt root j e') :
    j ≤ i := by
  refine Nat.le_of_not_lt fun hlt => ?_
  have hj := (List.getElem?_eq_some_iff.mp h'.token_eq).1
  rcases h.after with hends | hafter
  · have := hends.1
    omega
  · let stop : LexicalError := ⟨.inconsistentIndentation, 0⟩
    -- what is decided after token `i` is still so before token `j`
    have hdecided : (run.upTo j stop).parse root = .error (.syntactic e) := by
      have hcut : ((run.upTo j stop).upTo (i + 1) stop).parse root = .error (.syntactic e) := by
        rw [upTo_upTo hlt]
        exact hafter stop
      have hi : i < (run.upTo j stop).tokens.length := by
        rw [upTo, List.length_take]
        omega
      exact parse_of_upTo hroot hcut hi not_endsAt_upTo
    rw [h'.before stop] at hdecided
    cases hdecided

/-- A parse fails at no more than one token. -/
theorem FailsAt.unique {e' : SyntaxError} (h : run.FailsAt root i e)
    (h' : run.FailsAt root j e') : i = j :=
  Nat.le_antisymm (h'.le hroot h) (h.le hroot h')

/-- A syntax error comes from one token of the run. -/
theorem exists_failsAt (h : run.parse root = .error (.syntactic e)) (hne : run.tokens ≠ []) :
    ∃ i, run.FailsAt root i e := by
  -- from token to token the parse stays open until it fails, at the last token if not before
  suffices hsearch : ∀ n i, run.tokens.length ≤ i + n → i < run.tokens.length →
      run.Undecided root i → ∃ i, run.FailsAt root i e from
    hsearch _ 0 (Nat.le_add_left _ _) (List.length_pos_iff.mpr hne) undecided_zero
  intro n
  induction n with
  | zero =>
    intro i hle hi _
    omega
  | succ n ih =>
    intro i hle hi hbefore
    rcases failsAt_or_undecided hroot h hi hbefore with hfails | ⟨hnext, hopen⟩
    · exact ⟨i, hfails⟩
    · exact ih (i + 1) (by omega) hnext hopen

theorem undecided_of_agree (hagree : run.Agree ρ k run') (hi : i ≤ k)
    (h : run.Undecided root i) : run'.Undecided root i := by
  intro stop
  cases i with
  | zero => rfl
  | succ j =>
    have halike := alike_parse hroot (hagree.upTo (Nat.le_of_succ_le hi) stop stop)
    rw [h] at halike
    generalize (run'.upTo (j + 1) stop).parse root = x at halike
    cases halike with
    | past _ h => exact h.eq_lexical (Nat.lt_of_succ_lt (Nat.lt_of_le_of_lt hi hagree.right))

/-- Which lexical error it is that cuts a run short does not matter. -/
theorem undecided_of_stop (hi : i ≤ run.tokens.length)
    (h : (run.upTo i stop).parse root = .error (.lexical stop)) : run.Undecided root i := by
  intro stop'
  cases i with
  | zero => rfl
  | succ j =>
    have hagree : run.Agree ρ j run := ⟨hi, hi, rfl, Iff.rfl⟩
    have halike := alike_parse hroot (hagree.upTo (Nat.le_refl j) stop stop')
    rw [h] at halike
    generalize (run.upTo (j + 1) stop').parse root = x at halike
    cases halike with
    | past _ h => exact h.eq_lexical hi

/-- Where a parse fails can be computed. -/
theorem FailsAt.of_error? (stop : LexicalError) (htoken : run.tokens[i]? = some e.token)
    (hparse : run.error? root = some (.syntactic e))
    (hbefore : (run.upTo i stop).error? root = some (.lexical stop))
    (hafter : (run.upTo (i + 1) stop).error? root = some (.syntactic e)) :
    run.FailsAt root i e := by
  rw [error?_eq_some_iff] at hparse hbefore hafter
  have hi := (List.getElem?_eq_some_iff.mp htoken).1
  refine ⟨hparse, htoken, undecided_of_stop hroot (Nat.le_of_lt hi) hbefore, .inr ?_⟩
  exact parse_upTo_of_upTo hroot hafter hi

/-- The token at which a parse fails is found by what a relabelling leaves of the tokens up to
there. -/
theorem FailsAt.of_agree (h : run.FailsAt root i e) (hagree : run.Agree ρ i run') :
    ∃ t, run'.FailsAt root i ⟨e.cause, t⟩ := by
  have hbefore := undecided_of_agree hroot hagree (Nat.le_refl i) h.before
  by_cases hends : run.EndsAt i
  · obtain ⟨m, t, _, _, _, hparse⟩ := fails_of_agree hroot h.parse_eq hends.1 hagree
    obtain ⟨n, hn, ht⟩ := exists_le_of_undecided hroot hparse hagree.right hbefore
    have hlt := (List.getElem?_eq_some_iff.mp ht).1
    have hends' := hagree.ends.mp hends
    obtain rfl : n = i := by have := hends'.1; omega
    exact ⟨t, hparse, ht, hbefore, .inl hends'⟩
  · let stop : LexicalError := ⟨.inconsistentIndentation, 0⟩
    have hdecided := h.after.resolve_left hends stop
    obtain ⟨m, t, _, _, _, hparse⟩ := fails_of_agree hroot hdecided
      (length_upTo stop hagree.left) (hagree.upTo (Nat.le_refl i) stop stop)
    have ht := getElem?_of_upTo hroot hparse hagree.right hbefore
    have hends' : ¬ run'.EndsAt i := fun h => hends (hagree.ends.mpr h)
    refine ⟨t, parse_of_upTo hroot hparse hagree.right hends', ht, hbefore, .inr ?_⟩
    exact parse_upTo_of_upTo hroot hparse hagree.right

end Root

end TokenRun

end Verbatim
