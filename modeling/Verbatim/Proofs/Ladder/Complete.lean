import Verbatim.Parse
import Verbatim.Proofs.Ladder.Rules

/-!
# The grammar accepts the ladder

The grammar accepts the tokens of a tree on the ladder and gives the tree back, up to places
and trivia. The proof goes along the tree. A left fold is taken apart from its end, the last
operation first, while the parser collects the operations from the start, so for the levels
that fold it is also carried along that the parser gathers the operations so far.
-/

namespace Verbatim

open Verbatim.Parser Verbatim.Grammar

/-- An operand after at least one other token leaves a level of the rules for itself. -/
theorem Level.StartsWith.exists_level {L : Level} {faces : List Face} {n : Nat}
    (h : L.StartsWith faces) (hn : faces.length ≤ n) :
    ∃ m, n = m + 1 ∧ faces.length ≤ m + 1 := by
  obtain ⟨first, rest, rfl, _⟩ := h
  rw [List.length_cons] at hn ⊢
  exact ⟨n - 1, by omega, by omega⟩

theorem OnLadder.accepts {depth : Nat} {L : Level} {e : Expr} (h : OnLadder depth L e) :
    ∀ n, e.faces.length ≤ n + 1 → L.Accepts (L.parser (rulesUpTo n)) e ∧
      (L.folds = true → L.Gathers (L.tighter.parser (rulesUpTo n)) e) := by
  induction h with
  | name h =>
    intro n _
    exact ⟨accepts_leaf (by rw [h]; rfl), nofun⟩
  | number h =>
    intro n _
    exact ⟨accepts_leaf (by rw [h]; rfl), nofun⟩
  | group hopener hbody hcloser ih =>
    intro n hn
    -- the body is entered through the rules, one level further down
    rw [Expr.faces_display, List.length_cons, List.length_append] at hn
    obtain ⟨m, rfl, hm⟩ := hbody.startsWith.exists_level (n := n) (by omega)
    exact ⟨accepts_group hopener (ih m hm).1 hbody.startsWith hcloser, nofun⟩
  | applied hawait hatom htrailers hsome ih =>
    intro n hn
    rw [Expr.faces_applied, List.length_append, List.length_append] at hn
    have hatom' := (ih n (by omega)).1
    exact ⟨accepts_applied hawait hatom' hatom.startsWith htrailers hsome, nofun⟩
  | power _ hop hexponent ihbase ihexponent =>
    intro n hn
    rw [Expr.faces_binary, List.length_append, List.length_cons] at hn
    have hbase := (ihbase n (by omega)).1
    obtain ⟨m, rfl, hm⟩ := hexponent.startsWith.exists_level (n := n) (by omega)
    exact ⟨accepts_power hbase hop (ihexponent m hm).1, nofun⟩
  | sign hop hoperand ih =>
    intro n hn
    rw [Expr.faces_unary, List.length_cons] at hn
    obtain ⟨m, rfl, hm⟩ := hoperand.startsWith.exists_level (n := n) (by omega)
    exact ⟨accepts_sign hop (ih m hm).1, nofun⟩
  | @fold _ L left operation _ hoperation hright ihleft ihright =>
    intro n hn
    rw [Operation.faces_applyTo, List.length_append] at hn
    -- the left operand is a fold of its own, to which the parser adds one more operation
    have hle := operation.length_right_faces_le
    have hleft := (ihleft n (by omega)).2 hoperation.folds
    have hwhole := hleft.snoc hoperation (ihright n (by omega)).1 hright.startsWith
    exact ⟨Level.Gathers.accepts hwhole hoperation.folds, fun _ => hwhole⟩
  | not hop hoperand ih =>
    intro n hn
    rw [Expr.faces_unary, List.length_cons] at hn
    obtain ⟨m, rfl, hm⟩ := hoperand.startsWith.exists_level (n := n) (by omega)
    exact ⟨accepts_not hop (ih m hm).1, nofun⟩
  | conditional hbody hif _ helse halternative ihbody ihcondition ihalternative =>
    intro n hn
    rw [Expr.faces_conditional, List.length_append, List.length_cons, List.length_append,
      List.length_cons] at hn
    have hbody' := (ihbody n (by omega)).1
    have hcondition' := (ihcondition n (by omega)).1
    obtain ⟨m, rfl, hm⟩ := halternative.startsWith.exists_level (n := n) (by omega)
    exact ⟨accepts_conditional hbody' hbody.startsWith hif hcondition' helse
      (ihalternative m hm).1, nofun⟩
  | lambda hkeyword hcolon hbody ih =>
    intro n hn
    rw [Expr.faces_lambda_none, List.length_cons, List.length_cons] at hn
    obtain ⟨m, rfl, hm⟩ := hbody.startsWith.exists_level (n := n) (by omega)
    exact ⟨accepts_lambda hkeyword hcolon (ih m hm).1, nofun⟩
  | loosen h ih =>
    intro n hn
    -- a chain of operations begins with an expression of the tighter level alone
    have h' := (ih n hn).1
    exact ⟨h'.loosen h.startsWith, fun _ => Level.gathers_of_accepts h'⟩

/-! ## The root -/

theorem Parser.Succeeds.withRules {α : Type} {parser : Rules → Parser α} {s : Stream}
    {post : α → Stream → Prop}
    (h : Succeeds (parser (rulesUpTo (s.upcoming.length + 1))) s post) :
    Succeeds (Grammar.withRules parser) s post := by
  obtain ⟨a, u, hp, hpost⟩ := h
  exact ⟨a, u, hp, hpost⟩

section Root

variable {depth : Nat} {e : Expr} {s : Stream}

theorem OnLadder.succeeds_aTestList {rest : List Face} (h : OnLadder depth .test e)
    (hs : s.Shows (e.faces ++ .endOfFile :: rest)) :
    Succeeds aTestList s fun a u => u.Shows (.endOfFile :: rest) ∧ a.shape = e.shape := by
  have hlength : e.faces.length ≤ s.upcoming.length + 1 := by
    have hle := hs.length_tokens
    rw [Stream.tokens, List.length_cons, List.length_append] at hle
    omega
  have hstop : Level.test.Stops Face.endOfFile.kind := Level.stops_of_continues?_eq_none rfl _
  have htest : Succeeds (rulesUpTo (s.upcoming.length + 1) .test) s fun a u =>
      u.Shows (.endOfFile :: rest) ∧ a.shape = e.shape := (h.accepts _ hlength).1 hs hstop
  rw [aTestList]
  refine .withRules (.start (.bind htest ?_))
  rintro a u ⟨hu, hshape⟩
  refine .separatedFromNone ?_ (.pure ⟨hu, hshape⟩)
  rw [hu.kind]
  decide

theorem OnLadder.succeeds_expressionRoot (h : OnLadder depth .test e)
    (hs : s.Shows (e.faces ++ [.endOfFile])) :
    Succeeds expressionRoot s fun tree _ => tree.body.shape = e.shape := by
  apply Succeeds.start
  apply Succeeds.bind (h.succeeds_aTestList hs)
  rintro body u ⟨hu, hshape⟩
  have hnone : Choice.onKind .newline bump u.current.kind = none := by
    rw [hu.kind]
    rfl
  have hnewlines : newlines u = .ok ([], u) := Chain.nil.repeatUpTo_eq hnone (Nat.le_refl _)
  exact .of_eq hnewlines (.endOfFile hu.kind fun last v => .spanFrom fun span => .pure hshape)

end Root

end Verbatim
