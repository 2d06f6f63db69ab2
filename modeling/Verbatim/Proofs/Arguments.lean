import Verbatim.Proofs.Derivation.First
import Verbatim.Proofs.Derivation.Root

/-!
# Comprehensions as arguments

A comprehension in a call or in the header of a class is put around the argument before its `for`,
whichever form this argument has. So it can be around an argument with a star or with a keyword
too. Which form that is shows in the first two tokens: no plain argument begins with a star, or has
an equals sign as its second token.
-/

namespace Verbatim

open Outline (tokensOf eventsOf Begin)

/-! ## Second tokens -/

namespace Outline

/-- There is no equals sign among the first tokens of the pieces. -/
def Avoids (n : Nat) (pieces : List Outline) : Prop :=
  ∀ t ∈ (tokensOf pieces).take n, t.kind ≠ .equal

namespace Avoids

variable {n : Nat} {pieces children : List Outline}

theorem zero : Avoids 0 pieces := by
  rintro t ⟨⟩

theorem nil : Avoids n [] := by
  intro t ht
  rw [tokensOf, List.take_nil] at ht
  cases ht

theorem token {t : Token} (ht : t.kind ≠ .equal) (h : Avoids n pieces) :
    Avoids (n + 1) (.token t :: pieces) := by
  intro u hu
  rw [tokensOf, tokens, List.singleton_append, List.take_succ_cons] at hu
  rcases List.mem_cons.mp hu with rfl | hu
  · exact ht
  · exact h u hu

theorem word {t : Token} {kind : TokenKind} (ht : t.kind = kind) (hkind : kind ≠ .equal)
    (h : Avoids n pieces) : Avoids (n + 1) (.token t :: pieces) :=
  token (ht ▸ hkind) h

/-- A node has a token of its own. -/
theorem node {m : Node} (hchildren : Avoids (n + 1) children) (hne : tokensOf children ≠ [])
    (h : Avoids n pieces) : Avoids (n + 1) (.node m children :: pieces) := by
  intro u hu
  rw [tokensOf, tokens, List.take_append] at hu
  rcases List.mem_append.mp hu with hu | hu
  · exact hchildren u hu
  · have hlength := List.length_pos_iff.mpr hne
    exact h u (List.take_subset_take_left _ (by omega) hu)

end Avoids

theorem Begin.avoids {begins : TokenKind → Bool} {pieces : List Outline}
    (h : Begin begins pieces) (hequal : begins .equal = false) : Avoids 1 pieces := by
  obtain ⟨t, ts, htokens, ht⟩ := h
  intro u hu
  rw [htokens] at hu
  cases List.mem_singleton.mp hu
  intro hkind
  rw [hkind, hequal] at ht
  cases ht

end Outline

open Outline (Avoids)

theorem TokenKind.ne_equal_of_continues? {kind : TokenKind} {L : Level}
    (h : kind.continues? = some L) : kind ≠ .equal := by
  rintro rfl
  cases h

theorem TokenKind.ne_equal_of_startsTest {kind : TokenKind} (h : kind.startsTest = true) :
    kind ≠ .equal := by
  rintro rfl
  cases h

theorem Phrase.begins_equal (P : Phrase) : P.begins .equal = false := by
  induction P with
  | starred kind => cases kind <;> rfl
  | inside kind => cases kind <;> rfl
  | list _ _ ih => exact ih
  | comprehensionOrList _ _ ih => exact ih
  | _ => rfl

theorem Derives.avoids_one {P : Phrase} {e : Expr} (h : Derives P (.expr e)) :
    Avoids 1 e.pieces :=
  h.begin.avoids P.begins_equal

theorem Derives.begin_trailer {t : Trailer} (h : Derives .trailer (.trailer t)) :
    Begin (· != .equal) t.pieces := by
  cases h with
  | unit h => cases h
  | member hdot => exact .word hdot rfl
  | call hopener => exact .word hopener rfl
  | index hopener => exact .word hopener rfl

theorem Derives.begin_declarator {typed : Bool} {d : Declarator}
    (h : Derives (.declarator typed) (.declarator d)) : Begin (· != .equal) d.pieces := by
  cases h with
  | unit h => cases h
  | declarator hname => exact .word hname rfl

theorem Derives.begin_param {typed : Bool} {p : Param}
    (h : Derives (.param typed) (.param p)) (pieces : List Outline) :
    Begin (· != .equal) (p.outline :: pieces) := by
  cases h with
  | unit h => cases h
  | single hd => exact .node hd.begin_declarator
  | withDefault hd => exact .node (.node hd.begin_declarator)
  | keywordOnly hstar => exact .node (.word hstar rfl)
  | variadic hstar => exact .node (.word hstar rfl)
  | keywordVariadic hop => exact .node (.word hop rfl)
  | positionalOnly hslash => exact .node (.word hslash rfl)

theorem Derives.begin_params {typed : Bool} {ps : Params}
    (h : Derives (.params typed) (.params typed ps)) : Begin (· != .equal) ps.pieces := by
  cases h with
  | unit h => cases h
  | @params _ _ items _ hitems =>
    cases items with
    | one p => exact (hitems p List.mem_cons_self).begin_param _
    | cons p t rest => exact (hitems p List.mem_cons_self).begin_param _

/-- The phrases of tests and of values with a name. -/
def Phrase.isTest : Phrase → Bool
  | level _ | noConditional | named => true
  | _ => false

theorem Phrase.Includes.isTest {P Q : Phrase} (h : Q.Includes P) (hQ : Q.isTest = true) :
    P.isTest = true := by
  cases h <;> first | rfl | cases hQ

/-- An equals sign stands only behind a name in brackets or in the head of a lambda. -/
theorem Derives.avoids_two {P : Phrase} {e : Expr} (h : Derives P (.expr e))
    (hP : P.isTest = true) : Avoids 2 e.pieces := by
  generalize hn : Node.expr e = n at h
  induction h generalizing e with
  | unit hincludes _ ih => exact ih (hincludes.isTest hP) hn
  | leaf h =>
    cases hn
    have hstarts := TokenKind.startsTest_of_ofToken? h
    exact .token (TokenKind.ne_equal_of_startsTest hstarts) .nil
  | strings hfirst hmore =>
    cases hn
    refine .word hfirst (by decide) ?_
    rename_i more
    cases more with
    | nil => exact .nil
    | cons t more => exact .word (hmore t List.mem_cons_self) (by decide) .zero
  | @display _ kind _ _ body hopener hcloser hbody =>
    cases hn
    have hkinds : kind.bracket.openKind ≠ .equal ∧ kind.bracket.closeKind ≠ .equal := by
      cases kind <;> decide
    refine .word hopener hkinds.1 ?_
    cases body with
    | none => exact .word hcloser hkinds.2 .zero
    | some b => exact .node (hbody b rfl).avoids_one (hbody b rfl).begin.ne_nil .zero
  | @applied _ await _ trailers hawait hatom htrailers _ ihatom =>
    cases hn
    cases await with
    | some t =>
      exact .word (hawait t rfl) (by decide) (.node hatom.avoids_one hatom.begin.ne_nil .zero)
    | none =>
      refine .node (ihatom rfl rfl) hatom.begin.ne_nil ?_
      cases trailers with
      | nil => exact .nil
      | cons t ts =>
        have hfirst := (htrailers t List.mem_cons_self).begin_trailer
        exact .node (hfirst.avoids rfl) hfirst.ne_nil .zero
  | power hop hbase _ ih =>
    cases hn
    exact .node (ih rfl rfl) hbase.begin.ne_nil (.word hop (by decide) .zero)
  | binary hop hleft _ ih | compound hop hleft _ ih =>
    cases hn
    obtain ⟨first, rest, hfaces, hfirst⟩ := hop.faces_eq
    cases hfaces
    exact .node (ih rfl rfl) hleft.begin.ne_nil
      (.token (TokenKind.ne_equal_of_continues? hfirst) .zero)
  | conditional hif _ hbody _ _ ih =>
    cases hn
    exact .node (ih rfl rfl) hbody.begin.ne_nil (.word hif (by decide) .zero)
  | named hop _ hleft _ ih =>
    cases hn
    exact .node (ih rfl rfl) hleft.begin.ne_nil (.word hop (by decide) .zero)
  | sign hop hoperand =>
    cases hn
    exact .token (TokenKind.ne_equal_of_startsTest (TokenKind.startsTest_of_sign? hop))
      (.node hoperand.avoids_one hoperand.begin.ne_nil .zero)
  | not hop hoperand =>
    cases hn
    exact .word hop (by decide) (.node hoperand.avoids_one hoperand.begin.ne_nil .zero)
  | @lambda _ _ _ _ params _ _ hkeyword hparams hcolon _ =>
    cases hn
    refine .word hkeyword (by decide) ?_
    cases params with
    | none => exact .word hcolon (by decide) .zero
    | some ps =>
      have hfirst := (hparams ps rfl).begin_params
      exact .node (hfirst.avoids rfl) hfirst.ne_nil .zero
  | _ => cases hP

/-! ## Arguments -/

/-- Whether the argument has neither a star nor a keyword. -/
def Expr.isPlainArgument : Expr → Bool
  | .argument _ _ _ _ | .unary _ .star _ _ | .unary _ .doubleStar _ _ => false
  | _ => true

/-- Whether some tokens begin with a star, or have an equals sign in the second place. -/
def Token.marksArgument : List Token → Bool
  | [] => false
  | first :: rest =>
    first.kind == .star || first.kind == .doubleStar || rest.head?.any (·.kind == .equal)

theorem Expr.isPlainArgument_of_level? {e : Expr} {L : Level} (h : e.level? = some L) :
    e.isPlainArgument = true := by
  unfold isPlainArgument
  split
  · cases h
  · cases h
  · cases h
  · rfl

theorem Derives.isPlainArgument {e : Expr} (h : Derives .named (.expr e)) :
    e.isPlainArgument = true := by
  cases h with
  | unit h hn =>
    cases h
    obtain ⟨L, hL, -⟩ := hn.within
    exact Expr.isPlainArgument_of_level? hL
  | named => rfl
  | lambda h => rcases h with h | h <;> cases h

theorem Derives.not_marksArgument {e : Expr} (h : Derives .named (.expr e)) :
    Token.marksArgument (tokensOf e.pieces) = false := by
  obtain ⟨t, ts, htokens, ht⟩ := h.begin
  have havoids := h.avoids_two rfl
  rw [Outline.Avoids, htokens] at havoids
  obtain ⟨⟨-, hstar⟩, hdouble⟩ : (_ ∧ t.kind ≠ .star) ∧ t.kind ≠ .doubleStar := by
    simpa [Phrase.begins, TokenKind.startsTest] using ht
  have hsecond : ∀ u, ts.head? = some u → u.kind ≠ .equal := by
    intro u hu
    obtain ⟨us, rfl⟩ := List.head?_eq_some_iff.mp hu
    exact havoids u (by simp)
  rw [htokens]
  simpa [Token.marksArgument, hstar, hdouble, Option.any_eq_false] using hsecond

theorem Derives.isPlainArgument_eq {e : Expr} (h : Derives .argument (.expr e)) :
    e.isPlainArgument = ! Token.marksArgument (tokensOf e.pieces) := by
  cases h with
  | unit h hn =>
    cases h with
    | argument => rw [hn.isPlainArgument, hn.not_marksArgument]; rfl
    | argumentStar kind =>
      cases hn with
      | unit h => cases h
      | @starred span _ _ op operand hop =>
        cases kind with
        | star | doubleStar =>
          have hkind := (Option.some.inj hop).symm
          simp [Expr.isPlainArgument, Expr.pieces, tokensOf, Outline.tokens, Token.marksArgument,
            hkind]
        | _ => cases hop
      | lambda h => rcases h with h | h <;> cases h
  | argument hequal hname =>
    obtain ⟨name, rfl⟩ := Expr.exists_name hname
    simp [Expr.isPlainArgument, Expr.pieces, tokensOf, Outline.tokens, Token.marksArgument, hequal]
  | lambda h => rcases h with h | h <;> cases h

/-! ## Comprehensions -/

/-- The element of the comprehension that is all a call or the header of a class has in its
parentheses, if it is one. -/
def Node.iterated? : Node → Option Expr
  | .trailer (.call _ _ (some (.comprehension _ element _)) _) => some element
  | .stmt (.classDef _ _ _ _ (some ⟨_, some (.comprehension _ element _), _⟩) _ _) => some element
  | _ => none

theorem Derives.arguments_of_call {P : Phrase} {n : Node} {span : Span} {opener closer : Token}
    {e : Expr} (h : Derives P n) (hn : n = .trailer (.call span opener (some e) closer)) :
    Derives (.comprehensionOrList .argList .argument) (.expr e) := by
  induction h with
  | unit _ _ ih => exact ih hn
  | call _ _ harguments =>
    cases hn
    exact harguments e rfl
  | _ => cases hn

/-- No argument is a comprehension without more parentheses. -/
theorem Derives.argument_of_comprehension {span : Span} {element : Expr} {clause : Clause}
    (h : Derives (.comprehensionOrList .argList .argument)
      (.expr (.comprehension span element clause))) : Derives .argument (.expr element) := by
  cases h.listForm with
  | comprehension helement => exact helement
  | single h =>
    cases h with
    | unit h hn =>
      cases h with
      | argumentStar => cases hn with | unit h => cases h
      | argument =>
        cases hn with
        | unit h hn =>
          cases h
          obtain ⟨L, hL, -⟩ := hn.within
          cases hL

theorem Node.Derived.argument {n : Node} {element : Expr} (h : n.Derived)
    (hn : n.iterated? = some element) : Derives .argument (.expr element) := by
  unfold iterated? at hn
  split at hn
  · cases hn
    obtain ⟨P, hP⟩ := h
    exact (hP.arguments_of_call rfl).argument_of_comprehension
  · cases hn
    cases h with
    | classDef _ _ _ harguments =>
      exact ((harguments _ rfl).arguments _ rfl).argument_of_comprehension
  · cases hn

/-- Wherever a comprehension is the whole of some arguments, its element is a plain expression just
if the tokens of the element begin with no star and have no equals sign behind the first one. -/
theorem comprehension_argument_plain_iff {options : Options} {t : Text} {span : Span}
    {pieces : List Outline} (h : Parses options t span pieces) :
    ∀ n element, Event.enter n ∈ eventsOf pieces → n.iterated? = some element →
      (element.isPlainArgument = true ↔ Token.marksArgument (tokensOf element.pieces) = false) := by
  intro n element hmem hn
  have hderived : n.Derived := h.every_derived _ hmem
  rw [(hderived.argument hn).isPlainArgument_eq, Bool.not_eq_true']

theorem comprehension_argument_plain_of_call :
    ∃ tree n element, parseModule {} "f(a for a in b)\n".toList = .ok tree ∧
      Event.enter n ∈ eventsOf tree.pieces ∧ n.iterated? = some element ∧
      element.isPlainArgument = true := by
  have hcall : ((parseModule {} "f(a for a in b)\n".toList).toOption.any fun tree =>
      (eventsOf tree.pieces).any (Event.enters fun n => n.iterated?.any fun element =>
        ! Token.marksArgument (tokensOf element.pieces))) = true := by
    decide +kernel
  obtain ⟨tree, htree, hnodes⟩ := exists_eq_ok_of_any hcall
  obtain ⟨n, hmem, hn⟩ := Outline.exists_enter hnodes
  obtain ⟨element, helement, hmark⟩ := (Option.any_eq_true _ _).mp hn
  rw [Bool.not_eq_true'] at hmark
  have hplain := comprehension_argument_plain_iff (.module htree) n element hmem helement
  exact ⟨tree, n, element, htree, hmem, helement, hplain.mpr hmark⟩

/-- An argument with a star is iterated over all the same. -/
theorem comprehension_argument_of_star :
    ∃ tree n element, parseModule {} "f(*a for a in b)\n".toList = .ok tree ∧
      Event.enter n ∈ eventsOf tree.pieces ∧ n.iterated? = some element ∧
      element.isPlainArgument = false := by
  have hcall : ((parseModule {} "f(*a for a in b)\n".toList).toOption.any fun tree =>
      (eventsOf tree.pieces).any (Event.enters fun n => n.iterated?.any (! ·.isPlainArgument))) =
        true := by
    decide +kernel
  obtain ⟨tree, htree, hnodes⟩ := exists_eq_ok_of_any hcall
  obtain ⟨n, hmem, hn⟩ := Outline.exists_enter hnodes
  obtain ⟨element, helement, hplain⟩ := (Option.any_eq_true _ _).mp hn
  exact ⟨tree, n, element, htree, hmem, helement, by simpa using hplain⟩

end Verbatim
