import Verbatim.Proofs.Decision.Statement
import Verbatim.Proofs.Grammar.Root
import Verbatim.Proofs.Scanner.Ends

/-!
# Parsing a run of tokens

A parse sees a source only through the run of the scanner over it. It fails at token `i` of
the run if the tokens before it leave open how the parse ends and token `i` decides it. Every
syntax error has one such token, and by the kinds of the tokens up to there any other run
fails at its own token `i`.
-/

namespace Verbatim

/-! ## Entry points -/

inductive EntryPoint where
  | module | expression | signature
deriving DecidableEq, Repr

namespace EntryPoint

def Tree : EntryPoint → Type
  | module => ModuleTree
  | expression => ExpressionTree
  | signature => SignatureTree

def root : (entry : EntryPoint) → Parser entry.Tree
  | module => Grammar.moduleRoot
  | expression => Grammar.expressionRoot
  | signature => Grammar.signatureRoot

def parse (entry : EntryPoint) : Options → Text → Except ParseError entry.Tree :=
  parseWith entry.root

theorem parse_eq : parse .module = parseModule ∧ parse .expression = parseExpression ∧
    parse .signature = parseSignature :=
  ⟨rfl, rfl, rfl⟩

def relabel (ρ : Relabelling) : (entry : EntryPoint) → entry.Tree → entry.Tree
  | module => ModuleTree.relabel ρ
  | expression => ExpressionTree.relabel ρ
  | signature => SignatureTree.relabel ρ

end EntryPoint

namespace Grammar

open Verbatim.Parser

variable {ρ : Relabelling} {b : Nat}

theorem alike_newlines : Alike ρ b (List.map ρ.token) newlines newlines :=
  .many (rel_startedBy _ ⟨.bump, advances_bump⟩)

theorem alike_moduleRoot : Alike ρ b (ModuleTree.relabel ρ) moduleRoot moduleRoot := by
  refine .bindStart fun start start' => ?_
  refine (Alike.many (rel_startedBy _ alike_statement)).bind fun statements statements' hall => ?_
  refine Alike.endOfFile.bind fun last last' hlast => .close fun _ _ => ?_
  simp only [ModuleTree.relabel, relabelStmts_eq, hall, hlast]

theorem alike_expressionRoot :
    Alike ρ b (ExpressionTree.relabel ρ) expressionRoot expressionRoot := by
  refine .bindStart fun start start' => alike_aTestList.bind fun body body' hbody => ?_
  refine alike_newlines.bind fun newlines newlines' hnewlines => ?_
  refine Alike.endOfFile.bind fun last last' hlast => .close fun _ _ => ?_
  simp only [ExpressionTree.relabel, hbody, hnewlines, hlast]

theorem alike_signatureRoot :
    Alike ρ b (SignatureTree.relabel ρ) signatureRoot signatureRoot := by
  refine .bindStart fun start start' => Alike.expect.bind fun opener opener' hopener => ?_
  refine (Alike.optional (rel_startedBy _ (alike_withRules alike_typeList))).bind ?_
  intro types types' htypes
  refine Alike.expect.bind fun closer closer' hcloser => ?_
  refine Alike.expect.bind fun arrow arrow' harrow => ?_
  refine alike_aTest.bind fun result result' hresult => ?_
  refine alike_newlines.bind fun newlines newlines' hnewlines => ?_
  refine Alike.endOfFile.bind fun last last' hlast => .close fun _ _ => ?_
  simp only [SignatureTree.relabel, relabelExprOption_eq, hopener, htypes, hcloser, harrow,
    hresult, hnewlines, hlast]

end Grammar

namespace EntryPoint

theorem alike_root (ρ : Relabelling) (b : Nat) (entry : EntryPoint) :
    Parser.Alike ρ b (entry.relabel ρ) entry.root entry.root := by
  cases entry with
  | module => exact Grammar.alike_moduleRoot
  | expression => exact Grammar.alike_expressionRoot
  | signature => exact Grammar.alike_signatureRoot

end EntryPoint

/-! ## Runs that agree -/

namespace TokenRun

variable {α γ : Type}

def parse (run : TokenRun) (root : Parser α) : Except ParseError α :=
  match Stream.ofRun run with
  | .error error => .error (.lexical error)
  | .ok stream => (root stream).map Prod.fst

/-- The error with which a parse fails, if it does. -/
def error? (run : TokenRun) (root : Parser α) : Option ParseError :=
  match run.parse root with
  | .error error => some error
  | .ok _ => none

theorem error?_eq_some_iff {run : TokenRun} {root : Parser α} {error : ParseError} :
    run.error? root = some error ↔ run.parse root = .error error := by
  unfold error?
  split
  · next h => simp [h]
  · next h => simp [h]

/-- The run of a scanner that meets a lexical error after some of the tokens. -/
def upTo (run : TokenRun) (n : Nat) (stop : LexicalError) : TokenRun :=
  ⟨run.tokens.take n, some stop⟩

def EndsAt (run : TokenRun) (k : Nat) : Prop :=
  run.tokens.length = k + 1 ∧ run.failure = none

structure Agree (ρ : Relabelling) (k : Nat) (run run' : TokenRun) : Prop where
  left : k < run.tokens.length
  right : k < run'.tokens.length
  tokens : (run.tokens.take (k + 1)).map ρ.token = (run'.tokens.take (k + 1)).map ρ.token
  ends : run.EndsAt k ↔ run'.EndsAt k

/-- How a parse of a run can end that has come to token `k` or further. -/
inductive Reaches (run : TokenRun) (k : Nat) : Except ParseError α → Prop
  | ok {a : α} (h : k < run.tokens.length) : Reaches run k (.ok a)
  | syntactic {m : Nat} {e : SyntaxError} (hm : k ≤ m) (ht : run.tokens[m]? = some e.token) :
      Reaches run k (.error (.syntactic e))
  | lexical {e : LexicalError} (h : run.failure = some e) : Reaches run k (.error (.lexical e))

/-- Two parses of runs that do the same up to token `k`. -/
inductive Alike (view : α → γ) (k : Nat) (run run' : TokenRun) :
    Except ParseError α → Except ParseError α → Prop
  | ok {a a' : α} (h : view a = view a') : Alike view k run run' (.ok a) (.ok a')
  | fails {m : Nat} {cause : SyntaxCause} {t t' : Token} (hm : m ≤ k)
      (ht : run.tokens[m]? = some t) (ht' : run'.tokens[m]? = some t') :
      Alike view k run run' (.error (.syntactic ⟨cause, t⟩)) (.error (.syntactic ⟨cause, t'⟩))
  | past {x x' : Except ParseError α} (h : run.Reaches (k + 1) x) (h' : run'.Reaches (k + 1) x') :
      Alike view k run run' x x'

variable {run run' : TokenRun} {k n : Nat} {stop : LexicalError}

theorem exists_stream (h : run.tokens ≠ []) :
    ∃ s : Stream, s.tokens = run.tokens ∧ s.failure = run.failure ∧
      ∀ {α : Type} (root : Parser α), run.parse root = (root s).map Prod.fst := by
  obtain ⟨tokens, failure⟩ := run
  cases tokens with
  | nil => exact absurd rfl h
  | cons token tokens => exact ⟨⟨token, tokens, failure, 0⟩, rfl, rfl, fun _ => rfl⟩

theorem reaches_of_stream {s : Stream} {x : Except ParseError (α × Stream)}
    (htokens : s.tokens = run.tokens) (hfailure : s.failure = run.failure) (h : s.Reaches k x) :
    run.Reaches k (x.map Prod.fst) := by
  cases h with
  | ok hm hu =>
    have hlength := hu.length_eq
    refine .ok ?_
    rw [← htokens, Stream.tokens, List.length_cons]
    omega
  | syntactic hm ht => exact .syntactic hm (htokens ▸ ht)
  | lexical h => exact .lexical (hfailure ▸ h)

section Root

variable {ρ : Relabelling} {view : α → γ} {root : Parser α}
  (hroot : ∀ b, Parser.Alike ρ b view root root)

include hroot

theorem reaches_parse (h : run.tokens ≠ []) : run.Reaches 0 (run.parse root) := by
  obtain ⟨s, htokens, hfailure, hparse⟩ := exists_stream h
  rw [hparse]
  exact reaches_of_stream htokens hfailure ((hroot 0).left s)

theorem alike_parse (h : run.Agree ρ k run') :
    run.Alike view k run' (run.parse root) (run'.parse root) := by
  obtain ⟨s, htokens, hfailure, hparse⟩ :=
    run.exists_stream (List.ne_nil_of_length_pos (Nat.zero_lt_of_lt h.left))
  obtain ⟨s', htokens', hfailure', hparse'⟩ :=
    run'.exists_stream (List.ne_nil_of_length_pos (Nat.zero_lt_of_lt h.right))
  have hlength : s.upcoming.length + 1 = run.tokens.length := htokens ▸ rfl
  have hlength' : s'.upcoming.length + 1 = run'.tokens.length := htokens' ▸ rfl
  have hleft := h.left
  have hright := h.right
  have hends : s.EndsAt k ↔ s'.EndsAt k := by
    have hiff (n : Nat) : n = k ↔ n + 1 = k + 1 := by omega
    have hends := h.ends
    rwa [TokenRun.EndsAt, TokenRun.EndsAt, ← hlength, ← hlength', ← hiff, ← hiff, ← hfailure,
      ← hfailure'] at hends
  have hagree : s.Agree ρ k s' :=
    ⟨by omega, by omega, by rw [htokens, htokens']; exact h.tokens, hends⟩
  have halike := (hroot (k + 1)).both k s s' (Nat.lt_succ_self k) hagree
  rw [hparse, hparse']
  generalize root s = x at halike
  generalize root s' = x' at halike
  cases halike with
  | ok _ _ _ ha => exact .ok ha
  | fails hm ht ht' => exact .fails hm (htokens ▸ ht) (htokens' ▸ ht')
  | past h h' =>
    exact .past (reaches_of_stream htokens hfailure h) (reaches_of_stream htokens' hfailure' h')

end Root

end TokenRun

end Verbatim
