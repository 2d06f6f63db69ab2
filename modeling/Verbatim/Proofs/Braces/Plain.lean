import Verbatim.Proofs.Derivation.Roots

/-!
# Where entries of dictionaries can stand

An entry of a dictionary is derived from the phrase for the elements of dictionaries only, and
the few phrases that lead to it are those for the body of a dictionary. So right inside of any
other node there is no entry, and nothing that holds entries itself.
-/

namespace Verbatim

open Grammar (isDictEntry isUnpacking)
open Outline (Descends)

/-! ## Expressions -/

namespace Expr

/-- Whether the expression can only be an element of a dictionary. -/
def isDictElement (e : Expr) : Bool :=
  isDictEntry e || isUnpacking e

/-- The first expression is a comprehension or the elements of a dictionary, and the second one
stands in it as an element. -/
inductive Gathers : Expr → Expr → Prop
  | comprehension {span : Span} {element : Expr} {clause : Clause} :
      Gathers (.comprehension span element clause) element
  | elements {span : Span} {items : Separated Expr} {trailing : Option Token} {e : Expr}
      (h : e ∈ items.items) : Gathers (.sequence span .dictMaker items trailing) e

/-- The expression is no entry and gathers none. -/
structure Plain (e : Expr) : Prop where
  notEntry : isDictEntry e = false
  gathersNone : ∀ x, e.Gathers x → isDictEntry x = false

theorem not_gathers_of_isDictElement {e x : Expr} (h : e.isDictElement = true) :
    ¬ e.Gathers x := by
  rintro (_ | _)
  · cases h
  · cases h

end Expr

/-! ## Phrases -/

namespace Phrase

/-- Whether no entry of a dictionary is derived from the phrase, on its own or as an element. -/
def isPlain : Phrase → Bool
  | dictElement | inside .dictionary => false
  | list _ P | comprehensionOrList _ P => P.isPlain
  | _ => true

theorem Includes.isPlain {P Q : Phrase} (h : Q.Includes P) (hQ : Q.isPlain = true) :
    P.isPlain = true := by
  cases h <;> first | exact hQ | cases hQ

theorem ElementOf.isPlain_or {P : Phrase} {kind : SequenceKind} (h : P.ElementOf kind) :
    P.isPlain = true ∨ P = Phrase.dictElement ∧ kind = .dictMaker := by
  cases h with
  | dictElement => exact .inr ⟨rfl, rfl⟩
  | _ => exact .inl rfl

end Phrase

theorem Derives.plain {P : Phrase} {e : Expr} (h : Derives P (.expr e)) (hP : P.isPlain = true) :
    e.Plain := by
  generalize hn : Node.expr e = n at h
  induction h generalizing e with
  | unit hincludes _ ih => exact ih (hincludes.isPlain hP) hn
  | dictEntry => cases hP
  | comprehension helement _ _ _ ih =>
    cases hn
    refine ⟨rfl, ?_⟩
    rintro _ ⟨⟩
    exact (ih hP rfl).notEntry
  | sequence hitems _ _ _ _ ih =>
    cases hn
    refine ⟨rfl, ?_⟩
    rintro x (_ | hx)
    exact (ih x hx hP rfl).notEntry
  | _ =>
    cases hn
    all_goals
      refine ⟨rfl, ?_⟩
      rintro _ ⟨⟩

theorem Derives.isDictElement {e : Expr} (h : Derives .dictElement (.expr e)) :
    e.isDictElement = true := by
  cases h with
  | unit h hn =>
    cases h
    rw [Expr.isDictElement, Grammar.isUnpacking_of_starred hn, Bool.or_true]
  | dictEntry => rfl
  | lambda h => rcases h with h | h <;> cases h

/-! ## Right inside -/

namespace Outline

variable {e : Expr} {n : Node} {path : List Node}

theorem descends_exprOption {o : Option Expr} :
    Descends (exprOptionPieces o) [.expr e] ↔ o = some e := by
  cases o <;> simp [exprOptionPieces, Descends.here, eq_comm]

theorem descends_elements {items : Separated Expr} :
    Descends (elementsPieces items) [.expr e] ↔ e ∈ items.items := by
  induction items with
  | one => simp [elementsPieces, Descends.here]
  | cons _ _ _ ih => simp [elementsPieces, Descends.here, ih]

@[simp]
theorem not_descends_ofOption {o : Option Token} : ¬ Descends (ofOption o) (n :: path) := by
  cases o <;> simp [ofOption]

/-- The expressions of the pieces that stand in no other node of them are plain. -/
def Plain (pieces : List Outline) : Prop :=
  ∀ e, Descends pieces [.expr e] → e.Plain

/-- The root nodes are what is left to ask about. -/
@[simp]
theorem plain_iff {pieces : List Outline} :
    Plain pieces ↔ AllRoots (fun n => ∀ e, n = .expr e → e.Plain) pieces := by
  constructor
  · rintro h n hn e rfl
    exact h e hn
  · intro h e he
    exact h _ he e rfl

end Outline

/-! ## Seats of entries -/

/-- The node is a dictionary with the expression as its body. -/
inductive Node.Encloses : Node → Expr → Prop
  | dictionary {span : Span} {opener closer : Token} {body : Expr} :
      Encloses (.expr (.display span .dictionary opener (some body) closer)) body

/-- The expression may stand right inside the node, as far as entries go: one that gathers entries
is the body of a dictionary, and an entry is such a body or an element of what may be one. -/
structure Node.Seats (n : Node) (e : Expr) : Prop where
  entry : isDictEntry e = true → n.Encloses e ∨ ∃ b, n = .expr b ∧ b.Gathers e
  gatherer : ∀ x, e.Gathers x → isDictEntry x = true → n.Encloses e

theorem Expr.Plain.seats {e : Expr} (h : e.Plain) (n : Node) : n.Seats e where
  entry he := by
    rw [h.notEntry] at he
    cases he
  gatherer x hx he := by
    rw [h.gathersNone x hx] at he
    cases he

theorem Expr.seats_of_isDictElement {b e : Expr} (h : b.Gathers e)
    (he : e.isDictElement = true) : (Node.expr b).Seats e where
  entry _ := .inr ⟨b, rfl, h⟩
  gatherer _ hx _ := absurd hx (Expr.not_gathers_of_isDictElement he)

/-- Only the three productions that lead to entries do not have plain expressions throughout. -/
def Node.leadsToEntries : Node → Bool
  | .expr (.display _ _ _ _ _) | .expr (.comprehension _ _ _) | .expr (.sequence _ _ _ _) => true
  | _ => false

theorem Derives.plain_pieces {P : Phrase} {n : Node} (h : Derives P n)
    (hn : n.leadsToEntries = false) : Outline.Plain n.pieces := by
  induction h with
  | unit _ _ ih => exact ih hn
  | display | comprehension | sequence => cases hn
  | applied _ hatom =>
    simp [Node.pieces, Expr.pieces, trailersPieces_eq, Trailer.outline, hatom.plain rfl]
  | power _ hleft hright | binary _ hleft hright | compound _ hleft hright
  | named _ _ hleft hright | dictEntry _ hleft hright | argument _ _ hleft hright =>
    simp [Node.pieces, Expr.pieces, hleft.plain rfl, hright.plain rfl]
  | sign _ hoperand | not _ hoperand | starred _ hoperand | yieldFrom _ _ hoperand =>
    simp [Node.pieces, Expr.pieces, hoperand.plain rfl]
  | lambda hP _ _ _ hbody =>
    have hplain := hbody.plain (by rcases hP with rfl | rfl <;> rfl)
    simp [Node.pieces, Expr.pieces, paramsOptionPieces_eq, Params.outline, hplain]
  | conditional _ _ hbody hcondition halternative =>
    simp [Node.pieces, Expr.pieces, hbody.plain rfl, hcondition.plain rfl, halternative.plain rfl]
  | yield _ hvalue =>
    simpa [Node.pieces, Expr.pieces] using fun e he => (hvalue e he).plain rfl
  | @slice _ _ _ step _ _ hlower hupper _ hvalue =>
    have hstep : Outline.Plain (stepOptionPieces step) := by
      rw [Outline.plain_iff, stepOptionPieces_eq, Outline.allRoots_elim]
      rintro ⟨colon, value⟩ rfl
      simpa [Step.pieces] using fun e he => (hvalue colon e (by rw [he])).plain rfl
    rw [Outline.plain_iff] at hstep
    simpa [Node.pieces, Expr.pieces, hstep] using
      ⟨fun e he => (hlower e he).plain rfl, fun e he => (hupper e he).plain rfl⟩
  | call _ _ harguments =>
    simpa [Node.pieces, Trailer.pieces] using fun e he => (harguments e he).plain rfl
  | index _ _ hsubscripts =>
    simpa [Node.pieces, Trailer.pieces] using fun e he => (hsubscripts e he).plain rfl
  | loop _ _ _ htargets hsource =>
    simp [Node.pieces, Clause.pieces, clauseOptionPieces_eq, Clause.outline, htargets.plain rfl,
      hsource.plain rfl]
  | guard _ hcondition =>
    simp [Node.pieces, Clause.pieces, clauseOptionPieces_eq, Clause.outline, hcondition.plain rfl]
  | declarator _ _ _ hhint =>
    rw [Node.pieces, Declarator.pieces, typeHintOptionPieces_eq, Outline.plain_iff,
      Outline.allRoots_token, Outline.allRoots_elim]
    rintro ⟨within, colon, e⟩ rfl
    simp [TypeHint.outline, TypeHint.pieces, (hhint within colon e rfl).plain rfl]
  | single _ ih => exact ih rfl
  | withDefault _ _ hvalue =>
    simp [Node.pieces, Param.outline, Outline.children, hvalue.plain rfl]
  | params =>
    have hitem (p : Param) : Outline.Plain [p.outline] := by cases p <;> simp [Param.outline]
    simpa [Node.pieces, Params.pieces, paramItemsPieces_eq] using fun p _ => hitem p
  | leaf | strings => simp [Node.pieces, Expr.pieces]
  | member => simp [Node.pieces, Trailer.pieces]
  | keywordOnly | variadic | keywordVariadic | positionalOnly =>
    simp [Node.pieces, Param.outline, Outline.children]

theorem Derives.seats {P : Phrase} {n : Node} {e : Expr} (h : Derives P n)
    (he : Descends n.pieces [.expr e]) : n.Seats e := by
  have hn := h
  induction h with
  | unit _ h ih => exact ih he h
  | @display _ kind _ _ body _ _ hbody _ =>
    obtain rfl : body = some e := by
      simpa [Node.pieces, Expr.pieces, Outline.descends_append, Outline.descends_exprOption]
        using he
    cases kind with
    | dictionary => exact ⟨fun _ => .inl .dictionary, fun _ _ _ => .dictionary⟩
    | _ => exact ((hbody e rfl).plain rfl).seats _
  | @comprehension P _ _ element _ helement _ _ hkind =>
    obtain rfl : e = element := by
      simpa [Node.pieces, Expr.pieces, Descends.here] using he
    rcases hkind.isPlain_or with hplain | ⟨rfl, -⟩
    · exact (helement.plain hplain).seats _
    · exact Expr.seats_of_isDictElement .comprehension helement.isDictElement
  | @sequence P _ _ items _ hitems _ _ _ hkind =>
    have hmem : e ∈ items.items := by
      simpa [Node.pieces, Expr.pieces, Outline.descends_append, Outline.descends_elements] using he
    rcases hkind.isPlain_or with hplain | ⟨rfl, rfl⟩
    · exact ((hitems e hmem).plain hplain).seats _
    · exact Expr.seats_of_isDictElement (.elements hmem) (hitems e hmem).isDictElement
  | _ => exact (hn.plain_pieces rfl e he).seats _

/-! ## Statements -/

section Statements

open Outline

theorem Value.Derived.plain_pieces {v : Value} (h : v.Derived) : Plain v.pieces := by
  cases v with
  | single e =>
    have he : e.Plain := Derives.plain h rfl
    simp [Value.pieces, he]
  | list span items trailing =>
    obtain ⟨⟨P, hkind, hitems⟩, -⟩ := Derives.sequence_inv h rfl
    have hP := hkind.isPlain_or.resolve_right (by simp)
    simpa [Value.pieces, elementsPieces_eq] using fun e he => (hitems e he).plain hP

theorem Small.Derived.plain_pieces {s : Small} (h : s.Derived) : Plain s.pieces := by
  cases s with
  | value v => exact Value.Derived.plain_pieces h
  | annAssign =>
    obtain ⟨htarget, -, hhint, -⟩ := h
    simp [Small.pieces, htarget.plain rfl, hhint.plain rfl, allRoots_introduced]
  | augAssign => simp [Small.pieces, h.1.plain rfl]
  | raise _ _ raised =>
    suffices hraised : ∀ r, raised = some r → Plain r.pieces by
      simpa [Small.pieces] using hraised
    intro r hr
    obtain ⟨hexception, hcause⟩ := h.2 r hr
    simpa [Raised.pieces, allRoots_introduced, hexception.plain rfl] using
      fun part hpart => (hcause part hpart).value.plain rfl
  | del => simp [Small.pieces, h.2.plain rfl]
  | assert =>
    obtain ⟨-, htest, hmessage⟩ := h
    simpa [Small.pieces, allRoots_introduced, htest.plain rfl] using
      fun part hpart => (hmessage part hpart).value.plain rfl
  | importModules =>
    simp [Small.pieces, DottedAsName.outline, DottedAsName.pieces, allRoots_introduced]
  | importFrom _ _ _ module => cases module <;> simp [Small.pieces]
  | _ => simp [Small.pieces]

theorem Line.plain_pieces (l : Line) : Plain l.pieces := by
  simp [Line.pieces]

namespace Compound

theorem Derived.plain_elif {clause : ElifClause} (h : Derived (.elif clause)) :
    Plain [clause.outline] := by
  cases h with
  | elif _ hcondition => simp [ElifClause.outline, hcondition.plain rfl]

theorem Derived.plain_handler {handler : ExceptClause} (h : Derived (.handler handler)) :
    Plain [handler.outline] := by
  cases h with
  | handler _ hcaught =>
    simpa [ExceptClause.outline, Caught.pieces, allRoots_introduced] using
      fun c hc => (hcaught c hc).test.plain rfl

theorem Derived.plain_pieces {s : Stmt} (h : Derived (.stmt s)) : Plain s.pieces := by
  cases h with
  | line => exact Line.plain_pieces _
  | ifElse _ hcondition _ _ helifs =>
    simpa [Stmt.pieces, elifsPieces_eq, hcondition.plain rfl] using
      fun c hc => (helifs c hc).plain_elif
  | whileLoop _ hcondition => simp [Stmt.pieces, hcondition.plain rfl]
  | forLoop _ _ htargets _ hsource =>
    simp [Stmt.pieces, htargets.plain rfl, hsource.plain rfl]
  | tryBlock _ _ _ hhandlers =>
    simpa [Stmt.pieces, handlersPieces_eq] using fun c hc => (hhandlers c hc).plain_handler
  | withBlock _ _ hitems =>
    suffices hrow : ∀ item : WithItem, item.Derived → Plain [item.outline] by
      simpa [Stmt.pieces] using fun item hitem => hrow item (hitems.items item hitem)
    rintro item ⟨hcontext, htarget⟩
    simpa [WithItem.outline, WithItem.pieces, allRoots_introduced, hcontext.plain rfl] using
      fun part hpart => (htarget part hpart).value.plain rfl
  | funcDef hdecorators _ _ _ _ _ _ hreturns =>
    simpa [Stmt.pieces, allRoots_introduced] using
      ⟨fun d hd => (hdecorators d hd).expression.plain rfl,
        fun part hpart => (hreturns part hpart).value.plain rfl⟩
  | classDef hdecorators _ _ harguments =>
    suffices hbases : ∀ a : ClassArguments, a.Derived → Plain a.pieces by
      simpa [Stmt.pieces] using
      ⟨fun d hd => (hdecorators d hd).expression.plain rfl, fun a ha => plain_iff.mp (hbases a (harguments a ha))⟩
    intro a ha
    simpa [ClassArguments.pieces] using fun e he => (ha.arguments e he).plain rfl

end Compound

/-- What may stand right inside a node, whatever sort of node it is. -/
theorem Node.Derived.seats {n : Node} {e : Expr} (h : n.Derived)
    (he : Descends n.pieces [.expr e]) : n.Seats e := by
  cases n with
  | value => exact (Value.Derived.plain_pieces h e he).seats _
  | small => exact (Small.Derived.plain_pieces h e he).seats _
  | line l => exact (l.plain_pieces e he).seats _
  | block => exact absurd he not_descends_nil
  | stmt => exact (Compound.Derived.plain_pieces h e he).seats _
  | _ =>
    obtain ⟨P, hP⟩ := h
    exact hP.seats he

end Statements

end Verbatim
