import Verbatim.Proofs.Token
import Verbatim.Tree.Outline

/-!
# Pieces of optional parts and lists

The pieces of an expression are defined in one recursion, with a function of its own for
each sort of list inside. Each of these is the general function for such lists.
-/

namespace Verbatim

def Trailer.outline (t : Trailer) : Outline :=
  .node (.trailer t) t.pieces

def Clause.outline (c : Clause) : Outline :=
  .node (.clause c) c.pieces

def TypeHint.outline (hint : TypeHint) : Outline :=
  .part hint.span hint.pieces

def Declarator.outline (d : Declarator) : Outline :=
  .node (.declarator d) d.pieces

def Params.outline (typed : Bool) (ps : Params) : Outline :=
  .node (.params typed ps) ps.pieces

/-! ## Tokens of one piece -/

namespace Outline

theorem tokensOf_node (n : Node) (children : List Outline) :
    tokensOf [.node n children] = tokensOf children :=
  List.append_nil _

theorem tokensOf_part (span : Span) (children : List Outline) :
    tokensOf [.part span children] = tokensOf children :=
  List.append_nil _

/-! ## Solid pieces -/

/-- Whether a piece is sure to have some text. -/
def isSolid : Outline → Bool
  | token t => ! t.kind.isZeroWidth
  | node _ _ => true
  | part _ _ => false

@[simp]
theorem isSolid_node (n : Node) (children : List Outline) : (node n children).isSolid = true :=
  rfl

theorem isSolid_token {t : Token} {kind : TokenKind} (h : t.kind = kind)
    (hkind : kind.isZeroWidth = false) : (token t).isSolid = true := by
  rw [isSolid, h, hkind]
  rfl

end Outline

@[simp]
theorem Expr.isSolid_outline (e : Expr) : e.outline.isSolid = true := rfl

@[simp]
theorem Trailer.isSolid_outline (t : Trailer) : t.outline.isSolid = true := rfl

@[simp]
theorem Clause.isSolid_outline (c : Clause) : c.outline.isSolid = true := rfl

@[simp]
theorem Declarator.isSolid_outline (d : Declarator) : d.outline.isSolid = true := rfl

@[simp]
theorem Param.isSolid_outline (p : Param) : p.outline.isSolid = true := by
  cases p <;> simp [Param.outline]

@[simp]
theorem Value.isSolid_outline (v : Value) : v.outline.isSolid = true := rfl

@[simp]
theorem Small.isSolid_outline (s : Small) : s.outline.isSolid = true := by
  cases s <;> rfl

@[simp]
theorem Body.isSolid_outline (b : Body) : b.outline.isSolid = true := by
  cases b <;> rw [Body.outline] <;> rfl

/-! ## Lists inside -/

theorem exprOptionPieces_eq (e : Option Expr) :
    exprOptionPieces e = e.elim [] fun e => [e.outline] := by
  cases e with
  | none => rw [exprOptionPieces]; rfl
  | some e => rw [exprOptionPieces]; rfl

theorem elementsPieces_eq (items : Separated Expr) :
    elementsPieces items = items.pieces fun e => [e.outline] := by
  induction items with
  | one e => rw [elementsPieces]; rfl
  | cons e t rest ih => rw [elementsPieces, ih]; rfl

theorem trailersPieces_eq (ts : List Trailer) :
    trailersPieces ts = ts.flatMap fun t => [t.outline] := by
  induction ts with
  | nil => rw [trailersPieces]; rfl
  | cons t ts ih => rw [trailersPieces, ih]; rfl

theorem stepOptionPieces_eq (step : Option Step) :
    stepOptionPieces step = step.elim [] Step.pieces := by
  cases step with
  | none => rw [stepOptionPieces]; rfl
  | some step => rw [stepOptionPieces]; rfl

theorem clauseOptionPieces_eq (c : Option Clause) :
    clauseOptionPieces c = c.elim [] fun c => [c.outline] := by
  cases c with
  | none => rw [clauseOptionPieces]; rfl
  | some c => rw [clauseOptionPieces]; rfl

theorem typeHintOptionPieces_eq (hint : Option TypeHint) :
    typeHintOptionPieces hint = hint.elim [] fun hint => [hint.outline] := by
  cases hint with
  | none => rw [typeHintOptionPieces]; rfl
  | some hint => rw [typeHintOptionPieces]; rfl

theorem paramItemsPieces_eq (items : Separated Param) :
    paramItemsPieces items = items.pieces fun p => [p.outline] := by
  induction items with
  | one p => rw [paramItemsPieces]; rfl
  | cons p t rest ih => rw [paramItemsPieces, ih]; rfl

theorem paramsOptionPieces_eq (ps : Option Params) :
    paramsOptionPieces ps = ps.elim [] fun ps => [ps.outline false] := by
  cases ps with
  | none => rw [paramsOptionPieces]; rfl
  | some ps => rw [paramsOptionPieces]; rfl

theorem stmtsPieces_eq (ss : List Stmt) :
    stmtsPieces ss = ss.flatMap fun s => [s.outline] := by
  induction ss with
  | nil => rw [stmtsPieces]; rfl
  | cons s ss ih =>
    have hcons : stmtsPieces (s :: ss) = s.outline :: stmtsPieces ss := by
      cases s <;> simp only [stmtsPieces, Stmt.outline]
    rw [hcons, ih]
    rfl

theorem elifsPieces_eq (clauses : List ElifClause) :
    elifsPieces clauses = clauses.flatMap fun clause => [clause.outline] := by
  induction clauses with
  | nil => rw [elifsPieces]; rfl
  | cons clause clauses ih => rw [elifsPieces, ih]; rfl

theorem blockClausePieces_eq (clause : Option BlockClause) :
    blockClausePieces clause = clause.elim [] fun clause => [clause.outline] := by
  cases clause with
  | none => rw [blockClausePieces]; rfl
  | some clause => rw [blockClausePieces]; rfl

theorem handlersPieces_eq (handlers : List ExceptClause) :
    handlersPieces handlers = handlers.flatMap fun handler => [handler.outline] := by
  induction handlers with
  | nil => rw [handlersPieces]; rfl
  | cons handler handlers ih => rw [handlersPieces, ih]; rfl

theorem Introduced.optionPieces_eq {α : Type} (inside : α → Outline)
    (part : Option (Introduced α)) :
    Introduced.optionPieces inside part = part.elim [] fun part => [part.outline inside] := by
  cases part <;> rfl

end Verbatim
