import Verbatim.Proofs.Ladder.Level

/-!
# Trees on the ladder

A tree is on the ladder if each operand in it stands at a level that its operator allows.
Spans and trivia do not matter, so the tree need not come from a source.
-/

namespace Verbatim

inductive Trailer.IsMember : Trailer → Prop
  | member {span : Span} {dot name : Token} (h : dot.kind = .dot) (h' : name.kind = .name) :
      IsMember (.member span dot name)

/-- Expressions of a level with at most `depth` parentheses inside each other. -/
inductive OnLadder : Nat → Level → Expr → Prop
  | name {depth : Nat} {token : Token} (h : token.kind = .name) :
      OnLadder depth .atom (.leaf .name token)
  | number {depth : Nat} {token : Token} (h : token.kind = .number) :
      OnLadder depth .atom (.leaf .number token)
  | group {depth : Nat} {span : Span} {opener closer : Token} {body : Expr}
      (hopener : opener.kind = .leftParen) (hbody : OnLadder depth .test body)
      (hcloser : closer.kind = .rightParen) :
      OnLadder (depth + 1) .atom (.display span .tuple opener (some body) closer)
  | applied {depth : Nat} {span : Span} {await : Option Token} {atom : Expr}
      {trailers : List Trailer} (hawait : ∀ t, await = some t → t.kind = .kwAwait)
      (hatom : OnLadder depth .atom atom) (htrailers : ∀ t ∈ trailers, t.IsMember)
      (hsome : await = none → trailers ≠ []) :
      OnLadder depth .applied (.applied span await atom trailers)
  | power {depth : Nat} {span : Span} {base exponent : Expr} {op : Token}
      (hbase : OnLadder depth .applied base) (hop : op.kind = .doubleStar)
      (hexponent : OnLadder depth .factor exponent) :
      OnLadder depth .power (.binary span .power base op exponent)
  | sign {depth : Nat} {span : Span} {kind : UnaryKind} {op : Token} {operand : Expr}
      (hop : UnaryKind.sign? op.kind = some kind) (hoperand : OnLadder depth .factor operand) :
      OnLadder depth .factor (.unary span kind op operand)
  | fold {depth : Nat} {L : Level} {left : Expr} {operation : Operation}
      (hleft : OnLadder depth L left) (hoperation : L.Admits operation)
      (hright : OnLadder depth L.tighter operation.right) :
      OnLadder depth L (operation.applyTo left)
  | not {depth : Nat} {span : Span} {op : Token} {operand : Expr} (hop : op.kind = .kwNot)
      (hoperand : OnLadder depth .not operand) : OnLadder depth .not (.unary span .not op operand)
  | conditional {depth : Nat} {span : Span} {body condition alternative : Expr}
      {ifToken elseToken : Token} (hbody : OnLadder depth (.fold .or) body)
      (hif : ifToken.kind = .kwIf) (hcondition : OnLadder depth (.fold .or) condition)
      (helse : elseToken.kind = .kwElse) (halternative : OnLadder depth .test alternative) :
      OnLadder depth .test (.conditional span body ifToken condition elseToken alternative)
  | lambda {depth : Nat} {span : Span} {keyword colon : Token} {body : Expr}
      (hkeyword : keyword.kind = .kwLambda) (hcolon : colon.kind = .colon)
      (hbody : OnLadder depth .test body) :
      OnLadder depth .test (.lambda span keyword none colon body)
  | loosen {depth : Nat} {L : Level} {e : Expr} (h : OnLadder depth L.tighter e) :
      OnLadder depth L e

namespace Operation

theorem faces_applyTo (operation : Operation) (left : Expr) :
    (operation.applyTo left).faces = left.faces ++ operation.faces := by
  cases operation with
  | binary span kind op right => exact Expr.faces_binary span kind left right op
  | compound span kind first second right =>
    exact Expr.faces_compound span kind left right first second

theorem length_right_faces_le (operation : Operation) :
    operation.right.faces.length ≤ operation.faces.length := by
  cases operation <;> simp only [right, faces, List.length_cons] <;> omega

end Operation

theorem OnLadder.startsWith {depth : Nat} {L : Level} {e : Expr} (h : OnLadder depth L e) :
    L.StartsWith e.faces := by
  induction h with
  | name h =>
    rw [Expr.faces_leaf]
    exact .of_begins? (by rw [Token.face_kind, h]; rfl)
  | number h =>
    rw [Expr.faces_leaf]
    exact .of_begins? (by rw [Token.face_kind, h]; rfl)
  | group hopener _ _ _ =>
    rw [Expr.faces_display]
    exact .of_begins? (by rw [Token.face_kind, hopener]; rfl)
  | @applied _ _ await _ _ hawait _ _ _ ih =>
    rw [Expr.faces_applied]
    cases await with
    | none => exact (ih.of_rank_le (by decide)).append _
    | some t => exact .of_begins? (by rw [Token.face_kind, hawait t rfl]; rfl)
  | power _ _ _ ih _ =>
    rw [Expr.faces_binary]
    exact (ih.of_rank_le (by decide)).append _
  | sign hop _ _ =>
    rw [Expr.faces_unary]
    exact .of_begins? (UnaryKind.begins?_of_sign? hop)
  | fold _ _ _ ih _ =>
    rw [Operation.faces_applyTo]
    exact ih.append _
  | not hop _ _ =>
    rw [Expr.faces_unary]
    exact .of_begins? (by rw [Token.face_kind, hop]; rfl)
  | conditional _ _ _ _ _ ih _ _ =>
    rw [Expr.faces_conditional]
    exact (ih.of_rank_le (by decide)).append _
  | lambda hkeyword _ _ _ =>
    rw [Expr.faces_lambda_none]
    exact .of_begins? (by rw [Token.face_kind, hkeyword]; rfl)
  | loosen _ ih => exact ih.of_rank_le (Level.rank_le_tighter _)

end Verbatim
