import Verbatim.Tree.Outline

/-!
# Shapes

The shape of a tree is what is left of it without places and trivia: its nodes with their
names, what stands inside each of them, and the faces of its tokens. A grammar decides by
the faces of the tokens alone, so two sources with the same faces have trees of one shape.
-/

namespace Verbatim

/-- A token without its place and its trivia. -/
structure Face where
  kind : TokenKind
  text : Text
deriving DecidableEq, Repr

def Face.endOfFile : Face :=
  ⟨.endOfFile, []⟩

def Token.face (t : Token) : Face :=
  ⟨t.kind, t.text⟩

@[simp]
theorem Token.face_kind (t : Token) : t.face.kind = t.kind := rfl

inductive Shape where
  | token (face : Face)
  | node (label : String) (children : List Shape)
  | part (children : List Shape)
deriving Repr

namespace Outline

mutual

def shape : Outline → Shape
  | token t => .token t.face
  | node n children => .node n.label (shapesOf children)
  | part _ children => .part (shapesOf children)

def shapesOf : List Outline → List Shape
  | [] => []
  | piece :: pieces => piece.shape :: shapesOf pieces

end

end Outline

namespace Expr

def shape (e : Expr) : Shape :=
  e.outline.shape

def faces (e : Expr) : List Face :=
  e.outline.tokens.map Token.face

theorem faces_eq (e : Expr) : e.faces = (Outline.tokensOf e.pieces).map Token.face := rfl

end Expr

/-! ## Faces and shapes of expressions -/

section

open Outline (tokensOf tokens shapesOf)

attribute [local simp] Expr.pieces exprOptionPieces paramsOptionPieces tokensOf tokens

variable (span : Span)

namespace Expr

@[simp]
theorem faces_leaf (kind : LeafKind) (t : Token) : (leaf kind t).faces = [t.face] := by
  simp [faces_eq]

@[simp]
theorem faces_display (kind : DisplayKind) (opener closer : Token) (body : Expr) :
    (display span kind opener (some body) closer).faces =
      opener.face :: (body.faces ++ [closer.face]) := by
  simp [faces_eq]

@[simp]
theorem faces_binary (kind : BinaryKind) (left right : Expr) (op : Token) :
    (binary span kind left op right).faces = left.faces ++ op.face :: right.faces := by
  simp [faces_eq]

@[simp]
theorem faces_compound (kind : CompoundKind) (left right : Expr) (first second : Token) :
    (compound span kind left first second right).faces =
      left.faces ++ first.face :: second.face :: right.faces := by
  simp [faces_eq]

@[simp]
theorem faces_unary (kind : UnaryKind) (op : Token) (operand : Expr) :
    (unary span kind op operand).faces = op.face :: operand.faces := by
  simp [faces_eq]

@[simp]
theorem faces_lambda_none (keyword colon : Token) (body : Expr) :
    (lambda span keyword none colon body).faces = keyword.face :: colon.face :: body.faces := by
  simp [faces_eq]

@[simp]
theorem faces_conditional (body condition alternative : Expr) (ifToken elseToken : Token) :
    (conditional span body ifToken condition elseToken alternative).faces =
      body.faces ++ ifToken.face :: (condition.faces ++ elseToken.face :: alternative.faces) := by
  simp [faces_eq]

@[simp]
theorem faces_applied (await : Option Token) (atom : Expr) (trailers : List Trailer) :
    (applied span await atom trailers).faces =
      await.toList.map Token.face ++
        (atom.faces ++ (tokensOf (trailersPieces trailers)).map Token.face) := by
  simp [faces_eq, Outline.ofOption, Outline.tokensOf_append, Outline.tokensOf_map_token]

theorem shape_leaf (kind : LeafKind) (t : Token) :
    (leaf kind t).shape = .node kind.label [.token t.face] := rfl

theorem shape_display (kind : DisplayKind) (opener closer : Token) (body : Expr) :
    (display span kind opener (some body) closer).shape =
      .node kind.label [.token opener.face, body.shape, .token closer.face] := rfl

theorem shape_binary (kind : BinaryKind) (left right : Expr) (op : Token) :
    (binary span kind left op right).shape =
      .node kind.label [left.shape, .token op.face, right.shape] := rfl

theorem shape_compound (kind : CompoundKind) (left right : Expr) (first second : Token) :
    (compound span kind left first second right).shape =
      .node kind.label [left.shape, .token first.face, .token second.face, right.shape] := rfl

theorem shape_unary (kind : UnaryKind) (op : Token) (operand : Expr) :
    (unary span kind op operand).shape =
      .node kind.label [.token op.face, operand.shape] := rfl

theorem shape_lambda_none (keyword colon : Token) (body : Expr) :
    (lambda span keyword none colon body).shape =
      .node "Lambda" [.token keyword.face, .token colon.face, body.shape] := rfl

theorem shape_conditional (body condition alternative : Expr) (ifToken elseToken : Token) :
    (conditional span body ifToken condition elseToken alternative).shape =
      .node "Conditional" [body.shape, .token ifToken.face, condition.shape,
        .token elseToken.face, alternative.shape] := rfl

theorem shape_applied (await : Option Token) (atom : Expr) (trailers : List Trailer) :
    (applied span await atom trailers).shape =
      .node "AtomExpr" ((await.toList.map Token.face).map .token ++
        atom.shape :: shapesOf (trailersPieces trailers)) := by
  cases await <;> rfl

end Expr

end

end Verbatim
