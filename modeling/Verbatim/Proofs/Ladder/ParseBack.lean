import Verbatim.Proofs.Ladder.Complete
import Verbatim.Proofs.Scanner.Spaced

/-!
# Trees on the ladder are parsed back

A tree on the ladder can be written down as the texts of its tokens with single spaces
between them. The scanner gives the tokens back, since the parentheses of a tree fit, and
the grammar gives the tree back.
-/

namespace Verbatim

/-! ## The parentheses of a tree -/

theorem FoldLevel.isPlain_of_operator? {level : FoldLevel} {kind : TokenKind} {made : BinaryKind}
    (h : level.operator? kind = some made) : kind.isPlain = true := by
  unfold FoldLevel.operator? at h
  split at h <;> first | rfl | cases h

theorem BinaryKind.isPlain_of_comparison? {kind : TokenKind} {made : BinaryKind}
    (h : BinaryKind.comparison? kind = some made) : kind.isPlain = true := by
  unfold BinaryKind.comparison? at h
  split at h <;> first | rfl | cases h

theorem UnaryKind.isPlain_of_sign? {kind : TokenKind} {made : UnaryKind}
    (h : UnaryKind.sign? kind = some made) : kind.isPlain = true := by
  unfold UnaryKind.sign? at h
  split at h <;> first | rfl | cases h

theorem Face.Nests.plainToken {depth : Nat} {token : Token} {kind : TokenKind}
    {faces : List Face} (hkind : token.kind = kind) (hplain : kind.isPlain = true)
    (rest : Nests depth faces) : Nests depth (token.face :: faces) :=
  .plain (by rw [Token.face_kind, hkind, hplain]) rest

theorem Level.Admits.nests {L : Level} {operation : Operation} {depth : Nat} {faces : List Face}
    (h : L.Admits operation) (hright : Face.Nests depth (operation.right.faces ++ faces)) :
    Face.Nests depth (operation.faces ++ faces) := by
  cases h with
  | operator h => exact .plain (FoldLevel.isPlain_of_operator? h) hright
  | comparison h => exact .plain (BinaryKind.isPlain_of_comparison? h) hright
  | same h => exact .plainToken h rfl hright
  | notIn h h' => exact .plainToken h rfl (.plainToken h' rfl hright)
  | isNot h h' => exact .plainToken h rfl (.plainToken h' rfl hright)

theorem nests_members {trailers : List Trailer} {depth : Nat} {faces : List Face}
    (h : ∀ t ∈ trailers, t.IsMember) (hfaces : Face.Nests depth faces) :
    Face.Nests depth
      ((Outline.tokensOf (trailersPieces trailers)).map Token.face ++ faces) := by
  induction trailers with
  | nil => exact hfaces
  | cons t ts ih =>
    obtain ⟨ht, hts⟩ := List.forall_mem_cons.mp h
    cases ht with
    | member hdot hname => exact .plainToken hdot rfl (.plainToken hname rfl (ih hts))

/-- The parentheses of a tree fit, in front of whatever fits after the tree. -/
theorem OnLadder.nests {depth : Nat} {L : Level} {e : Expr} (h : OnLadder depth L e) :
    ∀ outer faces, outer + depth ≤ Bracket.maxDepth → Face.Nests outer faces →
      Face.Nests outer (e.faces ++ faces) := by
  induction h with
  | name h =>
    intro outer faces _ hfaces
    rw [Expr.faces_leaf]
    exact .plainToken h rfl hfaces
  | number h =>
    intro outer faces _ hfaces
    rw [Expr.faces_leaf]
    exact .plainToken h rfl hfaces
  | group hopener _ hcloser ih =>
    intro outer faces hdepth hfaces
    rw [Expr.faces_display, List.cons_append, List.append_assoc]
    refine .opener hopener (by omega) (ih (outer + 1) _ (by omega) ?_)
    exact .closer hcloser hfaces
  | @applied _ _ await _ _ hawait _ htrailers _ ih =>
    intro outer faces hdepth hfaces
    rw [Expr.faces_applied, List.append_assoc, List.append_assoc]
    have hatom := ih outer _ hdepth (nests_members htrailers hfaces)
    cases await with
    | none => exact hatom
    | some t => exact .plainToken (hawait t rfl) rfl hatom
  | power _ hop _ ihbase ihexponent =>
    intro outer faces hdepth hfaces
    rw [Expr.faces_binary, List.append_assoc, List.cons_append]
    exact ihbase outer _ hdepth (.plainToken hop rfl (ihexponent outer _ hdepth hfaces))
  | sign hop _ ih =>
    intro outer faces hdepth hfaces
    rw [Expr.faces_unary, List.cons_append]
    exact .plain (UnaryKind.isPlain_of_sign? hop) (ih outer _ hdepth hfaces)
  | fold _ hoperation _ ihleft ihright =>
    intro outer faces hdepth hfaces
    rw [Operation.faces_applyTo, List.append_assoc]
    exact ihleft outer _ hdepth (hoperation.nests (ihright outer _ hdepth hfaces))
  | not hop _ ih =>
    intro outer faces hdepth hfaces
    rw [Expr.faces_unary, List.cons_append]
    exact .plainToken hop rfl (ih outer _ hdepth hfaces)
  | conditional _ hif _ helse _ ihbody ihcondition ihalternative =>
    intro outer faces hdepth hfaces
    simp only [Expr.faces_conditional, List.append_assoc, List.cons_append]
    have halternative := ihalternative outer _ hdepth hfaces
    have hcondition := ihcondition outer _ hdepth (.plainToken helse rfl halternative)
    exact ihbody outer _ hdepth (.plainToken hif rfl hcondition)
  | lambda hkeyword hcolon _ ih =>
    intro outer faces hdepth hfaces
    rw [Expr.faces_lambda_none, List.cons_append, List.cons_append]
    exact .plainToken hkeyword rfl (.plainToken hcolon rfl (ih outer _ hdepth hfaces))
  | loosen _ ih => exact ih

theorem Stream.ofRun_of_shows {run : TokenRun} {face : Face} {faces : List Face}
    (h : run.tokens.map Token.face = face :: faces) :
    ∃ s, Stream.ofRun run = .ok s ∧ s.Shows (face :: faces) := by
  unfold Stream.ofRun
  cases htokens : run.tokens with
  | nil =>
    rw [htokens] at h
    cases h
  | cons token tokens =>
    rw [htokens] at h
    exact ⟨⟨token, tokens, run.failure, 0⟩, rfl, h⟩

/-- A tree on the ladder, written down as its tokens with single spaces between them, is
parsed back, whatever the options. -/
theorem parseExpression_spaced {e : Expr} (h : OnLadder 200 .test e)
    (hspelled : ∀ face ∈ e.faces, face.Spelled) (options : Options) :
    ∃ tree, parseExpression options (Text.spaced e.faces) = .ok tree ∧
      tree.body.shape = e.shape := by
  have hnests : Face.Nests 0 e.faces := by
    have hfits := h.nests 0 [] (by decide) .nil
    rwa [List.append_nil] at hfits
  obtain ⟨first, rest, hfaces, _⟩ := h.startsWith
  obtain ⟨htokens, _⟩ := TokenRun.ofText_spaced options hspelled hnests (by simp [hfaces])
  have hcons : e.faces ++ [.endOfFile] = first :: (rest ++ [.endOfFile]) := by
    rw [hfaces]
    rfl
  rw [hcons] at htokens
  obtain ⟨s, hs, hshows⟩ := Stream.ofRun_of_shows htokens
  rw [← hcons] at hshows
  obtain ⟨tree, u, hroot, hshape⟩ := h.succeeds_expressionRoot hshows
  refine ⟨tree, ?_, hshape⟩
  rw [parseExpression, parseWith, hs]
  dsimp only
  rw [hroot]
  rfl

def Token.unplaced (kind : TokenKind) (text : String) : Token :=
  ⟨kind, Span.empty 0, [], text.toList⟩

/-- The first `not` is an operator by itself and the second one a part of `not in`. -/
theorem parseExpression_spaced_of_not :
    ∃ tree, parseExpression {} "not a not in ( b )".toList = .ok tree ∧
      tree.body.shape = .node "Not" [.token ⟨.kwNot, "not".toList⟩,
        .node "NotIn" [.node "Name" [.token ⟨.name, "a".toList⟩],
          .token ⟨.kwNot, "not".toList⟩, .token ⟨.kwIn, "in".toList⟩,
          .node "Tuple" [.token ⟨.leftParen, "(".toList⟩,
            .node "Name" [.token ⟨.name, "b".toList⟩],
            .token ⟨.rightParen, ")".toList⟩]]] := by
  let span := Span.empty 0
  let left := Expr.leaf .name (.unplaced .name "a")
  let body := Expr.leaf .name (.unplaced .name "b")
  let right := Expr.display span .tuple (.unplaced .leftParen "(") (some body)
    (.unplaced .rightParen ")")
  let operation := Operation.compound span .notIn (.unplaced .kwNot "not")
    (.unplaced .kwIn "in") right
  let e := Expr.unary span .not (.unplaced .kwNot "not") (operation.applyTo left)
  have loosen_atom : ∀ {depth : Nat} {a : Expr}, OnLadder depth .atom a →
      OnLadder depth (.fold .bitOr) a := fun h =>
    .loosen (.loosen (.loosen (.loosen (.loosen (.loosen (.loosen (.loosen (.loosen h))))))))
  have hleft : OnLadder 200 .comparison left := .loosen (loosen_atom (.name rfl))
  have hbody : OnLadder 199 .test body :=
    .loosen (.loosen (.loosen (.loosen (.loosen (loosen_atom (.name rfl))))))
  have hright : OnLadder 200 (.fold .bitOr) right := loosen_atom (.group rfl hbody rfl)
  have hoperand : OnLadder 200 .comparison (operation.applyTo left) :=
    .fold hleft (.notIn rfl rfl) hright
  have he : OnLadder 200 .test e := .loosen (.loosen (.loosen (.not rfl (.loosen hoperand))))
  have hspelled : ∀ face ∈ e.faces, face.Spelled := by decide +kernel
  exact parseExpression_spaced he hspelled {}

end Verbatim
