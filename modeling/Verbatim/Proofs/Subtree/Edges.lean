import Verbatim.Proofs.Derivation.Root

/-!
# The edges of a node

A node begins with a token that has text and ends with one, unless it ends with a block. Then
its last token is a `dedent`.
-/

namespace Verbatim

namespace Outline

/-! ## Nodes -/

mutual

def nodes : Outline → List (Node × List Outline)
  | token _ => []
  | node n children => (n, children) :: nodesOf children
  | part _ children => nodesOf children

/-- The nodes inside some pieces in the order of a walk, each with what is right inside it. -/
def nodesOf : List Outline → List (Node × List Outline)
  | [] => []
  | piece :: pieces => piece.nodes ++ nodesOf pieces

end

theorem nodesOf_append (left right : List Outline) :
    nodesOf (left ++ right) = nodesOf left ++ nodesOf right := by
  induction left with
  | nil => rfl
  | cons piece pieces ih => rw [List.cons_append, nodesOf, nodesOf, ih, List.append_assoc]

theorem nodesOf_token (t : Token) : nodesOf [.token t] = [] := rfl

theorem nodesOf_node (n : Node) (children : List Outline) :
    nodesOf [.node n children] = (n, children) :: nodesOf children :=
  List.append_nil _

theorem nodesOf_part (span : Span) (children : List Outline) :
    nodesOf [.part span children] = nodesOf children :=
  List.append_nil _

mutual

theorem tokens_infix_of_mem_nodes {piece : Outline} {n : Node} {children : List Outline}
    (h : (n, children) ∈ piece.nodes) : tokensOf children <:+: piece.tokens := by
  cases piece with
  | token t => cases h
  | node m inside =>
    rw [nodes] at h
    rw [tokens]
    rcases List.mem_cons.mp h with heq | h
    · cases heq
      exact List.infix_refl _
    · exact tokens_infix_of_mem_nodesOf h
  | part span inside =>
    rw [nodes] at h
    rw [tokens]
    exact tokens_infix_of_mem_nodesOf h

theorem tokens_infix_of_mem_nodesOf {pieces : List Outline} {n : Node} {children : List Outline}
    (h : (n, children) ∈ nodesOf pieces) : tokensOf children <:+: tokensOf pieces := by
  cases pieces with
  | nil => cases h
  | cons piece pieces =>
    rw [nodesOf, List.mem_append] at h
    rw [tokensOf]
    rcases h with h | h
    · exact (tokens_infix_of_mem_nodes h).trans (List.prefix_append ..).isInfix
    · exact (tokens_infix_of_mem_nodesOf h).trans (List.suffix_append ..).isInfix

end

end Outline

/-! ## First and last tokens -/

/-- Some tokens do not begin with a block marker and do not end with one that opens a block. -/
structure Token.Edged (tokens : List Token) : Prop where
  first : ∀ t, tokens.head? = some t → t.kind ≠ .indent ∧ t.kind ≠ .dedent
  last : ∀ t, tokens.getLast? = some t → t.kind ≠ .indent

namespace Token.Edged

theorem nil : Edged [] := by
  constructor <;> rintro t ⟨⟩

theorem singleton {t : Token} (h : t.kind ≠ .indent ∧ t.kind ≠ .dedent) : Edged [t] := by
  constructor
  · rintro _ ⟨⟩
    exact h
  · rintro _ ⟨⟩
    exact h.1

theorem append {ts us : List Token} (h : Edged ts) (h' : Edged us) : Edged (ts ++ us) := by
  constructor
  · intro t ht
    rw [List.head?_append, Option.or_eq_some_iff] at ht
    rcases ht with ht | ⟨-, ht⟩
    · exact h.first t ht
    · exact h'.first t ht
  · intro t ht
    rw [List.getLast?_append, Option.or_eq_some_iff] at ht
    rcases ht with ht | ⟨-, ht⟩
    · exact h'.last t ht
    · exact h.last t ht

/-- Whatever stands between two tokens does not matter. -/
theorem between {first last : Token} (hfirst : first.kind ≠ .indent ∧ first.kind ≠ .dedent)
    (hlast : last.kind ≠ .indent) (ts : List Token) : Edged (first :: (ts ++ [last])) := by
  constructor
  · rintro _ ⟨⟩
    exact hfirst
  · intro t ht
    rw [← List.cons_append, List.getLast?_concat] at ht
    cases ht
    exact hlast

end Token.Edged

namespace Outline

/-- Every node inside some pieces is edged. -/
def NodesEdged (pieces : List Outline) : Prop :=
  ∀ n children, (n, children) ∈ nodesOf pieces → Token.Edged (tokensOf children)

theorem nodesEdged_token (t : Token) : NodesEdged [.token t] := by
  intro n children h
  cases h

theorem NodesEdged.append {left right : List Outline} (h : NodesEdged left)
    (h' : NodesEdged right) : NodesEdged (left ++ right) := by
  intro n children hmem
  rw [nodesOf_append] at hmem
  rcases List.mem_append.mp hmem with hmem | hmem
  · exact h n children hmem
  · exact h' n children hmem

/-- Some pieces are edged together, and so is every node inside. -/
def Edged (pieces : List Outline) : Prop :=
  Token.Edged (tokensOf pieces) ∧ NodesEdged pieces

namespace Edged

theorem nil : Edged [] := by
  constructor
  · exact .nil
  · intro n children h
    cases h

theorem token {t : Token} (h : t.kind ≠ .indent ∧ t.kind ≠ .dedent) : Edged [.token t] :=
  ⟨.singleton h, nodesEdged_token t⟩

theorem append {left right : List Outline} (h : Edged left) (h' : Edged right) :
    Edged (left ++ right) := by
  constructor
  · rw [tokensOf_append]
    exact h.1.append h'.1
  · exact h.2.append h'.2

theorem node {n : Node} {children : List Outline} (h : Edged children) :
    Edged [.node n children] := by
  constructor
  · rw [tokensOf_node]
    exact h.1
  · intro m inside hmem
    rw [nodesOf_node] at hmem
    rcases List.mem_cons.mp hmem with heq | hmem
    · cases heq
      exact h.1
    · exact h.2 m inside hmem

theorem part {span : Span} {children : List Outline} (h : Edged children) :
    Edged [.part span children] := by
  constructor
  · rw [tokensOf_part]
    exact h.1
  · intro n inside hmem
    rw [nodesOf_part] at hmem
    exact h.2 n inside hmem

end Edged

theorem edged_composes : ComposesBlocks Edged := by
  have hordinary {t : Token} (h : t.kind.isOrdinary = true) :
      t.kind ≠ .indent ∧ t.kind ≠ .dedent := by
    constructor <;> rintro hkind <;> rw [hkind] at h <;> cases h
  have hlines : Composes Edged := by
    constructor
    · exact .nil
    · exact .append
    · exact fun h => .token (hordinary h)
    · intro b opener closer body hopener hcloser hbody
      have hnoMarker {t : Token} (h : t.kind = b.openKind ∨ t.kind = b.closeKind) :
          t.kind ≠ .indent ∧ t.kind ≠ .dedent := by
        rcases h with h | h <;> rw [h] <;> cases b <;> decide
      exact .append (.token (hnoMarker (.inl hopener)))
        (hbody.append (.token (hnoMarker (.inr hcloser))))
    · exact fun _ _ _ hchildren => .node hchildren
    · exact .part
  constructor
  · exact hlines
  · rintro t (hkind | hkind) <;> exact .token (by rw [hkind]; decide)
  · intro span typeComment newline indent dedent statements hcomment hnewline hindent hdedent _
      hstatements
    have hcomment : Edged (ofOption typeComment) := hlines.ofOption hcomment rfl
    have htokens : tokensOf (.token newline :: .token indent ::
        (stmtsPieces statements ++ [.token dedent])) =
          newline :: ((indent :: tokensOf (stmtsPieces statements)) ++ [dedent]) := by
      simp [tokensOf, tokens, tokensOf_append]
    apply Edged.node
    constructor
    · rw [tokensOf_append, htokens]
      apply hcomment.1.append
      exact .between (by rw [hnewline]; decide) (by rw [hdedent]; decide) _
    · apply hcomment.2.append
      apply (nodesEdged_token newline).append
      apply (nodesEdged_token indent).append
      exact hstatements.2.append (nodesEdged_token dedent)

end Outline

end Verbatim
