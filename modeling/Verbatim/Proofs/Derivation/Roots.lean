import Verbatim.Proofs.Derivation.Root
import Verbatim.Proofs.Records.Paths

/-!
# What stands right inside a node

Some pieces have nodes that stand in no other node of them. Which nodes can stand there shows in
the ways to put pieces together, and what holds of every node and of each node right inside of it
holds all over a tree that is parsed.
-/

namespace Verbatim

namespace Outline

/-! ## Roots -/

/-- A property of the nodes that stand in the pieces and in no other node of them. -/
def AllRoots (P : Node → Prop) (pieces : List Outline) : Prop :=
  ∀ n, Descends pieces [n] → P n

section Roots

variable {P : Node → Prop} {n : Node} {pieces left right children : List Outline}

@[simp]
theorem allRoots_nil : AllRoots P [] :=
  fun _ h => absurd h not_descends_nil

@[simp]
theorem allRoots_append : AllRoots P (left ++ right) ↔ AllRoots P left ∧ AllRoots P right := by
  simp [AllRoots, descends_append, or_imp, forall_and]

@[simp]
theorem allRoots_token {t : Token} : AllRoots P (.token t :: pieces) ↔ AllRoots P pieces := by
  simp [AllRoots]

@[simp]
theorem allRoots_node : AllRoots P (.node n children :: pieces) ↔ P n ∧ AllRoots P pieces := by
  simp [AllRoots, Descends.here, or_imp, forall_and]

@[simp]
theorem allRoots_part {span : Span} :
    AllRoots P (.part span children :: pieces) ↔ AllRoots P children ∧ AllRoots P pieces := by
  simp [AllRoots, or_imp, forall_and]

variable {α : Type} {inside : α → List Outline}

@[simp]
theorem allRoots_elim {o : Option α} :
    AllRoots P (o.elim [] inside) ↔ ∀ a, o = some a → AllRoots P (inside a) := by
  cases o <;> simp

@[simp]
theorem allRoots_flatMap {as : List α} :
    AllRoots P (as.flatMap inside) ↔ ∀ a ∈ as, AllRoots P (inside a) := by
  induction as with
  | nil => simp
  | cons a as ih => simp [ih]

@[simp]
theorem allRoots_separated {items : Separated α} :
    AllRoots P (items.pieces inside) ↔ ∀ a ∈ items.items, AllRoots P (inside a) := by
  induction items with
  | one a => simp [Separated.pieces]
  | cons a t rest ih => simp [Separated.pieces, ih]

@[simp]
theorem allRoots_ofOption {o : Option Token} : AllRoots P (ofOption o) := by
  cases o <;> simp [ofOption]

@[simp]
theorem allRoots_tokens {ts : List Token} : AllRoots P (ts.map .token) := by
  induction ts with
  | nil => exact allRoots_nil
  | cons t ts ih => exact allRoots_token.mpr ih

@[simp]
theorem allRoots_expr {e : Expr} :
    AllRoots P (e.outline :: pieces) ↔ P (.expr e) ∧ AllRoots P pieces := by
  simp [Expr.outline]

@[simp]
theorem allRoots_exprOption {o : Option Expr} :
    AllRoots P (exprOptionPieces o) ↔ ∀ e, o = some e → P (.expr e) := by
  simp [exprOptionPieces_eq]

theorem allRoots_introduced {inside : α → Outline} {part : Option (Introduced α)} :
    AllRoots P (Introduced.optionPieces inside part) ↔
      ∀ i, part = some i → AllRoots P [inside i.value] := by
  cases part <;> simp [Introduced.optionPieces, Introduced.outline]

/-! ### Statements -/

@[simp]
theorem allRoots_value {v : Value} :
    AllRoots P (v.outline :: pieces) ↔ P (.value v) ∧ AllRoots P pieces := by
  simp [Value.outline]

@[simp]
theorem allRoots_line {l : Line} :
    AllRoots P (l.outline :: pieces) ↔ P (.line l) ∧ AllRoots P pieces := by
  simp [Line.outline]

@[simp]
theorem allRoots_small {s : Small} (hvalue : ∀ v, P (.value v)) (hsmall : ∀ s, P (.small s)) :
    AllRoots P (s.outline :: pieces) ↔ AllRoots P pieces := by
  cases s <;> simp [Small.outline, hvalue, hsmall]

@[simp]
theorem allRoots_body {b : Body} (hline : ∀ l, P (.line l))
    (hblock : ∀ span statements, P (.block span statements)) :
    AllRoots P (b.outline :: pieces) ↔ AllRoots P pieces := by
  cases b <;> simp [Body.outline, hline, hblock]

@[simp]
theorem allRoots_stmt {s : Stmt} (hline : ∀ l, P (.line l)) (hstmt : ∀ s, P (.stmt s)) :
    AllRoots P (s.outline :: pieces) ↔ AllRoots P pieces := by
  cases s <;> simp [Stmt.outline, hline, hstmt]

@[simp]
theorem allRoots_clauses {clause : Option BlockClause} (hline : ∀ l, P (.line l))
    (hblock : ∀ span statements, P (.block span statements)) :
    AllRoots P (blockClausePieces clause) := by
  rw [blockClausePieces_eq, allRoots_elim]
  rintro ⟨⟩ _
  simp [BlockClause.outline, hline, hblock]

@[simp]
theorem allRoots_decorators {decorators : List Decorator} :
    AllRoots P (decorators.map Decorator.outline) ↔ ∀ d ∈ decorators, P (.expr d.expression) := by
  simp [List.map_eq_flatMap, Decorator.outline, Decorator.pieces]

@[simp]
theorem allRoots_importTargets {targets : ImportTargets} :
    AllRoots P (targets.outline :: pieces) ↔ AllRoots P pieces := by
  cases targets <;>
    simp [ImportTargets.outline, ImportAsName.outline, ImportAsName.pieces, allRoots_introduced]

@[simp]
theorem allRoots_dottedName {name : DottedName} :
    AllRoots P (name.outline :: pieces) ↔ AllRoots P pieces := by
  simp [DottedName.outline, DottedName.pieces]

end Roots

/-! ## Neighbours on a path -/

/-- A relation of every node to each node right inside of it. -/
def Linked (R : Node → Node → Prop) (pieces : List Outline) : Prop :=
  ∀ path n m, Descends pieces (path ++ [n, m]) → R n m

section Linked

variable {R : Node → Node → Prop}

theorem linked_nil : Linked R [] := by
  rintro (_ | ⟨k, path⟩) n m h
  · exact absurd h not_descends_nil
  · exact absurd h not_descends_nil

theorem linked_append {left right : List Outline} (hleft : Linked R left)
    (hright : Linked R right) : Linked R (left ++ right) := by
  rintro (_ | ⟨k, path⟩) n m h
  · exact (descends_append.mp h).elim (hleft [] n m) (hright [] n m)
  · exact (descends_append.mp h).elim (hleft (k :: path) n m) (hright (k :: path) n m)

theorem linked_token (t : Token) : Linked R [.token t] := by
  rintro (_ | ⟨k, path⟩) n m h
  · simp at h
  · simp at h

theorem linked_part {span : Span} {children : List Outline} (h : Linked R children) :
    Linked R [.part span children] := by
  rintro (_ | ⟨k, path⟩) n m hpath
  · exact h [] n m (by simpa using hpath)
  · exact h (k :: path) n m (by simpa using hpath)

theorem linked_node {n : Node} {children : List Outline} (hn : AllRoots (R n) children)
    (h : Linked R children) : Linked R [.node n children] := by
  rintro (_ | ⟨k, path⟩) l m hpath
  · obtain ⟨rfl, hbelow⟩ : l = n ∧ Descends children [m] := by simpa using hpath
    exact hn m hbelow
  · obtain ⟨rfl, hbelow⟩ : k = n ∧ Descends children (path ++ [l, m]) := by simpa using hpath
    exact h path l m hbelow

/-- The statements of a block are all that stands right inside of it. -/
theorem linked_composes (hpieces : ∀ n, n.Derived → AllRoots (R n) n.pieces)
    (hblock : ∀ span statements, AllRoots (R (.block span statements)) (stmtsPieces statements)) :
    ComposesBlocks (Linked R) := by
  have hlines : Composes (Linked R) := by
    constructor
    · exact linked_nil
    · exact linked_append
    · exact fun _ => linked_token _
    · intro b opener closer body _ _ hbody
      exact linked_append (linked_token opener) (linked_append hbody (linked_token closer))
    · rintro n _ hn _ rfl hchildren
      exact linked_node (hpieces n hn) hchildren
    · exact linked_part
  constructor
  · exact hlines
  · exact fun _ => linked_token _
  · intro span typeComment newline indent dedent statements hcomment hnewline hindent hdedent _
      hstatements
    have hroots := hblock span statements
    refine linked_node (by simpa using hroots) ?_
    exact hlines.block_pieces (fun t _ => linked_token t) hcomment hnewline hindent hdedent
      hstatements

end Linked

end Outline

theorem Parses.linked {options : Options} {t : Text} {span : Span} {pieces : List Outline}
    {R : Node → Node → Prop} (h : Parses options t span pieces)
    (hpieces : ∀ n, n.Derived → Outline.AllRoots (R n) n.pieces)
    (hblock : ∀ span statements,
      Outline.AllRoots (R (.block span statements)) (stmtsPieces statements)) :
    Outline.Linked R pieces :=
  h.composes (Outline.linked_composes hpieces hblock)

end Verbatim
