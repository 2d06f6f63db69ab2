import Verbatim.Proofs.Derivation.Compose
import Verbatim.Proofs.Tree.Every

/-!
# What stands inside a derived tree

Every node inside a derived tree is itself derived, so a property of single nodes that
follows from the last production holds everywhere in the tree. No token inside an expression
or a small statement is a structural marker: it stays on its logical line.
-/

namespace Verbatim

open Outline (Every)

/-! ## Events inside -/

namespace Event

def Derived : Event → Prop
  | enter n => n.Derived
  | _ => True

/-- The event is that of a derived tree and no structural marker. -/
def Inline : Event → Prop
  | enter n => n.Derived
  | leave _ => True
  | token t => t.kind.isStructural = false

@[simp]
theorem inline_token {t : Token} : Inline (.token t) ↔ t.kind.isStructural = false := Iff.rfl

@[simp]
theorem derived_token {t : Token} : Derived (.token t) := trivial

end Event

theorem Bracket.isStructural_openKind (b : Bracket) : b.openKind.isStructural = false := by
  cases b <;> rfl

theorem Bracket.isStructural_closeKind (b : Bracket) : b.closeKind.isStructural = false := by
  cases b <;> rfl

theorem Outline.inline_composes : Composes (Every Event.Inline) where
  nil := every_nil
  append hleft hright := every_append.mpr ⟨hleft, hright⟩
  ordinary hordinary := every_token.mpr ⟨TokenKind.isStructural_of_isOrdinary hordinary, every_nil⟩
  enclosed {b opener closer body} hopener hcloser hbody := by
    have hopen := b.isStructural_openKind
    have hclose := b.isStructural_closeKind
    rw [← hopener] at hopen
    rw [← hcloser] at hclose
    simp [hopen, hclose, hbody]
  node hn _ _ hchildren := every_node.mpr ⟨⟨hn, hchildren, trivial⟩, every_nil⟩
  part hchildren := every_part.mpr ⟨hchildren, every_nil⟩

theorem Outline.derived_composes : ComposesBlocks (Every Event.Derived) where
  nil := every_nil
  append hleft hright := every_append.mpr ⟨hleft, hright⟩
  ordinary _ := every_token.mpr ⟨trivial, every_nil⟩
  enclosed _ _ hbody := by simp [hbody]
  node hn _ _ hchildren := every_node.mpr ⟨⟨hn, hchildren, trivial⟩, every_nil⟩
  part hchildren := every_part.mpr ⟨hchildren, every_nil⟩
  mark _ := every_token.mpr ⟨trivial, every_nil⟩
  block _ _ _ _ hderived hstatements := by
    rw [Body.outline, every_node]
    refine ⟨⟨hderived, ?_, trivial⟩, every_nil⟩
    simp [every_ofOption, hstatements]

/-! ## Events on a line -/

section Line

variable {α : Type} {kind : TokenKind} {post : α → Prop}

theorem Derives.every_outline {P : Phrase} {e : Expr} (h : Derives P (.expr e)) :
    Every Event.Inline [e.outline] :=
  h.composes Outline.inline_composes

theorem Derives.every_own {P : Phrase} {n : Node} (h : Derives P n) : Every Event.Inline n.own :=
  h.composes Outline.inline_composes

theorem every_introduced {inside : α → Outline} {part : Introduced α}
    (hordinary : kind.isOrdinary = true) (h : part.By kind post)
    (hinside : ∀ a, post a → Every Event.Inline [inside a]) :
    Every Event.Inline [part.outline inside] :=
  Outline.inline_composes.introduced hordinary h hinside

theorem every_row {inside : α → List Outline} {row : Separated α}
    (hordinary : kind.isOrdinary = true) (h : row.By kind post)
    (hinside : ∀ a, post a → Every Event.Inline (inside a)) :
    Every Event.Inline (row.pieces inside) :=
  Outline.inline_composes.row hordinary h hinside

/-- Only the line break of a line is a structural marker. -/
theorem Line.Derived.every_inline {l : Line} (h : l.Derived) :
    Every Event.Inline ((l.statements.pieces fun s => [s.outline]) ++
      Outline.ofOption l.trailing ++ Outline.ofOption l.typeComment) :=
  h.composes Outline.inline_composes

theorem WithItem.Derived.every {item : WithItem} (h : item.Derived) :
    Every Event.Inline [item.outline] :=
  h.composes Outline.inline_composes

theorem Caught.Derived.every {c : Caught} (h : c.Derived) : Every Event.Inline c.pieces :=
  h.composes Outline.inline_composes

theorem ClassArguments.Derived.every {a : ClassArguments} (h : a.Derived) :
    Every Event.Inline a.pieces :=
  h.composes Outline.inline_composes

end Line

end Verbatim
