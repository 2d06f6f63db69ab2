import Verbatim.Proofs.Tree.Pieces
import Verbatim.Walk

/-!
# Properties of all events

A property of every event inside some pieces, for the ways in which the pieces of a tree are
put together.
-/

namespace Verbatim

/-- Whether a node of some sort is entered. -/
def Event.enters (p : Node → Bool) : Event → Bool
  | enter n => p n
  | _ => false

namespace Outline

variable {P : Event → Prop}

theorem exists_enter {p : Node → Bool} {pieces : List Outline}
    (h : (eventsOf pieces).any (Event.enters p) = true) :
    ∃ n, Event.enter n ∈ eventsOf pieces ∧ p n = true := by
  obtain ⟨event, hmem, hevent⟩ := List.any_eq_true.mp h
  cases event with
  | enter n => exact ⟨n, hmem, hevent⟩
  | _ => cases hevent

def Every (P : Event → Prop) (pieces : List Outline) : Prop :=
  ∀ event ∈ eventsOf pieces, P event

@[simp]
theorem every_nil : Every P [] := by
  intro event h
  cases h

theorem every_cons {piece : Outline} {pieces : List Outline} :
    Every P (piece :: pieces) ↔ Every P [piece] ∧ Every P pieces := by
  simp [Every, eventsOf, or_imp, forall_and]

@[simp]
theorem every_append {left right : List Outline} :
    Every P (left ++ right) ↔ Every P left ∧ Every P right := by
  induction left with
  | nil => simp
  | cons piece pieces ih =>
    rw [List.cons_append, every_cons, ih, ← and_assoc, ← every_cons]

@[simp]
theorem every_token {t : Token} {pieces : List Outline} :
    Every P (.token t :: pieces) ↔ P (.token t) ∧ Every P pieces := by
  simp [Every, eventsOf, events]

theorem every_node {n : Node} {children pieces : List Outline} :
    Every P (.node n children :: pieces) ↔
      (P (.enter n) ∧ Every P children ∧ P (.leave n)) ∧ Every P pieces := by
  rw [every_cons]
  refine and_congr_left fun _ => ?_
  simp [Every, eventsOf, events, or_imp, forall_and]

@[simp]
theorem every_part {span : Span} {children pieces : List Outline} :
    Every P (.part span children :: pieces) ↔ Every P children ∧ Every P pieces := by
  rw [every_cons]
  refine and_congr_left fun _ => ?_
  simp [Every, eventsOf, events]

theorem every_elim {α : Type} {pieces : α → List Outline} {o : Option α} :
    Every P (o.elim [] pieces) ↔ ∀ a, o = some a → Every P (pieces a) := by
  cases o with
  | none => simp
  | some a => simp

theorem every_ofOption {o : Option Token} :
    Every P (ofOption o) ↔ ∀ t, o = some t → P (.token t) := by
  cases o <;> simp [ofOption]

end Outline

end Verbatim
