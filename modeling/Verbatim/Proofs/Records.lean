import Verbatim.Proofs.Nesting
import Verbatim.Proofs.Walk
import Verbatim.Walk.NodeSpan

/-!
# The records of nested nodes

The collector records the nodes of a tree in the order of a walk, each with the number of
nodes around it. A record escapes exactly where some node reaches out of the one around it.
-/

namespace Verbatim

namespace Outline

mutual

def records (depth : Nat) : Outline → List NodeSpan
  | token _ => []
  | node n children => ⟨n.label, n.span, depth⟩ :: recordsOf (depth + 1) children
  | part _ children => recordsOf depth children

def recordsOf (depth : Nat) : List Outline → List NodeSpan
  | [] => []
  | piece :: pieces => piece.records depth ++ recordsOf depth pieces

end

theorem collector_continues : NodeSpans.collector.Continues :=
  ⟨fun _ _ => rfl, fun _ _ => rfl⟩

mutual

theorem foldl_tell_collector_events (piece : Outline) (rs : Array NodeSpan) (depth : Nat) :
    piece.events.foldl NodeSpans.collector.tell ⟨rs, depth⟩ =
      ⟨rs ++ piece.records depth, depth⟩ := by
  cases piece with
  | token t =>
    rw [events, records]
    simp [Visitor.tell, NodeSpans.collector]
  | node n children =>
    rw [events, records, List.foldl_cons, List.foldl_append]
    change NodeSpans.collector.tell (List.foldl NodeSpans.collector.tell
      ⟨rs.push ⟨n.label, n.span, depth⟩, depth + 1⟩ (eventsOf children)) (.leave n) = _
    rw [foldl_tell_collector children]
    simp [Visitor.tell, NodeSpans.collector, NodeSpans.leave]
  | part span children => rw [events, records, foldl_tell_collector children]

theorem foldl_tell_collector (pieces : List Outline) (rs : Array NodeSpan) (depth : Nat) :
    (eventsOf pieces).foldl NodeSpans.collector.tell ⟨rs, depth⟩ =
      ⟨rs ++ recordsOf depth pieces, depth⟩ := by
  cases pieces with
  | nil =>
    rw [eventsOf, recordsOf]
    simp
  | cons piece pieces =>
    rw [eventsOf, recordsOf, List.foldl_append, foldl_tell_collector_events piece,
      foldl_tell_collector pieces]
    congr 1
    apply Array.ext'
    simp

end

theorem nodeSpans_eq (pieces : List Outline) : nodeSpans pieces = recordsOf 0 pieces := by
  rw [nodeSpans, walkAll_eq_foldl collector_continues, NodeSpans.none,
    foldl_tell_collector pieces]
  simp [Flow.state]

end Outline

namespace NodeSpan

/-- What is found in `rest` below the records `around`, whatever records of deeper nodes are
still open: nothing escapes exactly when `inside` holds. -/
def Decides (around rest : List NodeSpan) (inside : Prop) : Prop :=
  ∀ ancestors, around.length ≤ ancestors.length →
    ancestors.drop (ancestors.length - around.length) = around →
    (escapeBelow ancestors rest = none ↔ inside)

theorem decides_nil (around : List NodeSpan) : Decides around [] True :=
  fun _ _ _ => iff_of_true rfl trivial

theorem Decides.congr {around rest : List NodeSpan} {inside other : Prop}
    (h : Decides around rest inside) (hiff : inside ↔ other) : Decides around rest other :=
  fun ancestors hlength hdrop => (h ancestors hlength hdrop).trans hiff

theorem Decides.cons {around rest : List NodeSpan} {record : NodeSpan} {inside : Prop}
    (h : Decides (record :: around) rest inside) (hdepth : record.depth = around.length) :
    Decides around (record :: rest)
      ((∀ parent, around.head? = some parent → parent.span.contains record.span = true) ∧
        inside) := by
  intro ancestors hlength hdrop
  have hrest := h (record :: around) (Nat.le_refl _) (by simp)
  rw [escapeBelow, hdepth, hdrop, ← hrest]
  cases hparent : around.head? with
  | none => simp
  | some parent =>
    by_cases hinside : parent.span.contains record.span = true
    · simp [hinside]
    · simp [hinside]

theorem Decides.pop {around rest : List NodeSpan} {record : NodeSpan} {inside : Prop}
    (h : Decides around rest inside) : Decides (record :: around) rest inside := by
  intro ancestors hlength hdrop
  rw [List.length_cons] at hlength hdrop
  apply h ancestors (by omega)
  have hone : ancestors.length - around.length =
      1 + (ancestors.length - (around.length + 1)) := by omega
  rw [hone, Nat.add_comm, ← List.drop_drop, hdrop]
  rfl

end NodeSpan

namespace Outline

open NodeSpan (Decides)

mutual

/-- Each node lies inside the one around it, and the outermost ones inside `around`. -/
def Inside (around : Option Span) : Outline → Prop
  | token _ => True
  | node n children =>
    (∀ a, around = some a → a.contains n.span = true) ∧ AllInside (some n.span) children
  | part _ children => AllInside around children

def AllInside (around : Option Span) : List Outline → Prop
  | [] => True
  | piece :: pieces => piece.Inside around ∧ AllInside around pieces

end

mutual

theorem decides_records (piece : Outline) {around rest : List NodeSpan} {inside : Prop}
    (h : Decides around rest inside) :
    Decides around (piece.records around.length ++ rest)
      (piece.Inside (around.head?.map NodeSpan.span) ∧ inside) := by
  cases piece with
  | token t =>
    rw [records, Inside, true_and]
    exact h
  | node n children =>
    rw [records, Inside, List.cons_append]
    -- what follows the node finds the node's record still open and has to pop it
    have hpopped : Decides (⟨n.label, n.span, around.length⟩ :: around) rest inside := h.pop
    apply ((decides_recordsOf children hpopped).cons rfl).congr
    cases around.head? with
    | none => simp
    | some parent => simp [and_assoc]
  | part span children =>
    rw [records, Inside]
    exact decides_recordsOf children h

theorem decides_recordsOf (pieces : List Outline) {around rest : List NodeSpan} {inside : Prop}
    (h : Decides around rest inside) :
    Decides around (recordsOf around.length pieces ++ rest)
      (AllInside (around.head?.map NodeSpan.span) pieces ∧ inside) := by
  cases pieces with
  | nil =>
    rw [recordsOf, AllInside, true_and]
    exact h
  | cons piece pieces =>
    rw [recordsOf, AllInside, List.append_assoc, and_assoc]
    exact decides_records piece (decides_recordsOf pieces h)

end

theorem findEscape_eq_none_iff (pieces : List Outline) :
    NodeSpan.findEscape (nodeSpans pieces) = none ↔ AllInside none pieces := by
  have hdecides := decides_recordsOf pieces (NodeSpan.decides_nil []) [] (Nat.le_refl _) rfl
  rw [List.append_nil, and_true] at hdecides
  rw [nodeSpans_eq, NodeSpan.findEscape]
  exact hdecides

mutual

theorem Nested.inside {source : Text} {piece : Outline} {around : Option Span}
    (h : piece.Nested source) (hinside : ∀ a, around = some a → a.contains piece.span = true) :
    piece.Inside around := by
  cases piece with
  | token t =>
    rw [Inside]
    trivial
  | node n children =>
    rw [Nested] at h
    rw [Inside]
    constructor
    · exact hinside
    · apply AllNested.inside h.2.2
      rintro piece hpiece _ ⟨⟩
      exact h.1.contains piece hpiece
  | part span children =>
    rw [Nested] at h
    rw [Inside]
    apply AllNested.inside h.2
    intro piece hpiece a ha
    exact Span.contains_trans (hinside a ha) (h.1.contains piece hpiece)

theorem AllNested.inside {source : Text} {pieces : List Outline} {around : Option Span}
    (h : AllNested source pieces)
    (hinside : ∀ piece ∈ pieces, ∀ a, around = some a → a.contains piece.span = true) :
    AllInside around pieces := by
  cases pieces with
  | nil =>
    rw [AllInside]
    trivial
  | cons piece pieces =>
    rw [AllNested] at h
    rw [AllInside]
    constructor
    · exact Nested.inside h.1 (hinside piece (List.mem_cons_self ..))
    · apply AllNested.inside h.2
      intro piece hpiece
      exact hinside piece (List.mem_cons_of_mem _ hpiece)

end

theorem findEscape_eq_none {source : Text} {pieces : List Outline}
    (h : AllNested source pieces) : NodeSpan.findEscape (nodeSpans pieces) = none := by
  rw [findEscape_eq_none_iff]
  apply AllNested.inside h
  rintro piece _ _ ⟨⟩

end Outline

end Verbatim
