import Verbatim.Proofs.Records

/-!
# The first records

A collector that stops at a number of records stops anywhere in the tree, below any number of
nodes that it never leaves. What it has then is the beginning of what the collector without a
limit collects.
-/

namespace Verbatim

namespace Outline

open NodeSpans (limitedCollector)

/-- A walk that is to add up to `collected`, at most `limit` of them: it goes through and comes
back to its depth if the limit allows, and else stops with the first `limit` records. -/
inductive Limited (limit : Nat) (collected : List NodeSpan) (depth : Nat) :
    Flow NodeSpans → Prop where
  | through (h : collected.length ≤ limit) :
    Limited limit collected depth (.ok ⟨collected.toArray, depth⟩)
  | stopped {spans : NodeSpans} (h : limit < collected.length)
      (hrecords : spans.records.toList = collected.take limit) :
    Limited limit collected depth (.error spans)

namespace Limited

variable {limit depth : Nat} {collected : List NodeSpan} {flow : Flow NodeSpans}

theorem state_records (h : Limited limit collected depth flow) :
    flow.state.records.toList = collected.take limit := by
  cases h with
  | through hlength => exact (List.take_of_length_le hlength).symm
  | stopped hlength hrecords => exact hrecords

theorem completed_iff (h : Limited limit collected depth flow) :
    flow.completed = true ↔ collected.length ≤ limit := by
  cases h with
  | through hlength => exact iff_of_true rfl hlength
  | stopped hlength hrecords => exact iff_of_false Bool.false_ne_true (by omega)

/-- A walk that has stopped stays so, whatever would come after it. -/
theorem error_append {spans : NodeSpans} (h : Limited limit collected depth (.error spans))
    (rest : List NodeSpan) (outer : Nat) :
    Limited limit (collected ++ rest) outer (.error spans) := by
  cases h with
  | stopped hlength hrecords =>
    apply Limited.stopped
    · rw [List.length_append]
      omega
    · rw [hrecords, List.take_append_of_le_length (by omega)]

end Limited

mutual

theorem walk_limitedCollector {limit : Nat} (piece : Outline) {found : List NodeSpan}
    (depth : Nat) (h : found.length ≤ limit) :
    Limited limit (found ++ piece.records depth) depth
      (walk (limitedCollector limit) piece ⟨found.toArray, depth⟩) := by
  cases piece with
  | token t =>
    rw [records, List.append_nil]
    exact .through h
  | node n children =>
    rw [walk, records]
    by_cases hfull : limit ≤ found.length
    · have henter : (limitedCollector limit).enter n ⟨found.toArray, depth⟩ =
          (.stop, ⟨found.toArray, depth⟩) := if_pos hfull
      rw [henter]
      apply Limited.stopped
      · rw [List.length_append, List.length_cons]
        omega
      · rw [List.take_append_of_le_length hfull, List.take_of_length_le h]
    · have henter : (limitedCollector limit).enter n ⟨found.toArray, depth⟩ =
          (.descend, ⟨(found ++ [(⟨n.label, n.span, depth⟩ : NodeSpan)]).toArray, depth + 1⟩) := by
        rw [← List.push_toArray]
        exact if_neg hfull
      have hroom : (found ++ [(⟨n.label, n.span, depth⟩ : NodeSpan)]).length ≤ limit := by
        rw [List.length_append, List.length_singleton]
        omega
      have hchildren := walkAll_limitedCollector children (depth + 1) hroom
      rw [List.append_assoc, List.singleton_append] at hchildren
      rw [henter]
      dsimp only
      generalize walkAll (limitedCollector limit) children _ = flow at hchildren ⊢
      cases hchildren with
      | through hlength => exact .through hlength
      | stopped hlength hrecords => exact .stopped hlength hrecords
  | part span children =>
    rw [walk, records]
    exact walkAll_limitedCollector children depth h

theorem walkAll_limitedCollector {limit : Nat} (pieces : List Outline) {found : List NodeSpan}
    (depth : Nat) (h : found.length ≤ limit) :
    Limited limit (found ++ recordsOf depth pieces) depth
      (walkAll (limitedCollector limit) pieces ⟨found.toArray, depth⟩) := by
  cases pieces with
  | nil =>
    rw [walkAll, recordsOf, List.append_nil]
    exact .through h
  | cons piece pieces =>
    have hpiece := walk_limitedCollector piece depth h
    rw [walkAll, recordsOf, ← List.append_assoc]
    generalize walk (limitedCollector limit) piece _ = flow at hpiece ⊢
    cases flow with
    | error spans => exact hpiece.error_append _ _
    | ok spans =>
      cases hpiece with
      | through hlength => exact walkAll_limitedCollector pieces depth hlength

end

theorem limited_nodeSpans (limit : Nat) (pieces : List Outline) :
    Limited limit (nodeSpans pieces) 0 (walkAll (limitedCollector limit) pieces .none) := by
  rw [nodeSpans_eq]
  have hnone : ([] : List NodeSpan).length ≤ limit := Nat.zero_le limit
  exact walkAll_limitedCollector pieces 0 hnone

/-- With a limit the collector has the first records of the collector without one, as many as
the limit and the tree allow, and it is stopped only by a tree with more nodes than that. -/
theorem firstNodeSpans_eq_take (limit : Nat) (pieces : List Outline) :
    firstNodeSpans limit pieces = (nodeSpans pieces).take limit ∧
      (firstNodeSpans limit pieces).length = min limit (nodeSpans pieces).length ∧
      ((walkAll (limitedCollector limit) pieces .none).completed = true ↔
        (nodeSpans pieces).length ≤ limit) := by
  have hlimited := limited_nodeSpans limit pieces
  have htake : firstNodeSpans limit pieces = (nodeSpans pieces).take limit :=
    hlimited.state_records
  constructor
  · exact htake
  constructor
  · rw [htake, List.length_take]
  · exact hlimited.completed_iff

end Outline

end Verbatim
