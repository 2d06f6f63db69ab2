import Verbatim.Proofs.Records.Paths
import Verbatim.Proofs.Spans

/-!
# The nodes around an offset

What stands beside each other in a parsed tree does not overlap, so the nodes around an offset
are one path from a root of the tree down to the innermost of them.
-/

namespace Verbatim

namespace NodeSpan

/-- A span that contains an offset is not empty, so the test for that changes nothing. -/
theorem allAt_eq_filter (records : List NodeSpan) (offset : Nat) :
    allAt records offset = records.filter fun record => record.span.containsOffset offset := by
  apply List.filter_congr
  intro record _
  cases hoffset : record.span.containsOffset offset with
  | false => exact Bool.and_false _
  | true =>
    have hbounds := Span.containsOffset_iff.mp hoffset
    have hsome : record.span.isEmpty = false := Span.isEmpty_eq_false_iff.mpr (by omega)
    rw [hsome]
    rfl

theorem innermostAt_eq_foldl_filter (records : List NodeSpan) (offset : Nat) :
    innermostAt records offset =
      (records.filter fun record => record.span.containsOffset offset).foldl deeper none := by
  rw [innermostAt, allAt_eq_filter]

theorem allAt_append (records others : List NodeSpan) (offset : Nat) :
    allAt (records ++ others) offset = allAt records offset ++ allAt others offset :=
  List.filter_append ..

theorem allAt_eq_nil_iff {records : List NodeSpan} {offset : Nat} :
    allAt records offset = [] ↔
      ∀ record ∈ records, record.span.containsOffset offset = false := by
  rw [allAt_eq_filter, List.filter_eq_nil_iff]
  simp

end NodeSpan

namespace Outline

open NodeSpan (allAt)

/-! ## Inside and outside -/

mutual

theorem Nested.contains_of_mem {source : Text} {piece : Outline} {record : NodeSpan}
    {depth : Nat} (h : piece.Nested source) (hmem : record ∈ piece.records depth) :
    piece.span.contains record.span = true := by
  cases piece with
  | token t =>
    rw [records] at hmem
    cases hmem
  | node n children =>
    rw [records] at hmem
    rw [Nested] at h
    rcases List.mem_cons.mp hmem with rfl | hmem
    · exact Span.contains_refl _
    · exact AllNested.contains_of_mem h.2.2 h.1.contains hmem
  | part span children =>
    rw [records] at hmem
    rw [Nested] at h
    exact AllNested.contains_of_mem h.2 h.1.contains hmem

theorem AllNested.contains_of_mem {source : Text} {pieces : List Outline} {record : NodeSpan}
    {depth : Nat} {around : Span} (h : AllNested source pieces)
    (haround : ∀ piece ∈ pieces, around.contains piece.span = true)
    (hmem : record ∈ recordsOf depth pieces) : around.contains record.span = true := by
  cases pieces with
  | nil =>
    rw [recordsOf] at hmem
    cases hmem
  | cons piece pieces =>
    rw [AllNested] at h
    rw [recordsOf, List.mem_append] at hmem
    rcases hmem with hmem | hmem
    · exact Span.contains_trans (haround piece (List.mem_cons_self ..))
        (Nested.contains_of_mem h.1 hmem)
    · apply AllNested.contains_of_mem h.2 _ hmem
      intro piece hpiece
      exact haround piece (List.mem_cons_of_mem _ hpiece)

end

theorem Nested.allAt_eq_nil {source : Text} {piece : Outline} {offset : Nat}
    (h : piece.Nested source) (hout : piece.span.containsOffset offset = false) (depth : Nat) :
    allAt (piece.records depth) offset = [] := by
  rw [NodeSpan.allAt_eq_nil_iff]
  intro record hmem
  have hinside := Span.contains_iff.mp (h.contains_of_mem hmem)
  rw [← Bool.not_eq_true, Span.containsOffset_iff] at hout ⊢
  omega

theorem allAt_recordsOf_eq_nil {pieces : List Outline} {offset depth : Nat}
    (h : ∀ piece ∈ pieces, allAt (piece.records depth) offset = []) :
    allAt (recordsOf depth pieces) offset = [] := by
  induction pieces with
  | nil =>
    rw [recordsOf]
    rfl
  | cons piece pieces ih =>
    rw [recordsOf, NodeSpan.allAt_append, h piece (List.mem_cons_self ..), List.nil_append]
    exact ih fun other hother => h other (List.mem_cons_of_mem _ hother)

theorem AllNested.of_mem {source : Text} {pieces : List Outline} {piece : Outline}
    (h : AllNested source pieces) (hmem : piece ∈ pieces) : piece.Nested source := by
  induction pieces with
  | nil => cases hmem
  | cons first pieces ih =>
    rw [AllNested] at h
    rcases List.mem_cons.mp hmem with rfl | hmem
    · exact h.1
    · exact ih h.2 hmem

/-! ## The path -/

mutual

theorem Nested.exists_path {source : Text} {piece : Outline} (h : piece.Nested source)
    (offset depth : Nat) :
    ∃ path, Descends [piece] path ∧
      allAt (piece.records depth) offset = recordsAlong depth path := by
  by_cases hoffset : piece.span.containsOffset offset = true
  · cases piece with
    | token t =>
      rw [records]
      exact ⟨[], .here, rfl⟩
    | node n children =>
      rw [Nested] at h
      obtain ⟨path, hpath, hrecords⟩ := AllNested.exists_path h.2.2 h.1.inOrder offset (depth + 1)
      refine ⟨n :: path, .node (List.mem_singleton_self _) hpath, ?_⟩
      have hfirst : allAt [⟨n.label, n.span, depth⟩] offset = [⟨n.label, n.span, depth⟩] := by
        rw [NodeSpan.allAt_eq_filter]
        exact List.filter_cons_of_pos hoffset
      rw [records, ← List.singleton_append, NodeSpan.allAt_append, hfirst, hrecords, recordsAlong]
      rfl
    | part span children =>
      rw [Nested] at h
      obtain ⟨path, hpath, hrecords⟩ := AllNested.exists_path h.2 h.1.inOrder offset depth
      rw [records]
      exact ⟨path, .part (List.mem_singleton_self _) hpath, hrecords⟩
  · have hnone := h.allAt_eq_nil (Bool.not_eq_true _ ▸ hoffset) depth
    exact ⟨[], .here, hnone⟩

theorem AllNested.exists_path {source : Text} {pieces : List Outline}
    (h : AllNested source pieces)
    (horder : pieces.Pairwise fun a b => a.span.stop ≤ b.span.start) (offset depth : Nat) :
    ∃ path, Descends pieces path ∧
      allAt (recordsOf depth pieces) offset = recordsAlong depth path := by
  cases pieces with
  | nil =>
    rw [recordsOf]
    exact ⟨[], .here, rfl⟩
  | cons piece pieces =>
    rw [AllNested] at h
    obtain ⟨hbefore, horder⟩ := List.pairwise_cons.mp horder
    rw [recordsOf, NodeSpan.allAt_append]
    by_cases hoffset : piece.span.containsOffset offset = true
    · -- what comes later starts behind the offset
      have hlater : allAt (recordsOf depth pieces) offset = [] := by
        apply allAt_recordsOf_eq_nil
        intro other hother
        apply (h.2.of_mem hother).allAt_eq_nil
        have hbounds := Span.containsOffset_iff.mp hoffset
        have hstart := hbefore other hother
        rw [← Bool.not_eq_true, Span.containsOffset_iff]
        omega
      obtain ⟨path, hpath, hrecords⟩ := Nested.exists_path h.1 offset depth
      rw [hlater, List.append_nil]
      exact ⟨path, hpath.mono (by simp), hrecords⟩
    · have hnone := h.1.allAt_eq_nil (Bool.not_eq_true _ ▸ hoffset) depth
      obtain ⟨path, hpath, hrecords⟩ := AllNested.exists_path h.2 horder offset depth
      rw [hnone, List.nil_append]
      exact ⟨path, hpath.mono (by simp), hrecords⟩

end

/-! ## The innermost record -/

/-- Below a node no record is less deep, so the search goes on to the end of the path. -/
theorem foldl_deeper_recordsAlong (path : List Node) (best : NodeSpan) {depth : Nat}
    (h : best.depth ≤ depth) :
    (recordsAlong depth path).foldl NodeSpan.deeper (some best) =
      (best :: recordsAlong depth path).getLast? := by
  induction path generalizing best depth with
  | nil => rfl
  | cons n path ih =>
    have hdeeper : NodeSpan.deeper (some best) ⟨n.label, n.span, depth⟩ =
        some ⟨n.label, n.span, depth⟩ := if_pos h
    rw [recordsAlong, List.foldl_cons, hdeeper, ih _ (Nat.le_succ depth), List.getLast?_cons_cons]

theorem innermostAt_eq_getLast? {records : List NodeSpan} {offset depth : Nat}
    {path : List Node} (h : allAt records offset = recordsAlong depth path) :
    NodeSpan.innermostAt records offset = (recordsAlong depth path).getLast? := by
  rw [NodeSpan.innermostAt, h]
  cases path with
  | nil => rfl
  | cons n path => exact foldl_deeper_recordsAlong path _ (Nat.le_succ depth)

end Outline

/-! ## Modules -/

theorem Stmt.exists_outline (s : Stmt) :
    ∃ n children, s.outline = .node n children ∧ n.span = s.span := by
  cases s with
  | line l => exact ⟨.line l, _, rfl, rfl⟩
  | _ => exact ⟨.stmt _, _, rfl, rfl⟩

namespace ModuleTree

open NodeSpan (allAt)
open Outline (nodeSpans recordsOf)

theorem mem_pieces_of_mem {tree : ModuleTree} {s : Stmt} (h : s ∈ tree.statements) :
    s.outline ∈ tree.pieces := by
  rw [pieces, stmtsPieces_eq, List.mem_append]
  exact .inl (List.mem_flatMap.mpr ⟨s, h, List.mem_singleton_self _⟩)

/-- The statements are the only pieces of a module with nodes in them. -/
theorem allAt_nodeSpans_eq_nil_iff {source : Text} {tree : ModuleTree}
    (h : Outline.AllNested source tree.pieces) (offset : Nat) :
    allAt (nodeSpans tree.pieces) offset = [] ↔
      ∀ s ∈ tree.statements, s.span.containsOffset offset = false := by
  rw [Outline.nodeSpans_eq]
  constructor
  · intro hnone s hs
    obtain ⟨n, children, houtline, hspan⟩ := s.exists_outline
    have hrecord : ⟨n.label, n.span, 0⟩ ∈ recordsOf 0 tree.pieces := by
      apply Outline.mem_recordsOf_of_mem (mem_pieces_of_mem hs)
      rw [houtline, Outline.records]
      exact List.mem_cons_self ..
    rw [← hspan]
    exact NodeSpan.allAt_eq_nil_iff.mp hnone _ hrecord
  · intro hout
    apply Outline.allAt_recordsOf_eq_nil
    intro piece hpiece
    have hnested := h.of_mem hpiece
    rw [pieces, stmtsPieces_eq, List.mem_append] at hpiece
    rcases hpiece with hpiece | hpiece
    · obtain ⟨s, hs, hpiece⟩ := List.mem_flatMap.mp hpiece
      obtain rfl := List.mem_singleton.mp hpiece
      obtain ⟨n, children, houtline, hspan⟩ := s.exists_outline
      apply hnested.allAt_eq_nil
      rw [houtline, Outline.span, hspan]
      exact hout s hs
    · obtain rfl := List.mem_singleton.mp hpiece
      rw [Outline.records]
      rfl

end ModuleTree

open Outline (eventsOf nodeSpans recordsOf recordsAlong Descends CountsOpen)

/-- The records of any tree are its nodes in pre-order, each as deep as the end of a path to it,
collected without leaving more nodes than were entered, and one escapes exactly where a node
reaches out of the one around it. In a parsed module the records around an offset are those of
a path, and the innermost one is its end. -/
theorem records_follow_paths :
    (∀ pieces : List Outline,
      nodeSpans pieces = recordsOf 0 pieces ∧
      (∀ record, record ∈ nodeSpans pieces ↔ ∃ path n, Descends pieces (path ++ [n]) ∧
        record = ⟨n.label, n.span, path.length⟩) ∧
      (∀ spans : NodeSpans, Outline.walkAll NodeSpans.collector pieces spans =
        .ok ((eventsOf pieces).foldl NodeSpans.collector.tell spans)) ∧
      CountsOpen (eventsOf pieces) ∧
      (NodeSpan.findEscape (nodeSpans pieces) = none ↔
        ∀ path parent child, Descends pieces (path ++ [parent, child]) →
          parent.span.contains child.span = true)) ∧
    ∀ (options : Options) (t : Text) (tree : ModuleTree), parseModule options t = .ok tree →
      ∀ offset, ∃ path, Descends tree.pieces path ∧
        NodeSpan.allAt (nodeSpans tree.pieces) offset = recordsAlong 0 path ∧
        NodeSpan.innermostAt (nodeSpans tree.pieces) offset = (recordsAlong 0 path).getLast? ∧
        (NodeSpan.innermostAt (nodeSpans tree.pieces) offset = none ↔
          ∀ s ∈ tree.statements, s.span.containsOffset offset = false) := by
  constructor
  · intro pieces
    exact ⟨Outline.nodeSpans_eq pieces, fun _ => Outline.mem_nodeSpans_iff,
      Outline.walkAll_eq_foldl Outline.collector_continues pieces,
      Outline.countsOpen_eventsOf pieces, Outline.findEscape_nodeSpans_eq_none_iff⟩
  · intro options t tree htree offset
    obtain ⟨hframes, hnested, _⟩ := spans_nest (.module htree)
    obtain ⟨path, hpath, hrecords⟩ := hnested.exists_path hframes.inOrder offset 0
    rw [← Outline.nodeSpans_eq] at hrecords
    have hinnermost := Outline.innermostAt_eq_getLast? hrecords
    refine ⟨path, hpath, hrecords, hinnermost, ?_⟩
    rw [hinnermost, List.getLast?_eq_none_iff, ← hrecords]
    exact ModuleTree.allAt_nodeSpans_eq_nil_iff hnested offset

/-- The argument of a call, two nodes below its statement. -/
theorem records_follow_paths_of_call :
    ∃ tree path, parseModule {} "f(x)\n".toList = .ok tree ∧ Descends tree.pieces path ∧
      NodeSpan.allAt (nodeSpans tree.pieces) 2 = recordsAlong 0 path ∧
      NodeSpan.innermostAt (nodeSpans tree.pieces) 2 = (recordsAlong 0 path).getLast? := by
  have hparses : (parseModule {} "f(x)\n".toList).toOption.isSome = true := by
    decide +kernel
  rcases htree : parseModule {} "f(x)\n".toList with error | tree
  · rw [htree] at hparses
    cases hparses
  · obtain ⟨path, hpath, hrecords, hinnermost, _⟩ :=
      records_follow_paths.2 {} "f(x)\n".toList tree htree 2
    exact ⟨tree, path, rfl, hpath, hrecords, hinnermost⟩

end Verbatim
