import Mathlib.Data.List.Chain
import Verbatim.Proofs.Records

/-!
# Records and paths

The flat records of a tree tell as much as its paths do: a record has the depth of the end of a
path, the collector never leaves more nodes than it has entered, and a record escapes exactly
where the last step of a path goes to a span that is not inside the one before.
-/

namespace Verbatim

namespace Outline

/-! ## Paths -/

/-- Nodes of a tree, the first among its roots and each of the others right below the one
before it. -/
inductive Descends : List Outline → List Node → Prop where
  | here {pieces : List Outline} : Descends pieces []
  | node {pieces children : List Outline} {n : Node} {path : List Node}
    (hmem : .node n children ∈ pieces) (h : Descends children path) : Descends pieces (n :: path)
  | part {pieces children : List Outline} {span : Span} {path : List Node}
    (hmem : .part span children ∈ pieces) (h : Descends children path) : Descends pieces path

namespace Descends

theorem mono {pieces others : List Outline} {path : List Node} (h : Descends pieces path)
    (hsubset : pieces ⊆ others) : Descends others path := by
  cases h with
  | here => exact .here
  | node hmem h => exact .node (hsubset hmem) h
  | part hmem h => exact .part (hsubset hmem) h

theorem of_append {pieces : List Outline} {path below : List Node}
    (h : Descends pieces (path ++ below)) : Descends pieces path := by
  generalize hwhole : path ++ below = whole at h
  induction h generalizing path with
  | here =>
    obtain ⟨rfl, _⟩ := List.append_eq_nil_iff.mp hwhole
    exact .here
  | node hmem h ih =>
    cases path with
    | nil => exact .here
    | cons n path =>
      cases hwhole
      exact .node hmem (ih rfl)
  | part hmem h ih => exact .part hmem (ih hwhole)

end Descends

section Pieces

variable {left right children : List Outline} {n : Node} {path : List Node}

theorem descends_append :
    Descends (left ++ right) (n :: path) ↔
      Descends left (n :: path) ∨ Descends right (n :: path) := by
  constructor
  · intro h
    cases h with
    | node hmem h =>
      rcases List.mem_append.mp hmem with hmem | hmem
      · exact .inl (.node hmem h)
      · exact .inr (.node hmem h)
    | part hmem h =>
      rcases List.mem_append.mp hmem with hmem | hmem
      · exact .inl (.part hmem h)
      · exact .inr (.part hmem h)
  · rintro (h | h)
    · exact h.mono (List.subset_append_left left right)
    · exact h.mono (List.subset_append_right left right)

theorem descends_cons {piece : Outline} {pieces : List Outline} :
    Descends (piece :: pieces) (n :: path) ↔
      Descends [piece] (n :: path) ∨ Descends pieces (n :: path) := by
  rw [← descends_append, List.singleton_append]

@[simp]
theorem not_descends_nil : ¬ Descends [] (n :: path) := by
  rintro (_ | hmem | hmem) <;> cases hmem

@[simp]
theorem descends_token {t : Token} {pieces : List Outline} :
    Descends (.token t :: pieces) (n :: path) ↔ Descends pieces (n :: path) := by
  rw [descends_cons]
  refine or_iff_right ?_
  rintro (_ | hmem | hmem) <;> cases List.mem_singleton.mp hmem

@[simp]
theorem descends_node {m : Node} {pieces : List Outline} :
    Descends (.node m children :: pieces) (n :: path) ↔
      (n = m ∧ Descends children path) ∨ Descends pieces (n :: path) := by
  rw [descends_cons]
  refine or_congr_left ⟨?_, ?_⟩
  · rintro (_ | ⟨hmem, h⟩ | ⟨hmem, _⟩)
    · cases List.mem_singleton.mp hmem
      exact ⟨rfl, h⟩
    · cases List.mem_singleton.mp hmem
  · rintro ⟨rfl, h⟩
    exact .node (List.mem_singleton_self _) h

@[simp]
theorem descends_part {span : Span} {pieces : List Outline} :
    Descends (.part span children :: pieces) (n :: path) ↔
      Descends children (n :: path) ∨ Descends pieces (n :: path) := by
  rw [descends_cons]
  refine or_congr_left ⟨?_, .part (List.mem_singleton_self _)⟩
  rintro (_ | ⟨hmem, _⟩ | ⟨hmem, h⟩)
  · cases List.mem_singleton.mp hmem
  · cases List.mem_singleton.mp hmem
    exact h

end Pieces

/-- The records of the nodes of a path. -/
def recordsAlong (depth : Nat) : List Node → List NodeSpan
  | [] => []
  | n :: path => ⟨n.label, n.span, depth⟩ :: recordsAlong (depth + 1) path

/-! ## Depths -/

theorem mem_recordsOf_of_mem {pieces : List Outline} {piece : Outline} {record : NodeSpan}
    {depth : Nat} (hmem : piece ∈ pieces) (h : record ∈ piece.records depth) :
    record ∈ recordsOf depth pieces := by
  induction pieces with
  | nil => cases hmem
  | cons first pieces ih =>
    rw [recordsOf, List.mem_append]
    rcases List.mem_cons.mp hmem with rfl | hmem
    · exact .inl h
    · exact .inr (ih hmem)

mutual

theorem exists_path_of_mem_records {piece : Outline} {record : NodeSpan} {depth : Nat}
    (h : record ∈ piece.records depth) :
    ∃ path n, Descends [piece] (path ++ [n]) ∧
      record = ⟨n.label, n.span, depth + path.length⟩ := by
  cases piece with
  | token t =>
    rw [records] at h
    cases h
  | node n children =>
    rw [records] at h
    rcases List.mem_cons.mp h with rfl | h
    · exact ⟨[], n, .node (List.mem_singleton_self _) .here, rfl⟩
    · obtain ⟨path, m, hpath, rfl⟩ := exists_path_of_mem_recordsOf h
      refine ⟨n :: path, m, .node (List.mem_singleton_self _) hpath, ?_⟩
      rw [List.length_cons, Nat.add_right_comm, Nat.add_assoc]
  | part span children =>
    rw [records] at h
    obtain ⟨path, m, hpath, rfl⟩ := exists_path_of_mem_recordsOf h
    exact ⟨path, m, .part (List.mem_singleton_self _) hpath, rfl⟩

theorem exists_path_of_mem_recordsOf {pieces : List Outline} {record : NodeSpan} {depth : Nat}
    (h : record ∈ recordsOf depth pieces) :
    ∃ path n, Descends pieces (path ++ [n]) ∧
      record = ⟨n.label, n.span, depth + path.length⟩ := by
  cases pieces with
  | nil =>
    rw [recordsOf] at h
    cases h
  | cons piece pieces =>
    rw [recordsOf, List.mem_append] at h
    rcases h with h | h
    · obtain ⟨path, n, hpath, hrecord⟩ := exists_path_of_mem_records h
      exact ⟨path, n, hpath.mono (by simp), hrecord⟩
    · obtain ⟨path, n, hpath, hrecord⟩ := exists_path_of_mem_recordsOf h
      exact ⟨path, n, hpath.mono (by simp), hrecord⟩

end

theorem Descends.mem_recordsOf {pieces : List Outline} {path : List Node} {n : Node}
    (h : Descends pieces (path ++ [n])) (depth : Nat) :
    ⟨n.label, n.span, depth + path.length⟩ ∈ recordsOf depth pieces := by
  generalize hwhole : path ++ [n] = whole at h
  induction h generalizing path depth with
  | here => cases path <;> cases hwhole
  | node hmem h ih =>
    apply mem_recordsOf_of_mem hmem
    rw [records]
    cases path with
    | nil =>
      cases hwhole
      exact List.mem_cons_self ..
    | cons m path =>
      cases hwhole
      have hbelow := ih (depth + 1) rfl
      rw [Nat.add_right_comm, Nat.add_assoc] at hbelow
      exact List.mem_cons_of_mem _ hbelow
  | part hmem h ih =>
    apply mem_recordsOf_of_mem hmem
    rw [records]
    exact ih depth hwhole

theorem mem_nodeSpans_iff {pieces : List Outline} {record : NodeSpan} :
    record ∈ nodeSpans pieces ↔ ∃ path n, Descends pieces (path ++ [n]) ∧
      record = ⟨n.label, n.span, path.length⟩ := by
  rw [nodeSpans_eq]
  constructor
  · intro h
    obtain ⟨path, n, hpath, hrecord⟩ := exists_path_of_mem_recordsOf h
    rw [Nat.zero_add] at hrecord
    exact ⟨path, n, hpath, hrecord⟩
  · rintro ⟨path, n, hpath, rfl⟩
    have hmem := hpath.mem_recordsOf 0
    rw [Nat.zero_add] at hmem
    exact hmem

/-! ## The depth of the collector -/

/-- Whenever one of the events leaves a node, the depth of the collector counts that node. -/
def CountsOpen (events : List Event) : Prop :=
  ∀ before n after, events = before ++ .leave n :: after → ∀ spans : NodeSpans,
    spans.depth < (before.foldl NodeSpans.collector.tell spans).depth

theorem CountsOpen.append {events later : List Event} (h : CountsOpen events)
    (hlater : CountsOpen later)
    (hsame : ∀ spans : NodeSpans,
      (events.foldl NodeSpans.collector.tell spans).depth = spans.depth) :
    CountsOpen (events ++ later) := by
  intro before n after heq spans
  rcases List.append_eq_append_iff.mp heq with ⟨more, rfl, hmore⟩ | ⟨rest, hrest, hafter⟩
  · rw [List.foldl_append, ← hsame spans]
    exact hlater more n after hmore _
  · cases rest with
    | nil =>
      rw [List.append_nil] at hrest
      rw [← hrest, ← hsame spans]
      exact hlater [] n after hafter.symm _
    | cons event rest =>
      cases hafter
      exact h before n rest hrest spans

theorem CountsOpen.enclosed {events : List Event} (h : CountsOpen events)
    (hsame : ∀ spans : NodeSpans,
      (events.foldl NodeSpans.collector.tell spans).depth = spans.depth) (n : Node) :
    CountsOpen (.enter n :: (events ++ [.leave n])) := by
  intro before m after heq spans
  cases before with
  | nil => cases heq
  | cons event before =>
    rw [List.cons_append] at heq
    obtain ⟨rfl, hinner⟩ := List.cons.inj heq
    rw [List.foldl_cons]
    -- the node around is open, so that the events inside start one level deeper
    have hdepth : (NodeSpans.collector.tell spans (.enter n)).depth = spans.depth + 1 := rfl
    rcases List.append_eq_append_iff.mp hinner with ⟨more, rfl, hmore⟩ | ⟨rest, hrest, hafter⟩
    · cases more with
      | nil =>
        rw [List.append_nil, hsame, hdepth]
        omega
      | cons event more => cases more <;> cases hmore
    · cases rest with
      | nil =>
        rw [List.append_nil] at hrest
        rw [← hrest, hsame, hdepth]
        omega
      | cons event rest =>
        cases hafter
        have hinside := h before m rest hrest (NodeSpans.collector.tell spans (.enter n))
        omega

mutual

theorem countsOpen_events (piece : Outline) : CountsOpen piece.events := by
  cases piece with
  | token t =>
    rw [events]
    intro before n after heq
    cases before with
    | nil => cases heq
    | cons event before => cases before <;> cases heq
  | node n children =>
    rw [events]
    apply (countsOpen_eventsOf children).enclosed
    intro spans
    rw [foldl_tell_collector children]
  | part span children =>
    rw [events]
    exact countsOpen_eventsOf children

theorem countsOpen_eventsOf (pieces : List Outline) : CountsOpen (eventsOf pieces) := by
  cases pieces with
  | nil =>
    rw [eventsOf]
    intro before n after heq
    cases before <;> cases heq
  | cons piece pieces =>
    rw [eventsOf]
    apply (countsOpen_events piece).append (countsOpen_eventsOf pieces)
    intro spans
    rw [foldl_tell_collector_events piece]

end

/-! ## Escapes -/

mutual

theorem Inside.of_descends {piece : Outline} {around : Option Span}
    (hhead : ∀ n path, Descends [piece] (n :: path) →
      ∀ a, around = some a → a.contains n.span = true)
    (hbelow : ∀ path parent child, Descends [piece] (path ++ [parent, child]) →
      parent.span.contains child.span = true) : piece.Inside around := by
  cases piece with
  | token t =>
    rw [Inside]
    trivial
  | node n children =>
    have hself : Outline.node n children ∈ [Outline.node n children] :=
      List.mem_singleton_self _
    rw [Inside]
    constructor
    · exact hhead n [] (.node hself .here)
    · apply AllInside.of_descends
      · rintro m path hpath _ ⟨⟩
        have hstep : Descends children ([m] ++ path) := hpath
        exact hbelow [] n m (.node hself hstep.of_append)
      · intro path parent child hpath
        exact hbelow (n :: path) parent child (.node hself hpath)
  | part span children =>
    have hself : Outline.part span children ∈ [Outline.part span children] :=
      List.mem_singleton_self _
    rw [Inside]
    apply AllInside.of_descends
    · intro m path hpath
      exact hhead m path (.part hself hpath)
    · intro path parent child hpath
      exact hbelow path parent child (.part hself hpath)

theorem AllInside.of_descends {pieces : List Outline} {around : Option Span}
    (hhead : ∀ n path, Descends pieces (n :: path) →
      ∀ a, around = some a → a.contains n.span = true)
    (hbelow : ∀ path parent child, Descends pieces (path ++ [parent, child]) →
      parent.span.contains child.span = true) : AllInside around pieces := by
  cases pieces with
  | nil =>
    rw [AllInside]
    trivial
  | cons piece pieces =>
    have hfirst : [piece] ⊆ piece :: pieces := by simp
    have hothers : pieces ⊆ piece :: pieces := by simp
    rw [AllInside]
    constructor
    · apply Inside.of_descends
      · intro n path hpath
        exact hhead n path (hpath.mono hfirst)
      · intro path parent child hpath
        exact hbelow path parent child (hpath.mono hfirst)
    · apply AllInside.of_descends
      · intro n path hpath
        exact hhead n path (hpath.mono hothers)
      · intro path parent child hpath
        exact hbelow path parent child (hpath.mono hothers)

end

theorem AllInside.of_mem {pieces : List Outline} {piece : Outline} {around : Option Span}
    (h : AllInside around pieces) (hmem : piece ∈ pieces) : piece.Inside around := by
  induction pieces with
  | nil => cases hmem
  | cons first pieces ih =>
    rw [AllInside] at h
    rcases List.mem_cons.mp hmem with rfl | hmem
    · exact h.1
    · exact ih h.2 hmem

theorem Descends.isChain {pieces : List Outline} {path : List Node} (hpath : Descends pieces path)
    {around : Option Span} (h : AllInside around pieces) :
    List.IsChain (fun a b => a.contains b = true) (around.toList ++ path.map Node.span) := by
  induction hpath generalizing around with
  | here =>
    rw [List.map_nil, List.append_nil]
    cases around with
    | none => exact .nil
    | some a => exact .singleton a
  | node hmem hpath ih =>
    have hinside := h.of_mem hmem
    rw [Inside] at hinside
    have hbelow := ih hinside.2
    cases around with
    | none => exact hbelow
    | some a => exact .cons_cons (hinside.1 a rfl) hbelow
  | part hmem hpath ih =>
    have hinside := h.of_mem hmem
    rw [Inside] at hinside
    exact ih hinside

theorem findEscape_nodeSpans_eq_none_iff {pieces : List Outline} :
    NodeSpan.findEscape (nodeSpans pieces) = none ↔
      ∀ path parent child, Descends pieces (path ++ [parent, child]) →
        parent.span.contains child.span = true := by
  rw [findEscape_eq_none_iff]
  constructor
  · intro h path parent child hpath
    have hchain := hpath.isChain h
    rw [List.map_append] at hchain
    exact (List.isChain_cons_cons.mp hchain.right_of_append.right_of_append).1
  · intro h
    apply AllInside.of_descends _ h
    rintro n path _ _ ⟨⟩

end Outline

end Verbatim
