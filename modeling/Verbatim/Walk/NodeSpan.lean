import Verbatim.Walk

/-!
# Flat records of nodes

The nodes of a tree in the order in which a walk enters them, each with its label, its
span and its depth. Such a list answers which node is innermost at an offset, and shows
whether each node lies inside the one around it.
-/

namespace Verbatim

structure NodeSpan where
  label : String
  span : Span
  depth : Nat
deriving DecidableEq, Repr

structure NodeSpans where
  records : Array NodeSpan
  depth : Nat
deriving DecidableEq, Repr

namespace NodeSpans

def none : NodeSpans := ⟨#[], 0⟩

def enter (spans : NodeSpans) (node : Node) : NodeSpans :=
  ⟨spans.records.push ⟨node.label, node.span, spans.depth⟩, spans.depth + 1⟩

def leave (spans : NodeSpans) : NodeSpans :=
  { spans with depth := spans.depth - 1 }

def collector : Visitor NodeSpans where
  enter node spans := (.descend, spans.enter node)
  leave _ spans := spans.leave
  token _ spans := (.descend, spans)

/-- The collector that stops the walk at the first node beyond a number of records. -/
def limitedCollector (limit : Nat) : Visitor NodeSpans where
  enter node spans :=
    if limit ≤ spans.records.size then (.stop, spans) else (.descend, spans.enter node)
  leave _ spans := spans.leave
  token _ spans := (.descend, spans)

end NodeSpans

namespace Outline

def nodeSpans (pieces : List Outline) : List NodeSpan :=
  (walkAll NodeSpans.collector pieces .none).state.records.toList

def firstNodeSpans (limit : Nat) (pieces : List Outline) : List NodeSpan :=
  (walkAll (NodeSpans.limitedCollector limit) pieces .none).state.records.toList

end Outline

namespace NodeSpan

def deeper (best : Option NodeSpan) (record : NodeSpan) : Option NodeSpan :=
  match best with
  | none => some record
  | some found => if found.depth ≤ record.depth then some record else some found

/-- The records whose spans contain an offset and so are not empty. -/
def allAt (records : List NodeSpan) (offset : Nat) : List NodeSpan :=
  records.filter fun record => !record.span.isEmpty && record.span.containsOffset offset

/-- The last of the deepest records whose spans contain an offset. -/
def innermostAt (records : List NodeSpan) (offset : Nat) : Option NodeSpan :=
  (allAt records offset).foldl deeper none

/-- The first record that is not inside its parent, below the open records `ancestors`,
innermost first. The parent of a record is the last one before it of lesser depth. -/
def escapeBelow (ancestors : List NodeSpan) : List NodeSpan → Option (NodeSpan × NodeSpan)
  | [] => none
  | record :: records =>
    let around := ancestors.drop (ancestors.length - record.depth)
    match around.head? with
    | some parent =>
      if parent.span.contains record.span then escapeBelow (record :: around) records
      else some (parent, record)
    | none => escapeBelow (record :: around) records

def findEscape (records : List NodeSpan) : Option (NodeSpan × NodeSpan) :=
  escapeBelow [] records

end NodeSpan

end Verbatim
