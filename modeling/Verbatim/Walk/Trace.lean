import Verbatim.Walk

/-!
# Traces of walks

A trace keeps what a visitor is told, event by event. The policy names the nodes and
tokens at which the visitor stops the walk or passes over what is inside, and it can stop
the walk after a number of events.
-/

namespace Verbatim

def NodeSort.initial : NodeSort → String
  | .expression => "E"
  | .statement => "S"

namespace Event

def display : Event → String
  | .enter node =>
    "+" ++ node.sort.initial ++ " " ++ node.label ++ " " ++ node.span.display
  | .leave node => "-" ++ node.sort.initial ++ " " ++ node.label
  | .token t => "T " ++ t.kind.label ++ " " ++ t.span.display

end Event

structure TracePolicy where
  skip : List String
  stop : List String
  skipTokens : List String
  stopTokens : List String
  stopAfter : Option Nat
deriving DecidableEq, Repr

namespace TracePolicy

def respond (policy : TracePolicy) (skip stop : List String) (label : String) (count : Nat) :
    Response :=
  if stop.contains label || policy.stopAfter.any (· ≤ count) then .stop
  else if skip.contains label then .skip
  else .descend

def tracer (policy : TracePolicy) : Visitor (Array Event) where
  enter node events :=
    let events := events.push (.enter node)
    (policy.respond policy.skip policy.stop node.label events.size, events)
  leave node events := events.push (.leave node)
  token t events :=
    let events := events.push (.token t)
    (policy.respond policy.skipTokens policy.stopTokens t.kind.label events.size, events)

end TracePolicy

namespace Outline

def trace (policy : TracePolicy) (pieces : List Outline) : Flow (Array Event) :=
  walkAll policy.tracer pieces #[]

end Outline

end Verbatim
