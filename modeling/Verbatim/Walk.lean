import Verbatim.Tree.Outline

/-!
# Walks

A visitor is told of each node when the walk enters it and when it leaves it, and of each
token, in source order. A part that is no node goes unannounced. The answer to a node lets
the walk go into the node, pass over what is inside, or stop. A walk that stops makes no
further call, not even to leave the nodes that are open.
-/

namespace Verbatim

inductive Response where
  | descend | skip | stop
deriving DecidableEq, Repr

structure Visitor (σ : Type) where
  enter : Node → σ → Response × σ
  leave : Node → σ → σ
  token : Token → σ → Response × σ

/-- The state at the end of a walk, as a value if the walk went through and as an error if the
visitor stopped it. -/
abbrev Flow (σ : Type) := Except σ σ

namespace Flow

def state {σ : Type} : Flow σ → σ
  | .ok s => s
  | .error s => s

def completed {σ : Type} : Flow σ → Bool
  | .ok _ => true
  | .error _ => false

end Flow

namespace Outline

mutual

/-- The visitor's answer to a token can only stop the walk. -/
def walk {σ : Type} (visitor : Visitor σ) : Outline → σ → Flow σ
  | .token t, s =>
    match visitor.token t s with
    | (.stop, s) => .error s
    | (_, s) => .ok s
  | .node n children, s =>
    match visitor.enter n s with
    | (.stop, s) => .error s
    | (.skip, s) => .ok (visitor.leave n s)
    | (.descend, s) =>
      match walkAll visitor children s with
      | .error s => .error s
      | .ok s => .ok (visitor.leave n s)
  | .part _ children, s => walkAll visitor children s

def walkAll {σ : Type} (visitor : Visitor σ) : List Outline → σ → Flow σ
  | [], s => .ok s
  | piece :: pieces, s =>
    match walk visitor piece s with
    | .error s => .error s
    | .ok s => walkAll visitor pieces s

end

end Outline

inductive Event where
  | enter (node : Node)
  | leave (node : Node)
  | token (token : Token)

namespace Outline

mutual

/-- All that a visitor is told of if it never cuts the walk short. -/
def events : Outline → List Event
  | .token t => [.token t]
  | .node n children => .enter n :: (eventsOf children ++ [.leave n])
  | .part _ children => eventsOf children

def eventsOf : List Outline → List Event
  | [] => []
  | piece :: pieces => piece.events ++ eventsOf pieces

end

end Outline

end Verbatim
