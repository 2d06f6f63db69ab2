import Verbatim.SourceBuffer
import Verbatim.Walk

/-!
# Walks that are never cut short

A visitor that always lets the walk go on is told of every event, in source order, and its
state at the end is what the events make of it. Writing a tree back is such a walk.
-/

namespace Verbatim

namespace Visitor

variable {σ : Type}

/-- The visitor never stops the walk and never passes over a node. -/
structure Continues (visitor : Visitor σ) : Prop where
  enter : ∀ node s, (visitor.enter node s).1 = .descend
  token : ∀ t s, (visitor.token t s).1 = .descend

def tell (visitor : Visitor σ) (s : σ) : Event → σ
  | .enter node => (visitor.enter node s).2
  | .leave node => visitor.leave node s
  | .token t => (visitor.token t s).2

theorem Continues.enter_eq {visitor : Visitor σ} (h : visitor.Continues) (node : Node) (s : σ) :
    visitor.enter node s = (.descend, visitor.tell s (.enter node)) := by
  rw [← h.enter node s]
  rfl

theorem Continues.token_eq {visitor : Visitor σ} (h : visitor.Continues) (t : Token) (s : σ) :
    visitor.token t s = (.descend, visitor.tell s (.token t)) := by
  rw [← h.token t s]
  rfl

end Visitor

def Event.token? : Event → Option Token
  | .token t => some t
  | _ => none

namespace Outline

variable {σ : Type} {visitor : Visitor σ}

mutual

theorem walk_eq_foldl (h : visitor.Continues) (piece : Outline) (s : σ) :
    walk visitor piece s = .ok (piece.events.foldl visitor.tell s) := by
  cases piece with
  | token t =>
    rw [walk, h.token_eq, events]
    rfl
  | node n children =>
    rw [walk, h.enter_eq, events]
    dsimp only
    rw [walkAll_eq_foldl h children]
    simp [Visitor.tell]
  | part span children =>
    rw [walk, walkAll_eq_foldl h children, events]

theorem walkAll_eq_foldl (h : visitor.Continues) (pieces : List Outline) (s : σ) :
    walkAll visitor pieces s = .ok ((eventsOf pieces).foldl visitor.tell s) := by
  cases pieces with
  | nil =>
    rw [walkAll, eventsOf]
    rfl
  | cons piece pieces =>
    rw [walkAll, walk_eq_foldl h piece, eventsOf, List.foldl_append]
    dsimp only
    rw [walkAll_eq_foldl h pieces]

end

mutual

theorem filterMap_token?_events (piece : Outline) :
    piece.events.filterMap Event.token? = piece.tokens := by
  cases piece with
  | token t =>
    rw [events, tokens]
    rfl
  | node n children =>
    rw [events, tokens]
    change (eventsOf children ++ [Event.leave n]).filterMap Event.token? = _
    rw [List.filterMap_append, filterMap_token?_eventsOf children]
    exact List.append_nil _
  | part span children => rw [events, tokens, filterMap_token?_eventsOf children]

theorem filterMap_token?_eventsOf (pieces : List Outline) :
    (eventsOf pieces).filterMap Event.token? = tokensOf pieces := by
  cases pieces with
  | nil =>
    rw [eventsOf, tokensOf]
    rfl
  | cons piece pieces =>
    rw [eventsOf, tokensOf, List.filterMap_append, filterMap_token?_events piece,
      filterMap_token?_eventsOf pieces]

end

end Outline

/-! ## Writing -/

namespace SourceBuffer

def writer : Visitor SourceBuffer where
  enter _ buffer := (.descend, buffer)
  leave _ buffer := buffer
  token t buffer := (.descend, buffer.addToken t)

theorem writer_continues : writer.Continues :=
  ⟨fun _ _ => rfl, fun _ _ => rfl⟩

theorem foldl_tell_writer (events : List Event) (buffer : SourceBuffer) :
    events.foldl writer.tell buffer = buffer.addTokens (events.filterMap Event.token?) := by
  induction events generalizing buffer with
  | nil => rfl
  | cons event events ih =>
    cases event with
    | enter node => exact ih buffer
    | leave node => exact ih buffer
    | token t => exact ih (buffer.addToken t)

theorem walkAll_writer (pieces : List Outline) (buffer : SourceBuffer) :
    Outline.walkAll writer pieces buffer = .ok (buffer.addPieces pieces) := by
  rw [Outline.walkAll_eq_foldl writer_continues, foldl_tell_writer,
    Outline.filterMap_token?_eventsOf]
  rfl

end SourceBuffer

end Verbatim
