import Verbatim.Proofs.Walk

/-!
# A walk as the interpretation of its events

The events of a tree stand in one row, whatever a visitor answers. A walk is the interpretation of
that row by a machine that knows nothing of the tree: it goes from event to event, on `skip` it
jumps to the leave event of the node that it has just entered, and on `stop` it halts. The calls
that the visitor gets, its state at the end and the way in which the walk ends are those of the
machine.
-/

namespace Verbatim

/-- A call of a visitor, with the answer if there is one. -/
structure Callback where
  event : Event
  answer : Option Response

namespace Flow

variable {σ τ : Type}

def map (f : σ → τ) : Flow σ → Flow τ
  | .ok s => .ok (f s)
  | .error s => .error (f s)

end Flow

/-- The calls that a machine makes, in order, and how it ends. -/
structure Interpretation (σ : Type) where
  calls : List Callback
  flow : Flow σ

namespace Interpretation

variable {σ : Type}

def call (callback : Callback) (rest : Interpretation σ) : Interpretation σ :=
  { rest with calls := callback :: rest.calls }

/-- No call has been answered by `stop`. -/
def Unstopped (run : Interpretation σ) : Prop :=
  ∀ callback ∈ run.calls, callback.answer ≠ some .stop

@[simp]
theorem flow_call (callback : Callback) (rest : Interpretation σ) :
    (rest.call callback).flow = rest.flow :=
  rfl

theorem unstopped_call {callback : Callback} {rest : Interpretation σ} :
    (rest.call callback).Unstopped ↔ callback.answer ≠ some .stop ∧ rest.Unstopped :=
  List.forall_mem_cons

/-- The end of a run, with a record of calls made before it and of its own. -/
def after (calls : List Callback) (run : Interpretation σ) : Flow (List Callback × σ) :=
  run.flow.map fun s => (calls ++ run.calls, s)

theorem after_call (calls : List Callback) (callback : Callback) (rest : Interpretation σ) :
    (rest.call callback).after calls = rest.after (calls ++ [callback]) := by
  simp [after, call]

end Interpretation

/-! ## The machine -/

namespace Event

/-- The events from the leave event on that belongs to the innermost open node, when `depth` nodes
inside it are open as well. -/
def toLeave : Nat → List Event → List Event
  | _, [] => []
  | depth, .enter _ :: rest => toLeave (depth + 1) rest
  | 0, .leave node :: rest => .leave node :: rest
  | depth + 1, .leave _ :: rest => toLeave depth rest
  | depth, .token _ :: rest => toLeave depth rest

theorem length_toLeave_le (depth : Nat) (events : List Event) :
    (toLeave depth events).length ≤ events.length := by
  fun_induction toLeave depth events with
  | case1 => exact Nat.le_refl 0
  | case2 _ _ _ ih => exact Nat.le_succ_of_le ih
  | case3 => exact Nat.le_refl _
  | case4 _ _ _ ih => exact Nat.le_succ_of_le ih
  | case5 _ _ _ ih => exact Nat.le_succ_of_le ih

end Event

namespace Visitor

variable {σ : Type}

/-- Run through a row of events. Of the answers to a token only `stop` has an effect. -/
def interpret (visitor : Visitor σ) : List Event → σ → Interpretation σ
  | [], s => ⟨[], .ok s⟩
  | .enter node :: rest, s =>
    match visitor.enter node s with
    | (.stop, s) => ⟨[⟨.enter node, some .stop⟩], .error s⟩
    | (.skip, s) => (interpret visitor (Event.toLeave 0 rest) s).call ⟨.enter node, some .skip⟩
    | (.descend, s) => (interpret visitor rest s).call ⟨.enter node, some .descend⟩
  | .leave node :: rest, s =>
    (interpret visitor rest (visitor.leave node s)).call ⟨.leave node, none⟩
  | .token t :: rest, s =>
    match visitor.token t s with
    | (.stop, s) => ⟨[⟨.token t, some .stop⟩], .error s⟩
    | (answer, s) => (interpret visitor rest s).call ⟨.token t, some answer⟩
termination_by events => events.length
decreasing_by
  all_goals have := Event.length_toLeave_le 0 rest
  all_goals simp only [List.length_cons]; omega

theorem completed_interpret (visitor : Visitor σ) (events : List Event) (s : σ) :
    (visitor.interpret events s).flow.completed = true ↔
      (visitor.interpret events s).Unstopped := by
  fun_induction interpret visitor events s with
  | case1 => simp [Interpretation.Unstopped, Flow.completed]
  | case2 => simp [Interpretation.Unstopped, Flow.completed]
  | case3 _ _ _ _ _ ih => simpa [Interpretation.unstopped_call] using ih
  | case4 _ _ _ _ _ ih => simpa [Interpretation.unstopped_call] using ih
  | case5 _ _ _ ih => simpa [Interpretation.unstopped_call] using ih
  | case6 => simp [Interpretation.Unstopped, Flow.completed]
  | case7 t rest s answer s' hne hanswer ih =>
    have hgo : (some answer : Option Response) ≠ some .stop := fun h => hne (Option.some.inj h)
    simpa [Interpretation.unstopped_call, hgo] using ih

/-! ## Records of calls -/

/-- The visitor, with a record of the calls that it has got. -/
def recording (visitor : Visitor σ) : Visitor (List Callback × σ) where
  enter node r :=
    let (answer, s) := visitor.enter node r.2
    (answer, r.1 ++ [⟨.enter node, some answer⟩], s)
  leave node r := (r.1 ++ [⟨.leave node, none⟩], visitor.leave node r.2)
  token t r :=
    let (answer, s) := visitor.token t r.2
    (answer, r.1 ++ [⟨.token t, some answer⟩], s)

theorem recording_enter {visitor : Visitor σ} {node : Node} {s s' : σ} {answer : Response}
    (h : visitor.enter node s = (answer, s')) (calls : List Callback) :
    visitor.recording.enter node (calls, s) =
      (answer, calls ++ [⟨.enter node, some answer⟩], s') := by
  simp only [recording, h]

theorem recording_token {visitor : Visitor σ} {t : Token} {s s' : σ} {answer : Response}
    (h : visitor.token t s = (answer, s')) (calls : List Callback) :
    visitor.recording.token t (calls, s) = (answer, calls ++ [⟨.token t, some answer⟩], s') := by
  simp only [recording, h]

/-- The visitor that lets every walk go on and keeps nothing. -/
def passive : Visitor Unit where
  enter _ s := (.descend, s)
  leave _ s := s
  token _ s := (.descend, s)

theorem passive_continues : passive.Continues :=
  ⟨fun _ _ => rfl, fun _ _ => rfl⟩

theorem Continues.recording {visitor : Visitor σ} (h : visitor.Continues) :
    visitor.recording.Continues :=
  ⟨fun node r => h.enter node r.2, fun t r => h.token t r.2⟩

/-- A visitor gets the events that it is told of, in their order. -/
theorem map_event_foldl_tell_recording (visitor : Visitor σ) (events : List Event)
    (calls : List Callback) (s : σ) :
    (events.foldl visitor.recording.tell (calls, s)).1.map Callback.event =
      calls.map Callback.event ++ events := by
  induction events generalizing calls s with
  | nil => simp
  | cons event events ih =>
    rw [List.foldl_cons]
    cases event <;> exact (ih _ _).trans (by simp)

end Visitor

namespace Outline

variable {σ : Type} (visitor : Visitor σ)

mutual

theorem toLeave_events (piece : Outline) (depth : Nat) (rest : List Event) :
    Event.toLeave depth (piece.events ++ rest) = Event.toLeave depth rest := by
  cases piece with
  | token t => rw [events, List.singleton_append, Event.toLeave]
  | node n children =>
    rw [events, List.cons_append, List.append_assoc, Event.toLeave, toLeave_eventsOf children,
      List.singleton_append, Event.toLeave]
  | part span children => rw [events, toLeave_eventsOf children]

theorem toLeave_eventsOf (pieces : List Outline) (depth : Nat) (rest : List Event) :
    Event.toLeave depth (eventsOf pieces ++ rest) = Event.toLeave depth rest := by
  cases pieces with
  | nil => rw [eventsOf, List.nil_append]
  | cons piece pieces =>
    rw [eventsOf, List.append_assoc, toLeave_events piece, toLeave_eventsOf pieces]

end

mutual

/-- The machine does with the events of a piece what the walk does with the piece. -/
theorem interpret_events (piece : Outline) (rest : List Event) (calls : List Callback) (s : σ) :
    (visitor.interpret (piece.events ++ rest) s).after calls =
      (walk visitor.recording piece (calls, s)).bind fun r =>
        (visitor.interpret rest r.2).after r.1 := by
  cases piece with
  | token t =>
    rw [events, List.singleton_append, Visitor.interpret, walk]
    cases h : visitor.token t s with
    | mk answer s' =>
      rw [Visitor.recording_token h]
      cases answer with
      | stop => rfl
      | skip => exact Interpretation.after_call calls _ _
      | descend => exact Interpretation.after_call calls _ _
  | node n children =>
    rw [events, List.cons_append, List.append_assoc, Visitor.interpret, walk]
    cases h : visitor.enter n s with
    | mk answer s' =>
      rw [Visitor.recording_enter h]
      cases answer with
      | stop => rfl
      | skip =>
        dsimp only
        rw [toLeave_eventsOf, List.singleton_append, Event.toLeave, Visitor.interpret,
          Interpretation.after_call, Interpretation.after_call]
        rfl
      | descend =>
        dsimp only
        rw [Interpretation.after_call, interpret_eventsOf children]
        cases walkAll visitor.recording children (calls ++ [⟨.enter n, some .descend⟩], s') with
        | error r => rfl
        | ok r =>
          dsimp only [Except.bind]
          rw [List.singleton_append, Visitor.interpret, Interpretation.after_call]
          rfl
  | part span children => rw [events, walk, interpret_eventsOf children]

theorem interpret_eventsOf (pieces : List Outline) (rest : List Event) (calls : List Callback)
    (s : σ) :
    (visitor.interpret (eventsOf pieces ++ rest) s).after calls =
      (walkAll visitor.recording pieces (calls, s)).bind fun r =>
        (visitor.interpret rest r.2).after r.1 := by
  cases pieces with
  | nil => rw [eventsOf, List.nil_append, walkAll]; rfl
  | cons piece pieces =>
    rw [eventsOf, List.append_assoc, interpret_events piece, walkAll]
    cases walk visitor.recording piece (calls, s) with
    | error r => rfl
    | ok r => exact interpret_eventsOf pieces rest r.1 r.2

end

mutual

/-- A visitor does not notice that its calls are recorded. -/
theorem walk_recording (piece : Outline) (calls : List Callback) (s : σ) :
    (walk visitor.recording piece (calls, s)).map Prod.snd = walk visitor piece s := by
  cases piece with
  | token t =>
    rw [walk, walk]
    cases h : visitor.token t s with
    | mk answer s' =>
      rw [Visitor.recording_token h]
      cases answer <;> rfl
  | node n children =>
    rw [walk, walk]
    cases h : visitor.enter n s with
    | mk answer s' =>
      rw [Visitor.recording_enter h]
      cases answer with
      | stop => rfl
      | skip => rfl
      | descend =>
        dsimp only
        rw [← walkAll_recording children (calls ++ [⟨.enter n, some .descend⟩]) s']
        cases walkAll visitor.recording children (calls ++ [⟨.enter n, some .descend⟩], s') <;> rfl
  | part span children => rw [walk, walk, walkAll_recording children]

theorem walkAll_recording (pieces : List Outline) (calls : List Callback) (s : σ) :
    (walkAll visitor.recording pieces (calls, s)).map Prod.snd = walkAll visitor pieces s := by
  cases pieces with
  | nil =>
    rw [walkAll, walkAll]
    rfl
  | cons piece pieces =>
    rw [walkAll, walkAll, ← walk_recording piece calls s]
    cases walk visitor.recording piece (calls, s) with
    | error r => rfl
    | ok r => exact walkAll_recording pieces r.1 r.2

end

/-- The events of pieces are the calls that a visitor gets if it never cuts a walk short. -/
theorem calls_of_continues (h : visitor.Continues) (pieces : List Outline) (s : σ) :
    ∃ calls s', walkAll visitor.recording pieces ([], s) = .ok (calls, s') ∧
      calls.map Callback.event = eventsOf pieces :=
  ⟨_, _, walkAll_eq_foldl h.recording pieces ([], s), by
    rw [Visitor.map_event_foldl_tell_recording]
    rfl⟩

theorem walkAll_recording_eq_interpret (pieces : List Outline) (s : σ) :
    walkAll visitor.recording pieces ([], s) =
      (visitor.interpret (eventsOf pieces) s).after [] := by
  have h := interpret_eventsOf visitor pieces [] [] s
  rw [List.append_nil] at h
  rw [h]
  cases walkAll visitor.recording pieces ([], s) with
  | error r => rfl
  | ok r =>
    obtain ⟨calls, s'⟩ := r
    simp [Except.bind, Visitor.interpret, Interpretation.after, Flow.map]

/-- A walk over pieces makes the calls that the machine makes over the events of the pieces, and
it ends in the same state and in the same way. It goes through to the end unless a call was
answered by `stop`. The events are those that a visitor is told of when it never cuts the walk
short. -/
theorem walk_interprets (visitor : Visitor σ) (pieces : List Outline) (s : σ) :
    let run := visitor.interpret (eventsOf pieces) s
    walkAll visitor pieces s = run.flow ∧
      walkAll visitor.recording pieces ([], s) = run.flow.map (fun s => (run.calls, s)) ∧
      ((walkAll visitor pieces s).completed = true ↔ run.Unstopped) ∧
      ∃ calls, walkAll Visitor.passive.recording pieces ([], ()) = .ok (calls, ()) ∧
        calls.map Callback.event = eventsOf pieces := by
  have hcalls := walkAll_recording_eq_interpret visitor pieces s
  have hflow : walkAll visitor pieces s = (visitor.interpret (eventsOf pieces) s).flow := by
    rw [← walkAll_recording visitor pieces [] s, hcalls]
    cases hend : (visitor.interpret (eventsOf pieces) s).flow <;>
      simp [Interpretation.after, Flow.map, hend]
  refine ⟨hflow, by simpa [Interpretation.after] using hcalls, ?_, ?_⟩
  · rw [hflow]
    exact Visitor.completed_interpret visitor _ s
  · obtain ⟨calls, u, hwalk, hevents⟩ := calls_of_continues _ Visitor.passive_continues pieces ()
    exact ⟨calls, hwalk, hevents⟩

end Outline

end Verbatim
