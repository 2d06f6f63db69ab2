import Mathlib.Data.List.Chain
import Verbatim.Proofs.Calls.SameBelow

/-!
# Functions that call each other

The functions of a family call each other by name, and the body of each is given over the whole
family. Where a body calls functions of lower ranks only, until it has taken a token, each call has
less room for further calls than the one that makes it. So chains of calls are bounded by the
stream, and a limit on their depth that leaves this room changes nothing.
-/

namespace Verbatim.Parser

/-- Along a chain on which a weight falls, the first weight bounds the length and the last one. -/
theorem length_of_isChain {α : Type} {R : α → α → Prop} {weight : α → Nat} {a : α}
    {chain : List α} {n : Nat} (hchain : (a :: chain).IsChain R)
    (hfalls : ∀ a b, R a b → weight b < weight a) (hn : ∀ b ∈ a :: chain, n ≤ weight b) :
    (a :: chain).length + n ≤ weight a + 1 := by
  induction chain generalizing a with
  | nil =>
    rw [List.length_singleton, Nat.add_comm]
    exact Nat.succ_le_succ (hn a List.mem_cons_self)
  | cons b chain ih =>
    obtain ⟨hstep, hchain⟩ := List.isChain_cons_cons.mp hchain
    have hlt := hfalls a b hstep
    have hrest := ih hchain fun c hc => hn c (List.mem_cons_of_mem a hc)
    rw [List.length_cons]
    omega

variable {ι : Type} {Result : ι → Type}

abbrev Family (Result : ι → Type) :=
  ∀ i, Parser (Result i)

/-- The functions are the same on streams with fewer than `b` tokens after the current one, and
those of a rank below `r` are also the same on streams with `b` of them. -/
def SameUnder (rank : ι → Nat) (b r : Nat) (self self' : Family Result) : Prop :=
  ∀ i, SameBelow (if rank i < r then b + 1 else b) (self i) (self' i)

namespace SameUnder

variable {rank : ι → Nat} {b r : Nat} {self self' : Family Result}

theorem here (h : SameUnder rank b r self self') (i : ι) (hlt : (rank i).blt r = true) :
    SameBelow (b + 1) (self i) (self' i) := by
  have hi := h i
  rwa [if_pos (Nat.blt_eq.mp hlt)] at hi

theorem behind (h : SameUnder rank b r self self') (i : ι) : SameBelow b (self i) (self' i) := by
  refine (h i).mono ?_
  split
  · exact Nat.le_succ b
  · exact Nat.le_refl b

end SameUnder

/-- The functions with at most `n` calls inside each other. A call that is nested deeper fails. -/
def limited (body : Family Result → Family Result) (e : ParseError) : Nat → Family Result
  | 0, _ => fun _ => .error e
  | n + 1, i => body (limited body e n) i

/-- Functions with bodies in which a call that is not of a lower rank stands behind a token. -/
structure Layered (k : Nat) (rank : ι → Nat) (body : Family Result → Family Result)
    (run : Family Result) : Prop where
  rank_lt : ∀ i, rank i < k
  eq : ∀ i, run i = body run i
  same : ∀ {b : Nat} {self self' : Family Result} (i : ι),
    SameUnder rank b (rank i) self self' → SameBelow (b + 1) (body self i) (body self' i)

/-- A function of a family and the stream that it is called on. -/
structure CallOf (ι : Type) where
  callee : ι
  stream : Stream

/-- The body of the first call depends on what the second one gives: it changes with a family that
is different there and nowhere else. -/
def Makes (body : Family Result → Family Result) (run : Family Result) (c d : CallOf ι) : Prop :=
  ∃ other : Family Result,
    (∀ i v, (i, v) ≠ (d.callee, d.stream) → other i v = run i v) ∧
      body other c.callee c.stream ≠ body run c.callee c.stream

/-- A body that runs a function makes the call: it fails as the function does, with any error. -/
theorem Makes.of_fails {body : Family Result → Family Result} {run : Family Result}
    {c d : CallOf ι}
    (h : ∀ (other : Family Result) (e : ParseError), other d.callee d.stream = .error e →
      body other c.callee c.stream = .error e) : Makes body run c d := by
  classical
  obtain ⟨e, he⟩ := exists_ne_error (body run c.callee c.stream)
  refine ⟨fun i v => if (i, v) = (d.callee, d.stream) then .error e else run i v,
    fun i v hne => if_neg hne, ?_⟩
  rw [h _ e (if_pos rfl)]
  exact he.symm

/-! ## How a parser begins -/

section Begins

variable {α β γ : Type} {s : Stream}

/-- The first parser begins with the second one, so it fails where the second one does. -/
def Begins (p : Parser α) (q : Parser β) (s : Stream) : Prop :=
  ∀ e, q s = .error e → p s = .error e

namespace Begins

theorem refl {p : Parser α} : Begins p p s :=
  fun _ h => h

theorem bind {p : Parser α} {q : Parser β} {f : α → Parser γ} (h : Begins p q s) :
    Begins (p >>= f) q s := by
  intro e hq
  show (p s >>= fun r => f r.1 r.2) = .error e
  rw [h e hq]
  rfl

/-- What a parser does after a look at the stream. -/
theorem look {p : Parser α} {a : α} {q : Parser β} {f : α → Parser γ} (hp : p s = .ok (a, s))
    (h : Begins (f a) q s) : Begins (p >>= f) q s := by
  intro e hq
  show (p s >>= fun r => f r.1 r.2) = .error e
  rw [hp]
  exact h e hq

theorem start {q : Parser β} {f : Nat → Parser γ} (h : Begins (f s.current.span.start) q s) :
    Begins (Parser.start >>= f) q s :=
  .look rfl h

theorem peek {q : Parser β} {f : TokenKind → Parser γ} (h : Begins (f s.current.kind) q s) :
    Begins (Parser.peek >>= f) q s :=
  .look rfl h

theorem isAt {kind : TokenKind} {q : Parser β} {f : Bool → Parser γ}
    (h : Begins (f (s.current.kind == kind)) q s) : Begins (Parser.isAt kind >>= f) q s :=
  .look rfl h

theorem many {choice : Choice α} {part : Parser α} (hpart : choice s.current.kind = some part) :
    Begins (Parser.many choice) part s := by
  have hturn : Begins (Parser.repeatUpTo choice (s.upcoming.length + 1)) part s := by
    refine .peek ?_
    rw [hpart]
    exact .bind .refl
  exact hturn

end Begins

/-- A body that begins with a function makes a call of it on its own stream. -/
theorem Makes.of_begins {body : Family Result → Family Result} {run : Family Result} {i j : ι}
    (h : ∀ self, Begins (body self i) (self j) s) : Makes body run ⟨i, s⟩ ⟨j, s⟩ :=
  .of_fails fun other e hother => h other e hother

end Begins

/-! ## Room for further calls -/

/-- How many calls can be nested with this one as the first, where there are `k` ranks. -/
def CallOf.room (k : Nat) (rank : ι → Nat) (c : CallOf ι) : Nat :=
  k * c.stream.upcoming.length + rank c.callee + 1

namespace Layered

variable {k : Nat} {rank : ι → Nat} {body : Family Result → Family Result} {run : Family Result}

theorem room_le (h : Layered k rank body run) (c : CallOf ι) :
    c.room k rank ≤ k * (c.stream.upcoming.length + 1) := by
  have hrank := h.rank_lt c.callee
  rw [CallOf.room, Nat.mul_succ]
  omega

/-- A call on a shorter stream has less room, whatever its rank. -/
theorem room_lt (h : Layered k rank body run) {c d : CallOf ι}
    (hlt : d.stream.upcoming.length < c.stream.upcoming.length ∨
      d.stream.upcoming.length = c.stream.upcoming.length ∧ rank d.callee < rank c.callee) :
    d.room k rank < c.room k rank := by
  rcases hlt with hshorter | ⟨hsame, hrank⟩
  · calc
      d.room k rank ≤ k * (d.stream.upcoming.length + 1) := h.room_le d
      _ ≤ k * c.stream.upcoming.length := Nat.mul_le_mul_left k hshorter
      _ < c.room k rank := Nat.lt_succ_of_le (Nat.le_add_right _ _)
  · rw [CallOf.room, CallOf.room, hsame]
    omega

theorem descends_limited (h : Layered k rank body run) (e : ParseError) (n : Nat) (i : ι) :
    Descends (limited body e n i) := by
  induction n generalizing i with
  | zero => rintro s a u ⟨⟩
  | succ n ih => exact (h.same (b := 0) i fun j => .refl (ih j)).descends

/-- A limit on the depth of calls changes nothing where it leaves enough room. -/
theorem limited_eq (h : Layered k rank body run) (e : ParseError) {n : Nat} (c : CallOf ι)
    (hroom : c.room k rank ≤ n) :
    limited body e n c.callee c.stream = run c.callee c.stream := by
  induction n generalizing c with
  | zero => exact absurd hroom (Nat.not_succ_le_zero _)
  | succ n ih =>
    rw [h.eq]
    have hsame :
        SameUnder rank c.stream.upcoming.length (rank c.callee) (limited body e n) run := by
      refine fun i => ⟨fun v hv => ih ⟨i, v⟩ (Nat.le_of_lt_succ ?_), h.descends_limited e n i⟩
      refine Nat.lt_of_lt_of_le (h.room_lt ?_) hroom
      split at hv
      · exact (Nat.lt_succ_iff_lt_or_eq.mp hv).imp_right fun hv => ⟨hv, ‹_›⟩
      · exact .inl hv
    exact (h.same c.callee hsame).eq c.stream (Nat.lt_succ_self _)

theorem descends (h : Layered k rank body run) (i : ι) : Descends (run i) := by
  intro s a u hrun
  rw [← h.limited_eq (.lexical ⟨.inconsistentIndentation, 0⟩) ⟨i, s⟩ (Nat.le_refl _)] at hrun
  exact h.descends_limited _ _ i s a u hrun

/-- A call is made on a shorter stream, or on the same one with a lower rank. -/
theorem room_lt_of_makes (h : Layered k rank body run) {c d : CallOf ι}
    (hmakes : Makes body run c d) : d.room k rank < c.room k rank := by
  obtain ⟨other, hother, hne⟩ := hmakes
  refine h.room_lt (Classical.not_not.mp fun hnot => hne ?_)
  have hsame : SameUnder rank c.stream.upcoming.length (rank c.callee) run other := by
    refine fun i => ⟨fun v hv => (hother i v ?_).symm, h.descends i⟩
    rintro ⟨⟩
    split at hv
    · exact hnot ((Nat.lt_succ_iff_lt_or_eq.mp hv).imp_right fun hv => ⟨hv, ‹_›⟩)
    · exact hnot (.inl hv)
  exact ((h.same c.callee hsame).eq c.stream (Nat.lt_succ_self _)).symm

/-! ## Chains of calls -/

/-- A chain of calls that leaves some room is no longer than the rest of the room of its first
call. -/
theorem length_of_chain (h : Layered k rank body run) {c : CallOf ι} {chain : List (CallOf ι)}
    {n : Nat} (hchain : (c :: chain).IsChain (Makes body run))
    (hn : ∀ d ∈ c :: chain, n < d.room k rank) : (c :: chain).length + n ≤ c.room k rank :=
  Nat.le_of_succ_le_succ
    (length_of_isChain (n := n + 1) hchain (fun _ _ => h.room_lt_of_makes) hn)

theorem length_chain_le (h : Layered k rank body run) {c : CallOf ι} {chain : List (CallOf ι)}
    (hchain : (c :: chain).IsChain (Makes body run)) :
    (c :: chain).length ≤ k * (c.stream.upcoming.length + 1) :=
  Nat.le_trans (h.length_of_chain (n := 0) hchain fun _ _ => Nat.succ_pos _) (h.room_le c)

/-- Without a token taken there are no more nested calls than ranks. -/
theorem length_chain_le_of_same (h : Layered k rank body run) {c : CallOf ι}
    {chain : List (CallOf ι)} (hchain : (c :: chain).IsChain (Makes body run))
    (hsame : ∀ d ∈ chain, d.stream.upcoming.length = c.stream.upcoming.length) :
    (c :: chain).length ≤ k := by
  have hlength := h.length_of_chain (n := k * c.stream.upcoming.length) hchain ?_
  · have hroom := h.room_le c
    rw [Nat.mul_succ] at hroom
    omega
  · intro d hd
    have hd : d.stream.upcoming.length = c.stream.upcoming.length := by
      rcases List.mem_cons.mp hd with rfl | hd
      · rfl
      · exact hsame d hd
    rw [CallOf.room, hd]
    omega

end Layered

end Verbatim.Parser
