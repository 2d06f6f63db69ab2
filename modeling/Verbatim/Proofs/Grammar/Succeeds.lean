import Verbatim.Proofs.Grammar.Combinators
import Verbatim.Proofs.Tree.Shape

/-!
# Parsers that go through

The other direction of reading: a stream whose next tokens are the right ones is not
refused. A parser looks at kinds only, so it is enough to know the faces of the tokens.
The rules below go through a parser step by step, each from what the stream shows.
-/

namespace Verbatim

namespace Stream

def Shows (s : Stream) (faces : List Face) : Prop :=
  s.tokens.map Token.face = faces

namespace Shows

variable {s : Stream} {face : Face} {faces : List Face}

theorem current_face (h : s.Shows (face :: faces)) : s.current.face = face :=
  (List.cons.inj h).1

theorem kind (h : s.Shows (face :: faces)) : s.current.kind = face.kind := by
  rw [← h.current_face, Token.face_kind]

theorem length_tokens (h : s.Shows faces) : s.tokens.length = faces.length := by
  rw [← h, List.length_map]

end Shows

end Stream

namespace Parser

variable {α β : Type}

/-- The parser succeeds, and its result and the stream it leaves are as described. -/
def Succeeds (p : Parser α) (s : Stream) (post : α → Stream → Prop) : Prop :=
  ∃ a u, p s = .ok (a, u) ∧ post a u

namespace Succeeds

variable {s : Stream} {post : α → Stream → Prop}

theorem pure {a : α} (h : post a s) : Succeeds (Pure.pure a) s post :=
  ⟨a, s, rfl, h⟩

theorem of_eq {p : Parser β} {f : β → Parser α} {b : β} {u : Stream} (h : p s = .ok (b, u))
    (h' : Succeeds (f b) u post) : Succeeds (p >>= f) s post := by
  obtain ⟨a, v, hf, hpost⟩ := h'
  exact ⟨a, v, bind_eq_ok.mpr ⟨b, u, h, hf⟩, hpost⟩

theorem bind {p : Parser β} {f : β → Parser α} {middle : β → Stream → Prop}
    (h : Succeeds p s middle) (h' : ∀ b u, middle b u → Succeeds (f b) u post) :
    Succeeds (p >>= f) s post := by
  obtain ⟨b, u, hp, hmiddle⟩ := h
  exact .of_eq hp (h' b u hmiddle)

theorem mono {p : Parser α} {middle : α → Stream → Prop} (h : Succeeds p s middle)
    (h' : ∀ a u, middle a u → post a u) : Succeeds p s post := by
  obtain ⟨a, u, hp, hmiddle⟩ := h
  exact ⟨a, u, hp, h' a u hmiddle⟩

/-- A parser that succeeds with one result on one stream. -/
theorem eq_ok {p : Parser α} {a : α} {u : Stream}
    (h : Succeeds p s fun b v => b = a ∧ v = u) : p s = .ok (a, u) := by
  obtain ⟨_, _, hp, rfl, rfl⟩ := h
  exact hp

/-! ### Looking -/

theorem peek {f : TokenKind → Parser α} (h : Succeeds (f s.current.kind) s post) :
    Succeeds (Parser.peek >>= f) s post := by
  obtain ⟨a, u, hf, hpost⟩ := h
  exact ⟨a, u, hf, hpost⟩

theorem start {f : Nat → Parser α} (h : Succeeds (f s.current.span.start) s post) :
    Succeeds (Parser.start >>= f) s post := by
  obtain ⟨a, u, hf, hpost⟩ := h
  exact ⟨a, u, hf, hpost⟩

theorem spanFrom {start : Nat} {f : Span → Parser α} (h : ∀ span, Succeeds (f span) s post) :
    Succeeds (Parser.spanFrom start >>= f) s post := by
  obtain ⟨a, u, hf, hpost⟩ := h (Span.upTo start s.lastEnd)
  exact ⟨a, u, hf, hpost⟩

theorem ifAt {kind : TokenKind} {p q : Parser α} (hkind : s.current.kind = kind)
    (h : Succeeds p s post) :
    Succeeds (do if ← isAt kind then p else q) s post := by
  obtain ⟨a, u, hp, hpost⟩ := h
  refine ⟨a, u, bind_eq_ok.mpr ⟨true, s, ?_, hp⟩, hpost⟩
  subst hkind
  show Except.ok (s.current.kind == s.current.kind, s) = _
  rw [beq_self_eq_true]

theorem ifNotAt {kind : TokenKind} {p q : Parser α} (hkind : s.current.kind ≠ kind)
    (h : Succeeds q s post) :
    Succeeds (do if ← isAt kind then p else q) s post := by
  obtain ⟨a, u, hq, hpost⟩ := h
  refine ⟨a, u, bind_eq_ok.mpr ⟨false, s, ?_, hq⟩, hpost⟩
  show Except.ok (s.current.kind == kind, s) = _
  rw [beq_eq_false_iff_ne.mpr hkind]

/-! ### Tokens -/

section Tokens

variable {face : Face} {faces : List Face} {kind : TokenKind}

theorem bump_shows (hs : s.Shows (face :: faces)) (hne : faces ≠ []) :
    Succeeds Parser.bump s fun t u => t.face = face ∧ u.Shows faces := by
  obtain ⟨current, upcoming, failure, lastEnd⟩ := s
  obtain ⟨hcurrent, hupcoming⟩ := List.cons.inj hs
  cases upcoming with
  | nil => exact absurd hupcoming.symm hne
  | cons next more =>
    exact ⟨current, ⟨next, more, failure, current.span.stop⟩, rfl, hcurrent, hupcoming⟩

theorem bump {f : Token → Parser α} (hs : s.Shows (face :: faces)) (hne : faces ≠ [])
    (h : ∀ t u, t.face = face → u.Shows faces → Succeeds (f t) u post) :
    Succeeds (Parser.bump >>= f) s post :=
  (bump_shows hs hne).bind fun t u ht => h t u ht.1 ht.2

theorem expect {f : Token → Parser α} (hs : s.Shows (face :: faces)) (hkind : face.kind = kind)
    (hne : faces ≠ []) (h : ∀ t u, t.face = face → u.Shows faces → Succeeds (f t) u post) :
    Succeeds (Parser.expect kind >>= f) s post := by
  have hexpect : Succeeds (Parser.expect kind) s fun t u => t.face = face ∧ u.Shows faces :=
    .ifAt (hs.kind.trans hkind) (bump_shows hs hne)
  exact hexpect.bind fun t u ht => h t u ht.1 ht.2

theorem eat {f : Option Token → Parser α} (hs : s.Shows (face :: faces))
    (hkind : face.kind = kind) (hne : faces ≠ [])
    (h : ∀ t u, t.face = face → u.Shows faces → Succeeds (f (some t)) u post) :
    Succeeds (Parser.eat kind >>= f) s post := by
  have heat : Succeeds (Parser.eat kind) s fun taken u => Succeeds (f taken) u post := by
    refine .ifAt (hs.kind.trans hkind) (.bump hs hne fun t u ht hu => .pure ?_)
    exact h t u ht hu
  exact heat.bind fun taken u h => h

theorem eatNone {f : Option Token → Parser α} (hkind : s.current.kind ≠ kind)
    (h : Succeeds (f none) s post) : Succeeds (Parser.eat kind >>= f) s post :=
  .bind (.ifNotAt hkind (.pure h)) fun _ _ h => h

theorem endOfFile {f : Token → Parser α} (hkind : s.current.kind = .endOfFile)
    (h : ∀ t u, Succeeds (f t) u post) : Succeeds (Parser.endOfFile >>= f) s post := by
  refine .of_eq (u := { s with lastEnd := s.current.span.stop }) ?_ (h s.current _)
  rw [Parser.endOfFile, if_pos hkind]

end Tokens

/-! ### Optional parts -/

theorem optional {choice : Choice β} {part : Parser β} {f : Option β → Parser α}
    {middle : β → Stream → Prop} (hchoice : choice s.current.kind = some part)
    (h : Succeeds part s middle) (h' : ∀ b u, middle b u → Succeeds (f (some b)) u post) :
    Succeeds (Parser.optional choice >>= f) s post := by
  have hoptional : Succeeds (Parser.optional choice) s fun o u => Succeeds (f o) u post := by
    apply Succeeds.peek
    rw [hchoice]
    exact h.bind fun b u hb => .pure (h' b u hb)
  exact hoptional.bind fun o u h => h

theorem optionalNone {choice : Choice β} {f : Option β → Parser α}
    (hchoice : choice s.current.kind = none) (h : Succeeds (f none) s post) :
    Succeeds (Parser.optional choice >>= f) s post := by
  have hoptional : Succeeds (Parser.optional choice) s fun o u => Succeeds (f o) u post := by
    apply Succeeds.peek
    rw [hchoice]
    exact .pure h
  exact hoptional.bind fun o u h => h

end Succeeds

/-! ## Repetition -/

theorem repeatUpTo_stop {choice : Choice α} {s : Stream} (h : choice s.current.kind = none)
    (n : Nat) : repeatUpTo choice n s = .ok ([], s) := by
  cases n with
  | zero => rfl
  | succ n =>
    refine Succeeds.eq_ok (.peek ?_)
    rw [h]
    exact .pure ⟨rfl, rfl⟩

/-- Parts that are chosen and parsed one after the other. Each takes a token. -/
inductive Chain (choice : Choice α) : Stream → List α → Stream → Prop
  | nil {s : Stream} : Chain choice s [] s
  | cons {s u v : Stream} {part : Parser α} {a : α} {as : List α}
      (hchoice : choice s.current.kind = some part) (hpart : part s = .ok (a, u))
      (hshorter : u.tokens.length < s.tokens.length) (rest : Chain choice u as v) :
      Chain choice s (a :: as) v

namespace Chain

variable {choice : Choice α} {s u v : Stream} {as : List α}

theorem snoc {part : Parser α} {a : α} (h : Chain choice s as u)
    (hchoice : choice u.current.kind = some part) (hpart : part u = .ok (a, v))
    (hshorter : v.tokens.length < u.tokens.length) : Chain choice s (as ++ [a]) v := by
  induction h with
  | nil => exact .cons hchoice hpart hshorter .nil
  | cons hchoice' hpart' hshorter' _ ih =>
    exact .cons hchoice' hpart' hshorter' (ih hchoice hpart hshorter)

theorem repeatUpTo_eq (h : Chain choice s as u) (hstop : choice u.current.kind = none) {n : Nat}
    (hn : s.tokens.length ≤ n) : repeatUpTo choice n s = .ok (as, u) := by
  induction h generalizing n with
  | nil => exact repeatUpTo_stop hstop n
  | @cons s u v part a as hchoice hpart hshorter _ ih =>
    obtain ⟨m, rfl⟩ : ∃ m, n = m + 1 := ⟨n - 1, by omega⟩
    have hmore := ih hstop (n := m) (by omega)
    refine Succeeds.eq_ok (.peek ?_)
    rw [hchoice]
    exact .of_eq hpart (.of_eq hmore (.pure ⟨rfl, rfl⟩))

end Chain

/-- A loop goes through a chain that no other part follows. -/
theorem Succeeds.many {choice : Choice β} {s u : Stream} {bs : List β} {f : List β → Parser α}
    {post : α → Stream → Prop} (hchain : Chain choice s bs u)
    (hstop : choice u.current.kind = none) (h : Succeeds (f bs) u post) :
    Succeeds (Parser.many choice >>= f) s post :=
  .of_eq (hchain.repeatUpTo_eq hstop (Nat.le_refl _)) h

/-- No item follows where no separator does. -/
theorem Succeeds.separatedFromNone {separator : TokenKind} {more : β → Parser Bool}
    {item : Parser β} {first : β} {s : Stream} {f : Separated β × Option Token → Parser α}
    {post : α → Stream → Prop} (hkind : s.current.kind ≠ separator)
    (h : Succeeds (f (.one first, none)) s post) :
    Succeeds (Parser.separatedFrom separator more item first >>= f) s post := by
  have hone : Succeeds (Parser.separatedFrom separator more item first) s
      fun r u => Succeeds (f r) u post :=
    .ifNotAt hkind (.pure h)
  exact hone.bind fun r u h => h

end Verbatim.Parser
