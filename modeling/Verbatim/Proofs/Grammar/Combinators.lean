import Verbatim.Proofs.Grammar.Reads

/-!
# How parsers read on

A parser yields the pieces of what it returns when it reads those and nothing else.
Inside a rule of the grammar, some pieces of a node are read before its next part is
parsed; a parser extends them when what it returns holds them and all that it read itself.
The rules of this module follow the ways in which parsers are put together.
-/

namespace Verbatim.Parser

open Verbatim.Outline (tokensOf)

variable {α β : Type}

/-- From a stream from which the pieces `before` are read, the parser reads up to the pieces
`whole`. -/
def Extends (s₀ : Stream) (before : List Outline) (p : Parser α) (whole : α → List Outline) :
    Prop :=
  ∀ s a u, s₀.Reads before s → p s = .ok (a, u) → s₀.Reads (whole a) u

/-- The parser reads the pieces of what it returns. -/
def Yields (p : Parser α) (pieces : α → List Outline) : Prop :=
  ∀ s a u, p s = .ok (a, u) → s.Reads (pieces a) u

def Peeks (p : Parser α) : Prop :=
  ∀ s a u, p s = .ok (a, u) → u = s

/-! ## Success -/

section Success

variable {s : Stream} {p : Parser α} {f : α → Parser β}

theorem bind_eq_ok {result : β × Stream} :
    (p >>= f) s = .ok result ↔ ∃ a u, p s = .ok (a, u) ∧ f a u = .ok result := by
  show (p s >>= fun x => f x.1 x.2) = .ok result ↔ _
  rcases p s with error | ⟨a, u⟩
  · constructor
    · intro h
      cases h
    · rintro ⟨a, u, h, _⟩
      cases h
  · constructor
    · intro h
      exact ⟨a, u, rfl, h⟩
    · rintro ⟨_, _, ⟨⟩, h⟩
      exact h

theorem pure_eq_ok {a : α} {result : α × Stream} :
    (pure a : Parser α) s = .ok result ↔ result = (a, s) := by
  show Except.ok (a, s) = .ok result ↔ _
  simp [eq_comm]

theorem fail_ne_ok {cause : SyntaxCause} {result : α × Stream} :
    (fail cause : Parser α) s ≠ .ok result := by
  intro h
  cases h

theorem bump_eq_ok {t : Token} {u : Stream} (h : bump s = .ok (t, u)) :
    t = s.current ∧ s.upcoming = u.current :: u.upcoming ∧ u.failure = s.failure ∧
      u.lastEnd = t.span.stop := by
  unfold bump at h
  split at h
  · next hupcoming =>
    cases h
    exact ⟨rfl, hupcoming, rfl, rfl⟩
  · cases h
  · cases h

end Success

/-! ## Looking -/

theorem peeks_pure (a : α) : Peeks (pure a) := by
  intro s b u h
  cases pure_eq_ok.mp h
  rfl

theorem peeks_peek : Peeks peek := by
  intro s kind u h
  cases h
  rfl

theorem peeks_isAt (kind : TokenKind) : Peeks (isAt kind) := by
  intro s b u h
  cases h
  rfl

theorem peeks_fail (cause : SyntaxCause) : Peeks (fail cause : Parser α) := by
  intro s a u h
  exact absurd h fail_ne_ok

theorem Peeks.bind {p : Parser α} {f : α → Parser β} (h : Peeks p) (h' : ∀ a, Peeks (f a)) :
    Peeks (p >>= f) := by
  intro s b v hb
  obtain ⟨a, u, hp, hf⟩ := bind_eq_ok.mp hb
  rw [h' a u b v hf, h s a u hp]

/-! ## Steps of a rule -/

section Extends

variable {s₀ : Stream} {before : List Outline} {whole : α → List Outline}

theorem Yields.extends {p : Parser α} {pieces : α → List Outline} (h : Yields p pieces) :
    Extends s₀ before p fun a => before ++ pieces a := by
  intro s a u hs hp
  exact hs.trans (h s a u hp)

theorem Extends.fail {cause : SyntaxCause} : Extends s₀ before (Parser.fail cause) whole := by
  intro s a u _ hp
  exact absurd hp fail_ne_ok

theorem Extends.pure {a : α} (h : whole a = before) : Extends s₀ before (pure a) whole := by
  intro s b u hs hp
  cases pure_eq_ok.mp hp
  rw [h]
  exact hs

theorem Extends.bind {p : Parser β} {middle : β → List Outline} {f : β → Parser α}
    (hp : Extends s₀ before p middle) (hf : ∀ b, Extends s₀ (middle b) (f b) whole) :
    Extends s₀ before (p >>= f) whole := by
  intro s a v hs h
  obtain ⟨b, u, hb, ha⟩ := bind_eq_ok.mp h
  exact hf b u a v (hp s b u hs hb) ha

theorem Extends.andThen {p : Parser β} {pieces : β → List Outline} {f : β → Parser α}
    (hp : Yields p pieces) (hf : ∀ b, Extends s₀ (before ++ pieces b) (f b) whole) :
    Extends s₀ before (p >>= f) whole :=
  hp.extends.bind hf

theorem Extends.look {p : Parser β} {f : β → Parser α} (hp : Peeks p)
    (hf : ∀ b, Extends s₀ before (f b) whole) : Extends s₀ before (p >>= f) whole := by
  intro s a v hs h
  obtain ⟨b, u, hb, ha⟩ := bind_eq_ok.mp h
  cases hp s b u hb
  exact hf b s a v hs ha

theorem Extends.ite {c : Prop} [Decidable c] {p q : Parser α} (hp : Extends s₀ before p whole)
    (hq : Extends s₀ before q whole) : Extends s₀ before (if c then p else q) whole := by
  split
  · exact hp
  · exact hq

/-- The last step of a rule: a part is made of all that was read from where the rule began. -/
theorem Extends.part {make : Span → α} {outline : α → Outline} (hne : before ≠ [])
    (h : ∀ span, outline (make span) = .part span before) :
    Extends s₀ before (spanFrom s₀.current.span.start >>= fun span => Pure.pure (make span))
      fun a => [outline a] := by
  intro s a u hs hp
  obtain ⟨span, v, hspan, ha⟩ := bind_eq_ok.mp hp
  cases hspan
  cases pure_eq_ok.mp ha
  dsimp only
  rw [h]
  exact hs.part (hs.spans hne)

/-- The last step of a rule: a node is made of all that was read from where the rule began. -/
theorem Extends.node {make : Span → α} {outline : α → Outline}
    (hsolid : before.any Outline.isSolid = true)
    (h : ∀ span, ∃ n, outline (make span) = .node n before ∧ n.span = span) :
    Extends s₀ before (spanFrom s₀.current.span.start >>= fun span => Pure.pure (make span))
      fun a => [outline a] := by
  intro s a u hs hp
  obtain ⟨span, v, hspan, ha⟩ := bind_eq_ok.mp hp
  cases hspan
  cases pure_eq_ok.mp ha
  obtain ⟨n, hnode, hn⟩ := h (Span.upTo s₀.current.span.start s.lastEnd)
  have hne : before ≠ [] := by
    rintro rfl
    cases hsolid
  dsimp only
  rw [hnode]
  refine hs.node ?_ (hs.spanned.exists_solid hsolid)
  rw [hn]
  exact hs.spans hne

theorem Yields.of_extends {p : Parser α} (h : ∀ s₀, Extends s₀ [] p whole) : Yields p whole := by
  intro s a u hp
  exact h s s a u (.refl s) hp

/-- A rule begins where its node begins. -/
theorem Yields.of_start {f : Nat → Parser α}
    (h : ∀ s₀ : Stream, Extends s₀ [] (f s₀.current.span.start) whole) :
    Yields (start >>= f) whole := by
  intro s a u hp
  exact h s s a u (.refl s) hp

end Extends

/-! ## Tokens -/

theorem yields_bump : Yields bump fun t => [.token t] := by
  intro s t u h
  obtain ⟨ht, hupcoming, hfailure, hlast⟩ := bump_eq_ok h
  refine ⟨⟨?_, hfailure, by simpa [tokensOf, Outline.tokens] using hlast⟩, ?_⟩
  · rw [Stream.tokens, hupcoming, ht]
    rfl
  · exact ⟨trivial, trivial⟩

theorem yields_expect (kind : TokenKind) : Yields (expect kind) fun t => [.token t] := by
  apply Yields.of_extends
  intro s₀
  apply Extends.look (peeks_isAt kind)
  intro b
  exact .ite yields_bump.extends .fail

theorem yields_eat (kind : TokenKind) : Yields (eat kind) Outline.ofOption := by
  apply Yields.of_extends
  intro s₀
  apply Extends.look (peeks_isAt kind)
  intro b
  apply Extends.ite
  · apply Extends.andThen yields_bump
    intro t
    exact .pure rfl
  · exact .pure rfl

theorem expect_eq_ok {kind : TokenKind} {s u : Stream} {t : Token}
    (h : expect kind s = .ok (t, u)) : t.kind = kind := by
  obtain ⟨b, v, hb, h⟩ := bind_eq_ok.mp h
  cases hb
  split at h
  · next hkind =>
    rw [(bump_eq_ok h).1]
    exact beq_iff_eq.mp hkind
  · exact absurd h fail_ne_ok

theorem eat_eq_ok {kind : TokenKind} {s u : Stream} {taken : Option Token}
    (h : eat kind s = .ok (taken, u)) : ∀ t, taken = some t → t.kind = kind := by
  rintro t rfl
  obtain ⟨b, v, hb, h⟩ := bind_eq_ok.mp h
  cases hb
  split at h
  · next hkind =>
    obtain ⟨t, w, ht, h⟩ := bind_eq_ok.mp h
    cases pure_eq_ok.mp h
    rw [(bump_eq_ok ht).1]
    exact beq_iff_eq.mp hkind
  · cases pure_eq_ok.mp h

section Known

variable {s₀ : Stream} {before : List Outline} {whole : α → List Outline}

/-- After a parser of whose result something is known. -/
theorem Extends.andKnow {p : Parser β} {pieces : β → List Outline} {post : β → Prop}
    {f : β → Parser α} (hp : Yields p pieces)
    (hpost : ∀ {s u : Stream} {b : β}, p s = .ok (b, u) → post b)
    (hf : ∀ b, post b → Extends s₀ (before ++ pieces b) (f b) whole) :
    Extends s₀ before (p >>= f) whole := by
  intro s a v hs h
  obtain ⟨b, u, hb, ha⟩ := bind_eq_ok.mp h
  exact hf b (hpost hb) u a v (hs.trans (hp s b u hb)) ha

/-- At the start of a rule it is known what is looked at. -/
theorem Extends.atStart {p : Parser β} {b : β} {f : β → Parser α} (hp : Peeks p)
    (hpost : ∀ {s u : Stream} {b' : β}, s.current = s₀.current → p s = .ok (b', u) → b' = b)
    (hf : Extends s₀ [] (f b) whole) : Extends s₀ [] (p >>= f) whole := by
  intro s a v hs h
  obtain ⟨b', u, hb, ha⟩ := bind_eq_ok.mp h
  cases hp s b' u hb
  cases hpost hs.current_eq hb
  exact hf s a v hs ha

theorem Extends.peekAtStart {f : TokenKind → Parser α}
    (hf : Extends s₀ [] (f s₀.current.kind) whole) : Extends s₀ [] (peek >>= f) whole := by
  apply Extends.atStart peeks_peek _ hf
  intro s u kind hs h
  cases h
  rw [hs]

theorem Extends.isAtStart {kind : TokenKind} {f : Bool → Parser α}
    (hf : Extends s₀ [] (f (s₀.current.kind == kind)) whole) :
    Extends s₀ [] (isAt kind >>= f) whole := by
  apply Extends.atStart (peeks_isAt kind) _ hf
  intro s u b hs h
  cases h
  rw [hs]

theorem Extends.start {f : Nat → Parser α}
    (hf : Extends s₀ [] (f s₀.current.span.start) whole) :
    Extends s₀ [] (Parser.start >>= f) whole := by
  refine .atStart ?_ (fun hs h => ?_) hf
  · intro s n u h
    cases h
    rfl
  · cases h
    rw [hs]

/-- The first token of a rule is the one that was current when the rule began. -/
theorem Extends.bumpAtStart {f : Token → Parser α}
    (hf : Extends s₀ [.token s₀.current] (f s₀.current) whole) :
    Extends s₀ [] (bump >>= f) whole := by
  intro s a v hs h
  obtain ⟨t, u, ht, ha⟩ := bind_eq_ok.mp h
  have htoken : t = s₀.current := (bump_eq_ok ht).1.trans hs.current_eq
  subst htoken
  exact hf u a v (hs.trans (yields_bump s _ u ht)) ha

/-- A node that is the current token by itself has the span of the token. -/
theorem Extends.tokenNode {make : Token → α} {outline : α → Outline} {kind : TokenKind} {n : Node}
    (hkind : s₀.current.kind = kind) (hsolid : kind.isZeroWidth = false)
    (hn : outline (make s₀.current) = .node n [.token s₀.current])
    (hspan : n.span = s₀.current.span) :
    Extends s₀ [] (bump >>= fun t => Pure.pure (make t)) fun a => [outline a] := by
  apply Extends.bumpAtStart
  intro s a u hs hp
  cases pure_eq_ok.mp hp
  dsimp only
  rw [hn]
  refine hs.node ?_ (hs.spanned.exists_solid ?_)
  · rw [hspan]
    exact ⟨_, _, rfl, rfl, (Span.upTo_start_stop s₀.current.span).symm⟩
  · simpa using Outline.isSolid_token hkind hsolid

end Known

/-! ## Optional parts and repetition -/

theorem yields_optional {choice : Choice α} {pieces : α → List Outline}
    (h : ∀ kind part, choice kind = some part → Yields part pieces) :
    Yields (optional choice) fun o => o.elim [] pieces := by
  apply Yields.of_extends
  intro s₀
  apply Extends.look peeks_peek
  intro kind
  split
  · next part hpart =>
    apply Extends.andThen (h kind part hpart)
    intro a
    exact .pure rfl
  · exact .pure rfl

theorem yields_startedBy {begins : TokenKind → Bool} {part : Parser α}
    {pieces : α → List Outline} (h : Yields part pieces) (kind : TokenKind) (p : Parser α)
    (hp : Choice.startedBy begins part kind = some p) : Yields p pieces := by
  unfold Choice.startedBy at hp
  split at hp
  · cases hp
    exact h
  · cases hp

section Repetition

variable {s₀ : Stream} {choice : Choice α}

/-- Parts that are taken into a whole one after the other. -/
theorem Extends.repeatUpTo (whole : β → List Outline) (fold : β → α → β)
    (h : ∀ kind part b, choice kind = some part →
      Extends s₀ (whole b) part fun a => whole (fold b a)) (n : Nat) (b : β) :
    Extends s₀ (whole b) (repeatUpTo choice n) fun as => whole (as.foldl fold b) := by
  induction n generalizing b with
  | zero => exact .pure rfl
  | succ n ih =>
    apply Extends.look peeks_peek
    intro kind
    split
    · next part hpart =>
      apply Extends.bind (h kind part b hpart)
      intro first
      apply Extends.bind (ih (fold b first))
      intro more
      exact .pure rfl
    · exact .pure rfl

theorem Extends.many (whole : β → List Outline) (fold : β → α → β)
    (h : ∀ kind part b, choice kind = some part →
      Extends s₀ (whole b) part fun a => whole (fold b a)) (b : β) :
    Extends s₀ (whole b) (many choice) fun as => whole (as.foldl fold b) := by
  intro s as u hs hp
  exact Extends.repeatUpTo whole fold h _ b s as u hs hp

theorem yields_many {pieces : α → List Outline}
    (h : ∀ kind part, choice kind = some part → Yields part pieces) :
    Yields (many choice) fun as => as.flatMap pieces := by
  apply Yields.of_extends
  intro s₀
  have hmany : Extends s₀ [] (many choice)
      fun as => as.foldl (fun before a => before ++ pieces a) [] :=
    .many id (fun before a => before ++ pieces a)
      (fun kind part before hpart => (h kind part hpart).extends) []
  simp only [← List.flatMap_eq_foldl] at hmany
  exact hmany

end Repetition

/-! ## Separated items -/

section Separated

variable {s₀ : Stream} {separator : TokenKind} {more : α → Parser Bool}
  {item : Parser α} {pieces : α → List Outline}

theorem Extends.separatedUpTo (before : List Outline) (hmore : ∀ a, Peeks (more a))
    (hitem : Yields item pieces) (n : Nat) (first : α) :
    Extends s₀ (before ++ pieces first) (separatedUpTo separator more item n first)
      fun r => before ++ (r.1.pieces pieces ++ Outline.ofOption r.2) := by
  induction n generalizing first before with
  | zero => exact .pure (by simp [Separated.pieces, Outline.ofOption])
  | succ n ih =>
    apply Extends.look (peeks_isAt separator)
    intro b
    apply Extends.ite
    · apply Extends.andThen yields_bump
      intro token
      apply Extends.look (hmore first)
      intro b
      apply Extends.ite
      · apply Extends.andThen hitem
        intro next
        apply Extends.bind (ih (before ++ pieces first ++ [Outline.token token]) next)
        intro rest
        exact .pure (by simp [Separated.pieces])
      · exact .pure (by simp [Separated.pieces, Outline.ofOption])
    · exact .pure (by simp [Separated.pieces, Outline.ofOption])

theorem Extends.separatedFrom (before : List Outline) (hmore : ∀ a, Peeks (more a))
    (hitem : Yields item pieces) (first : α) :
    Extends s₀ (before ++ pieces first) (separatedFrom separator more item first)
      fun r => before ++ (r.1.pieces pieces ++ Outline.ofOption r.2) := by
  intro s r u hs hp
  exact Extends.separatedUpTo before hmore hitem _ first s r u hs hp

theorem separatedUpTo_trailing (n : Nat) (first : α) {s u : Stream}
    {r : Separated α × Option Token}
    (h : separatedUpTo separator (fun _ => Pure.pure true) item n first s = .ok (r, u)) :
    r.2 = none := by
  induction n generalizing first s r with
  | zero => cases pure_eq_ok.mp h; rfl
  | succ n ih =>
    obtain ⟨b, v, _, h⟩ := bind_eq_ok.mp h
    split at h
    · obtain ⟨token, v, _, h⟩ := bind_eq_ok.mp h
      obtain ⟨b, w, hmore, h⟩ := bind_eq_ok.mp h
      cases pure_eq_ok.mp hmore
      rw [if_pos rfl] at h
      obtain ⟨next, v, _, h⟩ := bind_eq_ok.mp h
      obtain ⟨rest, v, hrest, h⟩ := bind_eq_ok.mp h
      cases pure_eq_ok.mp h
      exact (ih next hrest :)
    · cases pure_eq_ok.mp h
      rfl

theorem yields_separated (hitem : Yields item pieces) :
    Yields (separated separator item) fun items => items.pieces pieces := by
  apply Yields.of_extends
  intro s₀
  apply Extends.andThen hitem
  intro first s items u hs hp
  obtain ⟨r, v, hr, hp⟩ := bind_eq_ok.mp hp
  cases pure_eq_ok.mp hp
  have hread := Extends.separatedFrom [] (fun _ => peeks_pure true) hitem first s r _ hs hr
  dsimp only at hread
  rwa [separatedUpTo_trailing _ first hr, Outline.ofOption, Option.toList_none, List.map_nil,
    List.append_nil] at hread

end Separated

end Verbatim.Parser
