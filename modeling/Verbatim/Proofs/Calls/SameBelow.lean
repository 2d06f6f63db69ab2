import Verbatim.Proofs.Decision.Alike

/-!
# Parsers that do the same on short streams

A parser that is put together from parts does the same on all streams with fewer than `b`
tokens left, as long as its parts do. A part that stands behind a token is only met on shorter
streams still, which is what ties a recursion to the length of its stream: parsers with enough
levels of the recursion do the same as the recursion itself.
-/

namespace Verbatim.Parser

variable {α β ι : Type}

/-- The parsers are the same on streams with fewer than `b` tokens after the current one, and the
first of them never goes back in its stream. -/
structure SameBelow (b : Nat) (p p' : Parser α) : Prop where
  eq : ∀ s : Stream, s.upcoming.length < b → p s = p' s
  descends : Descends p

variable {b c : Nat} {p p' : Parser α} {f f' : α → Parser β} {kind : TokenKind}

theorem Peeks.descends (h : Peeks p) : Descends p := by
  intro s a u hp
  cases h s a u hp
  exact Nat.le_refl _

theorem peeks_start : Peeks Parser.start := by
  intro s n u h
  cases h
  rfl

theorem peeks_spanFrom (n : Nat) : Peeks (Parser.spanFrom n) := by
  intro s span u h
  cases h
  rfl

theorem Yields.descends {pieces : α → List Outline} (h : Yields p pieces) : Descends p := by
  intro s a u hp
  have hlength := congrArg List.length (h s a u hp).moves.tokens_eq
  simp only [Stream.tokens, List.length_cons, List.length_append] at hlength
  omega

theorem descends_close {n : Nat} {make : Span → β} :
    Descends (spanFrom n >>= fun span => Pure.pure (make span)) :=
  ((peeks_spanFrom n).bind fun _ => peeks_pure _).descends

theorem Advances.start {f : Nat → Parser β} (hf : ∀ n, Advances (f n)) :
    Advances (Parser.start >>= f) :=
  peeks_start.descends.andThen hf

theorem Advances.bump {f : Token → Parser β} (hf : ∀ t, Descends (f t)) :
    Advances (Parser.bump >>= f) :=
  advances_bump.andThen hf

theorem Advances.expect {f : Token → Parser β} (hf : ∀ t, Descends (f t)) :
    Advances (Parser.expect kind >>= f) :=
  (advances_expect kind).andThen hf

theorem advances_of_piece {outline : α → Outline} (h : Yields p fun a => [outline a]) :
    Advances p :=
  h.advances fun _ => List.cons_ne_nil _ _

namespace SameBelow

theorem refl (h : Descends p) : SameBelow b p p :=
  ⟨fun _ _ => rfl, h⟩

theorem mono (h : SameBelow b p p') (hc : c ≤ b) : SameBelow c p p' :=
  ⟨fun s hs => h.eq s (Nat.lt_of_lt_of_le hs hc), h.descends⟩

theorem pred (h : SameBelow (b + 1) p p') : SameBelow b p p' :=
  h.mono (Nat.le_succ b)

/-! ## Steps -/

theorem pure {a : α} : SameBelow b (Pure.pure a) (Pure.pure a) :=
  .refl (descends_pure a)

theorem fail {cause : SyntaxCause} :
    SameBelow b (Parser.fail cause : Parser α) (Parser.fail cause) :=
  .refl (peeks_fail cause).descends

/-- What follows a parser is met on a stream that is shorter by the tokens taken. -/
theorem bindBy (h : SameBelow b p p')
    (htakes : ∀ s a u, p s = .ok (a, u) → u.upcoming.length + b ≤ s.upcoming.length + c)
    (hf : ∀ a, SameBelow c (f a) (f' a)) : SameBelow b (p >>= f) (p' >>= f') where
  eq s hs := by
    show (p s >>= fun r => f r.1 r.2) = (p' s >>= fun r => f' r.1 r.2)
    rw [← h.eq s hs]
    rcases hp : p s with error | ⟨a, u⟩
    · rfl
    · have htaken := htakes s a u hp
      exact (hf a).eq u (by omega)
  descends := h.descends.bind fun a => (hf a).descends

theorem bind (h : SameBelow b p p') (hf : ∀ a, SameBelow b (f a) (f' a)) :
    SameBelow b (p >>= f) (p' >>= f') :=
  h.bindBy (fun s a u hp => Nat.add_le_add_right (h.descends s a u hp) b) hf

/-- After a parser that takes a token, it suffices to be the same one token less far. -/
theorem andThen (h : SameBelow (b + 1) p p') (hp : Advances p)
    (hf : ∀ a, SameBelow b (f a) (f' a)) : SameBelow (b + 1) (p >>= f) (p' >>= f') := by
  refine h.bindBy (fun s a u ha => ?_) hf
  have hadvances := hp s a u ha
  omega

/-- The same step first on both sides, with no account of the tokens that it takes. -/
theorem past (hp : Descends p) (hf : ∀ a, SameBelow b (f a) (f' a)) :
    SameBelow b (p >>= f) (p >>= f') :=
  (refl hp).bind hf

theorem look (hp : Peeks p) (hf : ∀ a, SameBelow b (f a) (f' a)) :
    SameBelow b (p >>= f) (p >>= f') :=
  .past hp.descends hf

theorem start {f f' : Nat → Parser β} (hf : ∀ n, SameBelow b (f n) (f' n)) :
    SameBelow b (Parser.start >>= f) (Parser.start >>= f') :=
  .look peeks_start hf

theorem peek {f f' : TokenKind → Parser β} (hf : ∀ kind, SameBelow b (f kind) (f' kind)) :
    SameBelow b (Parser.peek >>= f) (Parser.peek >>= f') :=
  .look peeks_peek hf

theorem isAt {f f' : Bool → Parser β} (hf : ∀ c, SameBelow b (f c) (f' c)) :
    SameBelow b (Parser.isAt kind >>= f) (Parser.isAt kind >>= f') :=
  .look (peeks_isAt kind) hf

theorem bump {f f' : Token → Parser β} (hf : ∀ t, SameBelow b (f t) (f' t)) :
    SameBelow (b + 1) (Parser.bump >>= f) (Parser.bump >>= f') :=
  (refl advances_bump.descends).andThen advances_bump hf

theorem expect {f f' : Token → Parser β} (hf : ∀ t, SameBelow b (f t) (f' t)) :
    SameBelow (b + 1) (Parser.expect kind >>= f) (Parser.expect kind >>= f') :=
  (refl (advances_expect kind).descends).andThen (advances_expect kind) hf

theorem pastExpect {f f' : Token → Parser β} (hf : ∀ t, SameBelow b (f t) (f' t)) :
    SameBelow b (Parser.expect kind >>= f) (Parser.expect kind >>= f') :=
  .past (advances_expect kind).descends hf

theorem pastEat {f f' : Option Token → Parser β} (hf : ∀ o, SameBelow b (f o) (f' o)) :
    SameBelow b (Parser.eat kind >>= f) (Parser.eat kind >>= f') :=
  .past (yields_eat kind).descends hf

theorem eat {f f' : Option Token → Parser β}
    (hsome : ∀ t, SameBelow b (f (some t)) (f' (some t)))
    (hnone : SameBelow (b + 1) (f none) (f' none)) :
    SameBelow (b + 1) (Parser.eat kind >>= f) (Parser.eat kind >>= f') := by
  rw [eat_bind, eat_bind]
  refine .isAt fun atKind => ?_
  split
  · exact .bump hsome
  · exact hnone

theorem ite {d : Prop} [Decidable d] {q q' : Parser α} (hp : SameBelow b p p')
    (hq : SameBelow b q q') : SameBelow b (if d then p else q) (if d then p' else q') := by
  split
  · exact hp
  · exact hq

/-- The last step of a rule. -/
theorem close {n : Nat} {make : Span → β} :
    SameBelow b (spanFrom n >>= fun span => Pure.pure (make span))
      (spanFrom n >>= fun span => Pure.pure (make span)) :=
  .refl descends_close

/-! ## Optional parts and repetition -/

variable {choice choice' : Choice α}

theorem optional (h : ∀ kind, Option.Rel (SameBelow b) (choice kind) (choice' kind)) :
    SameBelow b (Parser.optional choice) (Parser.optional choice') := by
  refine .peek fun kind => ?_
  have hkind := h kind
  generalize choice kind = o at hkind
  generalize choice' kind = o' at hkind
  cases hkind with
  | some hpart => exact hpart.bind fun _ => .pure
  | none => exact .pure

theorem repeatUpTo (h : ∀ kind, Option.Rel (SameBelow b) (choice kind) (choice' kind)) (n : Nat) :
    SameBelow b (Parser.repeatUpTo choice n) (Parser.repeatUpTo choice' n) := by
  induction n with
  | zero => exact .pure
  | succ n ih =>
    refine .peek fun kind => ?_
    have hkind := h kind
    generalize choice kind = o at hkind
    generalize choice' kind = o' at hkind
    cases hkind with
    | some hpart => exact hpart.bind fun _ => ih.bind fun _ => .pure
    | none => exact .pure

/-- Both parsers have as many turns as their common stream has tokens. -/
theorem atLength {P P' : Nat → Parser α} (h : ∀ n, SameBelow b (P n) (P' n)) :
    SameBelow b (fun s => P (s.upcoming.length + 1) s)
      (fun s => P' (s.upcoming.length + 1) s) where
  eq s hs := (h _).eq s hs
  descends s a u hp := (h _).descends s a u hp

theorem many (h : ∀ kind, Option.Rel (SameBelow b) (choice kind) (choice' kind)) :
    SameBelow b (Parser.many choice) (Parser.many choice') :=
  .atLength (repeatUpTo h)

section Separated

variable {separator : TokenKind} {more : α → Parser Bool}

theorem separatedUpTo (hmore : ∀ a, Peeks (more a)) (hitem : SameBelow b p p') (n : Nat)
    (first : α) :
    SameBelow b (Parser.separatedUpTo separator more p n first)
      (Parser.separatedUpTo separator more p' n first) := by
  induction n generalizing first with
  | zero => exact .pure
  | succ n ih =>
    refine .isAt fun _ => .ite ?_ .pure
    refine (refl advances_bump.descends).bind fun token => ?_
    refine .look (hmore first) fun goes => .ite ?_ .pure
    exact hitem.bind fun next => (ih next).bind fun rest => .pure

theorem separatedFrom (hmore : ∀ a, Peeks (more a)) (hitem : SameBelow b p p') (first : α) :
    SameBelow b (Parser.separatedFrom separator more p first)
      (Parser.separatedFrom separator more p' first) :=
  .atLength fun n => separatedUpTo hmore hitem n first

end Separated

end SameBelow

theorem descends_many {choice : Choice α}
    (h : ∀ kind part, choice kind = some part → Descends part) :
    Descends (Parser.many choice) := by
  have hmany : SameBelow 0 (Parser.many choice) (Parser.many choice) := by
    refine .many fun kind => ?_
    rcases hpart : choice kind with _ | part
    · exact .none
    · exact .some (.refl (h kind part hpart))
  exact hmany.descends

/-! ## Recursion -/

/-- Parsers of which each level calls the level below it, and only behind a token. -/
structure Knot (body : (ι → Parser α) → ι → Parser α) (level : Nat → ι → Parser α) : Prop where
  zero : ∀ i, Descends (level 0 i)
  succ : ∀ n i, level (n + 1) i = body (level n) i
  same : ∀ {b : Nat} {part part' : ι → Parser α}, (∀ i, SameBelow b (part i) (part' i)) →
    ∀ i, SameBelow (b + 1) (body part i) (body part' i)

/-- What the body gives at `s` depends on what member `i` of the family gives at `u`: it changes
with a family that is different there and nowhere else. -/
def Consults (body : (ι → Parser α) → Parser β) (family : ι → Parser α) (s : Stream) (i : ι)
    (u : Stream) : Prop :=
  ∃ other : ι → Parser α, (∀ j v, (j, v) ≠ (i, u) → other j v = family j v) ∧
    body other s ≠ body family s

/-- The parsers are those of an endless recursion, which calls itself on shorter streams only. -/
structure Recursion (body : (ι → Parser α) → ι → Parser α) (family : ι → Parser α) : Prop where
  eq : ∀ i, family i = body family i
  shortens : ∀ {s u : Stream} {i j : ι}, Consults (body · i) family s j u →
    u.upcoming.length < s.upcoming.length

/-- No result is every error. -/
theorem exists_ne_error (result : Except ParseError (α × Stream)) : ∃ e, result ≠ .error e := by
  by_cases h : result = .error (.lexical ⟨.inconsistentIndentation, 0⟩)
  · refine ⟨.lexical ⟨.inconsistentIndentation, 1⟩, ?_⟩
    rw [h]
    rintro ⟨⟩
  · exact ⟨_, h⟩

/-- A body that runs a member consults it: it fails as the member there does, with any error. -/
theorem Consults.of_fails {body : (ι → Parser α) → Parser β} {family : ι → Parser α}
    {s u : Stream} {i : ι}
    (h : ∀ other e, (∀ j v, (j, v) ≠ (i, u) → other j v = family j v) →
      other i u = .error e → body other s = .error e) : Consults body family s i u := by
  classical
  obtain ⟨e, he⟩ := exists_ne_error (body family s)
  have hother (j : ι) (v : Stream) (hne : (j, v) ≠ (i, u)) :
      (if (j, v) = (i, u) then .error e else family j v) = family j v :=
    if_neg hne
  refine ⟨fun j v => if (j, v) = (i, u) then .error e else family j v, hother, ?_⟩
  rw [h _ e hother (if_pos rfl)]
  exact he.symm

theorem Consults.lt {body : (ι → Parser α) → Parser β} {family : ι → Parser α} {s u : Stream}
    {i : ι} (h : Consults body family s i u) (hfamily : ∀ i, Descends (family i))
    (hbody : ∀ {b : Nat} {part part' : ι → Parser α}, (∀ i, SameBelow b (part i) (part' i)) →
      SameBelow (b + 1) (body part) (body part')) :
    u.upcoming.length < s.upcoming.length := by
  obtain ⟨other, hother, hne⟩ := h
  refine Nat.lt_of_not_le fun hle => hne ?_
  have hsame (j : ι) : SameBelow s.upcoming.length (family j) (other j) := by
    refine ⟨fun v hv => (hother j v ?_).symm, hfamily j⟩
    rintro ⟨⟩
    exact Nat.not_lt_of_le hle hv
  exact ((hbody hsame).eq s (Nat.lt_succ_self _)).symm

namespace Knot

variable {body : (ι → Parser α) → ι → Parser α} {level : Nat → ι → Parser α}

theorem level_le (h : Knot body level) {n m : Nat} (hle : n ≤ m) (i : ι) :
    SameBelow n (level n i) (level m i) := by
  induction n generalizing m i with
  | zero => exact ⟨fun s hs => absurd hs (Nat.not_lt_zero _), h.zero i⟩
  | succ n ih =>
    obtain ⟨m, rfl⟩ := Nat.exists_eq_add_of_le' (Nat.le_trans (Nat.le_add_left 1 n) hle)
    rw [h.succ, h.succ]
    exact h.same (fun i => ih (Nat.le_of_succ_le_succ hle) i) i

/-- With one level for each token that is left, the parsers do all that they ever do. -/
theorem level_tied (h : Knot body level) (n : Nat) (i : ι) :
    SameBelow n (level n i) fun s => level (s.upcoming.length + 1) i s where
  eq s hs := ((h.level_le hs i).eq s (Nat.lt_succ_self _)).symm
  descends := (h.level_le (Nat.le_refl n) i).descends

theorem tied_descends (h : Knot body level) (i : ι) :
    Descends fun s => level (s.upcoming.length + 1) i s :=
  fun s a u hp => (h.level_le (Nat.le_refl _) i).descends s a u hp

theorem recursion (h : Knot body level) :
    Recursion body fun i s => level (s.upcoming.length + 1) i s where
  eq i := by
    funext s
    rw [h.succ]
    exact (h.same (h.level_tied s.upcoming.length) i).eq s (Nat.lt_succ_self _)
  shortens hconsults := hconsults.lt h.tied_descends fun hpart => h.same hpart _

end Knot

/-! ## Loops -/

/-- One turn of a loop, and the turns after it. -/
def manyTurn (choice : Choice α) (rest : Parser (List α)) : Parser (List α) := do
  match choice (← Parser.peek) with
  | some part =>
    let first ← part
    let more ← rest
    return first :: more
  | none => return []

def separatedTurn (separator : TokenKind) (more : α → Parser Bool) (item : Parser α)
    (rest : α → Parser (Separated α × Option Token)) (first : α) :
    Parser (Separated α × Option Token) := do
  if ← Parser.isAt separator then
    let token ← Parser.bump
    if ← more first then
      let next ← item
      let (items, trailing) ← rest next
      return (.cons first token items, trailing)
    else return (.one first, some token)
  else return (.one first, none)

theorem recursion_many {choice : Choice α}
    (h : ∀ kind part, choice kind = some part → Advances part) :
    Recursion (fun rest (_ : Unit) => manyTurn choice (rest ())) fun _ => Parser.many choice := by
  have hknot : Knot (fun rest (_ : Unit) => manyTurn choice (rest ()))
      fun n _ => Parser.repeatUpTo choice n := by
    refine ⟨fun _ => descends_pure [], fun _ _ => rfl, fun hrest _ => .peek fun kind => ?_⟩
    rcases hpart : choice kind with _ | part
    · exact .pure
    · have hadvances := h kind part hpart
      exact (SameBelow.refl hadvances.descends).andThen hadvances fun first =>
        (hrest ()).bind fun more => .pure
  exact hknot.recursion

theorem recursion_separatedFrom {separator : TokenKind} {more : α → Parser Bool} {item : Parser α}
    (hmore : ∀ a, Peeks (more a)) (hitem : Descends item) :
    Recursion (separatedTurn separator more item) (Parser.separatedFrom separator more item) := by
  have hknot : Knot (separatedTurn separator more item)
      (Parser.separatedUpTo separator more item) := by
    refine ⟨fun _ => descends_pure _, fun _ _ => rfl, fun hrest first => ?_⟩
    refine .isAt fun _ => .ite (.bump fun token => ?_) .pure
    refine .look (hmore first) fun goes => .ite ?_ .pure
    exact (SameBelow.refl hitem).bind fun next => (hrest next).bind fun rest => .pure
  exact hknot.recursion

end Verbatim.Parser
