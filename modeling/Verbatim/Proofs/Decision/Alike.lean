import Verbatim.Proofs.Grammar.Combinators
import Verbatim.Proofs.Tree.Relabel

/-!
# Parsers that cannot tell two streams apart

Two streams agree up to token `k` when a relabelling takes their tokens up to there to the
same tokens, and one of them ends there just when the other does. Two parsers are alike when
on such streams they return the same but for the labels, or fail at the same token, or both
come past token `k` before either is seen. The rules below say that parsers that are put
together from alike parts are alike.

The two parsers are one and the same in the end. They are kept apart since loops and
recursion have as many turns as there are tokens left, and this number differs between the
two streams. The bound `b` says up to which token the parsers are known to be alike, and
grows with each token taken.
-/

namespace Verbatim

namespace Stream

/-- The stream `u` is `s` without its first `m` tokens. -/
structure Drops (s : Stream) (m : Nat) (u : Stream) : Prop where
  tokens_eq : s.tokens.drop m = u.tokens
  failure : u.failure = s.failure

/-- How a parser can end that started at `s` and has come to token `k` or further. -/
inductive Reaches {α : Type} (s : Stream) (k : Nat) : Except ParseError (α × Stream) → Prop
  | ok {m : Nat} {a : α} {u : Stream} (hm : k ≤ m) (hu : s.Drops m u) : Reaches s k (.ok (a, u))
  | syntactic {m : Nat} {e : SyntaxError} (hm : k ≤ m) (ht : s.tokens[m]? = some e.token) :
      Reaches s k (.error (.syntactic e))
  | lexical {e : LexicalError} (h : s.failure = some e) : Reaches s k (.error (.lexical e))

/-- The streams end at token `k`, and no lexical error is the cause. -/
def EndsAt (s : Stream) (k : Nat) : Prop :=
  s.upcoming.length = k ∧ s.failure = none

structure Agree (ρ : Relabelling) (k : Nat) (s s' : Stream) : Prop where
  left : k ≤ s.upcoming.length
  right : k ≤ s'.upcoming.length
  tokens : (s.tokens.take (k + 1)).map ρ.token = (s'.tokens.take (k + 1)).map ρ.token
  ends : s.EndsAt k ↔ s'.EndsAt k

/-- Two parses that do the same up to token `k`. -/
inductive Alike {α γ : Type} (view : α → γ) (k : Nat) (s s' : Stream) :
    Except ParseError (α × Stream) → Except ParseError (α × Stream) → Prop
  | ok {m : Nat} {a a' : α} {u u' : Stream} (hm : m ≤ k) (hu : s.Drops m u) (hu' : s'.Drops m u')
      (h : view a = view a') : Alike view k s s' (.ok (a, u)) (.ok (a', u'))
  | fails {m : Nat} {cause : SyntaxCause} {t t' : Token} (hm : m ≤ k) (ht : s.tokens[m]? = some t)
      (ht' : s'.tokens[m]? = some t') :
      Alike view k s s' (.error (.syntactic ⟨cause, t⟩)) (.error (.syntactic ⟨cause, t'⟩))
  | past {x x' : Except ParseError (α × Stream)} (h : s.Reaches (k + 1) x)
      (h' : s'.Reaches (k + 1) x') : Alike view k s s' x x'

variable {α β γ δ : Type} {ρ : Relabelling} {s s' u u' v : Stream} {k m n : Nat}

theorem Drops.refl (s : Stream) : s.Drops 0 s :=
  ⟨rfl, rfl⟩

theorem Drops.trans (h : s.Drops m u) (h' : u.Drops n v) : s.Drops (m + n) v where
  tokens_eq := by rw [← List.drop_drop, h.tokens_eq, h'.tokens_eq]
  failure := h'.failure.trans h.failure

theorem Drops.length_eq (h : s.Drops m u) : s.upcoming.length = m + u.upcoming.length := by
  have := congrArg List.length h.tokens_eq
  simp only [tokens, List.length_drop, List.length_cons] at this
  omega

theorem Drops.endsAt_iff (h : s.Drops m u) (hm : m ≤ k) : u.EndsAt (k - m) ↔ s.EndsAt k := by
  have hlength := h.length_eq
  have hiff : u.upcoming.length = k - m ↔ s.upcoming.length = k := by omega
  rw [EndsAt, EndsAt, h.failure, hiff]

theorem Drops.getElem? (h : s.Drops m u) (n : Nat) : u.tokens[n]? = s.tokens[m + n]? := by
  rw [← h.tokens_eq, List.getElem?_drop]

theorem Reaches.mono {x : Except ParseError (α × Stream)} (h : s.Reaches m x) (hk : k ≤ m) :
    s.Reaches k x := by
  cases h with
  | ok hm hu => exact .ok (Nat.le_trans hk hm) hu
  | syntactic hm ht => exact .syntactic (Nat.le_trans hk hm) ht
  | lexical h => exact .lexical h

theorem Reaches.after {x : Except ParseError (α × Stream)} (h : u.Reaches k x)
    (hu : s.Drops m u) : s.Reaches (m + k) x := by
  cases h with
  | ok hm hv => exact .ok (Nat.add_le_add_left hm m) (hu.trans hv)
  | syntactic hm ht =>
    refine .syntactic (Nat.add_le_add_left hm m) ?_
    rw [← hu.getElem?]
    exact ht
  | lexical h => exact .lexical (hu.failure.symm.trans h)

/-- What follows a parse that has come to token `k` comes at least as far. -/
theorem Reaches.bind {x : Except ParseError (α × Stream)} {f : α → Parser β}
    (h : s.Reaches k x) (hf : ∀ a (v : Stream), v.Reaches 0 (f a v)) :
    s.Reaches k (x >>= fun r => f r.1 r.2) := by
  cases h with
  | ok hm hu => exact ((hf _ _).after hu).mono hm
  | syntactic hm ht => exact .syntactic hm ht
  | lexical h => exact .lexical h

theorem Agree.current (h : s.Agree ρ k s') : ρ.token s.current = ρ.token s'.current :=
  (List.cons.inj h.tokens).1

theorem Agree.drop (h : s.Agree ρ k s') (hm : m ≤ k) (hu : s.Drops m u) (hu' : s'.Drops m u') :
    u.Agree ρ (k - m) u' := by
  have hlength := hu.length_eq
  have hlength' := hu'.length_eq
  have hleft := h.left
  have hright := h.right
  refine ⟨?_, ?_, ?_, ?_⟩
  · omega
  · omega
  · have hsum : m + (k - m + 1) = k + 1 := by omega
    rw [← hu.tokens_eq, ← hu'.tokens_eq, List.take_drop, List.take_drop, hsum, List.map_drop,
      List.map_drop, h.tokens]
  · rw [hu.endsAt_iff hm, hu'.endsAt_iff hm]
    exact h.ends

/-- The second of two parses continues after the first. -/
theorem Alike.after {view : α → γ} {x x' : Except ParseError (α × Stream)}
    (h : u.Alike view (k - m) u' x x') (hm : m ≤ k) (hu : s.Drops m u) (hu' : s'.Drops m u') :
    s.Alike view k s' x x' := by
  have hsum : m + (k - m + 1) = k + 1 := by omega
  cases h with
  | ok hn hv hv' ha => exact .ok (by omega) (hu.trans hv) (hu'.trans hv') ha
  | @fails n _ _ _ hn ht ht' =>
    rw [hu.getElem?] at ht
    rw [hu'.getElem?] at ht'
    exact .fails (by omega) ht ht'
  | past h h' => exact .past (hsum ▸ h.after hu) (hsum ▸ h'.after hu')

theorem Alike.bind {view : α → γ} {w : β → δ} {x x' : Except ParseError (α × Stream)}
    {f f' : α → Parser β} (h : s.Alike view k s' x x')
    (hleft : ∀ a (v : Stream), v.Reaches 0 (f a v))
    (hright : ∀ a (v : Stream), v.Reaches 0 (f' a v))
    (hboth : ∀ {m a a'} {u u' : Stream}, x = .ok (a, u) → view a = view a' → m ≤ k →
      s.Drops m u → s'.Drops m u' → u.Alike w (k - m) u' (f a u) (f' a' u')) :
    s.Alike w k s' (x >>= fun r => f r.1 r.2) (x' >>= fun r => f' r.1 r.2) := by
  cases h with
  | ok hm hu hu' ha => exact (hboth rfl ha hm hu hu').after hm hu hu'
  | fails hm ht ht' => exact .fails hm ht ht'
  | past h h' => exact .past (h.bind hleft) (h'.bind hright)

end Stream

namespace Parser

variable {α β γ δ : Type}

/-- Up to any token before `b`, the parsers do the same on streams that agree. In any case
they only move on in their stream and fail at one of its tokens or at its end. -/
structure Alike (ρ : Relabelling) (b : Nat) (view : α → γ) (p p' : Parser α) : Prop where
  left : ∀ s : Stream, s.Reaches 0 (p s)
  right : ∀ s : Stream, s.Reaches 0 (p' s)
  both : ∀ k (s s' : Stream), k < b → s.Agree ρ k s' → s.Alike view k s' (p s) (p' s')

/-- The parser takes a token whenever it succeeds. -/
def Advances (p : Parser α) : Prop :=
  ∀ s a u, p s = .ok (a, u) → u.upcoming.length < s.upcoming.length

/-- The parser never goes back in its stream. -/
def Descends (p : Parser α) : Prop :=
  ∀ s a u, p s = .ok (a, u) → u.upcoming.length ≤ s.upcoming.length

structure Takes (ρ : Relabelling) (b : Nat) (view : α → γ) (p p' : Parser α) : Prop extends
    Alike ρ b view p p' where
  advances : Advances p

variable {ρ : Relabelling} {b c : Nat} {view : α → γ} {p p' : Parser α}

theorem Alike.mono (h : Alike ρ b view p p') (hc : c ≤ b) : Alike ρ c view p p' :=
  ⟨h.left, h.right, fun k s s' hk => h.both k s s' (Nat.lt_of_lt_of_le hk hc)⟩

theorem Alike.pred (h : Alike ρ (b + 1) view p p') : Alike ρ b view p p' :=
  h.mono (Nat.le_succ b)

/-! ## Steps -/

theorem Alike.pure {a a' : α} (h : view a = view a') :
    Alike ρ b view (Pure.pure a) (Pure.pure a') where
  left s := .ok (Nat.zero_le 0) (.refl s)
  right s := .ok (Nat.zero_le 0) (.refl s)
  both k s s' _ _ := .ok (Nat.zero_le k) (.refl s) (.refl s') h

theorem Alike.fail {cause : SyntaxCause} :
    Alike ρ b view (Parser.fail cause) (Parser.fail cause) where
  left _ := .syntactic (Nat.zero_le 0) rfl
  right _ := .syntactic (Nat.zero_le 0) rfl
  both k _ _ _ _ := .fails (Nat.zero_le k) rfl rfl

theorem Alike.peek : Alike ρ b id Parser.peek Parser.peek where
  left s := .ok (Nat.zero_le 0) (.refl s)
  right s := .ok (Nat.zero_le 0) (.refl s)
  both k s s' _ h := .ok (Nat.zero_le k) (.refl s) (.refl s') (ρ.kind_eq h.current)

theorem Alike.start : Alike ρ b (fun _ => ()) Parser.start Parser.start where
  left s := .ok (Nat.zero_le 0) (.refl s)
  right s := .ok (Nat.zero_le 0) (.refl s)
  both k s s' _ _ := .ok (Nat.zero_le k) (.refl s) (.refl s') rfl

theorem Alike.spanFrom {n n' : Nat} :
    Alike ρ b (fun _ => ()) (Parser.spanFrom n) (Parser.spanFrom n') where
  left s := .ok (Nat.zero_le 0) (.refl s)
  right s := .ok (Nat.zero_le 0) (.refl s)
  both k s s' _ _ := .ok (Nat.zero_le k) (.refl s) (.refl s') rfl

theorem reaches_bump (s : Stream) : s.Reaches 0 (Parser.bump s) := by
  unfold Parser.bump
  split
  · next hupcoming =>
    exact .ok (m := 1) (Nat.zero_le 1) ⟨by rw [Stream.tokens, hupcoming]; rfl, rfl⟩
  · next hfailure => exact .lexical hfailure
  · exact .syntactic (m := 0) (Nat.zero_le 0) rfl

theorem bump_of_upcoming {s : Stream} (h : 0 < s.upcoming.length) :
    ∃ u, Parser.bump s = .ok (s.current, u) ∧ s.Drops 1 u := by
  unfold Parser.bump
  split
  · next hupcoming => exact ⟨_, rfl, by rw [Stream.tokens, hupcoming]; rfl, rfl⟩
  · next hupcoming _ => simp [hupcoming] at h
  · next hupcoming _ => simp [hupcoming] at h

/-- Unless the stream ends, taking its token comes past it, if only to a lexical error. -/
theorem reaches_bump_of_not_endsAt {s : Stream} (h : ¬ s.EndsAt 0) :
    s.Reaches 1 (Parser.bump s) := by
  unfold Parser.bump
  split
  · next hupcoming =>
    exact .ok (Nat.le_refl 1) ⟨by rw [Stream.tokens, hupcoming]; rfl, rfl⟩
  · next hfailure => exact .lexical hfailure
  · next hupcoming hfailure => exact absurd ⟨by rw [hupcoming]; rfl, hfailure⟩ h

theorem bump_of_endsAt {s : Stream} (h : s.EndsAt 0) :
    Parser.bump s = .error (.syntactic ⟨.expectedAtom, s.current⟩) := by
  unfold Parser.bump
  rw [List.length_eq_zero_iff.mp h.1, h.2]

theorem Alike.bump : Alike ρ b ρ.token Parser.bump Parser.bump where
  left := reaches_bump
  right := reaches_bump
  both k s s' _ h := by
    cases k with
    | zero =>
      by_cases hend : s.EndsAt 0
      · rw [bump_of_endsAt hend, bump_of_endsAt (h.ends.mp hend)]
        exact .fails (Nat.le_refl 0) rfl rfl
      · exact .past (reaches_bump_of_not_endsAt hend)
          (reaches_bump_of_not_endsAt fun hend' => hend (h.ends.mpr hend'))
    | succ k =>
      obtain ⟨u, hu, hdrop⟩ := bump_of_upcoming (Nat.lt_of_lt_of_le (Nat.succ_pos k) h.left)
      obtain ⟨u', hu', hdrop'⟩ := bump_of_upcoming (Nat.lt_of_lt_of_le (Nat.succ_pos k) h.right)
      rw [hu, hu']
      exact .ok (Nat.succ_le_succ (Nat.zero_le k)) hdrop hdrop' h.current

theorem Alike.endOfFile : Alike ρ b ρ.token Parser.endOfFile Parser.endOfFile := by
  have hreaches (s : Stream) : s.Reaches 0 (Parser.endOfFile s) := by
    unfold Parser.endOfFile
    split
    · exact .ok (Nat.zero_le 0) ⟨rfl, rfl⟩
    · exact .syntactic (Nat.zero_le 0) rfl
  refine ⟨hreaches, hreaches, fun k s s' _ h => ?_⟩
  have hkind := ρ.kind_eq h.current
  unfold Parser.endOfFile
  rw [hkind]
  split
  · exact .ok (Nat.zero_le k) ⟨rfl, rfl⟩ ⟨rfl, rfl⟩ h.current
  · exact .fails (Nat.zero_le k) rfl rfl

/-! ## Sequences -/

theorem Alike.bind {w : β → δ} {f f' : α → Parser β} (h : Alike ρ b view p p')
    (hf : ∀ a a', view a = view a' → Alike ρ b w (f a) (f' a')) :
    Alike ρ b w (p >>= f) (p' >>= f') where
  left s := (h.left s).bind fun a v => (hf a a rfl).left v
  right s := (h.right s).bind fun a v => (hf a a rfl).right v
  both k s s' hk hs := by
    refine (h.both k s s' hk hs).bind (fun a v => (hf a a rfl).left v)
      (fun a v => (hf a a rfl).right v) fun _ ha hm hu hu' => ?_
    exact (hf _ _ ha).both _ _ _ (by omega) (hs.drop hm hu hu')

theorem Alike.map {w : β → δ} {f : α → β} (h : Alike ρ b view p p')
    (hf : ∀ a a', view a = view a' → w (f a) = w (f a')) : Alike ρ b w (f <$> p) (f <$> p') := by
  rw [map_eq_pure_bind, map_eq_pure_bind]
  exact h.bind fun a a' ha => .pure (hf a a' ha)

/-- After a parser that takes a token, it suffices to be alike one token less far. -/
theorem Alike.andThen {w : β → δ} {f f' : α → Parser β} (h : Alike ρ b view p p')
    (hp : Advances p) (hf : ∀ a a', view a = view a' → Alike ρ (b - 1) w (f a) (f' a')) :
    Alike ρ b w (p >>= f) (p' >>= f') where
  left s := (h.left s).bind fun a v => (hf a a rfl).left v
  right s := (h.right s).bind fun a v => (hf a a rfl).right v
  both k s s' hk hs := by
    refine (h.both k s s' hk hs).bind (fun a v => (hf a a rfl).left v)
      (fun a v => (hf a a rfl).right v) fun hx ha hm hu hu' => ?_
    have hadvances := hp _ _ _ hx
    have hlength := hu.length_eq
    exact (hf _ _ ha).both _ _ _ (by omega) (hs.drop hm hu hu')

theorem Alike.ite {c : Prop} [Decidable c] {q q' : Parser α} (hp : Alike ρ b view p p')
    (hq : Alike ρ b view q q') : Alike ρ b view (if c then p else q) (if c then p' else q') := by
  split
  · exact hp
  · exact hq

/-- Parsers that take a token do so whatever comes after it. -/
theorem Advances.bind {f : α → Parser β} (hp : Advances p)
    (hf : ∀ a (s : Stream), s.Reaches 0 (f a s)) : Advances (p >>= f) := by
  intro s a v h
  obtain ⟨a, u, ha, h⟩ := bind_eq_ok.mp h
  have hadvances := hp s a u ha
  have hreaches := hf a u
  rw [h] at hreaches
  cases hreaches with
  | ok _ hdrop =>
    have hlength := hdrop.length_eq
    omega

theorem Advances.descends (h : Advances p) : Descends p :=
  fun s a u hp => Nat.le_of_lt (h s a u hp)

theorem descends_pure (a : α) : Descends (Pure.pure a) := by
  intro s d u hrun
  cases hrun
  exact Nat.le_refl _

theorem Descends.bind {f : α → Parser β} (hp : Descends p) (hf : ∀ a, Descends (f a)) :
    Descends (p >>= f) := by
  intro s c v h
  obtain ⟨a, u, ha, hc⟩ := bind_eq_ok.mp h
  exact Nat.le_trans (hf a u c v hc) (hp s a u ha)

theorem Advances.andThen {f : α → Parser β} (hp : Advances p) (hf : ∀ a, Descends (f a)) :
    Advances (p >>= f) := by
  intro s c v h
  obtain ⟨a, u, ha, hc⟩ := bind_eq_ok.mp h
  exact Nat.lt_of_le_of_lt (hf a u c v hc) (hp s a u ha)

theorem Descends.andThen {f : α → Parser β} (hp : Descends p) (hf : ∀ a, Advances (f a)) :
    Advances (p >>= f) := by
  intro s c v h
  obtain ⟨a, u, ha, hc⟩ := bind_eq_ok.mp h
  exact Nat.lt_of_lt_of_le (hf a u c v hc) (hp s a u ha)

theorem advances_bump : Advances Parser.bump := by
  intro s t u h
  rw [(bump_eq_ok h).2.1]
  exact Nat.lt_succ_self _

theorem advances_expect (kind : TokenKind) : Advances (expect kind) := by
  intro s t u h
  obtain ⟨b, v, hb, h⟩ := bind_eq_ok.mp h
  cases hb
  split at h
  · exact advances_bump s t u h
  · exact absurd h fail_ne_ok

theorem Yields.advances {pieces : α → List Outline} (h : Yields p pieces)
    (hne : ∀ a, pieces a ≠ []) : Advances p := by
  intro s a u hp
  have hread := h s a u hp
  have htokens := hread.moves.tokens_eq
  have hlength := congrArg List.length htokens
  have hpos := List.length_pos_iff.mpr (hread.spanned.tokensOf_ne_nil (hne a))
  simp only [Stream.tokens, List.length_cons, List.length_append] at hlength
  omega

/-! ## Looking and taking -/

section Steps

variable {kind : TokenKind} {w : β → δ}

theorem Alike.bindStart {f f' : Nat → Parser β} (hf : ∀ n n', Alike ρ b w (f n) (f' n')) :
    Alike ρ b w (Parser.start >>= f) (Parser.start >>= f') :=
  Alike.start.bind fun n n' _ => hf n n'

theorem Alike.bindPeek {f f' : TokenKind → Parser β} (hf : ∀ kind, Alike ρ b w (f kind) (f' kind)) :
    Alike ρ b w (Parser.peek >>= f) (Parser.peek >>= f') := by
  refine Alike.peek.bind fun kind _ h => ?_
  cases h
  exact hf kind

theorem Alike.isAt : Alike ρ b id (Parser.isAt kind) (Parser.isAt kind) :=
  .bindPeek fun _ => .pure rfl

theorem Alike.bindIsAt {f f' : Bool → Parser β} (hf : ∀ c, Alike ρ b w (f c) (f' c)) :
    Alike ρ b w (Parser.isAt kind >>= f) (Parser.isAt kind >>= f') := by
  refine Alike.isAt.bind fun c _ h => ?_
  cases h
  exact hf c

theorem Takes.bindBump {f f' : Token → Parser β}
    (hf : ∀ t t', ρ.token t = ρ.token t' → Alike ρ b w (f t) (f' t')) :
    Takes ρ (b + 1) w (Parser.bump >>= f) (Parser.bump >>= f') where
  toAlike := Alike.bump.andThen advances_bump hf
  advances := advances_bump.bind fun t s => (hf t t rfl).left s

theorem Takes.bind {f f' : α → Parser β} (h : Takes ρ b view p p')
    (hf : ∀ a a', view a = view a' → Alike ρ b w (f a) (f' a')) :
    Takes ρ b w (p >>= f) (p' >>= f') where
  toAlike := h.toAlike.bind hf
  advances := h.advances.bind fun a s => (hf a a rfl).left s

theorem Takes.bindStart {f f' : Nat → Parser β} (hf : ∀ n n', Takes ρ b w (f n) (f' n')) :
    Takes ρ b w (Parser.start >>= f) (Parser.start >>= f') where
  toAlike := .bindStart fun n n' => (hf n n').toAlike
  advances s a u h := by
    obtain ⟨n, v, hn, h⟩ := bind_eq_ok.mp h
    cases hn
    exact (hf _ 0).advances s a u h

theorem Alike.bindBump {f f' : Token → Parser β}
    (hf : ∀ t t', ρ.token t = ρ.token t' → Alike ρ b w (f t) (f' t')) :
    Alike ρ (b + 1) w (Parser.bump >>= f) (Parser.bump >>= f') :=
  (Takes.bindBump hf).toAlike

theorem Alike.expect : Alike ρ b ρ.token (Parser.expect kind) (Parser.expect kind) :=
  .bindIsAt fun _ => .ite .bump .fail

theorem Alike.bindExpect {f f' : Token → Parser β}
    (hf : ∀ t t', ρ.token t = ρ.token t' → Alike ρ b w (f t) (f' t')) :
    Alike ρ (b + 1) w (Parser.expect kind >>= f) (Parser.expect kind >>= f') :=
  Alike.expect.andThen (advances_expect kind) hf

theorem Alike.eat : Alike ρ b (Option.map ρ.token) (Parser.eat kind) (Parser.eat kind) := by
  refine .bindIsAt fun _ => .ite (Alike.bump.bind fun t t' ht => .pure ?_) (.pure rfl)
  rw [Option.map_some, Option.map_some, ht]

theorem eat_bind {f : Option Token → Parser β} :
    Parser.eat kind >>= f =
      Parser.isAt kind >>= fun c =>
        if c then Parser.bump >>= fun t => f (some t) else f none := by
  unfold Parser.eat
  rw [bind_assoc]
  congr 1
  funext c
  cases c
  · rfl
  · simp only [if_true, bind_assoc, pure_bind]

theorem Alike.bindEat {f f' : Option Token → Parser β}
    (hsome : ∀ t t', ρ.token t = ρ.token t' → Alike ρ b w (f (some t)) (f' (some t')))
    (hnone : Alike ρ (b + 1) w (f none) (f' none)) :
    Alike ρ (b + 1) w (Parser.eat kind >>= f) (Parser.eat kind >>= f') := by
  rw [eat_bind, eat_bind]
  exact .bindIsAt fun _ => .ite (.bindBump hsome) hnone

/-- The last step of a rule. -/
theorem Alike.close {n n' : Nat} {make make' : Span → β}
    (h : ∀ span span', w (make span) = w (make' span')) :
    Alike ρ b w (Parser.spanFrom n >>= fun span => Pure.pure (make span))
      (Parser.spanFrom n' >>= fun span => Pure.pure (make' span)) :=
  Alike.spanFrom.bind fun span span' _ => .pure (h span span')

end Steps

/-! ## Optional parts -/

variable {choice choice' : Choice α}

theorem rel_startedBy {r : Parser α → Parser α → Prop} (begins : TokenKind → Bool) (h : r p p')
    (kind : TokenKind) :
    Option.Rel r (Choice.startedBy begins p kind) (Choice.startedBy begins p' kind) := by
  unfold Choice.startedBy
  split
  · exact .some h
  · exact .none

theorem Alike.optional (h : ∀ kind, Option.Rel (Alike ρ b view) (choice kind) (choice' kind)) :
    Alike ρ b (Option.map view) (Parser.optional choice) (Parser.optional choice') := by
  refine .bindPeek fun kind => ?_
  have hkind := h kind
  generalize choice kind = o at hkind
  generalize choice' kind = o' at hkind
  cases hkind with
  | some hpart =>
    refine hpart.bind fun a a' ha => .pure ?_
    rw [Option.map_some, Option.map_some, ha]
  | none => exact .pure rfl

/-! ## Loops and recursion

Each turn of a loop takes a token, and so does the way from one level of the recursion to the
next, so that parsers with enough turns or levels for the first `b` tokens are alike. -/

theorem Alike.upTo {ι κ : Type} (key : ι → κ) (P P' : Nat → ι → Parser α)
    (hzero : ∀ i j, key i = key j → Alike ρ 0 view (P 0 i) (P' 0 j))
    (hstep : ∀ c n m, c ≤ b →
      (∀ i j, key i = key j → Alike ρ (c - 1) view (P n i) (P' m j)) →
      ∀ i j, key i = key j → Alike ρ c view (P (n + 1) i) (P' (m + 1) j))
    (c n m : Nat) (hc : c ≤ b) (hn : c ≤ n) (hm : c ≤ m) (i j : ι) (hij : key i = key j) :
    Alike ρ c view (P n i) (P' m j) := by
  have hequal (n : Nat) : ∀ i j, key i = key j → Alike ρ 0 view (P n i) (P' n j) := by
    induction n with
    | zero => exact hzero
    | succ n ih => exact hstep 0 n n (Nat.zero_le b) ih
  induction c generalizing n m i j with
  | zero => exact ⟨(hequal n i i rfl).left, (hequal m j j rfl).right, fun _ _ _ hk => by omega⟩
  | succ c ih =>
    obtain ⟨n, rfl⟩ := Nat.exists_eq_add_of_le' hn
    obtain ⟨m, rfl⟩ := Nat.exists_eq_add_of_le' hm
    refine hstep (c + 1) (n + c) (m + c) hc (fun i j => ?_) i j hij
    exact ih (n + c) (m + c) (Nat.le_of_succ_le hc) (Nat.le_add_left c n) (Nat.le_add_left c m) i j

theorem Alike.atLength (P P' : Nat → Parser α)
    (h : ∀ c n m, c ≤ b → c ≤ n → c ≤ m → Alike ρ c view (P n) (P' m)) :
    Alike ρ b view (fun s => P (s.upcoming.length + 1) s)
      (fun s => P' (s.upcoming.length + 1) s) where
  left s := (h 0 _ 0 (Nat.zero_le b) (Nat.zero_le _) (Nat.le_refl 0)).left s
  right s := (h 0 0 _ (Nat.zero_le b) (Nat.le_refl 0) (Nat.zero_le _)).right s
  both k s s' hk hs :=
    (h (k + 1) _ _ hk (Nat.succ_le_succ hs.left) (Nat.succ_le_succ hs.right)).both k s s'
      (Nat.lt_succ_self k) hs

theorem Alike.repeatUpTo (h : ∀ kind, Option.Rel (Takes ρ b view) (choice kind) (choice' kind))
    (c n m : Nat) (hc : c ≤ b) (hn : c ≤ n) (hm : c ≤ m) :
    Alike ρ c (List.map view) (Parser.repeatUpTo choice n) (Parser.repeatUpTo choice' m) := by
  refine Alike.upTo (b := b) (fun _ : Unit => ()) (fun n _ => Parser.repeatUpTo choice n)
    (fun n _ => Parser.repeatUpTo choice' n) (fun _ _ _ => .pure rfl) ?_ c n m hc hn hm () () rfl
  intro c n m hc ih _ _ _
  refine .bindPeek fun kind => ?_
  have hkind := h kind
  generalize choice kind = o at hkind
  generalize choice' kind = o' at hkind
  cases hkind with
  | some hpart =>
    refine (hpart.toAlike.mono hc).andThen hpart.advances fun first first' hfirst => ?_
    refine (ih () () rfl).bind fun more more' hmore => .pure ?_
    rw [List.map_cons, List.map_cons, hfirst, hmore]
  | none => exact .pure rfl

theorem Alike.many (h : ∀ kind, Option.Rel (Takes ρ b view) (choice kind) (choice' kind)) :
    Alike ρ b (List.map view) (Parser.many choice) (Parser.many choice') :=
  .atLength (Parser.repeatUpTo choice) (Parser.repeatUpTo choice') (Alike.repeatUpTo h)

/-! ## Separated items -/

section Separated

variable {separator : TokenKind} {more more' : α → Parser Bool}

/-- What a relabelling leaves of separated items and the separator that may trail. -/
def separatedView (ρ : Relabelling) (view : α → γ) (r : Separated α × Option Token) :
    Separated γ × Option Token :=
  (r.1.relabel ρ view, r.2.map ρ.token)

theorem Alike.separatedFrom
    (hmore : ∀ a a', view a = view a' → Alike ρ b id (more a) (more' a'))
    (hitem : Alike ρ b view p p') {first first' : α} (hfirst : view first = view first') :
    Alike ρ b (separatedView ρ view) (Parser.separatedFrom separator more p first)
      (Parser.separatedFrom separator more' p' first') := by
  refine .atLength (separatedUpTo separator more p · first)
    (separatedUpTo separator more' p' · first') fun c n m hc hn hm =>
      Alike.upTo (b := b) view (separatedUpTo separator more p) (separatedUpTo separator more' p')
        (fun first first' h => .pure ?_) ?_ c n m hc hn hm first first' hfirst
  · simp only [separatedView, Separated.relabel, h]
  · intro c n m hc ih first first' hfirst
    refine .bindIsAt fun _ => .ite ?_ (.pure ?_)
    · refine Alike.bump.andThen advances_bump fun token token' htoken => ?_
      have hle : c - 1 ≤ b := Nat.le_trans (Nat.sub_le c 1) hc
      refine ((hmore first first' hfirst).mono hle).bind fun goes goes' hgoes => ?_
      cases hgoes
      refine .ite ?_ (.pure ?_)
      · refine (hitem.mono hle).bind fun next next' hnext => ?_
        refine (ih next next' hnext).bind fun rest rest' hrest => .pure ?_
        simp only [separatedView, Prod.mk.injEq] at hrest
        simp only [separatedView, Separated.relabel, hfirst, htoken, hrest]
      · simp only [separatedView, Separated.relabel, hfirst, Option.map_some, htoken]
    · simp only [separatedView, Separated.relabel, hfirst]

theorem Alike.separated (hitem : Alike ρ b view p p') :
    Alike ρ b (Separated.relabel ρ view) (Parser.separated separator p)
      (Parser.separated separator p') := by
  refine hitem.bind fun first first' hfirst => ?_
  refine (Alike.separatedFrom (fun _ _ _ => .pure rfl) hitem hfirst).bind fun r r' hr => .pure ?_
  exact congrArg Prod.fst hr

end Separated

end Parser

end Verbatim
