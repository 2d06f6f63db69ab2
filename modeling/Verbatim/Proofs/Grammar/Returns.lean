import Verbatim.Proofs.Derivation.Statement
import Verbatim.Proofs.Grammar.Combinators

/-!
# What parsers return

Partial correctness of parsers from a given stream: if the parser succeeds there, its result
and the stream that it leaves are as described. The current token is known from the tests in
front of it, so these rules also give the kinds of the tokens that a rule of the grammar takes.
-/

namespace Verbatim

namespace Parser

variable {α β : Type}

def Leaves (p : Parser α) (s : Stream) (post : α → Stream → Prop) : Prop :=
  ∀ a u, p s = .ok (a, u) → post a u

abbrev Returns (p : Parser α) (s : Stream) (post : α → Prop) : Prop :=
  Leaves p s fun a _ => post a

namespace Returns

variable {s : Stream} {post : α → Prop}

theorem mono {p : Parser α} {M : α → Prop} (h : Returns p s M) (h' : ∀ a, M a → post a) :
    Returns p s post :=
  fun a u hp => h' a (h a u hp)

theorem of_forall {p : Parser α} (h : ∀ a, post a) : Returns p s post :=
  fun a _ _ => h a

end Returns

namespace Leaves

variable {s : Stream} {post : α → Stream → Prop}

theorem pure {a : α} (h : post a s) : Leaves (Pure.pure a) s post := by
  intro b u hb
  cases pure_eq_ok.mp hb
  exact h

theorem fail {cause : SyntaxCause} : Leaves (Parser.fail cause) s post := by
  intro a u h
  exact absurd h fail_ne_ok

theorem mono {p : Parser α} {M : α → Stream → Prop} (h : Leaves p s M)
    (h' : ∀ a u, M a u → post a u) : Leaves p s post := by
  intro a u hp
  exact h' a u (h a u hp)

theorem bind {p : Parser β} {f : β → Parser α} {M : β → Stream → Prop} (h : Leaves p s M)
    (h' : ∀ b u, M b u → Leaves (f b) u post) : Leaves (p >>= f) s post := by
  intro a v ha
  obtain ⟨b, u, hb, hf⟩ := bind_eq_ok.mp ha
  exact h' b u (h b u hb) a v hf

theorem ofBind {p : Parser α} (h : Leaves (p >>= Pure.pure) s post) : Leaves p s post := by
  rwa [bind_pure] at h

/-- Past a parser of whose result nothing needs to be known. -/
theorem skip {p : Parser β} {f : β → Parser α} (h : ∀ b u, Leaves (f b) u post) :
    Leaves (p >>= f) s post :=
  bind (M := fun _ _ => True) (fun _ _ _ => trivial) fun b u _ => h b u

theorem pureBind {b : β} {f : β → Parser α} (h : Leaves (f b) s post) :
    Leaves (Pure.pure b >>= f) s post := by
  intro a u ha
  exact h a u ha

theorem failBind {cause : SyntaxCause} {f : β → Parser α} :
    Leaves (Parser.fail cause >>= f) s post := by
  intro a u h
  obtain ⟨b, v, hb, _⟩ := bind_eq_ok.mp h
  exact absurd hb fail_ne_ok

theorem ite {c : Prop} [Decidable c] {p q : Parser α} (hp : c → Leaves p s post)
    (hq : ¬ c → Leaves q s post) : Leaves (if c then p else q) s post := by
  split
  · next h => exact hp h
  · next h => exact hq h

/-! ### Looking -/

theorem peek {f : TokenKind → Parser α} (h : Leaves (f s.current.kind) s post) :
    Leaves (Parser.peek >>= f) s post := by
  intro a u ha
  exact h a u ha

theorem start {f : Nat → Parser α} (h : ∀ n, Leaves (f n) s post) :
    Leaves (Parser.start >>= f) s post := by
  intro a u ha
  exact h _ a u ha

theorem spanFrom {n : Nat} {f : Span → Parser α} (h : ∀ span, Leaves (f span) s post) :
    Leaves (Parser.spanFrom n >>= f) s post := by
  intro a u ha
  exact h _ a u ha

theorem isAt {kind : TokenKind} {p q : Parser α} (hp : s.current.kind = kind → Leaves p s post)
    (hq : s.current.kind ≠ kind → Leaves q s post) :
    Leaves (do if ← Parser.isAt kind then p else q) s post := by
  intro a u ha
  obtain ⟨b, v, hb, ha⟩ := bind_eq_ok.mp ha
  cases hb
  split at ha
  · next h => exact hp (beq_iff_eq.mp h) a u ha
  · next h => exact hq (by simpa using h) a u ha

/-! ### Tokens -/

theorem bump {f : Token → Parser α} (h : ∀ u, Leaves (f s.current) u post) :
    Leaves (Parser.bump >>= f) s post := by
  intro a v ha
  obtain ⟨t, u, ht, hf⟩ := bind_eq_ok.mp ha
  rw [(bump_eq_ok ht).1] at hf
  exact h u a v hf

theorem expect {kind : TokenKind} {f : Token → Parser α}
    (h : ∀ t u, t.kind = kind → Leaves (f t) u post) :
    Leaves (Parser.expect kind >>= f) s post := by
  intro a v ha
  obtain ⟨t, u, ht, hf⟩ := bind_eq_ok.mp ha
  exact h t u (expect_eq_ok ht) a v hf

theorem eat {kind : TokenKind} {f : Option Token → Parser α}
    (h : ∀ o u, (∀ t, o = some t → t.kind = kind) → Leaves (f o) u post) :
    Leaves (Parser.eat kind >>= f) s post := by
  intro a v ha
  obtain ⟨o, u, ho, hf⟩ := bind_eq_ok.mp ha
  exact h o u (eat_eq_ok ho) a v hf

/-! ### Optional parts and repetition -/

theorem startedBy {begins : TokenKind → Bool} {part p : Parser β} {M : β → Stream → Prop}
    (h : begins s.current.kind = true → Leaves part s M)
    (hp : Choice.startedBy begins part s.current.kind = some p) : Leaves p s M := by
  unfold Choice.startedBy at hp
  split at hp
  · next hbegins =>
    cases hp
    exact h hbegins
  · cases hp

/-- A part that keeps an invariant of the stream, if it is there. -/
theorem optionalKeeping {begins : TokenKind → Bool} {part : Parser β} {f : Option β → Parser α}
    {M : β → Prop} {I : Stream → Prop} (hs : I s)
    (hpart : begins s.current.kind = true → Leaves part s fun b u => M b ∧ I u)
    (h : ∀ o u, (∀ b, o = some b → M b) → I u → Leaves (f o) u post) :
    Leaves (Parser.optional (.startedBy begins part) >>= f) s post := by
  refine bind (M := fun o u => (∀ b, o = some b → M b) ∧ I u) (.peek ?_) fun o u ho =>
    h o u ho.1 ho.2
  split
  · next p hchoice =>
    refine (startedBy hpart hchoice).bind fun b u hb => .pure ⟨?_, hb.2⟩
    rintro _ ⟨⟩
    exact hb.1
  · exact .pure ⟨by simp, hs⟩

theorem optionalBy {begins : TokenKind → Bool} {part : Parser β} {f : Option β → Parser α}
    {M : β → Prop} (hpart : begins s.current.kind = true → Returns part s M)
    (h : ∀ o u, (∀ b, o = some b → M b) → Leaves (f o) u post) :
    Leaves (Parser.optional (.startedBy begins part) >>= f) s post := by
  refine .optionalKeeping (I := fun _ => True) trivial (fun hbegins => ?_) fun o u ho _ => h o u ho
  exact Leaves.mono (hpart hbegins) fun _ _ hb => ⟨hb, trivial⟩

/-- A part that is there if and only if something begins it. -/
theorem optionalIff {begins : TokenKind → Bool} {part : Parser β} {f : Option β → Parser α}
    {M : β → Prop} (hpart : begins s.current.kind = true → Returns part s M)
    (h : ∀ o u, (∀ b, o = some b → M b) → o.isSome = begins s.current.kind →
      Leaves (f o) u post) :
    Leaves (Parser.optional (.startedBy begins part) >>= f) s post := by
  refine bind (M := fun o _ => (∀ b, o = some b → M b) ∧ o.isSome = begins s.current.kind)
    (.peek ?_) fun o u ho => h o u ho.1 ho.2
  unfold Choice.startedBy
  cases hbegins : begins s.current.kind with
  | false => exact .pure ⟨by simp, rfl⟩
  | true =>
    refine bind (hpart hbegins) fun b u hb => .pure ⟨?_, rfl⟩
    rintro _ ⟨⟩
    exact hb

theorem repeatUpTo {choice : Choice β} {M : β → Prop} {I : Stream → Prop}
    (hpart : ∀ u part, I u → choice u.current.kind = some part →
      Leaves part u fun b v => M b ∧ I v) (n : Nat) (s : Stream) (hs : I s) :
    Leaves (Parser.repeatUpTo choice n) s fun bs u => (∀ b ∈ bs, M b) ∧ I u := by
  induction n generalizing s with
  | zero => exact .pure ⟨by simp, hs⟩
  | succ n ih =>
    apply Leaves.peek
    split
    · next part hchoice =>
      refine (hpart s part hs hchoice).bind fun first u hfirst => ?_
      refine (ih u hfirst.2).bind fun more v hmore => .pure ⟨?_, hmore.2⟩
      exact List.forall_mem_cons.mpr ⟨hfirst.1, hmore.1⟩
    · exact .pure ⟨by simp, hs⟩

/-- Parts of which each keeps an invariant of the stream. -/
theorem manyKeeping {begins : TokenKind → Bool} {part : Parser β} {f : List β → Parser α}
    {M : β → Prop} {I : Stream → Prop} (hs : I s)
    (hpart : ∀ u, I u → begins u.current.kind = true → Leaves part u fun b v => M b ∧ I v)
    (h : ∀ bs u, (∀ b ∈ bs, M b) → I u → Leaves (f bs) u post) :
    Leaves (Parser.many (.startedBy begins part) >>= f) s post := by
  refine bind (M := fun bs u => (∀ b ∈ bs, M b) ∧ I u) ?_ fun bs u hbs => h bs u hbs.1 hbs.2
  intro bs u hbs
  exact repeatUpTo (fun v p hv hp => startedBy (hpart v hv) hp) _ s hs bs u hbs

theorem many {choice : Choice β} {f : List β → Parser α} {M : β → Prop}
    (hpart : ∀ u part, choice u.current.kind = some part → Returns part u M)
    (h : ∀ bs u, (∀ b ∈ bs, M b) → Leaves (f bs) u post) :
    Leaves (Parser.many choice >>= f) s post := by
  refine bind (M := fun bs _ => ∀ b ∈ bs, M b) ?_ h
  intro bs u hbs
  refine (repeatUpTo (I := fun _ => True) (fun v p _ hp => ?_) _ s trivial bs u hbs).1
  exact Leaves.mono (hpart v p hp) fun _ _ hb => ⟨hb, trivial⟩

theorem manyBy {begins : TokenKind → Bool} {part : Parser β} {f : List β → Parser α}
    {M : β → Prop} (hpart : ∀ u, begins u.current.kind = true → Returns part u M)
    (h : ∀ bs u, (∀ b ∈ bs, M b) → Leaves (f bs) u post) :
    Leaves (Parser.many (.startedBy begins part) >>= f) s post :=
  .many (fun u _ hp => startedBy (hpart u) hp) h

/-! ### Separated items -/

section Separated

variable {separator : TokenKind} {more : β → Parser Bool} {item : Parser β} {M : β → Prop}
  {B : β → Prop}

/-- What holds of the items, and of those that another item follows. -/
structure Lists (separator : TokenKind) (M B : β → Prop)
    (r : Separated β × Option Token) : Prop where
  row : r.1.By separator M
  init : ∀ b ∈ r.1.init, B b
  trailing : ∀ t, r.2 = some t → t.kind = separator

theorem separatedUpTo (hitem : ∀ u, Returns item u M)
    (hmore : ∀ b u, Returns (more b) u fun goesOn => goesOn = true → B b) (n : Nat)
    {first : β} (hfirst : M first) (s : Stream) :
    Returns (Parser.separatedUpTo separator more item n first) s
      (Lists separator M B) := by
  have hone : ∀ t : Option Token, (∀ u, t = some u → u.kind = separator) →
      Lists separator M B (.one first, t) :=
    fun t ht => ⟨⟨by simpa using hfirst, by simp⟩, by simp [Verbatim.Separated.init], ht⟩
  induction n generalizing first s with
  | zero => exact .pure (hone none (by simp))
  | succ n ih =>
    refine .isAt (fun hkind => .bump fun u => ?_) fun _ => .pure (hone none (by simp))
    refine (hmore first u).bind fun goesOn v hgoesOn => .ite (fun h => ?_) fun _ => .pure ?_
    · refine (hitem v).bind fun next w hnext => ?_
      refine (ih hnext w ?_).bind fun r _ hr => .pure ⟨⟨?_, ?_⟩, ?_, hr.trailing⟩
      · exact fun t ht => ⟨⟨by simpa using hnext, by simp⟩, by simp [Verbatim.Separated.init], ht⟩
      · exact List.forall_mem_cons.mpr ⟨hfirst, hr.row.items⟩
      · exact List.forall_mem_cons.mpr ⟨hkind, hr.row.separators⟩
      · exact List.forall_mem_cons.mpr ⟨hgoesOn h, hr.init⟩
    · refine hone _ ?_
      rintro _ ⟨⟩
      exact hkind

theorem separatedFrom {f : Separated β × Option Token → Parser α}
    (hitem : ∀ u, Returns item u M)
    (hmore : ∀ b u, Returns (more b) u fun goesOn => goesOn = true → B b) {first : β}
    (hfirst : M first)
    (h : ∀ r u, Lists separator M B r → Leaves (f r) u post) :
    Leaves (Parser.separatedFrom separator more item first >>= f) s post := by
  refine .bind ?_ h
  intro r u hr
  exact separatedUpTo hitem hmore _ hfirst s r u hr

theorem separated {f : Separated β → Parser α} (hitem : ∀ u, Returns item u M)
    (h : ∀ items u, items.By separator M → Leaves (f items) u post) :
    Leaves (Parser.separated separator item >>= f) s post := by
  refine .bind ?_ h
  refine (hitem s).bind fun first u hfirst => ?_
  refine .separatedFrom (B := fun _ => True) hitem (fun _ _ => .pure fun _ => trivial) hfirst
    fun r _ hr => .pure hr.row

end Separated

end Leaves

end Parser

end Verbatim
