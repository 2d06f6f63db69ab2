import Verbatim.Proofs.Decision.Alike

/-!
# Parsers in front of a seam

One stream ends where another goes on: the tokens up to there are the same but for their labels,
they end with a statement, and what the second stream goes on with continues no statement. A parser
that succeeds on the first stream then does the same on the second. But this is so only for parsers
that are done with the last token in front of the seam when they come to it. So there are three
judgements. A parser that leads to the seam may come to the end of the first stream, and nothing
is said then, since what comes after it will fail there. A parser that closes in front of the
seam takes a token and can come up to the seam, and one that joins may even begin there.
-/

namespace Verbatim

/-- A clause of a compound statement begins with the kind, and never a statement. -/
def TokenKind.isContinuation : TokenKind → Bool
  | .kwElif | .kwElse | .kwExcept | .kwFinally => true
  | _ => false

namespace Stream

/-- The tokens in front of the seam, where the first stream ends and the second goes on. -/
structure Joint (ρ : Relabelling) (ts : List Token) (s s' : Stream) : Prop where
  left : ∃ last, s.tokens = ts ++ [last] ∧ last.kind = .endOfFile
  right : ∃ ts' next rest, s'.tokens = ts' ++ next :: rest ∧ ts.map ρ.token = ts'.map ρ.token ∧
    next.kind.isContinuation = false
  inside : ∀ t ∈ ts, t.kind ≠ .endOfFile
  closed : ∀ t ∈ ts.getLast?, t.kind = .newline ∨ t.kind = .dedent

/-- The second parse does what the first one did, which took at most `n` tokens. -/
def Meets {α γ : Type} (view : α → γ) (n : Nat) (s s' : Stream) (a : α) (u : Stream)
    (x' : Except ParseError (α × Stream)) : Prop :=
  ∃ m a' u', x' = .ok (a', u') ∧ m ≤ n ∧ view a = view a' ∧ s.Drops m u ∧ s'.Drops m u'

variable {α β γ δ : Type} {ρ : Relabelling} {s s' u u' : Stream} {ts : List Token} {m n : Nat}

namespace Joint

theorem length_eq (h : s.Joint ρ ts s') : s.upcoming.length = ts.length := by
  obtain ⟨last, htokens, -⟩ := h.left
  have hlength := congrArg List.length htokens
  simpa [tokens] using hlength

theorem length_le (h : s.Joint ρ ts s') : ts.length ≤ s'.upcoming.length := by
  obtain ⟨ts', next, rest, htokens, hsame, -⟩ := h.right
  have hlength : ts.length = ts'.length := by simpa using congrArg List.length hsame
  have hcount := congrArg List.length htokens
  simp only [tokens, List.length_cons, List.length_append] at hcount
  omega

theorem drop (h : s.Joint ρ ts s') (hm : m ≤ ts.length) (hu : s.Drops m u) (hu' : s'.Drops m u') :
    u.Joint ρ (ts.drop m) u' where
  left := by
    obtain ⟨last, htokens, hlast⟩ := h.left
    refine ⟨last, ?_, hlast⟩
    rw [← hu.tokens_eq, htokens, List.drop_append_of_le_length hm]
  right := by
    obtain ⟨ts', next, rest, htokens, hsame, hnext⟩ := h.right
    have hlength : ts.length = ts'.length := by simpa using congrArg List.length hsame
    refine ⟨ts'.drop m, next, rest, ?_, ?_, hnext⟩
    · rw [← hu'.tokens_eq, htokens, List.drop_append_of_le_length (hlength ▸ hm)]
    · rw [List.map_drop, List.map_drop, hsame]
  inside := fun t ht => h.inside t (List.mem_of_mem_drop ht)
  closed := by
    intro t ht
    rw [List.getLast?_drop] at ht
    split at ht
    · cases ht
    · exact h.closed t ht

/-- In front of the seam the two streams cannot be told apart. -/
theorem agree (h : s.Joint ρ ts s') (hts : ts ≠ []) : s.Agree ρ (ts.length - 1) s' := by
  obtain ⟨last, htokens, -⟩ := h.left
  obtain ⟨ts', next, rest, htokens', hsame, -⟩ := h.right
  have hlength : ts.length = ts'.length := by simpa using congrArg List.length hsame
  have hleft := h.length_eq
  have hright := h.length_le
  have hpos := List.length_pos_iff.mpr hts
  have hsucc : ts.length - 1 + 1 = ts.length := by omega
  refine ⟨by omega, by omega, ?_, ?_⟩
  · rw [hsucc, htokens, htokens', List.take_left, hlength, List.take_left, hsame]
  · constructor
    · rintro ⟨hend, -⟩
      omega
    · rintro ⟨hend, -⟩
      omega

theorem kind_eq (h : s.Joint ρ ts s') (hts : ts ≠ []) : s.current.kind = s'.current.kind :=
  ρ.kind_eq (h.agree hts).current

/-- The first stream ends with the last token behind the seam. -/
theorem kind_of_ended (h : s.Joint ρ ts s') (hu : s.Drops m u) (hend : u.upcoming = []) :
    u.current.kind = .endOfFile := by
  obtain ⟨last, htokens, hlast⟩ := h.left
  have hdrop := hu.tokens_eq
  have hlength := hu.length_eq
  have hm : m = ts.length := by
    rw [h.length_eq, hend, List.length_nil] at hlength
    exact hlength.symm
  rw [htokens, hm, List.drop_left, tokens, hend] at hdrop
  cases hdrop
  exact hlast

/-- At the seam. -/
theorem kinds_of_nil (h : s.Joint ρ [] s') :
    s.current.kind = .endOfFile ∧ s.upcoming = [] ∧ s'.current.kind.isContinuation = false := by
  have hend : s.upcoming = [] := List.length_eq_zero_iff.mp h.length_eq
  obtain ⟨ts', next, rest, htokens', hsame, hnext⟩ := h.right
  obtain rfl : ts' = [] := by simpa using hsame.symm
  cases htokens'
  exact ⟨h.kind_of_ended (.refl s) hend, hend, hnext⟩

end Joint

theorem Meets.refl {view : α → γ} {a a' : α} (h : view a = view a') :
    s.Meets view n s' a s (.ok (a', s')) :=
  ⟨0, a', s', rfl, Nat.zero_le n, h, .refl s, .refl s'⟩

/-- The second of two parses goes on from where the first one met. -/
theorem Meets.bind {view : α → γ} {w : β → δ} {a : α} {c : β} {v : Stream} {p' : Parser α}
    {f' : α → Parser β} (h : s.Meets view n s' a u (p' s'))
    (hf : ∀ m a' u', view a = view a' → m ≤ n → s.Drops m u → s'.Drops m u' →
      u.Meets w (n - m) u' c v (f' a' u')) : s.Meets w n s' c v ((p' >>= f') s') := by
  obtain ⟨m, a', u', hp', hm, hview, hu, hu'⟩ := h
  obtain ⟨k, c', v', hf', hk, hview', hv, hv'⟩ := hf m a' u' hview hm hu hu'
  refine ⟨m + k, c', v', ?_, by omega, hview', hu.trans hv, hu'.trans hv'⟩
  exact Parser.bind_eq_ok.mpr ⟨a', u', hp', hf'⟩

end Stream

namespace Parser

variable {α β γ δ : Type} {ρ : Relabelling} {b c : Nat} {view : α → γ} {w : β → δ}
  {p p' : Parser α} {f f' : α → Parser β}

/-- The parsers do the same in front of a seam, unless the first comes to its end. -/
structure Leads (ρ : Relabelling) (b : Nat) (view : α → γ) (p p' : Parser α) : Prop where
  descends : Descends p
  both : ∀ (ts : List Token) (s s' : Stream), ts ≠ [] → ts.length ≤ b → s.Joint ρ ts s' →
    ∀ a u, p s = .ok (a, u) → u.upcoming = [] ∨ s.Meets view ts.length s' a u (p' s')

/-- The parsers take a token in front of a seam and do the same. -/
structure Closes (ρ : Relabelling) (b : Nat) (view : α → γ) (p p' : Parser α) : Prop where
  advances : Advances p
  both : ∀ (ts : List Token) (s s' : Stream), ts ≠ [] → ts.length ≤ b → s.Joint ρ ts s' →
    ∀ a u, p s = .ok (a, u) → s.Meets view ts.length s' a u (p' s')

/-- The parsers do the same in front of a seam or at it. -/
structure Joins (ρ : Relabelling) (b : Nat) (view : α → γ) (p p' : Parser α) : Prop where
  descends : Descends p
  both : ∀ (ts : List Token) (s s' : Stream), ts.length ≤ b → s.Joint ρ ts s' →
    ∀ a u, p s = .ok (a, u) → s.Meets view ts.length s' a u (p' s')

theorem Alike.descends (h : Alike ρ b view p p') : Descends p := by
  intro s a u hp
  have hreaches := h.left s
  rw [hp] at hreaches
  cases hreaches with
  | ok _ hu =>
    have hlength := hu.length_eq
    omega

theorem Closes.mono (h : Closes ρ b view p p') (hc : c ≤ b) : Closes ρ c view p p' :=
  ⟨h.advances, fun ts s s' hts hlength => h.both ts s s' hts (Nat.le_trans hlength hc)⟩

/-! ## In front of the seam -/

/-- Parsers that are alike lead to a seam: they can only differ once they are past it. -/
theorem Alike.leads (h : Alike ρ b view p p') : Leads ρ b view p p' where
  descends := h.descends
  both := by
    intro ts s s' hts hlength hjoint a u hp
    have hpos := List.length_pos_iff.mpr hts
    have hboth := h.both (ts.length - 1) s s' (by omega) (hjoint.agree hts)
    rw [hp] at hboth
    generalize p' s' = x' at hboth ⊢
    cases hboth with
    | @ok m _ a' _ u' hm hu hu' hview =>
      exact .inr ⟨m, a', u', rfl, by omega, hview, hu, hu'⟩
    | past hreaches =>
      cases hreaches with
      | ok hm hu =>
        have hdrop := hu.length_eq
        rw [hjoint.length_eq] at hdrop
        exact .inl (List.length_eq_zero_iff.mp (by omega))

/-- What closes in front of the seam after a parser that leads to it: the first parser cannot have
come to the end, as there is a token to take behind it. -/
theorem Leads.bindBy (h : Leads ρ b view p p')
    (htakes : ∀ s a u, p s = .ok (a, u) → u.upcoming.length + b ≤ s.upcoming.length + c)
    (hf : ∀ a a', view a = view a' → Closes ρ c w (f a) (f' a')) :
    Closes ρ b w (p >>= f) (p' >>= f') where
  advances := h.descends.andThen fun a => (hf a a rfl).advances
  both := by
    intro ts s s' hts hlength hjoint d v hrun
    obtain ⟨a, u, ha, hd⟩ := bind_eq_ok.mp hrun
    have hadvances := (hf a a rfl).advances u d v hd
    have htakes := htakes s a u ha
    rcases h.both ts s s' hts hlength hjoint a u ha with hend | hmeets
    · rw [hend] at hadvances
      exact absurd hadvances (Nat.not_lt_zero _)
    · refine hmeets.bind fun m a' u' hview hm hu hu' => ?_
      have hdrop := hjoint.drop hm hu hu'
      have hleft := hdrop.length_eq
      rw [hjoint.length_eq] at htakes
      have hne : ts.drop m ≠ [] := by
        intro hnil
        rw [hnil, List.length_nil] at hleft
        omega
      rw [← List.length_drop]
      exact (hf a a' hview).both (ts.drop m) u u' hne (by omega) hdrop d v hd

theorem Leads.bind (h : Leads ρ b view p p')
    (hf : ∀ a a', view a = view a' → Closes ρ b w (f a) (f' a')) :
    Closes ρ b w (p >>= f) (p' >>= f') :=
  h.bindBy (fun s a u hp => Nat.add_le_add_right (h.descends s a u hp) b) hf

/-- After a parser that takes a token, it suffices to close one token less far. -/
theorem Leads.andThen (h : Leads ρ (b + 1) view p p') (hp : Advances p)
    (hf : ∀ a a', view a = view a' → Closes ρ b w (f a) (f' a')) :
    Closes ρ (b + 1) w (p >>= f) (p' >>= f') := by
  refine h.bindBy (fun s a u ha => ?_) hf
  have hadvances := hp s a u ha
  omega

theorem Closes.leads (h : Closes ρ b view p p') : Leads ρ b view p p' :=
  ⟨h.advances.descends, fun ts s s' hts hlength hjoint a u hp =>
    .inr (h.both ts s s' hts hlength hjoint a u hp)⟩

theorem Closes.bindStart {f f' : Nat → Parser β} (hf : ∀ n n', Closes ρ b w (f n) (f' n')) :
    Closes ρ b w (Parser.start >>= f) (Parser.start >>= f') :=
  Alike.start.leads.bind fun n n' _ => hf n n'

theorem Closes.bindPeek {f f' : TokenKind → Parser β}
    (hf : ∀ kind, Closes ρ b w (f kind) (f' kind)) :
    Closes ρ b w (Parser.peek >>= f) (Parser.peek >>= f') := by
  refine Alike.peek.leads.bind fun kind _ h => ?_
  cases h
  exact hf kind

theorem Closes.bindIsAt {kind : TokenKind} {f f' : Bool → Parser β}
    (hf : ∀ c, Closes ρ b w (f c) (f' c)) :
    Closes ρ b w (Parser.isAt kind >>= f) (Parser.isAt kind >>= f') := by
  refine Alike.isAt.leads.bind fun c _ h => ?_
  cases h
  exact hf c

theorem Closes.bindBump {f f' : Token → Parser β}
    (hf : ∀ t t', ρ.token t = ρ.token t' → Closes ρ b w (f t) (f' t')) :
    Closes ρ (b + 1) w (Parser.bump >>= f) (Parser.bump >>= f') :=
  Alike.bump.leads.andThen advances_bump hf

theorem Closes.bindExpect {kind : TokenKind} {f f' : Token → Parser β}
    (hf : ∀ t t', ρ.token t = ρ.token t' → Closes ρ b w (f t) (f' t')) :
    Closes ρ (b + 1) w (Parser.expect kind >>= f) (Parser.expect kind >>= f') :=
  Alike.expect.leads.andThen (advances_expect kind) hf

theorem Closes.fail {cause : SyntaxCause} :
    Closes ρ b view (Parser.fail cause) (Parser.fail cause) where
  advances _ _ _ h := absurd h fail_ne_ok
  both _ _ _ _ _ _ _ _ h := absurd h fail_ne_ok

theorem Closes.ite {c : Prop} [Decidable c] {q q' : Parser α} (hp : Closes ρ b view p p')
    (hq : Closes ρ b view q q') : Closes ρ b view (if c then p else q) (if c then p' else q') := by
  split
  · exact hp
  · exact hq

theorem meets_bump {ts : List Token} {s s' u : Stream} {t : Token} (hts : ts ≠ [])
    (hjoint : s.Joint ρ ts s') (h : Parser.bump s = .ok (t, u)) :
    s.Meets ρ.token ts.length s' t u (Parser.bump s') := by
  have hagree := hjoint.agree hts
  have hpos := List.length_pos_iff.mpr hts
  have hright := hjoint.length_le
  obtain ⟨v, hv, hdrop⟩ := bump_of_upcoming (s := s) (by rw [hjoint.length_eq]; exact hpos)
  obtain ⟨u', hu', hdrop'⟩ := bump_of_upcoming (s := s') (by omega)
  cases h.symm.trans hv
  exact ⟨1, _, u', hu', hpos, hagree.current, hdrop, hdrop'⟩

theorem Closes.bump : Closes ρ b ρ.token Parser.bump Parser.bump :=
  ⟨advances_bump, fun _ _ _ hts _ hjoint _ _ h => meets_bump hts hjoint h⟩

theorem Closes.expect {kind : TokenKind} :
    Closes ρ b ρ.token (Parser.expect kind) (Parser.expect kind) :=
  .bindIsAt fun _ => .ite .bump .fail

/-! ## At the seam -/

theorem Closes.bind (h : Closes ρ b view p p')
    (hf : ∀ a a', view a = view a' → Joins ρ b w (f a) (f' a')) :
    Closes ρ b w (p >>= f) (p' >>= f') where
  advances := h.advances.andThen fun a => (hf a a rfl).descends
  both := by
    intro ts s s' hts hlength hjoint d v hrun
    obtain ⟨a, u, ha, hd⟩ := bind_eq_ok.mp hrun
    refine (h.both ts s s' hts hlength hjoint a u ha).bind fun m a' u' hview hm hu hu' => ?_
    rw [← List.length_drop]
    refine (hf a a' hview).both (ts.drop m) u u' ?_ (hjoint.drop hm hu hu') d v hd
    rw [List.length_drop]
    omega

theorem Joins.bind (h : Joins ρ b view p p')
    (hf : ∀ a a', view a = view a' → Joins ρ b w (f a) (f' a')) :
    Joins ρ b w (p >>= f) (p' >>= f') where
  descends := h.descends.bind fun a => (hf a a rfl).descends
  both := by
    intro ts s s' hlength hjoint d v hrun
    obtain ⟨a, u, ha, hd⟩ := bind_eq_ok.mp hrun
    refine (h.both ts s s' hlength hjoint a u ha).bind fun m a' u' hview hm hu hu' => ?_
    rw [← List.length_drop]
    refine (hf a a' hview).both (ts.drop m) u u' ?_ (hjoint.drop hm hu hu') d v hd
    rw [List.length_drop]
    omega

theorem Joins.pure {a a' : α} (h : view a = view a') :
    Joins ρ b view (Pure.pure a) (Pure.pure a') where
  descends := descends_pure a
  both ts s s' _ _ d u hrun := by
    cases hrun
    exact .refl h

theorem Joins.fail {cause : SyntaxCause} :
    Joins ρ b view (Parser.fail cause) (Parser.fail cause) where
  descends _ _ _ h := absurd h fail_ne_ok
  both _ _ _ _ _ _ _ h := absurd h fail_ne_ok

theorem Joins.ite {c : Prop} [Decidable c] {q q' : Parser α} (hp : Joins ρ b view p p')
    (hq : Joins ρ b view q q') : Joins ρ b view (if c then p else q) (if c then p' else q') := by
  split
  · exact hp
  · exact hq

theorem Joins.spanFrom {n n' : Nat} :
    Joins ρ b (fun _ => ()) (Parser.spanFrom n) (Parser.spanFrom n') where
  descends s d u hrun := by
    cases hrun
    exact Nat.le_refl _
  both ts s s' _ _ d u hrun := by
    cases hrun
    exact .refl rfl

theorem Joins.close {n n' : Nat} {make make' : Span → β}
    (h : ∀ span span', w (make span) = w (make' span')) :
    Joins ρ b w (Parser.spanFrom n >>= fun span => Pure.pure (make span))
      (Parser.spanFrom n' >>= fun span => Pure.pure (make' span)) :=
  Joins.spanFrom.bind fun span span' _ => .pure (h span span')

/-! ## Optional parts and repetition -/

theorem peek_bind (f : TokenKind → Parser α) (s : Stream) :
    (Parser.peek >>= f) s = f s.current.kind s := rfl

theorem repeatUpTo_startedBy (begins : TokenKind → Bool) (p : Parser α) (n : Nat) (s : Stream) :
    repeatUpTo (.startedBy begins p) (n + 1) s =
      if begins s.current.kind then
        (p >>= fun first => repeatUpTo (.startedBy begins p) n >>= fun more =>
          Pure.pure (first :: more)) s
      else .ok ([], s) := by
  rw [repeatUpTo, peek_bind, Choice.startedBy]
  cases begins s.current.kind <;> rfl

theorem optional_startedBy (begins : TokenKind → Bool) (p : Parser α) (s : Stream) :
    Parser.optional (.startedBy begins p) s =
      if begins s.current.kind then (p >>= fun a => Pure.pure (some a)) s else .ok (none, s) := by
  rw [Parser.optional, peek_bind, Choice.startedBy]
  cases begins s.current.kind <;> rfl

theorem Descends.repeatUpTo {begins : TokenKind → Bool} (h : Descends p) (n : Nat) :
    Descends (Parser.repeatUpTo (.startedBy begins p) n) := by
  induction n with
  | zero => exact descends_pure []
  | succ n ih =>
    intro s as u hrun
    rw [repeatUpTo_startedBy] at hrun
    split at hrun
    · exact h.bind (fun first => ih.bind fun more => descends_pure _) s as u hrun
    · cases hrun
      exact Nat.le_refl _

/-- Parts that close in front of the seam can be repeated up to it. There the first stream has no
further part, and the second one has none unless what it goes on with begins one. -/
theorem Closes.meets_repeatUpTo {begins : TokenKind → Bool} (h : Closes ρ b view p p')
    (i j : Nat) {ts : List Token} {s s' u : Stream} {as : List α} (hi : ts.length < i)
    (hj : ts.length < j) (hb : ts.length ≤ b) (hjoint : s.Joint ρ ts s')
    (hrun : repeatUpTo (.startedBy begins p) i s = .ok (as, u)) :
    s.Meets (List.map view) ts.length s' as u (repeatUpTo (.startedBy begins p') j s') ∨
      u.upcoming = [] ∧ ∃ kind, kind.isContinuation = false ∧ begins kind = true := by
  induction i generalizing j ts s s' u as with
  | zero => omega
  | succ i ih =>
    obtain ⟨j, rfl⟩ := Nat.exists_eq_succ_of_ne_zero (by omega : j ≠ 0)
    rw [repeatUpTo_startedBy] at hrun ⊢
    by_cases hts : ts = []
    · subst hts
      obtain ⟨-, hend, hnext⟩ := hjoint.kinds_of_nil
      split at hrun
      · -- a part would take a token, and there is none left
        obtain ⟨a, v, ha, -⟩ := bind_eq_ok.mp hrun
        have hadvances := h.advances s a v ha
        rw [hend] at hadvances
        exact absurd hadvances (Nat.not_lt_zero _)
      · cases hrun
        by_cases hbegins : begins s'.current.kind = true
        · exact .inr ⟨hend, _, hnext, hbegins⟩
        · rw [if_neg hbegins]
          exact .inl (.refl rfl)
    · rw [hjoint.kind_eq hts] at hrun
      split at hrun
      · next hbegins =>
        rw [if_pos hbegins]
        obtain ⟨a, v, ha, hmore⟩ := bind_eq_ok.mp hrun
        obtain ⟨more, x, hmore, hpure⟩ := bind_eq_ok.mp hmore
        cases hpure
        by_cases hend : u.upcoming = [] ∧ ∃ kind, kind.isContinuation = false ∧ begins kind = true
        · exact .inr hend
        refine .inl ((h.both ts s s' hts hb hjoint a v ha).bind fun m a' v' hview hm hv hv' => ?_)
        have hdrop := hjoint.drop hm hv hv'
        have hleft := hdrop.length_eq
        have hadvances := h.advances s a v ha
        have hlength := List.length_drop (i := m) (l := ts)
        rw [hjoint.length_eq, hleft] at hadvances
        rw [← hlength]
        refine ((ih j (by omega) (by omega) (by omega) hdrop hmore).resolve_right hend).bind ?_
        intro k more' u' hviews _ hu hu'
        refine .refl ?_
        rw [List.map_cons, List.map_cons, hview, hviews]
      · next hbegins =>
        cases hrun
        rw [if_neg hbegins]
        exact .inl (.refl rfl)

theorem Closes.leads_many (begins : TokenKind → Bool) (h : Closes ρ b view p p') :
    Leads ρ b (List.map view) (Parser.many (.startedBy begins p))
      (Parser.many (.startedBy begins p')) where
  descends s := h.advances.descends.repeatUpTo (s.upcoming.length + 1) s
  both := by
    intro ts s s' hts hlength hjoint as u hrun
    have hleft := hjoint.length_eq
    have hright := hjoint.length_le
    refine (h.meets_repeatUpTo _ (s'.upcoming.length + 1) ?_ ?_ hlength hjoint hrun).symm.imp ?_ id
    · omega
    · omega
    · exact fun hend => hend.1

/-! ## Clauses -/

section Clauses

variable {kind : TokenKind} (hkind : kind.isContinuation = true)

include hkind

theorem ne_of_isContinuation {other : TokenKind} (h : other.isContinuation = false) :
    (other == kind) = false := by
  rw [beq_eq_false_iff_ne]
  rintro rfl
  rw [hkind] at h
  cases h

theorem Joins.many (h : Closes ρ b view p p') :
    Joins ρ b (List.map view) (Parser.many (.onKind kind p)) (Parser.many (.onKind kind p')) where
  descends s := h.advances.descends.repeatUpTo (s.upcoming.length + 1) s
  both := by
    intro ts s s' hlength hjoint as u hrun
    have hleft := hjoint.length_eq
    have hright := hjoint.length_le
    refine (h.meets_repeatUpTo _ (s'.upcoming.length + 1) ?_ ?_ hlength hjoint
      hrun).resolve_right ?_
    · omega
    · omega
    · rintro ⟨-, other, hother, hbegins⟩
      rw [ne_of_isContinuation hkind hother] at hbegins
      cases hbegins

theorem Joins.optional (h : Closes ρ b view p p') :
    Joins ρ b (Option.map view) (Parser.optional (.onKind kind p))
      (Parser.optional (.onKind kind p')) where
  descends s o u hrun := by
    rw [Choice.onKind, optional_startedBy] at hrun
    split at hrun
    · exact h.advances.descends.bind (fun a => descends_pure _) s o u hrun
    · cases hrun
      exact Nat.le_refl _
  both := by
    intro ts s s' hlength hjoint o u hrun
    rw [Choice.onKind, optional_startedBy] at hrun
    rw [Choice.onKind, optional_startedBy]
    by_cases hts : ts = []
    · subst hts
      obtain ⟨hlast, -, hnext⟩ := hjoint.kinds_of_nil
      have hend : (TokenKind.endOfFile == kind) = false := ne_of_isContinuation hkind rfl
      rw [hlast, if_neg (by simp [hend])] at hrun
      rw [if_neg (by simp [ne_of_isContinuation hkind hnext])]
      cases hrun
      exact .refl rfl
    · rw [hjoint.kind_eq hts] at hrun
      split at hrun
      · next hbegins =>
        rw [if_pos hbegins]
        obtain ⟨a, v, ha, hpure⟩ := bind_eq_ok.mp hrun
        cases hpure
        refine (h.both ts s s' hts hlength hjoint a u ha).bind fun m a' u' hview _ _ _ => .refl ?_
        rw [Option.map_some, Option.map_some, hview]
      · next hbegins =>
        rw [if_neg hbegins]
        cases hrun
        exact .refl rfl

end Clauses

end Parser

end Verbatim
