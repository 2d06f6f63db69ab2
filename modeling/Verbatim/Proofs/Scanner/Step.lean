import Verbatim.Proofs.Scanner.Lexeme
import Verbatim.Scanner

/-!
# What one step of the scanner does

A step first gathers the trivia in front of the next token and then gives a block marker,
which takes no text, or a lexeme, which takes the trivia with it, or an error. Each of the
three leaves a scanner further on in the same text. Later modules use the three cases
and do not look into the step again.
-/

namespace Verbatim

namespace Trivia

def Placed : Nat → List Trivia → Prop
  | _, [] => True
  | offset, t :: ts =>
    t.span = Span.sized offset (Text.size t.text) ∧ Placed (offset + Text.size t.text) ts

def spelled (ts : List Trivia) : Text :=
  ts.flatMap Trivia.text

@[simp]
theorem spelled_nil : spelled [] = [] := rfl

@[simp]
theorem spelled_append (ts us : List Trivia) : spelled (ts ++ us) = spelled ts ++ spelled us := by
  simp [spelled]

theorem Placed.append {offset : Nat} {ts us : List Trivia} (h : Placed offset ts)
    (h' : Placed (offset + Text.size (spelled ts)) us) : Placed offset (ts ++ us) := by
  induction ts generalizing offset with
  | nil => simpa [spelled] using h'
  | cons t ts ih =>
    refine ⟨h.1, ih h.2 ?_⟩
    simpa [spelled, Nat.add_assoc] using h'

theorem Placed.span_eq {t : Trivia} {offset : Nat} {ts us : List Trivia}
    (h : Placed offset (ts ++ t :: us)) :
    t.span = Span.sized (offset + Text.size (spelled ts)) (Text.size t.text) := by
  induction ts generalizing offset with
  | nil => exact h.1
  | cons first ts ih =>
    have hsize : Text.size (spelled (first :: ts)) =
        Text.size first.text + Text.size (spelled ts) := Text.size_append _ _
    rw [ih h.2, hsize, Nat.add_assoc]

end Trivia

namespace Scanner

structure Passes (s : Scanner) (t : Text) (u : Scanner) : Prop where
  rest : s.rest = t ++ u.rest
  offset : u.offset = s.offset + Text.size t

/-- The scanner moves over some trivia and keeps it for the next token. -/
structure Gathers (s : Scanner) (ts : List Trivia) (u : Scanner) : Prop where
  passes : s.Passes (Trivia.spelled ts) u
  waiting : u.waiting = s.waiting ++ ts
  placed : Trivia.Placed s.offset ts

theorem passes_advance (s : Scanner) (n : Nat) : s.Passes (s.rest.take n) (s.advance n) :=
  ⟨(List.take_append_drop n s.rest).symm, rfl⟩

namespace Gathers

theorem refl (s : Scanner) : s.Gathers [] s :=
  ⟨⟨by simp, by simp⟩, by simp, trivial⟩

theorem trans {s u v : Scanner} {ts us : List Trivia} (h : s.Gathers ts u)
    (h' : u.Gathers us v) : s.Gathers (ts ++ us) v where
  passes := by
    constructor
    · rw [h.passes.rest, h'.passes.rest, Trivia.spelled_append, List.append_assoc]
    · rw [h'.passes.offset, h.passes.offset, Trivia.spelled_append, Text.size_append,
        Nat.add_assoc]
  waiting := by rw [h'.waiting, h.waiting, List.append_assoc]
  placed := h.placed.append (by rw [← h.passes.offset]; exact h'.placed)

end Gathers

/-- The scanner has not moved, though it may have opened or closed blocks here. -/
structure SamePlace (s u : Scanner) : Prop where
  rest : u.rest = s.rest
  offset : u.offset = s.offset
  waiting : u.waiting = s.waiting
  markerOffset : u.markerOffset = s.markerOffset ∨ u.markerOffset = s.offset

theorem Gathers.of_samePlace {s u v : Scanner} {ts : List Trivia} (h : s.Gathers ts u)
    (h' : u.SamePlace v) : s.Gathers ts v :=
  ⟨⟨by rw [h'.rest, h.passes.rest], by rw [h'.offset, h.passes.offset]⟩,
    by rw [h'.waiting, h.waiting], h.placed⟩

/-- Markers that are due, if any, stand where the scanner is. -/
def Punctual (s : Scanner) : Prop :=
  s.scheduled = .dedents 0 ∨ s.markerOffset = s.offset

/-! ## Trivia in front of a token -/

theorem gathers_keep (s : Scanner) (kind : TriviaKind) (n : Nat) :
    ∃ ts, s.Gathers ts (s.keep kind n) ∧ ∀ t ∈ ts, t.kind = kind := by
  unfold keep
  split
  · exact ⟨[], .refl s, by simp⟩
  · have h := s.passes_advance n
    refine ⟨[⟨kind, s.spanOfNext n, s.rest.take n⟩], ⟨⟨?_, ?_⟩, rfl, rfl, trivial⟩, by simp⟩
    · simpa [Trivia.spelled] using h.rest
    · simpa [Trivia.spelled] using h.offset

@[simp]
theorem scheduled_keep (s : Scanner) (kind : TriviaKind) (n : Nat) :
    (s.keep kind n).scheduled = s.scheduled := by
  unfold keep; split <;> rfl

@[simp]
theorem markerOffset_keep (s : Scanner) (kind : TriviaKind) (n : Nat) :
    (s.keep kind n).markerOffset = s.markerOffset := by
  unfold keep; split <;> rfl

@[simp]
theorem atLineStart_keep (s : Scanner) (kind : TriviaKind) (n : Nat) :
    (s.keep kind n).atLineStart = s.atLineStart := by
  unfold keep; split <;> rfl

theorem passTriviaUpTo_of_none {s : Scanner} (h : s.triviaAhead? = none) (n : Nat) :
    passTriviaUpTo n s = s := by
  cases n with
  | zero => rfl
  | succ n => rw [passTriviaUpTo, h]

theorem passTrivia_of_none {s : Scanner} (h : s.triviaAhead? = none) : s.passTrivia = s :=
  passTriviaUpTo_of_none h _

theorem gathers_passTriviaUpTo (n : Nat) (s : Scanner) :
    ∃ ts, s.Gathers ts (passTriviaUpTo n s) := by
  induction n generalizing s with
  | zero => exact ⟨[], .refl s⟩
  | succ n ih =>
    unfold passTriviaUpTo
    split
    · next kind length _ =>
      obtain ⟨ts, h, _⟩ := s.gathers_keep kind length
      obtain ⟨us, h'⟩ := ih (s.keep kind length)
      exact ⟨ts ++ us, h.trans h'⟩
    · exact ⟨[], .refl s⟩

theorem passTriviaUpTo_same (n : Nat) (s : Scanner) :
    (passTriviaUpTo n s).scheduled = s.scheduled ∧
      (passTriviaUpTo n s).markerOffset = s.markerOffset ∧
      (passTriviaUpTo n s).atLineStart = s.atLineStart := by
  induction n generalizing s with
  | zero => exact ⟨rfl, rfl, rfl⟩
  | succ n ih =>
    unfold passTriviaUpTo
    split
    · simpa using ih (s.keep _ _)
    · exact ⟨rfl, rfl, rfl⟩

/-! ## The start of a line -/

theorem samePlace_measure (s : Scanner) (column : Nat) : s.SamePlace (s.measure column).2 := by
  unfold measure
  dsimp only
  split
  · exact ⟨rfl, rfl, rfl, .inr rfl⟩
  · split
    · exact ⟨rfl, rfl, rfl, .inr rfl⟩
    · exact ⟨rfl, rfl, rfl, .inl rfl⟩

theorem samePlace_closeBlocks (s : Scanner) : s.SamePlace s.closeBlocks := by
  unfold closeBlocks
  split
  · exact ⟨rfl, rfl, rfl, .inl rfl⟩
  · exact ⟨rfl, rfl, rfl, .inr rfl⟩

theorem atLineStart_measure (s : Scanner) (column : Nat) :
    (s.measure column).2.atLineStart = s.atLineStart := by
  unfold measure
  dsimp only
  split
  · rfl
  · split <;> rfl

theorem atLineStart_closeBlocks (s : Scanner) : s.closeBlocks.atLineStart = s.atLineStart := by
  unfold closeBlocks; split <;> rfl

theorem punctual_measure {s : Scanner} {column : Nat} (h : (s.measure column).1 = .ok ()) :
    (s.measure column).2.Punctual := by
  unfold measure at h ⊢
  dsimp only at h ⊢
  split
  · exact .inr rfl
  · split
    · exact .inr rfl
    · simp_all

theorem punctual_closeBlocks {s : Scanner} (h : s.scheduled = .dedents 0) :
    s.closeBlocks.Punctual := by
  unfold closeBlocks
  split
  · exact .inl h
  · exact .inr rfl

/-- The scanner at the first line that is neither blank nor a comment, before it is measured. -/
def EntersAt (s : Scanner) (ts : List Trivia) (u : Scanner) (result : Step Unit) : Prop :=
  s.Gathers ts u ∧ u.scheduled = s.scheduled ∧ u.markerOffset = s.markerOffset ∧
    u.atLineStart = s.atLineStart ∧
    (result = (.ok (), u) ∨ result = (.ok (), u.closeBlocks) ∨ ∃ column, result = u.measure column)

theorem enterLine_cases (n : Nat) (s : Scanner) :
    ∃ ts u, s.EntersAt ts u (enterLine n s) := by
  induction n generalizing s with
  | zero => exact ⟨[], s, .refl s, rfl, rfl, rfl, .inl rfl⟩
  | succ n ih =>
    unfold enterLine
    dsimp only
    obtain ⟨ts, h, _⟩ := s.gathers_keep .whitespace (blanks s.rest).length
    generalize hu : s.keep .whitespace (blanks s.rest).length = u at h ⊢
    obtain ⟨us, h', _⟩ := u.gathers_keep .comment (commentLength u.rest)
    generalize hv : u.keep .comment (commentLength u.rest) = v at h' ⊢
    have same : v.scheduled = s.scheduled ∧ v.markerOffset = s.markerOffset ∧
        v.atLineStart = s.atLineStart := by
      rw [← hv, ← hu]
      simp
    split
    · split
      · exact ⟨ts ++ us, v, h.trans h', same.1, same.2.1, same.2.2, .inr (.inl rfl)⟩
      · exact ⟨ts ++ us, v, h.trans h', same.1, same.2.1, same.2.2, .inr (.inr ⟨_, rfl⟩)⟩
    · next k _ =>
      obtain ⟨ws, h'', _⟩ := v.gathers_keep .newline (k + 1)
      obtain ⟨xs, w, hg, hs, hm, ha, hr⟩ := ih (v.keep .newline (k + 1))
      refine ⟨ts ++ us ++ (ws ++ xs), w, (h.trans h').trans (h''.trans hg), ?_, ?_, ?_, hr⟩
      · rw [hs, scheduled_keep, same.1]
      · rw [hm, markerOffset_keep, same.2.1]
      · rw [ha, atLineStart_keep, same.2.2]

/-- Between two steps that went well: what is due stands here, and nothing is due at the start
of a line. -/
structure Ready (s : Scanner) : Prop where
  punctual : s.Punctual
  atLineStart : s.atLineStart = true → s.scheduled = .dedents 0

theorem gathers_enterLineIfDue (s : Scanner) : ∃ ts, s.Gathers ts s.enterLineIfDue.2 := by
  unfold enterLineIfDue
  split
  · obtain ⟨ts, u, hg, _, _, _, hr⟩ :=
      enterLine_cases (s.rest.length + 1) { s with atLineStart := false }
    have hg : s.Gathers ts u := ⟨⟨hg.passes.rest, hg.passes.offset⟩, hg.waiting, hg.placed⟩
    rcases hr with hr | hr | ⟨column, hr⟩ <;> rw [hr]
    · exact ⟨ts, hg⟩
    · exact ⟨ts, hg.of_samePlace u.samePlace_closeBlocks⟩
    · exact ⟨ts, hg.of_samePlace (u.samePlace_measure column)⟩
  · exact ⟨[], .refl s⟩

theorem markerOffset_enterLineIfDue (s : Scanner) :
    s.enterLineIfDue.2.markerOffset = s.markerOffset ∨
      s.enterLineIfDue.2.markerOffset = s.enterLineIfDue.2.offset := by
  unfold enterLineIfDue
  split
  · obtain ⟨ts, u, _, _, hm, _, hr⟩ :=
      enterLine_cases (s.rest.length + 1) { s with atLineStart := false }
    rcases hr with hr | hr | ⟨column, hr⟩ <;> rw [hr]
    · exact .inl hm
    · have h := u.samePlace_closeBlocks
      exact h.markerOffset.imp (·.trans hm) (·.trans h.offset.symm)
    · have h := u.samePlace_measure column
      exact h.markerOffset.imp (·.trans hm) (·.trans h.offset.symm)
  · exact .inl rfl

theorem atLineStart_enterLineIfDue (s : Scanner) : s.enterLineIfDue.2.atLineStart = false := by
  unfold enterLineIfDue
  split
  · obtain ⟨ts, u, _, _, _, ha, hr⟩ :=
      enterLine_cases (s.rest.length + 1) { s with atLineStart := false }
    rcases hr with hr | hr | ⟨column, hr⟩ <;> rw [hr]
    · exact ha
    · exact (atLineStart_closeBlocks u).trans ha
    · exact (atLineStart_measure u column).trans ha
  · simpa using ‹¬ s.atLineStart = true›

theorem next_of_enterLineIfDue_eq {s u : Scanner} (h : s.enterLineIfDue = (.ok (), u)) :
    s.next = u.next := by
  have hstart := s.atLineStart_enterLineIfDue
  rw [h] at hstart
  have hu : u.enterLineIfDue = (.ok (), u) := by
    rw [enterLineIfDue, if_neg (by simpa using hstart)]
  rw [next, next, h, hu]

theorem next_eq_of_atLineStart {s : Scanner} (hstart : s.atLineStart = false) :
    s.next = match s.scheduled with
      | .indent => (.ok (s.marker .indent), { s with scheduled := .dedents 0 })
      | .dedents (n + 1) => (.ok (s.marker .dedent), { s with scheduled := .dedents n })
      | .dedents 0 => s.passTrivia.scanToken := by
  have hdue : s.enterLineIfDue = (.ok (), s) := by
    rw [enterLineIfDue, if_neg (by simp [hstart])]
  unfold next
  split
  · next herror =>
    rw [hdue] at herror
    cases herror
  · next hok =>
    rw [hdue] at hok
    cases hok
    exact rfl

theorem punctual_enterLineIfDue {s : Scanner} (hs : s.Ready)
    (h : s.enterLineIfDue.1 = .ok ()) : s.enterLineIfDue.2.Punctual := by
  unfold enterLineIfDue at h ⊢
  split
  · next hstart =>
    rw [if_pos hstart] at h
    obtain ⟨ts, u, _, hd, _, _, hr⟩ :=
      enterLine_cases (s.rest.length + 1) { s with atLineStart := false }
    have hd : u.scheduled = .dedents 0 := hd.trans (hs.atLineStart hstart)
    rcases hr with hr | hr | ⟨column, hr⟩ <;> rw [hr] at h ⊢
    · exact .inl hd
    · exact punctual_closeBlocks hd
    · exact punctual_measure h
  · exact hs.punctual

/-! ## The scanner in front of a token -/

/-- The scanner with everything in front of the next token passed over. -/
def settled (s : Scanner) : Scanner :=
  match s.enterLineIfDue with
  | (.error _, u) => u
  | (.ok (), u) => if u.scheduled = .dedents 0 then u.passTrivia else u

theorem gathers_settled (s : Scanner) : ∃ ts, s.Gathers ts s.settled := by
  obtain ⟨ts, h⟩ := s.gathers_enterLineIfDue
  unfold settled
  split
  · next hu => exact ⟨ts, by rwa [hu] at h⟩
  · next u hu =>
    rw [hu] at h
    split
    · obtain ⟨us, h'⟩ := gathers_passTriviaUpTo u.rest.length u
      exact ⟨ts ++ us, h.trans h'⟩
    · exact ⟨ts, h⟩

theorem settled_of_error {s u : Scanner} {error : LexicalError}
    (h : s.enterLineIfDue = (.error error, u)) : s.settled = u := by
  rw [settled, h]

theorem markerOffset_settled (s : Scanner) :
    s.settled.markerOffset = s.markerOffset ∨
      ∃ t u, s.Passes t u ∧ s.settled.markerOffset = u.offset := by
  obtain ⟨ts, h⟩ := s.gathers_enterLineIfDue
  have hmarker := s.markerOffset_enterLineIfDue
  have hsettled : s.settled.markerOffset = s.enterLineIfDue.2.markerOffset := by
    unfold settled
    split
    · next hu => rw [hu]
    · next u hu =>
      rw [hu]
      split
      · exact (passTriviaUpTo_same u.rest.length u).2.1
      · rfl
  rw [hsettled]
  exact hmarker.imp id fun hm => ⟨_, _, h.passes, hm⟩

theorem atLineStart_settled (s : Scanner) : s.settled.atLineStart = false := by
  have h := s.atLineStart_enterLineIfDue
  unfold settled
  split
  · next hu => rwa [hu] at h
  · next u hu =>
    rw [hu] at h
    split
    · exact (passTriviaUpTo_same u.rest.length u).2.2.trans h
    · exact h

theorem punctual_settled {s : Scanner} (hs : s.Ready) (h : s.enterLineIfDue.1 = .ok ()) :
    s.settled.Punctual := by
  have hp := punctual_enterLineIfDue hs h
  unfold settled
  split
  · next hu => simp [hu] at h
  · next u hu =>
    rw [hu] at hp
    split
    · next hd => exact .inl ((passTriviaUpTo_same u.rest.length u).1.trans hd)
    · exact hp

/-! ## Tokens -/

/-- What a step gives from the scanner in front of the token on. A token begins where the
trivia in front of it ends, and so does a fault. -/
inductive Outcome (u : Scanner) : Step Token → Prop
  | marker {v : Scanner} (kind : TokenKind) (isMarker : kind = .indent ∨ kind = .dedent)
      (place : u.SamePlace v) (punctual : u.Punctual → v.markerOffset = v.offset)
      (atLineStart : v.atLineStart = u.atLineStart) :
      Outcome u (.ok (v.marker kind), v)
  | lexeme {v : Scanner} (kind : TokenKind) (t : Text)
      (noMarker : kind ≠ .indent ∧ kind ≠ .dedent) (passes : u.Passes t v)
      (waiting : v.waiting = []) (scheduled : v.scheduled = .dedents 0)
      (markerOffset : v.markerOffset = u.markerOffset)
      (takes : t = [] ↔ kind = .endOfFile) (atEnd : kind = .endOfFile → v.rest = []) :
      Outcome u (.ok ⟨kind, Span.sized u.offset (Text.size t), u.waiting, t⟩, v)
  | fault {v : Scanner} (error : LexicalError) (t : Text) (passes : u.Passes t v)
      (waiting : v.waiting = u.waiting) (markerOffset : v.markerOffset = u.markerOffset)
      (indentation : error.cause = .inconsistentIndentation → t = []) :
      Outcome u (.error error, v)

theorem outcome_emit {s u : Scanner} {kind : TokenKind} {n : Nat} (hrest : s.rest = u.rest)
    (hoffset : s.offset = u.offset) (hwaiting : s.waiting = u.waiting)
    (hmarker : s.markerOffset = u.markerOffset) (hscheduled : s.scheduled = .dedents 0)
    (hkind : kind ≠ .indent ∧ kind ≠ .dedent ∧ kind ≠ .endOfFile) (htake : s.rest.take n ≠ []) :
    Outcome u (s.emit kind n) := by
  have hpass := s.passes_advance n
  have hspan : s.spanOfNext n = Span.sized u.offset (Text.size (s.rest.take n)) := by
    rw [spanOfNext, hoffset]
  rw [emit, hspan, hwaiting]
  exact .lexeme kind _ ⟨hkind.1, hkind.2.1⟩
    ⟨by rw [← hrest]; exact hpass.rest, by rw [← hoffset]; exact hpass.offset⟩
    rfl hscheduled hmarker (by simp [htake, hkind.2.2]) (by simp [hkind.2.2])

theorem outcome_fail {s u : Scanner} {fault : Fault} (hrest : s.rest = u.rest)
    (hoffset : s.offset = u.offset) (hwaiting : s.waiting = u.waiting)
    (hmarker : s.markerOffset = u.markerOffset)
    (hcause : fault.cause ≠ .inconsistentIndentation) : Outcome u (s.fail fault) := by
  have hpass := s.passes_advance fault.taken
  exact .fault _ (s.rest.take fault.taken)
    ⟨by rw [← hrest]; exact hpass.rest, by rw [← hoffset]; exact hpass.offset⟩ hwaiting hmarker
    fun h => absurd h hcause

theorem outcome_lexeme {u : Scanner} {kind : TokenKind} {n : Nat}
    (hscheduled : u.scheduled = .dedents 0) (hkind : kind.isStructural = false)
    (htake : u.rest.take n ≠ []) : Outcome u (u.lexeme kind n) := by
  have hkind : kind ≠ .indent ∧ kind ≠ .dedent ∧ kind ≠ .endOfFile := by
    refine ⟨?_, ?_, ?_⟩ <;> rintro rfl <;> cases hkind
  unfold lexeme
  split
  · split
    · exact outcome_emit rfl rfl rfl rfl hscheduled hkind htake
    · exact outcome_fail rfl rfl rfl rfl (by simp)
  · split
    · exact outcome_fail rfl rfl rfl rfl (by simp)
    · split
      · exact outcome_emit rfl rfl rfl rfl hscheduled hkind htake
      · exact outcome_fail rfl rfl rfl rfl (by simp)
  · exact outcome_emit rfl rfl rfl rfl hscheduled hkind htake

theorem outcome_finish {u : Scanner} (hrest : u.rest = [])
    (hscheduled : u.scheduled = .dedents 0) : Outcome u u.finish := by
  unfold finish
  split
  · have hpass := u.passes_advance 0
    exact .lexeme .endOfFile [] (by decide) ⟨hpass.rest, hpass.offset⟩ rfl hscheduled rfl
      (by simp) fun _ => by simpa [advance] using hrest
  · next column outer hcolumns =>
    have hclose : u.closeBlocks =
        { u with
          columns := [], scheduled := .dedents u.columns.length, markerOffset := u.offset } := by
      rw [closeBlocks, if_neg (by simp [hcolumns])]
    dsimp only
    rw [hclose]
    exact .marker (v := { u with
      columns := [], scheduled := .dedents outer.length, markerOffset := u.offset })
      .dedent (.inr rfl) ⟨rfl, rfl, rfl, .inr rfl⟩ (fun _ => rfl) rfl

theorem lineBreakLength_pos {c : Char} {t : Text} (h : Text.isLineBreak c = true) :
    0 < Text.lineBreakLength (c :: t) := by
  simp only [Text.isLineBreak, Bool.or_eq_true, beq_iff_eq] at h
  rcases h with rfl | rfl
  · unfold Text.lineBreakLength
    split <;> simp_all
  · unfold Text.lineBreakLength
    split <;> simp_all

theorem outcome_scanToken {u : Scanner} (hscheduled : u.scheduled = .dedents 0) :
    Outcome u u.scanToken := by
  unfold scanToken
  split
  · next hrest => exact outcome_finish hrest hscheduled
  · next c t hrest =>
    split
    · next hc =>
      apply outcome_emit rfl rfl rfl rfl hscheduled (by decide)
      rw [hrest, hc]
      simp [Text.firstLine, Text.isLineBreak]
    · split
      · exact outcome_fail rfl rfl rfl rfl (by dsimp only; split <;> simp)
      · split
        · next hbreak =>
          refine outcome_emit rfl rfl rfl rfl hscheduled (by decide) ?_
          have := lineBreakLength_pos (t := t) hbreak
          dsimp only
          rw [hrest, ne_eq, List.take_eq_nil_iff]
          simp; omega
        · split
          · next kind n hread =>
            rw [hrest] at hread
            obtain ⟨hkind, hn⟩ := Lexeme.read_eq_ok hread
            apply outcome_lexeme hscheduled hkind
            rw [hrest, ne_eq, List.take_eq_nil_iff]
            simp; omega
          · next fault hread => exact outcome_fail rfl rfl rfl rfl (Lexeme.read_eq_error hread)

theorem outcome_next (s : Scanner) : Outcome s.settled s.next := by
  rcases hdue : s.enterLineIfDue with ⟨result, u⟩
  cases result with
  | error error =>
    rw [settled_of_error hdue, next, hdue]
    exact .fault error [] ⟨rfl, rfl⟩ rfl rfl fun _ => rfl
  | ok =>
    rw [next, settled, hdue]
    dsimp only
    split
    · next hs =>
      rw [hs]
      exact outcome_scanToken ((passTriviaUpTo_same _ u).1.trans hs)
    · next hs =>
      -- A marker is due, so it stands here if the scanner was punctual.
      split
      · next hi =>
        refine .marker (v := { u with scheduled := .dedents 0 }) .indent (.inl rfl)
          ⟨rfl, rfl, rfl, .inl rfl⟩ (fun hp => ?_) rfl
        exact hp.resolve_left hs
      · next k hd =>
        refine .marker (v := { u with scheduled := .dedents k }) .dedent (.inr rfl)
          ⟨rfl, rfl, rfl, .inl rfl⟩ (fun hp => ?_) rfl
        exact hp.resolve_left hs
      · next hd => exact absurd hd hs

theorem rest_next_suffix_settled (s : Scanner) : s.next.2.rest <:+ s.settled.rest := by
  have houtcome := s.outcome_next
  generalize s.next = step at houtcome ⊢
  cases houtcome with
  | marker _ _ place => exact ⟨[], place.rest⟩
  | lexeme _ t _ passes => exact ⟨t, passes.rest.symm⟩
  | fault _ t passes => exact ⟨t, passes.rest.symm⟩

/-! ## Tokens -/

theorem rest_next_suffix (s : Scanner) : s.next.2.rest <:+ s.rest := by
  obtain ⟨ts, hgathers⟩ := s.gathers_settled
  have hsettled : s.settled.rest <:+ s.rest := ⟨_, hgathers.passes.rest.symm⟩
  exact s.rest_next_suffix_settled.trans hsettled

end Scanner

end Verbatim
