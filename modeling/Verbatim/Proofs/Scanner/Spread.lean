import Mathlib.Data.List.Chain
import Verbatim.Proofs.Layout.Turn

/-!
# Where the trivia goes

Trivia waits for the next token that is no block marker. The markers that are given while it
waits stand behind it, so a block ends past the comments after its last line, though these
belong to a later token.
-/

namespace Verbatim

theorem Text.ofTokens_append (ts us : List Token) :
    Text.ofTokens (ts ++ us) = Text.ofTokens ts ++ Text.ofTokens us :=
  List.flatMap_append

namespace Token

/-- Tokens that stand one after the other from an offset on, where some trivia waits. A marker
stands behind the trivia that has been gathered by then and leaves all of it to wait. -/
inductive Spread : Nat → List Trivia → List Token → Prop where
  | nil {offset : Nat} {pending : List Trivia} : Spread offset pending []
  | marker {offset : Nat} {pending more : List Trivia} {token : Token} {rest : List Token}
    (kind : token.kind = .indent ∨ token.kind = .dedent) (leading : token.leading = [])
    (text : token.text = [])
    (span : token.span = Span.empty (offset + Text.size (Trivia.spelled (pending ++ more))))
    (following : Spread offset (pending ++ more) rest) : Spread offset pending (token :: rest)
  | lexeme {offset : Nat} {pending more : List Trivia} {token : Token} {rest : List Token}
    (noMarker : token.kind ≠ .indent ∧ token.kind ≠ .dedent)
    (leading : token.leading = pending ++ more) (placed : Trivia.Placed offset token.leading)
    (span : token.span =
      Span.sized (offset + Text.size (Trivia.spelled token.leading)) (Text.size token.text))
    (following : Spread (offset + Text.size token.fullText) [] rest) :
    Spread offset pending (token :: rest)

theorem fullText_of_marker {token : Token} (hleading : token.leading = [])
    (htext : token.text = []) : token.fullText = [] := by
  rw [fullText, hleading, htext]
  rfl

theorem size_ofTokens_cons (token : Token) (tokens : List Token) :
    Text.size (Text.ofTokens (token :: tokens)) =
      Text.size token.fullText + Text.size (Text.ofTokens tokens) := by
  rw [Text.ofTokens, List.flatMap_cons, Text.size_append]
  rfl

namespace Spread

variable {offset : Nat} {pending : List Trivia} {token : Token} {before rest : List Token}

theorem of_append (h : Spread offset pending (before ++ rest)) :
    ∃ waiting, Spread (offset + Text.size (Text.ofTokens before)) waiting rest := by
  induction before generalizing offset pending with
  | nil => exact ⟨pending, h⟩
  | cons first before ih =>
    rw [size_ofTokens_cons, ← Nat.add_assoc]
    cases h with
    | marker kind leading text span following =>
      rw [fullText_of_marker leading text]
      exact ih following
    | lexeme noMarker leading placed span following => exact ih following

theorem of_lexeme (h : Spread offset pending (token :: rest))
    (hkind : token.kind ≠ .indent ∧ token.kind ≠ .dedent) :
    Trivia.Placed offset token.leading ∧
      token.span = Span.sized (offset + Text.size (Trivia.spelled token.leading))
        (Text.size token.text) := by
  cases h with
  | marker kind => exact absurd kind (not_or.mpr hkind)
  | lexeme noMarker leading placed span => exact ⟨placed, span⟩

/-- What waits goes to the first token that is no marker. -/
theorem owner (h : Spread offset pending (before ++ token :: rest))
    (hbefore : ∀ marker ∈ before, marker.kind = .indent ∨ marker.kind = .dedent)
    (hkind : token.kind ≠ .indent ∧ token.kind ≠ .dedent) :
    ∃ more, token.leading = pending ++ more := by
  induction before generalizing pending with
  | nil =>
    cases h with
    | marker kind => exact absurd kind (not_or.mpr hkind)
    | lexeme noMarker leading => exact ⟨_, leading⟩
  | cons first before ih =>
    obtain ⟨hfirst, hbefore⟩ := List.forall_mem_cons.mp hbefore
    cases h with
    | @marker _ _ more _ _ kind leading text span following =>
      obtain ⟨later, hleading⟩ := ih following hbefore
      exact ⟨more ++ later, by rw [hleading, List.append_assoc]⟩
    | lexeme noMarker => exact absurd hfirst (not_or.mpr noMarker)

end Spread

/-- No block is opened right after one is closed. -/
def ClosesTogether (tokens : List Token) : Prop :=
  tokens.IsChain fun a b => a.kind = .dedent → b.kind ≠ .indent

theorem ClosesTogether.of_append {before rest : List Token} (h : ClosesTogether (before ++ rest)) :
    ClosesTogether rest :=
  List.IsChain.right_of_append h

end Token

namespace Scanner

variable {s u : Scanner} {token : Token} {tokens : List Token} {failure : Option LexicalError}

/-- The trivia that waits stands from an offset up to where the scanner is. -/
structure Holding (s : Scanner) (base : Nat) : Prop where
  placed : Trivia.Placed base s.waiting
  offset : s.offset = base + Text.size (Trivia.spelled s.waiting)

theorem Holding.spread {base : Nat} (h : s.Holding base) (hready : s.Ready)
    (hnext : s.next = (.ok token, u)) (hrest : ∀ base, u.Holding base →
      Token.Spread base u.waiting tokens) : Token.Spread base s.waiting (token :: tokens) := by
  obtain ⟨ts, hgathers⟩ := s.gathers_settled
  have hpunctual := punctual_settled hready (enterLineIfDue_of_next hnext)
  have hplaced : Trivia.Placed base s.settled.waiting := by
    rw [hgathers.waiting]
    apply h.placed.append
    rw [← h.offset]
    exact hgathers.placed
  have hoffset : s.settled.offset =
      base + Text.size (Trivia.spelled (s.waiting ++ ts)) := by
    rw [hgathers.passes.offset, h.offset, Trivia.spelled_append, Text.size_append, Nat.add_assoc]
  have houtcome := s.outcome_next
  rw [hnext] at houtcome
  cases houtcome with
  | marker kind isMarker place punctual =>
    have hwaiting : u.waiting = s.waiting ++ ts := place.waiting.trans hgathers.waiting
    have hu : u.Holding base := by
      constructor
      · rw [place.waiting]
        exact hplaced
      · rw [place.offset, hwaiting, hoffset]
    have hfollowing : Token.Spread base (s.waiting ++ ts) tokens := by
      rw [← hwaiting]
      exact hrest base hu
    refine Token.Spread.marker isMarker rfl rfl ?_ hfollowing
    rw [Scanner.marker, punctual hpunctual, place.offset, hoffset]
  | lexeme kind t noMarker passes waiting =>
    apply Token.Spread.lexeme noMarker hgathers.waiting hplaced
    · rw [hoffset, hgathers.waiting]
    · rw [← waiting]
      apply hrest
      constructor
      · rw [waiting]
        trivial
      · rw [passes.offset, hoffset, waiting, Token.fullText, hgathers.waiting, Text.size_append]
        exact Nat.add_assoc ..

theorem Scans.spread (h : s.Scans tokens failure) (hready : s.Ready) {base : Nat}
    (hs : s.Holding base) : Token.Spread base s.waiting tokens := by
  induction h generalizing base with
  | fault => exact .nil
  | done hnext => exact hs.spread hready hnext fun _ _ => .nil
  | step hnext _ _ ih => exact hs.spread hready hnext fun _ hu => ih (hready.next hnext) hu

/-! ## Blocks that end together -/

theorem ne_indent_of_scheduled (hstart : s.atLineStart = false) {n : Nat}
    (hscheduled : s.scheduled = .dedents n) (h : s.next = (.ok token, u)) :
    token.kind ≠ .indent := by
  rw [next_eq_of_atLineStart hstart, hscheduled] at h
  cases n with
  | succ n =>
    cases h
    exact TokenKind.noConfusion
  | zero =>
    obtain ⟨-, same, stops⟩ := s.settles_passTrivia
    rcases scanToken_eq_ok stops (same.atLineStart.trans hstart)
      (same.scheduled.trans hscheduled) h with htakes | ⟨-, hkind⟩
    · rintro hkind
      have hwidth := htakes.isZeroWidth
      rw [hkind] at hwidth
      cases hwidth
    · rcases hkind with hkind | hkind <;> simp [hkind]

theorem Scans.closesTogether (h : s.Scans tokens failure) (hsteady : s.Steady) :
    Token.ClosesTogether tokens := by
  induction h with
  | fault => exact List.IsChain.nil
  | done => exact List.IsChain.singleton _
  | @step s u token tokens failure hnext hkind hrest ih =>
    have hturn := hsteady.turn
    rw [hnext] at hturn
    have htail := ih (hsteady.of_turn hturn)
    have hsecond (hdedent : token.kind = .dedent) {second : Token} {v : Scanner}
        (h : u.next = (.ok second, v)) : second.kind ≠ .indent := by
      cases hturn with
      | indent kind => simp [hdedent] at kind
      | dedent _ _ _ _ scheduled _ _ _ atLineStart =>
        exact ne_indent_of_scheduled atLineStart scheduled h
      | token takes => exact absurd hdedent takes.notDedent
    cases hrest with
    | fault => exact List.IsChain.singleton _
    | done h => exact .cons_cons (fun hdedent => hsecond hdedent h) htail
    | step h => exact .cons_cons (fun hdedent => hsecond hdedent h) htail

end Scanner

theorem TokenRun.spread (options : Options) (t : Text) :
    Token.Spread 0 [] (TokenRun.ofText options t).tokens ∧
      Token.ClosesTogether (TokenRun.ofText options t).tokens := by
  have hscans := scans options t
  have hready : (Scanner.ofText options t).Ready := ⟨.inl rfl, fun _ => rfl⟩
  constructor
  · exact hscans.spread hready ⟨trivial, rfl⟩
  · exact hscans.closesTogether (Scanner.steady_ofText options t)

end Verbatim
