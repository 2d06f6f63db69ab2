import Verbatim.Proofs.BlankLines.Seam

/-!
# Where lines end

Outside brackets a line ends with a `newline`, or, if it has no token, with a line break that is
kept as trivia of a token behind it. There the source can be cut: the run up to the cut is one that
leads up to a seam, whatever comes behind.
-/

namespace Verbatim

open Text (EndsLine lineBreakLength)

namespace Token

/-- Where a line of a source starts whose tokens these are, outside of brackets: at its beginning,
or where a line break stops. -/
inductive LineStartsAt (tokens : List Token) (offset : Nat) : Prop
  | source (h : offset = 0)
  | newline {token : Token} (mem : token ∈ tokens) (kind : token.kind = .newline)
      (stop : token.span.stop = offset)
  | trivia {before after : List Token} {token : Token} {t : Trivia}
      (tokens_eq : tokens = before ++ token :: after) (outside : trackAll [] before = some [])
      (mem : t ∈ token.leading) (kind : t.kind = .newline) (stop : t.span.stop = offset)

end Token

namespace Scanner

variable {options : Options} {source a v : Text} {s u y z : Scanner} {token : Token} {t : Trivia}
  {tokens before after : List Token}

/-! ## Line breaks between logical lines -/

theorem mem_waiting_of_settled (ht : t ∈ s.settled.waiting) (hkind : t.kind = .newline)
    (hbrackets : s.brackets = []) : t ∈ s.enterLineIfDue.2.waiting := by
  have hnone := s.brackets_enterLineIfDue.trans hbrackets
  unfold settled at ht
  split at ht
  · next hdue => rwa [hdue]
  · next u hdue =>
    rw [hdue] at hnone ⊢
    split at ht
    · obtain ⟨ts, hgathers, hts⟩ := u.settles_passTrivia.gathers
      rw [hgathers.waiting, List.mem_append] at ht
      exact ht.resolve_right fun hmem => hts hnone t hmem hkind
    · exact ht

theorem mem_settled_of_leading (h : s.next = (.ok token, u)) (ht : t ∈ token.leading) :
    t ∈ s.settled.waiting := by
  have houtcome := s.outcome_next
  rw [h] at houtcome
  cases houtcome with
  | marker => cases ht
  | lexeme => exact ht

/-- Trivia that waits behind a step did so in front of it, and the step gave a marker. -/
theorem mem_settled_of_next (hsteady : s.Steady) (h : s.next = (.ok token, u)) (ht : t ∈ u.waiting) :
    t ∈ s.settled.waiting ∧ s.brackets = u.brackets := by
  have hturn := hsteady.turn
  have houtcome := s.outcome_next
  rw [h] at hturn houtcome
  have htrack := hturn.track
  cases houtcome with
  | marker kind isMarker place =>
    constructor
    · rwa [← place.waiting]
    · have hsame : (u.marker kind).track s.brackets = some s.brackets := by
        rcases isMarker with rfl | rfl
        · exact Token.track_of_no_bracket rfl rfl
        · exact Token.track_of_no_bracket rfl rfl
      exact Option.some.inj (hsame.symm.trans htrack)
  | lexeme kind text noMarker passes waiting =>
    rw [waiting] at ht
    cases ht

/-- A line break outside of brackets was passed where a logical line was entered. -/
theorem Steps.exists_gathers (h : (ofText options source).Steps tokens z)
    (hbrackets : z.brackets = []) (ht : t ∈ z.settled.waiting) (hkind : t.kind = .newline) :
    ∃ before more y ts, tokens = before ++ more ∧ (ofText options source).Steps before y ∧
      y.Gathers ts y.enterLineIfDue.2 ∧ t ∈ ts := by
  induction h with
  | refl =>
    obtain ⟨ts, hgathers⟩ := (ofText options source).gathers_enterLineIfDue
    have hmem := mem_waiting_of_settled ht hkind hbrackets
    rw [hgathers.waiting] at hmem
    exact ⟨[], [], _, ts, rfl, .refl, hgathers, hmem⟩
  | @snoc s z tokens token steps hnext ih =>
    obtain ⟨ts, hgathers⟩ := z.gathers_enterLineIfDue
    have hmem := mem_waiting_of_settled ht hkind hbrackets
    rw [hgathers.waiting, List.mem_append] at hmem
    rcases hmem with hmem | hmem
    · obtain ⟨ht, hsame⟩ := mem_settled_of_next steps.attempts.steady hnext hmem
      obtain ⟨before, more, y, ts, rfl, hy⟩ := ih (hsame.trans hbrackets) ht
      exact ⟨before, more ++ [token], y, ts, List.append_assoc _ _ _, hy⟩
    · exact ⟨tokens ++ [token], [], z, ts, (List.append_nil _).symm, .snoc steps hnext, hgathers,
        hmem⟩

/-! ## The last step in front of the cut -/

/-- A `newline` that stops at the cut is the last token of the text in front of it. -/
theorem scanToken_newline_of_extend (hs : s.rest.EndsLine)
    (h : (s.extend v).scanToken = (.ok token, z)) (hkind : token.kind = .newline)
    (hz : z.rest = v) :
    ∃ last u, s.scanToken = (.ok last, u) ∧ last.kind = .newline ∧ u.rest = [] := by
  obtain ⟨c, t, hrest⟩ := List.exists_cons_of_ne_nil hs.ne_nil
  obtain ⟨d, w, hrest', hd⟩ := lineBreak_of_scanToken h hkind
  obtain ⟨rfl, -⟩ := List.cons.inj ((rest_extend_cons hrest v).symm.trans hrest')
  have hscan := scanToken_lineBreak hrest hd
  rcases scanToken_extend_lineBreak hs hrest hd hscan with ⟨hends, hall⟩ | hcompletes
  · cases (hall v).symm.trans h
    exact absurd (List.append_left_eq_self.mp hz) hends.ne_nil
  · exact ⟨_, _, hscan, rfl, hcompletes.rest⟩

theorem next_newline_of_extend (hs : s.rest.EndsLine) (hstart : s.atLineStart = false)
    (h : (s.extend v).next = (.ok token, z)) (hkind : token.kind = .newline) (hz : z.rest = v) :
    ∃ last u, s.next = (.ok last, u) ∧ last.kind = .newline ∧ u.rest = [] := by
  have hown := next_eq_of_atLineStart hstart
  have hextend := next_eq_of_atLineStart (s := s.extend v) hstart
  cases hdue : s.scheduled with
  | indent =>
    simp only [scheduled_extend, hdue] at hextend
    cases hextend.symm.trans h
    cases hkind
  | dedents n =>
    simp only [scheduled_extend, hdue] at hown hextend
    cases n with
    | succ n =>
      cases hextend.symm.trans h
      cases hkind
    | zero =>
      rw [hextend] at h
      rw [hown]
      rcases passTrivia_extend hs with ⟨hends, hpass⟩ | ⟨-, hlength⟩
      · rw [hpass] at h
        exact scanToken_newline_of_extend hends h hkind hz
      · -- the line break would stand behind the cut
        obtain ⟨c, t, hrest, hc⟩ := lineBreak_of_scanToken h hkind
        have hle := hlength v
        have hpos := lineBreakLength_pos (t := t) hc
        rw [scanToken_lineBreak hrest hc] at h
        cases h
        have hlt := congrArg List.length hz
        simp only [advance, List.length_drop, hrest, List.length_cons] at hlt hle
        omega

theorem exists_leadsToSeam_of_newline (hs : s.rest.EndsLine)
    (h : (s.extend v).next = (.ok token, z)) (hkind : token.kind = .newline) (hz : z.rest = v) :
    ∃ more u, s.LeadsToSeam more u ∧ ∀ t ∈ more, t.kind = .newline := by
  rcases exists_entered_of_next hs h with ⟨y, hends, hstart, hdue, hextend⟩ | ⟨hstart, hseam⟩
  · rw [next_of_enterLineIfDue_eq (hextend v)] at h
    obtain ⟨last, u, hnext, hlast, hrest⟩ := next_newline_of_extend hends hstart h hkind hz
    rw [← next_of_enterLineIfDue_eq hdue] at hnext
    cases onward_next hs hnext with
    | inside rest => exact absurd hrest rest.ne_nil
    | blank start seam => exact ⟨[], s, .blank start seam, List.forall_mem_nil _⟩
    | newline kind rest start next =>
      exact ⟨[last], u, .newline hnext kind rest start next, List.forall_mem_singleton.mpr kind⟩
    | spoiled h =>
      cases h with
      | token _ _ kind => exact absurd hlast kind
      | trivia _ _ _ _ ended =>
        rw [hlast] at ended
        rcases ended.2 with hother | hother <;> cases hother
  · exact ⟨[], s, .blank hstart hseam, List.forall_mem_nil _⟩

/-- A line break that is passed where a line is entered, and stops at the cut, brings the scanner
to the seam. -/
theorem leadsToSeam_of_enterLine (hs : s.rest.EndsLine)
    (h : (s.extend v).enterLineIfDue.2.rest.length ≤ v.length) : s.LeadsToSeam [] s := by
  rcases enterLineIfDue_extend hs with ⟨hends, hextend⟩ | ⟨hstart, hseam⟩
  · rw [hextend, length_rest_extend] at h
    have hpos := List.length_pos_iff.mpr hends.ne_nil
    omega
  · exact .blank hstart hseam

/-! ## The run up to the cut -/

/-- The source is cut at the offset, and a run over the text in front of the cut leads up to a
seam. -/
structure Cut (options : Options) (source : Text) (offset : Nat) (a v : Text) : Prop where
  source_eq : source = a ++ v
  size : Text.size a = offset
  leads : ∃ tokens u, (ofText options a).LeadsToSeam tokens u ∧ ∀ t ∈ tokens, t.kind ≠ .endOfFile

theorem cut_source (options : Options) (source : Text) : Cut options source 0 [] source where
  source_eq := rfl
  size := rfl
  leads := ⟨[], _, leadsToSeam_nil options, List.forall_mem_nil _⟩

theorem Steps.cut (h : (ofText options source).Steps before z) (hsource : source = a ++ v)
    (ha : a.EndsLine) (hz : v.length < z.rest.length) (hinside : ∀ t ∈ before, t.kind ≠ .endOfFile)
    (hlast : ∀ y : Scanner, y.rest.EndsLine → z = y.extend v →
      ∃ more u, y.LeadsToSeam more u ∧ ∀ t ∈ more, t.kind = .newline) :
    Cut options source (Text.size a) a v where
  source_eq := hsource
  size := rfl
  leads := by
    subst hsource
    have hsteps : ((ofText options a).extend v).Steps before z := h
    obtain ⟨y, hy, hextend, hall⟩ := hsteps.stay ha hz
    obtain ⟨more, u, hleads, hmore⟩ := hlast y hy hextend
    refine ⟨before ++ more, u, .prepend hall hleads, List.forall_mem_append.mpr ⟨hinside, ?_⟩⟩
    intro t ht
    rw [hmore t ht]
    decide

/-- Behind a `newline` the source can be cut. -/
theorem Steps.cut_newline (h : (ofText options source).Steps before y)
    (hinside : ∀ t ∈ before, t.kind ≠ .endOfFile) (hnext : y.next = (.ok token, z))
    (hkind : token.kind = .newline) : ∃ a v, Cut options source token.span.stop a v := by
  obtain ⟨entries, haccounts⟩ := h.accounts
  obtain ⟨more, hsettled⟩ := haccounts.settled
  obtain ⟨ts, hgathers⟩ := y.gathers_settled
  have houtcome := y.outcome_next
  rw [hnext] at houtcome
  cases houtcome with
  | marker kind isMarker =>
    obtain rfl : kind = .newline := hkind
    rcases isMarker with hmarker | hmarker <;> cases hmarker
  | lexeme kind text noMarker passes =>
    have hends : text.EndsLine := endsLine_next hnext hkind
    have hsource : source = Entry.spelled (entries ++ more) ++ text ++ z.rest := by
      rw [List.append_assoc, ← passes.rest]
      exact hsettled.source_eq
    have hz : z.rest.length < y.rest.length := by
      have hpos := List.length_pos_iff.mpr hends.ne_nil
      rw [hgathers.passes.rest, passes.rest, List.length_append, List.length_append]
      omega
    have hlast (x : Scanner) (hx : x.rest.EndsLine) (hextend : y = x.extend z.rest) :
        ∃ more u, x.LeadsToSeam more u ∧ ∀ t ∈ more, t.kind = .newline := by
      rw [hextend] at hnext
      exact exists_leadsToSeam_of_newline hx hnext hkind rfl
    have hstop : (Span.sized y.settled.offset (Text.size text)).stop =
        Text.size (Entry.spelled (entries ++ more) ++ text) := by
      rw [Text.size_append, ← hsettled.offset]
      rfl
    have hcut := h.cut hsource (hends.of_suffix (List.suffix_append _ _)) hz hinside hlast
    rw [← hstop] at hcut
    exact ⟨_, _, hcut⟩

/-- Behind a line break that was passed where a line is entered the source can be cut. -/
theorem Steps.cut_trivia {ts : List Trivia} (h : (ofText options source).Steps before y)
    (hinside : ∀ t ∈ before, t.kind ≠ .endOfFile) (hgathers : y.Gathers ts y.enterLineIfDue.2)
    (ht : t ∈ ts) (hends : t.text.EndsLine) : ∃ a v, Cut options source t.span.stop a v := by
  obtain ⟨entries, haccounts⟩ := h.accounts
  obtain ⟨us, more, rfl⟩ := List.append_of_mem ht
  have hspelled : Trivia.spelled (us ++ t :: more) =
      Trivia.spelled us ++ t.text ++ Trivia.spelled more := by
    simp [Trivia.spelled]
  have hrest := hgathers.passes.rest
  rw [hspelled, List.append_assoc] at hrest
  have hle : y.enterLineIfDue.2.rest.length ≤
      (Trivia.spelled more ++ y.enterLineIfDue.2.rest).length := by
    rw [List.length_append]
    exact Nat.le_add_left _ _
  generalize Trivia.spelled more ++ y.enterLineIfDue.2.rest = v at hrest hle
  have hsource : source = Entry.spelled entries ++ (Trivia.spelled us ++ t.text) ++ v := by
    rw [haccounts.source_eq, hrest, ← List.append_assoc]
  have hz : v.length < y.rest.length := by
    have hpos := List.length_pos_iff.mpr hends.ne_nil
    rw [hrest, List.length_append, List.length_append]
    omega
  have hlast (x : Scanner) (hx : x.rest.EndsLine) (hextend : y = x.extend v) :
      ∃ more u, x.LeadsToSeam more u ∧ ∀ t ∈ more, t.kind = .newline := by
    rw [hextend] at hle
    exact ⟨[], x, leadsToSeam_of_enterLine hx hle, List.forall_mem_nil _⟩
  have hstop : t.span.stop = Text.size (Entry.spelled entries ++ (Trivia.spelled us ++ t.text)) := by
    rw [hgathers.placed.span_eq, Text.size_append, Text.size_append, ← haccounts.offset]
    exact Nat.add_assoc _ _ _
  have hends' : EndsLine (Entry.spelled entries ++ (Trivia.spelled us ++ t.text)) := by
    refine hends.of_suffix ?_
    exact (List.suffix_append _ _).trans (List.suffix_append _ _)
  rw [hstop]
  exact ⟨_, _, h.cut hsource hends' hz hinside hlast⟩

/-- Where a line starts the source can be cut. -/
theorem Scans.exists_cut {offset : Nat} (h : (ofText options source).Scans tokens none)
    (hline : Token.LineStartsAt tokens offset) : ∃ a v, Cut options source offset a v := by
  cases hline with
  | source hzero =>
    subst hzero
    exact ⟨_, _, cut_source options source⟩
  | @newline token mem kind stop =>
    subst stop
    obtain ⟨before, after, rfl⟩ := List.append_of_mem mem
    obtain ⟨y, z, hsteps, hnext, hinside⟩ := h.exists_step
    exact hsteps.cut_newline hinside hnext kind
  | @trivia before after token t tokens_eq outside mem kind stop =>
    subst stop tokens_eq
    obtain ⟨y, z, hsteps, hnext, hinside⟩ := h.exists_step
    have hbrackets : y.brackets = [] := Option.some.inj (hsteps.trackAll.symm.trans outside)
    have hbreaks := (hsteps.snoc hnext).breaks token (by simp)
    obtain ⟨before, more, x, ts, rfl, hfirst, hgathers, hmem⟩ :=
      hsteps.exists_gathers hbrackets (mem_settled_of_leading hnext mem) kind
    exact hfirst.cut_trivia (List.forall_mem_append.mp hinside).1 hgathers hmem
      (hbreaks.leading t mem kind)

end Scanner

end Verbatim
