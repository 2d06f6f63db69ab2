import Verbatim.Proofs.Brackets
import Verbatim.Proofs.Concat.Scanner
import Verbatim.Proofs.Layout.Filled
import Verbatim.Proofs.Tree.Relabel

/-!
# A run up to the seam

The last line break of a text is the seam between it and a text that comes behind. With the other
text behind it a run gives the same tokens up to a step that starts a line at the seam.
-/

namespace Verbatim

open Text (EndsLine)

/-- Leaves of a token its kind and its text, and of a line break only its kind. -/
def Relabelling.words : Relabelling where
  token t := ⟨t.kind, .empty 0, [], if t.kind = .newline then [] else t.text⟩
  kind_token _ := rfl

/-- Tokens that are relabelled alike have the same kinds. -/
theorem Relabelling.forall_kind_ne {ρ : Relabelling} {ts us : List Token} {kind : TokenKind}
    (h : ts.map ρ.token = us.map ρ.token) (hus : ∀ t ∈ us, t.kind ≠ kind) :
    ∀ t ∈ ts, t.kind ≠ kind := by
  intro t ht
  have hlabel := List.mem_map_of_mem (f := ρ.token) ht
  rw [h] at hlabel
  obtain ⟨t₀, ht₀, hsame⟩ := List.mem_map.mp hlabel
  rw [← ρ.kind_eq hsame]
  exact hus t₀ ht₀

/-- If the token or a piece of its trivia stops at the offset, then that is a line break. -/
structure Token.BreaksAt (offset : Nat) (token : Token) : Prop where
  text : token.text ≠ [] → token.span.stop = offset → token.kind = .newline
  leading : ∀ t ∈ token.leading, t.text ≠ [] → t.span.stop = offset → t.kind = .newline

namespace Scanner

variable {s u z : Scanner} {b : Text} {token : Token} {tokens : List Token}

/-- A line starts for the first scanner, and with the other text behind it the second one goes on
with the lines of that text. -/
def AtSeam (b : Text) (s z : Scanner) : Prop :=
  ∃ w, Crosses b { s with atLineStart := false } w ∧ z.enterLineIfDue = w.entered

/-! ## Steps -/

/-- Something comes to the end of the text and is no line break, or only one inside brackets. -/
inductive Spoils (s : Scanner) (token : Token) (u : Scanner) : Prop
  | token (text : token.text ≠ []) (stop : token.span.stop = s.textEnd)
      (kind : token.kind ≠ .newline)
  | trivia {t : Trivia} (waiting : t ∈ s.settled.waiting) (text : t.text ≠ [])
      (stop : t.span.stop = s.textEnd) (kind : t.kind = .newline → s.brackets ≠ [])
      (ended : u.Ended ∧ (token.kind = .dedent ∨ token.kind = .endOfFile))

/-- How a step does with another text behind. -/
inductive Onward (s : Scanner) (token : Token) (u : Scanner) : Prop
  | inside (rest : u.rest.EndsLine) (next : ∀ b, (s.extend b).next = (.ok token, u.extend b))
  | blank (start : s.atLineStart = true) (seam : ∀ b, s.AtSeam b (s.extend b))
  | newline (kind : token.kind = .newline) (rest : u.rest = []) (start : u.atLineStart = true)
      (next : ∀ b, ∃ token' z, (s.extend b).next = (.ok token', z) ∧ token'.kind = .newline ∧
        u.AtSeam b z)
  | spoiled (h : s.Spoils token u)

theorem enterLineIfDue_extend (hs : s.rest.EndsLine) :
    (s.enterLineIfDue.2.rest.EndsLine ∧
        ∀ b, (s.extend b).enterLineIfDue = (s.enterLineIfDue.1, s.enterLineIfDue.2.extend b)) ∨
      s.atLineStart = true ∧ ∀ b, s.AtSeam b (s.extend b) := by
  by_cases hstart : s.atLineStart = true
  · have hextend (b : Text) : (s.extend b).enterLineIfDue =
        (({ s with atLineStart := false } : Scanner).extend b).entered := if_pos hstart
    rw [enterLineIfDue_of_atLineStart hstart]
    refine (entered_extend (s := { s with atLineStart := false }) hs).imp ?_ ?_
    · rintro ⟨hends, hall⟩
      exact ⟨hends, fun b => (hextend b).trans (hall b)⟩
    · intro hall
      refine ⟨hstart, fun b => ?_⟩
      obtain ⟨w, hw, hentered⟩ := hall b
      exact ⟨w, hw, (hextend b).trans hentered⟩
  · have hextend (b : Text) : (s.extend b).enterLineIfDue = (.ok (), s.extend b) := if_neg hstart
    have hdue : s.enterLineIfDue = (.ok (), s) := if_neg hstart
    rw [hdue]
    exact .inl ⟨hs, hextend⟩

theorem atSeam_of_crosses (hstart : u.atLineStart = true) (h : u.Crosses b z) : u.AtSeam b z := by
  have hz : z.atLineStart = true := h.same.atLineStart.trans hstart
  refine ⟨{ z with atLineStart := false }, ⟨h.rest, ?_⟩, enterLineIfDue_of_atLineStart hz⟩
  exact ⟨h.same.tabSize, h.same.columns, h.same.brackets, h.same.scheduled, rfl⟩

theorem onward_scanToken (hs : s.rest.EndsLine) (hstart : s.atLineStart = false)
    (hdue : s.scheduled = .dedents 0) (h : s.passTrivia.scanToken = (.ok token, u)) :
    s.Onward token u := by
  have hextend (b : Text) : (s.extend b).next = (s.extend b).passTrivia.scanToken := by
    rw [next_eq_of_atLineStart (s := s.extend b) hstart, scheduled_extend, hdue]
  obtain ⟨⟨ts, hgathers, -⟩, same, stops⟩ := s.settles_passTrivia
  have hstart' := same.atLineStart.trans hstart
  have hdue' := same.scheduled.trans hdue
  rcases passTrivia_extend hs with ⟨hends, hpass⟩ | ⟨⟨hnil, t, hmem, htext, hstop, hkind⟩, -⟩
  · rcases scanToken_extend hends h with ⟨hrest, hscan⟩ | ⟨hnil, htext, hstop, hbreaks⟩
    · exact .inside hrest fun b => by rw [hextend, hpass, hscan]
    · by_cases hkind : token.kind = .newline
      · have hu : u.atLineStart = true := by
          rcases scanToken_eq_ok stops hstart' hdue' h with htakes | ⟨-, hother⟩
          · rw [htakes.atLineStart, hkind]
            rfl
          · rw [hkind] at hother
            rcases hother with hother | hother <;> cases hother
        refine .newline hkind hnil hu fun b => ?_
        obtain ⟨token', z, hscan, hkind', hcrosses⟩ := hbreaks hkind b
        refine ⟨token', z, ?_, hkind', atSeam_of_crosses hu hcrosses⟩
        rw [hextend, hpass, hscan]
      · exact .spoiled (.token htext (hstop.trans hgathers.passes.textEnd_eq) hkind)
  · have hsettled : s.settled = s.passTrivia := by
      simp [settled, enterLineIfDue, hstart, hdue]
    rw [scanToken, hnil] at h
    exact .spoiled (.trivia (hsettled ▸ hmem) htext hstop hkind (ended_finish hnil hstart' hdue' h))

theorem onward_inside (hs : s.rest.EndsLine) (hstart : s.atLineStart = false)
    (h : s.next = (.ok token, u)) : s.Onward token u := by
  have hextend (b : Text) := next_eq_of_atLineStart (s := s.extend b) hstart
  rw [next_eq_of_atLineStart hstart] at h
  cases hdue : s.scheduled with
  | indent =>
    simp only [scheduled_extend, hdue] at h hextend
    cases h
    exact .inside hs hextend
  | dedents n =>
    simp only [scheduled_extend, hdue] at h hextend
    cases n with
    | succ n =>
      cases h
      exact .inside hs hextend
    | zero => exact onward_scanToken hs hstart hdue h

theorem brackets_closeBlocks (s : Scanner) : s.closeBlocks.brackets = s.brackets := by
  unfold closeBlocks
  split <;> rfl

theorem brackets_measure (s : Scanner) (column : Nat) :
    (s.measure column).2.brackets = s.brackets := by
  unfold measure
  dsimp only
  split
  · rfl
  · split <;> rfl

theorem brackets_enterLine (n : Nat) (s : Scanner) : (enterLine n s).2.brackets = s.brackets := by
  induction n generalizing s with
  | zero => rfl
  | succ n ih =>
    rw [enterLine_succ, ← s.sameBlocks_passLine.brackets]
    split
    · split
      · exact brackets_closeBlocks _
      · exact brackets_measure _ _
    · rw [ih, (sameBlocks_keep _ _ _).brackets]

theorem brackets_enterLineIfDue (s : Scanner) : s.enterLineIfDue.2.brackets = s.brackets := by
  unfold enterLineIfDue
  split
  · exact brackets_enterLine _ _
  · rfl

/-- A step that enters a line goes on as from there. -/
theorem Onward.of_enterLineIfDue {v : Scanner} (hdue : s.enterLineIfDue = (.ok (), v))
    (hextend : ∀ b, (s.extend b).enterLineIfDue = (.ok (), v.extend b))
    (h : v.Onward token u) : s.Onward token u := by
  have hstart := s.atLineStart_enterLineIfDue
  have hbrackets := s.brackets_enterLineIfDue
  obtain ⟨ts, hgathers⟩ := s.gathers_enterLineIfDue
  rw [hdue] at hstart hbrackets hgathers
  dsimp only at hstart hbrackets
  have hnext (b : Text) : (s.extend b).next = (v.extend b).next :=
    next_of_enterLineIfDue_eq (hextend b)
  have hend : v.textEnd = s.textEnd := hgathers.passes.textEnd_eq
  cases h with
  | inside rest next => exact .inside rest fun b => (hnext b).trans (next b)
  | blank start => simp [hstart] at start
  | newline kind rest start next =>
    refine .newline kind rest start fun b => ?_
    obtain ⟨token', z, hz, hkind, hseam⟩ := next b
    exact ⟨token', z, (hnext b).trans hz, hkind, hseam⟩
  | spoiled h =>
    refine .spoiled ?_
    cases h with
    | token text stop kind => exact .token text (stop.trans hend) kind
    | trivia waiting text stop kind ended =>
      have hv : v.enterLineIfDue = (.ok (), v) := if_neg (by simp [hstart])
      have hsettled : s.settled = v.settled := by rw [settled, settled, hdue, hv]
      exact .trivia (hsettled ▸ waiting) text (stop.trans hend) (hbrackets ▸ kind) ended

/-- A step that gives a token, with some text behind the scanner's own, enters a line in that of its
own or leads over to the text behind. -/
theorem exists_entered_of_next (hs : s.rest.EndsLine) (h : (s.extend b).next = (.ok token, z)) :
    (∃ v : Scanner, v.rest.EndsLine ∧ v.atLineStart = false ∧
        s.enterLineIfDue = (.ok (), v) ∧ ∀ b, (s.extend b).enterLineIfDue = (.ok (), v.extend b)) ∨
      s.atLineStart = true ∧ ∀ b, s.AtSeam b (s.extend b) := by
  refine (enterLineIfDue_extend hs).imp_left ?_
  rintro ⟨hends, hextend⟩
  have hok := enterLineIfDue_of_next h
  have hstart := s.atLineStart_enterLineIfDue
  rw [hextend] at hok
  rcases hdue : s.enterLineIfDue with ⟨result, v⟩
  rw [hdue] at hok hstart hends hextend
  obtain rfl : result = .ok () := hok
  exact ⟨v, hends, hstart, rfl, hextend⟩

/-- A step either does the same with another text behind, or it comes to the end of its own. -/
theorem onward_next (hs : s.rest.EndsLine) (h : s.next = (.ok token, u)) : s.Onward token u := by
  have hextend : (s.extend []).next = (.ok token, u) := by rwa [extend_nil]
  rcases exists_entered_of_next hs hextend with ⟨v, hends, hstart, hdue, hall⟩ | ⟨hstart, hseam⟩
  · rw [next_of_enterLineIfDue_eq hdue] at h
    exact (onward_inside hends hstart h).of_enterLineIfDue hdue hall
  · exact .blank hstart hseam

theorem textEnd_next (h : s.next = (.ok token, u)) : u.textEnd = s.textEnd := by
  obtain ⟨ts, hgathers⟩ := s.gathers_settled
  have houtcome := s.outcome_next
  rw [h] at houtcome
  rw [← hgathers.passes.textEnd_eq]
  cases houtcome with
  | marker kind isMarker place => rw [textEnd, textEnd, place.rest, place.offset]
  | lexeme kind t noMarker passes => exact passes.textEnd_eq

/-! ## The run -/

theorem track_of_ended (hkind : token.kind = .dedent ∨ token.kind = .endOfFile)
    (opened : List (Bracket × Nat)) : token.track opened = some opened := by
  rcases hkind with hkind | hkind <;>
    exact Token.track_of_no_bracket (by rw [hkind]; rfl) (by rw [hkind]; rfl)

/-- Past the end of the text brackets stay as they are. -/
theorem Scans.trackAll_of_ended {failure : Option LexicalError} (h : s.Scans tokens failure)
    (hs : s.Ended) (hnone : failure = none) (opened : List (Bracket × Nat)) :
    Token.trackAll opened tokens = some opened := by
  induction h with
  | fault => cases hnone
  | done hnext _ => rw [Token.trackAll_singleton, track_of_ended (hs.next hnext).2]
  | step hnext _ _ ih =>
    obtain ⟨hended, hkind⟩ := hs.next hnext
    rw [Token.trackAll_cons, track_of_ended hkind]
    exact ih hended hnone

theorem Scans.of_next (h : s.Scans tokens none) (hnext : s.next = (.ok token, u)) :
    (token.kind = .endOfFile ∧ tokens = [token]) ∨
      ∃ more, token.kind ≠ .endOfFile ∧ tokens = token :: more ∧ u.Scans more none := by
  cases h with
  | done hdone hkind =>
    cases hnext.symm.trans hdone
    exact .inl ⟨hkind, rfl⟩
  | step hstep hkind hrest =>
    cases hnext.symm.trans hstep
    exact .inr ⟨_, hkind, rfl, hrest⟩

/-- If trivia comes to the end of the text, the last token takes it, and no bracket is closed. -/
theorem Scans.of_ended (h : s.Scans tokens none) (hnext : s.next = (.ok token, u)) (hu : u.Ended)
    (hkind : token.kind = .dedent ∨ token.kind = .endOfFile) :
    Token.trackAll s.brackets tokens = some s.brackets ∧
      ∀ t ∈ s.settled.waiting, ∃ last ∈ tokens, t ∈ last.leading := by
  rcases h.of_next hnext with ⟨hend, rfl⟩ | ⟨more, hmore, rfl, hrest⟩
  · refine ⟨?_, fun t ht => ⟨token, by simp, leading_of_endOfFile hnext hend ht⟩⟩
    rw [Token.trackAll_singleton, track_of_ended hkind]
  · constructor
    · rw [Token.trackAll_cons, track_of_ended hkind]
      exact hrest.trackAll_of_ended hu rfl _
    · intro t ht
      have hwaiting := waiting_of_dedent hnext (hkind.resolve_right hmore) ht
      obtain ⟨last, hmem, -, hleading⟩ := hrest.leading hu rfl hwaiting
      exact ⟨last, List.mem_cons_of_mem _ hmem, hleading⟩

theorem Spoils.elim (h : s.Spoils token u) (hscans : s.Scans tokens none)
    (hnext : s.next = (.ok token, u)) (htrack : Token.trackAll s.brackets tokens = some [])
    (hlast : ∀ token ∈ tokens, token.BreaksAt s.textEnd) : False := by
  cases h with
  | token text stop kind =>
    have hmem : token ∈ tokens := by
      rcases hscans.of_next hnext with ⟨-, rfl⟩ | ⟨more, -, rfl, -⟩ <;> simp
    exact kind ((hlast token hmem).text text stop)
  | trivia waiting text stop kind ended =>
    obtain ⟨hstays, htakes⟩ := hscans.of_ended hnext ended.1 ended.2
    obtain ⟨last, hmem, hleading⟩ := htakes _ waiting
    have hopen := kind ((hlast last hmem).leading _ hleading text stop)
    rw [htrack, Option.some.injEq] at hstays
    exact hopen hstays.symm

/-- The tokens lead up to a line that starts at the seam. With another text behind they lead up to
the same one, but the last line break may be longer. -/
structure LeadsToSeam (s : Scanner) (before : List Token) (u : Scanner) : Prop where
  steps : s.Steps before u
  atLineStart : u.atLineStart = true
  atEnd : u.AtSeam [] u
  further : ∀ b, ∃ before' z, (s.extend b).Steps before' z ∧
    before'.map Relabelling.words.token = before.map Relabelling.words.token ∧ u.AtSeam b z

namespace LeadsToSeam

theorem blank (hstart : s.atLineStart = true) (h : ∀ b, s.AtSeam b (s.extend b)) :
    s.LeadsToSeam [] s where
  steps := .refl
  atLineStart := hstart
  atEnd := by
    have hnone := h []
    rwa [extend_nil] at hnone
  further b := ⟨[], s.extend b, .refl, rfl, h b⟩

theorem newline (hnext : s.next = (.ok token, u)) (hkind : token.kind = .newline)
    (hrest : u.rest = []) (hstart : u.atLineStart = true)
    (h : ∀ b, ∃ token' z, (s.extend b).next = (.ok token', z) ∧ token'.kind = .newline ∧
      u.AtSeam b z) : s.LeadsToSeam [token] u where
  steps := .snoc .refl hnext
  atLineStart := hstart
  atEnd := ⟨{ u with atLineStart := false }, ⟨.inl hrest, .refl _⟩,
    enterLineIfDue_of_atLineStart hstart⟩
  further b := by
    obtain ⟨token', z, hnext', hkind', hseam⟩ := h b
    refine ⟨[token'], z, .snoc .refl hnext', ?_, hseam⟩
    simp [Relabelling.words, hkind, hkind']

theorem cons {before : List Token} {v : Scanner} (hnext : s.next = (.ok token, u))
    (h : ∀ b, (s.extend b).next = (.ok token, u.extend b)) (hu : u.LeadsToSeam before v) :
    s.LeadsToSeam (token :: before) v where
  steps := .cons hnext hu.steps
  atLineStart := hu.atLineStart
  atEnd := hu.atEnd
  further b := by
    obtain ⟨before', z, hsteps, hsame, hseam⟩ := hu.further b
    refine ⟨token :: before', z, .cons (h b) hsteps, ?_, hseam⟩
    rw [List.map_cons, List.map_cons, hsame]

end LeadsToSeam

theorem rest_of_endOfFile (h : s.next = (.ok token, u)) (hkind : token.kind = .endOfFile) :
    u.rest = [] := by
  have houtcome := s.outcome_next
  rw [h] at houtcome
  cases houtcome with
  | marker kind isMarker =>
    have hkind : kind = .endOfFile := hkind
    rw [hkind] at isMarker
    rcases isMarker with hmarker | hmarker <;> cases hmarker
  | lexeme kind t noMarker passes waiting scheduled markerOffset takes atEnd => exact atEnd hkind

theorem Scans.leadsToSeam {failure : Option LexicalError} (h : s.Scans tokens failure)
    (hnone : failure = none) (hsteady : s.Steady) (hs : s.rest.EndsLine)
    (htrack : Token.trackAll s.brackets tokens = some [])
    (hlast : ∀ token ∈ tokens, token.BreaksAt s.textEnd) :
    ∃ before after u, tokens = before ++ after ∧ s.LeadsToSeam before u ∧ u.Scans after none := by
  induction h with
  | fault => cases hnone
  | @done s u last hnext hkind =>
    have hscans : s.Scans [last] none := .done hnext hkind
    cases onward_next hs hnext with
    | inside rest next => exact absurd (rest_of_endOfFile hnext hkind) rest.ne_nil
    | blank start seam => exact ⟨[], [last], s, rfl, .blank start seam, hscans⟩
    | newline kind =>
      rw [hkind] at kind
      cases kind
    | spoiled h => exact (h.elim hscans hnext htrack hlast).elim
  | @step s u token more failure hnext hkind hrest ih =>
    subst hnone
    have hscans : s.Scans (token :: more) none := .step hnext hkind hrest
    cases onward_next hs hnext with
    | inside rest next =>
      have hturn := hsteady.turn
      rw [hnext] at hturn
      rw [Token.trackAll_cons, hturn.track, Option.bind_some] at htrack
      rw [← textEnd_next hnext] at hlast
      obtain ⟨before, after, v, rfl, hleads, hafter⟩ :=
        ih rfl (hsteady.of_turn hturn) rest htrack (List.forall_mem_cons.mp hlast).2
      exact ⟨token :: before, after, v, rfl, .cons hnext next hleads, hafter⟩
    | blank start seam => exact ⟨[], token :: more, s, rfl, .blank start seam, hscans⟩
    | newline kind rest start next =>
      exact ⟨[token], more, u, rfl, .newline hnext kind rest start next, hrest⟩
    | spoiled h => exact (h.elim hscans hnext htrack hlast).elim

end Scanner

end Verbatim
