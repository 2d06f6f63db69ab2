import Verbatim.Proofs.Concat.Tokens
import Verbatim.Proofs.Lines.Scanner

/-!
# The lines of the tokens

The line index is made from the text alone, and the scanner finds line breaks on its own, in each
place where one can stand. Both divide a source into the same lines: apart from zero, the offsets
at which lines start are the ends of line breaks and of line continuations, and the places inside
of string literals behind a line break of the source.
-/

namespace Verbatim

namespace Entry

variable {source rest : Text} {offset p : Nat} {es : List Entry} {e : Entry}

/-- Each of the entries is lined in front of the text of those that follow. -/
def AllLined : List Entry → Prop
  | [] => True
  | e :: es => e.Lined (spelled es) ∧ AllLined es

/-- What stands at an offset that a line break stops at. -/
def BreaksAt (p : Nat) (e : Entry) : Prop :=
  e.EndsLine ∧ e.span.stop = p ∨ e.IsString ∧ e.span.start < p ∧ p < e.span.stop

theorem Placed.allLined (before : Text) (h : Placed source (Text.size before) es)
    (hsource : source = before ++ spelled es) (hlined : ∀ e ∈ es, e.LinedIn source) :
    AllLined es := by
  induction es generalizing before with
  | nil => trivial
  | cons e es ih =>
    obtain ⟨hlinedIn, hlined⟩ := List.forall_mem_cons.mp hlined
    have hsplit : source = before ++ e.text ++ spelled es := by
      rw [hsource, List.append_assoc]
      rfl
    have htail := h.2
    rw [← Text.size_append] at htail
    refine ⟨?_, ih (before ++ e.text) htail hsplit hlined⟩
    rcases h.1 with hspan | ⟨htext, -⟩
    · exact hlinedIn.lined before (spelled es) hsplit (by rw [hspan]; rfl)
    · refine Text.lined_of_unbroken ?_ fun hends => hlinedIn.text hends htext
      rw [htext]
      exact List.forall_mem_nil _

theorem Placed.span_eq (h : Placed source offset (e :: es)) (htext : e.text ≠ []) :
    e.span = Span.sized offset (Text.size e.text) :=
  h.1.resolve_right fun hempty => htext hempty.1

/-- A line break stops in one of the entries, or at its end. -/
theorem Placed.exists_breaksAt (h : Placed source offset es) (hlined : AllLined es)
    (hp : (spelled es).LineBreakStopsAfter offset p) : ∃ e ∈ es, e.BreaksAt p := by
  induction es generalizing offset with
  | nil => exact absurd hp Text.not_lineBreakStopsAfter_nil
  | cons e es ih =>
    obtain ⟨before, after, hsplit, rfl, hbreak⟩ := hp
    -- the break stops behind the first entry, at its end or inside of it
    rcases List.append_eq_append_iff.mp hsplit with ⟨more, rfl, hmore⟩ | ⟨back, htext, rfl⟩
    · by_cases hnil : more = []
      · subst hnil
        rw [List.append_nil] at hbreak ⊢
        rw [List.nil_append] at hmore
        rw [← hmore] at hbreak
        refine ⟨e, List.mem_cons_self, .inl ⟨hlined.1.stop.mp hbreak, ?_⟩⟩
        rw [h.span_eq hbreak.ne_nil]
        rfl
      · have hplace : offset + Text.size e.text + Text.size more =
            offset + Text.size (e.text ++ more) := by
          rw [Text.size_append, Nat.add_assoc]
        obtain ⟨e', he', hbreaks⟩ := ih h.2 hlined.2
          ⟨more, after, hmore, hplace, (Text.breaksBetween_append hnil).mp hbreak⟩
        exact ⟨e', List.mem_cons_of_mem e he', hbreaks⟩
    · refine ⟨e, List.mem_cons_self, ?_⟩
      have hne : e.text ≠ [] := by simp [htext, hbreak.ne_nil]
      have hspan := h.span_eq hne
      by_cases hback : back = []
      · rw [hback, List.append_nil] at htext
        rw [hback, List.nil_append, ← htext] at hbreak
        refine .inl ⟨hlined.1.stop.mp hbreak, ?_⟩
        rw [hspan, htext]
        rfl
      · refine .inr ⟨hlined.1.inside before back htext hback hbreak, ?_⟩
        have hfront : Text.size before ≠ 0 := mt Text.eq_nil_of_size_eq_zero hbreak.ne_nil
        have hrest : Text.size back ≠ 0 := mt Text.eq_nil_of_size_eq_zero hback
        rw [hspan, htext]
        simp only [Span.sized, Text.size_append]
        omega

/-- At the end of a line break, or of a line continuation, a line break stops. -/
theorem Placed.lineBreakStopsAfter (h : Placed source offset es) (hlined : AllLined es)
    (he : e ∈ es) (hends : e.EndsLine) :
    (spelled es).LineBreakStopsAfter offset e.span.stop := by
  induction es generalizing offset with
  | nil => cases he
  | cons first es ih =>
    rcases List.mem_cons.mp he with rfl | he
    · have hbreak := hlined.1.stop.mpr hends
      refine ⟨e.text, spelled es, rfl, ?_, hbreak⟩
      rw [h.span_eq hbreak.ne_nil]
      rfl
    · obtain ⟨before, after, hsplit, hstop, hbreak⟩ := ih h.2 hlined.2 he
      have hbetween : (first.text ++ before).BreaksBetween after :=
        (Text.breaksBetween_append hbreak.ne_nil).mpr hbreak
      refine ⟨first.text ++ before, after, ?_, ?_, hbetween⟩
      · rw [List.append_assoc, ← hsplit]
        rfl
      · rw [Text.size_append, ← Nat.add_assoc, hstop]

end Entry

/-! ## Tokens and trivia -/

namespace Scanner

variable {s u : Scanner} {init : List Token} {last : Token}

theorem Steps.waiting_eq_nil (h : s.Steps (init ++ [last]) u) (hlast : last.kind = .endOfFile) :
    u.waiting = [] := by
  generalize htokens : init ++ [last] = tokens at h
  cases h with
  | refl => simp at htokens
  | @snoc v _ _ _ _ hnext =>
    obtain ⟨-, htoken⟩ := List.append_inj' htokens rfl
    obtain rfl := List.singleton_inj.mp htoken
    have houtcome := v.outcome_next
    rw [hnext] at houtcome
    cases houtcome with
    | marker kind isMarker =>
      rcases isMarker with rfl | rfl <;> cases hlast
    | lexeme kind t noMarker passes waiting => exact waiting

end Scanner

namespace Accounts

variable {source : Text} {u : Scanner} {tokens : List Token} {entries : List Entry} {token : Token}
  {t : Trivia}

theorem token_mem (h : Accounts source (tokens.map .token) u entries)
    (hmem : .token token ∈ entries) : token ∈ tokens := by
  have hmem' : token ∈ entries.filterMap Entry.token? := List.mem_filterMap.mpr ⟨_, hmem, rfl⟩
  rw [h.tokens] at hmem'
  simpa [List.filterMap_map, Scan.token?] using hmem'

theorem exists_of_trivia_mem (h : Accounts source (tokens.map .token) u entries)
    (hwaiting : u.waiting = []) (hmem : .trivia t ∈ entries) :
    ∃ token ∈ tokens, t ∈ token.leading := by
  have hmem' : t ∈ entries.filterMap Entry.trivia? := List.mem_filterMap.mpr ⟨_, hmem, rfl⟩
  rw [h.trivia, hwaiting, List.append_nil] at hmem'
  simpa [List.filterMap_map, Scan.token?] using hmem'

theorem not_fault_mem (h : Accounts source (tokens.map .token) u entries) {range : Span}
    {text : Text} : .fault range text ∉ entries := by
  intro hmem
  have hmem' : range ∈ entries.filterMap Entry.fault? := List.mem_filterMap.mpr ⟨_, hmem, rfl⟩
  rw [h.faults] at hmem'
  simp [List.filterMap_map, Scan.fault?] at hmem'

theorem linedIn {options : Options} (h : Accounts source (tokens.map .token) u entries)
    (hsteps : (Scanner.ofText options source).Steps tokens u) (hwaiting : u.waiting = []) :
    ∀ e ∈ entries, e.LinedIn source := by
  have hlined := hsteps.linedIn
  intro e he
  cases e with
  | trivia t =>
    obtain ⟨token, htoken, ht⟩ := h.exists_of_trivia_mem hwaiting he
    exact (hlined token htoken).2 t ht
  | token token => exact (hlined token (h.token_mem he)).1
  | fault => exact absurd he h.not_fault_mem

end Accounts

variable {options : Options} {source : Text} {tokens : List Token} {p : Nat}

theorem exists_accounts_of_tokenize (h : tokenize options source = .ok tokens) :
    ∃ u entries, (Scanner.ofText options source).Steps tokens u ∧
      Accounts source (tokens.map .token) u entries ∧ u.rest = [] ∧ u.waiting = [] := by
  obtain ⟨hnone, rfl⟩ := TokenRun.tokenize_eq_ok_iff.mp h
  have hscans := TokenRun.scans options source
  obtain ⟨u, hsteps, hrest⟩ := hscans.steps hnone
  obtain ⟨init, last, htokens, hlast⟩ := hscans.ends hnone
  obtain ⟨entries, haccounts⟩ := hsteps.accounts
  have hwaiting : u.waiting = [] := by
    rw [htokens] at hsteps
    exact hsteps.waiting_eq_nil hlast
  exact ⟨u, entries, hsteps, haccounts, hrest, hwaiting⟩

/-- An offset other than zero is the start of a line if and only if a line break, a line
continuation or, inside of a string literal, a line break of the source stops there. -/
theorem mem_starts_iff_of_tokenize (h : tokenize options source = .ok tokens) (hp : 0 < p) :
    p ∈ (LineIndex.ofText source).starts ↔
      (∃ token ∈ tokens, token.kind = .newline ∧ token.span.stop = p) ∨
      (∃ token ∈ tokens, ∃ t ∈ token.leading,
        (t.kind = .newline ∨ t.kind = .lineContinuation) ∧ t.span.stop = p) ∨
      ∃ token ∈ tokens, token.kind = .string ∧ token.span.start < p ∧ p < token.span.stop ∧
        source.LineBreakStopsAt p := by
  obtain ⟨u, entries, hsteps, haccounts, hrest, hwaiting⟩ := exists_accounts_of_tokenize h
  have hsource : source = Entry.spelled entries := by
    rw [haccounts.source_eq, hrest, List.append_nil]
  have hlined : Entry.AllLined entries :=
    Entry.Placed.allLined [] haccounts.placed hsource (haccounts.linedIn hsteps hwaiting)
  have hstops {e : Entry} (he : e ∈ entries) (hends : e.EndsLine) :
      source.LineBreakStopsAt e.span.stop := by
    rw [← Text.lineBreakStopsAfter_zero, hsource]
    exact haccounts.placed.lineBreakStopsAfter hlined he hends
  rw [Text.mem_starts_iff hp]
  constructor
  · intro hbreak
    have hafter := hbreak
    rw [← Text.lineBreakStopsAfter_zero, hsource] at hafter
    obtain ⟨e, he, hbreaks⟩ := haccounts.placed.exists_breaksAt hlined hafter
    cases e with
    | trivia t =>
      rcases hbreaks with ⟨hkind, hstop⟩ | ⟨hstring, -⟩
      · obtain ⟨token, htoken, ht⟩ := haccounts.exists_of_trivia_mem hwaiting he
        exact .inr (.inl ⟨token, htoken, t, ht, hkind, hstop⟩)
      · exact hstring.elim
    | token token =>
      have htoken := haccounts.token_mem he
      rcases hbreaks with ⟨hkind, hstop⟩ | ⟨hkind, hstart, hstop⟩
      · exact .inl ⟨token, htoken, hkind, hstop⟩
      · exact .inr (.inr ⟨token, htoken, hkind, hstart, hstop, hbreak⟩)
    | fault => exact absurd he haccounts.not_fault_mem
  · rintro (⟨token, htoken, hkind, rfl⟩ | ⟨token, htoken, t, ht, hkind, rfl⟩ |
      ⟨token, htoken, hkind, hstart, hstop, hbreak⟩)
    · exact hstops (haccounts.mem_of_token htoken) hkind
    · exact hstops (haccounts.mem_of_trivia htoken ht) hkind
    · exact hbreak

/-- A literal over two lines, in front of a line continuation. -/
theorem mem_starts_iff_of_literal :
    ∃ tokens, tokenize {} "\"\"\"\r\n\"\"\"\\\n".toList = .ok tokens ∧ 0 < 5 ∧
      (5 ∈ (LineIndex.ofText "\"\"\"\r\n\"\"\"\\\n".toList).starts ↔
        (∃ token ∈ tokens, token.kind = .newline ∧ token.span.stop = 5) ∨
        (∃ token ∈ tokens, ∃ t ∈ token.leading,
          (t.kind = .newline ∨ t.kind = .lineContinuation) ∧ t.span.stop = 5) ∨
        ∃ token ∈ tokens, token.kind = .string ∧ token.span.start < 5 ∧ 5 < token.span.stop ∧
          Text.LineBreakStopsAt "\"\"\"\r\n\"\"\"\\\n".toList 5) := by
  have h : tokenize {} "\"\"\"\r\n\"\"\"\\\n".toList = .ok
      [⟨.string, .sized 0 8, [], "\"\"\"\r\n\"\"\"".toList⟩,
        ⟨.endOfFile, .empty 10, [⟨.lineContinuation, .sized 8 2, ['\\', '\n']⟩], []⟩] := by
    decide +kernel
  exact ⟨_, h, by decide, mem_starts_iff_of_tokenize h (by decide)⟩

end Verbatim
