import Verbatim.Proofs.Concat.Run
import Verbatim.Proofs.Scanner.Cut

/-!
# The last byte of a text

The bytes of a source are divided among its tokens and its trivia. If the last one is in a line
break, then the text ends with that line break, and nothing else comes to its end.
-/

namespace Verbatim

open Text (EndsLine)

/-! ## Who has a byte -/

namespace Entry

variable {source : Text} {offset n : Nat} {es : List Entry} {e e' : Entry}

theorem Placed.bounds (h : Placed source offset es) (he : e ∈ es) (htext : e.text ≠ []) :
    offset ≤ e.span.start ∧ e.span.start < e.span.stop ∧
      e.span.stop ≤ offset + Text.size (spelled es) := by
  induction es generalizing offset with
  | nil => cases he
  | cons first es ih =>
    have hsize : Text.size (spelled (first :: es)) =
        Text.size first.text + Text.size (spelled es) := Text.size_append _ _
    rcases List.mem_cons.mp he with rfl | he
    · have hspan := h.1.resolve_right fun hempty => htext hempty.1
      have hpos : Text.size e.text ≠ 0 := fun hzero => htext (Text.eq_nil_of_size_eq_zero hzero)
      simp only [hspan, Span.sized]
      omega
    · have hbounds := ih h.2 he
      omega

theorem Placed.text_ne_nil (h : Placed source offset es) (he : e ∈ es)
    (hn : e.span.containsOffset n = true) : e.text ≠ [] := by
  intro htext
  rw [Span.containsOffset_iff] at hn
  induction es generalizing offset with
  | nil => cases he
  | cons first es ih =>
    rcases List.mem_cons.mp he with rfl | he
    · rcases h.1 with hspan | ⟨-, place, -, hspan⟩
      · rw [hspan, htext] at hn
        simp only [Span.sized, Text.size_nil] at hn
        omega
      · rw [hspan] at hn
        simp only [Span.empty] at hn
        omega
    · exact ih h.2 he

/-- No two entries share a byte. -/
theorem Placed.unique (h : Placed source offset es) (he : e ∈ es) (he' : e' ∈ es)
    (hn : e.span.containsOffset n = true) (hn' : e'.span.containsOffset n = true) : e = e' := by
  have htext := h.text_ne_nil he hn
  have htext' := h.text_ne_nil he' hn'
  rw [Span.containsOffset_iff] at hn hn'
  induction es generalizing offset with
  | nil => cases he
  | cons first es ih =>
    have happart {x y : Entry} (hx : x = first) (hy : y ∈ es) (hxtext : x.text ≠ [])
        (hytext : y.text ≠ []) : x.span.stop ≤ y.span.start := by
      subst hx
      have hspan := h.1.resolve_right fun hempty => hxtext hempty.1
      have hbounds := (h.2.bounds hy hytext).1
      rw [hspan]
      exact hbounds
    rcases List.mem_cons.mp he with hfirst | he <;> rcases List.mem_cons.mp he' with hfirst' | he'
    · rw [hfirst, hfirst']
    · have := happart hfirst he' htext htext'
      omega
    · have := happart hfirst' he htext' htext
      omega
    · exact ih h.2 he he'

/-- The text of the last byte's entry is at the end. -/
theorem Placed.suffix (h : Placed source offset es) (he : e ∈ es)
    (hn : e.span.containsOffset n = true) (hlast : offset + Text.size (spelled es) ≤ n + 1) :
    e.text <:+ spelled es := by
  have htext := h.text_ne_nil he hn
  rw [Span.containsOffset_iff] at hn
  induction es generalizing offset with
  | nil => cases he
  | cons first es ih =>
    have hsize : Text.size (spelled (first :: es)) =
        Text.size first.text + Text.size (spelled es) := Text.size_append _ _
    have hspelled : spelled (first :: es) = first.text ++ spelled es := rfl
    rcases List.mem_cons.mp he with rfl | he
    · have hspan := h.1.resolve_right fun hempty => htext hempty.1
      simp only [hspan, Span.sized] at hn
      have hnil : spelled es = [] := Text.eq_nil_of_size_eq_zero (by omega)
      exact ⟨[], by simp [hspelled, hnil]⟩
    · rw [hspelled]
      exact (ih h.2 he (by omega)).trans (List.suffix_append _ _)

end Entry

/-! ## The texts of line breaks -/

namespace Scanner

variable {s u : Scanner} {token : Token}

/-- The text of what is called a line break is one. -/
def Broken (ts : List Trivia) : Prop :=
  ∀ t ∈ ts, t.kind = .newline → t.text.EndsLine

/-- A `newline` comes from a line break in the text. -/
theorem lineBreak_of_scanToken (h : s.scanToken = (.ok token, u)) (hkind : token.kind = .newline) :
    ∃ c t, s.rest = c :: t ∧ Text.isLineBreak c = true := by
  by_cases hnil : s.rest = []
  · rw [scanToken, hnil] at h
    dsimp only at h
    unfold finish at h
    split at h <;> cases h <;> cases hkind
  obtain ⟨c, t, hrest⟩ := List.exists_cons_of_ne_nil hnil
  by_cases hc : Text.isLineBreak c = true
  · exact ⟨c, t, hrest, hc⟩
  by_cases hhash : c = '#'
  · subst hhash
    rw [scanToken_hash hrest] at h
    cases h
    cases hkind
  by_cases hslash : c = '\\'
  · subst hslash
    obtain ⟨fault, hfault⟩ := scanToken_backslash hrest
    cases hfault.symm.trans h
  rw [scanToken_lexeme hrest hhash hslash hc] at h
  split at h
  · next hread =>
    rw [hrest] at hread
    obtain ⟨rfl, -⟩ := lexeme_eq_ok h
    obtain rfl := hkind
    exact absurd (Lexeme.mem_kinds_of_read hread).1 (by decide)
  · cases h

theorem endsLine_next (h : s.next = (.ok token, u)) (hkind : token.kind = .newline) :
    token.text.EndsLine := by
  have hcuts := cuts_next h
  rw [hkind] at hcuts
  exact hcuts.isBreak.endsLine

/-- What is called a line break has the text of one. -/
structure Breaks (token : Token) : Prop where
  text : token.kind = .newline → token.text.EndsLine
  leading : Broken token.leading

theorem Steps.breaks {options : Options} {t : Text} {tokens : List Token}
    (h : (ofText options t).Steps tokens u) : ∀ token ∈ tokens, Breaks token := by
  intro token hmem
  obtain ⟨⟨_, after, -, -, hself⟩, hleading⟩ := h.attempts.cutFrom.1 token (List.mem_map_of_mem hmem)
  constructor
  · intro hkind
    rw [hkind] at hself
    exact hself.isBreak.endsLine
  · intro t ht hkind
    obtain ⟨_, after, -, -, hcuts⟩ := hleading t ht
    rw [hkind] at hcuts
    exact hcuts.isBreak.endsLine

end Scanner

/-! ## The last byte -/

/-- The last of so many bytes is in a line break, be it a token or trivia. -/
def Token.EndInBreak (tokens : List Token) (size : Nat) : Prop :=
  ∃ token ∈ tokens,
    (token.kind = .newline ∧ token.span.containsOffset (size - 1) = true) ∨
      ∃ t ∈ token.leading, t.kind = .newline ∧ t.span.containsOffset (size - 1) = true

instance (tokens : List Token) (size : Nat) : Decidable (Token.EndInBreak tokens size) :=
  inferInstanceAs (Decidable (∃ token ∈ tokens, _ ∨ ∃ t ∈ token.leading, _))

namespace Accounts

variable {source : Text} {u : Scanner} {tokens : List Token} {entries : List Entry} {token : Token}
  {t : Trivia}

theorem mem_of_token (h : Accounts source (tokens.map .token) u entries) (hmem : token ∈ tokens) :
    .token token ∈ entries := by
  have htokens := h.tokens
  rw [List.filterMap_map] at htokens
  have hmem' : token ∈ entries.filterMap Entry.token? := by
    rw [htokens]
    exact List.mem_filterMap.mpr ⟨token, hmem, rfl⟩
  obtain ⟨e, he, hetoken⟩ := List.mem_filterMap.mp hmem'
  cases e <;> cases hetoken
  exact he

theorem mem_of_trivia (h : Accounts source (tokens.map .token) u entries) (hmem : token ∈ tokens)
    (ht : t ∈ token.leading) : .trivia t ∈ entries := by
  have htrivia := h.trivia
  rw [List.filterMap_map] at htrivia
  have hmem' : t ∈ entries.filterMap Entry.trivia? := by
    rw [htrivia]
    refine List.mem_append_left _ (List.mem_flatMap.mpr ⟨token, ?_, ht⟩)
    exact List.mem_filterMap.mpr ⟨token, hmem, rfl⟩
  obtain ⟨e, he, hetrivia⟩ := List.mem_filterMap.mp hmem'
  cases e <;> cases hetrivia
  exact he

end Accounts

/-- The entry is a line break. -/
def Entry.IsBreak : Entry → Prop
  | trivia t => t.kind = .newline ∧ t.text.EndsLine
  | token t => t.kind = .newline ∧ t.text.EndsLine
  | fault _ _ => False

theorem Entry.IsBreak.endsLine {e : Entry} (h : e.IsBreak) : e.text.EndsLine := by
  cases e with
  | trivia => exact h.2
  | token => exact h.2
  | fault => exact h.elim

theorem Token.EndInBreak.exists_entry {source : Text} {u : Scanner} {tokens : List Token}
    {entries : List Entry} {size : Nat} (h : EndInBreak tokens size)
    (haccounts : Accounts source (tokens.map .token) u entries)
    (hbreaks : ∀ token ∈ tokens, Scanner.Breaks token) :
    ∃ e ∈ entries, e.IsBreak ∧ e.span.containsOffset (size - 1) = true := by
  obtain ⟨token, hmem, ⟨hkind, hspan⟩ | ⟨t, ht, hkind, hspan⟩⟩ := h
  · exact ⟨.token token, haccounts.mem_of_token hmem,
      ⟨hkind, (hbreaks token hmem).text hkind⟩, hspan⟩
  · exact ⟨.trivia t, haccounts.mem_of_trivia hmem ht,
      ⟨hkind, (hbreaks token hmem).leading t ht hkind⟩, hspan⟩

/-- A text whose last byte is in a line break ends with that one, and all else stops before. -/
theorem Token.EndInBreak.breaksAt {options : Options} {source : Text} {tokens : List Token}
    {u : Scanner} (h : EndInBreak tokens source.size)
    (hsteps : (Scanner.ofText options source).Steps tokens u) (hrest : u.rest = []) :
    source.EndsLine ∧ ∀ token ∈ tokens, token.BreaksAt source.size := by
  obtain ⟨entries, haccounts⟩ := hsteps.accounts
  obtain ⟨e, he, hbreak, hspan⟩ := h.exists_entry haccounts hsteps.breaks
  have hsource : source = Entry.spelled entries := by
    rw [haccounts.source_eq, hrest, List.append_nil]
  have hplaced := haccounts.placed
  -- an entry that stops there has the last byte as well
  have hsame {e' : Entry} (he' : e' ∈ entries) (htext : e'.text ≠ [])
      (hstop : e'.span.stop = source.size) : e = e' := by
    have hbounds := hplaced.bounds he' htext
    refine hplaced.unique he he' hspan (Span.containsOffset_iff.mpr ?_)
    omega
  constructor
  · refine hbreak.endsLine.of_suffix ?_
    rw [hsource]
    refine hplaced.suffix he hspan ?_
    rw [← hsource]
    omega
  · intro token hmem
    constructor
    · intro htext hstop
      obtain rfl := hsame (haccounts.mem_of_token hmem) htext hstop
      exact hbreak.1
    · intro t ht htext hstop
      obtain rfl := hsame (haccounts.mem_of_trivia hmem ht) htext hstop
      exact hbreak.1

end Verbatim
