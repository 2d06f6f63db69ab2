import Verbatim.Proofs.Nesting
import Verbatim.Proofs.Scanner.Spread
import Verbatim.Proofs.Subtree.Edges

/-!
# Tokens side by side

Some tokens of a source, one after the other and not the last ones, spell a piece of it that
starts with the trivia in front of the first and stops behind the last one that has text. Where
they end with a block, their span goes on over trivia that is not theirs.
-/

namespace Verbatim

namespace Token

/-- Where the trivia in front of a token starts, or the token itself if there is none. -/
def outset (t : Token) : Nat :=
  (t.leading.head?.elim t.span Trivia.span).start

/-- The last of some tokens that has text. -/
def lastWithText? (tokens : List Token) : Option Token :=
  (tokens.filter fun t => !t.text.isEmpty).getLast?

theorem lastWithText?_eq_some {tokens : List Token} {last : Token}
    (h : lastWithText? tokens = some last) :
    last.text ≠ [] ∧ ∃ init rest, tokens = init ++ last :: rest ∧ ∀ t ∈ rest, t.text = [] := by
  obtain ⟨others, hothers⟩ := List.getLast?_eq_some_iff.mp h
  obtain ⟨before, after, rfl, -, hafter⟩ := List.filter_eq_append_iff.mp hothers
  obtain ⟨empty, rest, rfl, -, htext, hrest⟩ := List.filter_eq_cons_iff.mp hafter
  constructor
  · simpa using htext
  · refine ⟨before ++ empty, rest, by rw [List.append_assoc], ?_⟩
    simpa using hrest

theorem exists_lastWithText? {tokens : List Token} (h : ∃ t ∈ tokens, t.text ≠ []) :
    ∃ last, lastWithText? tokens = some last := by
  obtain ⟨t, ht, htext⟩ := h
  have hne : tokens.filter (fun t => !t.text.isEmpty) ≠ [] := by
    apply List.ne_nil_of_mem (a := t)
    simpa using ⟨ht, htext⟩
  exact ⟨_, List.getLast?_eq_some_getLast hne⟩

theorem lastWithText?_concat {tokens : List Token} {last : Token} (h : last.text ≠ []) :
    lastWithText? (tokens ++ [last]) = some last := by
  simp [lastWithText?, List.filter_append, h]

theorem outset_eq {token : Token} {base : Nat} (hplaced : Trivia.Placed base token.leading)
    (hspan : token.span =
      Span.sized (base + Text.size (Trivia.spelled token.leading)) (Text.size token.text)) :
    token.outset = base := by
  unfold outset
  cases hleading : token.leading with
  | nil =>
    rw [hleading] at hspan
    exact congrArg Span.start hspan
  | cons first rest =>
    rw [hleading] at hplaced
    exact congrArg Span.start hplaced.1

theorem Spread.fullText_of_mem {offset : Nat} {pending : List Trivia} {tokens : List Token}
    (h : Spread offset pending tokens) {token : Token} (hmem : token ∈ tokens)
    (hkind : token.kind = .indent ∨ token.kind = .dedent) : token.fullText = [] := by
  induction h with
  | nil => cases hmem
  | marker kind leading text span following ih =>
    rcases List.mem_cons.mp hmem with rfl | hmem
    · exact fullText_of_marker leading text
    · exact ih hmem
  | lexeme noMarker leading placed span following ih =>
    rcases List.mem_cons.mp hmem with rfl | hmem
    · exact absurd hkind (not_or.mpr noMarker)
    · exact ih hmem

/-- Behind the end of a block there are only the ends of other blocks, up to a token that is no
marker. -/
theorem ClosesTogether.exists_next {dedent : Token} {tokens : List Token}
    (h : ClosesTogether (dedent :: tokens)) (hdedent : dedent.kind = .dedent)
    (hnext : ∃ t ∈ tokens, t.kind ≠ .indent ∧ t.kind ≠ .dedent) :
    ∃ closing next rest, tokens = closing ++ next :: rest ∧ (∀ t ∈ closing, t.kind = .dedent) ∧
      next.kind ≠ .indent ∧ next.kind ≠ .dedent := by
  induction tokens generalizing dedent with
  | nil =>
    obtain ⟨t, ht, -⟩ := hnext
    cases ht
  | cons first tokens ih =>
    obtain ⟨hpair, htail⟩ := List.isChain_cons_cons.mp h
    have hindent := hpair hdedent
    by_cases hfirst : first.kind = .dedent
    · obtain ⟨t, ht, hkind⟩ := hnext
      have hlater : t ∈ tokens := by
        rcases List.mem_cons.mp ht with rfl | ht
        · exact absurd hfirst hkind.2
        · exact ht
      obtain ⟨closing, next, rest, rfl, hclosing, hkind⟩ := ih htail hfirst ⟨t, hlater, hkind⟩
      exact ⟨first :: closing, next, rest, rfl, List.forall_mem_cons.mpr ⟨hfirst, hclosing⟩, hkind⟩
    · exact ⟨[], first, tokens, rfl, List.forall_mem_nil _, hindent, hfirst⟩

/-! ## Tokens side by side -/

/-- Tokens side by side in a source, not the last ones of it, as a node has them. -/
structure Stretch (source : Text) (before tokens after : List Token) : Prop where
  spread : Spread 0 [] (before ++ (tokens ++ after))
  source_eq : Text.ofTokens (before ++ (tokens ++ after)) = source
  together : ClosesTogether (before ++ (tokens ++ after))
  edged : Edged tokens
  row : Row source tokens
  inside : ∀ t ∈ tokens, t.kind ≠ .endOfFile
  ends : ∃ t ∈ after, t.kind ≠ .indent ∧ t.kind ≠ .dedent

namespace Stretch

variable {source : Text} {before tokens after : List Token} {first last final : Token}

theorem text_eq_nil_iff (h : Stretch source before tokens after) {t : Token} (ht : t ∈ tokens) :
    t.text = [] ↔ t.kind = .indent ∨ t.kind = .dedent := by
  rw [h.row.zeroWidth t ht, TokenKind.isZeroWidth_iff, ← or_assoc]
  exact or_iff_left (h.inside t ht)

theorem slice? (h : Stretch source before tokens after) :
    source.slice? (Span.sized (Text.size (Text.ofTokens before))
      (Text.size (Text.ofTokens tokens))) = some (Text.ofTokens tokens) := by
  rw [← h.source_eq, Text.ofTokens_append, Text.ofTokens_append, ← List.append_assoc]
  exact Text.slice?_append ..

theorem first_eq (h : Stretch source before tokens after) (hfirst : tokens.head? = some first) :
    first.outset = Text.size (Text.ofTokens before) ∧ first.span.start =
      Text.size (Text.ofTokens before) + Text.size (Trivia.spelled first.leading) := by
  obtain ⟨more, rfl⟩ := List.head?_eq_some_iff.mp hfirst
  obtain ⟨waiting, hspread⟩ := h.spread.of_append
  rw [Nat.zero_add] at hspread
  obtain ⟨hplaced, hspan⟩ := hspread.of_lexeme (h.edged.first first rfl)
  exact ⟨outset_eq hplaced hspan, congrArg Span.start hspan⟩

/-- Behind the last token with text there is nothing to write. -/
theorem stop_eq (h : Stretch source before tokens after) (hlast : lastWithText? tokens = some last) :
    last.span.stop = Text.size (Text.ofTokens before) + Text.size (Text.ofTokens tokens) := by
  obtain ⟨htext, init, rest, rfl, hrest⟩ := lastWithText?_eq_some hlast
  have hkind : last.kind ≠ .indent ∧ last.kind ≠ .dedent := by
    rw [← not_or, ← h.text_eq_nil_iff (by simp)]
    exact htext
  have hnone : Text.ofTokens rest = [] := by
    rw [Text.ofTokens, List.flatMap_eq_nil_iff]
    intro t ht
    apply h.spread.fullText_of_mem (by simp [ht])
    exact (h.text_eq_nil_iff (by simp [ht])).mp (hrest t ht)
  have hspread := h.spread
  rw [List.append_assoc, ← List.append_assoc before] at hspread
  obtain ⟨waiting, hspread⟩ := hspread.of_append
  obtain ⟨-, hspan⟩ := hspread.of_lexeme hkind
  have hstop := congrArg Span.stop hspan
  simp only [Span.sized] at hstop
  have hwhole : Text.ofTokens (init ++ last :: rest) =
      Text.ofTokens init ++ (Trivia.spelled last.leading ++ last.text) := by
    simp only [Text.ofTokens, List.flatMap_append, List.flatMap_cons] at hnone ⊢
    rw [hnone, List.append_nil]
    rfl
  rw [hstop, hwhole, Text.ofTokens_append]
  simp only [Text.size_append]
  omega

theorem lastWithText?_eq_final (h : Stretch source before tokens after)
    (hfinal : tokens.getLast? = some final) (hkind : final.kind ≠ .dedent) :
    lastWithText? tokens = some final := by
  have hindent := h.edged.last final hfinal
  have htext : final.text ≠ [] := by
    rw [ne_eq, h.text_eq_nil_iff (List.mem_of_getLast? hfinal), not_or]
    exact ⟨hindent, hkind⟩
  obtain ⟨init, rfl⟩ := List.getLast?_eq_some_iff.mp hfinal
  exact lastWithText?_concat htext

/-- The end of a block is behind the trivia that the next token takes. The ends of other blocks
can stand between the two. -/
theorem exists_owner (h : Stretch source before tokens after)
    (hfinal : tokens.getLast? = some final) (hkind : final.kind = .dedent) :
    ∃ closing next rest front back, after = closing ++ next :: rest ∧
      (∀ t ∈ closing, t.kind = .dedent) ∧ (next.kind ≠ .indent ∧ next.kind ≠ .dedent) ∧
      next.leading = front ++ back ∧
      final.span.stop = Text.size (Text.ofTokens before) + Text.size (Text.ofTokens tokens) +
        Text.size (Trivia.spelled front) ∧
      ∃ later, Text.ofTokens after = Trivia.spelled front ++ later := by
  obtain ⟨init, rfl⟩ := List.getLast?_eq_some_iff.mp hfinal
  have htogether := h.together
  have hspread := h.spread
  rw [List.append_assoc, ← List.append_assoc before, List.singleton_append] at htogether hspread
  have hnone : final.fullText = [] := by
    apply h.spread.fullText_of_mem (by simp)
    exact .inr hkind
  obtain ⟨closing, next, rest, rfl, hclosing, hnext⟩ :=
    htogether.of_append.exists_next hkind h.ends
  obtain ⟨waiting, hspread⟩ := hspread.of_append
  cases hspread with
  | lexeme noMarker => exact absurd hkind noMarker.2
  | @marker _ _ more _ _ kind leading text span following =>
    obtain ⟨back, hleading⟩ := following.owner (fun t ht => .inr (hclosing t ht)) hnext
    refine ⟨closing, next, rest, waiting ++ more, back, rfl, hclosing, hnext, hleading, ?_, ?_⟩
    · have hwhole : Text.ofTokens (init ++ [final]) = Text.ofTokens init := by
        simp [Text.ofTokens, hnone]
      rw [span, Text.ofTokens_append, hwhole, Text.size_append, Nat.zero_add]
      rfl
    · have hclosed : Text.ofTokens closing = [] := by
        rw [Text.ofTokens, List.flatMap_eq_nil_iff]
        intro t ht
        exact following.fullText_of_mem (by simp [ht]) (.inr (hclosing t ht))
      refine ⟨Trivia.spelled back ++ next.text ++ Text.ofTokens rest, ?_⟩
      simp only [Text.ofTokens, List.flatMap_append, List.flatMap_cons] at hclosed ⊢
      rw [hclosed, fullText, hleading, ← Trivia.spelled, Trivia.spelled_append]
      simp

/-- The text behind the leading trivia of some tokens, and a little further on. -/
theorem slice?_inside (h : Stretch source before tokens after)
    (hfirst : tokens.head? = some first) {later rest : Text}
    (hafter : Text.ofTokens after = later ++ rest) {a : Span}
    (hstart : a.start = first.span.start)
    (hstop : a.stop = Text.size (Text.ofTokens before) + Text.size (Text.ofTokens tokens) +
      Text.size later) :
    ∃ text, Text.ofTokens tokens = Trivia.spelled first.leading ++ text ∧
      source.slice? a = some (text ++ later) := by
  obtain ⟨-, hbegin⟩ := h.first_eq hfirst
  obtain ⟨more, rfl⟩ := List.head?_eq_some_iff.mp hfirst
  have htokens : Text.ofTokens (first :: more) =
      Trivia.spelled first.leading ++ (first.text ++ Text.ofTokens more) := by
    simp [Text.ofTokens, fullText, Trivia.spelled]
  refine ⟨first.text ++ Text.ofTokens more, htokens, ?_⟩
  generalize first.text ++ Text.ofTokens more = text at htokens ⊢
  have hspan : a = Span.sized (Text.size (Text.ofTokens before ++ Trivia.spelled first.leading))
      (Text.size (text ++ later)) := by
    obtain ⟨start, stop, hle⟩ := a
    simp only [Span.sized, Span.mk.injEq, Text.size_append] at hstart hstop ⊢
    rw [htokens, Text.size_append] at hstop
    omega
  rw [hspan, ← h.source_eq, Text.ofTokens_append, Text.ofTokens_append, htokens, hafter]
  have hslice := Text.slice?_append (Text.ofTokens before ++ Trivia.spelled first.leading)
    (text ++ later) rest
  simpa only [List.append_assoc] using hslice

end Stretch

end Token

end Verbatim
