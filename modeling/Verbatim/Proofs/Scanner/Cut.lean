import Verbatim.Proofs.Concat.Scanner
import Verbatim.Proofs.Layout.Turn

/-!
# How a source is cut into pieces

What is in a token or in a piece of trivia is decided by its kind, the text that it takes and the
text that it leaves behind it, and by nothing in front of it. This is first said for each of the
places where the scanner takes text, and then for all that it has taken, in runs that go on after
faults as well.
-/

namespace Verbatim

open Text (firstLine isLineBreak lineBreakLength)

/-! ## Rules -/

namespace Text

/-- A piece is one line break, and does not leave the half of one behind it. -/
def IsBreak (w after : Text) : Prop :=
  w = ['\n'] ∨ w = ['\r', '\n'] ∨ w = ['\r'] ∧ after.head? ≠ some '\n'

/-- A piece goes on to the end of its line. -/
def FillsLine (w after : Text) : Prop :=
  (∀ c ∈ w, isLineBreak c = false) ∧ ∀ c ∈ after.head?, isLineBreak c = true

/-- A piece stands at an offset, and the text behind it has a property. -/
def StandsAt (source : Text) (offset : Nat) (w : Text) (behind : Text → Prop) : Prop :=
  ∃ before after, source = before ++ w ++ after ∧ offset = size before ∧ behind after

variable {t w after source passed rest : Text} {offset : Nat} {behind behind' : Text → Prop}

theorem IsBreak.endsLine (h : IsBreak w after) : w.EndsLine := by
  rcases h with rfl | rfl | ⟨rfl, -⟩
  · exact ⟨[], '\n', rfl, rfl⟩
  · exact ⟨['\r'], '\n', rfl, rfl⟩
  · exact ⟨[], '\r', rfl, rfl⟩

theorem isBreak_take (h : lineBreakLength t ≠ 0) :
    IsBreak (t.take (lineBreakLength t)) (t.drop (lineBreakLength t)) := by
  have hbreaks := breaks_lineBreakLength t
  generalize lineBreakLength t = n at h hbreaks
  cases hbreaks with
  | pair => exact .inr (.inl rfl)
  | carriageReturn hu => exact .inr (.inr ⟨rfl, hu⟩)
  | lineFeed => exact .inl rfl
  | none => exact absurd rfl h

theorem fillsLine_take (t : Text) :
    FillsLine (t.take (firstLine t).length) (t.drop (firstLine t).length) := by
  constructor
  · intro c hc
    rw [firstLine, take_length_takeWhile] at hc
    simpa using List.mem_takeWhile_imp hc
  · intro c hc
    rw [firstLine, Scanner.drop_length_takeWhile] at hc
    have hhead := List.head?_dropWhile_not (fun c => !isLineBreak c) t
    rw [Option.mem_def.mp hc] at hhead
    simpa using hhead

theorem isPrefix_take_firstLine (h : w <+: t) (hw : ∀ c ∈ w, isLineBreak c = false) :
    w <+: t.take (firstLine t).length := by
  obtain ⟨u, rfl⟩ := h
  rw [take_firstLine le_rfl, List.take_length, firstLine_append_of_unbroken hw]
  exact List.prefix_append w _

theorem StandsAt.mono (h : source.StandsAt offset w behind) (hb : ∀ t, behind t → behind' t) :
    source.StandsAt offset w behind' := by
  obtain ⟨before, after, hsource, hoffset, hbehind⟩ := h
  exact ⟨before, after, hsource, hoffset, hb after hbehind⟩

end Text

/-- What trivia of each kind is. -/
inductive TriviaKind.Cuts : TriviaKind → Text → Text → Prop
  | whitespace {w after : Text} (ne_nil : w ≠ []) (blank : ∀ c ∈ w, Scanner.isBlank c = true)
    (stops : ∀ c ∈ after.head?, Scanner.isBlank c = false) : Cuts .whitespace w after
  | comment {w after : Text} (hash : w.head? = some '#') (fills : w.FillsLine after) :
    Cuts .comment w after
  | newline {w after : Text} (isBreak : w.IsBreak after) : Cuts .newline w after
  | lineContinuation {w after : Text} (isBreak : w.IsBreak after) :
    Cuts .lineContinuation ('\\' :: w) after

/-- What a token of each kind is. Lexemes are what their reader takes. -/
inductive TokenKind.Cuts : TokenKind → Text → Text → Prop
  | marker {kind : TokenKind} {after : Text} (isMarker : kind = .indent ∨ kind = .dedent) :
    Cuts kind [] after
  | endOfFile : Cuts .endOfFile [] []
  | newline {w after : Text} (isBreak : w.IsBreak after) : Cuts .newline w after
  | typeComment {w after : Text} (mark : typeCommentMark.toList <+: w)
    (fills : w.FillsLine after) : Cuts .typeComment w after
  | lexeme {kind : TokenKind} {t : Text} {n : Nat} (ne_nil : t ≠ [])
    (read : Lexeme.read t = .ok (kind, n)) : Cuts kind (t.take n) (t.drop n)

theorem TriviaKind.Cuts.isBreak {w after : Text} (h : TriviaKind.newline.Cuts w after) :
    w.IsBreak after := by
  cases h with
  | newline isBreak => exact isBreak

theorem TokenKind.Cuts.isBreak {w after : Text} (h : TokenKind.newline.Cuts w after) :
    w.IsBreak after := by
  cases h with
  | marker isMarker => rcases isMarker with hmarker | hmarker <;> cases hmarker
  | newline isBreak => exact isBreak
  | @lexeme _ t n ne_nil read =>
    obtain ⟨c, u, rfl⟩ := List.exists_cons_of_ne_nil ne_nil
    exact absurd (Lexeme.mem_kinds_of_read read).1 (by decide)

theorem TokenKind.Cuts.exists_read {kind : TokenKind} {w after : Text} (h : kind.Cuts w after)
    (hkind : kind ∈ Lexeme.kinds) :
    ∃ t n, t ≠ [] ∧ Lexeme.read t = .ok (kind, n) ∧ w = t.take n ∧ after = t.drop n := by
  cases h with
  | marker isMarker => rcases isMarker with rfl | rfl <;> exact absurd hkind (by decide)
  | endOfFile => exact absurd hkind (by decide)
  | newline => exact absurd hkind (by decide)
  | typeComment => exact absurd hkind (by decide)
  | lexeme ne_nil read => exact ⟨_, _, ne_nil, read, rfl, rfl⟩

/-- The piece of trivia was cut from the source where it stands. -/
def Trivia.CutFrom (source : Text) (t : Trivia) : Prop :=
  source.StandsAt t.span.start t.text (t.kind.Cuts t.text)

def Token.CutFrom (source : Text) (token : Token) : Prop :=
  source.StandsAt token.span.start token.text (token.kind.Cuts token.text)

namespace Scanner

variable {source : Text} {s u : Scanner} {kind : TriviaKind} {token : Token} {n : Nat}

/-! ## Places where text is taken -/

theorem cuts_blanks {t : Text} (h : (blanks t).length ≠ 0) :
    TriviaKind.whitespace.Cuts (t.take (blanks t).length) (t.drop (blanks t).length) := by
  rw [blanks, Text.take_length_takeWhile, drop_length_takeWhile]
  refine .whitespace (mt List.length_eq_zero_iff.mpr h) ?_ isBlank_head_dropWhile
  intro c hc
  exact List.mem_takeWhile_imp hc

theorem cuts_firstLine {t : Text} (h : t.head? = some '#') :
    TriviaKind.comment.Cuts (t.take (firstLine t).length) (t.drop (firstLine t).length) := by
  refine .comment ?_ (Text.fillsLine_take t)
  obtain ⟨u, rfl⟩ := List.head?_eq_some_iff.mp h
  rfl

theorem cuts_commentLength {t : Text} (h : commentLength t ≠ 0) :
    TriviaKind.comment.Cuts (t.take (commentLength t)) (t.drop (commentLength t)) := by
  unfold commentLength at h ⊢
  split
  · next hhash => exact cuts_firstLine hhash
  · next hhash => exact absurd (if_neg hhash) h

theorem cuts_triviaAhead? (h : s.triviaAhead? = some (kind, n)) :
    kind.Cuts (s.rest.take n) (s.rest.drop n) := by
  unfold triviaAhead? at h
  split at h
  · cases h
  · next c t hrest =>
    split at h
    · next hblank =>
      cases h
      refine cuts_blanks ?_
      rw [hrest, blanks, List.takeWhile_cons_of_pos hblank]
      simp
    · split at h
      · next hhash =>
        split at h
        · cases h
        · cases h
          exact cuts_firstLine (by rw [hrest, hhash, List.head?_cons])
      · split at h
        · next hslash =>
          split at h
          · cases h
          · next k hlength =>
            cases h
            have hlength : lineBreakLength t = k + 1 := hlength
            rw [hrest, hslash, List.take_succ_cons, List.drop_succ_cons, ← hlength]
            exact .lineContinuation (Text.isBreak_take (by omega))
        · split at h
          · next hbreak =>
            cases h
            rw [Bool.and_eq_true] at hbreak
            refine .newline (Text.isBreak_take ?_)
            rw [hrest]
            exact (lineBreakLength_pos hbreak.1).ne'
          · cases h

theorem cuts_scanToken (hstops : s.triviaAhead? = none) (h : s.scanToken = (.ok token, u)) :
    token.kind.Cuts token.text u.rest := by
  by_cases hnil : s.rest = []
  · rw [scanToken, hnil] at h
    dsimp only at h
    unfold finish at h
    split at h
    · cases h
      have hrest : (s.advance 0).rest = [] := hnil
      rw [List.take_zero, hrest]
      exact .endOfFile
    · cases h
      exact .marker (.inr rfl)
  obtain ⟨c, t, hrest⟩ := List.exists_cons_of_ne_nil hnil
  by_cases hc : isLineBreak c = true
  · rw [scanToken_lineBreak hrest hc] at h
    cases h
    refine .newline (Text.isBreak_take ?_)
    rw [hrest]
    exact (lineBreakLength_pos hc).ne'
  by_cases hhash : c = '#'
  · subst hhash
    -- any other comment is trivia
    have hmark : typeCommentMark.toList <+: s.rest := by
      have hat : s.isAtTypeComment = true := by simpa [triviaAhead?, hrest, isBlank] using hstops
      rw [isAtTypeComment, Bool.and_eq_true] at hat
      exact List.isPrefixOf_iff_prefix.mp hat.2
    have hbreaks : typeCommentMark.toList.all (!isLineBreak ·) = true := by decide
    rw [scanToken_hash hrest] at h
    cases h
    exact .typeComment (Text.isPrefix_take_firstLine hmark (by simpa using hbreaks))
      (Text.fillsLine_take _)
  by_cases hslash : c = '\\'
  · subst hslash
    obtain ⟨fault, hfault⟩ := scanToken_backslash hrest
    cases hfault.symm.trans h
  rw [scanToken_lexeme hrest hhash hslash hc] at h
  split at h
  · next kind n hread =>
    obtain ⟨rfl, hrest'⟩ := lexeme_eq_ok h
    rw [hrest']
    exact .lexeme hnil hread
  · cases h

theorem cuts_next (h : s.next = (.ok token, u)) : token.kind.Cuts token.text u.rest := by
  have hok := enterLineIfDue_of_next h
  have hstart := s.atLineStart_enterLineIfDue
  rcases hdue : s.enterLineIfDue with ⟨result, v⟩
  rw [hdue] at hok hstart
  obtain rfl : result = .ok () := hok
  rw [next_of_enterLineIfDue_eq hdue, next_eq_of_atLineStart hstart] at h
  split at h
  · cases h
    exact .marker (.inl rfl)
  · cases h
    exact .marker (.inr rfl)
  · exact cuts_scanToken v.settles_passTrivia.stops h

/-! ## Runs -/

/-- The scanner stands in its source, and so does what it holds. -/
structure Reads (source : Text) (s : Scanner) : Prop where
  place : ∃ passed, source = passed ++ s.rest ∧ s.offset = Text.size passed
  waiting : ∀ t ∈ s.waiting, t.CutFrom source
  marker : source.IsBoundary s.markerOffset

namespace Reads

variable {t : Text} {result : Except LexicalError Token}

theorem ofText (options : Options) (source : Text) : Reads source (Scanner.ofText options source) :=
  ⟨⟨[], rfl, rfl⟩, List.forall_mem_nil _, ⟨[], source, rfl, rfl⟩⟩

theorem place_of_passes (h : Reads source s) (hs : s.Passes t u) :
    ∃ passed, source = passed ++ u.rest ∧ u.offset = Text.size passed := by
  obtain ⟨passed, hsource, hoffset⟩ := h.place
  refine ⟨passed ++ t, ?_, ?_⟩
  · rw [hsource, hs.rest, List.append_assoc]
  · rw [hs.offset, hoffset, Text.size_append]

theorem isBoundary_offset (h : Reads source s) : source.IsBoundary s.offset := by
  obtain ⟨passed, hsource, hoffset⟩ := h.place
  exact ⟨passed, s.rest, hsource, hoffset⟩

/-- What the scanner takes next stands in the source. -/
theorem standsAt (h : Reads source s) (hs : s.Passes t u) {behind : Text → Prop}
    (hbehind : behind u.rest) : source.StandsAt s.offset t behind := by
  obtain ⟨passed, hsource, hoffset⟩ := h.place
  refine ⟨passed, u.rest, ?_, hoffset, hbehind⟩
  rw [hsource, hs.rest, List.append_assoc]

theorem of_samePlace (h : Reads source s) (hplace : s.SamePlace u) : Reads source u := by
  constructor
  · rw [hplace.rest, hplace.offset]
    exact h.place
  · rw [hplace.waiting]
    exact h.waiting
  · rcases hplace.markerOffset with hmarker | hmarker
    · rw [hmarker]
      exact h.marker
    · rw [hmarker]
      exact h.isBoundary_offset

theorem keep (h : Reads source s)
    (hcuts : n ≠ 0 → kind.Cuts (s.rest.take n) (s.rest.drop n)) : Reads source (s.keep kind n) := by
  unfold Scanner.keep
  split
  · exact h
  · next hn =>
    have hpasses := s.passes_advance n
    constructor
    · exact h.place_of_passes ⟨hpasses.rest, hpasses.offset⟩
    · refine List.forall_mem_append.mpr ⟨h.waiting, List.forall_mem_singleton.mpr ?_⟩
      exact h.standsAt hpasses (hcuts hn)
    · exact h.marker

theorem passLine (h : Reads source s) : Reads source s.passLine :=
  (h.keep cuts_blanks).keep cuts_commentLength

theorem enterLine (h : Reads source s) (n : Nat) : Reads source (enterLine n s).2 := by
  induction n generalizing s with
  | zero => exact h
  | succ n ih =>
    rw [enterLine_succ]
    split
    · split
      · exact h.passLine.of_samePlace (samePlace_closeBlocks _)
      · exact h.passLine.of_samePlace (samePlace_measure _ _)
    · next k hlength =>
      have hline : Reads source (s.passLine.keep .newline (lineBreakLength s.passLine.rest)) :=
        h.passLine.keep fun hpos => .newline (Text.isBreak_take hpos)
      rw [hlength] at hline
      exact ih hline

theorem passTriviaUpTo (h : Reads source s) (n : Nat) : Reads source (passTriviaUpTo n s) := by
  induction n generalizing s with
  | zero => exact h
  | succ n ih =>
    unfold Scanner.passTriviaUpTo
    split
    · next hahead => exact ih (h.keep fun _ => cuts_triviaAhead? hahead)
    · exact h

theorem settled (h : Reads source s) : Reads source s.settled := by
  have hdue : Reads source s.enterLineIfDue.2 := by
    unfold enterLineIfDue
    split
    · exact enterLine (s := { s with atLineStart := false }) ⟨h.place, h.waiting, h.marker⟩ _
    · exact h
  unfold Scanner.settled
  split
  · next hu =>
    rw [hu] at hdue
    exact hdue
  · next hu =>
    rw [hu] at hdue
    split
    · exact hdue.passTriviaUpTo _
    · exact hdue

/-- A step keeps what the scanner reads, whether it goes well or not, and gives a token that was
cut from the source together with the trivia in front of it. -/
theorem next (h : Reads source s) (hnext : s.next = (result, u)) :
    (∀ token, result = .ok token →
      token.CutFrom source ∧ ∀ t ∈ token.leading, t.CutFrom source) ∧ Reads source u := by
  have hsettled := h.settled
  have houtcome := s.outcome_next
  rw [hnext] at houtcome
  cases houtcome with
  | marker kind isMarker place =>
    have hu := hsettled.of_samePlace place
    constructor
    · rintro token ⟨⟩
      obtain ⟨before, after, hsource, hoffset⟩ := hu.marker
      have hsplit : source = before ++ [] ++ after := by rw [hsource, List.append_nil]
      exact ⟨⟨before, after, hsplit, hoffset, .marker isMarker⟩, List.forall_mem_nil _⟩
    · exact hu
  | lexeme kind t noMarker passes waiting scheduled markerOffset =>
    constructor
    · rintro token ⟨⟩
      exact ⟨hsettled.standsAt passes (cuts_next hnext), hsettled.waiting⟩
    · constructor
      · exact hsettled.place_of_passes passes
      · rw [waiting]
        exact List.forall_mem_nil _
      · rw [markerOffset]
        exact hsettled.marker
  | fault error t passes waiting markerOffset =>
    constructor
    · rintro token ⟨⟩
    · constructor
      · exact hsettled.place_of_passes passes
      · rw [waiting]
        exact hsettled.waiting
      · rw [markerOffset]
        exact hsettled.marker

end Reads

/-- Whatever a run has scanned was cut from the source. -/
theorem Attempts.cutFrom {options : Options} {scans : List Scan}
    (h : (Scanner.ofText options source).Attempts scans u) :
    (∀ token, .token token ∈ scans →
      token.CutFrom source ∧ ∀ t ∈ token.leading, t.CutFrom source) ∧ Reads source u := by
  induction h with
  | refl => exact ⟨by simp, .ofText options source⟩
  | @snoc v w scans result before hnext ih =>
    obtain ⟨hscans, hreads⟩ := ih
    obtain ⟨hlast, hreads'⟩ := hreads.next hnext
    constructor
    · intro token hmem
      rcases List.mem_append.mp hmem with hmem | hmem
      · exact hscans token hmem
      cases result with
      | error error => simp [Scan.ofStep] at hmem
      | ok last =>
        obtain rfl : token = last := by simpa [Scan.ofStep] using hmem
        exact hlast token rfl
    · exact hreads'

end Scanner

end Verbatim
