import Verbatim.Proofs.Scanner.Order

/-!
# How a run ends

A run goes on until `endOfFile` or the first lexical error and never stops before: each token
takes some text or an open block, and there are steps enough for all of both. The offset of
a lexical error is one at which the source can be cut.
-/

namespace Verbatim

namespace Scanner

/-- The tokens of all steps up to `endOfFile` or to the first lexical error. -/
inductive Scans : Scanner → List Token → Option LexicalError → Prop
  | fault {s u : Scanner} {error : LexicalError} (h : s.next = (.error error, u)) :
      Scans s [] (some error)
  | done {s u : Scanner} {last : Token} (h : s.next = (.ok last, u))
      (hlast : last.kind = .endOfFile) : Scans s [last] none
  | step {s u : Scanner} {token : Token} {tokens : List Token} {failure : Option LexicalError}
      (h : s.next = (.ok token, u)) (hkind : token.kind ≠ .endOfFile)
      (hrest : Scans u tokens failure) : Scans s (token :: tokens) failure

theorem Scans.ends {s : Scanner} {tokens : List Token} {failure : Option LexicalError}
    (h : s.Scans tokens failure) :
    failure = none → ∃ init last, tokens = init ++ [last] ∧ last.kind = .endOfFile := by
  induction h with
  | fault => simp
  | @done _ _ last _ hlast => exact fun _ => ⟨[], last, rfl, hlast⟩
  | @step _ _ token _ _ _ _ _ ih =>
    intro hnone
    obtain ⟨init, last, rfl, hlast⟩ := ih hnone
    exact ⟨token :: init, last, rfl, hlast⟩

/-! ## Steps suffice -/

/-- What is left to take: characters, which may open blocks, open blocks and due markers. -/
def load (s : Scanner) : Nat :=
  2 * s.rest.length + s.columns.length +
    match s.scheduled with
    | .indent => 1
    | .dedents n => n

theorem load_keep_le (s : Scanner) (kind : TriviaKind) (n : Nat) :
    (s.keep kind n).load ≤ s.load := by
  unfold keep
  split
  · exact Nat.le_refl _
  · simp only [load, advance, List.length_drop]
    omega

@[simp]
theorem columns_keep (s : Scanner) (kind : TriviaKind) (n : Nat) :
    (s.keep kind n).columns = s.columns := by
  unfold keep; split <;> rfl

theorem length_rest_keep (s : Scanner) (kind : TriviaKind) (n : Nat) :
    (s.keep kind n).rest.length = s.rest.length - n := by
  unfold keep
  split
  · omega
  · simp [advance]

theorem load_closeBlocks_le (s : Scanner) : s.closeBlocks.load ≤ s.load := by
  unfold closeBlocks
  split
  · exact Nat.le_refl _
  · simp only [load, List.length_nil]
    omega

/-- A block is opened only by a line that has blanks in front, and these pay for it. -/
theorem load_measure_le (s : Scanner) (column : Nat) :
    (s.measure column).2.load ≤ s.load + if column = 0 then 0 else 2 := by
  have hle := (List.dropWhile_sublist (column < ·) (l := s.columns)).length_le
  unfold measure
  dsimp only
  split
  · next h =>
    have hpos : column ≠ 0 := by omega
    simp only [load, List.length_cons, if_neg hpos]
    omega
  · split
    · simp only [load]
      omega
    · simp only [load]
      omega

theorem load_enterLine_le (n : Nat) (s : Scanner) : (enterLine n s).2.load ≤ s.load := by
  induction n generalizing s with
  | zero => exact Nat.le_refl _
  | succ n ih =>
    unfold enterLine
    dsimp only
    have hblank : (s.keep .whitespace (blanks s.rest).length).load +
        2 * (blanks s.rest).length ≤ s.load := by
      have hlength : (blanks s.rest).length ≤ s.rest.length :=
        (List.takeWhile_sublist _).length_le
      have hrest := s.length_rest_keep .whitespace (blanks s.rest).length
      simp only [load, columns_keep, scheduled_keep, hrest]
      omega
    generalize s.keep .whitespace (blanks s.rest).length = u at hblank ⊢
    have hcomment := u.load_keep_le .comment (commentLength u.rest)
    generalize u.keep .comment (commentLength u.rest) = v at hcomment ⊢
    split
    · split
      · have hclose := v.load_closeBlocks_le
        dsimp only
        omega
      · have hmeasure := v.load_measure_le (columnAfter v.tabSize (blanks s.rest))
        split at hmeasure
        · omega
        · next hcolumn =>
          have hpos : 0 < (blanks s.rest).length := by
            rw [List.length_pos_iff]
            intro hnil
            rw [hnil] at hcolumn
            exact hcolumn rfl
          omega
    · next k _ =>
      have hbreak := v.load_keep_le .newline (k + 1)
      have hrest := ih (v.keep .newline (k + 1))
      omega

theorem load_enterLineIfDue_le (s : Scanner) : s.enterLineIfDue.2.load ≤ s.load := by
  unfold enterLineIfDue
  split
  · exact load_enterLine_le _ _
  · exact Nat.le_refl _

theorem load_passTriviaUpTo_le (n : Nat) (s : Scanner) : (passTriviaUpTo n s).load ≤ s.load := by
  induction n generalizing s with
  | zero => exact Nat.le_refl _
  | succ n ih =>
    unfold passTriviaUpTo
    split
    · exact Nat.le_trans (ih _) (s.load_keep_le _ _)
    · exact Nat.le_refl _

theorem load_emit_lt (s : Scanner) (kind : TokenKind) {n : Nat} (h : s.rest.take n ≠ []) :
    (s.emit kind n).2.load < s.load := by
  have hpos := List.length_pos_iff.mpr h
  rw [List.length_take] at hpos
  simp only [emit, load, advance, List.length_drop]
  omega

theorem load_lexeme_lt {s u : Scanner} {kind : TokenKind} {n : Nat} {token : Token}
    (h : s.lexeme kind n = (.ok token, u)) (htake : s.rest.take n ≠ []) : u.load < s.load := by
  have hemit {v : Scanner} (h : v.emit kind n = (.ok token, u)) (hrest : v.rest = s.rest)
      (hload : v.load = s.load) : u.load < s.load := by
    have hlt := v.load_emit_lt kind (hrest ▸ htake)
    rwa [h, hload] at hlt
  unfold lexeme at h
  split at h
  · split at h
    · exact hemit h rfl rfl
    · cases h
  · split at h
    · cases h
    · split at h
      · exact hemit h rfl rfl
      · cases h
  · exact hemit h rfl rfl

theorem load_finish_lt {s u : Scanner} {token : Token} (h : s.finish = (.ok token, u))
    (hkind : token.kind ≠ .endOfFile) : u.load < s.load := by
  unfold finish at h
  split at h
  · cases h
    exact absurd rfl hkind
  · next column outer hcolumns =>
    have hclosed : s.closeBlocks.rest = s.rest ∧ s.closeBlocks.columns = [] := by
      rw [closeBlocks, if_neg (by simp [hcolumns])]
      exact ⟨rfl, rfl⟩
    cases h
    simp only [load, hclosed, hcolumns, List.length_cons, List.length_nil]
    omega

theorem load_scanToken_lt {s u : Scanner} {token : Token} (h : s.scanToken = (.ok token, u))
    (hkind : token.kind ≠ .endOfFile) : u.load < s.load := by
  unfold scanToken at h
  split at h
  · exact load_finish_lt h hkind
  · next c t hrest =>
    split at h
    · next hc =>
      have hlt := s.load_emit_lt .typeComment (n := (Text.firstLine s.rest).length)
        (by rw [hrest, hc]; simp [Text.firstLine, Text.isLineBreak])
      rwa [h] at hlt
    · split at h
      · cases h
      · split at h
        · next hbreak =>
          have hpos := lineBreakLength_pos (t := t) hbreak
          have htake : s.rest.take (Text.lineBreakLength s.rest) ≠ [] := by
            rw [hrest, ne_eq, List.take_eq_nil_iff]
            simp
            omega
          have hlt := load_emit_lt { s with atLineStart := true } .newline htake
          rwa [h] at hlt
        · split at h
          · next kind n hread =>
            rw [hrest] at hread
            have hn := (Lexeme.read_eq_ok hread).2
            refine load_lexeme_lt h ?_
            rw [hrest, ne_eq, List.take_eq_nil_iff]
            simp
            omega
          · cases h

/-- Each token but the last one lightens the load. -/
theorem load_next_lt {s u : Scanner} {token : Token} (h : s.next = (.ok token, u))
    (hkind : token.kind ≠ .endOfFile) : u.load < s.load := by
  have hdue := s.load_enterLineIfDue_le
  unfold next at h
  split at h
  · cases h
  · next v hv =>
    rw [hv] at hdue
    dsimp only at hdue h
    split at h
    · next hscheduled =>
      cases h
      have hload : ({ v with scheduled := .dedents 0 } : Scanner).load < v.load := by
        simp only [load, hscheduled]
        omega
      omega
    · next n hscheduled =>
      cases h
      have hload : ({ v with scheduled := .dedents n } : Scanner).load < v.load := by
        simp only [load, hscheduled]
        omega
      omega
    · have htrivia := load_passTriviaUpTo_le v.rest.length v
      have hscan := load_scanToken_lt h hkind
      rw [passTrivia] at hscan
      omega

theorem scans_run (n : Nat) (s : Scanner) (h : s.load < n) :
    s.Scans (s.run n).tokens (s.run n).failure := by
  induction n generalizing s with
  | zero => omega
  | succ n ih =>
    rcases hnext : s.next with ⟨result, u⟩
    cases result with
    | error error =>
      rw [run_succ_of_error n hnext]
      exact .fault hnext
    | ok token =>
      rw [run_succ_of_ok n hnext]
      split
      · next hkind => exact .done hnext hkind
      · next hkind =>
        have hlt := load_next_lt hnext hkind
        exact .step hnext hkind (ih u (by omega))

end Scanner

/-! ## Where a run fails -/

namespace Scanner

/-- The error is at a place in the text that is ahead. -/
def Blames (s : Scanner) {α : Type} (step : Step α) : Prop :=
  ∀ error, step.1 = .error error → ∃ n, error.offset = s.offset + Text.size (s.rest.take n)

theorem blames_measure (s : Scanner) (column : Nat) :
    (s.measure column).2.Blames (s.measure column) := by
  intro error herror
  have hplace := s.samePlace_measure column
  have hoffset : error.offset = s.offset := by
    unfold measure at herror
    dsimp only at herror
    split at herror
    · cases herror
    · split at herror
      · cases herror
      · cases herror
        rfl
  exact ⟨0, by simp [hoffset, hplace.offset]⟩

theorem blames_enterLineIfDue (s : Scanner) : s.enterLineIfDue.2.Blames s.enterLineIfDue := by
  unfold enterLineIfDue
  split
  · obtain ⟨ts, u, _, _, _, _, hr⟩ :=
      enterLine_cases (s.rest.length + 1) { s with atLineStart := false }
    rcases hr with hr | hr | ⟨column, hr⟩ <;> rw [hr]
    · rintro error ⟨⟩
    · rintro error ⟨⟩
    · exact u.blames_measure column
  · rintro error ⟨⟩

theorem blames_lexeme (s : Scanner) (kind : TokenKind) (length : Nat) :
    s.Blames (s.lexeme kind length) := by
  intro error herror
  unfold lexeme at herror
  split at herror
  · split at herror
    · cases herror
    · cases herror
      exact ⟨_, rfl⟩
  · split at herror
    · cases herror
      exact ⟨_, rfl⟩
    · split at herror
      · cases herror
      · cases herror
        exact ⟨_, rfl⟩
  · cases herror

theorem blames_scanToken (s : Scanner) : s.Blames s.scanToken := by
  intro error herror
  unfold scanToken at herror
  split at herror
  · unfold finish at herror
    split at herror <;> cases herror
  · split at herror
    · cases herror
    · split at herror
      · cases herror
        exact ⟨_, rfl⟩
      · split at herror
        · cases herror
        · split at herror
          · exact s.blames_lexeme _ _ error herror
          · cases herror
            exact ⟨_, rfl⟩

theorem blames_next (s : Scanner) : s.settled.Blames s.next := by
  intro error herror
  have hdue := s.blames_enterLineIfDue
  unfold next at herror
  unfold settled
  generalize s.enterLineIfDue = step at hdue herror ⊢
  rcases step with ⟨result, u⟩
  cases result with
  | error _ =>
    cases herror
    exact hdue error rfl
  | ok =>
    dsimp only at herror ⊢
    split at herror
    · cases herror
    · cases herror
    · next hscheduled =>
      rw [if_pos hscheduled]
      exact blames_scanToken _ error herror

/-- Tokens start, and errors lie, where the source can be cut. -/
theorem Scans.isBoundary {source : Text} {s : Scanner} {tokens : List Token}
    {failure : Option LexicalError} (h : s.Scans tokens failure) {scans : List Scan}
    {entries : List Entry} (hs : Accounts source scans s entries) :
    (∀ token ∈ tokens, source.IsBoundary token.span.start) ∧
      ∀ error, failure = some error → source.IsBoundary error.offset := by
  have htoken {s u : Scanner} {token : Token} {scans : List Scan} {entries : List Entry}
      (hs : Accounts source scans s entries) (hnext : s.next = (.ok token, u)) :
      source.IsBoundary token.span.start ∧ ∃ scans entries, Accounts source scans u entries := by
    obtain ⟨more, hu⟩ := hs.next
    rw [hnext] at hu
    refine ⟨?_, _, _, hu⟩
    have hmem : token ∈ (entries ++ more).filterMap Entry.token? := by
      rw [hu.tokens]
      simp [Scan.ofStep, Scan.token?]
    obtain ⟨e, he, hetoken⟩ := List.mem_filterMap.mp hmem
    have hslice := Entry.Placed.slice?_eq [] u.rest hu.source_eq hu.placed e he
    cases e <;> cases hetoken
    exact (Text.isBoundary_of_slice? hslice).1
  induction h generalizing scans entries with
  | @fault s u error hnext =>
    refine ⟨by simp, ?_⟩
    rintro _ ⟨⟩
    obtain ⟨more, hsettled⟩ := hs.settled
    have hblames := s.blames_next
    rw [hnext] at hblames
    obtain ⟨n, hn⟩ := hblames error rfl
    rw [hn]
    exact hsettled.isBoundary_of_passes (s.settled.passes_advance n)
  | done hnext _ =>
    obtain ⟨hboundary, _⟩ := htoken hs hnext
    exact ⟨by simpa using hboundary, by simp⟩
  | step hnext _ _ ih =>
    obtain ⟨hboundary, _, _, hu⟩ := htoken hs hnext
    obtain ⟨htokens, hfailure⟩ := ih hu
    exact ⟨List.forall_mem_cons.mpr ⟨hboundary, htokens⟩, hfailure⟩

end Scanner

theorem Text.IsBoundary.le_size {t : Text} {offset : Nat} (h : t.IsBoundary offset) :
    offset ≤ t.size := by
  obtain ⟨before, after, rfl, rfl⟩ := h
  rw [Text.size_append]
  exact Nat.le_add_right _ _

/-! ## The run over a source -/

theorem TokenRun.scans (options : Options) (t : Text) :
    (Scanner.ofText options t).Scans (TokenRun.ofText options t).tokens
      (TokenRun.ofText options t).failure := by
  refine Scanner.scans_run _ _ ?_
  simp only [Scanner.load, Scanner.ofText, List.length_nil]
  omega

theorem TokenRun.tokenize_eq_ok_iff {options : Options} {t : Text} {tokens : List Token} :
    tokenize options t = .ok tokens ↔
      (TokenRun.ofText options t).failure = none ∧ (TokenRun.ofText options t).tokens = tokens := by
  unfold tokenize complete
  split <;> simp_all

theorem TokenRun.tokenize_eq_error_iff {options : Options} {t : Text} {error : LexicalError} :
    tokenize options t = .error error ↔ (TokenRun.ofText options t).failure = some error := by
  unfold tokenize complete
  split <;> simp_all

theorem TokenRun.isBoundary (options : Options) (t : Text) :
    (∀ token ∈ (TokenRun.ofText options t).tokens, t.IsBoundary token.span.start) ∧
      ∀ error, (TokenRun.ofText options t).failure = some error → t.IsBoundary error.offset :=
  (TokenRun.scans options t).isBoundary (.start options t)

end Verbatim
