import Verbatim.Proofs.Layout.Line

/-!
# The layout of a run

The markers in a run say how the columns of its logical lines nest: an `indent` stands before
a line of a greater column than the block has, and a `dedent` goes back to the block around.
The run is read by an automaton with the columns of the open blocks as its stack, and the
scanner at every step follows it. Only at the end of the text do blocks close wherever the
line has come to.
-/

namespace Verbatim

inductive Place where
  | lineStart | inLine

/-- Where a run goes on: the columns of the open blocks, innermost first, and the place in the
logical line. -/
structure Layout where
  columns : List Nat
  place : Place

namespace Layout

def column (layout : Layout) : Nat :=
  layout.columns.headD 0

/-- Only a line break ends a logical line. -/
def placeAfter (token : Token) : Place :=
  if token.kind = .newline then .lineStart else .inLine

/-- `first column token` tells that a line of the column may begin with the token. -/
inductive Step (first : Nat → Token → Prop) : Layout → Token → Layout → Prop
  | indent {columns : List Nat} {column : Nat} {token : Token} (hkind : token.kind = .indent)
      (hcolumn : columns.headD 0 < column) :
      Step first ⟨columns, .lineStart⟩ token ⟨column :: columns, .lineStart⟩
  | dedent {columns : List Nat} {column : Nat} {token : Token} (hkind : token.kind = .dedent) :
      Step first ⟨column :: columns, .lineStart⟩ token ⟨columns, .lineStart⟩
  | first {columns : List Nat} {token : Token} (hkind : token.kind.isZeroWidth = false)
      (hfirst : first (columns.headD 0) token) :
      Step first ⟨columns, .lineStart⟩ token ⟨columns, placeAfter token⟩
  | more {columns : List Nat} {token : Token} (hkind : token.kind.isZeroWidth = false) :
      Step first ⟨columns, .inLine⟩ token ⟨columns, placeAfter token⟩

def Closes (tokens : List Token) : Prop :=
  ∀ token ∈ tokens, token.kind = .dedent ∨ token.kind = .endOfFile

/-- The tokens go on from the layout to the end of their run. -/
inductive Fits (first : Nat → Token → Prop) : Layout → List Token → Prop
  | closes {layout : Layout} {tokens : List Token} (h : Closes tokens) : Fits first layout tokens
  | step {layout next : Layout} {token : Token} {tokens : List Token}
      (h : Step first layout token next) (hnext : Fits first next tokens) :
      Fits first layout (token :: tokens)

/-! ## First tokens of lines -/

/-- The first tokens of the logical lines among some tokens, without the markers. -/
def firsts : Place → List Token → List Token
  | _, [] => []
  | place, token :: tokens =>
    if token.kind.isZeroWidth then firsts place tokens
    else
      match place with
      | .lineStart => token :: firsts (placeAfter token) tokens
      | .inLine => firsts (placeAfter token) tokens

/-- A logical line of the column begins with the token. -/
def Begins (tabSize : Nat) (tokens : List Token) (column : Nat) (token : Token) : Prop :=
  token ∈ firsts .lineStart tokens ∧ token.column tabSize = column

variable {first first' : Nat → Token → Prop}

theorem Step.mono {layout next : Layout} {token : Token} (h : Step first layout token next)
    (hfirst : ∀ column, first column token → first' column token) :
    Step first' layout token next := by
  cases h with
  | indent hkind hcolumn => exact .indent hkind hcolumn
  | dedent hkind => exact .dedent hkind
  | first hkind h => exact .first hkind (hfirst _ h)
  | more hkind => exact .more hkind

theorem Fits.mono {layout : Layout} {tokens : List Token} (h : Fits first layout tokens)
    (hfirst : ∀ column token, first column token → first' column token) :
    Fits first' layout tokens := by
  induction h with
  | closes h => exact .closes h
  | step h _ ih => exact .step (h.mono fun column => hfirst column _) ih

theorem Fits.firsts {layout : Layout} {tokens : List Token} (h : Fits first layout tokens) :
    Fits (fun column token => token ∈ firsts layout.place tokens ∧ first column token) layout
      tokens := by
  induction h with
  | closes h => exact .closes h
  | @step layout next token tokens h _ ih =>
    cases h with
    | indent hkind hcolumn =>
      refine .step (.indent hkind hcolumn) (ih.mono fun column t ht => ⟨?_, ht.2⟩)
      rw [Layout.firsts, if_pos (by simp [TokenKind.isZeroWidth_iff, hkind])]
      exact ht.1
    | dedent hkind =>
      refine .step (.dedent hkind) (ih.mono fun column t ht => ⟨?_, ht.2⟩)
      rw [Layout.firsts, if_pos (by simp [TokenKind.isZeroWidth_iff, hkind])]
      exact ht.1
    | first hkind hfirst =>
      refine .step (.first hkind ⟨?_, hfirst⟩) (ih.mono fun column t ht => ⟨?_, ht.2⟩)
      · simp [Layout.firsts, hkind]
      · simpa [Layout.firsts, hkind] using .inr ht.1
    | more hkind =>
      refine .step (.more hkind) (ih.mono fun column t ht => ⟨?_, ht.2⟩)
      simpa [Layout.firsts, hkind] using ht.1

/-! ## What comes next -/

variable {columns : List Nat} {token : Token} {tokens : List Token}

theorem placeAfter_eq_inLine (h : token.kind.isStructural = false) : placeAfter token = .inLine :=
  if_neg fun hkind => by simp [hkind, TokenKind.isStructural] at h

theorem Closes.not_head (h : Closes (token :: tokens)) (hkind : token.kind.isStructural = false) :
    False := by
  rcases h token List.mem_cons_self with h | h <;> simp [h, TokenKind.isStructural] at hkind

namespace Fits

theorem first_cons (h : Fits first ⟨columns, .lineStart⟩ (token :: tokens))
    (hkind : token.kind.isStructural = false) :
    first (columns.headD 0) token ∧ Fits first ⟨columns, .inLine⟩ tokens := by
  cases h with
  | closes h => exact (h.not_head hkind).elim
  | step h hnext =>
    cases h with
    | indent h => simp [h, TokenKind.isStructural] at hkind
    | dedent h => simp [h, TokenKind.isStructural] at hkind
    | first _ hfirst => exact ⟨hfirst, placeAfter_eq_inLine hkind ▸ hnext⟩

theorem more_cons (h : Fits first ⟨columns, .inLine⟩ (token :: tokens))
    (hkind : token.kind.isStructural = false) : Fits first ⟨columns, .inLine⟩ tokens := by
  cases h with
  | closes h => exact (h.not_head hkind).elim
  | step h hnext =>
    cases h with
    | more _ => exact placeAfter_eq_inLine hkind ▸ hnext

theorem more_append {us : List Token} (h : Fits first ⟨columns, .inLine⟩ (tokens ++ us))
    (hkinds : ∀ t ∈ tokens, t.kind.isStructural = false) : Fits first ⟨columns, .inLine⟩ us := by
  induction tokens with
  | nil => exact h
  | cons t tokens ih =>
    obtain ⟨hkind, hkinds⟩ := List.forall_mem_cons.mp hkinds
    exact ih (h.more_cons hkind) hkinds

theorem newline_cons (h : Fits first ⟨columns, .inLine⟩ (token :: tokens))
    (hkind : token.kind = .newline) : Fits first ⟨columns, .lineStart⟩ tokens := by
  cases h with
  | closes h => rcases h token List.mem_cons_self with h | h <;> simp [h] at hkind
  | step h hnext =>
    cases h with
    | more _ => exact (if_pos hkind : placeAfter token = .lineStart) ▸ hnext

theorem indent_cons (h : Fits first ⟨columns, .lineStart⟩ (token :: tokens))
    (hkind : token.kind = .indent) :
    ∃ column, columns.headD 0 < column ∧ Fits first ⟨column :: columns, .lineStart⟩ tokens := by
  cases h with
  | closes h => rcases h token List.mem_cons_self with h | h <;> simp [h] at hkind
  | step h hnext =>
    cases h with
    | indent _ hcolumn => exact ⟨_, hcolumn, hnext⟩
    | dedent h => simp [h] at hkind
    | first h => simp [hkind, TokenKind.isZeroWidth] at h

theorem dedent_cons {column : Nat}
    (h : Fits first ⟨column :: columns, .lineStart⟩ (token :: tokens))
    (hkind : token.kind = .dedent) : Fits first ⟨columns, .lineStart⟩ tokens := by
  cases h with
  | closes h => exact .closes (List.forall_mem_cons.mp h).2
  | step h hnext =>
    cases h with
    | indent h => simp [h] at hkind
    | dedent _ => exact hnext
    | first h => simp [hkind, TokenKind.isZeroWidth] at h

/-- A line without a line break of its own stands at the end, where only blocks close. -/
theorem of_inLine (h : Fits first ⟨columns, .inLine⟩ (token :: tokens))
    (hkind : token.kind = .endOfFile ∨ token.kind = .dedent) :
    Fits first ⟨columns, .lineStart⟩ (token :: tokens) := by
  cases h with
  | closes h => exact .closes h
  | step h hnext =>
    cases h with
    | more h => rcases hkind with hkind | hkind <;> simp [hkind, TokenKind.isZeroWidth] at h

end Fits

end Layout

/-! ## The scanner follows the layout -/

namespace Scanner

/-- The scanner has measured a logical line and opened or closed blocks for it. -/
structure Measured (tabSize : Nat) (s : Scanner) : Prop where
  tabSize : s.tabSize = tabSize
  atLineStart : s.atLineStart = false
  brackets : s.brackets = []
  first : s.AtFirst
  column : columnAfter s.tabSize s.indentation = s.column

/-- The scanner stands in the layout. Markers that are due are still ahead of it. -/
inductive Laid (tabSize : Nat) : Scanner → Layout → Prop
  | start {s : Scanner} (htabSize : s.tabSize = tabSize) (hstart : s.atLineStart = true)
      (hscheduled : s.scheduled = .dedents 0) (hline : Trivia.lastLine s.waiting = [])
      (hbrackets : s.brackets = []) : Laid tabSize s ⟨s.columns, .lineStart⟩
  | indent {s : Scanner} {outer : List Nat} (hs : s.Measured tabSize)
      (hscheduled : s.scheduled = .indent) (hcolumns : s.columns = s.column :: outer)
      (hcolumn : outer.headD 0 < s.column) : Laid tabSize s ⟨outer, .lineStart⟩
  | dedents {s : Scanner} {closed : List Nat} (hs : s.Measured tabSize)
      (hscheduled : s.scheduled = .dedents closed.length) :
      Laid tabSize s ⟨closed ++ s.columns, .lineStart⟩
  | inside {s : Scanner} (htabSize : s.tabSize = tabSize) (hstart : s.atLineStart = false)
      (hscheduled : s.scheduled = .dedents 0) : Laid tabSize s ⟨s.columns, .inLine⟩

variable {tabSize : Nat} {layout : Layout}

theorem Measured.reschedule {s : Scanner} (hs : s.Measured tabSize) (scheduled : Scheduled) :
    ({ s with scheduled } : Scanner).Measured tabSize :=
  ⟨hs.tabSize, hs.atLineStart, hs.brackets,
    ⟨hs.first.blank, hs.first.rest_ne_nil, hs.first.head, hs.first.noComment⟩, hs.column⟩

/-- A line closes the blocks whose columns are greater than its own. -/
theorem columns_split (columns : List Nat) (column : Nat) :
    ∃ closed, columns = closed ++ columns.dropWhile (column < ·) ∧
      columns.length - (columns.dropWhile (column < ·)).length = closed.length := by
  have hsplit := List.takeWhile_append_dropWhile (p := (column < ·)) (l := columns)
  have hlength := congrArg List.length hsplit
  rw [List.length_append] at hlength
  exact ⟨_, hsplit.symm, by omega⟩

/-- A measured line opens one block, or it closes some and is at the column of the next. -/
theorem measure_eq_ok {s u : Scanner} {column : Nat} (h : s.measure column = (.ok (), u)) :
    ∃ columns scheduled, u = { s with columns, scheduled, markerOffset := s.offset } ∧
      columns.headD 0 = column ∧
      (s.column < column ∧ columns = column :: s.columns ∧ scheduled = .indent ∨
        ∃ closed, s.columns = closed ++ columns ∧ scheduled = .dedents closed.length) := by
  unfold measure at h
  dsimp only at h
  split at h
  · next hcolumn =>
    cases h
    exact ⟨_, _, rfl, rfl, .inl ⟨hcolumn, rfl, rfl⟩⟩
  · split at h
    · next hcolumn =>
      cases h
      obtain ⟨closed, hclosed, hlength⟩ := columns_split s.columns column
      exact ⟨_, _, rfl, hcolumn, .inr ⟨closed, hclosed, congrArg _ hlength⟩⟩
    · cases h

/-- A line that is at fault has closed blocks all the same. -/
theorem measure_eq_error {s u : Scanner} {column : Nat} {error : LexicalError}
    (h : s.measure column = (.error error, u)) :
    ∃ columns closed, u = { s with columns, scheduled := .dedents closed.length } ∧
      s.columns = closed ++ columns := by
  unfold measure at h
  dsimp only at h
  split at h
  · cases h
  · split at h
    · cases h
    · cases h
      obtain ⟨closed, hclosed, hlength⟩ := columns_split s.columns column
      rw [hlength]
      exact ⟨_, closed, rfl, hclosed⟩

theorem laid_measure {s u : Scanner} (hs : s.AtFirst) (hstart : s.atLineStart = false)
    (hbrackets : s.brackets = [])
    (h : s.measure (columnAfter s.tabSize s.indentation) = (.ok (), u)) :
    Laid s.tabSize u ⟨s.columns, .lineStart⟩ := by
  obtain ⟨columns, scheduled, rfl, hcolumn, h⟩ := measure_eq_ok h
  have hmeasured : Measured s.tabSize { s with columns, scheduled, markerOffset := s.offset } :=
    ⟨rfl, hstart, hbrackets, ⟨hs.blank, hs.rest_ne_nil, hs.head, hs.noComment⟩, hcolumn.symm⟩
  rcases h with ⟨hlt, hcolumns, hscheduled⟩ | ⟨closed, hcolumns, hscheduled⟩
  · refine .indent hmeasured hscheduled ?_ ?_
    · change columns = columns.headD 0 :: s.columns
      rw [hcolumn, hcolumns]
    · change s.columns.headD 0 < columns.headD 0
      rwa [hcolumn]
  · rw [hcolumns]
    exact .dedents hmeasured hscheduled

theorem ended_closeBlocks {s : Scanner} (hrest : s.rest = []) (hstart : s.atLineStart = false)
    (hscheduled : s.scheduled = .dedents 0) : s.closeBlocks.Ended := by
  unfold closeBlocks
  split
  · next hcolumns => exact ⟨hrest, hcolumns, hstart, by simp [hscheduled]⟩
  · exact ⟨hrest, rfl, hstart, by simp⟩

/-- Measuring a line keeps to the layout, unless the text ends instead. -/
theorem Laid.enterLineIfDue {s u : Scanner} (hs : Laid tabSize s layout)
    (h : s.enterLineIfDue = (.ok (), u)) : u.Ended ∨ Laid tabSize u layout := by
  unfold Scanner.enterLineIfDue at h
  cases hs with
  | start htabSize hstart hscheduled hline hbrackets =>
    rw [if_pos hstart] at h
    have henters := enters_enterLine (s.rest.length + 1) { s with atLineStart := false }
      (Nat.lt_succ_self _) hline
    rw [h] at henters
    generalize hresult : ((.ok (), u) : Step Unit) = result at henters
    cases henters with
    | atEnd same rest =>
      cases hresult
      exact .inl (ended_closeBlocks rest same.atLineStart (same.scheduled.trans hscheduled))
    | @line v same first =>
      have hlaid := laid_measure first same.atLineStart (same.brackets.trans hbrackets)
        hresult.symm
      rw [same.columns, same.tabSize] at hlaid
      exact .inr (htabSize ▸ hlaid)
  | indent hs hscheduled hcolumns hcolumn =>
    rw [if_neg (by simp [hs.atLineStart])] at h
    cases h
    exact .inr (.indent hs hscheduled hcolumns hcolumn)
  | dedents hs hscheduled =>
    rw [if_neg (by simp [hs.atLineStart])] at h
    cases h
    exact .inr (.dedents hs hscheduled)
  | inside htabSize hstart hscheduled =>
    rw [if_neg (by simp [hstart])] at h
    cases h
    exact .inr (.inside htabSize hstart hscheduled)

/-! ### Tokens -/

theorem TakesFrom.laid {s u : Scanner} {token : Token} (h : s.TakesFrom token u)
    (hscheduled : s.scheduled = .dedents 0) :
    Laid s.tabSize u ⟨s.columns, Layout.placeAfter token⟩ := by
  have hscheduled := h.scheduled.trans hscheduled
  rw [← h.columns]
  unfold Layout.placeAfter
  split
  · next hkind =>
    refine .start h.tabSize ?_ hscheduled ?_ (h.brackets hkind)
    · rw [h.atLineStart, hkind]
      rfl
    · rw [h.waiting]
      rfl
  · next hkind =>
    refine .inside h.tabSize ?_ hscheduled
    rw [h.atLineStart]
    simpa using hkind

/-- The first token of a line has the column that was measured. -/
theorem Measured.column_eq {s u : Scanner} {token : Token} (hs : s.Measured tabSize)
    (h : s.passTrivia.TakesFrom token u) : token.column tabSize = s.column := by
  have hblanks := hs.first.blanks_indentation s.settles_passTrivia hs.brackets
  rw [Token.column, Token.indentation, h.leading]
  change columnAfter tabSize (blanks s.passTrivia.indentation) = s.column
  rw [hblanks, ← hs.tabSize, hs.column]

/-- The step follows the layout, or the text has ended. -/
def Proceeds (tabSize : Nat) (layout : Layout) (token : Token) (u : Scanner) : Prop :=
  (∃ next, Layout.Step (fun column t => t.column tabSize = column) layout token next ∧
    Laid tabSize u next) ∨
  u.Ended ∧ (token.kind = .dedent ∨ token.kind = .endOfFile)

theorem Measured.proceeds {s u : Scanner} {token : Token} (hs : s.Measured tabSize)
    (hscheduled : s.scheduled = .dedents 0) (h : s.passTrivia.scanToken = (.ok token, u)) :
    Proceeds tabSize ⟨s.columns, .lineStart⟩ token u := by
  have hsettles := s.settles_passTrivia
  have hscheduled' := hsettles.same.scheduled.trans hscheduled
  refine (scanToken_eq_ok hsettles.stops (hsettles.same.atLineStart.trans hs.atLineStart)
    hscheduled' h).imp (fun htakes => ?_) id
  refine ⟨_, .first htakes.isZeroWidth (hs.column_eq htakes), ?_⟩
  have hlaid := htakes.laid hscheduled'
  rwa [hsettles.same.tabSize, hs.tabSize, hsettles.same.columns] at hlaid

theorem proceeds_inside {s u : Scanner} {token : Token} (htabSize : s.tabSize = tabSize)
    (hstart : s.atLineStart = false) (hscheduled : s.scheduled = .dedents 0)
    (h : s.passTrivia.scanToken = (.ok token, u)) :
    Proceeds tabSize ⟨s.columns, .inLine⟩ token u := by
  have hsettles := s.settles_passTrivia
  have hscheduled' := hsettles.same.scheduled.trans hscheduled
  refine (scanToken_eq_ok hsettles.stops (hsettles.same.atLineStart.trans hstart)
    hscheduled' h).imp (fun htakes => ?_) id
  refine ⟨_, .more htakes.isZeroWidth, ?_⟩
  have hlaid := htakes.laid hscheduled'
  rwa [hsettles.same.tabSize, htabSize, hsettles.same.columns] at hlaid

theorem Ended.next {s u : Scanner} {token : Token} (hs : s.Ended)
    (h : s.next = (.ok token, u)) :
    u.Ended ∧ (token.kind = .dedent ∨ token.kind = .endOfFile) := by
  rw [next_eq_of_atLineStart hs.atLineStart] at h
  split at h
  · next hscheduled => exact absurd hscheduled hs.scheduled
  · cases h
    exact ⟨⟨hs.rest, hs.columns, hs.atLineStart, by simp⟩, .inl rfl⟩
  · next hscheduled =>
    have hpass : s.passTrivia = s := by simp [passTrivia, hs.rest, passTriviaUpTo]
    rw [hpass, scanToken, hs.rest] at h
    exact ended_finish hs.rest hs.atLineStart hscheduled h

theorem Laid.next {s u : Scanner} {token : Token} (hs : Laid tabSize s layout)
    (h : s.next = (.ok token, u)) : Proceeds tabSize layout token u := by
  have hstart := s.atLineStart_enterLineIfDue
  rcases hdue : s.enterLineIfDue with ⟨result, v⟩
  cases result with
  | error error =>
    rw [Scanner.next, hdue] at h
    cases h
  | ok =>
    rw [next_of_enterLineIfDue_eq hdue] at h
    rw [hdue] at hstart
    rcases hs.enterLineIfDue hdue with hended | hlaid
    · exact .inr (hended.next h)
    · rw [next_eq_of_atLineStart hstart] at h
      cases hlaid with
      | start _ hatStart => simp [hatStart] at hstart
      | indent hv hscheduled hcolumns hcolumn =>
        rw [hscheduled] at h
        cases h
        refine .inl ⟨_, .indent rfl hcolumn, ?_⟩
        rw [← hcolumns]
        have hopened : Laid tabSize _ ⟨[] ++ _, .lineStart⟩ := .dedents (hv.reschedule _) rfl
        exact hopened
      | @dedents closed hv hscheduled =>
        rw [hscheduled] at h
        cases closed with
        | nil => exact hv.proceeds hscheduled h
        | cons column closed =>
          cases h
          exact .inl ⟨_, .dedent rfl, .dedents (hv.reschedule _) rfl⟩
      | inside htabSize hatStart hscheduled =>
        rw [hscheduled] at h
        exact proceeds_inside htabSize hatStart hscheduled h

/-! ### Runs -/

theorem Ended.closes {s : Scanner} {tokens : List Token} {failure : Option LexicalError}
    (hs : s.Ended) (h : s.Scans tokens failure) : Layout.Closes tokens := by
  induction h with
  | fault => exact List.forall_mem_nil _
  | done hnext => exact List.forall_mem_singleton.mpr (hs.next hnext).2
  | step hnext _ _ ih =>
    obtain ⟨hended, hkind⟩ := hs.next hnext
    exact List.forall_mem_cons.mpr ⟨hkind, ih hended⟩

/-- A run fits the layout that its scanner stands in. -/
theorem Scans.fits {s : Scanner} {tokens : List Token} {failure : Option LexicalError}
    (h : s.Scans tokens failure) (hs : Laid tabSize s layout) :
    Layout.Fits (fun column token => token.column tabSize = column) layout tokens := by
  induction h generalizing layout with
  | fault => exact .closes (List.forall_mem_nil _)
  | done hnext hlast => exact .closes (List.forall_mem_singleton.mpr (.inr hlast))
  | step hnext _ hrest ih =>
    rcases hs.next hnext with ⟨next, hstep, hlaid⟩ | ⟨hended, hkind⟩
    · exact .step hstep (ih hlaid)
    · exact .closes (List.forall_mem_cons.mpr ⟨hkind, hended.closes hrest⟩)

end Scanner

/-- The run over a source begins in column zero, with no block open. -/
theorem TokenRun.fits (options : Options) (t : Text) :
    Layout.Fits (Layout.Begins options.effectiveTabSize (TokenRun.ofText options t).tokens)
      ⟨[], .lineStart⟩ (TokenRun.ofText options t).tokens :=
  ((TokenRun.scans options t).fits (.start rfl rfl rfl rfl rfl)).firsts

end Verbatim
