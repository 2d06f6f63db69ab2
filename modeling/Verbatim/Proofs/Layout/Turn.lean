import Verbatim.Proofs.Brackets.Track
import Verbatim.Proofs.Layout.Blocks

/-!
# What a step does to blocks and brackets

Between two steps the scanner is steady, also when the step before it failed: the columns of
its blocks go down to zero, no `indent` is due, and markers that are due wait outside brackets or
at the end of the text. From there a step gives a marker, takes a token or fails, and each of the
three says what becomes of the columns, of the markers that are due and of the brackets.
-/

namespace Verbatim

namespace Scanner

structure Steady (s : Scanner) : Prop where
  columns : (s.columns ++ [0]).Pairwise (· > ·)
  noIndent : s.scheduled ≠ .indent
  lineStart : s.atLineStart = true →
    s.scheduled = .dedents 0 ∧ s.waiting = [] ∧ s.brackets = []
  due : s.scheduled ≠ .dedents 0 → s.brackets = [] ∨ s.rest = []
  depth : s.bracketDepth ≤ Bracket.maxDepth

/-- A token that is no block marker leaves the blocks as they are. -/
structure Takes (s : Scanner) (token : Token) (u : Scanner) : Prop where
  notIndent : token.kind ≠ .indent
  notDedent : token.kind ≠ .dedent
  columns : u.columns = s.columns
  before : s.scheduled = .dedents 0
  scheduled : u.scheduled = .dedents 0
  waiting : u.waiting = []
  atLineStart : u.atLineStart = (token.kind == .newline)
  track : token.track s.brackets = some u.brackets
  outside : token.kind = .newline ∨ token.kind = .typeComment → s.brackets = []
  depth : u.bracketDepth ≤ Bracket.maxDepth
  atEnd : token.kind = .endOfFile → u.rest = [] ∧ u.columns = []

/-- What a step can do from a steady scanner. The blocks that it closes are `closed`; their
markers are added to those that are due. -/
inductive Turn (s : Scanner) : Step Token → Prop
  | indent {u : Scanner} {token : Token} {column : Nat} (kind : token.kind = .indent)
      (columns : u.columns = column :: s.columns) (deeper : s.column < column)
      (before : s.scheduled = .dedents 0) (scheduled : u.scheduled = .dedents 0)
      (outside : s.brackets = []) (brackets : u.brackets = [])
      (atLineStart : u.atLineStart = false) : Turn s (.ok token, u)
  | dedent {u : Scanner} {token : Token} {m n : Nat} (closed : List Nat)
      (kind : token.kind = .dedent) (columns : s.columns = closed ++ u.columns)
      (before : s.scheduled = .dedents m) (scheduled : u.scheduled = .dedents n)
      (due : n + 1 = m + closed.length) (brackets : u.brackets = s.brackets)
      (outside : u.brackets = [] ∨ u.rest = []) (atLineStart : u.atLineStart = false) :
      Turn s (.ok token, u)
  | token {u : Scanner} {token : Token} (takes : s.Takes token u) : Turn s (.ok token, u)
  | fault {u : Scanner} {error : LexicalError} (closed : List Nat)
      (columns : s.columns = closed ++ u.columns) (before : s.scheduled = .dedents 0)
      (scheduled : u.scheduled = .dedents closed.length) (brackets : u.brackets <:+ s.brackets)
      (outside : u.scheduled ≠ .dedents 0 → u.brackets = []) (atLineStart : u.atLineStart = false) :
      Turn s (.error error, u)

/-- Blocks that were closed on the way to a step count as closed by it. -/
theorem Turn.of_closes {s u : Scanner} {step : Step Token} (h : u.Turn step) (closed : List Nat)
    (hcolumns : s.columns = closed ++ u.columns) (hbefore : s.scheduled = .dedents 0)
    (hscheduled : u.scheduled = .dedents closed.length) (hbrackets : u.brackets = s.brackets) :
    s.Turn step := by
  have hnone (hu : u.scheduled = .dedents 0) : u.columns = s.columns := by
    have hclosed : closed = [] := by simpa [hscheduled] using hu
    rw [hcolumns, hclosed, List.nil_append]
  cases h with
  | indent kind columns deeper before scheduled outside brackets atLineStart =>
    have hsame := hnone before
    refine .indent kind (hsame ▸ columns) ?_ hbefore scheduled (hbrackets ▸ outside) brackets
      atLineStart
    rwa [column, ← hsame]
  | @dedent v token m n more kind columns before scheduled due brackets outside atLineStart =>
    have hm : m = closed.length := by
      rw [before] at hscheduled
      injection hscheduled
    refine .dedent (closed ++ more) kind ?_ hbefore scheduled ?_
      (brackets.trans hbrackets) outside atLineStart
    · rw [hcolumns, columns, List.append_assoc]
    · rw [List.length_append]
      omega
  | token takes =>
    refine .token ⟨takes.notIndent, takes.notDedent, takes.columns.trans (hnone takes.before),
      hbefore, takes.scheduled, takes.waiting, takes.atLineStart, ?_, ?_, takes.depth, takes.atEnd⟩
    · rw [← hbrackets]
      exact takes.track
    · rw [← hbrackets]
      exact takes.outside
  | @fault v error more columns before scheduled brackets outside atLineStart =>
    have hclosed : closed = [] := by simpa [before, eq_comm] using hscheduled
    refine .fault more ?_ hbefore scheduled (hbrackets ▸ brackets) outside atLineStart
    rw [hcolumns, hclosed, columns, List.nil_append]

/-! ## Tokens and faults inside a line -/

/-- The scanner is inside a logical line, in front of a token, with nothing due. -/
structure Inside (s : Scanner) : Prop where
  atLineStart : s.atLineStart = false
  scheduled : s.scheduled = .dedents 0
  depth : s.bracketDepth ≤ Bracket.maxDepth
  stops : s.triviaAhead? = none

variable {s : Scanner}

theorem Inside.fail (h : s.Inside) (fault : Fault) : s.Turn (s.fail fault) :=
  .fault [] rfl h.scheduled h.scheduled List.suffix_rfl
    (fun hdue => absurd h.scheduled hdue) h.atLineStart

/-- The scanner as it emits a token of the kind: next to the one inside the line only its brackets
can have changed and, for a line break, whether a line starts. -/
structure Inside.Puts (s : Scanner) (kind : TokenKind) (v : Scanner) : Prop where
  columns : v.columns = s.columns
  scheduled : v.scheduled = s.scheduled
  rest : v.rest = s.rest
  atLineStart : v.atLineStart = (kind == .newline)
  track : ∀ token : Token, token.kind = kind → token.span.start = v.offset →
    token.track s.brackets = some v.brackets
  depth : v.bracketDepth ≤ Bracket.maxDepth

theorem Inside.emit {v : Scanner} {kind : TokenKind} (h : s.Inside) (hv : Inside.Puts s kind v)
    (hindent : kind ≠ .indent) (hdedent : kind ≠ .dedent)
    (houtside : kind = .newline ∨ kind = .typeComment → s.brackets = [])
    (hend : kind = .endOfFile → s.rest = [] ∧ s.columns = []) (n : Nat) :
    s.Turn (v.emit kind n) := by
  refine .token ⟨hindent, hdedent, hv.columns, h.scheduled, hv.scheduled.trans h.scheduled, rfl,
    hv.atLineStart, hv.track _ rfl rfl, houtside, hv.depth, ?_⟩
  intro hkind
  obtain ⟨hrest, hcolumns⟩ := hend hkind
  constructor
  · simp [advance, hv.rest, hrest]
  · exact hv.columns.trans hcolumns

/-- A token that is no bracket leaves the brackets as they are. -/
theorem Inside.puts_same (h : s.Inside) {kind : TokenKind} (hopens : kind.opens? = none)
    (hcloses : kind.closes? = none) :
    Inside.Puts s kind { s with atLineStart := kind == .newline } where
  columns := rfl
  scheduled := rfl
  rest := rfl
  atLineStart := rfl
  track := by
    rintro token rfl -
    exact Token.track_of_no_bracket hopens hcloses
  depth := h.depth

theorem Inside.puts_of_ne_newline (h : s.Inside) {kind : TokenKind} (hopens : kind.opens? = none)
    (hcloses : kind.closes? = none) (hkind : kind ≠ .newline) : Inside.Puts s kind s := by
  have hv := h.puts_same hopens hcloses
  rwa [beq_eq_false_iff_ne.mpr hkind, ← h.atLineStart] at hv

theorem Inside.lexeme {kind : TokenKind} (h : s.Inside) (hkind : kind ∈ Lexeme.kinds) (n : Nat) :
    s.Turn (s.lexeme kind n) := by
  obtain ⟨hstructural, htype⟩ := Lexeme.of_mem_kinds kind hkind
  have hnot {other : TokenKind} (hother : other.isStructural = true) : kind ≠ other := by
    rintro rfl
    rw [hstructural] at hother
    cases hother
  have hstart : s.atLineStart = (kind == .newline) := by
    rw [h.atLineStart, beq_eq_false_iff_ne.mpr (hnot rfl)]
  have hemit {v : Scanner} (hv : Inside.Puts s kind v) : s.Turn (v.emit kind n) := by
    apply h.emit hv (hnot rfl) (hnot rfl)
    · rintro (hnewline | hcomment)
      · exact absurd hnewline (hnot rfl)
      · exact absurd hcomment htype
    · intro hend
      exact absurd hend (hnot rfl)
  unfold Scanner.lexeme
  split
  · next bracket _ hopens =>
    split
    · next hdepth =>
      refine hemit ⟨rfl, rfl, rfl, hstart, ?_, hdepth⟩
      rintro token rfl hoffset
      simp [Token.track, hopens, openBracket, hoffset]
    · exact h.fail _
  · next bracket hopens hcloses =>
    split
    · exact h.fail _
    · next opener offset outer hbrackets =>
      have hdepth : s.closeBracket.bracketDepth ≤ Bracket.maxDepth := by
        have hdepth := h.depth
        rw [bracketDepth, hbrackets, List.length_cons] at hdepth
        simp only [bracketDepth, closeBracket, hbrackets, List.tail_cons]
        omega
      split
      · next hsame =>
        refine hemit ⟨rfl, rfl, rfl, hstart, ?_, hdepth⟩
        rintro token rfl -
        simp [Token.track, hopens, hcloses, closeBracket, hbrackets, hsame]
      · exact .fault [] rfl h.scheduled h.scheduled (List.tail_suffix _)
          (fun hdue => absurd h.scheduled hdue) h.atLineStart
  · next hopens hcloses =>
    exact hemit (h.puts_of_ne_newline hopens hcloses (hnot rfl))

theorem Inside.finish (h : s.Inside) (hrest : s.rest = []) : s.Turn s.finish := by
  unfold Scanner.finish
  split
  · next hcolumns =>
    have hv : Inside.Puts s .endOfFile s :=
      h.puts_of_ne_newline rfl rfl (by decide)
    exact h.emit hv (by decide) (by decide) (by simp) (fun _ => ⟨hrest, hcolumns⟩) 0
  · next column outer hcolumns =>
    rw [closeBlocks, if_neg (by simp [hcolumns])]
    refine .dedent s.columns rfl (List.append_nil _).symm h.scheduled rfl ?_ rfl
      (.inr hrest) h.atLineStart
    rw [hcolumns, List.length_cons]
    omega

theorem Inside.scanToken (h : s.Inside) : s.Turn s.scanToken := by
  unfold Scanner.scanToken
  split
  · next hrest => exact h.finish hrest
  · next c t hrest =>
    split
    · next hhash =>
      -- a comment that is no type comment would have been passed over
      have hbrackets : s.brackets = [] := by
        have hmark : s.isAtTypeComment = true := by
          simpa [triviaAhead?, hrest, hhash, isBlank] using h.stops
        rw [isAtTypeComment, Bool.and_eq_true] at hmark
        simpa using hmark.1
      have hv : Inside.Puts s .typeComment s :=
        h.puts_of_ne_newline rfl rfl (by decide)
      exact h.emit hv (by decide) (by decide) (fun _ => hbrackets) (by simp) _
    · split
      · exact h.fail _
      · split
        · next hbreak =>
          have hv : Inside.Puts s .newline { s with atLineStart := true } := h.puts_same rfl rfl
          exact h.emit hv (by decide) (by decide)
            (fun _ => brackets_eq_nil h.stops hrest hbreak) (by simp) _
        · split
          · next kind n hread =>
            rw [hrest] at hread
            exact h.lexeme (Lexeme.mem_kinds_of_read hread).1 n
          · exact h.fail _

/-! ## Steps -/

theorem turn_of_dedents {n : Nat} (hstart : s.atLineStart = false)
    (hscheduled : s.scheduled = .dedents n) (hdue : n ≠ 0 → s.brackets = [] ∨ s.rest = [])
    (hdepth : s.bracketDepth ≤ Bracket.maxDepth) : s.Turn s.next := by
  rw [next_eq_of_atLineStart hstart, hscheduled]
  cases n with
  | zero =>
    obtain ⟨-, same, stops⟩ := s.settles_passTrivia
    have hinside : s.passTrivia.Inside := by
      constructor
      · rw [same.atLineStart, hstart]
      · rw [same.scheduled, hscheduled]
      · rw [bracketDepth, same.brackets]
        exact hdepth
      · exact stops
    exact hinside.scanToken.of_closes [] same.columns.symm hscheduled
      hinside.scheduled same.brackets
  | succ n =>
    exact .dedent [] rfl rfl hscheduled rfl rfl rfl (hdue (by simp)) hstart

theorem turn_closeBlocks (hrest : s.rest = []) (hstart : s.atLineStart = false)
    (hscheduled : s.scheduled = .dedents 0) (hdepth : s.bracketDepth ≤ Bracket.maxDepth) :
    s.Turn s.closeBlocks.next := by
  unfold closeBlocks
  split
  · exact turn_of_dedents hstart hscheduled (by simp) hdepth
  · have hturn := turn_of_dedents
      (s := { s with
        columns := [], scheduled := .dedents s.columns.length, markerOffset := s.offset })
      hstart rfl (fun _ => .inr hrest) hdepth
    exact hturn.of_closes s.columns (List.append_nil _).symm hscheduled rfl rfl

theorem turn_measure {u : Scanner} {column : Nat} (hstart : s.atLineStart = false)
    (hscheduled : s.scheduled = .dedents 0) (hbrackets : s.brackets = [])
    (h : s.measure column = (.ok (), u)) : s.Turn u.next := by
  obtain ⟨columns, scheduled, rfl, -, h⟩ := measure_eq_ok h
  rcases h with ⟨hdeeper, rfl, rfl⟩ | ⟨closed, hclosed, rfl⟩
  · have hnext := next_eq_of_atLineStart
      (s := { s with
        columns := column :: s.columns, scheduled := .indent, markerOffset := s.offset }) hstart
    rw [hnext]
    exact .indent rfl rfl hdeeper hscheduled rfl hbrackets hbrackets hstart
  · have hturn := turn_of_dedents
      (s := { s with columns, scheduled := .dedents closed.length, markerOffset := s.offset })
      hstart rfl (fun _ => .inl hbrackets) (by simp [bracketDepth, hbrackets])
    exact hturn.of_closes closed hclosed hscheduled rfl rfl

/-- The step at the start of a logical line, which may fail once it has closed some blocks. -/
theorem Steady.turn_lineStart (h : s.Steady) (hstart : s.atLineStart = true) : s.Turn s.next := by
  obtain ⟨hscheduled, hwaiting, hbrackets⟩ := h.lineStart hstart
  have henters := enters_enterLine (s.rest.length + 1) { s with atLineStart := false }
    (Nat.lt_succ_self _) (by rw [hwaiting]; rfl)
  have hdue : s.enterLineIfDue = enterLine (s.rest.length + 1) { s with atLineStart := false } :=
    if_pos hstart
  rw [← hdue] at henters
  generalize hresult : s.enterLineIfDue = result at henters
  have hsame {u : Scanner} (same : ({ s with atLineStart := false } : Scanner).SameBlocks u)
      (hturn : u.Turn s.next) : s.Turn s.next :=
    hturn.of_closes [] same.columns.symm hscheduled (same.scheduled.trans hscheduled) same.brackets
  cases henters with
  | atEnd same rest =>
    apply hsame same
    rw [next_of_enterLineIfDue_eq hresult]
    refine turn_closeBlocks rest same.atLineStart (same.scheduled.trans hscheduled) ?_
    rw [bracketDepth, same.brackets]
    exact h.depth
  | @line u same first =>
    apply hsame same
    have hscheduled := same.scheduled.trans hscheduled
    have hbrackets := same.brackets.trans hbrackets
    rcases hmeasure : u.measure (columnAfter u.tabSize u.indentation) with ⟨outcome, v⟩
    rw [hmeasure] at hresult
    cases outcome with
    | error error =>
      rw [next, hresult]
      obtain ⟨columns, closed, rfl, hcolumns⟩ := measure_eq_error hmeasure
      exact .fault closed hcolumns hscheduled rfl List.suffix_rfl (fun _ => hbrackets)
        same.atLineStart
    | ok =>
      rw [next_of_enterLineIfDue_eq hresult]
      exact turn_measure same.atLineStart hscheduled hbrackets hmeasure

theorem Steady.turn (h : s.Steady) : s.Turn s.next := by
  by_cases hstart : s.atLineStart = true
  · exact h.turn_lineStart hstart
  · have hstart : s.atLineStart = false := by simpa using hstart
    cases hscheduled : s.scheduled with
    | indent => exact absurd hscheduled h.noIndent
    | dedents n =>
      refine turn_of_dedents hstart hscheduled (fun hn => h.due ?_) h.depth
      rw [hscheduled]
      simpa using hn

/-! ## Steady scanners stay steady -/

theorem Steady.le_column (h : s.Steady) : ∀ column ∈ s.columns ++ [0], column ≤ s.column := by
  have hcolumns := h.columns
  rw [Scanner.column]
  cases hs : s.columns with
  | nil => simp
  | cons first outer =>
    rw [hs, List.cons_append, List.pairwise_cons] at hcolumns
    intro column hcolumn
    rcases List.mem_cons.mp hcolumn with rfl | hcolumn
    · exact Nat.le_refl _
    · exact Nat.le_of_lt (hcolumns.1 column hcolumn)

theorem Steady.columns_of_closes {u : Scanner} {closed : List Nat} (h : s.Steady)
    (hcolumns : s.columns = closed ++ u.columns) : (u.columns ++ [0]).Pairwise (· > ·) := by
  have hall := h.columns
  rw [hcolumns, List.append_assoc] at hall
  exact (List.pairwise_append.mp hall).2.1

theorem Steady.of_turn {u : Scanner} {result : Except LexicalError Token} (h : s.Steady)
    (hturn : s.Turn (result, u)) : u.Steady := by
  cases hturn with
  | indent kind columns deeper before scheduled outside brackets atLineStart =>
    constructor
    · rw [columns, List.cons_append, List.pairwise_cons]
      constructor
      · intro column hcolumn
        exact Nat.lt_of_le_of_lt (h.le_column column hcolumn) deeper
      · exact h.columns
    · simp [scheduled]
    · simp [atLineStart]
    · simp [scheduled]
    · simp [bracketDepth, brackets]
  | dedent closed kind columns before scheduled due brackets outside atLineStart =>
    constructor
    · exact h.columns_of_closes columns
    · simp [scheduled]
    · simp [atLineStart]
    · exact fun _ => outside
    · rw [bracketDepth, brackets]
      exact h.depth
  | @token _ token takes =>
    constructor
    · rw [takes.columns]
      exact h.columns
    · simp [takes.scheduled]
    · intro hstart
      have hkind : token.kind = .newline := by simpa [takes.atLineStart] using hstart
      have htrack := takes.track
      rw [Token.track_of_no_bracket (by rw [hkind]; rfl) (by rw [hkind]; rfl),
        takes.outside (.inl hkind), Option.some.injEq] at htrack
      exact ⟨takes.scheduled, takes.waiting, htrack.symm⟩
    · simp [takes.scheduled]
    · exact takes.depth
  | fault closed columns before scheduled brackets outside atLineStart =>
    constructor
    · exact h.columns_of_closes columns
    · simp [scheduled]
    · simp [atLineStart]
    · exact fun hdue => .inl (outside hdue)
    · exact Nat.le_trans brackets.length_le h.depth

theorem steady_ofText (options : Options) (t : Text) : (Scanner.ofText options t).Steady where
  columns := List.pairwise_singleton _ _
  noIndent := by simp [Scanner.ofText]
  lineStart := fun _ => ⟨rfl, rfl, rfl⟩
  due := fun hdue => absurd rfl hdue
  depth := Nat.zero_le _

/-! ## Runs that go on after faults -/

/-- The scans of any number of steps, whatever they gave. -/
inductive Attempts (s : Scanner) : List Scan → Scanner → Prop
  | refl : Attempts s [] s
  | snoc {u v : Scanner} {scans : List Scan} {result : Except LexicalError Token}
      (before : Attempts s scans u) (next : u.next = (result, v)) :
      Attempts s (scans ++ [.ofStep u.settled.offset (result, v)]) v

theorem Steps.attempts {s u : Scanner} {tokens : List Token} (h : s.Steps tokens u) :
    s.Attempts (tokens.map .token) u := by
  induction h with
  | refl => exact .refl
  | snoc _ next ih =>
    rw [List.map_append]
    exact ih.snoc next

theorem Attempts.steady {options : Options} {t : Text} {scans : List Scan} {u : Scanner}
    (h : (Scanner.ofText options t).Attempts scans u) : u.Steady := by
  induction h with
  | refl => exact steady_ofText options t
  | snoc _ next ih => exact ih.of_turn (next ▸ ih.turn)

end Scanner

namespace Lookahead

theorem attempts_after {s : Scanner} {scans : List Scan} (n : Nat) {look : Lookahead}
    (h : s.Attempts scans look.scanner) :
    s.Attempts (scans ++ look.scans n) (look.after n).scanner := by
  induction n generalizing look scans with
  | zero => simpa [Lookahead.scans, after] using h
  | succ n ih =>
    have hstep : s.Attempts (scans ++ [look.scan]) look.advance.2.scanner := by
      rw [scan_eq, scanner_advance]
      exact h.snoc rfl
    have hrun := ih hstep
    rwa [List.append_assoc] at hrun

theorem attempts_of_ofText {options : Options} {source : Text} {look : Lookahead}
    (h : ofText options source = .ok look) (n : Nat) :
    (Scanner.ofText options source).Attempts (.token look.current :: look.scans n)
      (look.after n).scanner :=
  attempts_after n (Scanner.Attempts.refl.snoc (ofText_eq_ok h))

end Lookahead

end Verbatim
