import Verbatim.Proofs.Layout.Turn

/-!
# Markers and blocks

Each block that the scanner opens gets one `indent`, and one `dedent` once it is closed, with
the markers that are still due to make up the difference. This holds in every state of a
lookahead, also after calls that failed: a line whose column fits no block has closed some all
the same, and the markers for those come later.
-/

namespace Verbatim

namespace Token

def indents (tokens : List Token) : Nat :=
  tokens.countP (·.kind = .indent)

def dedents (tokens : List Token) : Nat :=
  tokens.countP (·.kind = .dedent)

@[simp]
theorem indents_append (ts us : List Token) : indents (ts ++ us) = indents ts + indents us :=
  List.countP_append

@[simp]
theorem dedents_append (ts us : List Token) : dedents (ts ++ us) = dedents ts + dedents us :=
  List.countP_append

end Token

namespace Scanner

/-- The columns of the open blocks from the outermost on, with that of the module itself. -/
def levels (s : Scanner) : List Nat :=
  (s.columns ++ [0]).reverse

def dueIndents (s : Scanner) : Nat :=
  match s.scheduled with
  | .indent => 1
  | .dedents _ => 0

def dueDedents (s : Scanner) : Nat :=
  match s.scheduled with
  | .indent => 0
  | .dedents n => n

/-- How many blocks have got their `indent` and not their `dedent`. -/
def unclosed (s : Scanner) : Int :=
  s.blockDepth + s.dueDedents - s.dueIndents

variable {s u : Scanner}

theorem unclosed_of_dedents {n : Nat} (h : s.scheduled = .dedents n) :
    s.unclosed = s.blockDepth + n := by
  simp [unclosed, dueDedents, dueIndents, h]

theorem Steady.unclosed_nonneg (h : s.Steady) : 0 ≤ s.unclosed := by
  cases hscheduled : s.scheduled with
  | indent => exact absurd hscheduled h.noIndent
  | dedents n =>
    rw [unclosed_of_dedents hscheduled]
    omega

/-- A marker pays for the block that it opens or closes, and no other token counts. -/
theorem Turn.unclosed_token {token : Token} (h : s.Turn (.ok token, u)) :
    u.unclosed = s.unclosed + Token.indents [token] - Token.dedents [token] := by
  cases h with
  | indent kind columns deeper before scheduled outside brackets atLineStart =>
    rw [unclosed_of_dedents before, unclosed_of_dedents scheduled, blockDepth, blockDepth, columns]
    simp [Token.indents, Token.dedents, kind]
  | dedent closed kind columns before scheduled due brackets outside atLineStart =>
    rw [unclosed_of_dedents before, unclosed_of_dedents scheduled, blockDepth, blockDepth, columns]
    simp [Token.indents, Token.dedents, kind]
    omega
  | token takes =>
    rw [unclosed_of_dedents takes.before, unclosed_of_dedents takes.scheduled, blockDepth,
      blockDepth, takes.columns]
    simp [Token.indents, Token.dedents, takes.notIndent, takes.notDedent]

/-- What a fault closes is due afterwards. -/
theorem Turn.unclosed_fault {error : LexicalError} (h : s.Turn (.error error, u)) :
    u.unclosed = s.unclosed := by
  cases h with
  | fault closed columns before scheduled brackets outside atLineStart =>
    rw [unclosed_of_dedents before, unclosed_of_dedents scheduled, blockDepth, blockDepth, columns,
      List.length_append]
    omega

/-! ## The end of the text -/

/-- The scanner has given `endOfFile`, and can give nothing else any more. -/
structure Finished (s : Scanner) : Prop where
  rest : s.rest = []
  columns : s.columns = []
  scheduled : s.scheduled = .dedents 0
  atLineStart : s.atLineStart = false

theorem Turn.finished {token : Token} (h : s.Turn (.ok token, u))
    (hkind : token.kind = .endOfFile) : u.Finished := by
  cases h with
  | indent kind => simp [kind] at hkind
  | dedent _ kind => simp [kind] at hkind
  | token takes =>
    obtain ⟨hrest, hcolumns⟩ := takes.atEnd hkind
    constructor
    · exact hrest
    · exact hcolumns
    · exact takes.scheduled
    · rw [takes.atLineStart, hkind]
      rfl

theorem Finished.next (h : s.Finished) : s.next.2.Finished := by
  have hpass : s.passTrivia = s := by simp [passTrivia, h.rest, passTriviaUpTo]
  rw [next_eq_of_atLineStart h.atLineStart, h.scheduled]
  dsimp only
  rw [hpass, scanToken, h.rest]
  dsimp only
  rw [finish, h.columns]
  constructor
  · simp [emit, advance, h.rest]
  · exact h.columns
  · exact h.scheduled
  · exact h.atLineStart

/-! ## The account of a run -/

/-- What the markers among some tokens tell of the blocks of the scanner behind them. -/
structure BlockAccount (tokens : List Token) (s : Scanner) : Prop where
  base : s.levels.head? = some 0
  increasing : s.levels.Pairwise (· < ·)
  notBoth : ¬(0 < s.dueIndents ∧ 0 < s.dueDedents)
  lineStart : s.atLineStart = true → s.dueIndents = 0 ∧ s.dueDedents = 0
  balance : (Token.indents tokens : Int) - Token.dedents tokens =
    s.blockDepth + s.dueDedents - s.dueIndents
  before : ∀ start, start <+: tokens → Token.dedents start ≤ Token.indents start
  ended : ∀ token ∈ tokens, token.kind = .endOfFile →
    Token.indents tokens = Token.dedents tokens ∧ s.blockDepth = 0

/-- The part of the account that the steps of a run carry on. -/
structure Counted (tokens : List Token) (s : Scanner) : Prop where
  steady : s.Steady
  balance : (Token.indents tokens : Int) - Token.dedents tokens = s.unclosed
  before : ∀ start, start <+: tokens → Token.dedents start ≤ Token.indents start
  ended : ∀ token ∈ tokens, token.kind = .endOfFile → s.Finished

namespace Counted

variable {tokens : List Token}

theorem start (options : Options) (t : Text) : Counted [] (Scanner.ofText options t) where
  steady := steady_ofText options t
  balance := rfl
  before := by
    intro start hstart
    rw [List.prefix_nil.mp hstart]
    exact Nat.le_refl _
  ended := by simp

theorem token {token : Token} (h : Counted tokens s) (hnext : s.next = (.ok token, u)) :
    Counted (tokens ++ [token]) u := by
  have hturn := h.steady.turn
  rw [hnext] at hturn
  have hsteady := h.steady.of_turn hturn
  have hbalance : (Token.indents (tokens ++ [token]) : Int) - Token.dedents (tokens ++ [token]) =
      u.unclosed := by
    have hbefore := h.balance
    have hunclosed := hturn.unclosed_token
    rw [Token.indents_append, Token.dedents_append]
    omega
  constructor
  · exact hsteady
  · exact hbalance
  · intro start hstart
    rcases List.prefix_concat_iff.mp hstart with rfl | hstart
    · have hnonneg := hsteady.unclosed_nonneg
      omega
    · exact h.before start hstart
  · intro other hother hkind
    rcases List.mem_append.mp hother with hother | hother
    · have hfinished := (h.ended other hother hkind).next
      rwa [hnext] at hfinished
    · rw [List.mem_singleton.mp hother] at hkind
      exact hturn.finished hkind

theorem fault {error : LexicalError} (h : Counted tokens s) (hnext : s.next = (.error error, u)) :
    Counted tokens u := by
  have hturn := h.steady.turn
  rw [hnext] at hturn
  constructor
  · exact h.steady.of_turn hturn
  · rw [hturn.unclosed_fault]
    exact h.balance
  · exact h.before
  · intro other hother hkind
    have hfinished := (h.ended other hother hkind).next
    rwa [hnext] at hfinished

theorem account (h : Counted tokens s) : BlockAccount tokens s where
  base := by simp [levels]
  increasing := List.pairwise_reverse.mpr h.steady.columns
  notBoth := by
    rw [dueIndents, dueDedents]
    cases s.scheduled <;> simp
  lineStart := by
    intro hstart
    obtain ⟨hscheduled, -, -⟩ := h.steady.lineStart hstart
    simp [dueIndents, dueDedents, hscheduled]
  balance := h.balance
  before := h.before
  ended := by
    intro token htoken hkind
    obtain ⟨-, hcolumns, hscheduled, -⟩ := h.ended token htoken hkind
    have hbalance := h.balance
    rw [unclosed_of_dedents hscheduled, blockDepth, hcolumns, List.length_nil] at hbalance
    constructor
    · omega
    · rw [blockDepth, hcolumns]
      rfl

end Counted

theorem Attempts.counted {options : Options} {t : Text} {scans : List Scan} {u : Scanner}
    (h : (Scanner.ofText options t).Attempts scans u) :
    Counted (scans.filterMap Scan.token?) u := by
  induction h with
  | refl => exact .start options t
  | @snoc v w scans result _ next ih =>
    rw [List.filterMap_append]
    cases result with
    | ok token => exact ih.token next
    | error error =>
      rw [List.filterMap_cons_none rfl, List.filterMap_nil, List.append_nil]
      exact ih.fault next

end Scanner

namespace Lookahead

/-- In every state of a lookahead the markers given and the markers due account for the open
blocks. -/
theorem blocks_of_ofText {options : Options} {source : Text} {look : Lookahead}
    (h : ofText options source = .ok look) (n : Nat) :
    Scanner.BlockAccount ((.token look.current :: look.scans n).filterMap Scan.token?)
      (look.after n).scanner :=
  (attempts_of_ofText h n).counted.account

/-- Two blocks close for a line whose column fits none. Both markers are due after the fault. -/
theorem blocks_after_inconsistent_dedent :
    ∃ look, ofText {} "if a:\n  if b:\n    c\n d".toList = .ok look ∧
      Scanner.BlockAccount ((.token look.current :: look.scans 12).filterMap Scan.token?)
        (look.after 12).scanner ∧
      (look.scans 12).filterMap Scan.fault? = [Span.empty 21] ∧
      (look.after 12).scanner.dueDedents = 2 := by
  have hfault : ((ofText {} "if a:\n  if b:\n    c\n d".toList).toOption.map fun look =>
      ((look.scans 12).filterMap Scan.fault?, (look.after 12).scanner.dueDedents)) =
        some ([Span.empty 21], 2) := by
    decide +kernel
  rcases hlook : ofText {} "if a:\n  if b:\n    c\n d".toList with error | look
  · rw [hlook] at hfault
    cases hfault
  · rw [hlook, Except.toOption, Option.map_some, Option.some.injEq, Prod.mk.injEq] at hfault
    exact ⟨look, rfl, blocks_of_ofText hlook 12, hfault.1, hfault.2⟩

end Lookahead

end Verbatim
