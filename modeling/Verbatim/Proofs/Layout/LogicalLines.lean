import Verbatim.Proofs.Errors
import Verbatim.Proofs.Layout.Filled

/-!
# Lines with nothing in them

The line break that ends a logical line comes behind a token of the line: blank lines and comment
lines are passed over before a line is entered. What is passed over there are physical lines. A
line that goes on behind a backslash has been entered, and if nothing but blanks comes after the
backslash its line break is a token with no token of the line in front of it. The trivia of the
line break tells such a line from all others.
-/

namespace Verbatim

namespace Token

/-- A logical line can begin behind the token. -/
def Precedes (token : Token) : Prop :=
  token.kind = .newline ∨ token.kind = .indent ∨ token.kind = .dedent

/-- Where a logical line begins there is no line break, unless a joined line is in front. -/
def LinesFilled (tokens : List Token) : Prop :=
  tokens.IsChain fun a b => a.Precedes → b.kind = .newline → b.Continues

/-- A line break that ends no joined line follows a token of its line. -/
theorem LinesFilled.exists_of_append {before after : List Token} {token : Token}
    (h : LinesFilled (before ++ token :: after)) (hfirst : before ≠ [])
    (hkind : token.kind = .newline) (hjoined : ¬ token.Continues) :
    ∃ init previous, before = init ++ [previous] ∧ ¬ previous.Precedes := by
  rcases List.eq_nil_or_concat before with rfl | ⟨init, previous, rfl⟩
  · exact absurd rfl hfirst
  · refine ⟨init, previous, List.concat_eq_append, fun hprecedes => hjoined ?_⟩
    rw [List.concat_eq_append, List.append_assoc] at h
    have hpair := (List.isChain_cons_cons.mp (List.IsChain.right_of_append h)).1
    exact hpair hprecedes hkind

end Token

namespace Scanner

variable {s u : Scanner} {token : Token}

/-! ## Where a logical line begins -/

/-- The text does not go on with what a blank line or a comment line begins with. -/
def AtText (s : Scanner) : Prop :=
  ∀ c ∈ s.rest.head?, isBlank c = false ∧ c ≠ '#' ∧ Text.isLineBreak c = false

theorem AtText.of_rest_eq_nil (h : s.rest = []) : s.AtText := by
  simp [AtText, h]

theorem AtText.of_rest_eq (h : s.AtText) (hrest : u.rest = s.rest) : u.AtText := by
  rwa [AtText, hrest]

theorem isLineBreak_head {t : Text} (h : Text.lineBreakLength t = 0) :
    ∀ c ∈ t.head?, Text.isLineBreak c = false := by
  intro c hc
  obtain ⟨u, rfl⟩ := List.head?_eq_some_iff.mp hc
  by_contra hbreak
  have hpos := lineBreakLength_pos (t := u) (Bool.not_eq_false _ ▸ hbreak)
  omega

/-- The line that is measured is neither blank nor a comment. -/
theorem atText_enterLine (n : Nat) (s : Scanner) (hfuel : s.rest.length < n) :
    (enterLine n s).2.AtText := by
  induction n generalizing s with
  | zero => omega
  | succ n ih =>
    unfold enterLine
    dsimp only
    have hrest := s.rest_keep .whitespace (blanks s.rest).length
    generalize s.keep .whitespace (blanks s.rest).length = u at hrest ⊢
    have hrest' := u.rest_keep .comment (commentLength u.rest)
    generalize u.keep .comment (commentLength u.rest) = v at hrest' ⊢
    split
    · next hbreak =>
      have hplace : v.AtText := by
        by_cases hend : v.rest = []
        · exact .of_rest_eq_nil hend
        · intro c hc
          have hnewline := isLineBreak_head hbreak c hc
          rw [hrest'] at hbreak hend hc
          have hcomment := commentLength_eq_zero hbreak hend
          rw [hcomment, List.drop_zero] at hc
          refine ⟨?_, ?_, hnewline⟩
          · rw [hrest, blanks, drop_length_takeWhile] at hc
            exact isBlank_head_dropWhile c hc
          · rintro rfl
            have hpos := commentLength_pos hc
            omega
      split
      · exact hplace.of_rest_eq v.samePlace_closeBlocks.rest
      · exact hplace.of_rest_eq (v.samePlace_measure _).rest
    · next k hbreak =>
      have hne : v.rest.length ≠ 0 := by
        intro hnil
        rw [List.length_eq_zero_iff.mp hnil] at hbreak
        cases hbreak
      apply ih
      rw [rest_keep, List.length_drop]
      rw [hrest', List.length_drop] at hne ⊢
      rw [hrest, List.length_drop] at hne ⊢
      omega

/-- No token of the logical line has been given. -/
def Fresh (s : Scanner) : Prop :=
  s.atLineStart = true ∨ s.AtText

/-- Markers wait in front of a line, never inside one. -/
def MarksLine (s : Scanner) : Prop :=
  s.scheduled ≠ .dedents 0 → s.AtText

theorem MarksLine.enter (hmarks : s.MarksLine) (h : s.enterLineIfDue = (.ok (), u)) :
    u.MarksLine ∧ (s.Fresh → u.AtText) := by
  unfold enterLineIfDue at h
  split at h
  · have hplace := atText_enterLine (s.rest.length + 1) { s with atLineStart := false }
      (Nat.lt_succ_self _)
    rw [h] at hplace
    exact ⟨fun _ => hplace, fun _ => hplace⟩
  · next hstart =>
    cases h
    exact ⟨hmarks, fun hfresh => hfresh.resolve_left hstart⟩

/-! ## Line breaks -/

/-- Behind a line break a line begins, and block markers stand in front of one. -/
theorem fresh_of_precedes (hstart : s.atLineStart = false) (hmarks : s.MarksLine)
    (h : s.next = (.ok token, u)) : u.MarksLine ∧ (token.Precedes → u.Fresh) := by
  rw [next_eq_of_atLineStart hstart] at h
  split at h
  · next hscheduled =>
    cases h
    have hplace : s.AtText := hmarks (by simp [hscheduled])
    exact ⟨fun _ => hplace, fun _ => .inr hplace⟩
  · next n hscheduled =>
    cases h
    have hplace : s.AtText := hmarks (by simp [hscheduled])
    exact ⟨fun _ => hplace, fun _ => .inr hplace⟩
  · next hscheduled =>
    obtain ⟨-, same, stops⟩ := s.settles_passTrivia
    have hscheduled := same.scheduled.trans hscheduled
    rcases scanToken_eq_ok stops (same.atLineStart.trans hstart) hscheduled h with
      htakes | ⟨hended, -⟩
    · refine ⟨fun hdue => absurd (htakes.scheduled.trans hscheduled) hdue, fun hprecedes => .inl ?_⟩
      have hwidth := htakes.isZeroWidth
      rcases hprecedes with hkind | hkind | hkind
      · rw [htakes.atLineStart, hkind]
        rfl
      · simp [hkind, TokenKind.isZeroWidth] at hwidth
      · simp [hkind, TokenKind.isZeroWidth] at hwidth
    · have hplace : u.AtText := .of_rest_eq_nil hended.rest
      exact ⟨fun _ => hplace, fun _ => .inr hplace⟩

theorem kind_of_lexeme {kind : TokenKind} {n : Nat} (h : s.lexeme kind n = (.ok token, u)) :
    token.kind = kind := by
  unfold lexeme at h
  split at h
  · split at h
    · cases h
      rfl
    · cases h
  · split at h
    · cases h
    · split at h
      · cases h
        rfl
      · cases h
  · cases h
    rfl

/-- No lexeme is a line break. -/
theorem AtText.scanToken_ne_newline (hs : s.AtText) (h : s.scanToken = (.ok token, u)) :
    token.kind ≠ .newline := by
  unfold scanToken at h
  split at h
  · unfold finish at h
    split at h <;> cases h <;> simp [marker]
  · next c t hrest =>
    obtain ⟨-, hhash, hbreak⟩ := hs c (by rw [hrest]; rfl)
    rw [if_neg hhash] at h
    split at h
    · cases h
    · rw [if_neg (by simp [hbreak])] at h
      split at h
      · next kind n hread =>
        rw [hrest] at hread
        have hstructural := (Lexeme.read_eq_ok hread).1
        intro hkind
        rw [← kind_of_lexeme h, hkind] at hstructural
        cases hstructural
      · cases h

theorem AtText.triviaAhead?_eq_some {kind : TriviaKind} {n : Nat} (hs : s.AtText)
    (h : s.triviaAhead? = some (kind, n)) : kind = .lineContinuation := by
  unfold Scanner.triviaAhead? at h
  split at h
  · cases h
  · next c t hrest =>
    obtain ⟨hblank, hhash, hbreak⟩ := hs c (by rw [hrest]; rfl)
    rw [if_neg (by simp [hblank]), if_neg hhash] at h
    split at h
    · split at h
      · cases h
      · cases h
        rfl
    · simp [hbreak] at h

/-- Only a joined line comes in front of the line break of a line without a token. -/
theorem AtText.continues (hs : s.AtText) (hstart : s.atLineStart = false)
    (h : s.next = (.ok token, u)) (hkind : token.kind = .newline) : token.Continues := by
  have houtcome := s.outcome_next
  rw [h] at houtcome
  rw [next_eq_of_atLineStart hstart] at h
  split at h
  · cases h
    cases hkind
  · cases h
    cases hkind
  · next hscheduled =>
    have hsettled : s.settled = s.passTrivia := by
      simp [settled, enterLineIfDue, hstart, hscheduled]
    cases hahead : s.triviaAhead? with
    | none =>
      rw [passTrivia_of_none hahead] at h
      exact absurd hkind (hs.scanToken_ne_newline h)
    | some ahead =>
      obtain ⟨kind, n⟩ := ahead
      obtain ⟨t, ht, htkind⟩ := mem_waiting_passTrivia hahead
      refine ⟨t, ?_, htkind.trans (hs.triviaAhead?_eq_some hahead)⟩
      rw [← hsettled] at ht
      cases houtcome with
      | marker kind isMarker =>
        rcases isMarker with rfl | rfl <;> cases hkind
      | lexeme => exact ht

/-! ## Runs -/

theorem MarksLine.next (hmarks : s.MarksLine) (h : s.next = (.ok token, u)) :
    u.MarksLine ∧ (token.Precedes → u.Fresh) ∧
      (s.Fresh → token.kind = .newline → token.Continues) := by
  have hdue := enterLineIfDue_of_next h
  have hstart := s.atLineStart_enterLineIfDue
  rcases henter : s.enterLineIfDue with ⟨result, v⟩
  rw [henter] at hdue hstart
  obtain rfl : result = .ok () := hdue
  rw [next_of_enterLineIfDue_eq henter] at h
  obtain ⟨hmarks', hfresh⟩ := hmarks.enter henter
  obtain ⟨hafter, hprecedes⟩ := fresh_of_precedes hstart hmarks' h
  exact ⟨hafter, hprecedes, fun hs hkind => (hfresh hs).continues hstart h hkind⟩

theorem Scans.linesFilled {tokens : List Token} {failure : Option LexicalError}
    (h : s.Scans tokens failure) (hmarks : s.MarksLine) :
    Token.LinesFilled tokens ∧
      (s.Fresh → ∀ first ∈ tokens.head?, first.kind = .newline → first.Continues) := by
  induction h with
  | fault => exact ⟨List.IsChain.nil, by simp⟩
  | done hnext =>
    obtain ⟨-, -, hcontinues⟩ := hmarks.next hnext
    refine ⟨List.IsChain.singleton _, fun hs first hfirst => ?_⟩
    cases hfirst
    exact hcontinues hs
  | @step s u token tokens failure hnext hkind _ ih =>
    obtain ⟨hafter, hprecedes, hcontinues⟩ := hmarks.next hnext
    obtain ⟨htail, hhead⟩ := ih hafter
    constructor
    · cases tokens with
      | nil => exact List.IsChain.singleton _
      | cons second rest =>
        refine List.isChain_cons_cons.mpr ⟨fun hfirst => ?_, htail⟩
        exact hhead (hprecedes hfirst) second rfl
    · intro hs first hfirst
      cases hfirst
      exact hcontinues hs

end Scanner

/-! ## Statements -/

namespace Grammar

/-- No statement begins with a line break: where one should begin, the parse fails. -/
theorem statement_newline {s : Stream} (h : s.current.kind = .newline) :
    ∃ cause, statement s = .error (.syntactic ⟨cause, s.current⟩) :=
  statement_error_of_kind h fun _ => ⟨.expectedAtom, rfl⟩

end Grammar

/-- A line break that ends no joined line stands behind a token of its line. So a parse that meets
a line break where a statement should begin meets one of a joined line. -/
theorem newline_follows_token {options : Options} {t : Text} {tokens : List Token}
    (h : tokenize options t = .ok tokens) :
    (∀ before token after, tokens = before ++ token :: after → token.kind = .newline →
      ¬ token.Continues → ∃ init previous, before = init ++ [previous] ∧ ¬ previous.Precedes) ∧
    (∀ e, parseModule options t = .error (.syntactic e) → e.token.kind = .newline →
      ¬ e.token.Continues → ∃ init previous after,
        tokens = init ++ previous :: e.token :: after ∧ ¬ previous.Precedes) ∧
    ∀ s : Stream, s.current.kind = .newline →
      ∃ cause, Grammar.statement s = .error (.syntactic ⟨cause, s.current⟩) := by
  obtain ⟨-, rfl⟩ := TokenRun.tokenize_eq_ok_iff.mp h
  have hmarks : (Scanner.ofText options t).MarksLine := fun hdue => absurd rfl hdue
  obtain ⟨hlines, hfirst⟩ := (TokenRun.scans options t).linesFilled hmarks
  have hfollows (before : List Token) (token : Token) (after : List Token)
      (htokens : (TokenRun.ofText options t).tokens = before ++ token :: after)
      (hkind : token.kind = .newline) (hjoined : ¬ token.Continues) :
      ∃ init previous, before = init ++ [previous] ∧ ¬ previous.Precedes := by
    rw [htokens] at hlines hfirst
    refine hlines.exists_of_append ?_ hkind hjoined
    rintro rfl
    exact hjoined (hfirst (.inl rfl) token rfl hkind)
  refine ⟨hfollows, ?_, fun s => Grammar.statement_newline⟩
  intro e herror hkind hjoined
  have hreaches := TokenRun.parse_reaches .module options t
  rw [show EntryPoint.parse .module options t = .error (.syntactic e) from herror] at hreaches
  cases hreaches with
  | syntactic _ ht =>
    obtain ⟨before, after, htokens⟩ := List.append_of_mem (List.mem_of_getElem? ht)
    obtain ⟨init, previous, rfl, hprevious⟩ := hfollows before e.token after htokens hkind hjoined
    refine ⟨init, previous, after, ?_, hprevious⟩
    rw [htokens, List.append_assoc]
    rfl

/-- A blank line, a comment line and a joined line with a token. -/
theorem newline_follows_token_of_lines :
    ∃ tokens, tokenize {} "a\n\n # b\n\\\nc\n".toList = .ok tokens ∧
      tokens.map Token.kind = [.name, .newline, .name, .newline, .endOfFile] ∧
      ∀ before token after, tokens = before ++ token :: after → token.kind = .newline →
        ¬ token.Continues → ∃ init previous, before = init ++ [previous] ∧ ¬ previous.Precedes := by
  have hkinds : (tokenize {} "a\n\n # b\n\\\nc\n".toList).toOption.map (List.map Token.kind) =
      some [.name, .newline, .name, .newline, .endOfFile] := by
    decide +kernel
  rcases htokens : tokenize {} "a\n\n # b\n\\\nc\n".toList with error | tokens
  · rw [htokens] at hkinds
    cases hkinds
  · rw [htokens, Except.toOption, Option.map_some, Option.some.injEq] at hkinds
    exact ⟨tokens, rfl, hkinds, (newline_follows_token htokens).1⟩

/-- A backslash alone on its line, with a blank line behind it. -/
theorem newline_of_joined_line :
    ∃ tokens e, tokenize {} "x\n\\\n\ny\n".toList = .ok tokens ∧
      tokens.map Token.kind = [.name, .newline, .newline, .name, .newline, .endOfFile] ∧
      parseModule {} "x\n\\\n\ny\n".toList = .error (.syntactic e) ∧
      tokens[2]? = some e.token := by
  have hkinds : (tokenize {} "x\n\\\n\ny\n".toList).toOption.map
      (fun tokens => (tokens.map Token.kind, tokens[2]?)) =
        some ([.name, .newline, .newline, .name, .newline, .endOfFile],
          some ⟨.newline, .sized 4 1, [⟨.lineContinuation, .sized 2 2, ['\\', '\n']⟩],
            ['\n']⟩) := by
    decide +kernel
  have herror {source : Text} {e : ParseError}
      (h : (TokenRun.ofText {} source).error? Grammar.moduleRoot = some e) :
      parseModule {} source = .error e :=
    TokenRun.error?_eq_some_iff.mp h
  have hparse : parseModule {} "x\n\\\n\ny\n".toList = .error (.syntactic ⟨.expectedAtom,
      .newline, .sized 4 1, [⟨.lineContinuation, .sized 2 2, ['\\', '\n']⟩], ['\n']⟩) := by
    apply herror
    decide +kernel
  rcases htokens : tokenize {} "x\n\\\n\ny\n".toList with error | tokens
  · rw [htokens] at hkinds
    cases hkinds
  · rw [htokens] at hkinds
    obtain ⟨hkinds, hthird⟩ := Prod.mk.inj (Option.some.inj hkinds)
    exact ⟨tokens, _, rfl, hkinds, hparse, hthird⟩

end Verbatim
