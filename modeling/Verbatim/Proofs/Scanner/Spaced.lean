import Verbatim.Proofs.Scanner.Order
import Verbatim.Proofs.Scanner.Separate
import Verbatim.Proofs.Tree.Shape

/-!
# Tokens with spaces between them

Lexemes on one line with one space between each two of them are scanned back one by one,
as long as parentheses fit each other and there are no other brackets. The space keeps
neighbours apart and becomes the trivia of the second one.
-/

namespace Verbatim

namespace Face

def Spelled (face : Face) : Prop :=
  Lexeme.read face.text = .ok (face.kind, face.text.length)

instance (face : Face) : Decidable face.Spelled :=
  inferInstanceAs (Decidable (_ = _))

end Face

namespace Text

def spaced (faces : List Face) : Text :=
  [' '].intercalate (faces.map Face.text)

def spacedAfter (faces : List Face) : Text :=
  faces.flatMap fun face => ' ' :: face.text

theorem spaced_cons (face : Face) (faces : List Face) :
    spaced (face :: faces) = face.text ++ spacedAfter faces := by
  induction faces generalizing face with
  | nil => simp [spaced, spacedAfter, List.intercalate]
  | cons next faces ih =>
    have hnext := ih next
    simp only [spaced, List.map_cons, List.intercalate_cons_cons] at hnext ⊢
    rw [hnext]
    simp [spacedAfter]

theorem length_le_spacedAfter (faces : List Face) : faces.length ≤ (spacedAfter faces).length := by
  induction faces with
  | nil => simp
  | cons face faces ih =>
    simp only [spacedAfter, List.flatMap_cons, List.length_append, List.length_cons] at ih ⊢
    omega

end Text

/-- Whether lexemes of a kind reach over no space and do not change the open brackets. -/
def TokenKind.isPlain (kind : TokenKind) : Bool :=
  kind.opens?.isNone && kind.closes?.isNone && kind != .string && kind != .endOfFile

/-- Plain tokens and parentheses that fit, after `depth` open parentheses. -/
inductive Face.Nests : Nat → List Face → Prop
  | nil {depth : Nat} : Nests depth []
  | plain {depth : Nat} {face : Face} {faces : List Face} (hkind : face.kind.isPlain = true)
      (rest : Nests depth faces) : Nests depth (face :: faces)
  | opener {depth : Nat} {face : Face} {faces : List Face} (hkind : face.kind = .leftParen)
      (hdepth : depth < Bracket.maxDepth) (rest : Nests (depth + 1) faces) :
      Nests depth (face :: faces)
  | closer {depth : Nat} {face : Face} {faces : List Face} (hkind : face.kind = .rightParen)
      (rest : Nests depth faces) : Nests (depth + 1) (face :: faces)

namespace Face

theorem Nests.kind_ne {depth : Nat} {face : Face} {faces : List Face}
    (h : Nests depth (face :: faces)) : face.kind ≠ .string ∧ face.kind ≠ .endOfFile := by
  cases h with
  | plain hkind _ =>
    simp only [TokenKind.isPlain, Bool.and_eq_true, bne_iff_ne] at hkind
    exact ⟨hkind.1.2, hkind.2⟩
  | opener hkind _ _ => simp [hkind]
  | closer hkind _ => simp [hkind]

theorem Spelled.text_eq {face : Face} (h : face.Spelled) (hend : face.kind ≠ .endOfFile) :
    ∃ c t, face.text = c :: t ∧ c ∉ Lexeme.separators := by
  unfold Spelled at h
  cases htext : face.text with
  | nil =>
    rw [htext] at h
    have hkind : TokenKind.endOfFile = face.kind := congrArg Prod.fst (Except.ok.inj h)
    exact absurd hkind.symm hend
  | cons c t =>
    refine ⟨c, t, rfl, fun hc => ?_⟩
    rw [htext, Lexeme.read_separator t hc] at h
    cases h

/-- A lexeme is read in front of the tokens that follow it after a space. -/
theorem Spelled.read_append {face : Face} (h : face.Spelled) (hstring : face.kind ≠ .string)
    (hend : face.kind ≠ .endOfFile) (faces : List Face) :
    Lexeme.read (face.text ++ Text.spacedAfter faces) = .ok (face.kind, face.text.length) := by
  cases faces with
  | nil =>
    rw [Text.spacedAfter, List.flatMap_nil, List.append_nil]
    exact h
  | cons next faces =>
    obtain ⟨c, t, htext, _⟩ := h.text_eq hend
    exact Lexeme.read_append_space _ (by simp [htext]) h hstring

end Face

namespace Scanner

/-- The scanner is inside a line at the outermost block, after some open parentheses. -/
structure Inline (s : Scanner) (depth : Nat) : Prop where
  columns : s.columns = []
  scheduled : s.scheduled = .dedents 0
  brackets : s.brackets.map Prod.fst = List.replicate depth .paren
  atLineStart : s.atLineStart = false

variable {s : Scanner} {depth : Nat} {c : Char} {t : Text}

theorem triviaAhead?_eq_none (hrest : s.rest = c :: t) (hc : c ∉ Lexeme.separators) :
    s.triviaAhead? = none := by
  simp only [Lexeme.separators, List.mem_cons, List.not_mem_nil, or_false, not_or] at hc
  obtain ⟨hspace, htab, hfeed, hline, hreturn, hcomment, hslash⟩ := hc
  have hblank : isBlank c = false := by simp [isBlank, hspace, htab, hfeed]
  have hbreak : Text.isLineBreak c = false := by simp [Text.isLineBreak, hline, hreturn]
  unfold triviaAhead?
  rw [hrest]
  simp [hblank, hbreak, hcomment, hslash]

theorem passTrivia_space (hrest : s.rest = ' ' :: c :: t) (hc : c ∉ Lexeme.separators) :
    s.passTrivia = s.keep .whitespace 1 := by
  have hblank : isBlank c = false := by
    simp only [Lexeme.separators, List.mem_cons, not_or] at hc
    simp [isBlank, hc.1, hc.2.1, hc.2.2.1]
  have hblanks : blanks (' ' :: c :: t) = [' '] := by
    rw [blanks, List.takeWhile_cons_of_pos (by decide),
      List.takeWhile_cons_of_neg (by simp [hblank])]
  have hahead : s.triviaAhead? = some (.whitespace, 1) := by
    unfold triviaAhead?
    rw [hrest]
    dsimp only
    rw [if_pos (by decide), hblanks]
    rfl
  have hkept : (s.keep .whitespace 1).rest = c :: t := by
    simp [keep, advance, hrest]
  rw [passTrivia, hrest, List.length_cons, passTriviaUpTo, hahead]
  exact passTriviaUpTo_of_none (triviaAhead?_eq_none hkept hc) _

theorem scanToken_of_read {kind : TokenKind} {n : Nat} (hrest : s.rest = c :: t)
    (hc : c ∉ Lexeme.separators) (hread : Lexeme.read s.rest = .ok (kind, n)) :
    s.scanToken = s.lexeme kind n := by
  simp only [Lexeme.separators, List.mem_cons, List.not_mem_nil, or_false, not_or] at hc
  obtain ⟨_, _, _, hline, hreturn, hcomment, hslash⟩ := hc
  have hbreak : ¬ Text.isLineBreak c = true := by simp [Text.isLineBreak, hline, hreturn]
  unfold scanToken
  rw [hread, hrest]
  dsimp only
  rw [if_neg hcomment, if_neg hslash, if_neg hbreak]

namespace Inline

variable {face : Face} {faces : List Face} {more : Text}

theorem openBracket (h : s.Inline depth) : (s.openBracket .paren).Inline (depth + 1) where
  columns := h.columns
  scheduled := h.scheduled
  brackets := by
    rw [List.replicate_succ, ← h.brackets]
    rfl
  atLineStart := h.atLineStart

theorem closeBracket (h : s.Inline (depth + 1)) : s.closeBracket.Inline depth where
  columns := h.columns
  scheduled := h.scheduled
  brackets := by
    rw [Scanner.closeBracket, List.map_tail, h.brackets]
    rfl
  atLineStart := h.atLineStart

theorem bracketDepth_eq (h : s.Inline depth) : s.bracketDepth = depth := by
  have hlength := congrArg List.length h.brackets
  rwa [List.length_map, List.length_replicate] at hlength

theorem emit (h : s.Inline depth) (hrest : s.rest = face.text ++ more) :
    ∃ token u, s.emit face.kind face.text.length = (.ok token, u) ∧ token.face = face ∧
      u.Inline depth ∧ u.rest = more := by
  refine ⟨_, _, rfl, ?_, ⟨h.columns, h.scheduled, h.brackets, h.atLineStart⟩, ?_⟩
  · simp [Token.face, hrest]
  · simp [advance, hrest]

/-- The next lexeme becomes a token, and its parenthesis is kept account of. -/
theorem lexeme (h : s.Inline depth) (hrest : s.rest = face.text ++ more)
    (hnests : Face.Nests depth (face :: faces)) :
    ∃ token u depth', s.lexeme face.kind face.text.length = (.ok token, u) ∧
      token.face = face ∧ u.Inline depth' ∧ Face.Nests depth' faces ∧ u.rest = more := by
  unfold Scanner.lexeme
  cases hnests with
  | plain hkind rest =>
    obtain ⟨token, u, hemit, hface, hu, hmore⟩ := h.emit hrest
    simp only [TokenKind.isPlain, Bool.and_eq_true, Option.isNone_iff_eq_none] at hkind
    rw [hkind.1.1.1, hkind.1.1.2]
    exact ⟨token, u, depth, hemit, hface, hu, rest, hmore⟩
  | opener hkind hdepth rest =>
    obtain ⟨token, u, hemit, hface, hu, hmore⟩ := h.openBracket.emit hrest
    have hopens : face.kind.opens? = some .paren := TokenKind.opens?_eq_some_iff.mpr hkind
    rw [hopens]
    dsimp only
    rw [if_pos (by rwa [h.bracketDepth_eq])]
    exact ⟨token, u, depth + 1, hemit, hface, hu, rest, hmore⟩
  | @closer depth _ _ hkind rest =>
    obtain ⟨token, u, hemit, hface, hu, hmore⟩ := h.closeBracket.emit hrest
    have hopens : face.kind.opens? = none := by
      rw [hkind]
      decide
    have hcloses : face.kind.closes? = some .paren := TokenKind.closes?_eq_some_iff.mpr hkind
    rw [hopens, hcloses]
    have hbrackets := h.brackets
    cases hopen : s.brackets with
    | nil => simp [hopen, List.replicate_succ] at hbrackets
    | cons bracket outer =>
      rw [hopen, List.replicate_succ] at hbrackets
      obtain ⟨hparen, _⟩ := List.cons.inj hbrackets
      dsimp only
      rw [if_pos hparen]
      exact ⟨token, u, depth, hemit, hface, hu, rest, hmore⟩

end Inline

/-! ## Steps and runs -/

namespace Inline

variable {face : Face} {faces : List Face}

theorem keep (h : s.Inline depth) (kind : TriviaKind) (n : Nat) : (s.keep kind n).Inline depth := by
  unfold Scanner.keep
  split
  · exact h
  · exact ⟨h.columns, h.scheduled, h.brackets, h.atLineStart⟩

theorem next_of_enterLineIfDue {u : Scanner} (h : u.Inline depth)
    (hdue : s.enterLineIfDue = (.ok (), u)) : s.next = u.passTrivia.scanToken := by
  rw [next_of_enterLineIfDue_eq hdue, next_eq_of_atLineStart h.atLineStart, h.scheduled]

theorem next_eq (h : s.Inline depth) : s.next = s.passTrivia.scanToken := by
  rw [next_eq_of_atLineStart h.atLineStart, h.scheduled]

/-- A lexeme is scanned from its first character on. -/
theorem scanToken (h : s.Inline depth) (hrest : s.rest = face.text ++ Text.spacedAfter faces)
    (hspelled : face.Spelled) (hnests : Face.Nests depth (face :: faces)) :
    ∃ token u depth', s.scanToken = (.ok token, u) ∧ token.face = face ∧ u.Inline depth' ∧
      Face.Nests depth' faces ∧ u.rest = Text.spacedAfter faces := by
  obtain ⟨hstring, hend⟩ := hnests.kind_ne
  obtain ⟨c, t, htext, hc⟩ := hspelled.text_eq hend
  have hread := hspelled.read_append hstring hend faces
  have hcons : s.rest = c :: (t ++ Text.spacedAfter faces) := by
    rw [hrest, htext]
    rfl
  rw [← hrest] at hread
  rw [scanToken_of_read hcons hc hread]
  exact h.lexeme hrest hnests

theorem next_cons (h : s.Inline depth) (hrest : s.rest = Text.spacedAfter (face :: faces))
    (hspelled : face.Spelled) (hnests : Face.Nests depth (face :: faces)) :
    ∃ token u depth', s.next = (.ok token, u) ∧ token.face = face ∧ u.Inline depth' ∧
      Face.Nests depth' faces ∧ u.rest = Text.spacedAfter faces := by
  obtain ⟨c, t, htext, hc⟩ := hspelled.text_eq hnests.kind_ne.2
  have hcons : s.rest = ' ' :: (face.text ++ Text.spacedAfter faces) := hrest
  have hspace : s.rest = ' ' :: c :: (t ++ Text.spacedAfter faces) := by
    rw [hcons, htext]
    rfl
  rw [h.next_eq, passTrivia_space hspace hc]
  refine (h.keep .whitespace 1).scanToken ?_ hspelled hnests
  simp [Scanner.keep, advance, hcons]

/-- At the end of the line no block is open, so the text ends there. -/
theorem next_of_rest_nil (h : s.Inline depth) (hrest : s.rest = []) :
    s.next = s.emit .endOfFile 0 := by
  have hpass : s.passTrivia = s := by
    rw [passTrivia, hrest]
    rfl
  rw [h.next_eq, hpass, Scanner.scanToken, hrest]
  dsimp only
  rw [finish, h.columns]

theorem next_nil (h : s.Inline depth) (hrest : s.rest = []) :
    ∃ token u, s.next = (.ok token, u) ∧ token.face = Face.endOfFile := by
  rw [h.next_of_rest_nil hrest]
  exact ⟨_, _, rfl, rfl⟩

theorem run (h : s.Inline depth) (hrest : s.rest = Text.spacedAfter faces)
    (hspelled : ∀ face ∈ faces, face.Spelled) (hnests : Face.Nests depth faces) {n : Nat}
    (hn : faces.length < n) :
    (s.run n).tokens.map Token.face = faces ++ [.endOfFile] ∧ (s.run n).failure = none := by
  induction faces generalizing s depth n with
  | nil =>
    obtain ⟨m, rfl⟩ : ∃ m, n = m + 1 := ⟨n - 1, by omega⟩
    obtain ⟨token, u, hnext, hface⟩ := h.next_nil hrest
    have hkind : token.kind = .endOfFile := congrArg Face.kind hface
    rw [run_succ_of_ok m hnext, if_pos hkind]
    exact ⟨congrArg (fun face => [face]) hface, rfl⟩
  | cons face faces ih =>
    obtain ⟨m, rfl⟩ : ∃ m, n = m + 1 := ⟨n - 1, by omega⟩
    obtain ⟨hhead, htail⟩ := List.forall_mem_cons.mp hspelled
    obtain ⟨token, u, depth', hnext, hface, hu, hnests', hrest'⟩ := h.next_cons hrest hhead hnests
    have hkind : token.kind ≠ .endOfFile := by
      rw [← Token.face_kind, hface]
      exact hnests.kind_ne.2
    rw [List.length_cons] at hn
    obtain ⟨htokens, hfailure⟩ := ih hu hrest' htail hnests' (n := m) (by omega)
    rw [run_succ_of_ok m hnext, if_neg hkind]
    exact ⟨congrArg₂ List.cons hface htokens, hfailure⟩

end Inline

/-- The first line of a source that begins with a lexeme is neither blank nor a comment, and it has
column zero, so no block opens. -/
theorem enterLineIfDue_ofText_eq (options : Options) (t : Text) (hc : c ∉ Lexeme.separators) :
    (ofText options (c :: t)).enterLineIfDue =
      (.ok (), { ofText options (c :: t) with atLineStart := false }) := by
  simp only [Lexeme.separators, List.mem_cons, List.not_mem_nil, or_false, not_or] at hc
  obtain ⟨hspace, htab, hfeed, hline, hreturn, hcomment, _⟩ := hc
  have hblanks : blanks (c :: t) = [] := by
    rw [blanks, List.takeWhile_cons_of_neg (by simp [isBlank, hspace, htab, hfeed])]
  have hlength : commentLength (c :: t) = 0 := by
    rw [commentLength, if_neg (by simp [hcomment])]
  have hbreak : Text.lineBreakLength (c :: t) = 0 := by
    unfold Text.lineBreakLength
    split <;> simp_all
  show enterLine _ { ofText options (c :: t) with atLineStart := false } = _
  rw [enterLine]
  simp [ofText, hblanks, hlength, hbreak, Scanner.keep, measure, columnAfter, column]

theorem enterLineIfDue_ofText (options : Options) (t : Text) (hc : c ∉ Lexeme.separators) :
    ∃ u, (ofText options (c :: t)).enterLineIfDue = (.ok (), u) ∧ u.Inline 0 ∧
      u.rest = c :: t :=
  ⟨_, enterLineIfDue_ofText_eq options t hc, ⟨rfl, rfl, rfl, rfl⟩, rfl⟩

end Scanner

/-- The tokens are scanned back from their texts with single spaces between them. -/
theorem TokenRun.ofText_spaced {faces : List Face} (options : Options)
    (hspelled : ∀ face ∈ faces, face.Spelled) (hnests : Face.Nests 0 faces) (hne : faces ≠ []) :
    (ofText options (Text.spaced faces)).tokens.map Token.face = faces ++ [.endOfFile] ∧
      (ofText options (Text.spaced faces)).failure = none := by
  cases faces with
  | nil => exact absurd rfl hne
  | cons face faces =>
    obtain ⟨hhead, htail⟩ := List.forall_mem_cons.mp hspelled
    obtain ⟨c, t, htext, hc⟩ := hhead.text_eq hnests.kind_ne.2
    have hspaced : Text.spaced (face :: faces) = c :: (t ++ Text.spacedAfter faces) := by
      rw [Text.spaced_cons, htext]
      rfl
    obtain ⟨s, hdue, hs, hrest⟩ :=
      Scanner.enterLineIfDue_ofText options (t ++ Text.spacedAfter faces) hc
    have hpass : s.passTrivia = s :=
      Scanner.passTriviaUpTo_of_none (Scanner.triviaAhead?_eq_none hrest hc) _
    have hrest' : s.rest = face.text ++ Text.spacedAfter faces := by
      rw [hrest, htext]
      rfl
    obtain ⟨token, u, depth, hscan, hface, hu, hnests', hmore⟩ := hs.scanToken hrest' hhead hnests
    have hnext : (Scanner.ofText options (Text.spaced (face :: faces))).next = (.ok token, u) := by
      rw [hspaced, hs.next_of_enterLineIfDue hdue, hpass, hscan]
    have hkind : token.kind ≠ .endOfFile := by
      rw [← Token.face_kind, hface]
      exact hnests.kind_ne.2
    -- the steps of a run suffice, since each lexeme takes a character
    have hsteps : faces.length < 2 * (Text.spaced (face :: faces)).length + 1 := by
      have := Text.length_le_spacedAfter faces
      rw [Text.spaced_cons, List.length_append]
      omega
    obtain ⟨htokens, hfailure⟩ := hu.run hmore htail hnests' hsteps
    rw [TokenRun.ofText, Scanner.run_succ_of_ok _ hnext, if_neg hkind]
    exact ⟨congrArg₂ List.cons hface htokens, hfailure⟩

end Verbatim
