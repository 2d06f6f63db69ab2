import Verbatim.Proofs.Concat.Tokens
import Verbatim.Proofs.Scanner.Cut
import Verbatim.Proofs.Scanner.Spaced

/-!
# From lexemes to tokens

A number, a string or a name is a token because the reader of lexemes says so where the token
stands, also in a run that goes on after faults. And a source that is one lexeme is one token.
-/

namespace Verbatim

namespace Lexeme

variable {t : Text} {kind : TokenKind} {n : Nat}

/-- Numbers and strings have readers of their own. -/
theorem kind_of_plain (h : plain t = .ok (kind, n)) : kind ≠ .number ∧ kind ≠ .string := by
  have hkeywords : ∀ kind ∈ TokenKind.keywords, kind ≠ .number ∧ kind ≠ .string := by decide
  have hoperators : ∀ kind ∈ TokenKind.operators, kind ≠ .number ∧ kind ≠ .string := by decide
  unfold plain at h
  split at h
  · cases h
    decide
  · split at h
    · cases h
      unfold wordKind
      cases hkeyword : TokenKind.keyword? _ with
      | none => decide
      | some kind => exact hkeywords kind (mem_keywords_of_keyword? hkeyword)
    · split at h
      · next hkind =>
        cases h
        exact hoperators _ (mem_operators_of_operator? hkind)
      · cases h

theorem number_of_read (h : read t = .ok (.number, n)) :
    startsNumber t = true ∧ number t = .ok n := by
  rw [read_eq] at h
  split at h
  · next hstarts => exact ⟨hstarts, (kinded_eq_ok_iff.mp h).2⟩
  · split at h
    · cases (kinded_eq_ok_iff.mp h).1
    · exact absurd rfl (kind_of_plain h).1

theorem string_of_read (h : read t = .ok (.string, n)) :
    ∃ letters, lettersAt? t = some letters ∧ string letters (t.drop letters) = .ok n := by
  rw [read_eq] at h
  split at h
  · cases (kinded_eq_ok_iff.mp h).1
  · split at h
    · next letters hletters => exact ⟨letters, hletters, (kinded_eq_ok_iff.mp h).2⟩
    · exact absurd rfl (kind_of_plain h).2

end Lexeme

namespace Scanner

variable {s u : Scanner} {token : Token} {kind : TokenKind} {n : Nat}

/-- The scanner stands in front of a text that its next step scans: the line is entered, and no
marker is due. -/
structure Faces (s : Scanner) (t : Text) : Prop where
  entered : s.enterLineIfDue.1 = .ok ()
  scheduled : s.enterLineIfDue.2.scheduled = .dedents 0
  rest : s.settled.rest = t

theorem Faces.next_eq {t : Text} (h : s.Faces t) : s.next = s.settled.scanToken := by
  obtain ⟨hentered, hscheduled, -⟩ := h
  rcases hdue : s.enterLineIfDue with ⟨result, v⟩
  rw [hdue] at hentered hscheduled
  cases hentered
  dsimp only at hscheduled
  rw [next, settled, hdue]
  dsimp only
  rw [hscheduled, if_pos rfl]

/-- In any run, a token of a lexeme's kind was read from the text that begins where it stands. -/
theorem Attempts.read_of_mem {options : Options} {source : Text} {scans : List Scan}
    (h : (Scanner.ofText options source).Attempts scans u) (hmem : .token token ∈ scans)
    (hkind : token.kind ∈ Lexeme.kinds) :
    ∃ before t n, source = before ++ t ∧ token.span.start = Text.size before ∧
      Lexeme.read t = .ok (token.kind, n) ∧ token.text = t.take n := by
  obtain ⟨⟨before, after, hsource, hstart, hcuts⟩, -⟩ := h.cutFrom.1 token hmem
  obtain ⟨t, n, -, hread, htext, rfl⟩ := hcuts.exists_read hkind
  refine ⟨before, t, n, ?_, hstart, hread, htext⟩
  rw [hsource, htext, List.append_assoc, List.take_append_drop]

/-! ## Sources of one lexeme -/

theorem scanToken_of_fault {fault : Fault} {c : Char} {t : Text} (hrest : s.rest = c :: t)
    (hc : c ∉ Lexeme.separators) (hread : Lexeme.read s.rest = .error fault) :
    s.scanToken = s.fail fault := by
  simp only [Lexeme.separators, List.mem_cons, List.not_mem_nil, or_false, not_or] at hc
  obtain ⟨-, -, -, hline, hreturn, hcomment, hslash⟩ := hc
  have hbreak : ¬ Text.isLineBreak c = true := by simp [Text.isLineBreak, hline, hreturn]
  rw [scanToken_lexeme hrest hcomment hslash hbreak, hread]

theorem lexeme_eq_emit (hopens : kind.opens? = none) (hcloses : kind.closes? = none) (n : Nat) :
    s.lexeme kind n = s.emit kind n := by
  rw [lexeme, hopens, hcloses]

end Scanner

open Scanner in
/-- A source that is one lexeme, and no bracket, is one token in front of the end of the text. -/
theorem tokenize_of_read {t : Text} {kind : TokenKind} (options : Options)
    (hread : Lexeme.read t = .ok (kind, t.length)) (hend : kind ≠ .endOfFile)
    (hopens : kind.opens? = none) (hcloses : kind.closes? = none) :
    tokenize options t =
      .ok [⟨kind, .sized 0 t.size, [], t⟩, ⟨.endOfFile, .empty t.size, [], []⟩] := by
  have hspelled : Face.Spelled ⟨kind, t⟩ := hread
  obtain ⟨c, u, htext, hc⟩ := hspelled.text_eq hend
  obtain rfl : t = c :: u := htext
  let s : Scanner := { ofText options (c :: u) with atLineStart := false }
  let z : Scanner := { s.advance (c :: u).length with waiting := [] }
  have htake : (c :: u).take (c :: u).length = c :: u := List.take_length
  have hfirst : (ofText options (c :: u)).next =
      (.ok ⟨kind, .sized 0 (Text.size (c :: u)), [], c :: u⟩, z) := by
    have hinline : s.Inline 0 := ⟨rfl, rfl, rfl, rfl⟩
    have hemit : s.emit kind (c :: u).length =
        (.ok ⟨kind, .sized 0 (Text.size ((c :: u).take (c :: u).length)), [],
          (c :: u).take (c :: u).length⟩, z) := rfl
    rw [hinline.next_of_enterLineIfDue (enterLineIfDue_ofText_eq options u hc),
      passTrivia_of_none (triviaAhead?_eq_none rfl hc), scanToken_of_read rfl hc hread,
      lexeme_eq_emit hopens hcloses, hemit, htake]
  have hdone : z.Inline 0 := ⟨rfl, rfl, rfl, rfl⟩
  have hlast : z.next = z.emit .endOfFile 0 := hdone.next_of_rest_nil List.drop_length
  have hspan : z.spanOfNext 0 = .empty (Text.size (c :: u)) := by
    have hoffset : z.offset = 0 + Text.size ((c :: u).take (c :: u).length) := rfl
    rw [spanOfNext, hoffset, htake, Nat.zero_add]
    rfl
  have hscans := Scans.step hfirst hend (.done hlast rfl)
  obtain ⟨htokens, hfailure⟩ := (TokenRun.scans options (c :: u)).unique hscans
  rw [TokenRun.tokenize_eq_ok_iff]
  refine ⟨hfailure, htokens.trans ?_⟩
  rw [hspan]
  rfl

end Verbatim
