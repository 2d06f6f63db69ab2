import Verbatim.Proofs.Concat.LastBreak
import Verbatim.Proofs.Lines.Text
import Verbatim.Proofs.Scanner.Cut

/-!
# The line breaks in tokens and trivia

Each piece that the scanner takes from its source is of one of four sorts: it holds no line break,
or it is one line break, or one behind a backslash, or a string literal, which ends with a quote.
No piece takes one half of a pair. So line breaks stop at the ends of the second and third sort,
inside string literals, and nowhere else.
-/

namespace Verbatim

open Text (firstLine isLineBreak lineBreakLength Lined)

/-! ## Lexemes -/

namespace Text

variable {t : Text} {n : Nat}

theorem unbroken_of_le_firstLine (h : n ≤ (firstLine t).length) :
    ∀ c ∈ t.take n, isLineBreak c = false := by
  intro c hc
  rw [take_firstLine h] at hc
  simpa using List.mem_takeWhile_imp (List.mem_of_mem_take hc)

end Text

namespace Lexeme

variable {t : Text} {n : Nat} {kind : TokenKind}

theorem le_firstLine_of_number (hne : firstLine t ≠ []) (h : number t = .ok n) :
    n ≤ (firstLine t).length := by
  have hwithin := within_number (firstLine t)
  rw [← eq_firstLine hne fun hc _ u _ => number_append hc _ u, h] at hwithin
  exact hwithin

theorem le_firstLine_of_plain (hne : firstLine t ≠ []) (h : plain t = .ok (kind, n)) :
    n ≤ (firstLine t).length := by
  rw [eq_firstLine hne fun hc _ u hne => plain_append u hc hne] at h
  unfold plain at h
  split at h
  · next hnil => exact absurd hnil hne
  · next c u hcons =>
    split at h
    · cases h
      exact wordLength_le _
    · split at h
      · next hoperator =>
        cases h
        exact operator?_le hoperator
      · cases h

theorem getLast?_take_add {w : Text} {c : Char} {k m : Nat} (hdrop : t.drop k = w)
    (h : (w.take m).getLast? = some c) : (t.take (k + m)).getLast? = some c := by
  rw [List.take_add, hdrop, List.getLast?_append, h]
  rfl

/-- A closed literal ends with a quote. -/
theorem getLast?_stringBody {quote : Char} {width : QuoteWidth} {run : Nat}
    (h : (stringBody quote width run t).closed = true) :
    (t.take (stringBody quote width run t).length).getLast? = some quote := by
  fun_induction stringBody quote width run t with
  | case1 => cases h
  | case2 => rfl
  | case3 run u hmore ih => exact getLast?_take_add (k := 1) rfl (ih h)
  | case4 => cases h
  | case5 run u hquote ih => exact getLast?_take_add (k := 3) rfl (ih h)
  | case6 run c u hpair hquote ih => exact getLast?_take_add (k := 2) rfl (ih h)
  | case7 => cases h
  | case8 run c u hquote hescape hbreak ih => exact getLast?_take_add (k := 1) rfl (ih h)

theorem getLast?_reading {width : QuoteWidth} {quote : Char} {run k : Nat} {w : Text}
    (hdrop : t.drop k = w)
    (h : ((stringBody quote width run w).after k).reading width = .ok n) :
    (t.take n).getLast? = some quote := by
  rw [Extent.reading] at h
  split at h
  · next hclosed =>
    cases h
    exact getLast?_take_add hdrop (getLast?_stringBody hclosed)
  · cases h

theorem getLast?_string {letters : Nat} {quote : Char} {u : Text}
    (hdrop : t.drop letters = quote :: u) (h : string letters (quote :: u) = .ok n) :
    (t.take n).getLast? = some quote := by
  have hdrop' (k : Nat) : t.drop (letters + k) = (quote :: u).drop k := by
    rw [← List.drop_drop, hdrop]
  rw [string] at h
  split at h
  · next hsecond =>
    obtain ⟨v, rfl⟩ := List.head?_eq_some_iff.mp hsecond
    split at h
    · exact getLast?_reading (hdrop' 3) h
    · cases h
      exact getLast?_take_add (m := 2) hdrop rfl
  · exact getLast?_reading (hdrop' 1) h

theorem lined_read {ends : Prop} (hne : firstLine t ≠ []) (h : read t = .ok (kind, n))
    (hends : ¬ ends) : Lined ends (kind = .string) (t.take n) (t.drop n) := by
  rw [read_eq] at h
  split at h
  · obtain ⟨-, hnumber⟩ := kinded_eq_ok_iff.mp h
    have hunbroken := Text.unbroken_of_le_firstLine (le_firstLine_of_number hne hnumber)
    exact Text.lined_of_unbroken hunbroken hends
  · split at h
    · next letters hletters =>
      obtain ⟨rfl, hstring⟩ := kinded_eq_ok_iff.mp h
      have hhead := (lettersAt?_eq_some hletters).2
      cases hrest : t.drop letters with
      | nil => simp [hrest] at hhead
      | cons quote u =>
        have hquote : isQuote quote = true := by simpa [hrest] using hhead
        have hbreak : isLineBreak quote = false := by
          by_contra hbreak
          rw [isQuote_of_isLineBreak (by simpa using hbreak)] at hquote
          cases hquote
        rw [hrest] at hstring
        exact Text.lined_of_getLast? (getLast?_string hrest hstring) hbreak hends rfl
    · exact Text.lined_of_unbroken (Text.unbroken_of_le_firstLine (le_firstLine_of_plain hne h))
        hends

end Lexeme

/-! ## Entries -/

namespace Entry

/-- A line of the source ends with the entry. -/
def EndsLine : Entry → Prop
  | trivia t => t.kind = .newline ∨ t.kind = .lineContinuation
  | token t => t.kind = .newline
  | fault _ _ => False

def IsString : Entry → Prop
  | token t => t.kind = .string
  | _ => False

/-- Where line breaks stop in an entry with a text behind it. -/
def Lined (e : Entry) (after : Text) : Prop :=
  Text.Lined e.EndsLine e.IsString e.text after

/-- The entry is lined where it stands in the source. -/
structure LinedIn (source : Text) (e : Entry) : Prop where
  text : e.EndsLine → e.text ≠ []
  lined : ∀ before after, source = before ++ e.text ++ after → e.span.start = Text.size before →
    e.Lined after

end Entry

namespace Scanner

variable {source passed : Text} {u : Scanner} {kind : TriviaKind}

theorem linedIn_of_lined {e : Entry} {rest : Text} (hsource : source = passed ++ e.text ++ rest)
    (hstart : e.span.start = Text.size passed) (h : e.Lined rest) : e.LinedIn source := by
  constructor
  · intro hends
    exact (h.stop.mpr hends).ne_nil
  · intro before after hsource' hstart'
    rw [hsource, List.append_assoc, List.append_assoc] at hsource'
    obtain ⟨-, hrest⟩ := Text.append_inj_of_size hsource' (hstart.symm.trans hstart')
    rwa [← List.append_cancel_left hrest]

theorem lined_of_trivia {w after : Text} (h : kind.Cuts w after) :
    Text.Lined (kind = .newline ∨ kind = .lineContinuation) False w after := by
  cases h with
  | whitespace ne_nil blank stops =>
    refine Text.lined_of_unbroken (fun c hc => ?_) (by decide)
    by_contra hbreak
    have hblank := blank c hc
    rw [isBlank_of_isLineBreak c (by simpa using hbreak)] at hblank
    cases hblank
  | comment hash fills => exact Text.lined_of_unbroken fills.1 (by decide)
  | newline isBreak => exact Text.lined_of_isBreak isBreak (.inl rfl)
  | lineContinuation isBreak => exact Text.lined_of_isBreak_backslash isBreak (.inr rfl)

theorem lined_of_token {kind : TokenKind} {w after : Text} (h : kind.Cuts w after) :
    Text.Lined (kind = .newline) (kind = .string) w after := by
  cases h with
  | marker isMarker =>
    refine Text.lined_of_unbroken (List.forall_mem_nil _) ?_
    rcases isMarker with rfl | rfl <;> decide
  | endOfFile => exact Text.lined_of_unbroken (List.forall_mem_nil _) (by decide)
  | newline isBreak => exact Text.lined_of_isBreak isBreak rfl
  | typeComment mark fills => exact Text.lined_of_unbroken fills.1 (by decide)
  | @lexeme _ t n ne_nil read =>
    obtain ⟨c, u, rfl⟩ := List.exists_cons_of_ne_nil ne_nil
    have hbreak : isLineBreak c = false := by
      by_contra hbreak
      rw [Lexeme.read_separator u (Lexeme.mem_separators_of_isLineBreak (by simpa using hbreak))]
        at read
      cases read
    have hkind : kind ≠ .newline := by
      rintro rfl
      exact absurd (Lexeme.mem_kinds_of_read read).1 (by decide)
    exact Lexeme.lined_read (by simp [firstLine, hbreak]) read hkind

theorem Steps.linedIn {options : Options} {tokens : List Token}
    (h : (Scanner.ofText options source).Steps tokens u) :
    ∀ token ∈ tokens, (Entry.token token).LinedIn source ∧
      ∀ t ∈ token.leading, (Entry.trivia t).LinedIn source := by
  have hcut := h.attempts.cutFrom.1
  intro token htoken
  obtain ⟨hself, hleading⟩ := hcut token (List.mem_map_of_mem htoken)
  constructor
  · obtain ⟨before, after, hsource, hstart, hcuts⟩ := hself
    exact linedIn_of_lined hsource hstart (lined_of_token hcuts)
  · intro t ht
    obtain ⟨before, after, hsource, hstart, hcuts⟩ := hleading t ht
    exact linedIn_of_lined hsource hstart (lined_of_trivia hcuts)

end Scanner

end Verbatim
