import Verbatim.Proofs.Layout.Markers
import Verbatim.Proofs.Scanner.Faults
import Verbatim.Proofs.Scanner.Partition

/-!
# Every call makes progress

A lookahead that is asked for tokens again and again comes to the end of the text, whether or not
some of the calls fail. What is left to do is a number: two for each byte that is left, which can
open a block and be a token, and one for each open block and each marker that is due. A call makes
it smaller unless it comes to `endOfFile`. Past the end nothing changes any more.
-/

namespace Verbatim

namespace Scanner

variable {s u : Scanner} {token : Token}

/-- What is left to do: bytes, blocks to close and markers to give. -/
def budget (s : Scanner) : Nat :=
  2 * Text.size s.rest + s.blockDepth + s.dueIndents + s.dueDedents

theorem load_eq (s : Scanner) :
    s.load = 2 * s.rest.length + s.blockDepth + s.dueIndents + s.dueDedents := by
  rw [load, dueIndents, dueDedents, blockDepth]
  cases s.scheduled with
  | indent => rfl
  | dedents n => rfl

/-- No step goes back in the text. -/
theorem passes_next (s : Scanner) : ∃ t, s.Passes t s.next.2 := by
  obtain ⟨ts, hgathers⟩ := s.gathers_settled
  have hsettled := hgathers.passes
  have houtcome := s.outcome_next
  generalize s.next = step at houtcome ⊢
  have hpass {t : Text} (h : s.settled.Passes t step.2) :
      s.Passes (Trivia.spelled ts ++ t) step.2 := by
    constructor
    · rw [hsettled.rest, h.rest, List.append_assoc]
    · rw [h.offset, hsettled.offset, Text.size_append, Nat.add_assoc]
  cases houtcome with
  | marker kind isMarker place => exact ⟨_, hpass (t := []) ⟨place.rest.symm, place.offset⟩⟩
  | lexeme kind t noMarker passes => exact ⟨_, hpass passes⟩
  | fault error t passes => exact ⟨_, hpass passes⟩

/-- A character has at least one byte, so what holds for characters holds for bytes. -/
theorem budget_lt_of_load_lt {t : Text} (hpass : s.Passes t u) (h : u.load < s.load) :
    u.budget < s.budget := by
  have hbytes := Text.length_le_size t
  rw [load_eq, load_eq, hpass.rest, List.length_append] at h
  rw [budget, budget, hpass.rest, Text.size_append]
  omega

/-- What a fault closes becomes due, and the text that it takes is gone. -/
theorem Turn.load_fault_lt {error : LexicalError} (h : s.Turn (.error error, u))
    (hshorter : u.rest.length < s.rest.length) : u.load < s.load := by
  cases h with
  | fault closed columns before scheduled =>
    have hlength := congrArg List.length columns
    rw [List.length_append] at hlength
    simp only [load, before, scheduled]
    omega

theorem Steady.budget_next_lt (hs : s.Steady)
    (h : ∀ token, s.next.1 = .ok token → token.kind ≠ .endOfFile) :
    s.next.2.budget < s.budget := by
  obtain ⟨t, hpass⟩ := s.passes_next
  refine budget_lt_of_load_lt hpass ?_
  have hturn := hs.turn
  rcases hnext : s.next with ⟨result, u⟩
  rw [hnext] at h hturn
  cases result with
  | ok token => exact load_next_lt hnext (h token rfl)
  | error error => exact hturn.load_fault_lt (length_rest_next_lt hnext)

/-- Each block that is open and each `dedent` that is due stands for a byte that was passed. -/
theorem Steady.pending_next_le (hs : s.Steady) :
    Text.size s.next.2.rest + s.next.2.blockDepth + s.next.2.dueDedents ≤
      Text.size s.rest + s.blockDepth + s.dueDedents := by
  obtain ⟨t, hpass⟩ := s.passes_next
  have hbytes := Text.length_le_size t
  have hturn := hs.turn
  rcases hnext : s.next with ⟨result, u⟩
  rw [hnext] at hturn hpass
  dsimp only at hpass ⊢
  have hlength := congrArg List.length hpass.rest
  rw [List.length_append] at hlength
  rw [hpass.rest, Text.size_append]
  cases hturn with
  | @indent _ token column kind columns deeper before scheduled =>
    -- the marker of a block does not come for free: its line has blanks in front
    have hlt := load_next_lt hnext (by simp [kind])
    simp only [load, before, scheduled, columns, List.length_cons] at hlt
    simp only [blockDepth, dueDedents, before, scheduled, columns, List.length_cons]
    omega
  | dedent closed kind columns before scheduled due =>
    simp only [blockDepth, dueDedents, before, scheduled, columns, List.length_append]
    omega
  | token takes =>
    simp only [blockDepth, dueDedents, takes.before, takes.scheduled, takes.columns]
    omega
  | fault closed columns before scheduled =>
    simp only [blockDepth, dueDedents, before, scheduled, columns, List.length_append]
    omega

theorem Finished.next_eq_ok (h : s.Finished) :
    ∃ token u, s.next = (.ok token, u) ∧ token.kind = .endOfFile := by
  have hpass : s.passTrivia = s := by simp [passTrivia, h.rest, passTriviaUpTo]
  rw [next_eq_of_atLineStart h.atLineStart, h.scheduled]
  dsimp only
  rw [hpass, scanToken, h.rest]
  dsimp only
  rw [finish, h.columns]
  exact ⟨_, _, rfl, rfl⟩

end Scanner

namespace Partition

variable {source : Text} {scans : List Scan} {s : Scanner} {entries : List Entry}

theorem slice_token {token : Token} (h : Partition source scans s entries)
    (htoken : token ∈ scans.filterMap Scan.token?) :
    source.slice? token.span = some token.text := by
  rw [← h.tokens] at htoken
  obtain ⟨e, he, heq⟩ := List.mem_filterMap.mp htoken
  cases e with
  | token token' =>
    cases heq
    exact h.slices _ he
  | trivia => cases heq
  | fault => cases heq

theorem slice_trivia {t : Trivia} (h : Partition source scans s entries)
    (ht : t ∈ (scans.filterMap Scan.token?).flatMap Token.leading ++ s.waiting) :
    source.slice? t.span = some t.text := by
  rw [← h.trivia] at ht
  obtain ⟨e, he, heq⟩ := List.mem_filterMap.mp ht
  cases e with
  | trivia t' =>
    cases heq
    exact h.slices _ he
  | token => cases heq
  | fault => cases heq

theorem slice_fault {range : Span} (h : Partition source scans s entries)
    (hrange : range ∈ scans.filterMap Scan.fault?) : (source.slice? range).isSome = true := by
  rw [← h.faults] at hrange
  obtain ⟨e, he, heq⟩ := List.mem_filterMap.mp hrange
  cases e with
  | fault range' text =>
    cases heq
    rw [show source.slice? range = some text from h.slices _ he]
    rfl
  | trivia => cases heq
  | token => cases heq

end Partition

namespace Lookahead

open Scanner

variable {options : Options} {source : Text} {look : Lookahead}

theorem after_succ (n : Nat) (look : Lookahead) :
    look.after (n + 1) = (look.after n).advance.2 := by
  induction n generalizing look with
  | zero => rfl
  | succ n ih => exact ih look.advance.2

theorem scans_succ (n : Nat) (look : Lookahead) :
    look.scans (n + 1) = look.scans n ++ [(look.after n).scan] := by
  induction n generalizing look with
  | zero => rfl
  | succ n ih =>
    rw [scans, ih, scans]
    rfl

theorem advance_eq_of_ok {token : Token} {u : Scanner} (h : look.scanner.next = (.ok token, u)) :
    look.advance = (.ok look.current, ⟨u, token⟩) := by
  rw [advance, h]

theorem advance_eq_of_error {error : LexicalError} {u : Scanner}
    (h : look.scanner.next = (.error error, u)) :
    look.advance = (.error error, { look with scanner := u }) := by
  rw [advance, h]

theorem steady_after (h : ofText options source = .ok look) (n : Nat) :
    (look.after n).scanner.Steady :=
  (attempts_of_ofText h n).steady

/-! ## Down to the end of the text -/

/-- A call that fails, or that does not come to the end, makes what is left to do smaller. -/
theorem budget_after_lt (h : ofText options source = .ok look) {n : Nat}
    (hcall : (∃ error, (look.after n).advance.1 = .error error) ∨
      (look.after (n + 1)).current.kind ≠ .endOfFile) :
    (look.after (n + 1)).scanner.budget < (look.after n).scanner.budget := by
  rw [after_succ, scanner_advance]
  refine (steady_after h n).budget_next_lt fun token htoken hend => ?_
  rcases hnext : (look.after n).scanner.next with ⟨result, u⟩
  rw [hnext] at htoken
  obtain rfl : result = .ok token := htoken
  rw [after_succ, advance_eq_of_ok hnext] at hcall
  rcases hcall with ⟨error, herror⟩ | hne
  · cases herror
  · exact hne hend

/-- The first token has been taken by the time a lookahead is there. -/
theorem budget_ofText_lt (h : ofText options source = .ok look)
    (hkind : look.current.kind ≠ .endOfFile) : look.scanner.budget < 2 * source.size := by
  have hnext := ofText_eq_ok h
  have hlt := (steady_ofText options source).budget_next_lt fun token htoken => by
    rw [hnext] at htoken
    cases htoken
    exact hkind
  rwa [hnext] at hlt

theorem budget_after_add_lt (h : ofText options source = .ok look) (n : Nat)
    (hne : ∀ k ≤ n, (look.after k).current.kind ≠ .endOfFile) :
    (look.after n).scanner.budget + n < 2 * source.size := by
  induction n with
  | zero => exact budget_ofText_lt h (hne 0 (Nat.le_refl 0))
  | succ n ih =>
    have hbefore := ih fun k hk => hne k (Nat.le_succ_of_le hk)
    have hlt := budget_after_lt h (.inr (hne (n + 1) (Nat.le_refl _)))
    omega

theorem exists_endOfFile (h : ofText options source = .ok look) :
    ∃ k ≤ 2 * source.size, (look.after k).current.kind = .endOfFile := by
  by_contra hnone
  have hlt := budget_after_add_lt h (2 * source.size) fun k hk hend => hnone ⟨k, hk, hend⟩
  omega

/-! ## At the end of the text -/

/-- Once `endOfFile` is current, the scanner can give nothing else. -/
structure Done (source : Text) (look : Lookahead) : Prop where
  kind : look.current.kind = .endOfFile
  span : look.current.span = Span.empty source.size
  finished : look.scanner.Finished

theorem span_endOfFile {scans : List Scan} {s u : Scanner} {entries : List Entry} {token : Token}
    (h : Accounts source scans s entries) (hnext : s.next = (.ok token, u))
    (hkind : token.kind = .endOfFile) : token.span = Span.empty source.size := by
  obtain ⟨more, hsettled⟩ := h.settled
  have houtcome := s.outcome_next
  rw [hnext] at houtcome
  cases houtcome with
  | marker kind isMarker =>
    have hkind : kind = .endOfFile := hkind
    rw [hkind] at isMarker
    rcases isMarker with hmarker | hmarker <;> cases hmarker
  | lexeme kind t noMarker passes _ _ _ takes atEnd =>
    have hnil := takes.mpr hkind
    have hrest : s.settled.rest = [] := by
      rw [passes.rest, hnil, atEnd hkind]
      rfl
    have hsource := hsettled.source_eq
    rw [hrest, List.append_nil] at hsource
    rw [hnil, hsettled.offset, ← hsource]
    rfl

theorem done_of_next {scans : List Scan} {s u : Scanner} {entries : List Entry} {token : Token}
    (h : Accounts source scans s entries) (hs : s.Steady) (hnext : s.next = (.ok token, u))
    (hkind : token.kind = .endOfFile) : Done source ⟨u, token⟩ := by
  have hturn := hs.turn
  rw [hnext] at hturn
  exact ⟨hkind, span_endOfFile h hnext hkind, hturn.finished hkind⟩

theorem done_after (h : ofText options source = .ok look) (n : Nat)
    (hkind : (look.after n).current.kind = .endOfFile) : Done source (look.after n) := by
  induction n with
  | zero =>
    exact done_of_next (.start options source) (steady_ofText options source) (ofText_eq_ok h) hkind
  | succ n ih =>
    obtain ⟨entries, haccounts⟩ := accounts_of_ofText h n
    rw [after_succ] at hkind ⊢
    rcases hnext : (look.after n).scanner.next with ⟨result, u⟩
    cases result with
    | ok token =>
      rw [advance_eq_of_ok hnext] at hkind ⊢
      exact done_of_next haccounts (steady_after h n) hnext hkind
    | error error =>
      rw [advance_eq_of_error hnext] at hkind
      obtain ⟨token, v, hok, -⟩ := (ih hkind).finished.next_eq_ok
      rw [hnext] at hok
      cases hok

theorem Done.advance (h : Done source look) :
    look.advance.1 = .ok look.current ∧ look.advance.2.current.kind = .endOfFile := by
  obtain ⟨token, u, hnext, hkind⟩ := h.finished.next_eq_ok
  rw [advance_eq_of_ok hnext]
  exact ⟨rfl, hkind⟩

theorem endOfFile_stays (h : ofText options source = .ok look) {k n : Nat} (hle : k ≤ n)
    (hkind : (look.after k).current.kind = .endOfFile) :
    (look.after n).current.kind = .endOfFile := by
  induction n, hle using Nat.le_induction with
  | base => exact hkind
  | succ n hle ih =>
    rw [after_succ]
    exact (done_after h n ih).advance.2

/-! ## Places in the text -/

/-- What a call needs to go through: the text can be cut where the scanner stands, the stack of
columns is never empty, its height and the markers that are due are bounded by the text, and each
span goes forwards, from one place where the text can be cut to another. -/
structure Sound (source : Text) (look : Lookahead) : Prop where
  ahead : source.dropBytes? look.scanner.offset = some look.scanner.rest
  base : look.scanner.levels.head? = some 0
  counters : look.scanner.blockDepth + look.scanner.dueDedents ≤ source.size
  forward : look.scanner.offset ≤ look.scanner.settled.offset ∧
    look.scanner.settled.offset ≤ look.advance.2.scanner.offset ∧
    look.advance.2.scanner.offset ≤ source.size
  token : ∀ token, look.scan = .token token → source.slice? token.span = some token.text ∧
    (token.kind ≠ .indent → token.kind ≠ .dedent →
      Span.between look.scanner.settled.offset look.advance.2.scanner.offset = .ok token.span)
  trivia : ∀ token, look.scan = .token token → ∀ t ∈ token.leading,
    source.slice? t.span = some t.text
  waiting : ∀ t ∈ look.scanner.waiting, source.slice? t.span = some t.text
  fault : ∀ error range, look.scan = .fault error range →
    Span.between look.scanner.settled.offset look.advance.2.scanner.offset = .ok range ∧
      (source.slice? range).isSome = true

theorem scan_mem_scans_succ (n : Nat) (look : Lookahead) :
    (look.after n).scan ∈ look.scans (n + 1) := by
  rw [scans_succ]
  exact List.mem_append_right _ (List.mem_singleton_self _)

/-- Bytes that are left, open blocks and markers that are due are never more than the source has
bytes. -/
theorem counters_after (h : ofText options source = .ok look) (n : Nat) :
    Text.size (look.after n).scanner.rest + (look.after n).scanner.blockDepth +
      (look.after n).scanner.dueDedents ≤ source.size := by
  induction n with
  | zero =>
    have hle := (steady_ofText options source).pending_next_le
    rwa [ofText_eq_ok h] at hle
  | succ n ih =>
    rw [after_succ, scanner_advance]
    exact Nat.le_trans (steady_after h n).pending_next_le ih

theorem forward_advance (look : Lookahead) :
    look.scanner.offset ≤ look.scanner.settled.offset ∧
      look.scanner.settled.offset ≤ look.advance.2.scanner.offset := by
  obtain ⟨ts, hgathers⟩ := look.scanner.gathers_settled
  have houtcome := look.scanner.outcome_next
  rw [scanner_advance]
  generalize look.scanner.next = step at houtcome ⊢
  constructor
  · rw [hgathers.passes.offset]
    exact Nat.le_add_right _ _
  · cases houtcome with
    | marker kind isMarker place => exact Nat.le_of_eq place.offset.symm
    | lexeme kind t noMarker passes =>
      rw [passes.offset]
      exact Nat.le_add_right _ _
    | fault error t passes =>
      rw [passes.offset]
      exact Nat.le_add_right _ _

/-- A token that is no block marker goes from where the trivia ends to where the scanner stops. -/
theorem span_of_scan_token {token : Token} (h : look.scan = .token token)
    (hindent : token.kind ≠ .indent) (hdedent : token.kind ≠ .dedent) :
    Span.between look.scanner.settled.offset look.advance.2.scanner.offset = .ok token.span := by
  have houtcome := look.scanner.outcome_next
  rw [scan_eq] at h
  rw [scanner_advance]
  generalize look.scanner.next = step at h houtcome ⊢
  cases houtcome with
  | marker kind isMarker =>
    cases h
    rcases isMarker with rfl | rfl
    · exact absurd rfl hindent
    · exact absurd rfl hdedent
  | lexeme kind t noMarker passes =>
    cases h
    rw [passes.offset]
    exact Span.between_start_stop (Span.sized _ _)
  | fault => cases h

theorem span_of_scan_fault {error : LexicalError} {range : Span}
    (h : look.scan = .fault error range) :
    Span.between look.scanner.settled.offset look.advance.2.scanner.offset = .ok range := by
  have hforward := look.forward_advance.2
  rw [scan_eq] at h
  rw [scanner_advance] at hforward ⊢
  rcases hnext : look.scanner.next with ⟨result, u⟩
  rw [hnext] at h hforward
  cases result with
  | ok token => cases h
  | error =>
    cases h
    dsimp only at hforward
    simp [Span.between, Span.upTo, hforward]

/-- The place of the scanner is one where the source can be cut. -/
theorem dropBytes?_after (h : ofText options source = .ok look) (n : Nat) :
    source.dropBytes? (look.after n).scanner.offset = some (look.after n).scanner.rest := by
  obtain ⟨entries, haccounts⟩ := accounts_of_ofText h n
  rw [haccounts.offset]
  conv_lhs => rw [haccounts.source_eq]
  exact Text.dropBytes?_size_append _ _

theorem offset_after_le (h : ofText options source = .ok look) (n : Nat) :
    (look.after n).scanner.offset ≤ source.size := by
  obtain ⟨before, hbefore, hsize⟩ := Text.dropBytes?_eq_some (dropBytes?_after h n)
  have htotal := congrArg Text.size hbefore
  rw [Text.size_append] at htotal
  omega

theorem sound_after (h : ofText options source = .ok look) (n : Nat) :
    Sound source (look.after n) := by
  obtain ⟨entries, haccounts⟩ := accounts_of_ofText h n
  obtain ⟨later, hlater⟩ := accounts_of_ofText h (n + 1)
  have hforward := (look.after n).forward_advance
  have hcounters := counters_after h n
  have hoffset := offset_after_le h (n + 1)
  -- what a call scans, and the trivia that goes with it, is in the partition of the next state
  have hscan (scan : Scan) (heq : (look.after n).scan = scan) :
      scan ∈ Scan.token look.current :: look.scans (n + 1) :=
    List.mem_cons_of_mem _ (heq ▸ scan_mem_scans_succ n look)
  have htokens (token : Token) (heq : (look.after n).scan = .token token) :
      token ∈ (Scan.token look.current :: look.scans (n + 1)).filterMap Scan.token? :=
    List.mem_filterMap.mpr ⟨_, hscan _ heq, rfl⟩
  constructor
  · exact dropBytes?_after h n
  · exact (blocks_of_ofText h n).base
  · omega
  · rw [← after_succ] at hforward ⊢
    exact ⟨hforward.1, hforward.2, hoffset⟩
  · intro token heq
    exact ⟨hlater.partition.slice_token (htokens token heq), span_of_scan_token heq⟩
  · intro token heq t ht
    exact hlater.partition.slice_trivia
      (List.mem_append_left _ (List.mem_flatMap.mpr ⟨token, htokens token heq, ht⟩))
  · intro t ht
    exact haccounts.partition.slice_trivia (List.mem_append_right _ ht)
  · intro error range heq
    refine ⟨span_of_scan_fault heq, hlater.partition.slice_fault ?_⟩
    exact List.mem_filterMap.mpr ⟨_, hscan _ heq, rfl⟩

/-- Whether or not calls fail, a lookahead that is asked again and again comes to `endOfFile`
after at most two calls for each byte, and stays there. No call goes back in the text, cuts a
character or takes a block from a stack without one. -/
theorem calls_progress (h : ofText options source = .ok look) :
    (∀ n, ((∃ error, (look.after n).advance.1 = .error error) ∨
        (look.after (n + 1)).current.kind ≠ .endOfFile) →
      (look.after (n + 1)).scanner.budget < (look.after n).scanner.budget) ∧
    (∃ k ≤ 2 * source.size, (look.after k).current.kind = .endOfFile) ∧
    (∀ k n, k ≤ n → (look.after k).current.kind = .endOfFile →
      ∃ token, (look.after n).advance.1 = .ok token ∧ token.kind = .endOfFile ∧
        token.span = Span.empty source.size) ∧
    ∀ n, Sound source (look.after n) := by
  refine ⟨?_, exists_endOfFile h, ?_, sound_after h⟩
  · intro n hcall
    exact budget_after_lt h hcall
  · intro k n hle hkind
    have hdone := done_after h n (endOfFile_stays h hle hkind)
    exact ⟨_, hdone.advance.1, hdone.kind, hdone.span⟩

/-- A line whose column fits no block and a character that begins no token, one after the
other. -/
theorem calls_progress_past_faults :
    ∃ look, ofText {} "if a:\n  b\n $".toList = .ok look ∧
      (look.scans 11).filterMap Scan.fault? = [Span.empty 11, Span.sized 11 1] ∧
      (∀ n, ((∃ error, (look.after n).advance.1 = .error error) ∨
          (look.after (n + 1)).current.kind ≠ .endOfFile) →
        (look.after (n + 1)).scanner.budget < (look.after n).scanner.budget) ∧
      ∃ token, (look.after 11).advance.1 = .ok token ∧ token.span = Span.empty 12 := by
  have hfaults : ((ofText {} "if a:\n  b\n $".toList).toOption.map fun look =>
      ((look.scans 11).filterMap Scan.fault?, (look.after 11).current.kind)) =
        some ([Span.empty 11, Span.sized 11 1], .endOfFile) := by
    decide +kernel
  rcases hlook : ofText {} "if a:\n  b\n $".toList with error | look
  · rw [hlook] at hfaults
    cases hfaults
  · rw [hlook] at hfaults
    simp only [Except.toOption, Option.map_some, Option.some.injEq, Prod.mk.injEq] at hfaults
    obtain ⟨hdecreases, -, hends, -⟩ := calls_progress hlook
    obtain ⟨token, hok, -, hspan⟩ := hends 11 11 (Nat.le_refl 11) hfaults.2
    exact ⟨look, rfl, hfaults.1, hdecreases, token, hok, hspan⟩

end Lookahead

end Verbatim
