import Verbatim.Proofs.Scanner.Step
import Verbatim.Proofs.Text
import Verbatim.Scanner.Lookahead

/-!
# Where each byte goes

A lookahead can be asked for tokens for ever, also after a call that failed. Whatever the
calls give, each byte that the scanner has passed belongs to the text of one token, to one
piece of trivia or to one fault. The account of a source lists these entries in the order
in which they stand there. Only block markers, which have no text, can stand apart: after
a fault they still point to the line that they were scheduled on.
-/

namespace Verbatim

namespace Span

/-- Spans that fill an interval, each from where the one before it stops. -/
def Tiles : Nat → List Span → Nat → Prop
  | start, [], stop => start = stop
  | start, a :: as, stop => a.start = start ∧ Tiles a.stop as stop

@[simp]
theorem isEmpty_empty (offset : Nat) : (empty offset).isEmpty = true := by
  simp [isEmpty, empty]

@[simp]
theorem isEmpty_sized (start size : Nat) : (sized start size).isEmpty = (size == 0) := by
  rw [Bool.eq_iff_iff]
  simp [isEmpty, sized]

end Span

/-! ## Scans -/

/-- What one scan makes of the text. A fault ranges from the start of the malformed token to
where the scan gave up. -/
inductive Scan where
  | token (token : Token)
  | fault (error : LexicalError) (range : Span)
deriving DecidableEq, Repr

namespace Scan

def token? : Scan → Option Token
  | token t => some t
  | fault _ _ => none

def fault? : Scan → Option Span
  | token _ => none
  | fault _ range => some range

/-- The scan whose token starts, or should have started, at an offset. -/
def ofStep (start : Nat) : Scanner.Step Token → Scan
  | (.ok t, _) => .token t
  | (.error error, u) => .fault error (Span.upTo start u.offset)

end Scan

namespace Lookahead

/-- The scan that a call of `advance` makes: what becomes current, or the fault. -/
def scan (look : Lookahead) : Scan :=
  match look.advance with
  | (.ok _, u) => .token u.current
  | (.error error, u) => .fault error (Span.upTo look.scanner.settled.offset u.scanner.offset)

def after : Nat → Lookahead → Lookahead
  | 0, look => look
  | n + 1, look => after n look.advance.2

def scans : Nat → Lookahead → List Scan
  | 0, _ => []
  | n + 1, look => look.scan :: scans n look.advance.2

theorem scan_eq (look : Lookahead) :
    look.scan = .ofStep look.scanner.settled.offset look.scanner.next := by
  unfold scan advance
  rcases look.scanner.next with ⟨result, u⟩
  cases result <;> rfl

theorem scanner_advance (look : Lookahead) : look.advance.2.scanner = look.scanner.next.2 := by
  unfold advance
  rcases look.scanner.next with ⟨result, u⟩
  cases result <;> rfl

/-- The first scan is that of the token that is current at the beginning. -/
theorem ofText_eq_ok {options : Options} {t : Text} {look : Lookahead}
    (h : ofText options t = .ok look) :
    (Scanner.ofText options t).next = (.ok look.current, look.scanner) := by
  unfold ofText at h
  rcases hnext : (Scanner.ofText options t).next with ⟨result, u⟩
  rw [hnext] at h
  cases result <;> cases h
  rfl

end Lookahead

/-! ## Entries -/

inductive Entry where
  | trivia (trivia : Trivia)
  | token (token : Token)
  | fault (range : Span) (text : Text)
deriving DecidableEq, Repr

namespace Entry

def span : Entry → Span
  | trivia t => t.span
  | token t => t.span
  | fault range _ => range

def text : Entry → Text
  | trivia t => t.text
  | token t => t.text
  | fault _ text => text

def trivia? : Entry → Option Trivia
  | trivia t => some t
  | _ => none

def token? : Entry → Option Token
  | token t => some t
  | _ => none

def fault? : Entry → Option Span
  | fault range _ => some range
  | _ => none

def spelled (entries : List Entry) : Text :=
  entries.flatMap text

@[simp]
theorem spelled_append (as bs : List Entry) : spelled (as ++ bs) = spelled as ++ spelled bs := by
  simp [spelled]

theorem spelled_map_trivia (ts : List Trivia) :
    spelled (ts.map .trivia) = Trivia.spelled ts := by
  simp [spelled, Trivia.spelled, List.flatMap_map, text]

@[simp]
theorem filterMap_trivia?_map (ts : List Trivia) : (ts.map trivia).filterMap trivia? = ts := by
  induction ts with
  | nil => rfl
  | cons t ts ih => exact congrArg (t :: ·) ih

@[simp]
theorem filterMap_token?_map (ts : List Trivia) : (ts.map trivia).filterMap token? = [] := by
  induction ts with
  | nil => rfl
  | cons t ts ih => exact ih

@[simp]
theorem filterMap_fault?_map (ts : List Trivia) : (ts.map trivia).filterMap fault? = [] := by
  induction ts with
  | nil => rfl
  | cons t ts ih => exact ih

/-- Entries that stand one right after the other, from an offset on. One without text may
stand at any place where the source can be cut. -/
def Placed (source : Text) : Nat → List Entry → Prop
  | _, [] => True
  | offset, e :: es =>
    (e.span = Span.sized offset (Text.size e.text) ∨
      e.text = [] ∧ ∃ place, source.IsBoundary place ∧ e.span = Span.empty place) ∧
    Placed source (offset + Text.size e.text) es

section Placed

variable {source : Text} {offset : Nat}

theorem Placed.append {as bs : List Entry} (h : Placed source offset as)
    (h' : Placed source (offset + Text.size (spelled as)) bs) :
    Placed source offset (as ++ bs) := by
  induction as generalizing offset with
  | nil => simpa [spelled] using h'
  | cons e es ih =>
    refine ⟨h.1, ih h.2 ?_⟩
    simpa [spelled, Nat.add_assoc] using h'

theorem placed_map_trivia {ts : List Trivia} (h : Trivia.Placed offset ts) :
    Placed source offset (ts.map .trivia) := by
  induction ts generalizing offset with
  | nil => trivial
  | cons t ts ih => exact ⟨.inl h.1, ih h.2⟩

theorem Placed.tiles {es : List Entry} (h : Placed source offset es) :
    Span.Tiles offset ((es.map span).filter (! ·.isEmpty))
      (offset + Text.size (spelled es)) := by
  induction es generalizing offset with
  | nil => rfl
  | cons e es ih =>
    have htail := ih h.2
    rw [Nat.add_assoc, ← Text.size_append] at htail
    rw [List.map_cons]
    rcases h.1 with hspan | ⟨htext, place, _, hspan⟩
    · by_cases hsize : Text.size e.text = 0
      · rw [hsize, Nat.add_zero] at htail
        rw [List.filter_cons_of_neg (by simp [hspan, hsize])]
        exact htail
      · rw [List.filter_cons_of_pos (by simp [hspan, hsize]), hspan]
        exact ⟨rfl, htail⟩
    · rw [htext, Text.size_nil, Nat.add_zero] at htail
      rw [List.filter_cons_of_neg (by simp [hspan])]
      simpa [spelled, htext] using htail

theorem Placed.slice?_eq {es : List Entry} (before after : Text)
    (hsource : source = before ++ spelled es ++ after)
    (h : Placed source (Text.size before) es) :
    ∀ e ∈ es, source.slice? e.span = some e.text := by
  induction es generalizing before with
  | nil => simp
  | cons e es ih =>
    have hsource' : source = before ++ e.text ++ spelled es ++ after := by
      rw [hsource]
      simp [spelled]
    intro e' he'
    rcases List.mem_cons.mp he' with rfl | he'
    · rcases h.1 with hspan | ⟨htext, place, hplace, hspan⟩
      · rw [hspan, hsource', List.append_assoc _ (spelled es)]
        exact Text.slice?_append before e'.text (spelled es ++ after)
      · rw [hspan, htext]
        exact hplace.slice?_empty
    · have htail := h.2
      rw [← Text.size_append] at htail
      exact ih _ hsource' htail e' he'

end Placed

end Entry

/-! ## The account of a run -/

/-- The account of some scans of a source, up to where the scanner is. -/
structure Accounts (source : Text) (scans : List Scan) (s : Scanner) (entries : List Entry) :
    Prop where
  source_eq : source = Entry.spelled entries ++ s.rest
  offset : s.offset = Text.size (Entry.spelled entries)
  placed : Entry.Placed source 0 entries
  tokens : entries.filterMap Entry.token? = scans.filterMap Scan.token?
  trivia : entries.filterMap Entry.trivia? =
    (scans.filterMap Scan.token?).flatMap Token.leading ++ s.waiting
  faults : entries.filterMap Entry.fault? = scans.filterMap Scan.fault?
  markers : source.IsBoundary s.markerOffset

namespace Accounts

variable {source : Text} {scans : List Scan} {s u : Scanner} {entries : List Entry}

theorem start (options : Options) (source : Text) :
    Accounts source [] (Scanner.ofText options source) [] where
  source_eq := rfl
  offset := rfl
  placed := trivial
  tokens := rfl
  trivia := rfl
  faults := rfl
  markers := ⟨[], source, rfl, rfl⟩

theorem isBoundary_of_passes {t : Text} (h : Accounts source scans s entries)
    (hs : s.Passes t u) : source.IsBoundary u.offset := by
  refine ⟨Entry.spelled entries ++ t, u.rest, ?_, ?_⟩
  · rw [h.source_eq, hs.rest, List.append_assoc]
  · rw [hs.offset, h.offset, Text.size_append]

/-- Trivia goes to the account as it is gathered, before a token takes it. -/
theorem gathers {ts : List Trivia} (h : Accounts source scans s entries) (hs : s.Gathers ts u)
    (hmarker : source.IsBoundary u.markerOffset) :
    Accounts source scans u (entries ++ ts.map .trivia) where
  source_eq := by
    rw [h.source_eq, hs.passes.rest, Entry.spelled_append, Entry.spelled_map_trivia,
      List.append_assoc]
  offset := by
    rw [hs.passes.offset, h.offset, Entry.spelled_append, Entry.spelled_map_trivia,
      Text.size_append]
  placed := by
    apply h.placed.append
    apply Entry.placed_map_trivia
    rw [Nat.zero_add, ← h.offset]
    exact hs.placed
  tokens := by
    rw [List.filterMap_append, Entry.filterMap_token?_map, List.append_nil, h.tokens]
  trivia := by
    rw [List.filterMap_append, h.trivia, Entry.filterMap_trivia?_map, hs.waiting,
      List.append_assoc]
  faults := by
    rw [List.filterMap_append, Entry.filterMap_fault?_map, List.append_nil, h.faults]
  markers := hmarker

theorem settled (h : Accounts source scans s entries) :
    ∃ more, Accounts source scans s.settled (entries ++ more) := by
  obtain ⟨ts, hs⟩ := s.gathers_settled
  refine ⟨_, h.gathers hs ?_⟩
  rcases s.markerOffset_settled with hm | ⟨t, u, hu, hm⟩ <;> rw [hm]
  · exact h.markers
  · exact h.isBoundary_of_passes hu

/-- One more entry, for the text that the scanner has moved over. -/
theorem snoc {t : Text} {scan : Scan} {e : Entry} (h : Accounts source scans s entries)
    (hs : s.Passes t u) (htext : e.text = t)
    (hspan : e.span = Span.sized s.offset (Text.size t) ∨
      t = [] ∧ ∃ place, source.IsBoundary place ∧ e.span = Span.empty place)
    (hkind : e.token? = scan.token? ∧ e.fault? = scan.fault? ∧ e.trivia? = none)
    (hwaiting : s.waiting = (scan.token?.toList.flatMap Token.leading) ++ u.waiting)
    (hmarker : source.IsBoundary u.markerOffset) :
    Accounts source (scans ++ [scan]) u (entries ++ [e]) where
  source_eq := by
    rw [h.source_eq, hs.rest, Entry.spelled_append]
    simp [Entry.spelled, htext]
  offset := by
    rw [hs.offset, h.offset, Entry.spelled_append, Text.size_append]
    simp [Entry.spelled, htext]
  placed := by
    refine h.placed.append ⟨?_, trivial⟩
    rw [Nat.zero_add, ← h.offset, htext]
    exact hspan
  tokens := by
    rw [List.filterMap_append, List.filterMap_append, h.tokens]
    simp [List.filterMap_cons, hkind.1]
  trivia := by
    have hone : [scan].filterMap Scan.token? = scan.token?.toList := by
      cases hscan : scan.token? <;> simp [hscan]
    rw [List.filterMap_append, List.filterMap_append, List.flatMap_append, h.trivia, hwaiting,
      hone, List.append_assoc, List.append_assoc]
    simp [hkind.2.2]
  faults := by
    rw [List.filterMap_append, List.filterMap_append, h.faults]
    simp [List.filterMap_cons, hkind.2.1]
  markers := hmarker

/-- Any outcome of a step adds one entry, for the token or for the fault. -/
theorem outcome {step : Scanner.Step Token} (h : Accounts source scans s entries)
    (ho : s.Outcome step) :
    ∃ e, Accounts source (scans ++ [.ofStep s.offset step]) step.2 (entries ++ [e]) := by
  cases ho with
  | @marker v kind _ place _ _ =>
    -- after a fault a marker may be late: its place is then one that was passed before
    have hmarker : source.IsBoundary v.markerOffset := by
      rcases place.markerOffset with hm | hm <;> rw [hm]
      · exact h.markers
      · exact h.isBoundary_of_passes (t := []) ⟨rfl, rfl⟩
    refine ⟨.token (v.marker kind), h.snoc (t := []) ?_ rfl ?_ ⟨rfl, rfl, rfl⟩ ?_ hmarker⟩
    · exact ⟨place.rest.symm, place.offset⟩
    · exact .inr ⟨rfl, v.markerOffset, hmarker, rfl⟩
    · exact place.waiting.symm
  | lexeme kind t _ passes waiting _ markerOffset _ _ =>
    refine ⟨.token ⟨kind, _, s.waiting, t⟩, h.snoc passes rfl (.inl rfl) ⟨rfl, rfl, rfl⟩ ?_ ?_⟩
    · simp [Scan.ofStep, Scan.token?, waiting]
    · rw [markerOffset]
      exact h.markers
  | @fault v error t passes waiting markerOffset _ =>
    refine ⟨.fault (Span.upTo s.offset v.offset) t,
      h.snoc passes rfl (.inl ?_) ⟨rfl, rfl, rfl⟩ waiting.symm ?_⟩
    · have : max v.offset s.offset = s.offset + Text.size t := by
        rw [passes.offset]
        omega
      simp [Entry.span, Span.upTo, Span.sized, this]
    · rw [markerOffset]
      exact h.markers

theorem next (h : Accounts source scans s entries) :
    ∃ more, Accounts source (scans ++ [.ofStep s.settled.offset s.next]) s.next.2
      (entries ++ more) := by
  obtain ⟨more, h'⟩ := h.settled
  obtain ⟨e, h''⟩ := h'.outcome (Scanner.outcome_next s)
  exact ⟨more ++ [e], by rwa [← List.append_assoc]⟩

end Accounts

namespace Lookahead

theorem accounts_after {source : Text} {scans : List Scan} (n : Nat) {look : Lookahead}
    (h : ∃ entries, Accounts source scans look.scanner entries) :
    ∃ entries, Accounts source (scans ++ look.scans n) (look.after n).scanner entries := by
  induction n generalizing look scans with
  | zero => simpa [Lookahead.scans, after] using h
  | succ n ih =>
    obtain ⟨entries, h⟩ := h
    obtain ⟨more, h'⟩ := h.next
    rw [← scan_eq, ← scanner_advance] at h'
    have hrun := ih ⟨_, h'⟩
    rwa [List.append_assoc] at hrun

/-- Every run of a lookahead over a source, with or without faults, has an account. -/
theorem accounts_of_ofText {options : Options} {source : Text} {look : Lookahead}
    (h : ofText options source = .ok look) (n : Nat) :
    ∃ entries, Accounts source (.token look.current :: look.scans n) (look.after n).scanner
      entries := by
  obtain ⟨entries, hfirst⟩ := (Accounts.start options source).next
  rw [ofText_eq_ok h] at hfirst
  exact accounts_after n ⟨_, hfirst⟩

end Lookahead

end Verbatim
