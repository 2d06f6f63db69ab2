import Verbatim.Proofs.Lexeme.Units

/-!
# String literals up to their ends

A string literal is scanned up to its first end, and a literal without one is at fault where its
letters begin. So the texts of string tokens are the texts of a grammar of letters, quotes and
units, in any source and alone.
-/

namespace Verbatim

namespace Lexeme

variable {quote c : Char} {t u letters : Text} {n m : Nat} {items : List Text}

/-! ## From the opening quote on -/

/-- The length of a literal, opening quotes and all, in a text that begins with its quote. -/
inductive Terminates (quote : Char) : Text → Nat → Prop
  | triple {t : Text} {read : List Text} (h : FirstEnd quote .triple 0 t read) :
      Terminates quote (quote :: quote :: quote :: t) (3 + read.flatten.length)
  | empty {t : Text} (h : t.head? ≠ some quote) : Terminates quote (quote :: quote :: t) 2
  | single {t : Text} {read : List Text} (hhead : t.head? ≠ some quote)
      (h : FirstEnd quote .single 0 t read) :
      Terminates quote (quote :: t) (1 + read.flatten.length)

/-- The quotes that a text opens a literal with. -/
def opening (quote : Char) (t : Text) : QuoteWidth :=
  if t.take 3 = [quote, quote, quote] then .triple else .single

theorem Terminates.unique (h : Terminates quote t n) (h' : Terminates quote t m) : n = m := by
  cases h with
  | triple h =>
    cases h' with
    | triple h' => rw [h.unique h']
    | empty hhead => exact absurd rfl hhead
    | single hhead => exact absurd rfl hhead
  | empty hhead =>
    cases h' with
    | triple => exact absurd rfl hhead
    | empty => rfl
    | single hhead' => exact absurd rfl hhead'
  | single hhead h =>
    cases h' with
    | triple => exact absurd rfl hhead
    | empty => exact absurd rfl hhead
    | single _ h' => rw [h.unique h']

/-- What a literal is read as: its text up to the end, or a fault. -/
inductive Literally (quote : Char) (letters : Nat) (t : Text) : Reading → Prop
  | closed {n : Nat} (h : Terminates quote t n) : Literally quote letters t (.ok (letters + n))
  | unclosed {taken : Nat} (h : ∀ n, ¬ Terminates quote t n) :
      Literally quote letters t (.error ⟨(opening quote t).unterminated, 0, taken⟩)

theorem literally_reading {width : QuoteWidth} {extent : Extent} {letters k : Nat}
    (h : Finds quote width 0 u extent) (hwidth : opening quote t = width)
    (hiff : ∀ n, Terminates quote t n ↔
      ∃ read, FirstEnd quote width 0 u read ∧ n = k + read.flatten.length) :
    Literally quote letters t ((extent.after (letters + k)).reading width) := by
  cases h with
  | closed h =>
    rw [Extent.reading, Extent.after_closed, if_pos rfl, Extent.after_length, Nat.add_assoc]
    exact .closed ((hiff _).mpr ⟨_, h, rfl⟩)
  | unclosed h =>
    rw [Extent.reading, Extent.after_closed, if_neg Bool.false_ne_true, ← hwidth]
    refine .unclosed fun n hn => ?_
    obtain ⟨read, hread, -⟩ := (hiff n).mp hn
    exact h read hread

theorem literally_string (letters : Nat) (hquote : isQuote quote = true) (t : Text) :
    Literally quote letters (quote :: t) (string letters (quote :: t)) := by
  rw [string]
  split
  · next hsecond =>
    obtain ⟨u, rfl⟩ := List.head?_eq_some_iff.mp hsecond
    split
    · next hthird =>
      obtain ⟨v, rfl⟩ := List.head?_eq_some_iff.mp hthird
      refine literally_reading (finds_stringBody hquote (by decide)) (if_pos rfl) fun n => ?_
      constructor
      · intro h
        cases h with
        | triple h => exact ⟨_, h, rfl⟩
        | empty hhead => exact absurd rfl hhead
        | single hhead => exact absurd rfl hhead
      · rintro ⟨read, hread, rfl⟩
        exact .triple hread
    · next hthird => exact .closed (.empty hthird)
  · next hsecond =>
    refine literally_reading (finds_stringBody hquote (by decide)) (if_neg ?_) fun n => ?_
    · intro htake
      cases t with
      | nil => cases htake
      | cons c u =>
        obtain ⟨rfl, -⟩ := List.cons.inj (List.cons.inj htake).2
        exact hsecond rfl
    · constructor
      · intro h
        cases h with
        | triple => exact absurd rfl hsecond
        | empty => exact absurd rfl hsecond
        | single _ h => exact ⟨_, h, rfl⟩
      · rintro ⟨read, hread, rfl⟩
        exact .single hsecond hread

/-! ## Letters in front of the quote -/

/-- The letters that a literal can begin with, or none. -/
def Letters (t : Text) : Prop :=
  t = [] ∨ isStringLetters t = true

/-- The characters of such letters. -/
def letterMarks : List Char :=
  ['r', 'u', 'b', 'f', 'R', 'U', 'B', 'F']

theorem mem_letterMarks_of_toLower {d : Char} (h : c.toLower = d)
    (hd : d ∈ ['r', 'u', 'b', 'f']) : c ∈ letterMarks := by
  unfold Char.toLower at h
  split at h
  · have hval : c.val = d.val - ('a'.val - 'A'.val) := by
      rw [← h, UInt32.add_sub_cancel]
    have hupper {e : Char} (he : d.val - ('a'.val - 'A'.val) = e.val) : c = e :=
      Char.ext (hval.trans he)
    simp only [List.mem_cons, List.not_mem_nil, or_false] at hd
    rcases hd with rfl | rfl | rfl | rfl
    · rw [hupper (e := 'R') rfl]
      decide
    · rw [hupper (e := 'U') rfl]
      decide
    · rw [hupper (e := 'B') rfl]
      decide
    · rw [hupper (e := 'F') rfl]
      decide
  · subst h
    exact List.mem_append_left ['R', 'U', 'B', 'F'] hd

theorem mem_letterMarks (h : isStringLetters letters = true) : ∀ c ∈ letters, c ∈ letterMarks := by
  have hmarks : ∀ w ∈ stringLetters, ∀ d ∈ w.toList, d ∈ ['r', 'u', 'b', 'f'] := by
    simp [stringLetters]
  obtain ⟨w, hw, heq⟩ := List.any_eq_true.mp h
  intro c hc
  refine mem_letterMarks_of_toLower rfl (hmarks w hw _ ?_)
  rw [beq_iff_eq.mp heq]
  exact List.mem_map_of_mem hc

/-- What such a character is. -/
structure IsLetter (c : Char) : Prop where
  starts : isIdentifierStart c = true
  continues : isIdentifierContinue c = true
  noDigit : c.isDigit = false
  noPoint : c ≠ '.'
  noQuote : isQuote c = false

theorem isLetter : ∀ c ∈ letterMarks, IsLetter c := by
  have hall : ∀ c ∈ letterMarks, isIdentifierStart c = true ∧ isIdentifierContinue c = true ∧
      c.isDigit = false ∧ c ≠ '.' ∧ isQuote c = false := by
    simp only [letterMarks, List.forall_mem_cons, List.not_mem_nil, false_implies, implies_true]
    decide
  intro c hc
  obtain ⟨hstarts, hcontinues, hdigit, hpoint, hquote⟩ := hall c hc
  exact ⟨hstarts, hcontinues, hdigit, hpoint, hquote⟩

theorem wordLength_letters (h : ∀ c ∈ letters, IsLetter c)
    (hquote : isIdentifierContinue quote = false) :
    wordLength (letters ++ quote :: t) = letters.length := by
  have hall : ∀ c ∈ letters, isIdentifierContinue c = true := fun c hc => (h c hc).continues
  rw [wordLength, List.takeWhile_append_of_pos hall,
    List.takeWhile_cons_of_neg (by simp [hquote]), List.append_nil]

/-- A literal is read where it begins. -/
theorem read_letters (hletters : Letters letters) (hquote : isQuote quote = true) (t : Text) :
    read (letters ++ quote :: t) = kinded .string (string letters.length (quote :: t)) := by
  have hnot : quote.isDigit = false ∧ quote ≠ '.' ∧ isIdentifierContinue quote = false := by
    simp only [isQuote, Bool.or_eq_true, beq_iff_eq] at hquote
    rcases hquote with rfl | rfl <;> decide
  obtain ⟨hdigit, hpoint, hcontinue⟩ := hnot
  rw [read_eq]
  rcases hletters with rfl | hletters
  · have hstarts : startsNumber (quote :: t) = false := by simp [startsNumber, hdigit, hpoint]
    rw [List.nil_append, hstarts, lettersAt?, if_pos hquote]
    rfl
  · cases letters with
    | nil => cases hletters
    | cons d w =>
      have hall : ∀ c ∈ d :: w, IsLetter c :=
        fun c hc => isLetter c (mem_letterMarks hletters c hc)
      have hd := hall d List.mem_cons_self
      have hlength := wordLength_letters (t := t) hall hcontinue
      have hstarts : startsNumber (d :: w ++ quote :: t) = false := by
        simp [startsNumber, hd.noDigit, hd.noPoint]
      have hlettersAt : lettersAt? (d :: w ++ quote :: t) = some (d :: w).length := by
        rw [lettersAt?.eq_def, hlength, List.drop_left, List.take_left]
        simp [hd.noQuote, hd.starts, hquote, hletters]
      rw [hstarts, hlettersAt, if_neg Bool.false_ne_true]
      dsimp only
      rw [List.drop_left]

theorem exists_cons_of_letters (hletters : Letters letters) (hquote : isQuote quote = true)
    (t : Text) : ∃ c u, letters ++ quote :: t = c :: u ∧ c ∉ separators := by
  rcases hletters with rfl | hletters
  · refine ⟨quote, t, rfl, ?_⟩
    simp only [isQuote, Bool.or_eq_true, beq_iff_eq] at hquote
    rcases hquote with rfl | rfl <;> decide
  · cases letters with
    | nil => cases hletters
    | cons d w =>
      have hmarks : ∀ c ∈ letterMarks, c ∉ separators := by simp [letterMarks, separators]
      exact ⟨d, w ++ quote :: t, rfl, hmarks d (mem_letterMarks hletters d List.mem_cons_self)⟩

theorem of_lettersAt? (h : lettersAt? t = some n) :
    Letters (t.take n) ∧ ∃ quote u, t.drop n = quote :: u ∧ isQuote quote = true := by
  obtain ⟨-, hhead⟩ := lettersAt?_eq_some h
  constructor
  · unfold lettersAt? at h
    split at h
    · cases h
    · split at h
      · cases h
        exact .inl rfl
      · split at h
        · next hword =>
          cases h
          rw [Bool.and_eq_true] at hword
          exact .inr hword.2
        · cases h
  · cases hdrop : t.drop n with
    | nil => simp [hdrop] at hhead
    | cons quote u => exact ⟨quote, u, rfl, by simpa [hdrop] using hhead⟩

/-! ## The grammar -/

/-- A unit inside of a literal with one quote. -/
inductive Item (quote : Char) : Text → Prop
  | plain {c : Char} (hquote : c ≠ quote) (hescape : c ≠ '\\')
      (hbreak : Text.isLineBreak c = false) : Item quote [c]
  | escape (c : Char) : Item quote ['\\', c]
  | pair : Item quote ['\\', '\r', '\n']

theorem prefix_of_cons {unit item : Text} {us : List Text}
    (h : (item :: items) ++ [[quote]] <+: unit :: us) :
    item = unit ∧ items ++ [[quote]] <+: us := by
  rw [List.cons_append] at h
  exact List.cons_prefix_cons.mp h

theorem items_of_units (h : items ++ [[quote]] <+: units t) (hitems : [quote] ∉ items)
    (hinLine : ∀ item ∈ items, ¬ IsBreak item) : ∀ item ∈ items, Item quote item := by
  fun_induction units t generalizing items with
  | case1 t ih =>
    cases items with
    | nil => exact List.forall_mem_nil _
    | cons item items =>
      obtain ⟨rfl, hmore⟩ := prefix_of_cons h
      obtain ⟨-, hinLine⟩ := List.forall_mem_cons.mp hinLine
      exact List.forall_mem_cons.mpr
        ⟨.pair, ih hmore (fun hmem => hitems (List.mem_cons_of_mem _ hmem)) hinLine⟩
  | case2 c t _ ih =>
    cases items with
    | nil => exact List.forall_mem_nil _
    | cons item items =>
      obtain ⟨rfl, hmore⟩ := prefix_of_cons h
      obtain ⟨-, hinLine⟩ := List.forall_mem_cons.mp hinLine
      exact List.forall_mem_cons.mpr
        ⟨.escape c, ih hmore (fun hmem => hitems (List.mem_cons_of_mem _ hmem)) hinLine⟩
  | case3 c t _ hescape ih =>
    cases items with
    | nil => exact List.forall_mem_nil _
    | cons item items =>
      obtain ⟨rfl, hmore⟩ := prefix_of_cons h
      obtain ⟨hline, hinLine⟩ := List.forall_mem_cons.mp hinLine
      refine List.forall_mem_cons.mpr
        ⟨.plain ?_ ?_ ?_, ih hmore (fun hmem => hitems (List.mem_cons_of_mem _ hmem)) hinLine⟩
      · rintro rfl
        exact hitems List.mem_cons_self
      · -- a backslash by itself is the last character of the text
        rintro rfl
        cases t with
        | nil => simp [units] at hmore
        | cons d u => exact hescape d u rfl rfl
      · by_contra hbreak
        exact hline ⟨c, rfl, by simpa using hbreak⟩
  | case4 =>
    have hnil := List.append_eq_nil_iff.mp (List.prefix_nil.mp h)
    cases hnil.2

theorem Item.not_isBreak {item : Text} (h : Item quote item) : ¬ IsBreak item := by
  rintro ⟨c, heq, hc⟩
  cases h with
  | plain _ _ hbreak =>
    obtain rfl := (List.cons.inj heq).1
    rw [hbreak] at hc
    cases hc
  | escape => cases heq
  | pair => cases heq

theorem Item.ne_quote {item : Text} (h : Item quote item) : item ≠ [quote] := by
  cases h with
  | plain hquote => simpa using hquote
  | escape => simp
  | pair => simp

/-- The text of an item does not begin with a line feed, nor with the quote. -/
theorem Item.head? {item : Text} (h : Item quote item) (hescape : '\\' ≠ quote) :
    (item ++ t).head? ≠ some '\n' ∧ (item ++ t).head? ≠ some quote := by
  cases h with
  | plain hquote _ hbreak =>
    constructor
    · rintro ⟨⟩
      cases hbreak
    · simpa using hquote
  | escape => exact ⟨by simp, by simpa using hescape⟩
  | pair => exact ⟨by simp, by simpa using hescape⟩

theorem units_items (hquote : isQuote quote = true) (h : ∀ item ∈ items, Item quote item) :
    units (items.flatten ++ [quote]) = items ++ [[quote]] := by
  obtain ⟨hline, -, hescape⟩ := ne_of_isQuote hquote
  induction items with
  | nil => exact units_cons hescape.symm []
  | cons item items ih =>
    obtain ⟨hitem, hitems⟩ := List.forall_mem_cons.mp h
    rw [List.flatten_cons, List.append_assoc, List.cons_append, ← ih hitems]
    cases hitem with
    | plain _ hplain => exact units_cons hplain _
    | escape c =>
      refine units_escape fun _ => ?_
      cases items with
      | nil => simpa using hline.symm
      | cons next items =>
        rw [List.flatten_cons, List.append_assoc]
        exact ((hitems next List.mem_cons_self).head? hescape).1
    | pair => exact units_pair _

/-- The texts of string literals. -/
inductive Literal : Text → Prop
  | empty {letters : Text} {quote : Char} (hletters : Letters letters)
      (hquote : isQuote quote = true) : Literal (letters ++ [quote, quote])
  | single {letters : Text} {quote : Char} {items : List Text} (hletters : Letters letters)
      (hquote : isQuote quote = true) (hne : items ≠ []) (hitems : ∀ item ∈ items, Item quote item) :
      Literal (letters ++ quote :: (items.flatten ++ [quote]))
  | triple {letters : Text} {quote : Char} {body : Text} (hletters : Letters letters)
      (hquote : isQuote quote = true)
      (hbody : FirstEnd quote .triple 0 (body ++ [quote, quote, quote])
        (units (body ++ [quote, quote, quote]))) :
      Literal (letters ++ quote :: quote :: quote :: (body ++ [quote, quote, quote]))

theorem single_of_firstEnd (h : FirstEnd quote .single 0 t items) :
    ∃ body, items = body ++ [[quote]] ∧ ∀ item ∈ body, Item quote item := by
  obtain ⟨body, rfl, hread, hbody, hinLine⟩ := firstEnd_single_iff.mp h
  exact ⟨body, rfl, items_of_units hread hbody fun item hmem =>
    hinLine item (List.mem_append_left _ hmem)⟩

theorem firstEnd_of_items (hquote : isQuote quote = true) (h : ∀ item ∈ items, Item quote item) :
    FirstEnd quote .single 0 (items.flatten ++ [quote]) (items ++ [[quote]]) := by
  rw [firstEnd_single_iff]
  refine ⟨items, rfl, (units_items hquote h).symm ▸ List.prefix_rfl, fun hmem => (h _ hmem).ne_quote rfl, ?_⟩
  refine List.forall_mem_append.mpr ⟨fun item hmem => (h item hmem).not_isBreak, ?_⟩
  rintro item hmem ⟨c, rfl, hc⟩
  obtain rfl := List.singleton_inj.mp (List.mem_singleton.mp hmem)
  rw [isQuote_of_isLineBreak hc] at hquote
  cases hquote

theorem triple_of_firstEnd (h : FirstEnd quote .triple 0 t items) :
    ∃ body, items.flatten = body ++ [quote, quote, quote] ∧
      FirstEnd quote .triple 0 items.flatten (units items.flatten) := by
  obtain ⟨body, hbody⟩ := h.closes
  refine ⟨body.flatten, ?_, ?_⟩
  · have hitems : items = body ++ [[quote], [quote], [quote]] := hbody.symm
    rw [hitems, List.flatten_append]
    rfl
  · rw [units_flatten h.isRead]
    exact h.alone

theorem literal_of_terminates (hletters : Letters letters) (hquote : isQuote quote = true)
    (h : Terminates quote t n) : Literal (letters ++ t.take n) := by
  cases h with
  | @triple t read h =>
    obtain ⟨body, hbody, halone⟩ := triple_of_firstEnd h
    rw [Nat.add_comm, List.take_succ_cons, List.take_succ_cons, List.take_succ_cons,
      take_flatten h.isRead, hbody]
    rw [hbody] at halone
    exact .triple hletters hquote halone
  | empty => exact .empty hletters hquote
  | @single t read hhead h =>
    have htake := take_flatten h.isRead
    obtain ⟨items, rfl, hitems⟩ := single_of_firstEnd h
    have hflatten : (items ++ [[quote]]).flatten = items.flatten ++ [quote] := by simp
    rw [Nat.add_comm, List.take_succ_cons, htake, hflatten]
    refine .single hletters hquote ?_ hitems
    rintro rfl
    rw [hflatten] at htake
    cases t with
    | nil => cases htake
    | cons c u =>
      obtain ⟨rfl, -⟩ := List.cons.inj htake
      exact hhead rfl

theorem terminates_of_literal (h : Literal t) : ∃ letters quote u, t = letters ++ quote :: u ∧
    Letters letters ∧ isQuote quote = true ∧ Terminates quote (quote :: u) (quote :: u).length := by
  cases h with
  | @empty letters quote hletters hquote =>
    exact ⟨letters, quote, [quote], rfl, hletters, hquote, .empty (by simp)⟩
  | @single letters quote items hletters hquote hne hitems =>
    refine ⟨letters, quote, items.flatten ++ [quote], rfl, hletters, hquote, ?_⟩
    have hend := firstEnd_of_items hquote hitems
    have hlength : (quote :: (items.flatten ++ [quote])).length =
        1 + (items ++ [[quote]]).flatten.length := by
      simp
      omega
    rw [hlength]
    refine .single ?_ hend
    cases items with
    | nil => exact absurd rfl hne
    | cons item items =>
      rw [List.flatten_cons, List.append_assoc]
      exact ((hitems item List.mem_cons_self).head? (ne_of_isQuote hquote).2.2).2
  | @triple letters quote body hletters hquote hbody =>
    refine ⟨letters, quote, _, rfl, hletters, hquote, ?_⟩
    have hterminates := Terminates.triple hbody
    rw [flatten_units, Nat.add_comm] at hterminates
    exact hterminates

theorem string_of_terminates (hquote : isQuote quote = true) {k : Nat}
    (h : Terminates quote (quote :: t) n) : string k (quote :: t) = .ok (k + n) := by
  have hread := literally_string k hquote t
  generalize string k (quote :: t) = reading at hread
  cases hread with
  | closed h' => rw [h.unique h']
  | unclosed hnone => exact absurd h (hnone n)

theorem string_eq_error (hquote : isQuote quote = true) {k : Nat}
    (h : ∀ n, ¬ Terminates quote (quote :: t) n) : ∃ taken, string k (quote :: t) =
      .error ⟨(opening quote (quote :: t)).unterminated, 0, taken⟩ := by
  have hread := literally_string k hquote t
  generalize string k (quote :: t) = reading at hread
  cases hread with
  | closed h' => exact absurd h' (h _)
  | unclosed => exact ⟨_, rfl⟩

theorem literal_of_read (h : read t = .ok (.string, n)) : Literal (t.take n) := by
  obtain ⟨k, hletters, hstring⟩ := string_of_read h
  obtain ⟨hletters, quote, u, hdrop, hquote⟩ := of_lettersAt? hletters
  have hread := literally_string k hquote u
  rw [← hdrop, hstring] at hread
  cases hread with
  | closed hend =>
    rw [List.take_add]
    exact literal_of_terminates hletters hquote hend

theorem read_of_literal (h : Literal t) : read t = .ok (.string, t.length) := by
  obtain ⟨letters, quote, u, rfl, hletters, hquote, hend⟩ := terminates_of_literal h
  rw [read_letters hletters hquote, string_of_terminates hquote hend, List.length_append]
  rfl

end Lexeme

open Lexeme (Terminates Letters Literal opening isQuote)

namespace Scanner.Faces

variable {s : Scanner} {letters t : Text} {quote : Char} {n : Nat}

theorem next_of_terminates (h : s.Faces (letters ++ quote :: t)) (hletters : Letters letters)
    (hquote : isQuote quote = true) (hend : Terminates quote (quote :: t) n) :
    ∃ u, s.next = (.ok ⟨.string,
        .sized s.settled.offset (Text.size (letters ++ (quote :: t).take n)), s.settled.waiting,
        letters ++ (quote :: t).take n⟩, u) ∧ u.rest = (quote :: t).drop n := by
  obtain ⟨c, u, hcons, hc⟩ := Lexeme.exists_cons_of_letters hletters hquote t
  have hread := Lexeme.read_letters hletters hquote t
  rw [Lexeme.string_of_terminates hquote hend, ← h.rest] at hread
  rw [h.next_eq, scanToken_of_read (h.rest.trans hcons) hc hread, lexeme_eq_emit rfl rfl]
  have htake : (letters ++ quote :: t).take (letters.length + n) =
      letters ++ (quote :: t).take n := by
    rw [List.take_append, List.take_of_length_le (Nat.le_add_right _ _), Nat.add_sub_cancel_left]
  refine ⟨{ s.settled.advance (letters.length + n) with waiting := [] }, ?_, ?_⟩
  · rw [emit, spanOfNext, h.rest, htake]
  · show s.settled.rest.drop _ = _
    rw [h.rest, ← List.drop_drop, List.drop_left]

theorem next_of_not_terminates (h : s.Faces (letters ++ quote :: t)) (hletters : Letters letters)
    (hquote : isQuote quote = true) (hend : ∀ n, ¬ Terminates quote (quote :: t) n) :
    s.next.1 = .error ⟨(opening quote (quote :: t)).unterminated, s.settled.offset⟩ := by
  obtain ⟨c, u, hcons, hc⟩ := Lexeme.exists_cons_of_letters hletters hquote t
  obtain ⟨taken, hstring⟩ := Lexeme.string_eq_error (k := letters.length) hquote hend
  have hread := Lexeme.read_letters hletters hquote t
  rw [hstring, ← h.rest] at hread
  rw [h.next_eq, scanToken_of_fault (h.rest.trans hcons) hc hread]
  rfl

end Scanner.Faces

/-- A string literal is scanned up to its first end, and without one it is at fault. So the texts of
string tokens are those of the grammar, in any run over any source, and a source of the grammar is
one string token. -/
theorem string_tokens :
    (∀ (s : Scanner) (letters t : Text) (quote : Char), s.Faces (letters ++ quote :: t) →
      Letters letters → isQuote quote = true →
      (∀ n, Terminates quote (quote :: t) n → ∃ u, s.next = (.ok ⟨.string,
        .sized s.settled.offset (Text.size (letters ++ (quote :: t).take n)), s.settled.waiting,
        letters ++ (quote :: t).take n⟩, u) ∧ u.rest = (quote :: t).drop n) ∧
      ((∀ n, ¬ Terminates quote (quote :: t) n) → s.next.1 =
        .error ⟨(opening quote (quote :: t)).unterminated, s.settled.offset⟩)) ∧
    (∀ (options : Options) (source : Text) (scans : List Scan) (u : Scanner) (token : Token),
      (Scanner.ofText options source).Attempts scans u → .token token ∈ scans →
      token.kind = .string → Literal token.text) ∧
    ∀ (options : Options) (t : Text), Literal t → tokenize options t =
      .ok [⟨.string, .sized 0 t.size, [], t⟩, ⟨.endOfFile, .empty t.size, [], []⟩] := by
  refine ⟨?_, ?_, ?_⟩
  · intro s letters t quote hfaces hletters hquote
    constructor
    · exact fun n hend => hfaces.next_of_terminates hletters hquote hend
    · exact fun hend => hfaces.next_of_not_terminates hletters hquote hend
  · intro options source scans u token hruns hmem hkind
    have hkinds : token.kind ∈ Lexeme.kinds := by
      rw [hkind]
      decide
    obtain ⟨before, t, n, -, -, hread, htext⟩ := hruns.read_of_mem hmem hkinds
    rw [hkind] at hread
    rw [htext]
    exact Lexeme.literal_of_read hread
  · intro options t ht
    exact tokenize_of_read options (Lexeme.read_of_literal ht) (by decide) rfl rfl

/-- A literal with letters and an escaped quote, and a quote with nothing behind it. -/
theorem string_tokens_of_escape :
    (∃ u, (Scanner.ofText {} "rB'\\''+".toList).next =
      (.ok ⟨.string, .sized 0 6, [], "rB'\\''".toList⟩, u) ∧ u.rest = ['+']) ∧
    (Scanner.ofText {} "u\"".toList).next.1 = .error ⟨.unterminatedString, 0⟩ ∧
    Literal "rB'\\''".toList ∧ tokenize {} "rB'\\''".toList =
      .ok [⟨.string, .sized 0 6, [], "rB'\\''".toList⟩, ⟨.endOfFile, .empty 6, [], []⟩] := by
  have hend : Terminates '\'' "'\\''+".toList 4 := by
    have hitems : ∀ item ∈ [['\\', '\'']], Lexeme.Item '\'' item :=
      List.forall_mem_singleton.mpr (.escape '\'')
    have hfirst : Lexeme.FirstEnd '\'' .single 0 "\\''+".toList [['\\', '\''], ['\'']] :=
      { Lexeme.firstEnd_of_items rfl hitems with isRead := by decide }
    exact .single (by decide) hfirst
  have hnone (n : Nat) : ¬ Terminates '"' "\"".toList n := by
    intro h
    have hnil : Lexeme.string 0 "\"".toList = .ok (0 + n) :=
      Lexeme.string_of_terminates (k := 0) rfl h
    cases hnil
  have hfaces : (Scanner.ofText {} "rB'\\''+".toList).Faces "rB'\\''+".toList :=
    ⟨by decide +kernel, by decide +kernel, by decide +kernel⟩
  have hfaces' : (Scanner.ofText {} "u\"".toList).Faces "u\"".toList :=
    ⟨by decide +kernel, by decide +kernel, by decide +kernel⟩
  have hletters : Letters ['r', 'B'] := .inr (by decide)
  have hitem : ∀ item ∈ [['\\', '\'']], Lexeme.Item '\'' item :=
    List.forall_mem_singleton.mpr (.escape '\'')
  have hne : [['\\', '\'']] ≠ [] := List.cons_ne_nil _ _
  have hliteral : Literal "rB'\\''".toList := .single hletters rfl hne hitem
  obtain ⟨hscan, -, halone⟩ := string_tokens
  refine ⟨?_, ?_, hliteral, halone {} _ hliteral⟩
  · exact (hscan _ ['r', 'B'] _ '\'' hfaces (.inr (by decide)) rfl).1 4 hend
  · exact (hscan _ ['u'] _ '"' hfaces' (.inr (by decide)) rfl).2 hnone

end Verbatim
