import Verbatim.Proofs.Lexeme.Token

/-!
# Where a string literal ends

A backslash makes one unit with the character behind it, or with a whole carriage return and line
feed pair, and every other character is a unit by itself. A literal ends where as many quotes as
opened it stand in a row as units, for the first time; one with a single quote has to end in front
of a unit that is a line break. The reader finds this end, or there is none.
-/

namespace Verbatim.Lexeme

def units : Text → List Text
  | '\\' :: '\r' :: '\n' :: t => ['\\', '\r', '\n'] :: units t
  | '\\' :: c :: t => ['\\', c] :: units t
  | c :: t => [c] :: units t
  | [] => []

/-- As many quotes as close a literal have just been read. -/
def Closes (quote : Char) (width : QuoteWidth) (read : List Text) : Prop :=
  List.replicate width.count [quote] <:+ read

def IsBreak (unit : Text) : Prop :=
  ∃ c, unit = [c] ∧ Text.isLineBreak c = true

/-- The units of a text up to the first end of a literal that `run` closing quotes precede. -/
structure FirstEnd (quote : Char) (width : QuoteWidth) (run : Nat) (t : Text)
    (read : List Text) : Prop where
  isRead : read <+: units t
  closes : Closes quote width (List.replicate run [quote] ++ read)
  first : ∀ before, before <+: read → Closes quote width (List.replicate run [quote] ++ before) →
    before = read
  inLine : width = .single → ∀ unit ∈ read, ¬ IsBreak unit

variable {quote c : Char} {width : QuoteWidth} {run run' : Nat} {t u : Text} {unit : Text}
  {read read' before : List Text}

/-! ## Units -/

theorem units_pair (t : Text) :
    units ('\\' :: '\r' :: '\n' :: t) = ['\\', '\r', '\n'] :: units t := by
  rw [units]

theorem units_escape (h : c = '\r' → t.head? ≠ some '\n') :
    units ('\\' :: c :: t) = ['\\', c] :: units t := by
  rw [units.eq_def]
  split
  · next heq =>
    cases heq
    exact absurd rfl (h rfl)
  · next heq =>
    cases heq
    rfl
  · next hescape heq =>
    cases heq
    exact (hescape c t rfl rfl).elim
  · next heq => cases heq

theorem units_cons (h : c ≠ '\\') (t : Text) : units (c :: t) = [c] :: units t := by
  rw [units.eq_def]
  split
  · next heq =>
    cases heq
    exact absurd rfl h
  · next heq =>
    cases heq
    exact absurd rfl h
  · next heq =>
    cases heq
    rfl
  · next heq => cases heq

theorem units_backslash : units ['\\'] = [['\\']] := by
  simp [units]

theorem flatten_units (t : Text) : (units t).flatten = t := by
  fun_induction units t with
  | case1 t ih => simp [ih]
  | case2 c t _ ih => simp [ih]
  | case3 c t _ _ ih => simp [ih]
  | case4 => rfl

/-- The units that were read are the units of what was read. -/
theorem units_flatten (h : read <+: units t) : units read.flatten = read := by
  fun_induction units t generalizing read with
  | case1 t ih =>
    obtain rfl | ⟨read', rfl, hread⟩ := List.prefix_cons_iff.mp h
    · rfl
    · rw [List.flatten_cons, List.cons_append, List.cons_append, List.cons_append, List.nil_append,
        units_pair, ih hread]
  | case2 c t hpair ih =>
    obtain rfl | ⟨read', rfl, hread⟩ := List.prefix_cons_iff.mp h
    · rfl
    · have hhead : c = '\r' → read'.flatten.head? ≠ some '\n' := by
        intro hc hhead
        obtain ⟨u, hu⟩ := List.head?_eq_some_iff.mp hhead
        obtain ⟨more, hmore⟩ := hread
        have ht := flatten_units t
        rw [← hmore, List.flatten_append, hu] at ht
        exact hpair _ hc ht.symm
      rw [List.flatten_cons, List.cons_append, List.cons_append, List.nil_append,
        units_escape hhead, ih hread]
  | case3 c t hpair hescape ih =>
    obtain rfl | ⟨read', rfl, hread⟩ := List.prefix_cons_iff.mp h
    · rfl
    · have hcons : units (c :: read'.flatten) = [c] :: units read'.flatten := by
        by_cases hc : c = '\\'
        · cases t with
          | nil =>
            obtain rfl := List.prefix_nil.mp hread
            rw [hc]
            exact units_backslash
          | cons d u => exact (hescape d u hc rfl).elim
        · exact units_cons hc _
      rw [List.flatten_cons, List.cons_append, List.nil_append, hcons, ih hread]
  | case4 =>
    obtain rfl := List.prefix_nil.mp h
    rfl

theorem take_flatten (h : read <+: units t) : t.take read.flatten.length = read.flatten := by
  obtain ⟨more, hmore⟩ := h
  have ht := flatten_units t
  rw [← hmore, List.flatten_append] at ht
  rw [← ht]
  exact List.take_left

/-! ## Quotes in a row -/

theorem QuoteWidth.count_pos (width : QuoteWidth) : 0 < width.count := by
  cases width <;> decide

theorem not_closes (h : run < width.count) :
    ¬ Closes quote width (List.replicate run [quote] ++ []) := by
  intro hcloses
  have hlength := hcloses.length_le
  simp only [List.append_nil, List.length_replicate] at hlength
  omega

theorem closes_quote : Closes quote width (List.replicate run [quote] ++ [quote] :: read) ↔
    Closes quote width (List.replicate (run + 1) [quote] ++ read) := by
  rw [List.replicate_succ', List.append_assoc]
  rfl

/-- Whatever else is read, the quotes in front of it do not count. -/
theorem closes_of_ne (h : unit ≠ [quote]) :
    Closes quote width (List.replicate run [quote] ++ unit :: read) ↔
      Closes quote width (List.replicate 0 [quote] ++ read) := by
  rw [List.replicate_zero, List.nil_append]
  constructor
  · intro hcloses
    have hnot : unit ∉ List.replicate width.count [quote] :=
      fun hmem => h (List.eq_of_mem_replicate hmem)
    rcases List.suffix_or_suffix_of_suffix hcloses (List.suffix_append _ _) with hshort | hlong
    · rcases List.suffix_cons_iff.mp hshort with heq | htail
      · rw [heq] at hnot
        exact absurd List.mem_cons_self hnot
      · exact htail
    · exact absurd (hlong.subset List.mem_cons_self) hnot
  · intro hcloses
    exact hcloses.trans ((List.suffix_cons unit read).trans (List.suffix_append _ _))

/-! ## The first end, one unit after the other -/

theorem FirstEnd.ne_nil (hrun : run < width.count) (h : FirstEnd quote width run t read) :
    read ≠ [] := by
  rintro rfl
  exact not_closes hrun h.closes

/-- One unit more does not end the literal. -/
theorem firstEnd_cons (hrun : run < width.count) (ht : units t = unit :: units u)
    (hcloses : ∀ read, Closes quote width (List.replicate run [quote] ++ unit :: read) ↔
      Closes quote width (List.replicate run' [quote] ++ read)) :
    FirstEnd quote width run t read ↔ ∃ read', read = unit :: read' ∧
      (width = .single → ¬ IsBreak unit) ∧ FirstEnd quote width run' u read' := by
  constructor
  · intro h
    have hread := h.isRead
    rw [ht] at hread
    obtain hnil | ⟨read', rfl, hread'⟩ := List.prefix_cons_iff.mp hread
    · exact absurd hnil (h.ne_nil hrun)
    refine ⟨read', rfl, fun hsingle => h.inLine hsingle unit List.mem_cons_self, ?_⟩
    constructor
    · exact hread'
    · exact (hcloses read').mp h.closes
    · intro before hbefore hbeforeCloses
      have heq := h.first (unit :: before) ((List.prefix_cons_inj unit).mpr hbefore)
        ((hcloses before).mpr hbeforeCloses)
      exact (List.cons.inj heq).2
    · exact fun hsingle other hmem => h.inLine hsingle other (List.mem_cons_of_mem unit hmem)
  · rintro ⟨read', rfl, hinLine, h⟩
    constructor
    · rw [ht]
      exact (List.prefix_cons_inj unit).mpr h.isRead
    · exact (hcloses read').mpr h.closes
    · intro before hbefore hbeforeCloses
      obtain rfl | ⟨before', rfl, hbefore'⟩ := List.prefix_cons_iff.mp hbefore
      · exact absurd hbeforeCloses (not_closes hrun)
      · rw [h.first before' hbefore' ((hcloses before').mp hbeforeCloses)]
    · intro hsingle
      exact List.forall_mem_cons.mpr ⟨hinLine hsingle, h.inLine hsingle⟩

theorem firstEnd_quote (hrun : run < width.count) (hquote : quote ≠ '\\')
    (hbreak : Text.isLineBreak quote = false) :
    FirstEnd quote width run (quote :: t) read ↔
      ∃ read', read = [quote] :: read' ∧ FirstEnd quote width (run + 1) t read' := by
  rw [firstEnd_cons hrun (units_cons hquote t) fun _ => closes_quote]
  have hnot : ¬ IsBreak [quote] := by
    rintro ⟨c, heq, hc⟩
    obtain rfl := (List.cons.inj heq).1
    rw [hbreak] at hc
    cases hc
  simp only [hnot, not_false_iff, implies_true, true_and]

theorem firstEnd_unit (hrun : run < width.count) (ht : units t = unit :: units u)
    (hunit : unit ≠ [quote]) :
    FirstEnd quote width run t read ↔ ∃ read', read = unit :: read' ∧
      (width = .single → ¬ IsBreak unit) ∧ FirstEnd quote width 0 u read' :=
  firstEnd_cons hrun ht fun _ => closes_of_ne hunit

/-- After as many quotes as close it the literal is at its end. -/
theorem firstEnd_count : FirstEnd quote width width.count t read ↔ read = [] := by
  have hcloses : Closes quote width (List.replicate width.count [quote] ++ []) := by
    rw [List.append_nil]
    exact List.suffix_rfl
  constructor
  · intro h
    exact (h.first [] List.nil_prefix hcloses).symm
  · rintro rfl
    constructor
    · exact List.nil_prefix
    · exact hcloses
    · exact fun before hbefore _ => List.prefix_nil.mp hbefore
    · exact fun _ => List.forall_mem_nil _

theorem FirstEnd.unique (h : FirstEnd quote width run t read)
    (h' : FirstEnd quote width run t read') : read = read' := by
  rcases List.prefix_or_prefix_of_prefix h.isRead h'.isRead with hshort | hlong
  · exact h'.first read hshort h.closes
  · exact (h.first read' hlong h'.closes).symm

/-- What is behind the end does not matter. -/
theorem FirstEnd.alone (h : FirstEnd quote width run t read) :
    FirstEnd quote width run read.flatten read where
  isRead := (units_flatten h.isRead).symm ▸ List.prefix_rfl
  closes := h.closes
  first := h.first
  inLine := h.inLine

/-- A literal with one quote ends at the first unit that is the quote, if no line break comes
before it. -/
theorem firstEnd_single_iff : FirstEnd quote .single 0 t read ↔ ∃ items, read = items ++ [[quote]] ∧
    read <+: units t ∧ [quote] ∉ items ∧ ∀ item ∈ read, ¬ IsBreak item := by
  have hcloses (us : List Text) : Closes quote .single (List.replicate 0 [quote] ++ us) ↔
      [[quote]] <:+ us := Iff.rfl
  constructor
  · intro h
    obtain ⟨items, rfl⟩ := (hcloses read).mp h.closes
    refine ⟨items, rfl, h.isRead, fun hmem => ?_, h.inLine rfl⟩
    obtain ⟨front, back, rfl⟩ := List.append_of_mem hmem
    have hbefore : front ++ [[quote]] <+: front ++ [quote] :: back ++ [[quote]] :=
      ⟨back ++ [[quote]], by simp⟩
    have heq := h.first _ hbefore ((hcloses _).mpr (List.suffix_append _ _))
    have hlength := congrArg List.length heq
    simp only [List.length_append, List.length_cons, List.length_nil] at hlength
    omega
  · rintro ⟨items, rfl, hread, hitems, hinLine⟩
    constructor
    · exact hread
    · exact (hcloses _).mpr (List.suffix_append _ _)
    · intro before hbefore hend
      rcases List.prefix_concat_iff.mp hbefore with heq | hshort
      · exact heq
      · have hmem : [quote] ∈ items :=
          hshort.subset (((hcloses before).mp hend).subset List.mem_cons_self)
        exact absurd hmem hitems
    · exact fun _ => hinLine

/-- The extent is that of the text up to the first end, or there is no end. -/
inductive Finds (quote : Char) (width : QuoteWidth) (run : Nat) (t : Text) : Extent → Prop
  | closed {read : List Text} (h : FirstEnd quote width run t read) :
      Finds quote width run t ⟨read.flatten.length, true⟩
  | unclosed {length : Nat} (h : ∀ read, ¬ FirstEnd quote width run t read) :
      Finds quote width run t ⟨length, false⟩

theorem Finds.after {extent : Extent} (h : Finds quote width run' u extent) (unit : Text)
    (hmore : ∀ read, FirstEnd quote width run t read ↔
      ∃ read', read = unit :: read' ∧ FirstEnd quote width run' u read') :
    Finds quote width run t (extent.after unit.length) := by
  cases h with
  | @closed read h =>
    have hlength : (unit :: read).flatten.length = unit.length + read.flatten.length := by
      rw [List.flatten_cons, List.length_append]
    rw [Extent.after, ← hlength]
    exact .closed ((hmore _).mpr ⟨read, rfl, h⟩)
  | unclosed h =>
    refine .unclosed fun read hread => ?_
    obtain ⟨read', -, hread'⟩ := (hmore read).mp hread
    exact h read' hread'

/-- The two or three characters of an escape end neither the literal nor its line. -/
theorem Finds.escape {extent : Extent} {d : Char} {w : Text} (h : Finds quote width 0 u extent)
    (hrun : run < width.count) (ht : units t = (c :: d :: w) :: units u) :
    Finds quote width run t (extent.after (c :: d :: w).length) := by
  refine h.after _ fun read => ?_
  rw [firstEnd_unit hrun ht (by simp)]
  simp [IsBreak]

theorem finds_stringBody (hquote : isQuote quote = true) (hrun : run < width.count) :
    Finds quote width run t (stringBody quote width run t) := by
  have hescape : '\\' ≠ quote := (ne_of_isQuote hquote).2.2
  have hbreak : Text.isLineBreak quote = false := by
    by_contra hbreak
    rw [isQuote_of_isLineBreak (by simpa using hbreak)] at hquote
    cases hquote
  fun_induction stringBody quote width run t with
  | case1 run =>
    refine .unclosed fun read hread => hread.ne_nil hrun ?_
    exact List.prefix_nil.mp hread.isRead
  | case2 run u hlast =>
    have hend : FirstEnd quote width run (quote :: u) [[quote]] := by
      rw [firstEnd_quote hrun hescape.symm hbreak, hlast]
      exact ⟨[], rfl, firstEnd_count.mpr rfl⟩
    exact .closed hend
  | case3 run u hmore ih =>
    exact (ih (by omega)).after [quote] fun read => firstEnd_quote hrun hescape.symm hbreak
  | case4 =>
    refine .unclosed fun read hread => ?_
    rw [firstEnd_unit (u := []) hrun units_backslash (by simpa using hescape)] at hread
    obtain ⟨read', -, -, hread'⟩ := hread
    exact hread'.ne_nil width.count_pos (List.prefix_nil.mp hread'.isRead)
  | case5 run u _ ih =>
    exact (ih width.count_pos).escape hrun (units_pair u)
  | case6 run c u hpair _ ih =>
    refine (ih width.count_pos).escape hrun (units_escape fun hc hu => ?_)
    obtain ⟨v, rfl⟩ := List.head?_eq_some_iff.mp hu
    exact hpair v hc rfl
  | case7 run c u hne hslash hline =>
    refine .unclosed fun read hread => ?_
    rw [firstEnd_unit hrun (units_cons hslash u) (by simpa using hne)] at hread
    obtain ⟨read', -, hinLine, -⟩ := hread
    exact hinLine hline.1 ⟨c, rfl, hline.2⟩
  | case8 run c u hne hslash hline ih =>
    refine (ih width.count_pos).after [c] fun read => ?_
    rw [firstEnd_unit hrun (units_cons hslash u) (by simpa using hne)]
    have hinLine : width = .single → ¬ IsBreak [c] := by
      rintro hsingle ⟨d, heq, hd⟩
      obtain rfl := (List.cons.inj heq).1
      exact hline ⟨hsingle, hd⟩
    simp only [and_iff_right hinLine]

end Verbatim.Lexeme
