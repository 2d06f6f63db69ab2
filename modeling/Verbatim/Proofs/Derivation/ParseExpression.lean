import Verbatim.Proofs.Derivation.Level
import Verbatim.Proofs.Grammar.Returns

/-!
# Parsed expressions are derived

Each rule of the expression grammar returns a tree that is derived from the phrase of the
rule, provided that the rules it enters again do. Where a rule takes a token without a test
of its own, the caller has looked at the kind of the token.
-/

namespace Verbatim.Grammar

open Verbatim.Parser

/-- From this stream the parser returns trees of the phrase only. -/
abbrev DerivesAt (p : Parser Expr) (s : Stream) (P : Phrase) : Prop :=
  Returns p s fun e => Derives P (.expr e)

def Rule.phrase : Rule → Phrase
  | .test => .test
  | .testNoConditional => .noConditional
  | .orTest => .orTest
  | .expr => .expr
  | .notTest => .level .not
  | .factor => .factor

/-! ## Lists and operators -/

section Operators

variable {s : Stream} {element operand : Parser Expr} {P : Phrase} {L : Level}

theorem derives_commaListFrom {kind : SequenceKind} (hkind : P.ElementOf kind)
    (helement : ∀ u, DerivesAt element u P) (n : Nat) (continues : TokenKind → Bool)
    {first : Expr} (hfirst : Derives P (.expr first)) :
    DerivesAt (commaListFrom n kind continues element first) s (.list kind P) := by
  refine .separatedFrom (B := fun _ => True) helement
    (fun _ _ => .of_forall fun _ _ => trivial) hfirst fun r u hr => ?_
  obtain ⟨items, trailing⟩ := r
  obtain ⟨hrow, _, htrailing⟩ := hr
  split
  · next single heq =>
    cases heq
    exact .pure (.unit (.single kind P) (hrow.items single (by simp)))
  · next items' trailing' hmany heq =>
    cases heq
    refine .spanFrom fun span => .pure ?_
    refine .sequence hrow.items hrow.separators htrailing ?_ hkind
    cases items with
    | cons a t rest => exact .inl (by simp)
    | one a =>
      cases trailing with
      | some t => exact .inr rfl
      | none => exact (hmany a rfl rfl).elim

theorem derives_commaList {kind : SequenceKind} (hkind : P.ElementOf kind)
    (helement : ∀ u, DerivesAt element u P) (continues : TokenKind → Bool) :
    DerivesAt (commaList kind continues element) s (.list kind P) := by
  refine .start fun n => (helement s).bind fun first u hfirst => ?_
  exact derives_commaListFrom hkind helement n continues hfirst

theorem derives_prefixed {kind : UnaryKind} (hkind : kind.mark? = some s.current.kind)
    (hoperand : ∀ u, DerivesAt operand u (.level L)) :
    DerivesAt (prefixed kind operand) s (.starred kind L) := by
  refine .start fun _ => .bump fun u => (hoperand u).bind fun e v he => ?_
  exact .spanFrom fun span => .pure (.starred hkind he)

/-- The operation goes with a left operand of the level. -/
def Fits (L : Level) (operation : Operation) : Prop :=
  L.Admits operation ∧ Derives (.level L.tighter) (.expr operation.right)

theorem derives_foldl {operations : List Operation} (h : ∀ o ∈ operations, Fits L o)
    {first : Expr} (hfirst : Derives (.level L) (.expr first)) :
    Derives (.level L) (.expr (operations.foldl Operation.applyTo first)) := by
  induction operations generalizing first with
  | nil => exact hfirst
  | cons operation operations ih =>
    obtain ⟨⟨hadmits, hright⟩, hrest⟩ := List.forall_mem_cons.mp h
    apply ih hrest
    cases operation with
    | binary span kind op right => exact .binary hadmits hfirst hright
    | compound span kind op second right => exact .compound hadmits hfirst hright

theorem fits_operation {kind : BinaryKind} {n : Nat}
    (hadmits : ∀ span right, L.Admits (.binary span kind s.current right))
    (hoperand : ∀ u, DerivesAt operand u (.level L.tighter)) :
    Returns (operation n kind operand) s (Fits L) := by
  refine .bump fun u => (hoperand u).bind fun right v hright => ?_
  exact .spanFrom fun span => .pure ⟨hadmits span right, hright⟩

theorem derives_leftFold {level : FoldLevel}
    (hoperand : ∀ u, DerivesAt operand u (.level (Level.fold level).tighter)) :
    DerivesAt (leftFold level operand) s (.level (.fold level)) := by
  refine .start fun n => (hoperand s).bind fun first u hfirst => ?_
  refine .many (M := Fits (.fold level)) (fun v part hpart => ?_) fun operations v h =>
    .pure (derives_foldl h (.unit (.tighter _) hfirst))
  obtain ⟨kind, hkind, rfl⟩ := Option.map_eq_some_iff.mp hpart
  exact fits_operation (fun _ _ => .operator hkind) hoperand

theorem fits_notIn {n : Nat} (hs : s.current.kind = .kwNot)
    (hoperand : ∀ u, DerivesAt operand u (.level Level.comparison.tighter)) :
    Returns (notIn n operand) s (Fits .comparison) := by
  refine .bump fun u => .expect fun second v hsecond => ?_
  refine (hoperand v).bind fun right w hright => .spanFrom fun span => .pure ?_
  exact ⟨.notIn hs hsecond, hright⟩

theorem fits_isOrIsNot {n : Nat} (hs : s.current.kind = .kwIs)
    (hoperand : ∀ u, DerivesAt operand u (.level Level.comparison.tighter)) :
    Returns (isOrIsNot n operand) s (Fits .comparison) := by
  refine .bump fun u => .eat fun o v ho => ?_
  cases o with
  | some second =>
    refine (hoperand v).bind fun right w hright => .spanFrom fun span => .pure ?_
    exact ⟨.isNot hs (ho second rfl), hright⟩
  | none =>
    refine (hoperand v).bind fun right w hright => .spanFrom fun span => .pure ?_
    exact ⟨.same hs, hright⟩

theorem derives_comparisons
    (hoperand : ∀ u, DerivesAt operand u (.level Level.comparison.tighter)) :
    DerivesAt (comparisons operand) s (.level .comparison) := by
  refine .start fun n => (hoperand s).bind fun first u hfirst => ?_
  refine .many (M := Fits .comparison) (fun v part hpart => ?_) fun operations v h =>
    .pure (derives_foldl h (.unit (.tighter _) hfirst))
  unfold comparisonChoice at hpart
  split at hpart
  · next hkind =>
    cases hpart
    exact fits_notIn hkind hoperand
  · next hkind =>
    cases hpart
    exact fits_isOrIsNot hkind hoperand
  · obtain ⟨kind, hkind, rfl⟩ := Option.map_eq_some_iff.mp hpart
    exact fits_operation (fun _ _ => .comparison hkind) hoperand

/-- What stands in brackets, and the kinds of the brackets. -/
structure Bracketed (opener closer : TokenKind) (P : Phrase)
    (r : Token × Option Expr × Token) : Prop where
  opener : r.1.kind = opener
  body : ∀ e, r.2.1 = some e → Derives P (.expr e)
  closer : r.2.2.kind = closer

theorem bracketed_returns {body : Parser Expr} {opener closer : TokenKind}
    (hs : s.current.kind = opener) (hbody : ∀ u, DerivesAt body u P) :
    Returns (bracketed closer body) s (Bracketed opener closer P) := by
  refine .bump fun u => .optionalBy (fun _ => hbody u) fun inside v hinside => ?_
  exact .expect fun last w hlast => .pure ⟨hs, hinside, hlast⟩

end Operators

section Rules

variable {rules : Rules} {s : Stream}
  (hrules : ∀ rule u, DerivesAt (rules rule) u rule.phrase)

include hrules

/-! ## Elements of lists -/

theorem derives_starExpr (hs : s.current.kind = .star) :
    DerivesAt (starExpr rules) s (.starred .star (.fold .bitOr)) :=
  derives_prefixed (by rw [hs]; rfl) (hrules .expr)

theorem derives_testOrStar : DerivesAt (testOrStar rules) s .testOrStar := by
  refine .isAt (fun hs => ?_) fun _ => ?_
  · exact (derives_starExpr hrules hs).mono fun _ => .unit .testStar
  · exact (hrules .test s).mono fun _ => .unit .testOrStar

theorem derives_exprOrStar : DerivesAt (exprOrStar rules) s .exprOrStar := by
  refine .isAt (fun hs => ?_) fun _ => ?_
  · exact (derives_starExpr hrules hs).mono fun _ => .unit .exprStar
  · exact (hrules .expr s).mono fun _ => .unit .exprOrStar

theorem derives_testList : DerivesAt (testList rules) s (.list .testList .test) :=
  derives_commaList .test (hrules .test) _

theorem derives_testOrStarList :
    DerivesAt (testOrStarList rules) s (.list .testList .testOrStar) :=
  derives_commaList .testOrStar (fun _ => derives_testOrStar hrules) _

theorem derives_exprList : DerivesAt (exprList rules) s (.list .exprList .exprOrStar) :=
  derives_commaList .exprOrStar (fun _ => derives_exprOrStar hrules) _

theorem derives_starredTest {plain : Parser Expr} {P : Phrase}
    (hstarred : ∀ kind, P.Includes (.starred kind .test)) (hplain : DerivesAt plain s P) :
    DerivesAt (starredTest rules plain) s P := by
  apply Leaves.peek
  split
  · next hs =>
    exact (derives_prefixed (by rw [hs]; rfl) (hrules .test)).mono fun _ => .unit (hstarred _)
  · next hs =>
    exact (derives_prefixed (by rw [hs]; rfl) (hrules .test)).mono fun _ => .unit (hstarred _)
  · exact hplain

theorem derives_typeList : DerivesAt (typeList rules) s (.list .typeList .typeElement) :=
  derives_commaList .typeElement (fun u => derives_starredTest hrules .typeStar
    ((hrules .test u).mono fun _ => .unit .typeElement)) _

theorem derives_namedTest : DerivesAt (namedTest rules) s .named := by
  refine .start fun _ => (hrules .test s).bind fun left u hleft => .isAt (fun hs => ?_) fun _ => ?_
  · refine .ite (fun hname => .bump fun v => ?_) fun _ => .fail
    refine (hrules .test v).bind fun right w hright => .spanFrom fun span => .pure ?_
    exact .named hs hname hleft hright
  · exact .pure (.unit .named hleft)

theorem derives_namedOrStar : DerivesAt (namedOrStar rules) s .namedOrStar := by
  refine .isAt (fun hs => ?_) fun _ => ?_
  · exact (derives_starExpr hrules hs).mono fun _ => .unit .namedStar
  · exact (derives_namedTest hrules).mono fun _ => .unit .namedOrStar

/-! ## Comprehensions -/

theorem derives_loop {next : Parser (Option Clause)}
    (hnext : ∀ u, Returns next u fun o => ∀ c, o = some c → Derives .clause (.clause c)) :
    Returns (loop rules next) s fun c => Derives .loop (.clause c) := by
  refine .start fun _ => .eat fun async u hasync => .expect fun forToken v hfor => ?_
  refine (derives_exprList hrules).bind fun targets w htargets => .expect fun inToken x hin => ?_
  refine (hrules .orTest x).bind fun source y hsource => (hnext y).bind fun c z hc => ?_
  exact .spanFrom fun span => .pure (.loop hasync hfor hin htargets hsource hc)

theorem derives_guardClause {next : Parser (Option Clause)} (hs : s.current.kind = .kwIf)
    (hnext : ∀ u, Returns next u fun o => ∀ c, o = some c → Derives .clause (.clause c)) :
    Returns (guardClause rules next) s fun c => Derives .clause (.clause c) := by
  refine .start fun _ => .bump fun u => (hrules .testNoConditional u).bind
    fun condition v hcondition => (hnext v).bind fun c w hc => ?_
  exact .spanFrom fun span => .pure (.guard hs hcondition hc)

theorem derives_nextClauseUpTo (n : Nat) (s : Stream) :
    Returns (nextClauseUpTo rules n) s fun o => ∀ c, o = some c → Derives .clause (.clause c) := by
  induction n generalizing s with
  | zero => exact .pure (by simp)
  | succ n ih =>
    apply Leaves.peek
    unfold clauseChoice
    split
    · next part hpart =>
      refine Leaves.bind (M := fun c _ => Derives .clause (.clause c)) ?_
        fun c u hc => .pure (by rintro _ ⟨⟩; exact hc)
      split at hpart
      · cases hpart
        exact (derives_loop hrules ih).mono fun _ => .unit .firstClause
      · split at hpart
        · next hs =>
          cases hpart
          exact derives_guardClause hrules (beq_iff_eq.mp hs) ih
        · cases hpart
    · exact .pure (by simp)

theorem derives_comprehension {element : Expr} {P : Phrase} {kind : SequenceKind}
    (hkind : P.ElementOf kind) (n : Nat) (helement : Derives P (.expr element))
    (hentry : kind = .dictMaker → isUnpacking element = false) :
    DerivesAt (comprehension rules n element) s (.comprehensionOrList kind P) := by
  refine (derives_loop hrules ?_).bind fun clause u hclause => .spanFrom fun span => .pure ?_
  · intro u o v h
    exact derives_nextClauseUpTo hrules _ u o v h
  · exact .comprehension helement hclause hentry hkind

theorem derives_comprehensionOrList {element : Parser Expr} {P : Phrase} {first : Expr}
    {kind : SequenceKind} (hkind : P.ElementOf kind) (n : Nat)
    (helement : ∀ u, DerivesAt element u P) (hfirst : Derives P (.expr first))
    (hentry : kind = .dictMaker → startsLoop s.current.kind = true → isUnpacking first = false) :
    DerivesAt (comprehensionOrList rules n kind element first) s (.comprehensionOrList kind P) := by
  refine .peek (.ite (fun hloop => ?_) fun _ => ?_)
  · exact derives_comprehension hrules hkind n hfirst fun hdict => hentry hdict hloop
  · exact (derives_commaListFrom hkind helement n _ hfirst).mono fun _ => .unit (.plainList kind P)

theorem derives_testListComp :
    DerivesAt (testListComp rules) s (.comprehensionOrList .testListComp .namedOrStar) := by
  refine .start fun n => (derives_namedOrStar hrules).bind fun first u hfirst => ?_
  exact derives_comprehensionOrList hrules .namedOrStar n (fun _ => derives_namedOrStar hrules)
    hfirst fun h => by cases h

/-! ## Displays in braces -/

theorem derives_dictElement : DerivesAt (braceElement rules .dictionary) s .dictElement := by
  refine .peek (.ite (fun h => ?_) fun _ => .ite (fun h => absurd rfl h.2) fun _ => ?_)
  · exact (derives_prefixed (by rw [h.1]; rfl) (hrules .expr)).mono fun _ => .unit .unpacking
  · refine .start fun n => (hrules .test s).bind fun key u hkey => .peek (.ite (fun h => ?_) ?_)
    · rcases h with h | ⟨h, _⟩ <;> cases h
    · intro _
      refine .expect fun colon v hcolon => (hrules .test v).bind fun value w hvalue => ?_
      exact .spanFrom fun span => .pure (.dictEntry hcolon hkey hvalue)

theorem derives_setElement : DerivesAt (braceElement rules .set) s .setElement := by
  refine .peek (.ite (fun h => absurd rfl h.2) fun _ => .ite (fun h => ?_) fun _ => ?_)
  · exact (derives_starExpr hrules h.1).mono fun _ => .unit .elementStar
  · refine .start fun n => (hrules .test s).bind fun key u hkey => .peek ?_
    exact .ite (fun _ => .pure (.unit .element hkey)) fun h => absurd (.inl rfl) h

omit hrules in
theorem isUnpacking_of_starred {L : Level} {e : Expr}
    (h : Derives (.starred .doubleStar L) (.expr e)) : isUnpacking e = true := by
  cases h with
  | unit h => cases h
  | starred => rfl
  | lambda h => rcases h with h | h <;> cases h

omit hrules in
theorem plain_of_setElement {e : Expr} (h : Derives .setElement (.expr e)) :
    (isDictEntry e || isUnpacking e) = false := by
  cases h with
  | unit h hn =>
    cases h with
    | element =>
      rw [hn.within.isDictEntry_eq_false, hn.within.isUnpacking_eq_false]
      rfl
    | elementStar =>
      cases hn with
      | unit h => cases h
      | starred => rfl
      | lambda h => rcases h with h | h <;> cases h
  | lambda h => rcases h with h | h <;> cases h

/-- The phrase of the elements of a display, as its first element decides. -/
def elementPhrase (first : Expr) : Phrase :=
  if isDictEntry first || isUnpacking first then .dictElement else .setElement

theorem derives_firstElement :
    Returns (braceElement rules .undecided) s fun e => Derives (elementPhrase e) (.expr e) := by
  have hset : ∀ e, Derives .setElement (.expr e) → Derives (elementPhrase e) (.expr e) := by
    intro e he
    rwa [elementPhrase, plain_of_setElement he]
  refine .peek (.ite (fun h => ?_) fun _ => .ite (fun h => ?_) fun _ => ?_)
  · refine (derives_prefixed (by rw [h.1]; rfl) (hrules .expr)).mono fun e he => ?_
    rw [elementPhrase, isUnpacking_of_starred he, Bool.or_true]
    exact .unit .unpacking he
  · exact (derives_starExpr hrules h.1).mono fun e he => hset e (.unit .elementStar he)
  · refine .start fun n => (hrules .test s).bind fun key u hkey => .peek (.ite ?_ ?_)
    · exact fun _ => .pure (hset key (.unit .element hkey))
    · intro _
      refine .expect fun colon v hcolon => (hrules .test v).bind fun value w hvalue => ?_
      exact .spanFrom fun span => .pure (.dictEntry hcolon hkey hvalue)

theorem derives_braceBody {first : Expr} (n : Nat)
    (hfirst : Derives (elementPhrase first) (.expr first)) :
    DerivesAt (braceBody rules n first (isDictEntry first || isUnpacking first)) s
      (.inside (if isDictEntry first || isUnpacking first then .dictionary else .set)) := by
  refine .peek (.ite (fun _ => .fail) fun hloop => ?_)
  have hentry : startsLoop s.current.kind = true → isUnpacking first = false := by
    intro h
    simpa [h] using hloop
  rw [elementPhrase] at hfirst
  split
  · next h =>
    rw [if_pos h] at hfirst
    exact (derives_comprehensionOrList hrules .dictElement n (fun _ => derives_dictElement hrules)
      hfirst fun _ => hentry).mono fun _ => .unit .dictionary
  · next h =>
    rw [if_neg h] at hfirst
    exact (derives_comprehensionOrList hrules .setElement n (fun _ => derives_setElement hrules)
      hfirst fun h => by cases h).mono fun _ => .unit .set

theorem derives_braceDisplay (hs : s.current.kind = .leftBrace) :
    DerivesAt (braceDisplay rules) s (.level .atom) := by
  refine .start fun _ => .bump fun u => .eat fun o v ho => ?_
  cases o with
  | some closer =>
    refine .spanFrom fun span => .pure ?_
    exact .display hs (ho closer rfl) (by simp) fun h => by cases h
  | none =>
    refine .start fun n => (derives_firstElement hrules).bind fun first w hfirst => ?_
    refine (derives_braceBody hrules n hfirst).bind fun body x hbody => ?_
    refine .expect fun closer y hcloser => .spanFrom fun span => .pure ?_
    split at hbody
    · next h =>
      rw [if_pos h]
      refine .display hs hcloser ?_ fun h => by cases h
      rintro _ ⟨⟩
      exact hbody
    · next h =>
      rw [if_neg h]
      refine .display hs hcloser ?_ fun _ => rfl
      rintro _ ⟨⟩
      exact hbody

/-! ## Calls, subscripts and yields -/

theorem derives_argument : DerivesAt (argument rules) s .argument := by
  refine derives_starredTest hrules .argumentStar (.start fun n => ?_)
  refine (derives_namedTest hrules).bind fun name u hleft => .isAt (fun hs => ?_) fun _ => ?_
  · refine .ite (fun hname => .bump fun v => ?_) fun _ => .fail
    refine (hrules .test v).bind fun value w hvalue => .spanFrom fun span => .pure ?_
    exact .argument hs hname hleft hvalue
  · exact .pure (.unit .argument hleft)

theorem derives_argList :
    DerivesAt (argList rules) s (.comprehensionOrList .argList .argument) := by
  refine .start fun n => (derives_argument hrules).bind fun first u hfirst => ?_
  exact derives_comprehensionOrList hrules .argument n (fun _ => derives_argument hrules) hfirst
    fun h => by cases h

theorem derives_optionalTest :
    Returns (optionalTest rules) s fun o => ∀ e, o = some e → Derives .test (.expr e) :=
  .ofBind (.optionalBy (fun _ => hrules .test s) fun _ _ h => .pure h)

/-- A slice after its lower bound. -/
theorem derives_sliceFrom {lower : Option Expr} (n : Nat) (hs : s.current.kind = .colon)
    (hlower : ∀ e, lower = some e → Derives .test (.expr e)) :
    DerivesAt (sliceFrom rules n lower) s .subscript := by
  refine .bump fun u => (derives_optionalTest hrules).bind fun upper v hupper => ?_
  refine .optionalBy (M := fun step => ∃ second value, step = .mk second value ∧
    second.kind = .colon ∧ ∀ e, value = some e → Derives .test (.expr e)) (fun hkind => ?_)
    fun step w hstep => .spanFrom fun span => .pure ?_
  · refine .bump fun w => (derives_optionalTest hrules).bind fun value x hvalue => .pure ?_
    exact ⟨_, value, rfl, beq_iff_eq.mp hkind, hvalue⟩
  · refine .slice hs hlower hupper (fun second value h => ?_) fun second e h => ?_
    · obtain ⟨_, _, heq, hkind, _⟩ := hstep _ h
      cases heq
      exact hkind
    · obtain ⟨_, _, heq, _, hvalue⟩ := hstep _ h
      cases heq
      exact hvalue e rfl

theorem derives_subscript : DerivesAt (subscript rules) s .subscript := by
  refine .start fun n => .isAt (fun hs => ?_) fun _ => ?_
  · exact derives_sliceFrom hrules n hs (by simp)
  · refine (hrules .test s).bind fun lower u hlower => .isAt (fun hu => ?_) fun _ => ?_
    · refine derives_sliceFrom hrules n hu ?_
      rintro _ ⟨⟩
      exact hlower
    · exact .pure (.unit .subscript hlower)

theorem derives_subscriptList :
    DerivesAt (subscriptList rules) s (.list .subscriptList .subscript) :=
  derives_commaList .subscript (fun _ => derives_subscript hrules) _

theorem derives_yieldExpr : DerivesAt (yieldExpr rules) s .yield := by
  refine .start fun n => .expect fun keyword u hkeyword => .eat fun o v ho => ?_
  cases o with
  | some fromToken =>
    refine (hrules .test v).bind fun value w hvalue => .spanFrom fun span => .pure ?_
    exact .yieldFrom hkeyword (ho fromToken rfl) hvalue
  | none =>
    refine .optionalBy (fun _ => derives_testOrStarList hrules) fun value w hvalue => ?_
    exact .spanFrom fun span => .pure (.yield hkeyword hvalue)

/-! ## Parameters -/

theorem derives_declarator (typed : Bool) :
    Returns (declarator rules typed) s fun d => Derives (.declarator typed) (.declarator d) := by
  refine .start fun n => .expect fun name u hname => ?_
  refine .optionalBy (M := fun hint => typed = true ∧ ∃ within colon e,
    hint = .mk within colon e ∧ colon.kind = .colon ∧ Derives .test (.expr e)) (fun hkind => ?_)
    fun hint v hhint => .spanFrom fun span => .pure ?_
  · rw [Bool.and_eq_true, beq_iff_eq] at hkind
    refine .start fun m => .bump fun w => (hrules .test w).bind fun e x he => ?_
    exact .spanFrom fun within => .pure ⟨hkind.1, within, _, e, rfl, hkind.2, he⟩
  · refine .declarator hname (fun htyped => ?_) (fun within colon e h => ?_)
      fun within colon e h => ?_
    · cases hint with
      | none => rfl
      | some hint =>
        rw [(hhint hint rfl).1] at htyped
        cases htyped
    · obtain ⟨_, _, _, _, heq, hcolon, _⟩ := hhint _ h
      cases heq
      exact hcolon
    · obtain ⟨_, _, _, _, heq, _, he⟩ := hhint _ h
      cases heq
      exact he

theorem derives_param (typed : Bool) :
    Returns (param rules typed) s fun p => Derives (.param typed) (.param p) := by
  apply Leaves.peek
  split
  · next hs =>
    refine .start fun n => .bump fun u => .optionalBy (fun _ => derives_declarator hrules typed)
      fun o v ho => ?_
    cases o with
    | some d => exact .spanFrom fun span => .pure (.variadic hs (ho d rfl))
    | none => exact .spanFrom fun span => .pure (.keywordOnly hs)
  · next hs =>
    refine .start fun n => .bump fun u => (derives_declarator hrules typed).bind fun d v hd => ?_
    exact .spanFrom fun span => .pure (.keywordVariadic hs hd)
  · next hs => exact .bump fun u => .pure (.positionalOnly hs)
  · refine .start fun n => (derives_declarator hrules typed).bind fun d u hd => ?_
    refine .eat fun o v ho => ?_
    cases o with
    | some assign =>
      refine (hrules .test v).bind fun value w hvalue => .spanFrom fun span => .pure ?_
      exact .withDefault hd (ho assign rfl) hvalue
    | none => exact .pure (.single hd)
  · exact .fail

omit hrules in
theorem moreParams_returns (closer : TokenKind) (p : Param) :
    Returns (moreParams closer p) s fun goesOn => goesOn = true → p.isKeywordVariadic = false := by
  refine .isAt (fun _ => .pure fun h => by cases h) fun _ => .ite (fun _ => .fail) fun h => ?_
  exact .pure fun _ => by simpa using h

theorem derives_params (typed : Bool) (closer : TokenKind) :
    Returns (params rules typed closer) s
      fun ps => Derives (.params typed) (.params typed ps) := by
  refine .start fun n => (derives_param hrules typed).bind fun first u hfirst => ?_
  refine .separatedFrom (fun _ => derives_param hrules typed)
    (fun p _ => moreParams_returns closer p) hfirst fun r v hr => .spanFrom fun span => .pure ?_
  exact .params hr.row.items hr.row.separators hr.trailing hr.init

/-! ## Atoms -/

theorem derives_parenBody : DerivesAt (parenBody rules) s (.inside .tuple) := by
  refine .isAt (fun _ => ?_) fun _ => ?_
  · exact (derives_yieldExpr hrules).mono fun _ => .unit .yielded
  · exact (derives_testListComp hrules).mono fun _ => .unit .grouped

omit hrules in
theorem derives_stringLiterals (hs : s.current.kind = .string) :
    DerivesAt stringLiterals s (.level .atom) := by
  refine .start fun n => .bump fun u => ?_
  refine .manyBy (M := fun t => t.kind = .string) (fun v hv => ?_) fun more v hmore => ?_
  · intro t w ht
    rw [(bump_eq_ok ht).1]
    exact beq_iff_eq.mp hv
  · exact .spanFrom fun span => .pure (.strings hs hmore)

omit hrules in
theorem derives_display {body : Parser Expr} {kind : DisplayKind} (hkind : kind ≠ .set)
    (hs : s.current.kind = kind.bracket.openKind) (hbody : ∀ u, DerivesAt body u (.inside kind)) :
    DerivesAt (display kind kind.bracket.closeKind body) s (.level .atom) := by
  refine .start fun n => (bracketed_returns hs hbody).bind fun r u hr => ?_
  refine .spanFrom fun span => .pure ?_
  exact .display hr.opener hr.closer hr.body fun h => absurd h hkind

theorem derives_atom : DerivesAt (atom rules) s (.level .atom) := by
  apply Leaves.peek
  split
  · next hs => exact derives_display (by simp) hs fun _ => derives_parenBody hrules
  · next hs =>
    exact derives_display (by simp) hs
      fun _ => (derives_testListComp hrules).mono fun _ => .unit .listed
  · next hs => exact derives_braceDisplay hrules hs
  · next hs => exact derives_stringLiterals hs
  · split
    · next leaf hleaf => exact .bump fun u => .pure (.leaf hleaf)
    · exact .fail

theorem derives_trailerChoice (part : Parser Trailer)
    (h : trailerChoice rules s.current.kind = some part) :
    Returns part s fun t => Derives .trailer (.trailer t) := by
  unfold trailerChoice at h
  split at h
  · next hs =>
    cases h
    refine .start fun n => .bump fun u => .expect fun name v hname => ?_
    exact .spanFrom fun span => .pure (.member hs hname)
  · next hs =>
    cases h
    refine .start fun n => (bracketed_returns hs fun _ => derives_argList hrules).bind
      fun r u hr => .spanFrom fun span => .pure ?_
    exact .call hr.opener hr.closer hr.body
  · next hs =>
    cases h
    refine .start fun n => (bracketed_returns hs fun _ => derives_subscriptList hrules).bind
      fun r u hr => .spanFrom fun span => .pure ?_
    exact .index hr.opener hr.closer hr.body
  · cases h

theorem derives_appliedAtom : DerivesAt (appliedAtom rules) s (.level .applied) := by
  refine .start fun n => .eat fun await u hawait => (derives_atom hrules).bind fun e v he => ?_
  refine .many (fun w part hpart => derives_trailerChoice hrules part hpart)
    fun trailers w htrailers => .ite (fun _ => .pure (.unit (.tighter .applied) he)) fun h => ?_
  refine .spanFrom fun span => .pure (.applied hawait he htrailers ?_)
  cases await with
  | some t => exact .inl rfl
  | none => exact .inr (by simpa using h)

/-! ## The levels -/

theorem derives_power : DerivesAt (power rules) s (.level .power) := by
  refine .start fun n => (derives_appliedAtom hrules).bind fun base u hbase => .eat fun o v ho => ?_
  cases o with
  | some op =>
    refine (hrules .factor v).bind fun exponent w hexponent => .spanFrom fun span => .pure ?_
    exact .power (ho op rfl) hbase hexponent
  | none => exact .pure (.unit (.tighter .power) hbase)

theorem derives_factor : DerivesAt (factor rules) s .factor := by
  apply Leaves.peek
  split
  · next kind hkind =>
    refine .start fun n => .bump fun u => (hrules .factor u).bind fun operand v hoperand => ?_
    exact .spanFrom fun span => .pure (.sign hkind hoperand)
  · exact (derives_power hrules).mono fun _ => .unit (.tighter .factor)

theorem derives_expr : DerivesAt (expr rules) s .expr := by
  have hterm : ∀ u, DerivesAt (leftFold .term (factor rules)) u (.level (.fold .term)) :=
    fun _ => derives_leftFold fun _ => derives_factor hrules
  have harith : ∀ u, DerivesAt (leftFold .arith _) u (.level (.fold .arith)) :=
    fun _ => derives_leftFold hterm
  have hshift : ∀ u, DerivesAt (leftFold .shift _) u (.level (.fold .shift)) :=
    fun _ => derives_leftFold harith
  have hand : ∀ u, DerivesAt (leftFold .bitAnd _) u (.level (.fold .bitAnd)) :=
    fun _ => derives_leftFold hshift
  have hxor : ∀ u, DerivesAt (leftFold .bitXor _) u (.level (.fold .bitXor)) :=
    fun _ => derives_leftFold hand
  exact derives_leftFold hxor

theorem derives_notTest : DerivesAt (notTest rules) s (.level .not) := by
  refine .isAt (fun hs => ?_) fun _ => ?_
  · refine .start fun n => .bump fun u => (hrules .notTest u).bind fun operand v hoperand => ?_
    exact .spanFrom fun span => .pure (.not hs hoperand)
  · exact (derives_comparisons fun _ => derives_expr hrules).mono fun _ => .unit (.tighter .not)

theorem derives_orTest : DerivesAt (orTest rules) s .orTest := by
  refine derives_leftFold fun _ => derives_leftFold fun _ => ?_
  exact derives_notTest hrules

theorem derives_lambda {body : Parser Expr} {P : Phrase} (hP : P = .test ∨ P = .noConditional)
    (hs : s.current.kind = .kwLambda) (hbody : ∀ u, DerivesAt body u P) :
    DerivesAt (lambda rules body) s P := by
  refine .start fun n => .bump fun u => .optionalBy (fun _ => derives_params hrules false _)
    fun ps v hps => .expect fun colon w hcolon => (hbody w).bind fun e x he => ?_
  exact .spanFrom fun span => .pure (.lambda hP hs hps hcolon he)

theorem derives_test : DerivesAt (test rules) s .test := by
  refine .isAt (fun hs => derives_lambda hrules (.inl rfl) hs (hrules .test)) fun _ => ?_
  refine .start fun n => (derives_orTest hrules).bind fun body u hbody => .eat fun o v ho => ?_
  cases o with
  | some ifToken =>
    refine (derives_orTest hrules).bind fun condition w hcondition => ?_
    refine .expect fun elseToken x helse => (hrules .test x).bind fun alternative y h => ?_
    exact .spanFrom fun span => .pure (.conditional (ho ifToken rfl) helse hbody hcondition h)
  | none => exact .pure (.unit (.tighter .test) hbody)

theorem derives_testNoConditional : DerivesAt (testNoConditional rules) s .noConditional := by
  refine .isAt (fun hs => ?_) fun _ => ?_
  · exact derives_lambda hrules (.inr rfl) hs (hrules .testNoConditional)
  · exact (derives_orTest hrules).mono fun _ => .unit .noConditional

end Rules

/-! ## Tying the knot -/

theorem derives_rulesUpTo (n : Nat) (rule : Rule) (s : Stream) :
    DerivesAt (rulesUpTo n rule) s rule.phrase := by
  induction n generalizing rule s with
  | zero => exact .fail
  | succ n ih =>
    cases rule with
    | test => exact derives_test ih
    | testNoConditional => exact derives_testNoConditional ih
    | orTest => exact derives_orTest ih
    | expr => exact derives_expr ih
    | notTest => exact derives_notTest ih
    | factor => exact derives_factor ih

theorem withRules_returns {α : Type} {parser : Rules → Parser α} {post : α → Prop} {s : Stream}
    (h : ∀ rules : Rules, (∀ rule u, DerivesAt (rules rule) u rule.phrase) →
      Returns (parser rules) s post) : Returns (withRules parser) s post := by
  intro a u ha
  exact h _ (derives_rulesUpTo _) a u ha

end Verbatim.Grammar
