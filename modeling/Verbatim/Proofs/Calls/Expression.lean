import Verbatim.Proofs.Calls.SameBelow
import Verbatim.Proofs.Grammar.Expression

/-!
# How expressions call each other

Each rule of the expression grammar does the same on short streams as long as the rules that it
enters again do, and where it has taken a token by then, one token more is allowed. So the rules
with a level for each token that is left are those of an endless recursion.
-/

namespace Verbatim.Grammar

open Verbatim.Parser

/-- The rules, tied to themselves. -/
def grammarRules : Rules :=
  fun rule => withRules (· rule)

variable {b start : Nat}

/-! ## Lists and operators -/

section Operators

variable {element element' operand operand' : Parser Expr}

theorem descends_commaListEnd (start : Nat) (kind : SequenceKind)
    (r : Separated Expr × Option Token) :
    Descends (match r with
      | (.one single, none) => pure single
      | (items, trailing) => do return .sequence (← spanFrom start) kind items trailing) := by
  split
  · exact descends_pure _
  · exact descends_close

theorem same_commaListFrom (kind : SequenceKind) (continues : TokenKind → Bool)
    (helement : SameBelow b element element') (first : Expr) :
    SameBelow b (commaListFrom start kind continues element first)
      (commaListFrom start kind continues element' first) := by
  refine (SameBelow.separatedFrom (fun _ => ?_) helement first).bind fun r => ?_
  · exact peeks_peek.bind fun _ => peeks_pure _
  · exact .refl (descends_commaListEnd start kind r)

theorem same_commaList (kind : SequenceKind) (continues : TokenKind → Bool)
    (helement : SameBelow b element element') :
    SameBelow b (commaList kind continues element) (commaList kind continues element') :=
  .start fun _ => helement.bind fun first => same_commaListFrom kind continues helement first

theorem same_prefixed (kind : UnaryKind) (hoperand : SameBelow b operand operand') :
    SameBelow (b + 1) (prefixed kind operand) (prefixed kind operand') :=
  .start fun _ => .bump fun _ => hoperand.bind fun _ => .close

theorem same_operation (kind : BinaryKind) (hoperand : SameBelow b operand operand') :
    SameBelow (b + 1) (operation start kind operand) (operation start kind operand') :=
  .bump fun _ => hoperand.bind fun _ => .close

theorem same_leftFold (level : FoldLevel) (hoperand : SameBelow (b + 1) operand operand') :
    SameBelow (b + 1) (leftFold level operand) (leftFold level operand') := by
  refine .start fun start => hoperand.bind fun first => ?_
  refine (SameBelow.many fun kind => ?_).bind fun operations => .pure
  cases level.operator? kind with
  | some op => exact .some (same_operation op hoperand.pred)
  | none => exact .none

theorem same_notIn (hoperand : SameBelow b operand operand') :
    SameBelow (b + 1) (notIn start operand) (notIn start operand') :=
  .bump fun _ => .pastExpect fun _ => hoperand.bind fun _ => .close

theorem same_isOrIsNot (hoperand : SameBelow b operand operand') :
    SameBelow (b + 1) (isOrIsNot start operand) (isOrIsNot start operand') := by
  refine .bump fun first => .pastEat fun second => ?_
  cases second with
  | some second => exact hoperand.bind fun _ => .close
  | none => exact hoperand.bind fun _ => .close

theorem same_comparisons (hoperand : SameBelow (b + 1) operand operand') :
    SameBelow (b + 1) (comparisons operand) (comparisons operand') := by
  refine .start fun start => hoperand.bind fun first => ?_
  refine (SameBelow.many fun kind => ?_).bind fun operations => .pure
  unfold comparisonChoice
  split
  · exact .some (same_notIn hoperand.pred)
  · exact .some (same_isOrIsNot hoperand.pred)
  · cases BinaryKind.comparison? kind with
    | some op => exact .some (same_operation op hoperand.pred)
    | none => exact .none

theorem same_bracketed {body body' : Parser Expr} (closer : TokenKind)
    (hbody : SameBelow b body body') :
    SameBelow (b + 1) (bracketed closer body) (bracketed closer body') :=
  .bump fun _ => (SameBelow.optional (rel_startedBy _ hbody)).bind fun _ =>
    .pastExpect fun _ => .pure

end Operators

section Rules

variable {rules rules' : Rules} (hrules : ∀ rule, SameBelow b (rules rule) (rules' rule))

include hrules

/-! ## Elements of lists -/

theorem same_starExpr : SameBelow (b + 1) (starExpr rules) (starExpr rules') :=
  same_prefixed .star (hrules .expr)

theorem same_testOrStar : SameBelow b (testOrStar rules) (testOrStar rules') :=
  .isAt fun _ => .ite (same_starExpr hrules).pred (hrules .test)

theorem same_exprOrStar : SameBelow b (exprOrStar rules) (exprOrStar rules') :=
  .isAt fun _ => .ite (same_starExpr hrules).pred (hrules .expr)

theorem same_testList : SameBelow b (testList rules) (testList rules') :=
  same_commaList _ _ (hrules .test)

theorem same_testOrStarList : SameBelow b (testOrStarList rules) (testOrStarList rules') :=
  same_commaList _ _ (same_testOrStar hrules)

theorem same_exprList : SameBelow b (exprList rules) (exprList rules') :=
  same_commaList _ _ (same_exprOrStar hrules)

theorem same_starredTest {plain plain' : Parser Expr} (hplain : SameBelow b plain plain') :
    SameBelow b (starredTest rules plain) (starredTest rules' plain') := by
  refine .peek fun kind => ?_
  split
  · exact (same_prefixed .star (hrules .test)).pred
  · exact (same_prefixed .doubleStar (hrules .test)).pred
  · exact hplain

theorem same_typeList : SameBelow b (typeList rules) (typeList rules') :=
  same_commaList _ _ (same_starredTest hrules (hrules .test))

theorem same_namedTest : SameBelow b (namedTest rules) (namedTest rules') := by
  refine .start fun start => (hrules .test).bind fun left => .isAt fun _ => .ite ?_ .pure
  refine .ite ?_ .fail
  exact .past advances_bump.descends fun _ => (hrules .test).bind fun _ => .close

theorem same_namedOrStar : SameBelow b (namedOrStar rules) (namedOrStar rules') :=
  .isAt fun _ => .ite (same_starExpr hrules).pred (same_namedTest hrules)

/-! ## Comprehensions -/

theorem same_loop {next next' : Parser (Option Clause)} (hnext : SameBelow b next next') :
    SameBelow (b + 1) (loop rules next) (loop rules' next') := by
  refine .start fun start => .pastEat fun async => ?_
  refine .expect fun forToken => (same_exprList hrules).bind fun targets => ?_
  refine .pastExpect fun inToken => ?_
  exact (hrules .orTest).bind fun source => hnext.bind fun next => .close

theorem same_guardClause {next next' : Parser (Option Clause)} (hnext : SameBelow b next next') :
    SameBelow (b + 1) (guardClause rules next) (guardClause rules' next') :=
  .start fun _ => .bump fun _ => (hrules .testNoConditional).bind fun _ =>
    hnext.bind fun _ => .close

theorem same_clause {next next' : Parser (Option Clause)} (hnext : SameBelow b next next') :
    SameBelow (b + 1) (optional (clauseChoice rules next))
      (optional (clauseChoice rules' next')) := by
  refine .optional fun kind => ?_
  unfold clauseChoice
  split
  · exact .some (same_loop hrules hnext)
  · split
    · exact .some (same_guardClause hrules hnext)
    · exact .none

theorem same_nextClauseUpTo (n : Nat) :
    SameBelow b (nextClauseUpTo rules n) (nextClauseUpTo rules' n) := by
  induction n with
  | zero => exact .pure
  | succ n ih => exact (same_clause hrules ih).pred

theorem same_nextClause : SameBelow b (nextClause rules) (nextClause rules') :=
  .atLength (same_nextClauseUpTo hrules)

theorem same_comprehension (element : Expr) :
    SameBelow (b + 1) (comprehension rules start element) (comprehension rules' start element) :=
  (same_loop hrules (same_nextClause hrules)).bind fun _ => .close

theorem same_comprehensionOrList {element element' : Parser Expr} (kind : SequenceKind)
    (helement : SameBelow b element element') (first : Expr) :
    SameBelow b (comprehensionOrList rules start kind element first)
      (comprehensionOrList rules' start kind element' first) :=
  .peek fun _ => .ite (same_comprehension hrules first).pred
    (same_commaListFrom _ _ helement first)

theorem same_testListComp : SameBelow b (testListComp rules) (testListComp rules') :=
  .start fun _ => (same_namedOrStar hrules).bind fun first =>
    same_comprehensionOrList hrules _ (same_namedOrStar hrules) first

/-! ## Displays in braces -/

theorem same_braceElement (mode : BraceMode) :
    SameBelow b (braceElement rules mode) (braceElement rules' mode) := by
  refine .peek fun kind => .ite ?_ (.ite ?_ ?_)
  · exact (same_prefixed .doubleStar (hrules .expr)).pred
  · exact (same_starExpr hrules).pred
  · refine .start fun start => (hrules .test).bind fun key => .peek fun _ => .ite .pure ?_
    refine .pastExpect fun colon => ?_
    exact (hrules .test).bind fun value => .close

theorem same_braceBody (first : Expr) (isDictionary : Bool) :
    SameBelow b (braceBody rules start first isDictionary)
      (braceBody rules' start first isDictionary) :=
  .peek fun _ => .ite .fail (.ite
    (same_comprehensionOrList hrules _ (same_braceElement hrules _) first)
    (same_comprehensionOrList hrules _ (same_braceElement hrules _) first))

theorem same_braceDisplay : SameBelow (b + 1) (braceDisplay rules) (braceDisplay rules') := by
  refine .start fun start => .bump fun opener => ?_
  refine .pastEat fun closer => ?_
  cases closer with
  | some closer => exact .close
  | none =>
    refine .start fun bodyStart => (same_braceElement hrules _).bind fun first => ?_
    refine (same_braceBody hrules first _).bind fun body => ?_
    exact .pastExpect fun closer => .close

/-! ## Calls, subscripts and yields -/

theorem same_argument : SameBelow b (argument rules) (argument rules') := by
  refine same_starredTest hrules (.start fun start => (same_namedTest hrules).bind fun name => ?_)
  refine .isAt fun _ => .ite (.ite ?_ .fail) .pure
  exact .past advances_bump.descends fun _ => (hrules .test).bind fun _ => .close

theorem same_argList : SameBelow b (argList rules) (argList rules') :=
  .start fun _ => (same_argument hrules).bind fun first =>
    same_comprehensionOrList hrules _ (same_argument hrules) first

theorem same_optionalTest : SameBelow b (optionalTest rules) (optionalTest rules') :=
  .optional (rel_startedBy _ (hrules .test))

theorem same_sliceStep : SameBelow (b + 1) (sliceStep rules) (sliceStep rules') :=
  .bump fun _ => (same_optionalTest hrules).bind fun _ => .pure

theorem same_sliceFrom (lower : Option Expr) :
    SameBelow (b + 1) (sliceFrom rules start lower) (sliceFrom rules' start lower) :=
  .bump fun _ => (same_optionalTest hrules).bind fun _ =>
    (SameBelow.optional (rel_startedBy _ (same_sliceStep hrules).pred)).bind fun _ => .close

theorem same_subscript : SameBelow b (subscript rules) (subscript rules') :=
  .start fun _ => .isAt fun _ => .ite (same_sliceFrom hrules none).pred <|
    (hrules .test).bind fun lower => .isAt fun _ =>
      .ite (same_sliceFrom hrules (some lower)).pred .pure

theorem same_subscriptList : SameBelow b (subscriptList rules) (subscriptList rules') :=
  same_commaList _ _ (same_subscript hrules)

theorem same_yieldExpr : SameBelow (b + 1) (yieldExpr rules) (yieldExpr rules') := by
  refine .start fun start => .expect fun keyword => ?_
  refine .pastEat fun fromToken => ?_
  cases fromToken with
  | some fromToken => exact (hrules .test).bind fun _ => .close
  | none =>
    exact (SameBelow.optional (rel_startedBy _ (same_testOrStarList hrules))).bind fun _ => .close

/-! ## Parameters -/

theorem same_typeHint : SameBelow (b + 1) (typeHint rules) (typeHint rules') :=
  .start fun _ => .bump fun _ => (hrules .test).bind fun _ => .close

theorem same_declarator (typed : Bool) :
    SameBelow (b + 1) (declarator rules typed) (declarator rules' typed) :=
  .start fun _ => .expect fun _ =>
    (SameBelow.optional (rel_startedBy _ (same_typeHint hrules).pred)).bind fun _ => .close

theorem same_variadicParam (typed : Bool) :
    SameBelow (b + 1) (variadicParam rules typed) (variadicParam rules' typed) := by
  refine .start fun start => .bump fun star => ?_
  refine (SameBelow.optional (rel_startedBy _ (same_declarator hrules typed).pred)).bind ?_
  intro name
  cases name with
  | some name => exact .close
  | none => exact .close

theorem same_param (typed : Bool) :
    SameBelow (b + 1) (param rules typed) (param rules' typed) := by
  refine .peek fun kind => ?_
  split
  · exact same_variadicParam hrules typed
  · exact .start fun start => .bump fun op =>
      (same_declarator hrules typed).pred.bind fun name => .close
  · exact .bump fun slash => .pure
  · refine .start fun start => (same_declarator hrules typed).bind fun name => ?_
    exact .eat (fun assign => (hrules .test).bind fun value => .close) .pure
  · exact .fail

theorem same_params (typed : Bool) (closer : TokenKind) :
    SameBelow (b + 1) (params rules typed closer) (params rules' typed closer) :=
  .start fun _ => (same_param hrules typed).bind fun first =>
    (SameBelow.separatedFrom (peeks_moreParams closer) (same_param hrules typed) first).bind
      fun _ => .close

/-! ## Atoms -/

theorem same_parenBody : SameBelow b (parenBody rules) (parenBody rules') :=
  .isAt fun _ => .ite (same_yieldExpr hrules).pred (same_testListComp hrules)

omit hrules in
theorem advances_stringLiterals : Advances stringLiterals :=
  .start fun _ => .bump fun _ =>
    (yields_many (yields_startedBy yields_bump)).descends.bind fun _ => descends_close

omit hrules in
theorem same_display {body body' : Parser Expr} (kind : DisplayKind) (closer : TokenKind)
    (hbody : SameBelow b body body') :
    SameBelow (b + 1) (display kind closer body) (display kind closer body') :=
  .start fun _ => (same_bracketed closer hbody).bind fun _ => .close

theorem same_atom : SameBelow (b + 1) (atom rules) (atom rules') := by
  refine .peek fun kind => ?_
  split
  · exact same_display _ _ (same_parenBody hrules)
  · exact same_display _ _ (same_testListComp hrules)
  · exact same_braceDisplay hrules
  · exact .refl advances_stringLiterals.descends
  · split
    · exact .bump fun token => .pure
    · exact .fail

theorem same_call : SameBelow (b + 1) (call rules) (call rules') :=
  .start fun _ => (same_bracketed _ (same_argList hrules)).bind fun _ => .close

theorem same_index : SameBelow (b + 1) (index rules) (index rules') :=
  .start fun _ => (same_bracketed _ (same_subscriptList hrules)).bind fun _ => .close

theorem same_trailerChoice (kind : TokenKind) :
    Option.Rel (SameBelow (b + 1)) (trailerChoice rules kind) (trailerChoice rules' kind) := by
  unfold trailerChoice
  split
  · exact .some (.refl yields_member.descends)
  · exact .some (same_call hrules)
  · exact .some (same_index hrules)
  · exact .none

theorem same_appliedAtom : SameBelow (b + 1) (appliedAtom rules) (appliedAtom rules') :=
  .start fun _ => .pastEat fun _ =>
    (same_atom hrules).bind fun _ => (SameBelow.many (same_trailerChoice hrules)).bind fun _ =>
      .ite .pure .close

/-! ## The levels, tightest first -/

theorem same_power : SameBelow (b + 1) (power rules) (power rules') :=
  .start fun _ => (same_appliedAtom hrules).bind fun _ =>
    .eat (fun _ => (hrules .factor).bind fun _ => .close) .pure

theorem same_factor : SameBelow (b + 1) (factor rules) (factor rules') := by
  refine .peek fun kind => ?_
  split
  · exact same_prefixed _ (hrules .factor)
  · exact same_power hrules

theorem same_expr : SameBelow (b + 1) (expr rules) (expr rules') := by
  have hfold (levels : List FoldLevel) : SameBelow (b + 1)
      (levels.foldr leftFold (factor rules)) (levels.foldr leftFold (factor rules')) := by
    induction levels with
    | nil => exact same_factor hrules
    | cons level levels ih => exact same_leftFold level ih
  exact hfold FoldLevel.arithmetic

theorem same_notTest : SameBelow (b + 1) (notTest rules) (notTest rules') :=
  .isAt fun _ => .ite (same_prefixed _ (hrules .notTest)) (same_comparisons (same_expr hrules))

theorem same_orTest : SameBelow (b + 1) (orTest rules) (orTest rules') :=
  same_leftFold .or (same_leftFold .and (same_notTest hrules))

theorem same_lambda {body body' : Parser Expr} (hbody : SameBelow b body body') :
    SameBelow (b + 1) (lambda rules body) (lambda rules' body') := by
  refine .start fun start => .bump fun keyword => ?_
  refine (SameBelow.optional (rel_startedBy _ (same_params hrules false .colon).pred)).bind ?_
  exact fun params => .pastExpect fun colon => hbody.bind fun body => .close

theorem same_test : SameBelow (b + 1) (test rules) (test rules') := by
  refine .isAt fun _ => .ite (same_lambda hrules (hrules .test)) ?_
  refine .start fun start => (same_orTest hrules).bind fun body => .eat (fun ifToken => ?_) .pure
  refine (same_orTest hrules).pred.bind fun condition => ?_
  exact .pastExpect fun elseToken => (hrules .test).bind fun alternative => .close

theorem same_testNoConditional :
    SameBelow (b + 1) (testNoConditional rules) (testNoConditional rules') :=
  .isAt fun _ => .ite (same_lambda hrules (hrules .testNoConditional)) (same_orTest hrules)

theorem same_ruleBody (rule : Rule) : SameBelow (b + 1) (rule.body rules) (rule.body rules') := by
  cases rule with
  | test => exact same_test hrules
  | testNoConditional => exact same_testNoConditional hrules
  | orTest => exact same_orTest hrules
  | expr => exact same_expr hrules
  | notTest => exact same_notTest hrules
  | factor => exact same_factor hrules

end Rules

/-! ## Tying the knots -/

theorem knot_rules : Knot (fun rules rule => Rule.body rules rule) rulesUpTo where
  zero _ := (peeks_fail _).descends
  succ _ _ := rfl
  same := same_ruleBody

theorem recursion_rules : Recursion (fun rules rule => Rule.body rules rule) grammarRules :=
  knot_rules.recursion

theorem descends_grammarRules (rule : Rule) : Descends (grammarRules rule) :=
  knot_rules.tied_descends rule

theorem withRules_eq {α : Type} {parser : Rules → Parser α}
    (h : ∀ {b : Nat} {rules rules' : Rules}, (∀ rule, SameBelow b (rules rule) (rules' rule)) →
      SameBelow b (parser rules) (parser rules')) :
    withRules parser = parser grammarRules := by
  funext s
  exact (h (knot_rules.level_tied (s.upcoming.length + 1))).eq s (Nat.lt_succ_self _)

theorem knot_clauses {rules : Rules} (hrules : ∀ rule, Descends (rules rule)) :
    Knot (fun next (_ : Unit) => optional (clauseChoice rules (next ())))
      fun n _ => nextClauseUpTo rules n where
  zero _ := descends_pure none
  succ _ _ := rfl
  same h _ := same_clause (fun rule => .refl (hrules rule)) (h ())

theorem recursion_clauses {rules : Rules} (hrules : ∀ rule, Descends (rules rule)) :
    Recursion (fun next (_ : Unit) => optional (clauseChoice rules (next ())))
      fun _ => nextClause rules :=
  (knot_clauses hrules).recursion

theorem descends_nextClause {rules : Rules} (hrules : ∀ rule, Descends (rules rule)) :
    Descends (nextClause rules) :=
  (knot_clauses hrules).tied_descends ()

end Verbatim.Grammar
