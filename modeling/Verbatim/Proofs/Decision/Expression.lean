import Verbatim.Grammar.Expression
import Verbatim.Proofs.Decision.Alike

/-!
# Expressions are decided by kinds

Each rule of the expression grammar is alike on streams that agree, provided that the rules
it enters again are, one token less far where the rule has taken a token by then. What a
rule looks at in a tree that it has built is the same after a relabelling.
-/

namespace Verbatim

variable {ρ : Relabelling}

namespace Operation

def relabel (ρ : Relabelling) : Operation → Operation
  | binary _ kind op right => binary (.empty 0) kind (ρ.token op) (right.relabel ρ)
  | compound _ kind first second right =>
    compound (.empty 0) kind (ρ.token first) (ρ.token second) (right.relabel ρ)

theorem relabel_applyTo (op : Operation) (left : Expr) :
    (op.applyTo left).relabel ρ = (op.relabel ρ).applyTo (left.relabel ρ) := by
  cases op <;> simp [applyTo, relabel, Expr.relabel]

theorem relabel_foldl (ops : List Operation) (first : Expr) :
    (ops.foldl applyTo first).relabel ρ =
      (ops.map (relabel ρ)).foldl applyTo (first.relabel ρ) := by
  induction ops generalizing first with
  | nil => rfl
  | cons op ops ih => rw [List.foldl_cons, ih, relabel_applyTo, List.map_cons, List.foldl_cons]

end Operation

/-! ## What the grammar looks at in a tree -/

section Looks

variable {e e' : Expr} (h : e.relabel ρ = e'.relabel ρ)

include h

theorem Expr.isSome_name?_eq : e.name?.isSome = e'.name?.isSome := by
  have hname (e : Expr) : (e.relabel ρ).name?.isSome = e.name?.isSome := by
    cases e with
    | leaf kind t => cases kind <;> simp [Expr.relabel, Expr.name?]
    | _ => simp [Expr.relabel, Expr.name?]
  rw [← hname e, h, hname]

theorem Grammar.isUnpacking_eq : isUnpacking e = isUnpacking e' := by
  have hunpacking (e : Expr) : isUnpacking (e.relabel ρ) = isUnpacking e := by
    cases e with
    | unary _ kind _ _ => cases kind <;> simp [Expr.relabel, isUnpacking]
    | _ => simp [Expr.relabel, isUnpacking]
  rw [← hunpacking e, h, hunpacking]

theorem Grammar.isDictEntry_eq : isDictEntry e = isDictEntry e' := by
  have hentry (e : Expr) : isDictEntry (e.relabel ρ) = isDictEntry e := by
    cases e <;> simp [Expr.relabel, isDictEntry]
  rw [← hentry e, h, hentry]

end Looks

theorem Param.isKeywordVariadic_eq {p p' : Param} (h : p.relabel ρ = p'.relabel ρ) :
    p.isKeywordVariadic = p'.isKeywordVariadic := by
  have hvariadic (p : Param) : (p.relabel ρ).isKeywordVariadic = p.isKeywordVariadic := by
    cases p <;> simp [Param.relabel, Param.isKeywordVariadic]
  rw [← hvariadic p, h, hvariadic]

namespace Grammar

open Verbatim.Parser

abbrev AlikeExpr (ρ : Relabelling) (b : Nat) (p p' : Parser Expr) : Prop :=
  Alike ρ b (Expr.relabel ρ) p p'

abbrev AlikeOperation (ρ : Relabelling) (b : Nat) (p p' : Parser Operation) : Prop :=
  Takes ρ b (Operation.relabel ρ) p p'

abbrev AlikeTrailer (ρ : Relabelling) (b : Nat) (p p' : Parser Trailer) : Prop :=
  Takes ρ b (Trailer.relabel ρ) p p'

variable {b start start' : Nat}

/-! ## Lists and operators -/

section Operators

variable {element element' operand operand' : Parser Expr}

theorem alike_commaListFrom (kind : SequenceKind) (continues : TokenKind → Bool)
    (helement : AlikeExpr ρ b element element') {first first' : Expr}
    (hfirst : first.relabel ρ = first'.relabel ρ) :
    AlikeExpr ρ b (commaListFrom start kind continues element first)
      (commaListFrom start' kind continues element' first') := by
  refine (Alike.separatedFrom (fun _ _ _ => ?_) helement hfirst).bind ?_
  · exact .bindPeek fun _ => .pure rfl
  · rintro ⟨items, trailing⟩ ⟨items', trailing'⟩ h
    simp only [separatedView, Prod.mk.injEq] at h
    have hsequence (span span' : Span) : (Expr.sequence span kind items trailing).relabel ρ =
        (Expr.sequence span' kind items' trailing').relabel ρ := by
      simp only [Expr.relabel, relabelElements_eq, h]
    cases items <;> cases items' <;> cases trailing <;> cases trailing' <;>
      simp [Separated.relabel] at h
    · exact .pure h
    all_goals exact .close hsequence

theorem alike_commaList (kind : SequenceKind) (continues : TokenKind → Bool)
    (helement : AlikeExpr ρ b element element') :
    AlikeExpr ρ b (commaList kind continues element) (commaList kind continues element') := by
  refine .bindStart fun start start' => ?_
  exact helement.bind fun first first' hfirst => alike_commaListFrom kind continues helement hfirst

theorem alike_prefixed (kind : UnaryKind) (hoperand : AlikeExpr ρ b operand operand') :
    AlikeExpr ρ (b + 1) (prefixed kind operand) (prefixed kind operand') := by
  refine .bindStart fun start start' => .bindBump fun op op' hop => ?_
  refine hoperand.bind fun e e' he => .close fun _ _ => ?_
  simp only [Expr.relabel, hop, he]

theorem alike_operation (kind : BinaryKind) (hoperand : AlikeExpr ρ b operand operand') :
    AlikeOperation ρ (b + 1) (operation start kind operand) (operation start' kind operand') := by
  refine .bindBump fun op op' hop => ?_
  refine hoperand.bind fun right right' hright => .close fun _ _ => ?_
  simp only [Operation.relabel, hop, hright]

theorem alike_leftFold (level : FoldLevel) (hoperand : AlikeExpr ρ (b + 1) operand operand') :
    AlikeExpr ρ (b + 1) (leftFold level operand) (leftFold level operand') := by
  refine .bindStart fun start start' => hoperand.bind fun first first' hfirst => ?_
  have hchoice (kind : TokenKind) : Option.Rel (AlikeOperation ρ (b + 1))
      ((level.operator? kind).map (operation start · operand))
      ((level.operator? kind).map (operation start' · operand')) := by
    cases level.operator? kind with
    | some op => exact .some (alike_operation op hoperand.pred)
    | none => exact .none
  refine (Alike.many hchoice).bind fun ops ops' hops => .pure ?_
  rw [Operation.relabel_foldl, Operation.relabel_foldl, hfirst, hops]

theorem alike_notIn (hoperand : AlikeExpr ρ (b + 1) operand operand') :
    AlikeOperation ρ (b + 1) (notIn start operand) (notIn start' operand') := by
  refine .bindBump fun first first' hfirst => Alike.expect.bind fun second second' hsecond => ?_
  refine hoperand.pred.bind fun right right' hright => .close fun _ _ => ?_
  simp only [Operation.relabel, hfirst, hsecond, hright]

theorem alike_isOrIsNot (hoperand : AlikeExpr ρ (b + 1) operand operand') :
    AlikeOperation ρ (b + 1) (isOrIsNot start operand) (isOrIsNot start' operand') := by
  refine .bindBump fun first first' hfirst => Alike.eat.bind fun second second' hsecond => ?_
  cases second <;> cases second' <;> simp at hsecond
  · refine hoperand.pred.bind fun right right' hright => .close fun _ _ => ?_
    simp only [Operation.relabel, hfirst, hright]
  · refine hoperand.pred.bind fun right right' hright => .close fun _ _ => ?_
    simp only [Operation.relabel, hfirst, hsecond, hright]

theorem alike_comparisons (hoperand : AlikeExpr ρ (b + 1) operand operand') :
    AlikeExpr ρ (b + 1) (comparisons operand) (comparisons operand') := by
  refine .bindStart fun start start' => hoperand.bind fun first first' hfirst => ?_
  have hchoice (kind : TokenKind) : Option.Rel (AlikeOperation ρ (b + 1))
      (comparisonChoice start operand kind) (comparisonChoice start' operand' kind) := by
    unfold comparisonChoice
    split
    · exact .some (alike_notIn hoperand)
    · exact .some (alike_isOrIsNot hoperand)
    · cases BinaryKind.comparison? kind with
      | some op => exact .some (alike_operation op hoperand.pred)
      | none => exact .none
  refine (Alike.many hchoice).bind fun ops ops' hops => .pure ?_
  rw [Operation.relabel_foldl, Operation.relabel_foldl, hfirst, hops]

/-- What a relabelling leaves of a body in brackets. -/
def bracketedView (ρ : Relabelling) (r : Token × Option Expr × Token) :
    Token × Option Expr × Token :=
  (ρ.token r.1, r.2.1.map (Expr.relabel ρ), ρ.token r.2.2)

theorem alike_bracketed {body body' : Parser Expr} (closer : TokenKind)
    (hbody : AlikeExpr ρ b body body') :
    Takes ρ (b + 1) (bracketedView ρ) (bracketed closer body) (bracketed closer body') := by
  refine .bindBump fun opener opener' hopener => ?_
  refine (Alike.optional (rel_startedBy _ hbody)).bind fun inside inside' hinside => ?_
  refine Alike.expect.bind fun last last' hlast => .pure ?_
  simp only [bracketedView, hopener, hinside, hlast]

end Operators

section Rules

variable {rules rules' : Rules}

/-! ## Elements of lists -/

section Inner

variable (hrules : ∀ rule, AlikeExpr ρ b (rules rule) (rules' rule))

include hrules

theorem alike_starExpr : AlikeExpr ρ (b + 1) (starExpr rules) (starExpr rules') :=
  alike_prefixed .star (hrules .expr)

theorem alike_testOrStar : AlikeExpr ρ b (testOrStar rules) (testOrStar rules') :=
  .bindIsAt fun _ => .ite (alike_starExpr hrules).pred (hrules .test)

theorem alike_exprOrStar : AlikeExpr ρ b (exprOrStar rules) (exprOrStar rules') :=
  .bindIsAt fun _ => .ite (alike_starExpr hrules).pred (hrules .expr)

theorem alike_testList : AlikeExpr ρ b (testList rules) (testList rules') :=
  alike_commaList _ _ (hrules .test)

theorem alike_testOrStarList : AlikeExpr ρ b (testOrStarList rules) (testOrStarList rules') :=
  alike_commaList _ _ (alike_testOrStar hrules)

theorem alike_exprList : AlikeExpr ρ b (exprList rules) (exprList rules') :=
  alike_commaList _ _ (alike_exprOrStar hrules)

theorem alike_starredTest {plain plain' : Parser Expr} (hplain : AlikeExpr ρ b plain plain') :
    AlikeExpr ρ b (starredTest rules plain) (starredTest rules' plain') := by
  refine .bindPeek fun kind => ?_
  split
  · exact (alike_prefixed .star (hrules .test)).pred
  · exact (alike_prefixed .doubleStar (hrules .test)).pred
  · exact hplain

theorem alike_typeList : AlikeExpr ρ b (typeList rules) (typeList rules') :=
  alike_commaList _ _ (alike_starredTest hrules (hrules .test))

theorem alike_namedTest : AlikeExpr ρ b (namedTest rules) (namedTest rules') := by
  refine .bindStart fun start start' => (hrules .test).bind fun left left' hleft => ?_
  refine .bindIsAt fun _ => .ite ?_ (.pure hleft)
  rw [Expr.isSome_name?_eq hleft]
  refine .ite (Alike.bump.bind fun op op' hop => ?_) .fail
  refine (hrules .test).bind fun right right' hright => .close fun _ _ => ?_
  simp only [Expr.relabel, hleft, hop, hright]

theorem alike_namedOrStar : AlikeExpr ρ b (namedOrStar rules) (namedOrStar rules') :=
  .bindIsAt fun _ => .ite (alike_starExpr hrules).pred (alike_namedTest hrules)

/-! ## Comprehensions -/

abbrev AlikeClause (ρ : Relabelling) (b : Nat) (p p' : Parser Clause) : Prop :=
  Alike ρ b (Clause.relabel ρ) p p'

abbrev AlikeNext (ρ : Relabelling) (b : Nat) (p p' : Parser (Option Clause)) : Prop :=
  Alike ρ b (Option.map (Clause.relabel ρ)) p p'

theorem alike_loop {next next' : Parser (Option Clause)} (hnext : AlikeNext ρ b next next') :
    AlikeClause ρ (b + 1) (loop rules next) (loop rules' next') := by
  refine .bindStart fun start start' => Alike.eat.bind fun async async' hasync => ?_
  refine .bindExpect fun forToken forToken' hfor => ?_
  refine (alike_exprList hrules).bind fun targets targets' htargets => ?_
  refine Alike.expect.bind fun inToken inToken' hin => ?_
  refine (hrules .orTest).bind fun source source' hsource => ?_
  refine hnext.bind fun next next' hnext => .close fun _ _ => ?_
  simp only [Clause.relabel, relabelClauseOption_eq, hasync, hfor, htargets, hin, hsource, hnext]

theorem alike_guardClause {next next' : Parser (Option Clause)}
    (hnext : AlikeNext ρ b next next') :
    AlikeClause ρ (b + 1) (guardClause rules next) (guardClause rules' next') := by
  refine .bindStart fun start start' => .bindBump fun ifToken ifToken' hif => ?_
  refine (hrules .testNoConditional).bind fun condition condition' hcondition => ?_
  refine hnext.bind fun next next' hnext => .close fun _ _ => ?_
  simp only [Clause.relabel, relabelClauseOption_eq, hif, hcondition, hnext]

omit hrules in
theorem alike_clauseChoice {next next' : Parser (Option Clause)}
    (hrules : ∀ rule, AlikeExpr ρ (b - 1) (rules rule) (rules' rule))
    (hnext : AlikeNext ρ (b - 1) next next') (kind : TokenKind) :
    Option.Rel (AlikeClause ρ b) (clauseChoice rules next kind)
      (clauseChoice rules' next' kind) := by
  have hle : b ≤ b - 1 + 1 := by omega
  unfold clauseChoice
  split
  · exact .some ((alike_loop hrules hnext).mono hle)
  · split
    · exact .some ((alike_guardClause hrules hnext).mono hle)
    · exact .none

theorem alike_nextClause : AlikeNext ρ b (nextClause rules) (nextClause rules') := by
  refine .atLength (nextClauseUpTo rules) (nextClauseUpTo rules') fun c n m hc hn hm =>
    Alike.upTo (b := b) (fun _ : Unit => ()) (fun n _ => nextClauseUpTo rules n)
      (fun n _ => nextClauseUpTo rules' n) (fun _ _ _ => .pure rfl) ?_ c n m hc hn hm () () rfl
  intro c n m hc ih _ _ _
  have hle : c - 1 ≤ b := by omega
  exact .optional (alike_clauseChoice (fun rule => (hrules rule).mono hle) (ih () () rfl))

theorem alike_comprehension {element element' : Expr}
    (helement : element.relabel ρ = element'.relabel ρ) :
    AlikeExpr ρ b (comprehension rules start element) (comprehension rules' start' element') := by
  refine (alike_loop hrules (alike_nextClause hrules)).pred.bind fun clause clause' hclause => ?_
  refine .close fun _ _ => ?_
  simp only [Expr.relabel, helement, hclause]

theorem alike_comprehensionOrList {element element' : Parser Expr} (kind : SequenceKind)
    (helement : AlikeExpr ρ b element element') {first first' : Expr}
    (hfirst : first.relabel ρ = first'.relabel ρ) :
    AlikeExpr ρ b (comprehensionOrList rules start kind element first)
      (comprehensionOrList rules' start' kind element' first') := by
  refine .bindPeek fun _ => .ite ?_ ?_
  · exact alike_comprehension hrules hfirst
  · exact alike_commaListFrom _ _ helement hfirst

theorem alike_testListComp : AlikeExpr ρ b (testListComp rules) (testListComp rules') := by
  refine .bindStart fun start start' => ?_
  refine (alike_namedOrStar hrules).bind fun first first' hfirst => ?_
  exact alike_comprehensionOrList hrules _ (alike_namedOrStar hrules) hfirst

/-! ## Displays in braces -/

theorem alike_braceElement (mode : BraceMode) :
    AlikeExpr ρ b (braceElement rules mode) (braceElement rules' mode) := by
  refine .bindPeek fun kind => .ite ?_ (.ite ?_ ?_)
  · exact (alike_prefixed .doubleStar (hrules .expr)).pred
  · exact (alike_starExpr hrules).pred
  · refine .bindStart fun start start' => (hrules .test).bind fun key key' hkey => ?_
    refine .bindPeek fun _ => .ite (.pure hkey) ?_
    refine Alike.expect.bind fun colon colon' hcolon => ?_
    refine (hrules .test).bind fun value value' hvalue => .close fun _ _ => ?_
    simp only [Expr.relabel, hkey, hcolon, hvalue]

theorem alike_braceBody {first first' : Expr} (isDictionary : Bool)
    (hfirst : first.relabel ρ = first'.relabel ρ) :
    AlikeExpr ρ b (braceBody rules start first isDictionary)
      (braceBody rules' start' first' isDictionary) := by
  refine .bindPeek fun _ => ?_
  rw [isUnpacking_eq hfirst]
  refine .ite .fail (.ite ?_ ?_)
  · exact alike_comprehensionOrList hrules _ (alike_braceElement hrules _) hfirst
  · exact alike_comprehensionOrList hrules _ (alike_braceElement hrules _) hfirst

theorem alike_braceDisplay : AlikeExpr ρ (b + 1) (braceDisplay rules) (braceDisplay rules') := by
  refine .bindStart fun start start' => .bindBump fun opener opener' hopener => ?_
  refine Alike.eat.bind fun closer closer' hcloser => ?_
  cases closer <;> cases closer' <;> simp at hcloser
  · refine .bindStart fun bodyStart bodyStart' => ?_
    refine (alike_braceElement hrules _).bind fun first first' hfirst => ?_
    rw [isDictEntry_eq hfirst, isUnpacking_eq hfirst]
    refine (alike_braceBody hrules _ hfirst).bind fun body body' hbody => ?_
    refine Alike.expect.bind fun closer closer' hcloser => .close fun _ _ => ?_
    simp only [Expr.relabel, relabelExprOption_eq, Option.map_some, hopener, hbody, hcloser]
  · refine .close fun _ _ => ?_
    simp only [Expr.relabel, relabelExprOption_eq, Option.map_none, hopener, hcloser]

/-! ## Calls, subscripts and yields -/

theorem alike_argument : AlikeExpr ρ b (argument rules) (argument rules') := by
  refine alike_starredTest hrules (.bindStart fun start start' => ?_)
  refine (alike_namedTest hrules).bind fun name name' hname => ?_
  refine .bindIsAt fun _ => .ite ?_ (.pure hname)
  rw [Expr.isSome_name?_eq hname]
  refine .ite (Alike.bump.bind fun equal equal' hequal => ?_) .fail
  refine (hrules .test).bind fun value value' hvalue => .close fun _ _ => ?_
  simp only [Expr.relabel, hname, hequal, hvalue]

theorem alike_argList : AlikeExpr ρ b (argList rules) (argList rules') := by
  refine .bindStart fun start start' => ?_
  refine (alike_argument hrules).bind fun first first' hfirst => ?_
  exact alike_comprehensionOrList hrules _ (alike_argument hrules) hfirst

theorem alike_optionalTest :
    Alike ρ b (Option.map (Expr.relabel ρ)) (optionalTest rules) (optionalTest rules') :=
  .optional (rel_startedBy _ (hrules .test))

theorem alike_sliceStep : Alike ρ b (Step.relabel ρ) (sliceStep rules) (sliceStep rules') := by
  refine Alike.bump.bind fun colon colon' hcolon => ?_
  refine (alike_optionalTest hrules).bind fun value value' hvalue => .pure ?_
  simp only [Step.relabel, relabelExprOption_eq, hcolon, hvalue]

theorem alike_sliceFrom {lower lower' : Option Expr}
    (hlower : lower.map (Expr.relabel ρ) = lower'.map (Expr.relabel ρ)) :
    AlikeExpr ρ b (sliceFrom rules start lower) (sliceFrom rules' start' lower') := by
  refine Alike.bump.bind fun colon colon' hcolon => ?_
  refine (alike_optionalTest hrules).bind fun upper upper' hupper => ?_
  refine (Alike.optional (rel_startedBy _ (alike_sliceStep hrules))).bind fun step step' hstep => ?_
  refine .close fun _ _ => ?_
  simp only [Expr.relabel, relabelExprOption_eq, relabelStepOption_eq, hlower, hcolon, hupper,
    hstep]

theorem alike_subscript : AlikeExpr ρ b (subscript rules) (subscript rules') := by
  refine .bindStart fun start start' => .bindIsAt fun _ => .ite ?_ ?_
  · exact alike_sliceFrom hrules rfl
  · refine (hrules .test).bind fun lower lower' hlower => .bindIsAt fun _ => .ite ?_ (.pure hlower)
    exact alike_sliceFrom hrules (congrArg some hlower)

theorem alike_subscriptList : AlikeExpr ρ b (subscriptList rules) (subscriptList rules') :=
  alike_commaList _ _ (alike_subscript hrules)

theorem alike_yieldExpr : AlikeExpr ρ (b + 1) (yieldExpr rules) (yieldExpr rules') := by
  refine .bindStart fun start start' => .bindExpect fun keyword keyword' hkeyword => ?_
  refine Alike.eat.bind fun fromToken fromToken' hfrom => ?_
  cases fromToken <;> cases fromToken' <;> simp at hfrom
  · refine (Alike.optional (rel_startedBy _ (alike_testOrStarList hrules))).bind ?_
    intro value value' hvalue
    refine .close fun _ _ => ?_
    simp only [Expr.relabel, relabelExprOption_eq, hkeyword, hvalue]
  · refine (hrules .test).bind fun value value' hvalue => .close fun _ _ => ?_
    simp only [Expr.relabel, hkeyword, hfrom, hvalue]

/-! ## Parameters -/

theorem alike_typeHint :
    Alike ρ b (TypeHint.relabel ρ) (typeHint rules) (typeHint rules') := by
  refine .bindStart fun start start' => Alike.bump.bind fun colon colon' hcolon => ?_
  refine (hrules .test).bind fun value value' hvalue => .close fun _ _ => ?_
  simp only [TypeHint.relabel, hcolon, hvalue]

theorem alike_declarator (typed : Bool) :
    Alike ρ (b + 1) (Declarator.relabel ρ) (declarator rules typed) (declarator rules' typed) := by
  refine .bindStart fun start start' => .bindExpect fun name name' hname => ?_
  refine (Alike.optional (rel_startedBy _ (alike_typeHint hrules))).bind fun hint hint' hhint => ?_
  refine .close fun _ _ => ?_
  simp only [Declarator.relabel, relabelTypeHintOption_eq, hname, hhint]

abbrev AlikeParam (ρ : Relabelling) (b : Nat) (p p' : Parser Param) : Prop :=
  Alike ρ b (Param.relabel ρ) p p'

theorem alike_variadicParam (typed : Bool) :
    AlikeParam ρ (b + 1) (variadicParam rules typed) (variadicParam rules' typed) := by
  refine .bindStart fun start start' => .bindBump fun star star' hstar => ?_
  refine (Alike.optional (rel_startedBy _ (alike_declarator hrules typed).pred)).bind ?_
  intro name name' hname
  cases name <;> cases name' <;> simp at hname
  · refine .close fun _ _ => ?_
    simp only [Param.relabel, hstar]
  · refine .close fun _ _ => ?_
    simp only [Param.relabel, hstar, hname]

theorem alike_param (typed : Bool) :
    AlikeParam ρ (b + 1) (param rules typed) (param rules' typed) := by
  refine .bindPeek fun kind => ?_
  split
  · exact alike_variadicParam hrules typed
  · refine .bindStart fun start start' => Alike.bump.bind fun op op' hop => ?_
    refine (alike_declarator hrules typed).bind fun name name' hname => .close fun _ _ => ?_
    simp only [Param.relabel, hop, hname]
  · refine Alike.bump.bind fun slash slash' hslash => .pure ?_
    simp only [Param.relabel, hslash]
  · refine .bindStart fun start start' => ?_
    refine (alike_declarator hrules typed).bind fun name name' hname => .bindEat ?_ ?_
    · intro assign assign' hassign
      refine (hrules .test).bind fun value value' hvalue => .close fun _ _ => ?_
      simp only [Param.relabel, hname, hassign, hvalue]
    · refine .pure ?_
      simp only [Param.relabel, hname]
  · exact .fail

omit hrules in
theorem alike_moreParams (closer : TokenKind) {before before' : Param}
    (h : before.relabel ρ = before'.relabel ρ) :
    Alike ρ b id (moreParams closer before) (moreParams closer before') := by
  refine .bindIsAt fun _ => .ite (.pure rfl) ?_
  rw [Param.isKeywordVariadic_eq h]
  exact .ite .fail (.pure rfl)

theorem alike_params (typed : Bool) (closer : TokenKind) :
    Alike ρ (b + 1) (Params.relabel ρ) (params rules typed closer)
      (params rules' typed closer) := by
  refine .bindStart fun start start' => ?_
  refine (alike_param hrules typed).bind fun first first' hfirst => ?_
  refine (Alike.separatedFrom (fun _ _ => alike_moreParams closer) (alike_param hrules typed)
    hfirst).bind ?_
  rintro ⟨items, trailing⟩ ⟨items', trailing'⟩ h
  simp only [separatedView, Prod.mk.injEq] at h
  refine .close fun _ _ => ?_
  simp only [Params.relabel, relabelParamItems_eq, h]

/-! ## Atoms -/

theorem alike_parenBody : AlikeExpr ρ b (parenBody rules) (parenBody rules') :=
  .bindIsAt fun _ => .ite (alike_yieldExpr hrules).pred (alike_testListComp hrules)

omit hrules in
theorem alike_stringLiterals : AlikeExpr ρ (b + 1) stringLiterals stringLiterals := by
  refine .bindStart fun start start' => .bindBump fun first first' hfirst => ?_
  refine (Alike.many (rel_startedBy _ ⟨.bump, advances_bump⟩)).bind fun more more' hmore => ?_
  refine .close fun _ _ => ?_
  simp only [Expr.relabel, hfirst, hmore]

omit hrules in
theorem alike_display {body body' : Parser Expr} (kind : DisplayKind) (closer : TokenKind)
    (hbody : AlikeExpr ρ b body body') :
    AlikeExpr ρ (b + 1) (display kind closer body) (display kind closer body') := by
  refine .bindStart fun start start' => (alike_bracketed closer hbody).toAlike.bind ?_
  rintro ⟨opener, inside, last⟩ ⟨opener', inside', last'⟩ h
  simp only [bracketedView, Prod.mk.injEq] at h
  refine .close fun _ _ => ?_
  simp only [Expr.relabel, relabelExprOption_eq, h]

theorem alike_atom : AlikeExpr ρ (b + 1) (atom rules) (atom rules') := by
  refine .bindPeek fun kind => ?_
  split
  · exact alike_display _ _ (alike_parenBody hrules)
  · exact alike_display _ _ (alike_testListComp hrules)
  · exact alike_braceDisplay hrules
  · exact alike_stringLiterals
  · split
    · refine Alike.bump.bind fun token token' htoken => .pure ?_
      simp only [Expr.relabel, htoken]
    · exact .fail

omit hrules in
theorem alike_member : AlikeTrailer ρ (b + 1) member member := by
  refine .bindStart fun start start' => .bindBump fun dot dot' hdot => ?_
  refine Alike.expect.bind fun name name' hname => .close fun _ _ => ?_
  simp only [Trailer.relabel, hdot, hname]

theorem alike_call : AlikeTrailer ρ (b + 1) (call rules) (call rules') := by
  refine .bindStart fun start start' => (alike_bracketed _ (alike_argList hrules)).bind ?_
  rintro ⟨opener, inside, last⟩ ⟨opener', inside', last'⟩ h
  simp only [bracketedView, Prod.mk.injEq] at h
  refine .close fun _ _ => ?_
  simp only [Trailer.relabel, relabelExprOption_eq, h]

theorem alike_index : AlikeTrailer ρ (b + 1) (index rules) (index rules') := by
  refine .bindStart fun start start' => (alike_bracketed _ (alike_subscriptList hrules)).bind ?_
  rintro ⟨opener, inside, last⟩ ⟨opener', inside', last'⟩ h
  simp only [bracketedView, Prod.mk.injEq] at h
  refine .close fun _ _ => ?_
  simp only [Trailer.relabel, relabelExprOption_eq, h]

theorem alike_trailerChoice (kind : TokenKind) :
    Option.Rel (AlikeTrailer ρ (b + 1)) (trailerChoice rules kind)
      (trailerChoice rules' kind) := by
  unfold trailerChoice
  split
  · exact .some alike_member
  · exact .some (alike_call hrules)
  · exact .some (alike_index hrules)
  · exact .none

theorem alike_appliedAtom : AlikeExpr ρ (b + 1) (appliedAtom rules) (appliedAtom rules') := by
  refine .bindStart fun start start' => Alike.eat.bind fun await await' hawait => ?_
  refine (alike_atom hrules).bind fun atom atom' hatom => ?_
  refine (Alike.many (alike_trailerChoice hrules)).bind fun trailers trailers' htrailers => ?_
  have hnone : await.isNone = await'.isNone := by
    rw [← Option.isNone_map, hawait, Option.isNone_map]
  have hempty : trailers.isEmpty = trailers'.isEmpty := by
    rw [← List.isEmpty_map, htrailers, List.isEmpty_map]
  rw [hnone, hempty]
  refine .ite (.pure hatom) (.close fun _ _ => ?_)
  simp only [Expr.relabel, relabelTrailers_eq, hawait, hatom, htrailers]

/-! ## The levels, tightest first -/

theorem alike_power : AlikeExpr ρ (b + 1) (power rules) (power rules') := by
  refine .bindStart fun start start' => (alike_appliedAtom hrules).bind fun base base' hbase => ?_
  refine .bindEat (fun op op' hop => ?_) (.pure hbase)
  refine (hrules .factor).bind fun exponent exponent' hexponent => .close fun _ _ => ?_
  simp only [Expr.relabel, hbase, hop, hexponent]

theorem alike_factor : AlikeExpr ρ (b + 1) (factor rules) (factor rules') := by
  refine .bindPeek fun kind => ?_
  split
  · exact alike_prefixed _ (hrules .factor)
  · exact alike_power hrules

theorem alike_expr : AlikeExpr ρ (b + 1) (expr rules) (expr rules') := by
  have hfold (levels : List FoldLevel) : AlikeExpr ρ (b + 1)
      (levels.foldr leftFold (factor rules)) (levels.foldr leftFold (factor rules')) := by
    induction levels with
    | nil => exact alike_factor hrules
    | cons level levels ih => exact alike_leftFold level ih
  exact hfold FoldLevel.arithmetic

theorem alike_notTest : AlikeExpr ρ (b + 1) (notTest rules) (notTest rules') :=
  .bindIsAt fun _ => .ite (alike_prefixed _ (hrules .notTest))
    (alike_comparisons (alike_expr hrules))

theorem alike_orTest : AlikeExpr ρ (b + 1) (orTest rules) (orTest rules') :=
  alike_leftFold .or (alike_leftFold .and (alike_notTest hrules))

theorem alike_lambda {body body' : Parser Expr} (hbody : AlikeExpr ρ b body body') :
    AlikeExpr ρ (b + 1) (lambda rules body) (lambda rules' body') := by
  refine .bindStart fun start start' => .bindBump fun keyword keyword' hkeyword => ?_
  refine (Alike.optional (rel_startedBy _ (alike_params hrules false .colon).pred)).bind ?_
  intro params params' hparams
  refine Alike.expect.bind fun colon colon' hcolon => ?_
  refine hbody.bind fun body body' hbody => .close fun _ _ => ?_
  simp only [Expr.relabel, relabelParamsOption_eq, hkeyword, hparams, hcolon, hbody]

theorem alike_test : AlikeExpr ρ (b + 1) (test rules) (test rules') := by
  refine .bindIsAt fun _ => .ite (alike_lambda hrules (hrules .test)) ?_
  refine .bindStart fun start start' => (alike_orTest hrules).bind fun body body' hbody => ?_
  refine .bindEat (fun ifToken ifToken' hif => ?_) (.pure hbody)
  refine (alike_orTest hrules).pred.bind fun condition condition' hcondition => ?_
  refine Alike.expect.bind fun elseToken elseToken' helse => ?_
  refine (hrules .test).bind fun alternative alternative' halternative => .close fun _ _ => ?_
  simp only [Expr.relabel, hbody, hif, hcondition, helse, halternative]

theorem alike_testNoConditional :
    AlikeExpr ρ (b + 1) (testNoConditional rules) (testNoConditional rules') :=
  .bindIsAt fun _ => .ite (alike_lambda hrules (hrules .testNoConditional)) (alike_orTest hrules)

theorem alike_ruleBody (rule : Rule) :
    AlikeExpr ρ (b + 1) (rule.body rules) (rule.body rules') := by
  cases rule with
  | test => exact alike_test hrules
  | testNoConditional => exact alike_testNoConditional hrules
  | orTest => exact alike_orTest hrules
  | expr => exact alike_expr hrules
  | notTest => exact alike_notTest hrules
  | factor => exact alike_factor hrules

end Inner

end Rules

/-! ## Tying the knot -/

theorem alike_rulesUpTo {n m : Nat} (hn : b ≤ n) (hm : b ≤ m) (rule : Rule) :
    AlikeExpr ρ b (rulesUpTo n rule) (rulesUpTo m rule) := by
  refine Alike.upTo id rulesUpTo rulesUpTo (fun _ _ _ => .fail) ?_ b n m (Nat.le_refl b) hn hm rule
    rule rfl
  intro c n m _ ih rule _ hrule
  cases hrule
  have hle : c ≤ c - 1 + 1 := by omega
  exact (alike_ruleBody (fun rule => ih rule rule rfl) rule).mono hle

theorem alike_withRules {α γ : Type} {view : α → γ} {parser : Rules → Parser α}
    (h : ∀ {b : Nat} {rules rules' : Rules}, (∀ rule, AlikeExpr ρ b (rules rule) (rules' rule)) →
      Alike ρ b view (parser rules) (parser rules')) :
    Alike ρ b view (withRules parser) (withRules parser) :=
  .atLength (fun n => parser (rulesUpTo n)) (fun n => parser (rulesUpTo n))
    fun _ _ _ _ hn hm => h fun rule => alike_rulesUpTo hn hm rule

end Grammar

end Verbatim
