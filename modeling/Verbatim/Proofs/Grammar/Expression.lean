import Verbatim.Grammar.Expression
import Verbatim.Proofs.Grammar.Combinators
import Verbatim.Proofs.Tree.Pieces

/-!
# Expressions hold the tokens that they were read from

Each rule of the expression grammar yields the outline of the tree that it returns,
provided that the rules it enters again do. The knot is tied by induction on the number of
rules inside each other.
-/

namespace Verbatim.Grammar

open Verbatim.Parser

abbrev YieldsExpr (p : Parser Expr) : Prop :=
  Yields p fun e => [e.outline]

theorem closeExpr {s₀ : Stream} {before : List Outline} {make : Span → Expr}
    (hsolid : before.any Outline.isSolid = true)
    (hpieces : ∀ span, (make span).pieces = before)
    (hspan : ∀ span, (make span).span = span) :
    Extends s₀ before (spanFrom s₀.current.span.start >>= fun span => pure (make span))
      fun e => [e.outline] :=
  .node hsolid fun span => ⟨.expr (make span), by rw [Expr.outline, hpieces], hspan span⟩

attribute [local simp] Expr.outline Expr.pieces Clause.outline Clause.pieces Param.outline

/-! ## Lists and operators -/

section Operators

variable {s₀ : Stream} {element operand : Parser Expr}

theorem extends_commaListFrom (helement : YieldsExpr element) (kind : SequenceKind)
    (continues : TokenKind → Bool) (first : Expr) :
    Extends s₀ [first.outline]
      (commaListFrom s₀.current.span.start kind continues element first)
      fun e => [e.outline] := by
  have hmore : ∀ a : Expr, Peeks (do return continues (← peek)) :=
    fun _ => peeks_peek.bind fun _ => peeks_pure _
  refine .bind (.separatedFrom [] hmore helement first) fun r => ?_
  split
  · exact .pure rfl
  · next items trailing _ =>
    refine closeExpr ?_ (fun _ => ?_) fun _ => rfl
    · cases items <;> simp [Separated.pieces]
    · simp [elementsPieces_eq]

theorem yields_commaList (helement : YieldsExpr element) (kind : SequenceKind)
    (continues : TokenKind → Bool) : YieldsExpr (commaList kind continues element) := by
  apply Yields.of_start
  intro s₀
  apply Extends.andThen helement
  intro first
  exact extends_commaListFrom helement kind continues first

theorem yields_prefixed (hoperand : YieldsExpr operand) (kind : UnaryKind) :
    YieldsExpr (prefixed kind operand) := by
  apply Yields.of_start
  intro s₀
  apply Extends.andThen yields_bump
  intro op
  apply Extends.andThen hoperand
  intro e
  exact closeExpr (by simp) (fun _ => by simp) fun _ => rfl

abbrev ExtendsOperation (s₀ : Stream) (left : Expr) (p : Parser Operation) : Prop :=
  Extends s₀ [left.outline] p fun op => [(op.applyTo left).outline]

theorem extends_operation (hoperand : YieldsExpr operand) (kind : BinaryKind) (left : Expr) :
    ExtendsOperation s₀ left (operation s₀.current.span.start kind operand) := by
  apply Extends.andThen yields_bump
  intro op
  apply Extends.andThen hoperand
  intro right
  apply Extends.node (by simp)
  intro span
  refine ⟨.expr (.binary span kind left op right), ?_, rfl⟩
  simp [Operation.applyTo]

theorem extends_notIn (hoperand : YieldsExpr operand) (left : Expr) :
    ExtendsOperation s₀ left (notIn s₀.current.span.start operand) := by
  apply Extends.andThen yields_bump
  intro first
  apply Extends.andThen (yields_expect _)
  intro second
  apply Extends.andThen hoperand
  intro right
  apply Extends.node (by simp)
  intro span
  refine ⟨.expr (.compound span .notIn left first second right), ?_, rfl⟩
  simp [Operation.applyTo]

theorem extends_isOrIsNot (hoperand : YieldsExpr operand) (left : Expr) :
    ExtendsOperation s₀ left (isOrIsNot s₀.current.span.start operand) := by
  apply Extends.andThen yields_bump
  intro first
  apply Extends.andThen (yields_eat _)
  intro second
  cases second with
  | some second =>
    apply Extends.andThen hoperand
    intro right
    apply Extends.node (by simp)
    intro span
    refine ⟨.expr (.compound span .isNot left first second right), ?_, rfl⟩
    simp [Operation.applyTo, Outline.ofOption]
  | none =>
    apply Extends.andThen hoperand
    intro right
    apply Extends.node (by simp)
    intro span
    refine ⟨.expr (.binary span .isSame left first right), ?_, rfl⟩
    simp [Operation.applyTo, Outline.ofOption]

theorem yields_leftFold (hoperand : YieldsExpr operand) (level : FoldLevel) :
    YieldsExpr (leftFold level operand) := by
  apply Yields.of_start
  intro s₀
  apply Extends.andThen hoperand
  intro first
  refine .bind (.many (fun left => [left.outline]) Operation.applyTo ?_ first) fun operations =>
    .pure rfl
  intro kind part left hpart
  obtain ⟨op, _, rfl⟩ := Option.map_eq_some_iff.mp hpart
  exact extends_operation hoperand op left

theorem extends_comparisonChoice (hoperand : YieldsExpr operand) {kind : TokenKind}
    {part : Parser Operation} (left : Expr)
    (h : comparisonChoice s₀.current.span.start operand kind = some part) :
    ExtendsOperation s₀ left part := by
  unfold comparisonChoice at h
  split at h
  · cases h
    exact extends_notIn hoperand left
  · cases h
    exact extends_isOrIsNot hoperand left
  · obtain ⟨op, _, rfl⟩ := Option.map_eq_some_iff.mp h
    exact extends_operation hoperand op left

theorem yields_comparisons (hoperand : YieldsExpr operand) :
    YieldsExpr (comparisons operand) := by
  apply Yields.of_start
  intro s₀
  apply Extends.andThen hoperand
  intro first
  refine .bind (.many (fun left => [left.outline]) Operation.applyTo ?_ first) fun operations =>
    .pure rfl
  intro kind part left hpart
  exact extends_comparisonChoice hoperand left hpart

theorem yields_bracketed {body : Parser Expr} (hbody : YieldsExpr body) (closer : TokenKind) :
    Yields (bracketed closer body)
      fun r => .token r.1 :: (exprOptionPieces r.2.1 ++ [.token r.2.2]) := by
  apply Yields.of_extends
  intro s₀
  apply Extends.andThen yields_bump
  intro opener
  apply Extends.andThen (yields_optional (yields_startedBy hbody))
  intro inside
  apply Extends.andThen (yields_expect closer)
  intro closer
  apply Extends.pure
  simp [exprOptionPieces_eq]

theorem bracketed_eq_ok {body : Parser Expr} {closer : TokenKind} {s u : Stream}
    {r : Token × Option Expr × Token} (h : bracketed closer body s = .ok (r, u)) :
    r.2.2.kind = closer := by
  obtain ⟨opener, s₁, _, h⟩ := bind_eq_ok.mp h
  obtain ⟨inside, s₂, _, h⟩ := bind_eq_ok.mp h
  obtain ⟨last, s₃, hlast, h⟩ := bind_eq_ok.mp h
  cases pure_eq_ok.mp h
  exact expect_eq_ok hlast

/-- What stands in brackets has text, if only that of the closing bracket. -/
theorem isSolid_bracketed {r : Token × Option Expr × Token} {closer : TokenKind}
    (h : r.2.2.kind = closer) (hcloser : closer.isZeroWidth = false) :
    (.token r.1 :: (exprOptionPieces r.2.1 ++ [.token r.2.2])).any Outline.isSolid = true := by
  simp [Outline.isSolid_token h hcloser]

end Operators

section Rules

variable {rules : Rules} {s₀ : Stream}

/-! ## Elements of lists -/

section Elements

variable (hrules : ∀ rule, YieldsExpr (rules rule))

include hrules

theorem yields_starExpr : YieldsExpr (starExpr rules) :=
  yields_prefixed (hrules .expr) .star

theorem yields_testOrStar : YieldsExpr (testOrStar rules) := by
  apply Yields.of_extends
  intro s₀
  apply Extends.look (peeks_isAt _)
  intro b
  apply Extends.ite
  · exact (yields_starExpr hrules).extends
  · exact (hrules .test).extends

theorem yields_exprOrStar : YieldsExpr (exprOrStar rules) := by
  apply Yields.of_extends
  intro s₀
  apply Extends.look (peeks_isAt _)
  intro b
  apply Extends.ite
  · exact (yields_starExpr hrules).extends
  · exact (hrules .expr).extends

theorem yields_testList : YieldsExpr (testList rules) :=
  yields_commaList (hrules .test) _ _

theorem yields_testOrStarList : YieldsExpr (testOrStarList rules) :=
  yields_commaList (yields_testOrStar hrules) _ _

theorem yields_exprList : YieldsExpr (exprList rules) :=
  yields_commaList (yields_exprOrStar hrules) _ _

theorem yields_starredTest {plain : Parser Expr} (hplain : YieldsExpr plain) :
    YieldsExpr (starredTest rules plain) := by
  apply Yields.of_extends
  intro s₀
  apply Extends.look peeks_peek
  intro kind
  split
  · exact (yields_prefixed (hrules .test) .star).extends
  · exact (yields_prefixed (hrules .test) .doubleStar).extends
  · exact hplain.extends

theorem yields_typeList : YieldsExpr (typeList rules) :=
  yields_commaList (yields_starredTest hrules (hrules .test)) _ _

theorem yields_namedTest : YieldsExpr (namedTest rules) := by
  apply Yields.of_start
  intro s₀
  apply Extends.andThen (hrules .test)
  intro left
  apply Extends.look (peeks_isAt _)
  intro b
  refine .ite (.ite ?_ .fail) (.pure rfl)
  apply Extends.andThen yields_bump
  intro op
  apply Extends.andThen (hrules .test)
  intro right
  exact closeExpr (by simp) (fun _ => by simp) fun _ => rfl

theorem yields_namedOrStar : YieldsExpr (namedOrStar rules) := by
  apply Yields.of_extends
  intro s₀
  apply Extends.look (peeks_isAt _)
  intro b
  apply Extends.ite
  · exact (yields_starExpr hrules).extends
  · exact (yields_namedTest hrules).extends

/-! ## Comprehensions -/

theorem yields_loop {next : Parser (Option Clause)}
    (hnext : Yields next fun c => c.elim [] fun c => [c.outline]) :
    Yields (loop rules next) fun c => [c.outline] := by
  apply Yields.of_start
  intro s₀
  apply Extends.andThen (yields_eat _)
  intro async
  apply Extends.andThen (yields_expect _)
  intro forToken
  apply Extends.andThen (yields_exprList hrules)
  intro targets
  apply Extends.andThen (yields_expect _)
  intro inToken
  apply Extends.andThen (hrules .orTest)
  intro source
  apply Extends.andThen hnext
  intro next
  apply Extends.node (by simp)
  intro span
  refine ⟨.clause (.loop span async forToken targets inToken source next), ?_, rfl⟩
  simp [clauseOptionPieces_eq]

theorem yields_guardClause {next : Parser (Option Clause)}
    (hnext : Yields next fun c => c.elim [] fun c => [c.outline]) :
    Yields (guardClause rules next) fun c => [c.outline] := by
  apply Yields.of_start
  intro s₀
  apply Extends.andThen yields_bump
  intro ifToken
  apply Extends.andThen (hrules .testNoConditional)
  intro condition
  apply Extends.andThen hnext
  intro next
  apply Extends.node (by simp)
  intro span
  refine ⟨.clause (.guard span ifToken condition next), ?_, rfl⟩
  simp [clauseOptionPieces_eq]

theorem yields_nextClauseUpTo (n : Nat) :
    Yields (nextClauseUpTo rules n) fun c => c.elim [] fun c => [c.outline] := by
  induction n with
  | zero => exact .of_extends fun s₀ => .pure rfl
  | succ n ih =>
    refine yields_optional fun kind part hpart => ?_
    unfold clauseChoice at hpart
    split at hpart
    · cases hpart
      exact yields_loop hrules ih
    · split at hpart
      · cases hpart
        exact yields_guardClause hrules ih
      · cases hpart

theorem yields_nextClause :
    Yields (nextClause rules) fun c => c.elim [] fun c => [c.outline] := by
  intro s c u h
  exact yields_nextClauseUpTo hrules _ s c u h

theorem extends_comprehension (element : Expr) :
    Extends s₀ [element.outline] (comprehension rules s₀.current.span.start element)
      fun e => [e.outline] := by
  apply Extends.andThen (yields_loop hrules (yields_nextClause hrules))
  intro clause
  refine closeExpr (by simp) (fun _ => ?_) fun _ => rfl
  simp

theorem extends_comprehensionOrList {element : Parser Expr} (helement : YieldsExpr element)
    (kind : SequenceKind) (first : Expr) :
    Extends s₀ [first.outline]
      (comprehensionOrList rules s₀.current.span.start kind element first)
      fun e => [e.outline] := by
  apply Extends.look peeks_peek
  intro next
  apply Extends.ite
  · exact extends_comprehension hrules first
  · exact extends_commaListFrom helement kind _ first

theorem yields_testListComp : YieldsExpr (testListComp rules) := by
  apply Yields.of_start
  intro s₀
  apply Extends.andThen (yields_namedOrStar hrules)
  intro first
  exact extends_comprehensionOrList hrules (yields_namedOrStar hrules) _ first

/-! ## Displays in braces -/

theorem yields_braceElement (mode : BraceMode) : YieldsExpr (braceElement rules mode) := by
  apply Yields.of_extends
  intro s₀
  apply Extends.look peeks_peek
  intro kind
  refine .ite ?_ (.ite ?_ ?_)
  · exact (yields_prefixed (hrules .expr) .doubleStar).extends
  · exact (yields_starExpr hrules).extends
  · refine Yields.extends (.of_start fun s₀ => .andThen (hrules .test) fun key => ?_)
    apply Extends.look peeks_peek
    intro next
    refine .ite (.pure rfl) ?_
    apply Extends.andThen (yields_expect _)
    intro colon
    apply Extends.andThen (hrules .test)
    intro value
    exact closeExpr (by simp) (fun _ => by simp) fun _ => rfl

theorem extends_braceBody (first : Expr) (isDictionary : Bool) :
    Extends s₀ [first.outline] (braceBody rules s₀.current.span.start first isDictionary)
      fun e => [e.outline] := by
  apply Extends.look peeks_peek
  intro next
  refine .ite .fail (.ite ?_ ?_)
  · exact extends_comprehensionOrList hrules (yields_braceElement hrules _) _ first
  · exact extends_comprehensionOrList hrules (yields_braceElement hrules _) _ first

theorem yields_braceDisplay : YieldsExpr (braceDisplay rules) := by
  apply Yields.of_start
  intro s₀
  apply Extends.andThen yields_bump
  intro opener
  apply Extends.andKnow (yields_eat _) eat_eq_ok
  intro closer hcloser
  cases closer with
  | some closer =>
    have hsolid := Outline.isSolid_token (hcloser closer rfl) rfl
    refine closeExpr (by simp [Outline.ofOption, hsolid]) (fun _ => ?_) fun _ => rfl
    simp [exprOptionPieces, Outline.ofOption]
  | none =>
    -- the body has a start of its own, so it is read from there
    intro s e u hs h
    obtain ⟨bodyStart, _, hstart, h⟩ := bind_eq_ok.mp h
    cases hstart
    obtain ⟨first, s₁, hfirst, h⟩ := bind_eq_ok.mp h
    obtain ⟨body, s₂, hbody, h⟩ := bind_eq_ok.mp h
    have hread := extends_braceBody hrules first _ s₁ body s₂
      (yields_braceElement hrules _ s first s₁ hfirst) hbody
    refine (show Extends s₀ _ _ fun e => [e.outline] from
      .andThen (yields_expect _) fun closer => ?_) s₂ e u (hs.trans hread) h
    refine closeExpr (by simp) (fun _ => ?_) fun _ => rfl
    simp [exprOptionPieces, Outline.ofOption]

/-! ## Calls, subscripts and yields -/

theorem yields_argument : YieldsExpr (argument rules) := by
  refine yields_starredTest hrules (.of_start fun s₀ => ?_)
  apply Extends.andThen (yields_namedTest hrules)
  intro name
  apply Extends.look (peeks_isAt _)
  intro b
  refine .ite (.ite ?_ .fail) (.pure rfl)
  apply Extends.andThen yields_bump
  intro equal
  apply Extends.andThen (hrules .test)
  intro value
  exact closeExpr (by simp) (fun _ => by simp) fun _ => rfl

theorem yields_argList : YieldsExpr (argList rules) := by
  apply Yields.of_start
  intro s₀
  apply Extends.andThen (yields_argument hrules)
  intro first
  exact extends_comprehensionOrList hrules (yields_argument hrules) _ first

theorem yields_optionalTest :
    Yields (optionalTest rules) fun e => e.elim [] fun e => [e.outline] :=
  yields_optional (yields_startedBy (hrules .test))

theorem yields_sliceStep : Yields (sliceStep rules) Step.pieces := by
  apply Yields.of_extends
  intro s₀
  apply Extends.andThen yields_bump
  intro colon
  apply Extends.andThen (yields_optionalTest hrules)
  intro value
  apply Extends.pure
  simp [Step.pieces, exprOptionPieces_eq]

/-- What follows the first colon of a slice, which has text before the colon or in it. -/
theorem extends_afterColon (lower : Option Expr) (colon : Token)
    (hsolid : lower.isSome = true ∨ (Outline.token colon).isSolid = true) :
    Extends s₀ (exprOptionPieces lower ++ [.token colon])
      (do
        let upper ← optionalTest rules
        let step ← Parser.optional (.onKind .colon (sliceStep rules))
        return Expr.slice (← spanFrom s₀.current.span.start) lower colon upper step)
      fun e => [e.outline] := by
  apply Extends.andThen (yields_optionalTest hrules)
  intro upper
  apply Extends.andThen (yields_optional (yields_startedBy (yields_sliceStep hrules)))
  intro step
  refine closeExpr ?_ (fun _ => ?_) fun _ => rfl
  · rcases hsolid with hlower | hcolon
    · obtain ⟨e, rfl⟩ := Option.isSome_iff_exists.mp hlower
      simp [exprOptionPieces]
    · simp [hcolon]
  · simp [exprOptionPieces_eq, stepOptionPieces_eq]

theorem extends_sliceFrom_none (h : s₀.current.kind = .colon) :
    Extends s₀ [] (sliceFrom rules s₀.current.span.start none) fun e => [e.outline] := by
  apply Extends.bumpAtStart
  have hcolon : Extends s₀ (exprOptionPieces none ++ [.token s₀.current]) _ _ :=
    extends_afterColon hrules none s₀.current (.inr (Outline.isSolid_token h rfl))
  rw [exprOptionPieces] at hcolon
  exact hcolon

theorem extends_sliceFrom_some (lower : Expr) :
    Extends s₀ [lower.outline] (sliceFrom rules s₀.current.span.start (some lower))
      fun e => [e.outline] := by
  apply Extends.andThen yields_bump
  intro colon
  have hcolon : Extends s₀ (exprOptionPieces (some lower) ++ [.token colon]) _ _ :=
    extends_afterColon hrules (some lower) colon (.inl rfl)
  rw [exprOptionPieces] at hcolon
  exact hcolon

theorem yields_subscript : YieldsExpr (subscript rules) := by
  apply Yields.of_start
  intro s₀
  apply Extends.isAtStart
  split
  · next h => exact extends_sliceFrom_none hrules (beq_iff_eq.mp h)
  · apply Extends.andThen (hrules .test)
    intro lower
    apply Extends.look (peeks_isAt _)
    intro b
    refine .ite ?_ (.pure rfl)
    exact extends_sliceFrom_some hrules lower

theorem yields_subscriptList : YieldsExpr (subscriptList rules) :=
  yields_commaList (yields_subscript hrules) _ _

theorem yields_yieldExpr : YieldsExpr (yieldExpr rules) := by
  apply Yields.of_start
  intro s₀
  apply Extends.andKnow (yields_expect _) expect_eq_ok
  intro keyword hkeyword
  have hsolid := Outline.isSolid_token hkeyword rfl
  apply Extends.andThen (yields_eat _)
  intro fromToken
  cases fromToken with
  | some fromToken =>
    apply Extends.andThen (hrules .test)
    intro value
    refine closeExpr (by simp) (fun _ => ?_) fun _ => rfl
    simp [Outline.ofOption]
  | none =>
    apply Extends.andThen (yields_optional (yields_startedBy (yields_testOrStarList hrules)))
    intro value
    refine closeExpr (by simp [hsolid]) (fun _ => ?_) fun _ => rfl
    simp [Outline.ofOption, exprOptionPieces_eq]

/-! ## Parameters -/

theorem yields_typeHint : Yields (typeHint rules) fun hint => [hint.outline] := by
  apply Yields.of_start
  intro s₀
  apply Extends.andThen yields_bump
  intro colon
  apply Extends.andThen (hrules .test)
  intro value
  apply Extends.part (by simp)
  intro span
  simp [TypeHint.outline, TypeHint.span, TypeHint.pieces]

theorem yields_declarator (typed : Bool) :
    Yields (declarator rules typed) fun d => [d.outline] := by
  apply Yields.of_start
  intro s₀
  apply Extends.andKnow (yields_expect _) expect_eq_ok
  intro name hname
  have hsolid := Outline.isSolid_token hname rfl
  apply Extends.andThen (yields_optional (yields_startedBy (yields_typeHint hrules)))
  intro hint
  apply Extends.node (by simp [hsolid])
  intro span
  refine ⟨.declarator (.mk span name hint), ?_, rfl⟩
  simp [Declarator.outline, Declarator.pieces, typeHintOptionPieces_eq]

theorem extends_variadicParam (typed : Bool) (h : s₀.current.kind = .star) :
    Extends s₀ [] (variadicParam rules typed) fun p => [p.outline] := by
  have hsolid := Outline.isSolid_token h rfl
  apply Extends.start
  apply Extends.bumpAtStart
  apply Extends.andThen (yields_optional (yields_startedBy (yields_declarator hrules typed)))
  intro name
  cases name with
  | some d =>
    apply Extends.node (by simp)
    intro span
    refine ⟨.param (.variadic span s₀.current d), ?_, rfl⟩
    simp [Declarator.outline]
  | none =>
    apply Extends.node (by simp [hsolid])
    intro span
    refine ⟨.param (.keywordOnly span s₀.current), ?_, rfl⟩
    simp

theorem yields_param (typed : Bool) : Yields (param rules typed) fun p => [p.outline] := by
  apply Yields.of_extends
  intro s₀
  apply Extends.peekAtStart
  split
  · next h => exact extends_variadicParam hrules typed h
  · apply Extends.start
    apply Extends.andThen yields_bump
    intro op
    apply Extends.andThen (yields_declarator hrules typed)
    intro d
    apply Extends.node (by simp)
    intro span
    refine ⟨.param (.keywordVariadic span op d), ?_, rfl⟩
    simp [Declarator.outline]
  · next h => exact .tokenNode h rfl (by rw [Param.outline]) rfl
  · apply Extends.start
    apply Extends.andThen (yields_declarator hrules typed)
    intro d
    apply Extends.andThen (yields_eat _)
    intro assign
    cases assign with
    | some assign =>
      apply Extends.andThen (hrules .test)
      intro value
      apply Extends.node (by simp)
      intro span
      refine ⟨.param (.withDefault span d assign value), ?_, rfl⟩
      simp [Declarator.outline, Outline.ofOption]
    | none => exact .pure (by simp [Declarator.outline, Outline.ofOption])
  · exact .fail

omit hrules in
theorem peeks_moreParams (closer : TokenKind) (p : Param) : Peeks (moreParams closer p) := by
  refine (peeks_isAt closer).bind fun b => ?_
  split
  · exact peeks_pure _
  · split
    · exact peeks_fail _
    · exact peeks_pure _

theorem yields_params (typed : Bool) (closer : TokenKind) :
    Yields (params rules typed closer) fun ps => [ps.outline typed] := by
  apply Yields.of_start
  intro s₀
  apply Extends.andThen (yields_param hrules typed)
  intro first
  refine .bind (.separatedFrom [] (peeks_moreParams closer) (yields_param hrules typed) first)
    fun r => ?_
  refine .node ?_ fun span => ⟨.params typed (.mk span r.1 r.2), ?_, rfl⟩
  · rcases r with ⟨items, trailing⟩
    cases items <;> simp [Separated.pieces]
  · simp [Params.outline, Params.pieces, paramItemsPieces_eq]

/-! ## Atoms -/

theorem yields_parenBody : YieldsExpr (parenBody rules) := by
  apply Yields.of_extends
  intro s₀
  apply Extends.look (peeks_isAt _)
  intro b
  apply Extends.ite
  · exact (yields_yieldExpr hrules).extends
  · exact (yields_testListComp hrules).extends

omit hrules in
theorem extends_stringLiterals (h : s₀.current.kind = .string) :
    Extends s₀ [] stringLiterals fun e => [e.outline] := by
  have hsolid := Outline.isSolid_token h rfl
  apply Extends.start
  apply Extends.bumpAtStart
  apply Extends.andThen (yields_many (yields_startedBy yields_bump))
  intro more
  refine closeExpr (by simp [hsolid]) (fun _ => ?_) fun _ => rfl
  simp [List.map_eq_flatMap]

omit hrules in
theorem yields_display {body : Parser Expr} (hbody : YieldsExpr body) (kind : DisplayKind)
    {closer : TokenKind} (hcloser : closer.isZeroWidth = false) :
    YieldsExpr (display kind closer body) := by
  apply Yields.of_start
  intro s₀
  apply Extends.andKnow (yields_bracketed hbody closer) bracketed_eq_ok
  intro r hr
  refine closeExpr (isSolid_bracketed hr hcloser) (fun _ => ?_) fun _ => rfl
  rw [Expr.pieces]
  rfl

omit hrules in
theorem isZeroWidth_of_leaf {kind : TokenKind} {leaf : LeafKind}
    (h : LeafKind.ofToken? kind = some leaf) : kind.isZeroWidth = false := by
  cases kind <;> first | rfl | cases h

theorem yields_atom : YieldsExpr (atom rules) := by
  apply Yields.of_extends
  intro s₀
  apply Extends.peekAtStart
  split
  · exact (yields_display (yields_parenBody hrules) _ rfl).extends
  · exact (yields_display (yields_testListComp hrules) _ rfl).extends
  · exact (yields_braceDisplay hrules).extends
  · next h => exact extends_stringLiterals h
  · split
    · next leaf hleaf =>
      refine .tokenNode (n := .expr (.leaf leaf s₀.current)) rfl (isZeroWidth_of_leaf hleaf) ?_
        rfl
      rw [Expr.outline, Expr.pieces]
    · exact .fail

omit hrules in
theorem yields_member : Yields member fun t => [t.outline] := by
  apply Yields.of_start
  intro s₀
  apply Extends.andThen yields_bump
  intro dot
  apply Extends.andKnow (yields_expect _) expect_eq_ok
  intro name hname
  have hsolid := Outline.isSolid_token hname rfl
  apply Extends.node (by simp [hsolid])
  intro span
  refine ⟨.trailer (.member span dot name), ?_, rfl⟩
  simp [Trailer.outline, Trailer.pieces]

theorem yields_call : Yields (call rules) fun t => [t.outline] := by
  apply Yields.of_start
  intro s₀
  apply Extends.andKnow (yields_bracketed (yields_argList hrules) _) bracketed_eq_ok
  intro r hr
  apply Extends.node (isSolid_bracketed hr rfl)
  intro span
  refine ⟨.trailer (.call span r.1 r.2.1 r.2.2), ?_, rfl⟩
  rw [Trailer.outline, Trailer.pieces]

theorem yields_index : Yields (index rules) fun t => [t.outline] := by
  apply Yields.of_start
  intro s₀
  apply Extends.andKnow (yields_bracketed (yields_subscriptList hrules) _) bracketed_eq_ok
  intro r hr
  apply Extends.node (isSolid_bracketed hr rfl)
  intro span
  refine ⟨.trailer (.index span r.1 r.2.1 r.2.2), ?_, rfl⟩
  rw [Trailer.outline, Trailer.pieces]

theorem yields_trailerChoice (kind : TokenKind) (part : Parser Trailer)
    (h : trailerChoice rules kind = some part) : Yields part fun t => [t.outline] := by
  unfold trailerChoice at h
  split at h <;> cases h
  · exact yields_member
  · exact yields_call hrules
  · exact yields_index hrules

theorem yields_appliedAtom : YieldsExpr (appliedAtom rules) := by
  apply Yields.of_start
  intro s₀
  apply Extends.andThen (yields_eat _)
  intro await
  apply Extends.andThen (yields_atom hrules)
  intro atom
  apply Extends.andThen (yields_many (yields_trailerChoice hrules))
  intro trailers
  split
  · next hplain =>
    rw [Bool.and_eq_true, Option.isNone_iff_eq_none, List.isEmpty_iff] at hplain
    exact .pure (by simp [hplain.1, hplain.2, Outline.ofOption])
  · refine closeExpr (by simp) (fun _ => ?_) fun _ => rfl
    simp [trailersPieces_eq]

/-! ## The levels -/

theorem yields_power : YieldsExpr (power rules) := by
  apply Yields.of_start
  intro s₀
  apply Extends.andThen (yields_appliedAtom hrules)
  intro base
  apply Extends.andThen (yields_eat _)
  intro op
  cases op with
  | some op =>
    apply Extends.andThen (hrules .factor)
    intro exponent
    refine closeExpr (by simp) (fun _ => ?_) fun _ => rfl
    simp [Outline.ofOption]
  | none => exact .pure rfl

theorem yields_factor : YieldsExpr (factor rules) := by
  apply Yields.of_extends
  intro s₀
  apply Extends.look peeks_peek
  intro kind
  split
  · exact (yields_prefixed (hrules .factor) _).extends
  · exact (yields_power hrules).extends

theorem yields_expr : YieldsExpr (expr rules) := by
  unfold expr
  induction FoldLevel.arithmetic with
  | nil => exact yields_factor hrules
  | cons level levels ih => exact yields_leftFold ih level

theorem yields_notTest : YieldsExpr (notTest rules) := by
  apply Yields.of_extends
  intro s₀
  apply Extends.look (peeks_isAt _)
  intro b
  apply Extends.ite
  · exact (yields_prefixed (hrules .notTest) _).extends
  · exact (yields_comparisons (yields_expr hrules)).extends

theorem yields_orTest : YieldsExpr (orTest rules) :=
  yields_leftFold (yields_leftFold (yields_notTest hrules) _) _

theorem yields_lambda {body : Parser Expr} (hbody : YieldsExpr body) :
    YieldsExpr (lambda rules body) := by
  apply Yields.of_start
  intro s₀
  apply Extends.andThen yields_bump
  intro keyword
  apply Extends.andThen (yields_optional (yields_startedBy (yields_params hrules false _)))
  intro params
  apply Extends.andThen (yields_expect _)
  intro colon
  apply Extends.andThen hbody
  intro body
  refine closeExpr (by simp) (fun _ => ?_) fun _ => rfl
  simp [paramsOptionPieces_eq]

theorem yields_test : YieldsExpr (test rules) := by
  apply Yields.of_extends
  intro s₀
  apply Extends.look (peeks_isAt _)
  intro b
  apply Extends.ite
  · exact (yields_lambda hrules (hrules .test)).extends
  · refine Yields.extends (.of_start fun s₀ => .andThen (yields_orTest hrules) fun body => ?_)
    apply Extends.andThen (yields_eat _)
    intro ifToken
    cases ifToken with
    | some ifToken =>
      apply Extends.andThen (yields_orTest hrules)
      intro condition
      apply Extends.andThen (yields_expect _)
      intro elseToken
      apply Extends.andThen (hrules .test)
      intro alternative
      refine closeExpr (by simp) (fun _ => ?_) fun _ => rfl
      simp [Outline.ofOption]
    | none => exact .pure rfl

theorem yields_testNoConditional : YieldsExpr (testNoConditional rules) := by
  apply Yields.of_extends
  intro s₀
  apply Extends.look (peeks_isAt _)
  intro b
  apply Extends.ite
  · exact (yields_lambda hrules (hrules .testNoConditional)).extends
  · exact (yields_orTest hrules).extends

end Elements

end Rules

/-! ## Tying the knot -/

theorem yields_rulesUpTo (n : Nat) (rule : Rule) : YieldsExpr (rulesUpTo n rule) := by
  induction n generalizing rule with
  | zero =>
    intro s e u h
    exact absurd h fail_ne_ok
  | succ n ih =>
    cases rule with
    | test => exact yields_test ih
    | testNoConditional => exact yields_testNoConditional ih
    | orTest => exact yields_orTest ih
    | expr => exact yields_expr ih
    | notTest => exact yields_notTest ih
    | factor => exact yields_factor ih

theorem yields_withRules {α : Type} {parser : Rules → Parser α} {pieces : α → List Outline}
    (h : ∀ rules : Rules, (∀ rule, YieldsExpr (rules rule)) → Yields (parser rules) pieces) :
    Yields (withRules parser) pieces := by
  intro s a u hp
  exact h _ (yields_rulesUpTo _) s a u hp

end Verbatim.Grammar
