import Verbatim.Proofs.Derivation.ParseExpression

/-!
# Parsed statements are derived

The statement grammar returns what the derivations of statements allow, with the kinds of
all tokens. The knot is tied as for expressions.
-/

namespace Verbatim.Grammar

open Verbatim.Parser

variable {s : Stream}

/-! ## Expressions inside statements -/

theorem derives_aTest : DerivesAt aTest s .test :=
  withRules_returns fun _ h => h .test s

theorem derives_anExpr : DerivesAt anExpr s .expr :=
  withRules_returns fun _ h => h .expr s

theorem derives_aNamedTest : DerivesAt aNamedTest s .named :=
  withRules_returns fun _ h => derives_namedTest h

theorem derives_aTestList : DerivesAt aTestList s (.list .testList .test) :=
  withRules_returns fun _ h => derives_testList h

theorem derives_anExprList : DerivesAt anExprList s (.list .exprList .exprOrStar) :=
  withRules_returns fun _ h => derives_exprList h

theorem introduced_returns {α : Type} {value : Parser α} {kind : TokenKind} {inside : α → Prop}
    (hs : s.current.kind = kind) (hvalue : ∀ u, Returns value u inside) :
    Returns (introduced value) s (Introduced.By kind inside) := by
  refine .start fun _ => .bump fun u => (hvalue u).bind fun a v ha => ?_
  exact .spanFrom fun span => .pure ⟨hs, ha⟩

/-- An optional part after a token of its own. -/
theorem optionalIntroduced {α β : Type} {value : Parser α} {kind : TokenKind}
    {inside : α → Prop} {f : Option (Introduced α) → Parser β} {post : β → Prop}
    (hvalue : ∀ u, Returns value u inside)
    (h : ∀ o u, (∀ part, o = some part → part.By kind inside) → Returns (f o) u post) :
    Returns (Parser.optional (.onKind kind (introduced value)) >>= f) s post :=
  .optionalBy (fun hkind => introduced_returns (beq_iff_eq.mp hkind) hvalue) h

/-! ## Values -/

theorem derived_listValue : Returns listValue s Value.Derived := by
  refine (withRules_returns fun _ h => derives_testOrStarList h).bind fun e u he => ?_
  split
  · exact .pure he
  · next hlist =>
    refine .pure (.unit .testValue ?_)
    cases he with
    | unit h hn =>
      cases h
      exact hn
    | sequence => exact absurd rfl (hlist _ _ _)
    | lambda h => rcases h with h | h <;> cases h

theorem derived_assignedValue : Returns assignedValue s Value.Derived := by
  refine .isAt (fun _ => ?_) fun _ => derived_listValue
  refine (withRules_returns fun _ h => derives_yieldExpr h).bind fun e u he => ?_
  exact .pure (.unit .yieldValue he)

theorem derived_testListValue : Returns (Value.single <$> aTestList) s Value.Derived := by
  rw [← bind_pure_comp]
  exact derives_aTestList.bind fun e u he => .pure (.unit .listValue he)

/-! ## Small statements -/

theorem derived_annotatedAssignment {first : Value} (n : Nat) (hs : s.current.kind = .colon)
    (hfirst : first.Derived) : Returns (annotatedAssignment n first) s Small.Derived := by
  cases first with
  | list span items trailing => exact .failBind
  | single target =>
    refine .pureBind (.bump fun u => derives_aTest.bind fun typeHint v hhint => ?_)
    refine optionalIntroduced (fun _ => derived_assignedValue) fun value w hvalue => ?_
    exact .spanFrom fun span => .pure ⟨hfirst, hs, hhint, hvalue⟩

theorem derived_augmentedAssignment {first : Value} (n : Nat)
    (hs : s.current.kind.isAugmentedAssign = true) (hfirst : first.Derived) :
    Returns (augmentedAssignment n first) s Small.Derived := by
  cases first with
  | list span items trailing => exact .failBind
  | single target =>
    refine .pureBind (.bump fun u => ?_)
    have hvalue : ∀ v : Value, v.Derived → ∀ w, Returns
        (do return Small.augAssign (← spanFrom n) target s.current v) w Small.Derived :=
      fun v hv w => .spanFrom fun span => .pure ⟨hfirst, hs, hv⟩
    refine .isAt (fun _ => ?_) fun _ => ?_
    · exact derived_assignedValue.bind fun v w hv => hvalue v hv w
    · exact derived_testListValue.bind fun v w hv => hvalue v hv w

theorem derived_assignment {first : Value} (n : Nat) (hs : s.current.kind = .equal)
    (hfirst : first.Derived) : Returns (assignment n first) s Small.Derived := by
  refine .bump fun u => .separated (fun _ => derived_assignedValue) fun rest v hrest => ?_
  exact .spanFrom fun span => .pure ⟨hfirst, hs, hrest⟩

theorem derived_expressionStatement : Returns expressionStatement s Small.Derived := by
  refine .start fun n => derived_assignedValue.bind fun first u hfirst => .peek ?_
  refine .ite (fun h => ?_) fun _ => .ite (fun h => ?_) fun _ => .ite (fun h => ?_) fun _ => ?_
  · exact derived_annotatedAssignment n h hfirst
  · exact derived_augmentedAssignment n h hfirst
  · exact derived_assignment n h hfirst
  · exact .pure hfirst

theorem derived_simpleKeyword {kind : SimpleKeyword} (hs : s.current.kind = kind.tokenKind) :
    Returns (simpleKeyword kind) s Small.Derived :=
  .bump fun _ => .pure hs

theorem derived_returnStatement (hs : s.current.kind = .kwReturn) :
    Returns returnStatement s Small.Derived := by
  refine .start fun n => .bump fun u => .optionalBy (fun _ => derived_listValue) fun v w hv => ?_
  exact .spanFrom fun span => .pure ⟨hs, hv⟩

theorem derived_raised : Returns raised s Raised.Derived := by
  refine derives_aTest.bind fun exception u hexception => ?_
  refine optionalIntroduced (fun _ => derives_aTest) fun cause v hcause => ?_
  exact .pure ⟨hexception, hcause⟩

theorem derived_raiseStatement (hs : s.current.kind = .kwRaise) :
    Returns raiseStatement s Small.Derived := by
  refine .start fun n => .bump fun u => .optionalBy (fun _ => derived_raised) fun r v hr => ?_
  exact .spanFrom fun span => .pure ⟨hs, hr⟩

theorem derived_delStatement (hs : s.current.kind = .kwDel) :
    Returns delStatement s Small.Derived := by
  refine .start fun n => .bump fun u => derives_anExprList.bind fun targets v htargets => ?_
  exact .spanFrom fun span => .pure ⟨hs, htargets⟩

theorem name_returns : Returns (expect .name) s fun t => t.kind = .name :=
  fun _ _ h => expect_eq_ok h

theorem derived_scopeStatement {kind : ScopeKind} (hs : s.current.kind = kind.tokenKind) :
    Returns (scopeStatement kind) s Small.Derived := by
  refine .start fun n => .bump fun u => .separated (fun _ => name_returns) fun names v h => ?_
  exact .spanFrom fun span => .pure ⟨hs, h⟩

theorem derived_assertStatement (hs : s.current.kind = .kwAssert) :
    Returns assertStatement s Small.Derived := by
  refine .start fun n => .bump fun u => derives_aTest.bind fun test v htest => ?_
  refine optionalIntroduced (fun _ => derives_aTest) fun message w hmessage => ?_
  exact .spanFrom fun span => .pure ⟨hs, htest, hmessage⟩

/-! ## Imports -/

theorem derived_dottedName : Returns dottedName s DottedName.Derived := by
  refine .start fun n => .separated (fun _ => name_returns) fun parts u hparts => ?_
  exact .spanFrom fun span => .pure hparts

theorem derived_optionalAlias : Returns optionalAlias s AsName.Derived :=
  .ofBind (optionalIntroduced (fun _ => name_returns) fun _ _ h => .pure h)

theorem derived_dottedAsName : Returns dottedAsName s DottedAsName.Derived := by
  refine .start fun n => derived_dottedName.bind fun name u hname => ?_
  refine derived_optionalAlias.bind fun asName v hasName => ?_
  exact .spanFrom fun span => .pure ⟨hname, hasName⟩

theorem derived_importStatement (hs : s.current.kind = .kwImport) :
    Returns importStatement s Small.Derived := by
  refine .start fun n => .bump fun u => ?_
  refine .separated (fun _ => derived_dottedAsName) fun names v hnames => ?_
  exact .spanFrom fun span => .pure ⟨hs, hnames⟩

theorem derived_importAsName : Returns importAsName s ImportAsName.Derived := by
  refine .start fun n => .expect fun name u hname => ?_
  refine derived_optionalAlias.bind fun asName v hasName => ?_
  exact .spanFrom fun span => .pure ⟨hname, hasName⟩

theorem derived_bareNames : Returns bareNames s ImportTargets.Derived := by
  refine .start fun n => .separated (fun _ => derived_importAsName) fun names u hnames => ?_
  exact .spanFrom fun span => .pure hnames

theorem derived_enclosedNames (hs : s.current.kind = .leftParen) :
    Returns enclosedNames s ImportTargets.Derived := by
  refine .start fun n => .bump fun u => derived_importAsName.bind fun first v hfirst => ?_
  refine .separatedFrom (B := fun _ => True) (fun _ => derived_importAsName)
    (fun _ _ => .of_forall fun _ _ => trivial) hfirst fun r w hr => ?_
  refine .expect fun closer x hcloser => .spanFrom fun span => .pure ?_
  exact ⟨hs, hr.row, hr.trailing, hcloser⟩

theorem derived_importTargets : Returns importTargets s ImportTargets.Derived := by
  apply Leaves.peek
  split
  · next hs => exact .bump fun u => .pure hs
  · next hs => exact derived_enclosedNames hs
  · exact derived_bareNames

theorem derived_importFromStatement (hs : s.current.kind = .kwFrom) :
    Returns importFromStatement s Small.Derived := by
  refine .start fun n => .bump fun u => ?_
  refine .manyBy (M := fun t => t.kind = .dot ∨ t.kind = .ellipsis) (fun v hv => ?_)
    fun dots v hdots => ?_
  · intro t w ht
    rw [(bump_eq_ok ht).1]
    simpa [isDots] using hv
  · refine .optionalIff (fun _ => derived_dottedName) fun module w hmodule hsome => ?_
    refine .expect fun importToken x himport => derived_importTargets.bind fun targets y h => ?_
    refine .spanFrom fun span => .pure ⟨hs, hdots, hmodule, ?_, himport, h⟩
    rintro rfl
    simpa using hsome

theorem derived_small : Returns small s Small.Derived := by
  apply Leaves.peek
  split
  · next hs => exact derived_simpleKeyword hs
  · next hs => exact derived_simpleKeyword hs
  · next hs => exact derived_simpleKeyword hs
  · next hs => exact derived_returnStatement hs
  · next hs => exact derived_raiseStatement hs
  · next hs => exact derived_delStatement hs
  · next hs => exact derived_scopeStatement hs
  · next hs => exact derived_scopeStatement hs
  · next hs => exact derived_assertStatement hs
  · next hs => exact derived_importStatement hs
  · next hs => exact derived_importFromStatement hs
  · exact derived_expressionStatement

/-! ## Lines -/

theorem lineBreak_returns :
    Returns lineBreak s fun o => ∀ t, o = some t → t.kind = .newline := by
  apply Leaves.peek
  split
  · next hs =>
    refine .bump fun u => .pure ?_
    rintro _ ⟨⟩
    exact hs
  · exact .pure (by simp)
  · exact .pure (by simp)
  · exact .fail

theorem derived_line : Returns line s Line.Derived := by
  refine .start fun n => derived_small.bind fun first u hfirst => ?_
  refine .separatedFrom (B := fun _ => True) (fun _ => derived_small)
    (fun _ _ => .of_forall fun _ _ => trivial) hfirst fun r v hr => ?_
  refine .eat fun typeComment w hcomment => lineBreak_returns.bind fun newline x hnewline => ?_
  exact .spanFrom fun span => .pure ⟨hr.row, hr.trailing, hcomment, hnewline⟩

/-! ## Compound statements -/

theorem derived_decorator (hs : s.current.kind = .atSign) :
    Returns decorator s Decorator.Derived := by
  refine .start fun n => .bump fun u => derives_aNamedTest.bind fun e v he => ?_
  refine .eat fun typeComment w hcomment => .expect fun newline x hnewline => ?_
  exact .spanFrom fun span => .pure ⟨hs, he, hcomment, hnewline⟩

theorem derived_withItem : Returns withItem s WithItem.Derived := by
  refine .start fun n => derives_aTest.bind fun context u hcontext => ?_
  refine optionalIntroduced (fun _ => derives_anExpr) fun target v htarget => ?_
  exact .spanFrom fun span => .pure ⟨hcontext, htarget⟩

theorem derived_caught : Returns caught s Caught.Derived := by
  refine derives_aTest.bind fun test u htest => ?_
  exact derived_optionalAlias.bind fun asName v hasName => .pure ⟨htest, hasName⟩

theorem derived_classArguments (hs : s.current.kind = .leftParen) :
    Returns classArguments s ClassArguments.Derived := by
  refine (bracketed_returns hs fun _ => withRules_returns fun _ h => derives_argList h).bind
    fun r u hr => .pure ?_
  exact ⟨hr.opener, hr.body, hr.closer⟩

section Statement

open Compound (Derived)

variable {statement : Parser Stmt}
  (hstatement : ∀ u, Returns statement u fun s => Derived (.stmt s))

include hstatement

theorem derived_body : Returns (body statement) s fun b => Derived (.body b) := by
  refine .peek (.ite (fun _ => ?_) fun _ => ?_)
  · refine .start fun n => .eat fun typeComment u hcomment => .expect fun newline v hnewline => ?_
    refine .isAt (fun hindent => .bump fun w => ?_) fun _ => .fail
    refine .manyBy (fun x _ => hstatement x) fun statements x hstatements => ?_
    refine .expect fun dedent y hdedent => .spanFrom fun span => .pure ?_
    exact .block hcomment hnewline hindent hstatements hdedent
  · exact derived_line.bind fun l u hl => .pure (.bodyLine hl)

theorem derived_blockClause {kind : TokenKind} (hs : s.current.kind = kind) :
    Returns (blockClause statement) s fun c => Derived (.clause kind c) := by
  subst hs
  refine .start fun n => .bump fun u => .expect fun colon v hcolon => ?_
  refine (derived_body hstatement).bind fun b w hb => .spanFrom fun span => .pure ?_
  exact .clause hcolon hb

/-- A clause that only its keyword begins. -/
theorem optionalClause {α : Type} {kind : TokenKind} {f : Option BlockClause → Parser α}
    {post : α → Prop}
    (h : ∀ o u, (∀ c, o = some c → Derived (.clause kind c)) → Returns (f o) u post) :
    Returns (Parser.optional (.onKind kind (blockClause statement)) >>= f) s post :=
  .optionalBy (fun hkind => derived_blockClause hstatement (beq_iff_eq.mp hkind)) h

theorem derived_elifClause (hs : s.current.kind = .kwElif) :
    Returns (elifClause statement) s fun c => Derived (.elif c) := by
  refine .start fun n => .bump fun u => derives_aNamedTest.bind fun condition v hcondition => ?_
  refine .expect fun colon w hcolon => (derived_body hstatement).bind fun b x hb => ?_
  exact .spanFrom fun span => .pure (.elif hs hcondition hcolon hb)

theorem derived_ifStatement (hs : s.current.kind = .kwIf) :
    Returns (ifStatement statement) s fun s => Derived (.stmt s) := by
  refine .start fun n => .bump fun u => derives_aNamedTest.bind fun condition v hcondition => ?_
  refine .expect fun colon w hcolon => (derived_body hstatement).bind fun b x hb => ?_
  refine .manyBy (fun y hy => derived_elifClause hstatement (beq_iff_eq.mp hy))
    fun elifs y helifs => optionalClause hstatement fun orelse z horelse => ?_
  exact .spanFrom fun span => .pure (.ifElse hs hcondition hcolon hb helifs horelse)

theorem derived_whileStatement (hs : s.current.kind = .kwWhile) :
    Returns (whileStatement statement) s fun s => Derived (.stmt s) := by
  refine .start fun n => .bump fun u => derives_aNamedTest.bind fun condition v hcondition => ?_
  refine .expect fun colon w hcolon => (derived_body hstatement).bind fun b x hb => ?_
  refine optionalClause hstatement fun orelse y horelse => ?_
  exact .spanFrom fun span => .pure (.whileLoop hs hcondition hcolon hb horelse)

theorem derived_forStatement {async : Option Token} (n : Nat)
    (hasync : ∀ t, async = some t → t.kind = .kwAsync) :
    Returns (forStatement statement n async) s fun s => Derived (.stmt s) := by
  refine .expect fun forToken u hfor => derives_anExprList.bind fun targets v htargets => ?_
  refine .expect fun inToken w hin => derives_aTestList.bind fun source x hsource => ?_
  refine .expect fun colon y hcolon => (derived_body hstatement).bind fun b z hb => ?_
  refine optionalClause hstatement fun orelse _ horelse => .spanFrom fun span => .pure ?_
  exact .forLoop hasync hfor htargets hin hsource hcolon hb horelse

theorem derived_exceptClause (hs : s.current.kind = .kwExcept) :
    Returns (exceptClause statement) s fun c => Derived (.handler c) := by
  refine .start fun n => .bump fun u => .optionalBy (fun _ => derived_caught) fun c v hc => ?_
  refine .expect fun colon w hcolon => (derived_body hstatement).bind fun b x hb => ?_
  exact .spanFrom fun span => .pure (.handler hs hc hcolon hb)

theorem derived_tryStatement (hs : s.current.kind = .kwTry) :
    Returns (tryStatement statement) s fun s => Derived (.stmt s) := by
  refine .start fun n => .bump fun u => .expect fun colon v hcolon => ?_
  refine (derived_body hstatement).bind fun b w hb => ?_
  refine .manyBy (fun x hx => derived_exceptClause hstatement (beq_iff_eq.mp hx))
    fun handlers x hhandlers => ?_
  -- an `else` is looked for only after a handler, and both ways go on alike from there
  have hrest : ∀ orelse u, (∀ c, orelse = some c → Derived (.clause .kwElse c)) →
      (handlers = [] → orelse = none) →
      Returns (do
        let finalizer ← Parser.optional (.onKind .kwFinally (blockClause statement))
        if handlers.isEmpty && finalizer.isNone then Parser.fail .expectedHandler
        else
          let span ← spanFrom n
          return Stmt.tryBlock span s.current colon b handlers orelse finalizer) u
        fun s => Derived (.stmt s) := by
    intro orelse u horelse hnone
    refine optionalClause hstatement fun finalizer v hfinalizer => .ite (fun _ => .fail) fun h => ?_
    refine .spanFrom fun span => .pure ?_
    refine .tryBlock hs hcolon hb hhandlers horelse hfinalizer fun hempty => ⟨hnone hempty, ?_⟩
    cases finalizer with
    | some c => rfl
    | none => simp [hempty] at h
  refine .ite (fun _ => ?_) fun h => ?_
  · exact hrest none x (by simp) fun _ => rfl
  · refine optionalClause hstatement fun orelse y horelse => hrest orelse y horelse fun hempty => ?_
    simp [hempty] at h

theorem derived_withStatement {async : Option Token} (n : Nat)
    (hasync : ∀ t, async = some t → t.kind = .kwAsync) :
    Returns (withStatement statement n async) s fun s => Derived (.stmt s) := by
  refine .expect fun withToken u hwith => ?_
  refine .separated (fun _ => derived_withItem) fun items v hitems => ?_
  refine .expect fun colon w hcolon => (derived_body hstatement).bind fun b x hb => ?_
  exact .spanFrom fun span => .pure (.withBlock hasync hwith hitems hcolon hb)

theorem derived_funcDef {decorators : List Decorator} {async : Option Token} (n : Nat)
    (hdecorators : ∀ d ∈ decorators, d.Derived)
    (hasync : ∀ t, async = some t → t.kind = .kwAsync) :
    Returns (funcDef statement n decorators async) s fun s => Derived (.stmt s) := by
  refine .expect fun keyword u hkeyword => .expect fun name v hname => ?_
  refine .expect fun opener w hopener => ?_
  refine .optionalBy (fun _ => withRules_returns fun _ h => derives_params h true _)
    fun params x hparams => .expect fun closer y hcloser => ?_
  refine optionalIntroduced (fun _ => derives_aTest) fun returns z hreturns => ?_
  refine .expect fun colon _ hcolon => (derived_body hstatement).bind fun b _ hb => ?_
  refine .spanFrom fun span => .pure ?_
  exact .funcDef hdecorators hasync hkeyword hname hopener hparams hcloser hreturns hcolon hb

theorem derived_classDef {decorators : List Decorator} (n : Nat)
    (hdecorators : ∀ d ∈ decorators, d.Derived) :
    Returns (classDef statement n decorators) s fun s => Derived (.stmt s) := by
  refine .expect fun keyword u hkeyword => .expect fun name v hname => ?_
  refine .optionalBy (fun hkind => derived_classArguments (beq_iff_eq.mp hkind))
    fun arguments w harguments => ?_
  refine .expect fun colon x hcolon => (derived_body hstatement).bind fun b y hb => ?_
  exact .spanFrom fun span => .pure (.classDef hdecorators hkeyword hname harguments hcolon hb)

theorem derived_asyncStatement (hs : s.current.kind = .kwAsync) :
    Returns (asyncStatement statement) s fun s => Derived (.stmt s) := by
  have hasync : ∀ t, some s.current = some t → t.kind = .kwAsync := by
    rintro _ ⟨⟩
    exact hs
  refine .start fun n => .bump fun u => .peek ?_
  split
  · exact derived_funcDef hstatement n (by simp) hasync
  · exact derived_forStatement hstatement n hasync
  · exact derived_withStatement hstatement n hasync
  · exact .fail

theorem derived_decorated : Returns (decorated statement) s fun s => Derived (.stmt s) := by
  refine .start fun n => ?_
  refine .manyBy (fun u hu => derived_decorator (beq_iff_eq.mp hu)) fun decorators u h => .peek ?_
  split
  · exact derived_funcDef hstatement n h (by simp)
  · exact derived_classDef hstatement n h
  · next hkind =>
    refine .bump fun v => .isAt (fun _ => ?_) fun _ => .fail
    refine derived_funcDef hstatement n h ?_
    rintro _ ⟨⟩
    exact hkind
  · exact .fail

theorem derived_statementBody :
    Returns (statementBody statement) s fun s => Derived (.stmt s) := by
  apply Leaves.peek
  split
  · next hs => exact derived_ifStatement hstatement hs
  · next hs => exact derived_whileStatement hstatement hs
  · exact .start fun n => derived_forStatement hstatement n (by simp)
  · next hs => exact derived_tryStatement hstatement hs
  · exact .start fun n => derived_withStatement hstatement n (by simp)
  · exact .start fun n => derived_funcDef hstatement n (by simp) (by simp)
  · exact .start fun n => derived_classDef hstatement n (by simp)
  · exact derived_decorated hstatement
  · next hs => exact derived_asyncStatement hstatement hs
  · exact .fail
  · exact derived_line.bind fun l u hl => .pure (.line hl)

end Statement

/-! ## Tying the knot -/

theorem derived_statementUpTo (n : Nat) (s : Stream) :
    Returns (statementUpTo n) s fun s => Compound.Derived (.stmt s) := by
  induction n generalizing s with
  | zero => exact .fail
  | succ n ih => exact derived_statementBody ih

theorem derived_statement : Returns statement s fun s => Compound.Derived (.stmt s) := by
  intro stmt u h
  exact derived_statementUpTo _ s stmt u h

end Verbatim.Grammar
