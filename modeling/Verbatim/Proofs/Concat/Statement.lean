import Verbatim.Proofs.Concat.Seam
import Verbatim.Proofs.Decision.Statement
import Verbatim.Proofs.Layout.Statements

/-!
# Statements in front of a seam

A line in front of a seam takes its own line break, and a block the marker that closes it. What a
compound statement looks for behind its last block are clauses, and there are none behind a
seam. So a statement that comes up to a seam is the same whether the stream ends there or not.
-/

namespace Verbatim.Grammar

open Verbatim.Parser

variable {ρ : Relabelling} {b start start' : Nat} {ts : List Token} {s s' u : Stream}

/-! ## Lines -/

/-- A line in front of its line break. -/
def lineHead : Parser (Nat × Separated Small × Option Token × Option Token) := do
  let start ← Parser.start
  let first ← small
  let (statements, trailing) ←
    separatedFrom .semicolon (fun _ => return ! endsLine (← peek)) small first
  let typeComment ← eat .typeComment
  return (start, statements, trailing, typeComment)

/-- What a relabelling leaves of a line in front of its line break. -/
def lineHeadView (ρ : Relabelling) (r : Nat × Separated Small × Option Token × Option Token) :
    Separated Small × Option Token × Option Token :=
  (r.2.1.relabel ρ (Small.relabel ρ), r.2.2.1.map ρ.token, r.2.2.2.map ρ.token)

theorem line_eq : line = lineHead >>= fun r => lineBreak >>= fun newline =>
    spanFrom r.1 >>= fun span => pure ⟨span, r.2.1, r.2.2.1, r.2.2.2, newline⟩ := by
  simp only [line, lineHead, bind_assoc, pure_bind]

theorem alike_lineHead : Alike ρ b (lineHeadView ρ) lineHead lineHead := by
  refine .bindStart fun start start' => alike_small.bind fun first first' hfirst => ?_
  refine (Alike.separatedFrom (fun _ _ _ => ?_) alike_small hfirst).bind ?_
  · exact .bindPeek fun _ => .pure rfl
  · rintro ⟨statements, trailing⟩ ⟨statements', trailing'⟩ h
    simp only [separatedView, Prod.mk.injEq] at h
    refine Alike.eat.bind fun typeComment typeComment' htype => .pure ?_
    simp only [lineHeadView, h, htype]

/-- Where a line may end, by the kind of the token that comes next. -/
def lineBreakAt : TokenKind → Parser (Option Token)
  | .newline => some <$> bump
  | .endOfFile | .dedent => pure none
  | _ => fail (.expected .newline)

theorem lineBreak_eq (s : Stream) : lineBreak s = lineBreakAt s.current.kind s := by
  have hpeek : lineBreak s = (match s.current.kind with
      | .newline => bump >>= fun t => pure (some t)
      | .endOfFile | .dedent => pure none
      | _ => fail (.expected .newline) : Parser (Option Token)) s := rfl
  rw [hpeek]
  cases s.current.kind <;> rfl

theorem lineBreak_of_endOfFile {newline : Option Token} (hs : s.current.kind = .endOfFile)
    (h : lineBreak s = .ok (newline, u)) : newline = none := by
  rw [lineBreak_eq, hs] at h
  cases h
  rfl

theorem meets_lineBreak {newline : Option Token} (hts : ts ≠ []) (hjoint : s.Joint ρ ts s')
    (h : lineBreak s = .ok (newline, u)) :
    s.Meets (Option.map ρ.token) ts.length s' newline u (lineBreak s') := by
  rw [lineBreak_eq] at h ⊢
  rw [hjoint.kind_eq hts] at h
  generalize s'.current.kind = kind at h ⊢
  unfold lineBreakAt at h ⊢
  split at h
  · rw [map_eq_pure_bind] at h ⊢
    obtain ⟨t, w, ht, hpure⟩ := bind_eq_ok.mp h
    cases hpure
    refine (meets_bump hts hjoint ht).bind fun m t' u' hview _ _ _ => .refl ?_
    rw [Option.map_some, Option.map_some, hview]
  · cases h
    exact .refl rfl
  · cases h
    exact .refl rfl
  · exact absurd h fail_ne_ok

/-- In front of a seam a line does not go without its line break. -/
theorem newline_ne_none {l : Line} (hts : ts ≠ []) (hjoint : s.Joint ρ ts s')
    (hend : u.upcoming = []) (h : line s = .ok (l, u)) : l.newline ≠ none := by
  intro hnone
  obtain ⟨first, more, -, hinline, htokens⟩ := line_reads h
  obtain ⟨last, hleft, -⟩ := hjoint.left
  rw [hnone, Option.toList_none, List.nil_append, Stream.tokens, Stream.tokens, hend] at htokens
  rw [Stream.tokens] at hleft
  have hall := (List.append_inj' (hleft.symm.trans htokens) rfl).1
  have hstructural := hinline (ts.getLast hts) (hall ▸ List.getLast_mem hts)
  rcases hjoint.closed _ (List.getLast?_eq_some_getLast hts) with hkind | hkind
  · rw [hkind] at hstructural
    cases hstructural
  · rw [hkind] at hstructural
    cases hstructural

theorem closes_line : Closes ρ b (Line.relabel ρ) line line where
  advances := yields_line.advances fun _ => List.cons_ne_nil _ _
  both := by
    intro ts s s' hts hlength hjoint l u hrun
    have hbreak := fun hend => newline_ne_none hts hjoint hend hrun
    rw [line_eq] at hrun ⊢
    obtain ⟨r, v, hr, hrest⟩ := bind_eq_ok.mp hrun
    obtain ⟨newline, w, hnewline, hspan⟩ := bind_eq_ok.mp hrest
    cases hspan
    -- a line that came to the end of the stream without its line break would have none
    have hopen : v.upcoming ≠ [] := by
      intro hend
      have hreaches := (alike_lineHead (ρ := ρ) (b := b)).left s
      rw [hr] at hreaches
      cases hreaches with
      | ok _ hv =>
        have hnone := lineBreak_of_endOfFile (hjoint.kind_of_ended hv hend) hnewline
        have hle := (alike_lineBreak (ρ := ρ) (b := b)).descends v newline u hnewline
        rw [hend] at hle
        exact hbreak (List.length_eq_zero_iff.mp (Nat.le_zero.mp hle)) hnone
    have hmeets := (alike_lineHead.leads).both ts s s' hts hlength hjoint r v hr
    refine (hmeets.resolve_left hopen).bind ?_
    intro m r' v' hview hm hv hv'
    have hdrop := hjoint.drop hm hv hv'
    have hne : ts.drop m ≠ [] := by
      rintro hnil
      rw [← List.length_eq_zero_iff, ← hdrop.length_eq, List.length_eq_zero_iff] at hnil
      exact hopen hnil
    rw [← List.length_drop]
    refine (meets_lineBreak hne hdrop hnewline).bind fun k newline' w' hviews _ hw hw' => ?_
    refine .refl ?_
    simp only [lineHeadView, Prod.mk.injEq] at hview
    simp only [Line.relabel, hview, hviews]

/-! ## Blocks and clauses -/

section Statement

variable {statement statement' : Parser Stmt}
  (hstatement : Closes ρ b (Stmt.relabel ρ) statement statement')

include hstatement

theorem closes_body : Closes ρ b (Body.relabel ρ) (body statement) (body statement') := by
  refine .bindPeek fun kind => .ite ?_ ?_
  · refine .bindStart fun n n' => Alike.eat.leads.bind fun typeComment typeComment' htype => ?_
    refine Alike.expect.leads.bind fun newline newline' hnewline => ?_
    refine .bindIsAt fun _ => .ite (Alike.bump.leads.bind fun indent indent' hindent => ?_) .fail
    refine (hstatement.leads_many _).bind fun statements statements' hall => ?_
    refine Closes.expect.bind fun dedent dedent' hdedent => .close fun _ _ => ?_
    simp only [Body.relabel, relabelStmts_eq, htype, hnewline, hindent, hall, hdedent]
  · refine closes_line.bind fun line line' hline => .pure ?_
    simp only [Body.relabel, hline]

theorem closes_blockClause :
    Closes ρ b (BlockClause.relabel ρ) (blockClause statement) (blockClause statement') := by
  refine .bindStart fun n n' => Alike.bump.leads.bind fun keyword keyword' hkeyword => ?_
  refine Alike.expect.leads.bind fun colon colon' hcolon => ?_
  refine (closes_body hstatement).bind fun body body' hbody => .close fun _ _ => ?_
  simp only [BlockClause.relabel, hkeyword, hcolon, hbody]

theorem joins_elseClause :
    Joins ρ b (Option.map (BlockClause.relabel ρ)) (elseClause statement)
      (elseClause statement') :=
  .optional rfl (closes_blockClause hstatement)

theorem closes_elifClause :
    Closes ρ b (ElifClause.relabel ρ) (elifClause statement) (elifClause statement') := by
  refine .bindStart fun n n' => Alike.bump.leads.bind fun keyword keyword' hkeyword => ?_
  refine alike_aNamedTest.leads.bind fun condition condition' hcondition => ?_
  refine Alike.expect.leads.bind fun colon colon' hcolon => ?_
  refine (closes_body hstatement).bind fun body body' hbody => .close fun _ _ => ?_
  simp only [ElifClause.relabel, hkeyword, hcondition, hcolon, hbody]

theorem closes_exceptClause :
    Closes ρ b (ExceptClause.relabel ρ) (exceptClause statement) (exceptClause statement') := by
  refine .bindStart fun n n' => Alike.bump.leads.bind fun keyword keyword' hkeyword => ?_
  refine (Alike.optional (rel_startedBy _ alike_caught)).leads.bind fun caught caught' hcaught => ?_
  refine Alike.expect.leads.bind fun colon colon' hcolon => ?_
  refine (closes_body hstatement).bind fun body body' hbody => .close fun _ _ => ?_
  simp only [ExceptClause.relabel, hkeyword, hcaught, hcolon, hbody]

/-! ## Compound statements -/

/-- A statement takes at least its keyword, so the statements inside it may close one token less
far. -/
abbrev ClosesStatement (ρ : Relabelling) (b : Nat) (p p' : Parser Stmt) : Prop :=
  Closes ρ (b + 1) (Stmt.relabel ρ) p p'

theorem closes_ifStatement :
    ClosesStatement ρ b (ifStatement statement) (ifStatement statement') := by
  refine .bindStart fun n n' => .bindBump fun ifToken ifToken' hif => ?_
  refine alike_aNamedTest.leads.bind fun condition condition' hcondition => ?_
  refine Alike.expect.leads.bind fun colon colon' hcolon => ?_
  refine (closes_body hstatement).bind fun body body' hbody => ?_
  refine (Joins.many rfl (closes_elifClause hstatement)).bind fun elifs elifs' helifs => ?_
  refine (joins_elseClause hstatement).bind fun orelse orelse' horelse => .close fun _ _ => ?_
  simp only [Stmt.relabel, relabelElifs_eq, relabelClause_eq, hif, hcondition, hcolon, hbody,
    helifs, horelse]

theorem closes_whileStatement :
    ClosesStatement ρ b (whileStatement statement) (whileStatement statement') := by
  refine .bindStart fun n n' => .bindBump fun whileToken whileToken' hwhile => ?_
  refine alike_aNamedTest.leads.bind fun condition condition' hcondition => ?_
  refine Alike.expect.leads.bind fun colon colon' hcolon => ?_
  refine (closes_body hstatement).bind fun body body' hbody => ?_
  refine (joins_elseClause hstatement).bind fun orelse orelse' horelse => .close fun _ _ => ?_
  simp only [Stmt.relabel, relabelClause_eq, hwhile, hcondition, hcolon, hbody, horelse]

theorem closes_forStatement {async async' : Option Token}
    (hasync : async.map ρ.token = async'.map ρ.token) :
    ClosesStatement ρ b (forStatement statement start async)
      (forStatement statement' start' async') := by
  refine .bindExpect fun forToken forToken' hfor => ?_
  refine alike_anExprList.leads.bind fun targets targets' htargets => ?_
  refine Alike.expect.leads.bind fun inToken inToken' hin => ?_
  refine alike_aTestList.leads.bind fun source source' hsource => ?_
  refine Alike.expect.leads.bind fun colon colon' hcolon => ?_
  refine (closes_body hstatement).bind fun body body' hbody => ?_
  refine (joins_elseClause hstatement).bind fun orelse orelse' horelse => .close fun _ _ => ?_
  simp only [Stmt.relabel, relabelClause_eq, hasync, hfor, htargets, hin, hsource, hcolon, hbody,
    horelse]

theorem closes_tryStatement :
    ClosesStatement ρ b (tryStatement statement) (tryStatement statement') := by
  refine .bindStart fun n n' => .bindBump fun tryToken tryToken' htry => ?_
  refine Alike.expect.leads.bind fun colon colon' hcolon => ?_
  refine (closes_body hstatement).bind fun body body' hbody => ?_
  refine (Joins.many rfl (closes_exceptClause hstatement)).bind ?_
  intro handlers handlers' hhandlers
  have hempty : handlers.isEmpty = handlers'.isEmpty := by
    rw [← List.isEmpty_map, hhandlers, List.isEmpty_map]
  rw [hempty]
  have hnone : Joins ρ b (Option.map (BlockClause.relabel ρ)) (pure none) (pure none) := .pure rfl
  refine .ite (hnone.bind ?rest) ((joins_elseClause hstatement).bind ?rest)
  intro orelse orelse' horelse
  refine (Joins.optional rfl (closes_blockClause hstatement)).bind ?_
  intro finalizer finalizer' hfinalizer
  have hnone : finalizer.isNone = finalizer'.isNone := by
    rw [← Option.isNone_map, hfinalizer, Option.isNone_map]
  rw [hnone]
  refine .ite .fail (.close fun _ _ => ?_)
  simp only [Stmt.relabel, relabelHandlers_eq, relabelClause_eq, htry, hcolon, hbody, hhandlers,
    horelse, hfinalizer]

theorem closes_withStatement {async async' : Option Token}
    (hasync : async.map ρ.token = async'.map ρ.token) :
    ClosesStatement ρ b (withStatement statement start async)
      (withStatement statement' start' async') := by
  refine .bindExpect fun withToken withToken' hwith => ?_
  refine (Alike.separated alike_withItem).leads.bind fun items items' hitems => ?_
  refine Alike.expect.leads.bind fun colon colon' hcolon => ?_
  refine (closes_body hstatement).bind fun body body' hbody => .close fun _ _ => ?_
  simp only [Stmt.relabel, hasync, hwith, hitems, hcolon, hbody]

theorem closes_funcDef {decorators decorators' : List Decorator} {async async' : Option Token}
    (hdecorators : decorators.map (Decorator.relabel ρ) = decorators'.map (Decorator.relabel ρ))
    (hasync : async.map ρ.token = async'.map ρ.token) :
    ClosesStatement ρ b (funcDef statement start decorators async)
      (funcDef statement' start' decorators' async') := by
  refine .bindExpect fun keyword keyword' hkeyword => ?_
  refine Alike.expect.leads.bind fun name name' hname => ?_
  refine Alike.expect.leads.bind fun opener opener' hopener => ?_
  have hparams : Alike ρ b (Params.relabel ρ) (withRules (params · true .rightParen))
      (withRules (params · true .rightParen)) :=
    alike_withRules fun hrules => (alike_params hrules true .rightParen).pred
  refine (Alike.optional (rel_startedBy _ hparams)).leads.bind fun params params' hparams => ?_
  refine Alike.expect.leads.bind fun closer closer' hcloser => ?_
  refine (Alike.optional (rel_startedBy _ (alike_introduced alike_aTest).pred)).leads.bind ?_
  intro returns returns' hreturns
  refine Alike.expect.leads.bind fun colon colon' hcolon => ?_
  refine (closes_body hstatement).bind fun body body' hbody => .close fun _ _ => ?_
  simp only [Stmt.relabel, relabelParamsOption_eq, hdecorators, hasync, hkeyword, hname, hopener,
    hparams, hcloser, hreturns, hcolon, hbody]

theorem closes_classDef {decorators decorators' : List Decorator}
    (hdecorators : decorators.map (Decorator.relabel ρ) = decorators'.map (Decorator.relabel ρ)) :
    ClosesStatement ρ b (classDef statement start decorators)
      (classDef statement' start' decorators') := by
  refine .bindExpect fun keyword keyword' hkeyword => ?_
  refine Alike.expect.leads.bind fun name name' hname => ?_
  refine (Alike.optional (rel_startedBy _ alike_classArguments)).leads.bind ?_
  intro arguments arguments' harguments
  refine Alike.expect.leads.bind fun colon colon' hcolon => ?_
  refine (closes_body hstatement).bind fun body body' hbody => .close fun _ _ => ?_
  simp only [Stmt.relabel, hdecorators, hkeyword, hname, harguments, hcolon, hbody]

theorem closes_asyncStatement :
    ClosesStatement ρ b (asyncStatement statement) (asyncStatement statement') := by
  refine .bindStart fun n n' => .bindBump fun async async' htoken => ?_
  have hasync : (some async).map ρ.token = (some async').map ρ.token := congrArg some htoken
  refine .bindPeek fun kind => ?_
  split
  · exact (closes_funcDef hstatement rfl hasync).mono (Nat.le_succ b)
  · exact (closes_forStatement hstatement hasync).mono (Nat.le_succ b)
  · exact (closes_withStatement hstatement hasync).mono (Nat.le_succ b)
  · exact .fail

theorem closes_decorated :
    ClosesStatement ρ b (decorated statement) (decorated statement') := by
  refine .bindStart fun n n' => ?_
  refine (Alike.many (rel_startedBy _ alike_decorator)).leads.bind ?_
  intro decorators decorators' hdecorators
  refine .bindPeek fun kind => ?_
  split
  · exact closes_funcDef hstatement hdecorators rfl
  · exact closes_classDef hstatement hdecorators
  · refine .bindBump fun async async' htoken => .bindIsAt fun _ => .ite ?_ .fail
    have hasync : (some async).map ρ.token = (some async').map ρ.token := congrArg some htoken
    exact (closes_funcDef hstatement hdecorators hasync).mono (Nat.le_succ b)
  · exact .fail

theorem closes_statementBody :
    ClosesStatement ρ b (statementBody statement) (statementBody statement') := by
  refine .bindPeek fun kind => ?_
  split
  · exact closes_ifStatement hstatement
  · exact closes_whileStatement hstatement
  · exact .bindStart fun _ _ => closes_forStatement hstatement rfl
  · exact closes_tryStatement hstatement
  · exact .bindStart fun _ _ => closes_withStatement hstatement rfl
  · exact .bindStart fun _ _ => closes_funcDef hstatement rfl rfl
  · exact .bindStart fun _ _ => closes_classDef hstatement rfl
  · exact closes_decorated hstatement
  · exact closes_asyncStatement hstatement
  · exact .fail
  · refine closes_line.bind fun line line' hline => .pure ?_
    simp only [Stmt.relabel, hline]

end Statement

/-! ## Tying the knot -/

theorem closes_statementUpTo (b n m : Nat) (hn : b ≤ n) (hm : b ≤ m) :
    Closes ρ b (Stmt.relabel ρ) (statementUpTo n) (statementUpTo m) := by
  induction b generalizing n m with
  | zero =>
    refine ⟨(yields_statementUpTo n).advances fun _ => List.cons_ne_nil _ _, ?_⟩
    intro ts s s' hts hlength
    exact absurd (List.length_eq_zero_iff.mp (Nat.le_zero.mp hlength)) hts
  | succ b ih =>
    obtain ⟨n, rfl⟩ := Nat.exists_eq_add_of_le' hn
    obtain ⟨m, rfl⟩ := Nat.exists_eq_add_of_le' hm
    exact closes_statementBody (ih (n + b) (m + b) (Nat.le_add_left b n) (Nat.le_add_left b m))

theorem closes_statement : Closes ρ b (Stmt.relabel ρ) statement statement where
  advances := yields_statement.advances fun _ => List.cons_ne_nil _ _
  both := by
    intro ts s s' hts _ hjoint
    have hleft := hjoint.length_eq
    have hright := hjoint.length_le
    exact (closes_statementUpTo ts.length _ _ (by omega) (by omega)).both ts s s' hts
      (Nat.le_refl _) hjoint

end Verbatim.Grammar
