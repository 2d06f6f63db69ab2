import Verbatim.Parse
import Verbatim.Proofs.Grammar.Returns
import Verbatim.Proofs.Grammar.Root
import Verbatim.Proofs.Grammar.Starts
import Verbatim.Proofs.Grammar.Succeeds

/-!
# Expressions as statements

A source that is a list of expressions is also a module with one line, which holds these
expressions and nothing else, and the other way round. The statement grammar reaches them through
lists that may have starred elements, and before and after them it looks for all that else a
statement could be.
-/

namespace Verbatim

open Verbatim.Parser Verbatim.Grammar

namespace Expr

def isStar : Expr → Bool
  | unary _ .star _ _ => true
  | _ => false

def isYield : Expr → Bool
  | .yield _ _ _ | .yieldFrom _ _ _ _ => true
  | _ => false

end Expr

namespace Value

/-- A list of expressions as a statement keeps it. -/
def ofExpr : Expr → Value
  | .sequence span .testList items trailing => .list span items trailing
  | e => .single e

def toExpr : Value → Expr
  | single e => e
  | list span items trailing => .sequence span .testList items trailing

theorem toExpr_ofExpr (e : Expr) : (ofExpr e).toExpr = e := by
  unfold ofExpr
  split <;> rfl

/-- What could stand alone as a source: no yield and no starred expression, alone or in a list. -/
def IsPlain : Value → Prop
  | single e => e.isYield = false ∧ e.isStar = false
  | list _ items _ => ∀ e ∈ items.items, e.isStar = false

instance (value : Value) : Decidable value.IsPlain :=
  match value with
  | single e => inferInstanceAs (Decidable (e.isYield = false ∧ e.isStar = false))
  | list _ items _ => inferInstanceAs (Decidable (∀ e ∈ items.items, e.isStar = false))

end Value

/-! ## Lists with and without starred elements -/

section CommaList

variable {α : Type} {P : α → Prop} {p q : Parser α} {s u : Stream}

/-- The second parser gives the same wherever the first one gives something with a property. -/
def Parser.GivesOn (P : α → Prop) (p q : Parser α) : Prop :=
  ∀ ⦃s a u⦄, p s = .ok (a, u) → P a → q s = .ok (a, u)

theorem mem_items_of_separatedUpTo {separator : TokenKind} {more : α → Parser Bool} {n : Nat}
    {first : α} {r : Separated α × Option Token}
    (h : separatedUpTo separator more p n first s = .ok (r, u)) : first ∈ r.1.items := by
  have hleaves : Returns (separatedUpTo separator more p n first) s fun r => first ∈ r.1.items := by
    cases n with
    | zero => exact .pure List.mem_cons_self
    | succ n =>
      refine .isAt (fun _ => .bump fun v => .skip fun goesOn w => .ite (fun _ => ?_) fun _ => ?_)
        fun _ => .pure List.mem_cons_self
      · exact .skip fun next x => .skip fun rest y => .pure List.mem_cons_self
      · exact .pure List.mem_cons_self
  exact hleaves r u h

theorem separatedUpTo_givesOn {separator : TokenKind} {more : α → Parser Bool}
    (h : GivesOn P p q) (n : Nat) {first : α} {r : Separated α × Option Token}
    (hp : separatedUpTo separator more p n first s = .ok (r, u))
    (hr : ∀ a ∈ r.1.items, P a) : separatedUpTo separator more q n first s = .ok (r, u) := by
  induction n generalizing first s r with
  | zero => exact hp
  | succ n ih =>
    obtain ⟨b, v, hb, hp⟩ := bind_eq_ok.mp hp
    refine bind_eq_ok.mpr ⟨b, v, hb, ?_⟩
    split at hp
    · next hsep =>
      rw [if_pos hsep]
      obtain ⟨token, w, htoken, hp⟩ := bind_eq_ok.mp hp
      obtain ⟨goesOn, x, hmore, hp⟩ := bind_eq_ok.mp hp
      refine bind_eq_ok.mpr ⟨token, w, htoken, bind_eq_ok.mpr ⟨goesOn, x, hmore, ?_⟩⟩
      split at hp
      · next hgoes =>
        rw [if_pos hgoes]
        obtain ⟨next, y, hnext, hp⟩ := bind_eq_ok.mp hp
        obtain ⟨rest, z, hrest, hp⟩ := bind_eq_ok.mp hp
        cases pure_eq_ok.mp hp
        have htail := (List.forall_mem_cons.mp hr).2
        have hq := h hnext (htail next (mem_items_of_separatedUpTo hrest))
        exact bind_eq_ok.mpr ⟨next, y, hq, bind_eq_ok.mpr ⟨rest, _, ih hrest htail, rfl⟩⟩
      · next hgoes =>
        rw [if_neg hgoes]
        exact hp
    · next hsep =>
      rw [if_neg hsep]
      exact hp

/-- The elements of a list of expressions; another expression stands for itself. -/
def Expr.elements : Expr → List Expr
  | .sequence _ .testList items _ => items.items
  | e => [e]

theorem commaList_givesOn {P : Expr → Prop} {p q : Parser Expr} {continues : TokenKind → Bool}
    (h : GivesOn P p q) :
    GivesOn (fun e => P e ∧ ∀ a ∈ e.elements, P a) (commaList .testList continues p)
      (commaList .testList continues q) := by
  intro s e u hp hP
  obtain ⟨start, v, hstart, hp⟩ := bind_eq_ok.mp hp
  obtain ⟨first, w, hfirst, hp⟩ := bind_eq_ok.mp hp
  obtain ⟨r, x, hr, hp⟩ := bind_eq_ok.mp hp
  have hall : ∀ a ∈ r.1.items, P a := by
    split at hp
    · cases pure_eq_ok.mp hp
      simpa using hP.1
    · obtain ⟨span, y, hspan, hp⟩ := bind_eq_ok.mp hp
      cases pure_eq_ok.mp hp
      exact hP.2
  have hq := h hfirst (hall first (mem_items_of_separatedUpTo hr))
  exact bind_eq_ok.mpr ⟨start, v, hstart, bind_eq_ok.mpr ⟨first, w, hq,
    bind_eq_ok.mpr ⟨r, x, separatedUpTo_givesOn h _ hr hall, hp⟩⟩⟩

end CommaList

/-! ## Values -/

section Values

variable {s u : Stream} {e : Expr} {value : Value}

theorem testOrStar_givesOn (rules : Rules) :
    GivesOn (·.isStar = false) (testOrStar rules) (rules .test) := by
  intro s e u h hstar
  obtain ⟨b, v, hb, h⟩ := bind_eq_ok.mp h
  cases hb
  split at h
  · have hunary : Returns (starExpr rules) s (·.isStar = true) :=
      .start fun n => .bump fun v => .skip fun operand w => .spanFrom fun span => .pure rfl
    rw [hunary e u h] at hstar
    cases hstar
  · exact h

/-- A test does not begin with a star, so it is an element of a list that may have stars. -/
theorem test_givesOn (n : Nat) :
    GivesOn (fun _ => True) (rulesUpTo n .test) (testOrStar (rulesUpTo n)) := by
  intro s e u h _
  have hne : s.current.kind ≠ .star := by
    intro hstar
    have hrefused := refuses_rulesUpTo_test n s (by rw [hstar]; rfl)
    cases hrefused.symm.trans h
  show (if (s.current.kind == .star) = true then _ else rulesUpTo n .test) s = _
  rw [if_neg (by simpa using hne)]
  exact h

theorem listValue_eq : listValue = (do return Value.ofExpr (← withRules testOrStarList)) := by
  unfold listValue
  congr
  funext e
  cases e with
  | sequence span kind items trailing => cases kind <;> rfl
  | _ => rfl

theorem listValue_of_aTestList (h : aTestList s = .ok (e, u)) :
    listValue s = .ok (Value.ofExpr e, u) := by
  have hlist : withRules testOrStarList s = .ok (e, u) :=
    commaList_givesOn (test_givesOn _) h ⟨trivial, fun _ _ => trivial⟩
  rw [listValue_eq]
  exact bind_eq_ok.mpr ⟨e, u, hlist, rfl⟩

theorem isPlain_ofExpr (h : (Value.ofExpr e).IsPlain) :
    e.isStar = false ∧ ∀ a ∈ e.elements, a.isStar = false := by
  unfold Value.ofExpr at h
  unfold Expr.elements
  split at h
  · exact ⟨rfl, h⟩
  · exact ⟨h.2, List.forall_mem_singleton.mpr h.2⟩

theorem aTestList_of_listValue (h : listValue s = .ok (value, u)) (hplain : value.IsPlain) :
    aTestList s = .ok (value.toExpr, u) := by
  rw [listValue_eq] at h
  obtain ⟨e, v, hlist, h⟩ := bind_eq_ok.mp h
  cases pure_eq_ok.mp h
  rw [Value.toExpr_ofExpr]
  exact commaList_givesOn (testOrStar_givesOn _) hlist (isPlain_ofExpr hplain)

end Values

/-! ## What is no expression -/

section Sorts

variable {statement : Parser Stmt} {s : Stream} {n : Nat} {decorators : List Decorator}
  {async : Option Token}

theorem compound_ifStatement : Returns (ifStatement statement) s (·.isCompound = true) :=
  .skip fun _ _ => .skip fun _ _ => .skip fun _ _ => .skip fun _ _ => .skip fun _ _ =>
    .skip fun _ _ => .skip fun _ _ => .spanFrom fun _ => .pure rfl

theorem compound_whileStatement : Returns (whileStatement statement) s (·.isCompound = true) :=
  .skip fun _ _ => .skip fun _ _ => .skip fun _ _ => .skip fun _ _ => .skip fun _ _ =>
    .skip fun _ _ => .spanFrom fun _ => .pure rfl

theorem compound_forStatement : Returns (forStatement statement n async) s (·.isCompound = true) :=
  .skip fun _ _ => .skip fun _ _ => .skip fun _ _ => .skip fun _ _ => .skip fun _ _ =>
    .skip fun _ _ => .skip fun _ _ => .spanFrom fun _ => .pure rfl

theorem compound_tryStatement : Returns (tryStatement statement) s (·.isCompound = true) := by
  refine .skip fun _ _ => .skip fun _ _ => .skip fun _ _ => .skip fun _ _ => .skip fun _ _ =>
    .ite (fun _ => ?_) fun _ => ?_
  all_goals
    exact .skip fun _ _ => .skip fun _ _ => .ite (fun _ => .fail) fun _ =>
      .spanFrom fun _ => .pure rfl

theorem compound_withStatement :
    Returns (withStatement statement n async) s (·.isCompound = true) :=
  .skip fun _ _ => .skip fun _ _ => .skip fun _ _ => .skip fun _ _ => .spanFrom fun _ => .pure rfl

theorem compound_funcDef :
    Returns (funcDef statement n decorators async) s (·.isCompound = true) :=
  .skip fun _ _ => .skip fun _ _ => .skip fun _ _ => .skip fun _ _ => .skip fun _ _ =>
    .skip fun _ _ => .skip fun _ _ => .skip fun _ _ => .spanFrom fun _ => .pure rfl

theorem compound_classDef : Returns (classDef statement n decorators) s (·.isCompound = true) :=
  .skip fun _ _ => .skip fun _ _ => .skip fun _ _ => .skip fun _ _ => .skip fun _ _ =>
    .spanFrom fun _ => .pure rfl

theorem compound_asyncStatement : Returns (asyncStatement statement) s (·.isCompound = true) := by
  refine .skip fun start u => .skip fun async v => .peek ?_
  split
  · exact compound_funcDef
  · exact compound_forStatement
  · exact compound_withStatement
  · exact .fail

theorem compound_decorated : Returns (decorated statement) s (·.isCompound = true) := by
  refine .skip fun start u => .skip fun decorators v => .peek ?_
  split
  · exact compound_funcDef
  · exact compound_classDef
  · exact .skip fun async w => .isAt (fun _ => compound_funcDef) fun _ => .fail
  · exact .fail

/-- What is no compound statement has been parsed as a line. -/
theorem line_of_statementBody : Leaves (statementBody statement) s fun a u =>
    ∀ l, a = .line l → line s = .ok (l, u) := by
  have hnone {p : Parser Stmt} (hp : Returns p s (·.isCompound = true)) :
      Leaves p s fun a u => ∀ l, a = .line l → line s = .ok (l, u) := by
    refine Leaves.mono hp fun a u ha l hl => ?_
    rw [hl] at ha
    cases ha
  refine .peek ?_
  split
  · exact hnone compound_ifStatement
  · exact hnone compound_whileStatement
  · exact hnone (.start fun _ => compound_forStatement)
  · exact hnone compound_tryStatement
  · exact hnone (.start fun _ => compound_withStatement)
  · exact hnone (.start fun _ => compound_funcDef)
  · exact hnone (.start fun _ => compound_classDef)
  · exact hnone compound_decorated
  · exact hnone compound_asyncStatement
  · exact .fail
  · refine .bind (M := fun l u => line s = .ok (l, u)) (fun _ _ hl => hl) fun l u hl => .pure ?_
    rintro _ ⟨⟩
    exact hl

/-- The statement is an expression or a list of expressions, and no assignment. -/
def Small.isValue : Small → Bool
  | .value _ => true
  | _ => false

theorem notValue {p : Parser Small} {P : Value → Stream → Prop}
    (h : Returns p s (·.isValue = false)) :
    Leaves p s fun a u => ∀ value, a = .value value → P value u := by
  refine Leaves.mono h fun a u ha value hvalue => ?_
  rw [hvalue] at ha
  cases ha

/-- What is a value alone has been parsed as one. -/
theorem value_of_expressionStatement : Leaves expressionStatement s fun a u =>
    ∀ value, a = .value value → assignedValue s = .ok (value, u) := by
  refine .start fun n => .bind (M := fun value u => assignedValue s = .ok (value, u))
    (fun _ _ h => h) fun first v hfirst => .peek ?_
  refine .ite (fun _ => notValue ?_) fun _ => .ite (fun _ => notValue ?_) fun _ =>
    .ite (fun _ => notValue ?_) fun _ => .pure ?_
  · exact .skip fun _ _ => .skip fun _ _ => .skip fun _ _ => .skip fun _ _ =>
      .spanFrom fun _ => .pure rfl
  · refine .skip fun _ _ => .skip fun _ _ => .skip fun _ _ => .ite (fun _ => ?_) fun _ => ?_
    · exact .skip fun _ _ => .spanFrom fun _ => .pure rfl
    · exact .skip fun _ _ => .spanFrom fun _ => .pure rfl
  · exact .skip fun _ _ => .skip fun _ _ => .spanFrom fun _ => .pure rfl
  · rintro _ ⟨⟩
    exact hfirst

theorem notValue_simpleKeyword (kind : SimpleKeyword) :
    Returns (simpleKeyword kind) s (·.isValue = false) :=
  .skip fun _ _ => .pure rfl

theorem notValue_returnStatement : Returns returnStatement s (·.isValue = false) :=
  .skip fun _ _ => .skip fun _ _ => .skip fun _ _ => .spanFrom fun _ => .pure rfl

theorem notValue_raiseStatement : Returns raiseStatement s (·.isValue = false) :=
  .skip fun _ _ => .skip fun _ _ => .skip fun _ _ => .spanFrom fun _ => .pure rfl

theorem notValue_delStatement : Returns delStatement s (·.isValue = false) :=
  .skip fun _ _ => .skip fun _ _ => .skip fun _ _ => .spanFrom fun _ => .pure rfl

theorem notValue_scopeStatement (kind : ScopeKind) :
    Returns (scopeStatement kind) s (·.isValue = false) :=
  .skip fun _ _ => .skip fun _ _ => .skip fun _ _ => .spanFrom fun _ => .pure rfl

theorem notValue_assertStatement : Returns assertStatement s (·.isValue = false) :=
  .skip fun _ _ => .skip fun _ _ => .skip fun _ _ => .skip fun _ _ =>
    .spanFrom fun _ => .pure rfl

theorem notValue_importStatement : Returns importStatement s (·.isValue = false) :=
  .skip fun _ _ => .skip fun _ _ => .skip fun _ _ => .spanFrom fun _ => .pure rfl

theorem notValue_importFromStatement : Returns importFromStatement s (·.isValue = false) :=
  .skip fun _ _ => .skip fun _ _ => .skip fun _ _ => .skip fun _ _ => .skip fun _ _ =>
    .skip fun _ _ => .spanFrom fun _ => .pure rfl

theorem value_of_small : Leaves small s fun a u =>
    ∀ value, a = .value value → assignedValue s = .ok (value, u) := by
  refine .peek ?_
  split
  · exact notValue (notValue_simpleKeyword .pass)
  · exact notValue (notValue_simpleKeyword .break)
  · exact notValue (notValue_simpleKeyword .continue)
  · exact notValue notValue_returnStatement
  · exact notValue notValue_raiseStatement
  · exact notValue notValue_delStatement
  · exact notValue (notValue_scopeStatement .global)
  · exact notValue (notValue_scopeStatement .nonlocal)
  · exact notValue notValue_assertStatement
  · exact notValue notValue_importStatement
  · exact notValue notValue_importFromStatement
  · exact value_of_expressionStatement

end Sorts

/-! ## Lines of one value -/

/-- The line holds a value and its line break, and nothing else. -/
structure Line.Holds (line : Line) (value : Value) : Prop where
  statements : line.statements = .one (.value value)
  trailing : line.trailing = none
  typeComment : line.typeComment = none

section Lines

variable {s u v : Stream} {value : Value} {l : Line}

theorem isYield_yieldExpr (rules : Rules) : Returns (yieldExpr rules) s (·.isYield = true) := by
  refine .skip fun n u => .skip fun keyword v => .skip fun fromToken w => ?_
  split
  · exact .skip fun value x => .spanFrom fun span => .pure rfl
  · exact .skip fun value x => .spanFrom fun span => .pure rfl

theorem listValue_of_assignedValue (h : assignedValue s = .ok (value, u))
    (hplain : value.IsPlain) : listValue s = .ok (value, u) := by
  obtain ⟨b, w, hb, h⟩ := bind_eq_ok.mp h
  cases hb
  split at h
  · obtain ⟨e, w, he, h⟩ := bind_eq_ok.mp h
    cases pure_eq_ok.mp h
    have hyield : e.isYield = true := isYield_yieldExpr _ e u he
    rw [hplain.1] at hyield
    cases hyield
  · exact h

/-- A single item without a separator leaves the stream as it is. -/
theorem separatedFrom_one {α : Type} {separator : TokenKind} {more : α → Parser Bool}
    {item : Parser α} {first : α} : Leaves (separatedFrom separator more item first) s fun r u =>
      ∀ a, r = (.one a, none) → a = first ∧ u = s := by
  have hone : Leaves (separatedUpTo separator more item (s.upcoming.length + 1) first) s
      fun r u => ∀ a, r = (.one a, none) → a = first ∧ u = s := by
    refine .isAt (fun _ => .skip fun t v => .skip fun goesOn w => .ite (fun _ => ?_) fun _ => ?_)
      fun _ => .pure ?_
    · exact .skip fun next x => .skip fun rest y => .pure (by simp)
    · exact .pure (by simp)
    · rintro a ⟨⟩
      exact ⟨rfl, rfl⟩
  exact fun r u h => hone r u h

theorem eat_none {kind : TokenKind} : Leaves (eat kind) s fun o u => o = none → u = s :=
  .isAt (fun _ => .skip fun t u => .pure (by simp)) fun _ => .pure fun _ => rfl

theorem parts_of_line (h : Grammar.line s = .ok (l, v)) (hholds : l.Holds value) :
    ∃ u, small s = .ok (.value value, u) ∧ lineBreak u = .ok (l.newline, v) := by
  obtain ⟨n, u, hn, h⟩ := bind_eq_ok.mp h
  cases hn
  obtain ⟨first, u, hfirst, h⟩ := bind_eq_ok.mp h
  obtain ⟨r, w, hr, h⟩ := bind_eq_ok.mp h
  obtain ⟨typeComment, x, htype, h⟩ := bind_eq_ok.mp h
  obtain ⟨newline, y, hnewline, h⟩ := bind_eq_ok.mp h
  obtain ⟨span, z, hspan, h⟩ := bind_eq_ok.mp h
  cases hspan
  cases pure_eq_ok.mp h
  obtain ⟨hvalue, rfl⟩ := separatedFrom_one r w hr _ (Prod.ext hholds.statements hholds.trailing)
  obtain rfl := eat_none _ x htype hholds.typeComment
  rw [hvalue]
  exact ⟨_, hfirst, hnewline⟩

theorem small_of_listValue (hstarts : s.current.kind.startsTest = true)
    (h : listValue s = .ok (value, u))
    (hend : u.current.kind = .newline ∨ u.current.kind = .endOfFile) :
    small s = .ok (.value value, u) := by
  have hends : u.current.kind ≠ .colon ∧ ¬ u.current.kind.isAugmentedAssign = true ∧
      u.current.kind ≠ .equal := by
    rcases hend with hend | hend <;> rw [hend] <;> decide
  have hassigned : Succeeds assignedValue s fun a v => a = value ∧ v = u := by
    refine .ifNotAt ?_ ⟨value, u, h, rfl, rfl⟩
    intro hyield
    rw [hyield] at hstarts
    cases hstarts
  refine Succeeds.eq_ok (.peek ?_)
  split
  case h_12 =>
    refine .start (hassigned.bind ?_)
    rintro _ _ ⟨rfl, rfl⟩
    refine .peek ?_
    rw [if_neg hends.1, if_neg hends.2.1, if_neg hends.2.2]
    exact .pure ⟨rfl, rfl⟩
  all_goals
    next hkind =>
      rw [hkind] at hstarts
      cases hstarts

theorem succeeds_line {newline : Option Token} (h : small s = .ok (.value value, u))
    (hend : u.current.kind = .newline ∨ u.current.kind = .endOfFile)
    (hbreak : lineBreak u = .ok (newline, v)) :
    Succeeds Grammar.line s fun l w => l.Holds value ∧ l.newline = newline ∧ w = v := by
  have hends : u.current.kind ≠ .semicolon ∧ u.current.kind ≠ .typeComment := by
    rcases hend with hend | hend <;> rw [hend] <;> decide
  refine .start (.of_eq h (.separatedFromNone hends.1 (.eatNone hends.2 (.of_eq hbreak ?_))))
  exact .spanFrom fun span => .pure ⟨⟨rfl, rfl, rfl⟩, rfl, rfl⟩

theorem succeeds_statement {P : Line → Stream → Prop} (hstarts : s.current.kind.startsTest = true)
    (h : Succeeds Grammar.line s P) :
    Succeeds statement s fun a u => ∃ l, a = .line l ∧ P l u := by
  have hbody : Succeeds (statementBody (statementUpTo s.upcoming.length)) s
      fun a u => ∃ l, a = .line l ∧ P l u := by
    refine .peek ?_
    split
    case h_11 => exact h.bind fun l u hl => .pure ⟨l, rfl, hl⟩
    all_goals
      next hkind =>
        rw [hkind] at hstarts
        cases hstarts
  obtain ⟨a, u, hbody, hP⟩ := hbody
  exact ⟨a, u, by rw [statement, statementUpTo]; exact hbody, hP⟩

end Lines

/-! ## Line breaks at the end -/

section Newlines

variable {α : Type} {choice : Choice α} {s u v : Stream} {ts : List Token} {newline : Option Token}

theorem repeatUpTo_nil (n : Nat) :
    Leaves (repeatUpTo choice n) s fun as u => as = [] → u = s := by
  cases n with
  | zero => exact .pure fun _ => rfl
  | succ n =>
    refine .peek ?_
    split
    · exact .skip fun first v => .skip fun more w => .pure (by simp)
    · exact .pure fun _ => rfl

/-- A loop with one turn. -/
theorem many_of_part {part : Parser α} {a : α} (hchoice : choice s.current.kind = some part)
    (hpart : part s = .ok (a, u)) (hstop : choice u.current.kind = none) :
    many choice s = .ok ([a], u) := by
  show repeatUpTo choice (s.upcoming.length + 1) s = .ok ([a], u)
  refine Succeeds.eq_ok (.peek ?_)
  rw [hchoice]
  exact .of_eq hpart (.of_eq (repeatUpTo_stop hstop _) (.pure ⟨rfl, rfl⟩))

theorem part_of_many {a : α} (h : many choice s = .ok ([a], u)) :
    ∃ part, choice s.current.kind = some part ∧ part s = .ok (a, u) := by
  have hpart : Leaves (repeatUpTo choice (s.upcoming.length + 1)) s fun as u => as = [a] →
      ∃ part, choice s.current.kind = some part ∧ part s = .ok (a, u) := by
    refine .peek ?_
    split
    · next part hchoice =>
      refine .bind (M := fun b v => part s = .ok (b, v)) (fun _ _ h => h) fun first v hfirst => ?_
      refine .bind (repeatUpTo_nil _) fun more w hmore => .pure ?_
      rintro ⟨⟩
      obtain rfl := hmore rfl
      exact ⟨part, hchoice, hfirst⟩
    · exact .pure (by simp)
  exact hpart _ u h rfl

theorem lineBreak_at_end (hend : u.current.kind = .endOfFile) : lineBreak u = .ok (none, u) := by
  refine Succeeds.eq_ok (.peek ?_)
  rw [hend]
  exact .pure ⟨rfl, rfl⟩

theorem lineBreak_at_newline {t : Token} (hkind : u.current.kind = .newline)
    (hbump : bump u = .ok (t, v)) : lineBreak u = .ok (some t, v) := by
  refine Succeeds.eq_ok (.peek ?_)
  rw [hkind]
  exact .of_eq hbump (.pure ⟨rfl, rfl⟩)

theorem lineBreak_none : Leaves lineBreak u fun o v => o = none → v = u := by
  refine .peek ?_
  split
  · exact .skip fun t v => .pure (by simp)
  · exact .pure fun _ => rfl
  · exact .pure fun _ => rfl
  · exact .fail

theorem lineBreak_some : Leaves lineBreak u fun o v => ∀ t, o = some t →
    u.current.kind = .newline ∧ bump u = .ok (t, v) := by
  refine .peek ?_
  split
  · next hkind =>
    refine .bind (M := fun t v => bump u = .ok (t, v)) (fun _ _ h => h) fun t v ht => .pure ?_
    rintro _ ⟨⟩
    exact ⟨hkind, ht⟩
  · exact .pure (by simp)
  · exact .pure (by simp)
  · exact .fail

/-- At the end of a source the line break of a line is all that an expression can be followed by. -/
theorem newlines_eq_ok_iff (hend : v.current.kind = .endOfFile) :
    newlines u = .ok (newline.toList, v) ↔ lineBreak u = .ok (newline, v) := by
  have hstop : Choice.onKind .newline bump v.current.kind = none := by
    rw [hend]
    rfl
  cases newline with
  | none =>
    constructor
    · intro h
      obtain rfl : v = u := repeatUpTo_nil _ _ v h rfl
      exact lineBreak_at_end hend
    · intro h
      obtain rfl := lineBreak_none _ v h rfl
      exact repeatUpTo_stop hstop _
  | some t =>
    constructor
    · intro h
      obtain ⟨part, hchoice, hpart⟩ := part_of_many h
      unfold Choice.onKind Choice.startedBy at hchoice
      split at hchoice
      · next hkind =>
        cases hchoice
        exact lineBreak_at_newline (beq_iff_eq.mp hkind) hpart
      · cases hchoice
    · intro h
      obtain ⟨hkind, hbump⟩ := lineBreak_some _ v h t rfl
      exact many_of_part (if_pos (by simpa using hkind)) hbump hstop

end Newlines

/-! ## Roots -/

section Roots

variable {s u : Stream} {expression : ExpressionTree} {module : ModuleTree} {l : Line}
  {value : Value}

theorem refuses_aTestList : Refuses aTestList := by
  intro s hs
  have hlist : Refuses (testList (rulesUpTo (s.upcoming.length + 1))) :=
    .start fun n => .bind (refuses_rulesUpTo_test _) _
  exact hlist s hs

theorem startsTest_of_aTestList {e : Expr} (h : aTestList s = .ok (e, u)) :
    s.current.kind.startsTest = true := by
  cases hkind : s.current.kind.startsTest with
  | true => rfl
  | false => cases (refuses_aTestList s hkind).symm.trans h

theorem atEnd_of_lineBreak {v : Stream} {newline : Option Token}
    (h : lineBreak u = .ok (newline, v)) (hend : v.current.kind = .endOfFile) :
    u.current.kind = .newline ∨ u.current.kind = .endOfFile := by
  have hkinds : Leaves lineBreak u fun _ v =>
      v.current.kind = .endOfFile → u.current.kind = .newline ∨ u.current.kind = .endOfFile := by
    refine .peek ?_
    split
    · next hkind => exact .skip fun t v => .pure fun _ => .inl hkind
    · next hkind => exact .pure fun _ => .inr hkind
    · exact .pure fun hend => .inr hend
    · exact .fail
  exact hkinds newline v h hend

theorem moduleRoot_of_expressionRoot (h : expressionRoot s = .ok (expression, u))
    (hone : expression.newlines.length ≤ 1) :
    ∃ l, moduleRoot s = .ok (⟨expression.span, [.line l], expression.endOfFile⟩, u) ∧
      l.Holds (.ofExpr expression.body) ∧ l.newline = expression.newlines.head? := by
  obtain ⟨n, v, hn, h⟩ := bind_eq_ok.mp h
  cases hn
  obtain ⟨e, v, he, h⟩ := bind_eq_ok.mp h
  obtain ⟨ts, w, hts, h⟩ := bind_eq_ok.mp h
  obtain ⟨last, x, hlast, h⟩ := bind_eq_ok.mp h
  obtain ⟨span, y, hspan, h⟩ := bind_eq_ok.mp h
  cases hspan
  cases pure_eq_ok.mp h
  have hend : w.current.kind = .endOfFile := by
    obtain ⟨rfl, hkind, -⟩ := endOfFile_eq_ok hlast
    exact hkind
  have hlist : ts = ts.head?.toList := by
    match ts, hone with
    | [], _ => rfl
    | [t], _ => rfl
  rw [hlist, newlines_eq_ok_iff hend] at hts
  have hstarts := startsTest_of_aTestList he
  have hatEnd := atEnd_of_lineBreak hts hend
  have hsmall := small_of_listValue hstarts (listValue_of_aTestList he) hatEnd
  obtain ⟨a, w', hstatement, l, rfl, hholds, hnewline, rfl⟩ :=
    succeeds_statement hstarts (succeeds_line hsmall hatEnd hts)
  have hchoice : Choice.startedBy (· != .endOfFile) statement s.current.kind = some statement := by
    refine if_pos (bne_iff_ne.mpr fun hkind => ?_)
    rw [hkind] at hstarts
    cases hstarts
  have hmany := many_of_part hchoice hstatement (by rw [hend]; rfl)
  have hroot : moduleRoot s =
      .ok (⟨Span.upTo s.current.span.start u.lastEnd, [.line l], last⟩, u) :=
    Succeeds.eq_ok (.start (.of_eq hmany (.of_eq hlast ⟨_, _, rfl, rfl, rfl⟩)))
  exact ⟨l, hroot, hholds, hnewline⟩

theorem expressionRoot_of_moduleRoot (h : moduleRoot s = .ok (module, u))
    (hstatements : module.statements = [.line l]) (hholds : l.Holds value)
    (hplain : value.IsPlain) :
    expressionRoot s =
      .ok (⟨module.span, value.toExpr, l.newline.toList, module.endOfFile⟩, u) := by
  obtain ⟨n, v, hn, h⟩ := bind_eq_ok.mp h
  cases hn
  obtain ⟨statements, w, hmany, h⟩ := bind_eq_ok.mp h
  obtain ⟨last, x, hlast, h⟩ := bind_eq_ok.mp h
  obtain ⟨span, y, hspan, h⟩ := bind_eq_ok.mp h
  cases hspan
  cases pure_eq_ok.mp h
  obtain rfl := hstatements
  obtain ⟨part, hchoice, hpart⟩ := part_of_many hmany
  have hstatement : statement s = .ok (.line l, w) := by
    unfold Choice.startedBy at hchoice
    split at hchoice
    · cases hchoice
      exact hpart
    · cases hchoice
  rw [statement, statementUpTo] at hstatement
  obtain ⟨v, hsmall, hbreak⟩ := parts_of_line (line_of_statementBody _ w hstatement l rfl) hholds
  have hvalue := listValue_of_assignedValue (value_of_small _ v hsmall value rfl) hplain
  have hend : w.current.kind = .endOfFile := by
    obtain ⟨rfl, hkind, -⟩ := endOfFile_eq_ok hlast
    exact hkind
  have hnewlines := (newlines_eq_ok_iff hend).mpr hbreak
  exact Succeeds.eq_ok (.start (.of_eq (aTestList_of_listValue hvalue hplain)
    (.of_eq hnewlines (.of_eq hlast ⟨_, _, rfl, rfl, rfl⟩))))

end Roots

variable {options : Options} {t : Text}

theorem parseWith_of_ok {α : Type} {root : Parser α} {tree : α} {s u : Stream}
    (hs : Stream.ofRun (TokenRun.ofText options t) = .ok s) (h : root s = .ok (tree, u)) :
    parseWith root options t = .ok tree := by
  rw [parseWith, hs]
  show (root s).map Prod.fst = _
  rw [h]
  rfl

/-- A source that parses as an expression, with at most one line break behind it, parses as a
module of one line that holds the expression. A source that parses as a module of one line that
holds a value parses as an expression, unless the value is a yield or has a star in front. The
trees hold the same expression, with the same spans, tokens and trivia. -/
theorem parseExpression_agrees_with_parseModule (options : Options) (t : Text) :
    (∀ tree, parseExpression options t = .ok tree → tree.newlines.length ≤ 1 →
      ∃ l, parseModule options t = .ok ⟨tree.span, [.line l], tree.endOfFile⟩ ∧
        l.Holds (.ofExpr tree.body) ∧ l.newline = tree.newlines.head?) ∧
    ∀ tree l value, parseModule options t = .ok tree → tree.statements = [.line l] →
      l.Holds value → value.IsPlain →
        parseExpression options t =
          .ok ⟨tree.span, value.toExpr, l.newline.toList, tree.endOfFile⟩ := by
  constructor
  · intro tree h hone
    obtain ⟨s, u, hs, hroot⟩ := parseWith_eq_ok h
    obtain ⟨l, hmodule, hholds, hnewline⟩ := moduleRoot_of_expressionRoot hroot hone
    exact ⟨l, parseWith_of_ok hs hmodule, hholds, hnewline⟩
  · intro tree l value h hstatements hholds hplain
    obtain ⟨s, u, hs, hroot⟩ := parseWith_eq_ok h
    exact parseWith_of_ok hs (expressionRoot_of_moduleRoot hroot hstatements hholds hplain)

theorem parseExpression_agrees_of_pair :
    ∃ tree l, parseExpression {} "a, b\n".toList = .ok tree ∧ tree.newlines.length ≤ 1 ∧
      parseModule {} "a, b\n".toList = .ok ⟨tree.span, [.line l], tree.endOfFile⟩ ∧
      l.Holds (.ofExpr tree.body) ∧ (Value.ofExpr tree.body).IsPlain ∧
      parseExpression {} "a, b\n".toList =
        .ok ⟨tree.span, tree.body, l.newline.toList, tree.endOfFile⟩ := by
  have hparses : (parseExpression {} "a, b\n".toList).toOption.any (fun tree =>
      decide (tree.newlines.length ≤ 1 ∧ (Value.ofExpr tree.body).IsPlain)) = true := by
    decide +kernel
  rcases htree : parseExpression {} "a, b\n".toList with error | tree
  · rw [htree] at hparses
    cases hparses
  rw [htree] at hparses
  obtain ⟨hone, hplain⟩ := of_decide_eq_true hparses
  obtain ⟨hforth, hback⟩ := parseExpression_agrees_with_parseModule {} "a, b\n".toList
  obtain ⟨l, hmodule, hholds, -⟩ := hforth tree htree hone
  have hexpression := hback _ l (.ofExpr tree.body) hmodule rfl hholds hplain
  rw [Value.toExpr_ofExpr, htree] at hexpression
  exact ⟨tree, l, rfl, hone, hmodule, hholds, hplain, hexpression⟩

end Verbatim
