import Verbatim.Proofs.Derivation.Roots
import Verbatim.Proofs.Regular

/-!
# Lists of parameters

One grammar serves the parameters of a definition and those of a `lambda`; only the former may have
types, as the colon would end the latter. A parameter that takes all further keyword arguments is
refused in front of another one when that one is about to be parsed, so in a finished list it is the
last, though a comma can stand behind it. Defaults and types are tests, so a `lambda` in one of them
has a list of its own, of which the same holds.
-/

namespace Verbatim

open Outline (Descends AllRoots eventsOf)

namespace Declarator

def typeHint : Declarator → Option TypeHint
  | mk _ _ typeHint => typeHint

end Declarator

namespace Param

/-- The name that a parameter is made of, if it is no mark. -/
def declarator? : Param → Option Declarator
  | single d | withDefault _ d _ _ | variadic _ _ d | keywordVariadic _ _ d => some d
  | keywordOnly _ _ | positionalOnly _ => none

/-- The node that a walk meets for the parameter. -/
def node : Param → Node
  | single d => .declarator d
  | p => .param p

def labels : List String :=
  ["VfpDef", "VfpDefAssign", "StarParam", "DoubleStarParam", "PositionalOnly"]

theorem outline_eq (p : Param) : p.outline = .node p.node p.node.pieces := by
  cases p <;> rfl

theorem label_node_mem (p : Param) : p.node.label ∈ labels := by
  cases p <;> simp [node, Node.label, label, labels]

end Param

/-! ## One list -/

/-- What a list of parameters is like. Only a definition is `typed`. -/
structure Params.Lawful (typed : Bool) (ps : Params) : Prop where
  row : MayTrail ps.items.items (ps.items.allSeparators ps.trailing)
  last : ∀ p ∈ ps.items.init, p.isKeywordVariadic = false
  untyped : typed = false → ∀ p ∈ ps.items.items, ∀ d, p.declarator? = some d → d.typeHint = none

theorem Derives.declarator_of_param {typed : Bool} {p : Param} {d : Declarator}
    (h : Derives (.param typed) (.param p)) (hd : p.declarator? = some d) :
    Derives (.declarator typed) (.declarator d) := by
  cases h with
  | unit h => cases h
  | single h | withDefault h | variadic _ h | keywordVariadic _ h =>
    cases hd
    exact h
  | keywordOnly | positionalOnly => cases hd

theorem Derives.typeHint_eq_none {d : Declarator}
    (h : Derives (.declarator false) (.declarator d)) : d.typeHint = none := by
  cases h with
  | unit h => cases h
  | declarator _ htyped => exact htyped rfl

theorem Derives.lawful {typed : Bool} {ps : Params}
    (h : Derives (.params typed) (.params typed ps)) : ps.Lawful typed := by
  cases h with
  | unit h => cases h
  | params hitems _ _ hlast =>
    constructor
    · exact Separated.mayTrail _ _
    · exact hlast
    · rintro rfl p hp d hd
      exact ((hitems p hp).declarator_of_param hd).typeHint_eq_none

/-! ## Lambdas and definitions -/

/-- The list of parameters that a node has, and whether they may have types. -/
def Node.params? : Node → Option (Bool × Params)
  | .expr (.lambda _ _ (some ps) _ _) => some (false, ps)
  | .stmt (.funcDef _ _ _ _ _ _ (some ps) _ _ _ _) => some (true, ps)
  | _ => none

theorem Derives.params_of_lambda {P : Phrase} {n : Node} {span : Span} {keyword colon : Token}
    {ps : Params} {body : Expr} (h : Derives P n)
    (hn : n = .expr (.lambda span keyword (some ps) colon body)) :
    Derives (.params false) (.params false ps) := by
  induction h with
  | unit _ _ ih => exact ih hn
  | lambda _ _ hparams =>
    cases hn
    exact hparams ps rfl
  | _ => cases hn

theorem Node.Derived.lawful {n : Node} {typed : Bool} {ps : Params} (h : n.Derived)
    (hn : n.params? = some (typed, ps)) : ps.Lawful typed := by
  unfold params? at hn
  split at hn
  · cases hn
    obtain ⟨P, hP⟩ := h
    exact (hP.params_of_lambda rfl).lawful
  · cases hn
    cases h with
    | funcDef _ _ _ _ _ hparams => exact (hparams ps rfl).lawful
  · cases hn

/-! ## Places -/

namespace Outline

variable {P : Node → Prop} {pieces : List Outline}

theorem allRoots_param {p : Param} :
    AllRoots P (p.outline :: pieces) ↔ P p.node ∧ AllRoots P pieces := by
  rw [Param.outline_eq, allRoots_node]

end Outline

/-- The list of parameters that a node is. -/
def Node.list? : Node → Option (Bool × Params)
  | .params typed ps => some (typed, ps)
  | _ => none

theorem Expr.lists (e : Expr) :
    AllRoots (fun m => ∀ l, m.list? = some l → (Node.expr e).params? = some l) e.pieces := by
  cases e with
  | lambda span keyword params colon body =>
    cases params <;> simp [Node.list?, Node.params?, Expr.pieces, paramsOptionPieces]
  | applied => simp [Node.list?, Expr.pieces, trailersPieces_eq, Trailer.outline]
  | slice span lower colon upper step =>
    rcases step with _ | ⟨⟨second, value⟩⟩ <;>
      simp [Node.list?, Expr.pieces, stepOptionPieces, Step.pieces]
  | sequence => simp [Node.list?, Expr.pieces, elementsPieces_eq]
  | _ => simp [Node.list?, Expr.pieces]

theorem Declarator.lists (d : Declarator) (n : Node) :
    AllRoots (fun m => ∀ l, m.list? = some l → n.params? = some l) d.pieces := by
  rcases d with ⟨span, name, _ | ⟨⟨within, colon, value⟩⟩⟩ <;>
    simp [Node.list?, Declarator.pieces, typeHintOptionPieces, TypeHint.pieces]

theorem Param.list?_node (p : Param) : p.node.list? = none := by
  cases p <;> rfl

theorem Small.lists (s : Small) (n : Node) :
    AllRoots (fun m => ∀ l, m.list? = some l → n.params? = some l) s.pieces := by
  cases s with
  | value v => cases v <;> simp [Node.list?, Small.pieces, Value.pieces, elementsPieces_eq]
  | annAssign | assert => simp [Node.list?, Small.pieces, Outline.allRoots_introduced]
  | raise => simp [Node.list?, Small.pieces, Raised.pieces, Outline.allRoots_introduced]
  | importModules =>
    simp [Small.pieces, DottedAsName.outline, DottedAsName.pieces, Outline.allRoots_introduced]
  | importFrom _ _ _ module => cases module <;> simp [Small.pieces]
  | _ => simp [Node.list?, Small.pieces]

theorem Line.lists (line : Line) (n : Node) :
    AllRoots (fun m => ∀ l, m.list? = some l → n.params? = some l) line.pieces := by
  simp [Node.list?, Line.pieces]

theorem Stmt.lists (s : Stmt) :
    AllRoots (fun m => ∀ l, m.list? = some l → (Node.stmt s).params? = some l) s.pieces := by
  cases s with
  | line l => exact l.lists _
  | ifElse =>
    suffices hclause : ∀ (c : ElifClause) (n : Node),
        AllRoots (fun m => ∀ l, m.list? = some l → n.params? = some l) [c.outline] by
      simpa [Node.list?, Stmt.pieces, elifsPieces_eq] using fun c _ => hclause c _
    rintro ⟨⟩ n
    simp [Node.list?, ElifClause.outline]
  | tryBlock =>
    suffices hhandler : ∀ (c : ExceptClause) (n : Node),
        AllRoots (fun m => ∀ l, m.list? = some l → n.params? = some l) [c.outline] by
      simpa [Node.list?, Stmt.pieces, handlersPieces_eq] using fun c _ => hhandler c _
    rintro ⟨⟩ n
    simp [Node.list?, ExceptClause.outline, Caught.pieces, Outline.allRoots_introduced]
  | withBlock =>
    simp [Node.list?, Stmt.pieces, WithItem.outline, WithItem.pieces, Outline.allRoots_introduced]
  | funcDef _ _ _ _ _ _ params =>
    cases params <;>
      simp [Node.list?, Node.params?, Stmt.pieces, Outline.allRoots_introduced]
  | classDef => simp [Node.list?, Stmt.pieces, ClassArguments.pieces]
  | _ => simp [Node.list?, Stmt.pieces]

/-- A list of parameters stands right inside the node that has it. -/
theorem Node.lists (n : Node) :
    AllRoots (fun m => ∀ l, m.list? = some l → n.params? = some l) n.pieces := by
  cases n with
  | expr e => exact e.lists
  | trailer t => cases t <;> simp [list?, pieces, Trailer.pieces]
  | clause c =>
    cases c <;> simp [list?, pieces, Clause.pieces, clauseOptionPieces_eq, Clause.outline]
  | declarator d => exact d.lists _
  | param p =>
    cases p with
    | single d => exact d.lists _
    | _ => simp [list?, pieces, Param.outline, Outline.children]
  | params typed ps =>
    obtain ⟨span, items, trailing⟩ := ps
    simp [pieces, Params.pieces, paramItemsPieces_eq, Outline.allRoots_param, Param.list?_node]
  | value v => exact (Small.value v).lists _
  | small s => exact s.lists _
  | line l => exact l.lists _
  | block => exact Outline.allRoots_nil
  | stmt s => exact s.lists

/-- What a list of parameters has right inside of it, and what a parameter has that is more than
a name. -/
structure Node.Frames (n m : Node) : Prop where
  parameter : ∀ typed ps, n = .params typed ps →
    m.label ∈ Param.labels ∧ ∃ p ∈ ps.items.items, m = p.node
  name : ∀ p, n = .param p → m.sort = .statement →
    m.label = "VfpDef" ∧ ∃ d, p.declarator? = some d ∧ m = .declarator d

theorem Params.roots (ps : Params) :
    AllRoots (fun m => m.label ∈ Param.labels ∧ ∃ p ∈ ps.items.items, m = p.node) ps.pieces := by
  obtain ⟨span, items, trailing⟩ := ps
  rw [Params.pieces, paramItemsPieces_eq, Outline.allRoots_append, Outline.allRoots_separated]
  refine ⟨fun p hp => ?_, Outline.allRoots_ofOption⟩
  rw [Outline.allRoots_param]
  exact ⟨⟨p.label_node_mem, p, hp, rfl⟩, Outline.allRoots_nil⟩

/-- A default is an expression and no statement. -/
theorem Param.roots (p : Param) :
    AllRoots (fun m => m.sort = .statement →
      m.label = "VfpDef" ∧ ∃ d, p.declarator? = some d ∧ m = .declarator d)
      p.outline.children := by
  cases p with
  | single d =>
    rcases d with ⟨span, name, _ | ⟨⟨within, colon, value⟩⟩⟩ <;>
      simp [Param.outline, Outline.children, Declarator.pieces, typeHintOptionPieces,
        TypeHint.pieces, Node.sort]
  | _ => simp [Param.outline, Outline.children, Node.sort, Node.label, declarator?]

theorem Node.frames (n : Node) : AllRoots n.Frames n.pieces := by
  intro m hm
  constructor
  · rintro typed ps rfl
    exact ps.roots m hm
  · rintro p rfl hsort
    exact p.roots m hm hsort

theorem Parses.framed {options : Options} {t : Text} {span : Span} {pieces : List Outline}
    (h : Parses options t span pieces) : Outline.Linked Node.Frames pieces := by
  refine h.linked (fun n _ => n.frames) fun span statements m _ => ?_
  constructor
  · rintro _ _ ⟨⟩
  · rintro _ ⟨⟩

theorem Parses.no_list {options : Options} {t : Text} {span : Span} {pieces : List Outline}
    (h : Parses options t span pieces) : AllRoots (fun m => m.list? = none) pieces := by
  cases h with
  | module => simp [Node.list?, ModuleTree.pieces, stmtsPieces_eq]
  | expression => simp [Node.list?, ExpressionTree.pieces]
  | signature => simp [Node.list?, SignatureTree.pieces]

/-- A list of parameters has the node right above it whose list it is. -/
theorem Parses.above_list {options : Options} {t : Text} {span : Span} {pieces : List Outline}
    (h : Parses options t span pieces) {path : List Node} {typed : Bool} {ps : Params}
    (hpath : Descends pieces (path ++ [.params typed ps])) :
    ∃ above n, path = above ++ [n] ∧ n.params? = some (typed, ps) := by
  have hlinked :
      Outline.Linked (fun n m => ∀ l, m.list? = some l → n.params? = some l) pieces := by
    refine h.linked (fun n _ => n.lists) fun span statements => ?_
    simp [Node.list?, stmtsPieces_eq]
  rcases List.eq_nil_or_concat' path with rfl | ⟨above, n, rfl⟩
  · have hroot := h.no_list _ hpath
    cases hroot
  · rw [List.append_assoc, List.singleton_append] at hpath
    exact ⟨above, n, rfl, hlinked above n _ hpath _ rfl⟩

/-- Every list of parameters in a parsed source is that of a definition or of a `lambda`, as it
stands there, and is made of the five sorts of parameters only. Wherever a list stands, also inside
a default or a type, it has a comma between each two parameters, takes further keyword arguments at
most in its last one, and has types only if it is that of a definition. -/
theorem parameters_lawful {options : Options} {t : Text} {span : Span} {pieces : List Outline}
    (h : Parses options t span pieces) :
    (∀ n typed ps, Event.enter n ∈ eventsOf pieces → n.params? = some (typed, ps) →
      ps.Lawful typed) ∧
    (∀ path typed ps, Descends pieces (path ++ [.params typed ps]) →
      ∃ above n, path = above ++ [n] ∧ n.params? = some (typed, ps)) ∧
    ∀ path n m, Descends pieces (path ++ [n, m]) → n.Frames m := by
  refine ⟨fun n typed ps hmem hn => ?_, fun path typed ps => h.above_list, h.framed⟩
  have hderived : n.Derived := h.every_derived _ hmem
  exact hderived.lawful hn

/-- Whether the node has a list, with types or without, of parameters of these sorts. -/
def Node.hasParams (typed : Bool) (sorts : List String) (n : Node) : Bool :=
  n.params?.any fun l => l.1 == typed && l.2.items.items.map Param.label == sorts

theorem Node.exists_params {typed : Bool} {sorts : List String} {n : Node}
    (h : n.hasParams typed sorts = true) : ∃ ps, n.params? = some (typed, ps) := by
  obtain ⟨⟨other, ps⟩, hn, hl⟩ := (Option.any_eq_true _ _).mp h
  obtain ⟨htyped, -⟩ := Bool.and_eq_true_iff.mp hl
  obtain rfl : other = typed := beq_iff_eq.mp htyped
  exact ⟨ps, hn⟩

/-- A definition with all sorts of parameters, one of them with a `lambda` as its default. -/
theorem parameters_lawful_of_default :
    ∃ tree n ps m qs,
      parseModule {} "def f(a: b, /, *, c: d = lambda *x, y=1, **z: x, **e,): pass\n".toList =
        .ok tree ∧
      (Event.enter n ∈ eventsOf tree.pieces ∧ n.params? = some (true, ps) ∧ ps.Lawful true) ∧
      (Event.enter m ∈ eventsOf tree.pieces ∧ m.params? = some (false, qs) ∧ qs.Lawful false) := by
  have hlists : ((parseModule {}
      "def f(a: b, /, *, c: d = lambda *x, y=1, **z: x, **e,): pass\n".toList).toOption.any
      fun tree =>
        (eventsOf tree.pieces).any (Event.enters (Node.hasParams true
          ["VfpDef", "PositionalOnly", "StarParam", "VfpDefAssign", "DoubleStarParam"])) &&
        (eventsOf tree.pieces).any (Event.enters (Node.hasParams false
          ["StarParam", "VfpDefAssign", "DoubleStarParam"]))) = true := by
    decide +kernel
  obtain ⟨tree, htree, hboth⟩ := exists_eq_ok_of_any hlists
  obtain ⟨hdefinition, hlambda⟩ := Bool.and_eq_true_iff.mp hboth
  obtain ⟨n, hnmem, hn⟩ := Outline.exists_enter hdefinition
  obtain ⟨m, hmmem, hm⟩ := Outline.exists_enter hlambda
  obtain ⟨ps, hps⟩ := Node.exists_params hn
  obtain ⟨qs, hqs⟩ := Node.exists_params hm
  obtain ⟨hlawful, -, -⟩ := parameters_lawful (.module htree)
  exact ⟨tree, n, ps, m, qs, htree, ⟨hnmem, hps, hlawful n true ps hnmem hps⟩,
    hmmem, hqs, hlawful m false qs hmmem hqs⟩

end Verbatim
