import Verbatim.Proofs.Derivation.Statement
import Verbatim.Proofs.Tree.Pieces

/-!
# Properties that a tree has from its productions

Some properties of pieces hold of every derived tree because each production keeps them:
they hold of tokens on their own, of pieces side by side, of what stands between two brackets
of one shape, and of a node if they hold of what is inside it. The induction over the
derivation is done once, for all of them.
-/

namespace Verbatim

/-! ## Tokens of productions -/

namespace TokenKind

/-- Whether a token of the kind is an ordinary one of its line: no line break, block marker or
end of the text, and no bracket. -/
def isOrdinary (kind : TokenKind) : Bool :=
  !kind.isStructural && kind.opens?.isNone && kind.closes?.isNone

theorem isStructural_of_isOrdinary {kind : TokenKind} (h : kind.isOrdinary = true) :
    kind.isStructural = false := by
  cases kind <;> first | rfl | cases h

/-- Only what is applied to an atom goes on with a bracket. -/
theorem isOrdinary_of_continues? {kind : TokenKind} {L : Level} (h : kind.continues? = some L)
    (hL : L.folds = true) : kind.isOrdinary = true := by
  cases kind <;> first | rfl | cases h <;> cases hL

theorem isOrdinary_of_isAugmentedAssign {kind : TokenKind} (h : kind.isAugmentedAssign = true) :
    kind.isOrdinary = true := by
  cases kind <;> first | rfl | cases h

end TokenKind

theorem LeafKind.isOrdinary_of_ofToken? {kind : TokenKind} {leaf : LeafKind}
    (h : LeafKind.ofToken? kind = some leaf) : kind.isOrdinary = true := by
  cases kind <;> first | rfl | cases h

theorem UnaryKind.isOrdinary_of_sign? {kind : TokenKind} {unary : UnaryKind}
    (h : UnaryKind.sign? kind = some unary) : kind.isOrdinary = true := by
  cases kind <;> first | rfl | cases h

theorem UnaryKind.isOrdinary_of_mark? {kind : TokenKind} {unary : UnaryKind}
    (h : unary.mark? = some kind) : kind.isOrdinary = true := by
  cases unary <;> cases h <;> rfl

namespace Level.Admits

variable {L : Level} {span : Span} {right : Expr}

theorem isOrdinary_op {kind : BinaryKind} {op : Token} (h : L.Admits (.binary span kind op right)) :
    op.kind.isOrdinary = true := by
  obtain ⟨first, rest, hfaces, hfirst⟩ := h.faces_eq
  cases hfaces
  exact TokenKind.isOrdinary_of_continues? hfirst h.folds

theorem isOrdinary_first {kind : CompoundKind} {first second : Token}
    (h : L.Admits (.compound span kind first second right)) : first.kind.isOrdinary = true := by
  obtain ⟨face, rest, hfaces, hfirst⟩ := h.faces_eq
  cases hfaces
  exact TokenKind.isOrdinary_of_continues? hfirst h.folds

theorem isOrdinary_second {kind : CompoundKind} {first second : Token}
    (h : L.Admits (.compound span kind first second right)) : second.kind.isOrdinary = true := by
  cases h with
  | notIn _ h => rw [h]; rfl
  | isNot _ h => rw [h]; rfl

end Level.Admits

/-! ## Composition -/

def Node.isBlock : Node → Bool
  | .block _ _ => true
  | _ => false

/-- What is right inside a node that is no block. -/
def Node.pieces : Node → List Outline
  | .expr e => e.pieces
  | .trailer t => t.pieces
  | .clause c => c.pieces
  | .declarator d => d.pieces
  | .param p => p.outline.children
  | .params _ ps => ps.pieces
  | .value v => v.pieces
  | .small s => s.pieces
  | .line l => l.pieces
  | .block _ _ => []
  | .stmt s => s.pieces

/-- A property that goes through the productions of expressions and small statements. -/
structure Composes (C : List Outline → Prop) : Prop where
  nil : C []
  append {left right : List Outline} : C left → C right → C (left ++ right)
  ordinary {t : Token} : t.kind.isOrdinary = true → C [.token t]
  enclosed {b : Bracket} {opener closer : Token} {body : List Outline} :
    opener.kind = b.openKind → closer.kind = b.closeKind → C body →
      C (.token opener :: (body ++ [.token closer]))
  node {n : Node} {children : List Outline} :
    n.Derived → n.isBlock = false → n.pieces = children → C children → C [.node n children]
  part {span : Span} {children : List Outline} : C children → C [.part span children]

namespace Composes

variable {C : List Outline → Prop} {piece : Outline} {rest : List Outline}

theorem cons (h : Composes C) (hpiece : C [piece]) (hrest : C rest) : C (piece :: rest) :=
  h.append hpiece hrest

theorem word (h : Composes C) {t : Token} {kind : TokenKind} (hkind : t.kind = kind)
    (hordinary : kind.isOrdinary = true) (hrest : C rest) : C (.token t :: rest) :=
  h.cons (h.ordinary (hkind ▸ hordinary)) hrest

theorem bracketed (h : Composes C) {b : Bracket} {opener closer : Token} {body : List Outline}
    (hopener : opener.kind = b.openKind) (hcloser : closer.kind = b.closeKind) (hbody : C body)
    (hrest : C rest) : C (.token opener :: (body ++ .token closer :: rest)) := by
  have hall := h.append (h.enclosed hopener hcloser hbody) hrest
  rwa [List.cons_append, List.append_assoc] at hall

variable {α : Type} {pieces : α → List Outline}

theorem elim (h : Composes C) {o : Option α} (ho : ∀ a, o = some a → C (pieces a)) :
    C (o.elim [] pieces) := by
  cases o with
  | none => exact h.nil
  | some a => exact ho a rfl

theorem flatMap (h : Composes C) {as : List α} (has : ∀ a ∈ as, C (pieces a)) :
    C (as.flatMap pieces) := by
  induction as with
  | nil => exact h.nil
  | cons a as ih =>
    obtain ⟨ha, has⟩ := List.forall_mem_cons.mp has
    exact h.append ha (ih has)

theorem map (h : Composes C) {outline : α → Outline} {as : List α}
    (has : ∀ a ∈ as, C [outline a]) : C (as.map outline) := by
  rw [List.map_eq_flatMap]
  exact h.flatMap has

theorem ofOption (h : Composes C) {o : Option Token} {kind : TokenKind}
    (ho : ∀ t, o = some t → t.kind = kind) (hordinary : kind.isOrdinary = true) :
    C (Outline.ofOption o) := by
  cases o with
  | none => exact h.nil
  | some t => exact h.word (ho t rfl) hordinary h.nil

theorem separated (h : Composes C) {items : Separated α} {kind : TokenKind}
    (hitems : ∀ a ∈ items.items, C (pieces a)) (hseparators : ∀ t ∈ items.separators, t.kind = kind)
    (hordinary : kind.isOrdinary = true) : C (items.pieces pieces) := by
  induction items with
  | one a => exact hitems a (List.mem_singleton_self a)
  | cons a t rest ih =>
    rw [Separated.items_cons] at hitems
    rw [Separated.separators_cons] at hseparators
    obtain ⟨ha, hitems⟩ := List.forall_mem_cons.mp hitems
    obtain ⟨ht, hseparators⟩ := List.forall_mem_cons.mp hseparators
    exact h.append ha (h.word ht hordinary (ih hitems hseparators))

end Composes

/-! ## Expressions -/

theorem Derives.derived {P : Phrase} {n : Node} (h : Derives P n) : n.Derived := by
  have hn := h
  induction h with
  | unit _ h ih => exact ih h
  | _ => exact ⟨_, hn⟩

theorem Derives.isBlock_eq_false {P : Phrase} {n : Node} (h : Derives P n) :
    n.isBlock = false := by
  induction h with
  | unit _ _ ih => exact ih
  | _ => rfl

/-- The outline of a node that belongs to an expression. -/
def Node.own : Node → List Outline
  | .expr e => [e.outline]
  | .trailer t => [t.outline]
  | .clause c => [c.outline]
  | .declarator d => [d.outline]
  | .param p => [p.outline]
  | .params typed ps => [ps.outline typed]
  | _ => []

section Expressions

variable {C : List Outline → Prop} {P : Phrase}

theorem Derives.composes_node {n : Node} {children : List Outline} (h : Derives P n)
    (hpieces : n.pieces = children) (hC : Composes C) (hchildren : C children) :
    C [.node n children] :=
  hC.node h.derived h.isBlock_eq_false hpieces hchildren

theorem Derives.composes {n : Node} (h : Derives P n) (hC : Composes C) : C n.own := by
  induction h with
  | unit _ _ ih => exact ih
  | leaf h =>
    refine Derives.composes_node (.leaf h) rfl hC ?_
    exact hC.ordinary (LeafKind.isOrdinary_of_ofToken? h)
  | strings hfirst hmore =>
    refine Derives.composes_node (.strings hfirst hmore) rfl hC ?_
    exact hC.word hfirst rfl (hC.map fun t ht => hC.word (hmore t ht) rfl hC.nil)
  | display hopener hcloser hbody hset ih =>
    refine Derives.composes_node (.display hopener hcloser hbody hset) rfl hC ?_
    rw [Expr.pieces, exprOptionPieces_eq]
    exact hC.enclosed hopener hcloser (hC.elim ih)
  | applied hawait hatom htrailers hne ihatom ihtrailers =>
    refine Derives.composes_node (.applied hawait hatom htrailers hne) rfl hC ?_
    rw [Expr.pieces, trailersPieces_eq]
    exact hC.append (hC.ofOption hawait rfl) (hC.cons ihatom (hC.flatMap ihtrailers))
  | power hop hbase hexponent ihbase ihexponent =>
    refine Derives.composes_node (.power hop hbase hexponent) rfl hC ?_
    exact hC.cons ihbase (hC.word hop rfl ihexponent)
  | sign hop hoperand ih =>
    refine Derives.composes_node (.sign hop hoperand) rfl hC ?_
    exact hC.word rfl (UnaryKind.isOrdinary_of_sign? hop) ih
  | binary hop hleft hright ihleft ihright =>
    refine Derives.composes_node (.binary hop hleft hright) rfl hC ?_
    exact hC.cons ihleft (hC.word rfl hop.isOrdinary_op ihright)
  | compound hop hleft hright ihleft ihright =>
    refine Derives.composes_node (.compound hop hleft hright) rfl hC ?_
    refine hC.cons ihleft (hC.word rfl hop.isOrdinary_first ?_)
    exact hC.word rfl hop.isOrdinary_second ihright
  | not hop hoperand ih =>
    refine Derives.composes_node (.not hop hoperand) rfl hC ?_
    exact hC.word hop rfl ih
  | lambda hP hkeyword hparams hcolon hbody ihparams ihbody =>
    refine Derives.composes_node (.lambda hP hkeyword hparams hcolon hbody) rfl hC ?_
    rw [Expr.pieces, paramsOptionPieces_eq]
    exact hC.word hkeyword rfl (hC.append (hC.elim ihparams) (hC.word hcolon rfl ihbody))
  | conditional hif helse hbody hcondition halternative ihbody ihcondition ihalternative =>
    refine Derives.composes_node (.conditional hif helse hbody hcondition halternative) rfl hC ?_
    exact hC.cons ihbody (hC.word hif rfl (hC.cons ihcondition (hC.word helse rfl ihalternative)))
  | named hop hname hleft hright ihleft ihright =>
    refine Derives.composes_node (.named hop hname hleft hright) rfl hC ?_
    exact hC.cons ihleft (hC.word hop rfl ihright)
  | starred hop hoperand ih =>
    refine Derives.composes_node (.starred hop hoperand) rfl hC ?_
    exact hC.word rfl (UnaryKind.isOrdinary_of_mark? hop) ih
  | yield hkeyword hvalue ih =>
    refine Derives.composes_node (.yield hkeyword hvalue) rfl hC ?_
    rw [Expr.pieces, exprOptionPieces_eq]
    exact hC.word hkeyword rfl (hC.elim ih)
  | yieldFrom hkeyword hfrom hvalue ih =>
    refine Derives.composes_node (.yieldFrom hkeyword hfrom hvalue) rfl hC ?_
    exact hC.word hkeyword rfl (hC.word hfrom rfl ih)
  | comprehension helement hclause hentry hkind ihelement ihclause =>
    refine Derives.composes_node (.comprehension helement hclause hentry hkind) rfl hC ?_
    exact hC.cons ihelement ihclause
  | sequence hitems hseparators htrailing hmany hkind ih =>
    refine Derives.composes_node (.sequence hitems hseparators htrailing hmany hkind) rfl hC ?_
    rw [Expr.pieces, elementsPieces_eq]
    exact hC.append (hC.separated ih hseparators rfl) (hC.ofOption htrailing rfl)
  | dictEntry hcolon hkey hvalue ihkey ihvalue =>
    refine Derives.composes_node (.dictEntry hcolon hkey hvalue) rfl hC ?_
    exact hC.cons ihkey (hC.word hcolon rfl ihvalue)
  | argument hequal hname hleft hvalue ihleft ihvalue =>
    refine Derives.composes_node (.argument hequal hname hleft hvalue) rfl hC ?_
    exact hC.cons ihleft (hC.word hequal rfl ihvalue)
  | slice hcolon hlower hupper hstep hvalue ihlower ihupper ihvalue =>
    refine Derives.composes_node (.slice hcolon hlower hupper hstep hvalue) rfl hC ?_
    rw [Expr.pieces, exprOptionPieces_eq, exprOptionPieces_eq, stepOptionPieces_eq]
    refine hC.append (hC.elim ihlower) (hC.word hcolon rfl (hC.append (hC.elim ihupper) ?_))
    refine hC.elim fun step h => ?_
    obtain ⟨second, value⟩ := step
    rw [Step.pieces, exprOptionPieces_eq]
    refine hC.word (hstep second value h) rfl (hC.elim fun e he => ?_)
    exact ihvalue second e (he ▸ h)
  | member hdot hname =>
    refine Derives.composes_node (.member hdot hname) rfl hC ?_
    exact hC.word hdot rfl (hC.word hname rfl hC.nil)
  | call hopener hcloser harguments ih =>
    refine Derives.composes_node (.call hopener hcloser harguments) rfl hC ?_
    rw [Trailer.pieces, exprOptionPieces_eq]
    exact hC.enclosed (b := .paren) hopener hcloser (hC.elim ih)
  | index hopener hcloser hsubscripts ih =>
    refine Derives.composes_node (.index hopener hcloser hsubscripts) rfl hC ?_
    rw [Trailer.pieces, exprOptionPieces_eq]
    exact hC.enclosed (b := .square) hopener hcloser (hC.elim ih)
  | loop hasync hfor hin htargets hsource hnext ihtargets ihsource ihnext =>
    refine Derives.composes_node (.loop hasync hfor hin htargets hsource hnext) rfl hC ?_
    rw [Clause.pieces, clauseOptionPieces_eq]
    refine hC.append (hC.ofOption hasync rfl) (hC.word hfor rfl (hC.cons ihtargets ?_))
    exact hC.word hin rfl (hC.cons ihsource (hC.elim ihnext))
  | guard hif hcondition hnext ihcondition ihnext =>
    refine Derives.composes_node (.guard hif hcondition hnext) rfl hC ?_
    rw [Clause.pieces, clauseOptionPieces_eq]
    exact hC.word hif rfl (hC.cons ihcondition (hC.elim ihnext))
  | declarator hname htyped hcolon hhint ih =>
    refine Derives.composes_node (.declarator hname htyped hcolon hhint) rfl hC ?_
    rw [Declarator.pieces, typeHintOptionPieces_eq]
    refine hC.word hname rfl (hC.elim fun hint h => ?_)
    obtain ⟨within, colon, e⟩ := hint
    exact hC.part (hC.word (hcolon within colon e h) rfl (ih within colon e h))
  | single hd ih => exact ih
  | withDefault hd hassign hvalue ihd ihvalue =>
    refine Derives.composes_node (.withDefault hd hassign hvalue) rfl hC ?_
    exact hC.cons ihd (hC.word hassign rfl ihvalue)
  | @keywordOnly span typed star hstar =>
    refine Derives.composes_node (P := .param typed) (.keywordOnly hstar) rfl hC ?_
    exact hC.word hstar rfl hC.nil
  | variadic hstar hd ih =>
    refine Derives.composes_node (.variadic hstar hd) rfl hC ?_
    exact hC.word hstar rfl ih
  | keywordVariadic hop hd ih =>
    refine Derives.composes_node (.keywordVariadic hop hd) rfl hC ?_
    exact hC.word hop rfl ih
  | @positionalOnly typed slash hslash =>
    refine Derives.composes_node (P := .param typed) (.positionalOnly hslash) rfl hC ?_
    exact hC.word hslash rfl hC.nil
  | params hitems hseparators htrailing hlast ih =>
    refine Derives.composes_node (.params hitems hseparators htrailing hlast) rfl hC ?_
    rw [Params.pieces, paramItemsPieces_eq]
    exact hC.append (hC.separated ih hseparators rfl) (hC.ofOption htrailing rfl)

/-- A sequence is always derived as one, whatever phrase it stands for. -/
theorem Derives.sequence_inv {n : Node} {span : Span} {kind : SequenceKind}
    {items : Separated Expr} {trailing : Option Token} (h : Derives P n)
    (hn : n = .expr (.sequence span kind items trailing)) :
    (∃ Q : Phrase, Q.ElementOf kind ∧ ∀ e ∈ items.items, Derives Q (.expr e)) ∧
      (∀ t ∈ items.separators, t.kind = .comma) ∧ (∀ t, trailing = some t → t.kind = .comma) ∧
      (items.separators ≠ [] ∨ trailing.isSome = true) := by
  induction h with
  | unit _ _ ih => exact ih hn
  | sequence hitems hseparators htrailing hmany hkind =>
    cases hn
    exact ⟨⟨_, hkind, hitems⟩, hseparators, htrailing, hmany⟩
  | _ => cases hn

end Expressions

/-! ## Small statements -/

namespace Composes

variable {C : List Outline → Prop} {α : Type} {kind : TokenKind} {post : α → Prop}

theorem introduced (hC : Composes C) {inside : α → Outline} {part : Introduced α}
    (hordinary : kind.isOrdinary = true) (h : part.By kind post)
    (hinside : ∀ a, post a → C [inside a]) : C [part.outline inside] :=
  hC.part (hC.word h.token hordinary (hinside _ h.value))

theorem optionPieces (hC : Composes C) {inside : α → Outline} {o : Option (Introduced α)}
    (hordinary : kind.isOrdinary = true) (h : ∀ part, o = some part → part.By kind post)
    (hinside : ∀ a, post a → C [inside a]) : C (Introduced.optionPieces inside o) := by
  rw [Introduced.optionPieces_eq]
  exact hC.elim fun part hpart => hC.introduced hordinary (h part hpart) hinside

theorem row (hC : Composes C) {inside : α → List Outline} {row : Separated α}
    (hordinary : kind.isOrdinary = true) (h : row.By kind post)
    (hinside : ∀ a, post a → C (inside a)) : C (row.pieces inside) :=
  hC.separated (fun a ha => hinside a (h.items a ha)) h.separators hordinary

theorem name (hC : Composes C) {t : Token} (h : t.kind = .name) : C [.token t] :=
  hC.word h rfl hC.nil

end Composes

section Small

variable {C : List Outline → Prop}

theorem Derives.composes_outline {P : Phrase} {e : Expr} (h : Derives P (.expr e))
    (hC : Composes C) : C [e.outline] :=
  h.composes hC

theorem Value.Derived.composes {v : Value} (h : v.Derived) (hC : Composes C) : C v.pieces := by
  cases v with
  | single e => exact Derives.composes_outline h hC
  | list span items trailing =>
    obtain ⟨⟨Q, -, hitems⟩, hseparators, htrailing, -⟩ := Derives.sequence_inv h rfl
    rw [Value.pieces, elementsPieces_eq]
    refine hC.append (hC.separated ?_ hseparators rfl) (hC.ofOption htrailing rfl)
    exact fun e he => (hitems e he).composes_outline hC

theorem Value.Derived.composes_outline {v : Value} (h : v.Derived) (hC : Composes C) :
    C [v.outline] :=
  hC.node h rfl rfl (h.composes hC)

theorem AsName.Derived.composes {o : Option AsName} (h : AsName.Derived o) (hC : Composes C) :
    C (Introduced.optionPieces .token o) :=
  hC.optionPieces rfl h fun _ => hC.name

theorem DottedName.Derived.composes {name : DottedName} (h : name.Derived) (hC : Composes C) :
    C [name.outline] :=
  hC.part (hC.row rfl h fun _ => hC.name)

theorem DottedAsName.Derived.composes {item : DottedAsName} (h : item.Derived)
    (hC : Composes C) : C [item.outline] :=
  hC.part (hC.cons (h.name.composes hC) (h.asName.composes hC))

theorem ImportAsName.Derived.composes {item : ImportAsName} (h : item.Derived)
    (hC : Composes C) : C [item.outline] :=
  hC.part (hC.cons (hC.name h.name) (h.asName.composes hC))

theorem ImportTargets.Derived.composes {targets : ImportTargets} (h : targets.Derived)
    (hC : Composes C) : C [targets.outline] := by
  cases targets with
  | star t => exact hC.word h rfl hC.nil
  | bare span names => exact hC.part (hC.row rfl h fun _ hname => hname.composes hC)
  | enclosed span opener names trailing closer =>
    obtain ⟨hopener, hnames, htrailing, hcloser⟩ := h
    have hinside := hC.append (hC.row rfl hnames fun _ hname => hname.composes hC)
      (hC.ofOption htrailing rfl)
    exact hC.part (hC.enclosed (b := .paren) hopener hcloser hinside)

theorem Raised.Derived.composes {raised : Raised} (h : raised.Derived) (hC : Composes C) :
    C raised.pieces :=
  hC.cons (h.exception.composes_outline hC)
    (hC.optionPieces rfl h.cause fun _ he => he.composes_outline hC)

theorem Small.Derived.composes {s : Small} (h : s.Derived) (hC : Composes C) : C s.pieces := by
  cases s with
  | value v => exact Value.Derived.composes h hC
  | assign span target equal rest =>
    obtain ⟨htarget, hequal, hrest⟩ := h
    refine hC.cons (htarget.composes_outline hC) (hC.word hequal rfl ?_)
    exact hC.row rfl hrest fun _ hv => hv.composes_outline hC
  | annAssign span target colon typeHint assigned =>
    obtain ⟨htarget, hcolon, hhint, hassigned⟩ := h
    refine hC.cons (htarget.composes_outline hC) (hC.word hcolon rfl ?_)
    refine hC.cons (hhint.composes_outline hC) ?_
    exact hC.optionPieces rfl hassigned fun _ hv => hv.composes_outline hC
  | augAssign span target op v =>
    obtain ⟨htarget, hop, hv⟩ := h
    have hordinary := TokenKind.isOrdinary_of_isAugmentedAssign hop
    exact hC.cons (htarget.composes_outline hC) (hC.word rfl hordinary (hv.composes_outline hC))
  | keyword kind token =>
    refine hC.word h ?_ hC.nil
    cases kind <;> rfl
  | «return» span word returned =>
    obtain ⟨hword, hreturned⟩ := h
    exact hC.word hword rfl (hC.elim fun v hv => (hreturned v hv).composes_outline hC)
  | raise span word raised =>
    obtain ⟨hword, hraised⟩ := h
    exact hC.word hword rfl (hC.elim fun r hr => (hraised r hr).composes hC)
  | del span word targets =>
    obtain ⟨hword, htargets⟩ := h
    exact hC.word hword rfl (htargets.composes_outline hC)
  | scope span kind word names =>
    obtain ⟨hword, hnames⟩ := h
    refine hC.word hword ?_ (hC.row rfl hnames fun _ => hC.name)
    cases kind <;> rfl
  | assert span word test message =>
    obtain ⟨hword, htest, hmessage⟩ := h
    refine hC.word hword rfl (hC.cons (htest.composes_outline hC) ?_)
    exact hC.optionPieces rfl hmessage fun _ he => he.composes_outline hC
  | importModules span word names =>
    obtain ⟨hword, hnames⟩ := h
    exact hC.word hword rfl (hC.row rfl hnames fun _ hname => hname.composes hC)
  | importFrom span fromToken dots module importToken targets =>
    obtain ⟨hfrom, hdots, hmodule, -, himport, htargets⟩ := h
    have hmarks : C (dots.map .token) := by
      refine hC.map fun t ht => ?_
      rcases hdots t ht with hkind | hkind
      · exact hC.word hkind rfl hC.nil
      · exact hC.word hkind rfl hC.nil
    have hname : C (module.map DottedName.outline).toList := by
      cases module with
      | none => exact hC.nil
      | some name => exact (hmodule name rfl).composes hC
    exact hC.word hfrom rfl (hC.append (hC.append hmarks hname)
      (hC.word himport rfl (htargets.composes hC)))

theorem Small.Derived.composes_outline {s : Small} (h : s.Derived) (hC : Composes C) :
    C [s.outline] := by
  have hpieces := h.composes hC
  cases s with
  | value v => exact Value.Derived.composes_outline h hC
  | _ => exact hC.node h rfl rfl hpieces

end Small

/-! ## Lines and compound statements -/

/-- A property that goes through the productions of blocks as well. -/
structure ComposesBlocks (C : List Outline → Prop) : Prop extends Composes C where
  mark {t : Token} : t.kind = .newline ∨ t.kind = .endOfFile → C [.token t]
  block {span : Span} {typeComment : Option Token} {newline indent dedent : Token}
    {statements : List Stmt} (hcomment : ∀ t, typeComment = some t → t.kind = .typeComment)
    (hnewline : newline.kind = .newline) (hindent : indent.kind = .indent)
    (hdedent : dedent.kind = .dedent) (hderived : ∀ s ∈ statements, Compound.Derived (.stmt s))
    (hstatements : C (stmtsPieces statements)) :
    C [(Body.block span typeComment newline indent statements dedent).outline]

section Compound

variable {C : List Outline → Prop}

/-- Only the line break of a line goes beyond the productions of small statements. -/
theorem Line.Derived.composes {l : Line} (h : l.Derived) (hC : Composes C) :
    C ((l.statements.pieces fun s => [s.outline]) ++ Outline.ofOption l.trailing ++
      Outline.ofOption l.typeComment) := by
  refine hC.append (hC.append ?_ (hC.ofOption h.trailing rfl)) (hC.ofOption h.typeComment rfl)
  exact hC.row rfl h.statements fun _ hs => hs.composes_outline hC

theorem Line.Derived.composes_outline {l : Line} (h : l.Derived) (hC : ComposesBlocks C) :
    C [l.outline] := by
  have hnewline : C (Outline.ofOption l.newline) := by
    have ht := h.newline
    cases hl : l.newline with
    | none => exact hC.nil
    | some t => exact hC.mark (.inl (ht t hl))
  exact hC.node h rfl rfl (hC.append (h.composes hC.toComposes) hnewline)

theorem WithItem.Derived.composes {item : WithItem} (h : item.Derived) (hC : Composes C) :
    C [item.outline] :=
  hC.part (hC.cons (h.context.composes_outline hC)
    (hC.optionPieces rfl h.target fun _ he => he.composes_outline hC))

theorem Caught.Derived.composes {c : Caught} (h : c.Derived) (hC : Composes C) : C c.pieces :=
  hC.cons (h.test.composes_outline hC) (h.asName.composes hC)

theorem ClassArguments.Derived.composes {a : ClassArguments} (h : a.Derived) (hC : Composes C) :
    C a.pieces := by
  rw [ClassArguments.pieces, exprOptionPieces_eq]
  exact hC.enclosed (b := .paren) h.opener h.closer
    (hC.elim fun e he => (h.arguments e he).composes_outline hC)

theorem Decorator.Derived.composes {d : Decorator} (h : d.Derived) (hC : ComposesBlocks C) :
    C [d.outline] := by
  refine hC.part (hC.word h.mark rfl (hC.cons (h.expression.composes_outline hC.toComposes) ?_))
  exact hC.append (hC.ofOption h.typeComment rfl) (hC.mark (.inl h.newline))

namespace Compound

def own : Compound → List Outline
  | stmt s => [s.outline]
  | body b => [b.outline]
  | elif c => [c.outline]
  | clause _ c => [c.outline]
  | handler c => [c.outline]

/-- The keyword of a clause is known where the clause stands. -/
def HasOrdinaryKeyword : Compound → Prop
  | clause kind _ => kind.isOrdinary = true
  | _ => True

theorem composes_clauses {kind : TokenKind} {o : Option BlockClause} (hC : ComposesBlocks C)
    (hordinary : kind.isOrdinary = true)
    (h : ∀ c, o = some c → (clause kind c).HasOrdinaryKeyword → C (clause kind c).own) :
    C (blockClausePieces o) := by
  rw [blockClausePieces_eq]
  exact hC.elim fun c hc => h c hc hordinary

theorem Derived.composes {c : Compound} (h : c.Derived) (hC : ComposesBlocks C)
    (hordinary : c.HasOrdinaryKeyword) : C c.own := by
  have hexpr {P : Phrase} {e : Expr} (he : Derives P (.expr e)) : C [e.outline] :=
    he.composes hC.toComposes
  induction h with
  | line hl => exact hl.composes_outline hC
  | ifElse hif hcondition hcolon hbody helifs horelse ihbody ihelifs ihorelse =>
    refine hC.node (.ifElse hif hcondition hcolon hbody helifs horelse) rfl rfl ?_
    simp only [Stmt.pieces, elifsPieces_eq, List.cons_append, List.nil_append]
    refine hC.word hif rfl (hC.cons (hexpr hcondition) (hC.word hcolon rfl ?_))
    refine hC.cons (ihbody trivial) ?_
    exact hC.append (hC.flatMap fun c hc => ihelifs c hc trivial) (composes_clauses hC rfl ihorelse)
  | whileLoop hwhile hcondition hcolon hbody horelse ihbody ihorelse =>
    refine hC.node (.whileLoop hwhile hcondition hcolon hbody horelse) rfl rfl ?_
    simp only [Stmt.pieces, List.cons_append, List.nil_append]
    refine hC.word hwhile rfl (hC.cons (hexpr hcondition) (hC.word hcolon rfl ?_))
    exact hC.cons (ihbody trivial) (composes_clauses hC rfl ihorelse)
  | forLoop hasync hfor htargets hin hsource hcolon hbody horelse ihbody ihorelse =>
    refine hC.node (.forLoop hasync hfor htargets hin hsource hcolon hbody horelse) rfl rfl ?_
    simp only [Stmt.pieces, List.cons_append, List.nil_append]
    refine hC.append (hC.ofOption hasync rfl) (hC.word hfor rfl (hC.cons (hexpr htargets) ?_))
    refine hC.word hin rfl (hC.cons (hexpr hsource) (hC.word hcolon rfl ?_))
    exact hC.cons (ihbody trivial) (composes_clauses hC rfl ihorelse)
  | tryBlock htry hcolon hbody hhandlers horelse hfinalizer hnone ihbody ihhandlers ihorelse
      ihfinalizer =>
    refine hC.node (.tryBlock htry hcolon hbody hhandlers horelse hfinalizer hnone) rfl rfl ?_
    simp only [Stmt.pieces, handlersPieces_eq, List.cons_append, List.nil_append]
    refine hC.word htry rfl (hC.word hcolon rfl (hC.cons (ihbody trivial) ?_))
    refine hC.append (hC.flatMap fun c hc => ihhandlers c hc trivial) ?_
    exact hC.append (composes_clauses hC rfl ihorelse) (composes_clauses hC rfl ihfinalizer)
  | withBlock hasync hwith hitems hcolon hbody ihbody =>
    refine hC.node (.withBlock hasync hwith hitems hcolon hbody) rfl rfl ?_
    rw [Stmt.pieces]
    refine hC.append (hC.ofOption hasync rfl) (hC.word hwith rfl (hC.append ?_ ?_))
    · exact hC.row rfl hitems fun _ hitem => hitem.composes hC.toComposes
    · exact hC.word hcolon rfl (ihbody trivial)
  | funcDef hdecorators hasync hkeyword hname hopener hparams hcloser hreturns hcolon hbody
      ihbody =>
    refine hC.node (.funcDef hdecorators hasync hkeyword hname hopener hparams hcloser hreturns
      hcolon hbody) rfl rfl ?_
    simp only [Stmt.pieces, List.cons_append, List.nil_append]
    refine hC.append (hC.map fun d hd => (hdecorators d hd).composes hC) ?_
    refine hC.append (hC.ofOption hasync rfl) (hC.word hkeyword rfl (hC.word hname rfl ?_))
    refine hC.bracketed (b := .paren) hopener hcloser ?_ (hC.append ?_ ?_)
    · exact hC.elim fun ps hps => (hparams ps hps).composes hC.toComposes
    · exact hC.optionPieces rfl hreturns fun _ he => hexpr he
    · exact hC.word hcolon rfl (ihbody trivial)
  | classDef hdecorators hkeyword hname harguments hcolon hbody ihbody =>
    refine hC.node (.classDef hdecorators hkeyword hname harguments hcolon hbody) rfl rfl ?_
    simp only [Stmt.pieces, List.cons_append, List.nil_append]
    refine hC.append (hC.map fun d hd => (hdecorators d hd).composes hC) ?_
    refine hC.word hkeyword rfl (hC.word hname rfl (hC.append ?_ ?_))
    · exact hC.elim fun a ha => (harguments a ha).composes hC.toComposes
    · exact hC.word hcolon rfl (ihbody trivial)
  | bodyLine hl =>
    rw [own, Body.outline]
    exact hl.composes_outline hC
  | block hcomment hnewline hindent hstatements hdedent ih =>
    refine hC.block hcomment hnewline hindent hdedent hstatements ?_
    rw [stmtsPieces_eq]
    exact hC.flatMap fun s hs => ih s hs trivial
  | elif hkeyword hcondition hcolon hbody ih =>
    rw [own, ElifClause.outline]
    refine hC.part (hC.word hkeyword rfl (hC.cons (hexpr hcondition) ?_))
    exact hC.word hcolon rfl (ih trivial)
  | clause hcolon hbody ih =>
    rw [own, BlockClause.outline]
    exact hC.part (hC.word rfl hordinary (hC.word hcolon rfl (ih trivial)))
  | handler hkeyword hcaught hcolon hbody ih =>
    rw [own, ExceptClause.outline]
    refine hC.part (hC.word hkeyword rfl (hC.append ?_ (hC.word hcolon rfl (ih trivial))))
    exact hC.elim fun caught h => (hcaught caught h).composes hC.toComposes

end Compound

/-- What is inside a block, for properties that hold of line breaks and markers on their own. -/
theorem Composes.block_pieces (hC : Composes C)
    (hmark : ∀ t : Token, t.kind.isStructural = true → C [.token t]) {typeComment : Option Token}
    {newline indent dedent : Token} {statements : List Stmt}
    (hcomment : ∀ t, typeComment = some t → t.kind = .typeComment)
    (hnewline : newline.kind = .newline) (hindent : indent.kind = .indent)
    (hdedent : dedent.kind = .dedent) (hstatements : C (stmtsPieces statements)) :
    C (Outline.ofOption typeComment ++
      .token newline :: .token indent :: (stmtsPieces statements ++ [.token dedent])) := by
  refine hC.append (hC.ofOption hcomment rfl) (hC.cons (hmark newline (by rw [hnewline]; rfl)) ?_)
  refine hC.cons (hmark indent (by rw [hindent]; rfl)) (hC.append hstatements ?_)
  exact hmark dedent (by rw [hdedent]; rfl)

end Compound

/-! ## Roots -/

section Roots

variable {C : List Outline → Prop}

theorem ComposesBlocks.ending (hC : ComposesBlocks C) {newlines : List Token} {last : Token}
    (hnewlines : ∀ t ∈ newlines, t.kind = .newline) (hlast : last.kind = .endOfFile) :
    C (newlines.map .token ++ [.token last]) :=
  hC.append (hC.map fun t ht => hC.mark (.inl (hnewlines t ht))) (hC.mark (.inr hlast))

theorem ModuleTree.Derived.composes {tree : ModuleTree} (h : tree.Derived)
    (hC : ComposesBlocks C) : C tree.pieces := by
  rw [ModuleTree.pieces, stmtsPieces_eq]
  refine hC.append (hC.flatMap fun s hs => ?_) (hC.mark (.inr h.endOfFile))
  exact (h.statements s hs).composes hC trivial

theorem ExpressionTree.Derived.composes {tree : ExpressionTree} (h : tree.Derived)
    (hC : ComposesBlocks C) : C tree.pieces :=
  hC.cons (h.body.composes_outline hC.toComposes) (hC.ending h.newlines h.endOfFile)

theorem SignatureTree.Derived.composes {tree : SignatureTree} (h : tree.Derived)
    (hC : ComposesBlocks C) : C tree.pieces := by
  rw [SignatureTree.pieces, exprOptionPieces_eq]
  refine hC.bracketed (b := .paren) h.opener h.closer (hC.elim fun e he => ?_) ?_
  · exact (h.argumentTypes e he).composes_outline hC.toComposes
  · refine hC.word h.arrow rfl (hC.cons (h.result.composes_outline hC.toComposes) ?_)
    exact hC.ending h.newlines h.endOfFile

end Roots

end Verbatim
