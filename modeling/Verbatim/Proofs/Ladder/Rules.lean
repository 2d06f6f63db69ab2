import Verbatim.Grammar.Expression
import Verbatim.Proofs.Grammar.Succeeds
import Verbatim.Proofs.Ladder.OnLadder

/-!
# The grammar on the ladder

One lemma for each rule of the expression grammar: if the operands of an expression are
accepted where they stand, the rule accepts the expression. Each rule decides by its first
token, by its operator and by the token after the expression, so these are what the lemmas
ask about.
-/

namespace Verbatim

open Verbatim.Parser Verbatim.Grammar
open Outline (tokensOf shapesOf)

theorem Grammar.comparisonChoice_eq_some {kind : TokenKind} {made : BinaryKind}
    (h : BinaryKind.comparison? kind = some made) (start : Nat) (operand : Parser Expr) :
    comparisonChoice start operand kind = some (operation start made operand) := by
  unfold comparisonChoice
  split
  · cases h
  · cases h
  · rw [h]
    rfl

namespace Level

/-- In front of any token that ends the level, the parser takes the tokens of the expression and
gives an expression of the same shape. -/
def Accepts (L : Level) (p : Parser Expr) (e : Expr) : Prop :=
  ∀ ⦃s : Stream⦄ ⦃next : Face⦄ ⦃rest : List Face⦄, s.Shows (e.faces ++ next :: rest) →
    L.Stops next.kind → Succeeds p s fun a u => u.Shows (next :: rest) ∧ a.shape = e.shape

def parser (rules : Rules) : Level → Parser Expr
  | test => Grammar.test rules
  | fold .or => orTest rules
  | fold .and => leftFold .and (notTest rules)
  | fold level => (FoldLevel.arithmetic.dropWhile (· ≠ level)).foldr leftFold (Grammar.factor rules)
  | not => notTest rules
  | comparison => comparisons (expr rules)
  | factor => Grammar.factor rules
  | power => Grammar.power rules
  | applied => appliedAtom rules
  | atom => Grammar.atom rules

def choice (L : Level) (start : Nat) (operand : Parser Expr) : Choice Operation :=
  match L with
  | fold level => fun kind => (level.operator? kind).map (operation start · operand)
  | comparison => comparisonChoice start operand
  | _ => fun _ => none

theorem parser_of_folds {L : Level} (h : L.folds = true) (rules : Rules) :
    L.parser rules = (do
      let start ← start
      let first ← L.tighter.parser rules
      let operations ← many (L.choice start (L.tighter.parser rules))
      return operations.foldl Operation.applyTo first) := by
  rcases L with _ | level | _ | _ | _ | _ | _ | _
  case fold => cases level <;> rfl
  case comparison => rfl
  all_goals cases h

theorem choice_eq_none {L : Level} {kind : TokenKind} (h : L.Stops kind) (start : Nat)
    (operand : Parser Expr) : L.choice start operand kind = none := by
  have hne := h.continues?_ne
  rcases L with _ | level | _ | _ | _ | _ | _ | _
  case fold =>
    cases hmade : level.operator? kind with
    | none => simp [choice, hmade]
    | some made => exact absurd (FoldLevel.continues?_of_operator? hmade) hne
  case comparison =>
    show comparisonChoice start operand kind = none
    unfold comparisonChoice
    split
    · exact absurd rfl hne
    · exact absurd rfl hne
    · cases hmade : BinaryKind.comparison? kind with
      | none => rfl
      | some made => exact absurd (BinaryKind.continues?_of_comparison? hmade) hne
  all_goals rfl

end Level

theorem Level.StartsWith.starts_current {L : Level} {faces more : List Face} {s : Stream}
    (h : L.StartsWith faces) (hs : s.Shows (faces ++ more)) : L.Starts s.current.kind := by
  obtain ⟨first, rest, rfl, hfirst⟩ := h
  rw [hs.kind]
  exact hfirst

theorem Level.StartsWith.kind_ne {L : Level} {faces more : List Face} {s : Stream}
    {kind : TokenKind} (h : L.StartsWith faces) (hs : s.Shows (faces ++ more))
    (hkind : ¬ L.Starts kind) : s.current.kind ≠ kind := by
  rintro rfl
  exact hkind (h.starts_current hs)

/-! ## Left folds -/

def Operation.Alike (a b : Operation) : Prop :=
  ∀ left left' : Expr, left'.shape = left.shape → (a.applyTo left').shape = (b.applyTo left).shape

section Operations

variable {L : Level} {operand : Parser Expr} {s : Stream} {span : Span} {right : Expr}
  {next : Face} {rest : List Face}

theorem succeeds_operation {kind : BinaryKind} {op : Token} (hright : L.Accepts operand right)
    (hs : s.Shows (op.face :: (right.faces ++ next :: rest))) (hstop : L.Stops next.kind)
    (start : Nat) :
    Succeeds (operation start kind operand) s fun a u =>
      u.Shows (next :: rest) ∧ a.Alike (.binary span kind op right) := by
  apply Succeeds.bump hs (by simp)
  intro op' u hop hu
  apply Succeeds.bind (hright hu hstop)
  rintro right' v ⟨hv, hshape⟩
  apply Succeeds.spanFrom
  intro span'
  refine .pure ⟨hv, ?_⟩
  intro left left' hleft
  simp only [Operation.applyTo, Expr.shape_binary, hleft, hop, hshape]

theorem succeeds_notIn {first second : Token} (hright : L.Accepts operand right)
    (hs : s.Shows (first.face :: second.face :: (right.faces ++ next :: rest)))
    (hsecond : second.kind = .kwIn) (hstop : L.Stops next.kind) (start : Nat) :
    Succeeds (notIn start operand) s fun a u =>
      u.Shows (next :: rest) ∧ a.Alike (.compound span .notIn first second right) := by
  apply Succeeds.bump hs (by simp)
  intro first' u hfirst hu
  apply Succeeds.expect hu hsecond (by simp)
  intro second' v hsecond' hv
  apply Succeeds.bind (hright hv hstop)
  rintro right' w ⟨hw, hshape⟩
  apply Succeeds.spanFrom
  intro span'
  refine .pure ⟨hw, ?_⟩
  intro left left' hleft
  simp only [Operation.applyTo, Expr.shape_compound, hleft, hfirst, hsecond', hshape]

theorem succeeds_isNot {first second : Token} (hright : L.Accepts operand right)
    (hs : s.Shows (first.face :: second.face :: (right.faces ++ next :: rest)))
    (hsecond : second.kind = .kwNot) (hstop : L.Stops next.kind) (start : Nat) :
    Succeeds (isOrIsNot start operand) s fun a u =>
      u.Shows (next :: rest) ∧ a.Alike (.compound span .isNot first second right) := by
  apply Succeeds.bump hs (by simp)
  intro first' u hfirst hu
  apply Succeeds.eat hu hsecond (by simp)
  intro second' v hsecond' hv
  apply Succeeds.bind (hright hv hstop)
  rintro right' w ⟨hw, hshape⟩
  apply Succeeds.spanFrom
  intro span'
  refine .pure ⟨hw, ?_⟩
  intro left left' hleft
  simp only [Operation.applyTo, Expr.shape_compound, hleft, hfirst, hsecond', hshape]

/-- The operand of `is` does not begin with `not`, which would belong to the operator. -/
theorem succeeds_is {op : Token} (hright : L.Accepts operand right)
    (hstarts : L.StartsWith right.faces) (hnot : ¬ L.Starts .kwNot)
    (hs : s.Shows (op.face :: (right.faces ++ next :: rest))) (hstop : L.Stops next.kind)
    (start : Nat) :
    Succeeds (isOrIsNot start operand) s fun a u =>
      u.Shows (next :: rest) ∧ a.Alike (.binary span .isSame op right) := by
  apply Succeeds.bump hs (by simp)
  intro op' u hop hu
  apply Succeeds.eatNone (hstarts.kind_ne hu hnot)
  apply Succeeds.bind (hright hu hstop)
  rintro right' v ⟨hv, hshape⟩
  apply Succeeds.spanFrom
  intro span'
  refine .pure ⟨hv, ?_⟩
  intro left left' hleft
  simp only [Operation.applyTo, Expr.shape_binary, hleft, hop, hshape]

/-- An operation of a level is chosen by its first token and goes to the end of its operand. -/
theorem Level.Admits.succeeds {o : Operation} (h : L.Admits o)
    (hright : L.tighter.Accepts operand o.right) (hstarts : L.tighter.StartsWith o.right.faces)
    (hs : s.Shows (o.faces ++ next :: rest)) (hstop : L.tighter.Stops next.kind) (start : Nat) :
    ∃ part, L.choice start operand s.current.kind = some part ∧
      Succeeds part s fun a u => u.Shows (next :: rest) ∧ a.Alike o := by
  have hkind : ∀ {t : Token} {faces : List Face}, s.Shows (t.face :: faces) →
      s.current.kind = t.kind := fun hs => hs.kind
  cases h with
  | operator h =>
    refine ⟨_, ?_, succeeds_operation hright hs hstop start⟩
    rw [hkind hs]
    exact congrArg (Option.map _) h
  | comparison h =>
    refine ⟨_, ?_, succeeds_operation hright hs hstop start⟩
    rw [hkind hs]
    exact comparisonChoice_eq_some h start operand
  | same h =>
    refine ⟨_, ?_, succeeds_is hright hstarts ?_ hs hstop start⟩
    · rw [hkind hs, h]
      rfl
    · exact Level.not_starts rfl (by decide)
  | notIn h h' =>
    refine ⟨_, ?_, succeeds_notIn hright hs h' hstop start⟩
    rw [hkind hs, h]
    rfl
  | isNot h h' =>
    refine ⟨_, ?_, succeeds_isNot hright hs h' hstop start⟩
    rw [hkind hs, h]
    rfl

end Operations

/-- As `Accepts`, for a left fold that is stopped by tokens of its operand's level only: the
parser takes the first operand and then a chain of operations. -/
def Level.Gathers (L : Level) (operand : Parser Expr) (e : Expr) : Prop :=
  ∀ ⦃s : Stream⦄ ⦃next : Face⦄ ⦃rest : List Face⦄ (start : Nat),
    s.Shows (e.faces ++ next :: rest) → L.tighter.Stops next.kind →
    Succeeds operand s fun first u => ∃ operations v,
      Chain (L.choice start operand) u operations v ∧ v.Shows (next :: rest) ∧
        (operations.foldl Operation.applyTo first).shape = e.shape

namespace Level

variable {L : Level} {operand : Parser Expr} {e : Expr}

theorem gathers_of_accepts (h : L.tighter.Accepts operand e) : L.Gathers operand e := by
  intro s next rest start hs hstop
  refine (h hs hstop).mono ?_
  rintro first u ⟨hu, hshape⟩
  exact ⟨[], u, .nil, hu, hshape⟩

theorem Gathers.snoc {left : Expr} {o : Operation} (h : L.Gathers operand left)
    (ho : L.Admits o) (hright : L.tighter.Accepts operand o.right)
    (hstarts : L.tighter.StartsWith o.right.faces) : L.Gathers operand (o.applyTo left) := by
  intro s next rest start hs hstop
  -- the left part stops at the operator, which goes on with this level and no tighter one
  obtain ⟨face, more, hfaces, hface⟩ := ho.faces_eq
  have hrank : L.rank < L.tighter.rank := rank_lt_tighter ho.ne_atom
  rw [Operation.faces_applyTo, hfaces, List.append_assoc] at hs
  refine (h start hs (stops_of_continues?_eq_some hface hrank)).mono ?_
  rintro first u ⟨operations, v, hchain, hv, hshape⟩
  have hv : v.Shows (o.faces ++ next :: rest) := by
    rw [hfaces]
    exact hv
  obtain ⟨part, hpart, a, w, ha, hw, halike⟩ := ho.succeeds hright hstarts hv hstop start
  -- the loop has as many turns as there are tokens left
  have hshorter : w.tokens.length < v.tokens.length := by
    rw [hv.length_tokens, hw.length_tokens, hfaces]
    simp only [List.length_append, List.length_cons]
    omega
  refine ⟨operations ++ [a], w, hchain.snoc hpart ha hshorter, hw, ?_⟩
  rw [List.foldl_append]
  exact halike _ _ hshape

theorem Gathers.accepts {rules : Rules} (h : L.Gathers (L.tighter.parser rules) e)
    (hfolds : L.folds = true) : L.Accepts (L.parser rules) e := by
  intro s next rest hs hstop
  rw [parser_of_folds hfolds]
  apply Succeeds.start
  apply Succeeds.bind (h s.current.span.start hs hstop.tighter)
  rintro first u ⟨operations, v, hchain, hv, hshape⟩
  refine .many hchain ?_ (.pure ⟨hv, hshape⟩)
  rw [hv.kind]
  exact choice_eq_none hstop _ _

end Level

/-! ## Atoms -/

section Atoms

variable {rules : Rules} {s : Stream} {next : Face} {rest : List Face}

theorem accepts_leaf {kind : LeafKind} {token : Token}
    (h : LeafKind.ofToken? token.kind = some kind) :
    Level.atom.Accepts (atom rules) (.leaf kind token) := by
  intro s next rest hs _
  rw [Expr.faces_leaf] at hs
  apply Succeeds.peek
  rw [hs.kind, Token.face_kind]
  split
  case h_5 =>
    rw [h]
    apply Succeeds.bump hs (by simp)
    intro token' u htoken hu
    refine .pure ⟨hu, ?_⟩
    rw [Expr.shape_leaf, Expr.shape_leaf, htoken]
  all_goals
    rename_i hbracket
    rw [hbracket] at h
    cases h

/-- The body of a group is parsed as a list of one element, which stands for itself. -/
theorem succeeds_parenBody {body : Expr} (hbody : Level.test.Accepts (rules .test) body)
    (hstarts : Level.test.StartsWith body.faces) (hnext : next.kind = .rightParen)
    (hs : s.Shows (body.faces ++ next :: rest)) :
    Succeeds (parenBody rules) s fun a u => u.Shows (next :: rest) ∧ a.shape = body.shape := by
  have hne : ∀ kind : TokenKind, kind.begins? = none → s.current.kind ≠ kind := fun kind hkind =>
    hstarts.kind_ne hs (Level.not_starts_of_begins?_eq_none hkind .test)
  have hnamed : Succeeds (namedOrStar rules) s fun a u =>
      u.Shows (next :: rest) ∧ a.shape = body.shape := by
    apply Succeeds.ifNotAt (hne .star rfl)
    apply Succeeds.start
    refine .bind (hbody hs ?_) ?_
    · rw [hnext]
      exact Level.stops_of_continues?_eq_none rfl .test
    · rintro a u ⟨hu, hshape⟩
      exact .ifNotAt (by rw [hu.kind, hnext]; decide) (.pure ⟨hu, hshape⟩)
  apply Succeeds.ifNotAt (hne .kwYield rfl)
  apply Succeeds.start
  apply Succeeds.bind hnamed
  rintro a u ⟨hu, hshape⟩
  have hkind : u.current.kind = .rightParen := hu.kind.trans hnext
  apply Succeeds.peek
  rw [if_neg (by rw [hkind]; decide)]
  exact .separatedFromNone (by rw [hkind]; decide) (.pure ⟨hu, hshape⟩)

theorem accepts_group {span : Span} {opener closer : Token} {body : Expr}
    (hopener : opener.kind = .leftParen) (hbody : Level.test.Accepts (rules .test) body)
    (hstarts : Level.test.StartsWith body.faces) (hcloser : closer.kind = .rightParen) :
    Level.atom.Accepts (atom rules) (.display span .tuple opener (some body) closer) := by
  intro s next rest hs _
  simp only [Expr.faces_display, List.cons_append, List.append_assoc, List.nil_append] at hs
  have hbracketed : Succeeds (bracketed .rightParen (parenBody rules)) s fun r u =>
      u.Shows (next :: rest) ∧ ∃ opener' body' closer', r = (opener', some body', closer') ∧
        opener'.face = opener.face ∧ body'.shape = body.shape ∧
        closer'.face = closer.face := by
    apply Succeeds.bump hs (by simp)
    intro opener' u hopener' hu
    have hne : u.current.kind ≠ .rightParen :=
      hstarts.kind_ne hu (Level.not_starts_of_begins?_eq_none rfl .test)
    refine .optional (if_pos (by simpa using hne))
      (succeeds_parenBody hbody hstarts hcloser hu) ?_
    rintro body' v ⟨hv, hbody'⟩
    apply Succeeds.expect hv hcloser (by simp)
    intro closer' w hcloser' hw
    refine .pure ⟨hw, ?_⟩
    exact ⟨opener', body', closer', rfl, hopener', hbody', hcloser'⟩
  apply Succeeds.peek
  rw [hs.kind, Token.face_kind, hopener]
  apply Succeeds.start
  apply Succeeds.bind hbracketed
  rintro _ u ⟨hu, opener', body', closer', rfl, hopener', hbody', hcloser'⟩
  apply Succeeds.spanFrom
  intro span'
  refine .pure ⟨hu, ?_⟩
  rw [Expr.shape_display, Expr.shape_display, hopener', hbody', hcloser']

/-! ## Applied atoms -/

theorem succeeds_member (span : Span) {dot name : Token} {faces : List Face}
    (hname : name.kind = .name) (hs : s.Shows (dot.face :: name.face :: faces))
    (hne : faces ≠ []) :
    Succeeds member s fun a u =>
      u.Shows faces ∧ a.outline.shape = (Trailer.member span dot name).outline.shape := by
  apply Succeeds.start
  apply Succeeds.bump hs (by simp)
  intro dot' u hdot hu
  apply Succeeds.expect hu hname hne
  intro name' v hname' hv
  apply Succeeds.spanFrom
  intro span'
  refine .pure ⟨hv, ?_⟩
  show Shape.node _ [.token dot'.face, .token name'.face] =
    .node _ [.token dot.face, .token name.face]
  rw [hdot, hname']
  rfl

theorem chain_members (rules : Rules) {trailers : List Trailer} (h : ∀ t ∈ trailers, t.IsMember)
    (hs : s.Shows ((tokensOf (trailersPieces trailers)).map Token.face ++ next :: rest)) :
    ∃ trailers' u, Chain (trailerChoice rules) s trailers' u ∧ u.Shows (next :: rest) ∧
      shapesOf (trailersPieces trailers') = shapesOf (trailersPieces trailers) ∧
      trailers'.length = trailers.length := by
  induction trailers generalizing s with
  | nil => exact ⟨[], s, .nil, hs, rfl, rfl⟩
  | cons t ts ih =>
    obtain ⟨ht, hts⟩ := List.forall_mem_cons.mp h
    cases ht with
    | @member span dot name hdot hname =>
      have hs : s.Shows (dot.face :: name.face ::
          ((tokensOf (trailersPieces ts)).map Token.face ++ next :: rest)) := hs
      obtain ⟨a, u, ha, hu, hshape⟩ := succeeds_member span hname hs (by simp)
      obtain ⟨trailers', v, hchain, hv, hshapes, hlength⟩ := ih hts hu
      have hchoice : trailerChoice rules s.current.kind = some member := by
        rw [hs.kind, Token.face_kind, hdot]
        rfl
      have hshorter : u.tokens.length < s.tokens.length := by
        rw [hs.length_tokens, hu.length_tokens]
        simp only [List.length_cons]
        omega
      refine ⟨a :: trailers', v, .cons hchoice ha hshorter hchain, hv, ?_, ?_⟩
      · show a.outline.shape :: _ = _ :: _
        rw [hshape, hshapes]
        rfl
      · rw [List.length_cons, hlength, List.length_cons]

theorem trailerChoice_eq_none {kind : TokenKind} (h : Level.applied.Stops kind) :
    trailerChoice rules kind = none := by
  have hne := h.continues?_ne
  unfold trailerChoice
  split
  case h_4 => rfl
  all_goals exact absurd rfl hne

/-- An atom ends before a trailer, and before any token that ends what is applied to it. -/
theorem atom_stops (rest : List Face) {trailers : List Trailer} (h : ∀ t ∈ trailers, t.IsMember)
    (hstop : Level.applied.Stops next.kind) :
    ∃ face more, (tokensOf (trailersPieces trailers)).map Token.face ++ next :: rest =
      face :: more ∧ Level.atom.Stops face.kind := by
  cases trailers with
  | nil => exact ⟨next, rest, rfl, hstop.tighter⟩
  | cons t ts =>
    cases h t List.mem_cons_self with
    | member hdot hname =>
      refine ⟨_, _, rfl, Level.stops_of_continues?_eq_some (L := .applied) ?_ (by decide)⟩
      rw [Token.face_kind, hdot]
      rfl

/-- An atom with what is applied to it, from the atom on. -/
theorem succeeds_applied {await await' : Option Token} {span : Span} {start : Nat} {atom : Expr}
    {trailers : List Trailer} (hawait : await'.toList.map Token.face = await.toList.map Token.face)
    (hatom : Level.atom.Accepts (Grammar.atom rules) atom) (htrailers : ∀ t ∈ trailers, t.IsMember)
    (hsome : await = none → trailers ≠ [])
    (hs : s.Shows (atom.faces ++
      ((tokensOf (trailersPieces trailers)).map Token.face ++ next :: rest)))
    (hstop : Level.applied.Stops next.kind) :
    Succeeds (do
      let atom ← Grammar.atom rules
      let trailers ← many (trailerChoice rules)
      if await'.isNone && trailers.isEmpty then return atom
      else return .applied (← spanFrom start) await' atom trailers) s fun a u =>
        u.Shows (next :: rest) ∧ a.shape = (Expr.applied span await atom trailers).shape := by
  obtain ⟨face, more, hfaces, hface⟩ := atom_stops rest htrailers hstop
  rw [hfaces] at hs
  apply Succeeds.bind (hatom hs hface)
  rintro atom' u ⟨hu, hatom'⟩
  rw [← hfaces] at hu
  obtain ⟨trailers', v, hchain, hv, hshapes, hlength⟩ := chain_members rules htrailers hu
  refine .many hchain (by rw [hv.kind]; exact trailerChoice_eq_none hstop) ?_
  -- with nothing applied to it, the rule would give the atom itself
  have hbare : ¬ (await'.isNone && trailers'.isEmpty) = true := by
    rw [Bool.and_eq_true, Option.isNone_iff_eq_none, List.isEmpty_iff]
    rintro ⟨rfl, rfl⟩
    cases await with
    | none => exact hsome rfl (List.eq_nil_of_length_eq_zero hlength.symm)
    | some t => cases hawait
  rw [if_neg hbare]
  apply Succeeds.spanFrom
  intro span'
  refine .pure ⟨hv, ?_⟩
  rw [Expr.shape_applied, Expr.shape_applied, hawait, hatom', hshapes]

theorem accepts_applied {await : Option Token} {span : Span} {atom : Expr}
    {trailers : List Trailer} (hawait : ∀ t, await = some t → t.kind = .kwAwait)
    (hatom : Level.atom.Accepts (Grammar.atom rules) atom)
    (hstarts : Level.atom.StartsWith atom.faces) (htrailers : ∀ t ∈ trailers, t.IsMember)
    (hsome : await = none → trailers ≠ []) :
    Level.applied.Accepts (appliedAtom rules) (.applied span await atom trailers) := by
  intro s next rest hs hstop
  rw [Expr.faces_applied] at hs
  cases await with
  | none =>
    simp only [Option.toList_none, List.map_nil, List.nil_append, List.append_assoc] at hs
    apply Succeeds.start
    apply Succeeds.eatNone (hstarts.kind_ne hs (Level.not_starts rfl (by decide)))
    exact succeeds_applied rfl hatom htrailers hsome hs hstop
  | some t =>
    simp only [Option.toList_some, List.map_cons, List.map_nil, List.cons_append,
      List.nil_append, List.append_assoc] at hs
    have hne : atom.faces ++ ((tokensOf (trailersPieces trailers)).map Token.face ++
        next :: rest) ≠ [] := by simp
    apply Succeeds.start
    apply Succeeds.eat hs (hawait t rfl) hne
    intro t' u ht hu
    exact succeeds_applied (congrArg (fun face => [face]) ht) hatom htrailers hsome hu hstop

end Atoms

/-! ## Powers and signs -/

section Operators

variable {rules : Rules} {span : Span}

theorem accepts_power {base exponent : Expr} {op : Token}
    (hbase : Level.applied.Accepts (appliedAtom rules) base) (hop : op.kind = .doubleStar)
    (hexponent : Level.factor.Accepts (rules .factor) exponent) :
    Level.power.Accepts (power rules) (.binary span .power base op exponent) := by
  intro s next rest hs hstop
  simp only [Expr.faces_binary, List.cons_append, List.append_assoc] at hs
  have hstop' : Level.applied.Stops op.face.kind := by
    rw [Token.face_kind, hop]
    exact Level.stops_of_continues?_eq_some rfl (by decide)
  apply Succeeds.start
  apply Succeeds.bind (hbase hs hstop')
  rintro base' u ⟨hu, hbase'⟩
  apply Succeeds.eat hu hop (by simp)
  intro op' v hop' hv
  apply Succeeds.bind (hexponent hv hstop.factor_of_power)
  rintro exponent' w ⟨hw, hexponent'⟩
  apply Succeeds.spanFrom
  intro span'
  refine .pure ⟨hw, ?_⟩
  rw [Expr.shape_binary, Expr.shape_binary, hbase', hop', hexponent']

/-- An operator before its operand, which stands at the same level. -/
theorem accepts_prefixed {L : Level} {p : Parser Expr} {kind : UnaryKind} {op : Token}
    {operand : Expr} {s : Stream} {next : Face} {rest : List Face}
    (hoperand : L.Accepts p operand)
    (hs : s.Shows ((Expr.unary span kind op operand).faces ++ next :: rest))
    (hstop : L.Stops next.kind) :
    Succeeds (prefixed kind p) s fun a u =>
      u.Shows (next :: rest) ∧ a.shape = (Expr.unary span kind op operand).shape := by
  rw [Expr.faces_unary, List.cons_append] at hs
  apply Succeeds.start
  apply Succeeds.bump hs (by simp)
  intro op' u hop hu
  apply Succeeds.bind (hoperand hu hstop)
  rintro operand' v ⟨hv, hshape⟩
  apply Succeeds.spanFrom
  intro span'
  refine .pure ⟨hv, ?_⟩
  rw [Expr.shape_unary, Expr.shape_unary, hop, hshape]

theorem accepts_sign {kind : UnaryKind} {op : Token} {operand : Expr}
    (hop : UnaryKind.sign? op.kind = some kind)
    (hoperand : Level.factor.Accepts (rules .factor) operand) :
    Level.factor.Accepts (factor rules) (.unary span kind op operand) := by
  intro s next rest hs hstop
  have hkind : s.current.kind = op.kind := by
    rw [Expr.faces_unary] at hs
    exact hs.kind
  apply Succeeds.peek
  rw [hkind, hop]
  exact accepts_prefixed hoperand hs hstop

theorem accepts_not {op : Token} {operand : Expr} (hop : op.kind = .kwNot)
    (hoperand : Level.not.Accepts (rules .notTest) operand) :
    Level.not.Accepts (notTest rules) (.unary span .not op operand) := by
  intro s next rest hs hstop
  have hkind : s.current.kind = op.kind := by
    rw [Expr.faces_unary] at hs
    exact hs.kind
  exact .ifAt (hkind.trans hop) (accepts_prefixed hoperand hs hstop)

/-! ## Conditionals and lambdas -/

theorem accepts_conditional {body condition alternative : Expr} {ifToken elseToken : Token}
    (hbody : (Level.fold .or).Accepts (orTest rules) body)
    (hstarts : (Level.fold .or).StartsWith body.faces) (hif : ifToken.kind = .kwIf)
    (hcondition : (Level.fold .or).Accepts (orTest rules) condition)
    (helse : elseToken.kind = .kwElse)
    (halternative : Level.test.Accepts (rules .test) alternative) :
    Level.test.Accepts (test rules)
      (.conditional span body ifToken condition elseToken alternative) := by
  intro s next rest hs hstop
  simp only [Expr.faces_conditional, List.cons_append, List.append_assoc] at hs
  have hbody_stop : (Level.fold .or).Stops ifToken.face.kind := by
    rw [Token.face_kind, hif]
    exact Level.stops_of_continues?_eq_some rfl (by decide)
  have hcondition_stop : (Level.fold .or).Stops elseToken.face.kind := by
    rw [Token.face_kind, helse]
    exact Level.stops_of_continues?_eq_none rfl _
  apply Succeeds.ifNotAt (hstarts.kind_ne hs (Level.not_starts rfl (by decide)))
  apply Succeeds.start
  apply Succeeds.bind (hbody hs hbody_stop)
  rintro body' u ⟨hu, hbody'⟩
  apply Succeeds.eat hu hif (by simp)
  intro ifToken' v hif' hv
  apply Succeeds.bind (hcondition hv hcondition_stop)
  rintro condition' w ⟨hw, hcondition'⟩
  apply Succeeds.expect hw helse (by simp)
  intro elseToken' x helse' hx
  apply Succeeds.bind (halternative hx hstop)
  rintro alternative' y ⟨hy, halternative'⟩
  apply Succeeds.spanFrom
  intro span'
  refine .pure ⟨hy, ?_⟩
  rw [Expr.shape_conditional, Expr.shape_conditional, hbody', hif', hcondition', helse',
    halternative']

theorem accepts_lambda {keyword colon : Token} {body : Expr} (hkeyword : keyword.kind = .kwLambda)
    (hcolon : colon.kind = .colon) (hbody : Level.test.Accepts (rules .test) body) :
    Level.test.Accepts (test rules) (.lambda span keyword none colon body) := by
  intro s next rest hs hstop
  simp only [Expr.faces_lambda_none, List.cons_append] at hs
  apply Succeeds.ifAt (hs.kind.trans hkeyword)
  apply Succeeds.start
  apply Succeeds.bump hs (by simp)
  intro keyword' u hkeyword' hu
  apply Succeeds.optionalNone (if_neg (by simp [hu.kind, hcolon]))
  apply Succeeds.expect hu hcolon (by simp)
  intro colon' v hcolon' hv
  apply Succeeds.bind (hbody hv hstop)
  rintro body' w ⟨hw, hbody'⟩
  apply Succeeds.spanFrom
  intro span'
  refine .pure ⟨hw, ?_⟩
  rw [Expr.shape_lambda_none, Expr.shape_lambda_none, hkeyword', hcolon', hbody']

end Operators

/-! ## Going on to the next level -/

/-- An operand without an operator of the level after it is all that the rule takes. -/
theorem Level.Accepts.eatNone {L : Level} {p : Parser Expr} {e : Expr} {kind : TokenKind}
    {f : Expr → Option Token → Parser Expr} {s : Stream} {next : Face} {rest : List Face}
    (h : L.tighter.Accepts p e) (hkind : kind.continues? = some L)
    (hf : ∀ a, f a none = pure a) (hs : s.Shows (e.faces ++ next :: rest))
    (hstop : L.Stops next.kind) :
    Succeeds (p >>= fun a => eat kind >>= f a) s fun a u =>
      u.Shows (next :: rest) ∧ a.shape = e.shape := by
  apply Succeeds.bind (h hs hstop.tighter)
  rintro a u ⟨hu, hshape⟩
  have hne : u.current.kind ≠ kind := by
    rw [hu.kind]
    exact hstop.kind_ne hkind
  apply Succeeds.eatNone hne
  rw [hf]
  exact .pure ⟨hu, hshape⟩

/-- An expression of a tighter level is accepted too: its first token does not ask for anything
that only the looser level has, and neither does the token after it. -/
theorem Level.Accepts.loosen {rules : Rules} {L : Level} {e : Expr}
    (h : L.tighter.Accepts (L.tighter.parser rules) e) (hstarts : L.tighter.StartsWith e.faces) :
    L.Accepts (L.parser rules) e := by
  rcases L with _ | level | _ | _ | _ | _ | _ | _
  case test =>
    intro s next rest hs hstop
    apply Succeeds.ifNotAt (hstarts.kind_ne hs (Level.not_starts rfl (by decide)))
    apply Succeeds.start
    exact h.eatNone rfl (fun _ => rfl) hs hstop
  case fold => exact Gathers.accepts (gathers_of_accepts h) rfl
  case not =>
    intro s next rest hs hstop
    exact .ifNotAt (hstarts.kind_ne hs (Level.not_starts rfl (by decide))) (h hs hstop.tighter)
  case comparison => exact Gathers.accepts (gathers_of_accepts h) rfl
  case factor =>
    intro s next rest hs hstop
    apply Succeeds.peek
    cases hsign : UnaryKind.sign? s.current.kind with
    | none => exact h hs hstop.tighter
    | some kind =>
      have hnot := Level.not_starts (L := .power) (UnaryKind.begins?_of_sign? hsign) (by decide)
      exact absurd (hstarts.starts_current hs) hnot
  case power =>
    intro s next rest hs hstop
    apply Succeeds.start
    exact h.eatNone rfl (fun _ => rfl) hs hstop
  case applied =>
    intro s next rest hs hstop
    apply Succeeds.start
    apply Succeeds.eatNone (hstarts.kind_ne hs (Level.not_starts rfl (by decide)))
    apply Succeeds.bind (h hs hstop.tighter)
    rintro a u ⟨hu, hshape⟩
    refine .many .nil ?_ (.pure ⟨hu, hshape⟩)
    rw [hu.kind]
    exact trailerChoice_eq_none hstop
  case atom => exact h

end Verbatim
