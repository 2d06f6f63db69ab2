import Verbatim.Proofs.Braces.Plain

/-!
# Displays in braces

The first element in a pair of braces decides between a dictionary and a set, and every other
element is then parsed as one of the same display. Entries of dictionaries stand nowhere else.
-/

namespace Verbatim

open Grammar (isDictEntry isUnpacking)
open Outline (Descends eventsOf)

/-! ## Bodies -/

namespace Expr

/-- What the braces of a dictionary have inside, unless they are empty. -/
inductive IsDictionaryBody : Expr → Prop
  | entry {e : Expr} (h : isDictEntry e = true) : IsDictionaryBody e
  | unpacking {e : Expr} (h : isUnpacking e = true) : IsDictionaryBody e
  | comprehension {span : Span} {element : Expr} {clause : Clause}
      (h : isDictEntry element = true) : IsDictionaryBody (.comprehension span element clause)
  | elements {span : Span} {items : Separated Expr} {trailing : Option Token}
      (h : ∀ e ∈ items.items, e.isDictElement = true) :
      IsDictionaryBody (.sequence span .dictMaker items trailing)

/-- What the braces of a set have inside is none of what a dictionary may have there. -/
structure IsSetBody (e : Expr) : Prop where
  single : e.isDictElement = false
  comprehension : ∀ span element clause, e = .comprehension span element clause →
    element.isDictElement = false
  elements : ∀ span kind items trailing, e = .sequence span kind items trailing →
    kind ≠ .dictMaker ∧ (kind = .setMaker → ∀ x ∈ items.items, x.isDictElement = false)

/-- A dictionary may be empty, but a set is not. -/
def Homogeneous : Expr → Prop
  | .display _ .dictionary _ body _ => ∀ b, body = some b → b.IsDictionaryBody
  | .display _ .set _ body _ => ∃ b, body = some b ∧ b.IsSetBody
  | _ => True

end Expr

theorem Derives.isDictionaryBody {e : Expr} (h : Derives (.inside .dictionary) (.expr e)) :
    e.IsDictionaryBody := by
  cases h with
  | lambda h => rcases h with h | h <;> cases h
  | unit h hn =>
    cases h
    cases hn.listForm with
    | single h =>
      rcases Bool.or_eq_true_iff.mp h.isDictElement with h | h
      · exact .entry h
      · exact .unpacking h
    | comprehension helement hentry =>
      have hor := helement.isDictElement
      rw [Expr.isDictElement, hentry rfl, Bool.or_false] at hor
      exact .comprehension hor
    | sequence hitems => exact .elements fun e he => (hitems e he).isDictElement

/-- An element of a set can be an operand or has a star before it. -/
theorem Derives.level?_or_starred {e : Expr} (h : Derives .setElement (.expr e)) :
    (∃ L, e.level? = some L) ∨ ∃ span op operand, e = .unary span .star op operand := by
  cases h with
  | lambda h => rcases h with h | h <;> cases h
  | unit h hn =>
    cases h with
    | element =>
      obtain ⟨L, hL, -⟩ := hn.within
      exact .inl ⟨L, hL⟩
    | elementStar =>
      cases hn with
      | unit h => cases h
      | starred => exact .inr ⟨_, _, _, rfl⟩
      | lambda h => rcases h with h | h <;> cases h

theorem Derives.isSetBody_of_element {e : Expr} (h : Derives .setElement (.expr e)) :
    e.IsSetBody := by
  refine ⟨Grammar.plain_of_setElement h, ?_, ?_⟩
  · rintro span element clause rfl
    rcases h.level?_or_starred with ⟨L, ⟨⟩⟩ | ⟨_, _, _, ⟨⟩⟩
  · rintro span kind items trailing rfl
    rcases h.level?_or_starred with ⟨L, ⟨⟩⟩ | ⟨_, _, _, ⟨⟩⟩

theorem Derives.isSetBody {e : Expr} (h : Derives (.inside .set) (.expr e)) : e.IsSetBody := by
  cases h with
  | lambda h => rcases h with h | h <;> cases h
  | unit h hn =>
    cases h
    cases hn.listForm with
    | single h => exact h.isSetBody_of_element
    | comprehension helement =>
      refine ⟨rfl, ?_, ?_⟩
      · rintro _ _ _ ⟨⟩
        exact Grammar.plain_of_setElement helement
      · rintro _ _ _ _ ⟨⟩
    | sequence hitems =>
      refine ⟨rfl, ?_, ?_⟩
      · rintro _ _ _ ⟨⟩
      · rintro _ _ _ _ ⟨⟩
        exact ⟨by simp, fun _ x hx => Grammar.plain_of_setElement (hitems x hx)⟩

theorem Derives.homogeneous {P : Phrase} {e : Expr} (h : Derives P (.expr e)) :
    e.Homogeneous := by
  generalize hn : Node.expr e = n at h
  induction h generalizing e with
  | unit _ _ ih => exact ih hn
  | @display _ kind _ _ body _ _ hbody hset =>
    cases hn
    cases kind with
    | dictionary => exact fun b hb => (hbody b hb).isDictionaryBody
    | set =>
      obtain ⟨b, hb⟩ := Option.isSome_iff_exists.mp (hset rfl)
      exact ⟨b, hb, (hbody b hb).isSetBody⟩
    | _ => trivial
  | _ =>
    cases hn
    all_goals trivial

/-! ## Entries -/

/-- The nodes above an entry end in a dictionary that has the entry as its body, or in one with its
body below it where the body gathers the entry. -/
inductive Expr.EntryPlace (e : Expr) : List Node → Prop
  | body {above : List Node} {span : Span} {opener closer : Token} :
      EntryPlace e (above ++ [.expr (.display span .dictionary opener (some e) closer)])
  | element {above : List Node} {span : Span} {opener closer : Token} {b : Expr}
      (h : b.Gathers e) :
      EntryPlace e (above ++ [.expr (.display span .dictionary opener (some b) closer), .expr b])

namespace Outline

/-- Wherever an expression stands right inside a node, it may stand there. -/
def Seated (pieces : List Outline) : Prop :=
  ∀ path n e, Descends pieces (path ++ [n, .expr e]) → n.Seats e

end Outline

/-- A block has statements right inside of it, and no expression. -/
theorem Parses.seated {options : Options} {t : Text} {span : Span} {pieces : List Outline}
    (h : Parses options t span pieces) : Outline.Seated pieces := by
  have hlinked : Outline.Linked (fun n m => ∀ e, m = .expr e → n.Seats e) pieces := by
    refine h.linked ?_ ?_
    · rintro n hn _ he e rfl
      exact hn.seats he
    · intro span statements
      simp [stmtsPieces_eq]
  exact fun path n e hpath => hlinked path n _ hpath e rfl

/-- What is parsed as a whole is no entry. -/
theorem Parses.plain {options : Options} {t : Text} {span : Span} {pieces : List Outline}
    (h : Parses options t span pieces) : Outline.Plain pieces := by
  cases h with
  | module => simp [ModuleTree.pieces, stmtsPieces_eq]
  | @expression tree h =>
    obtain ⟨s, u, -, hroot⟩ := parseWith_eq_ok h
    have hderived := Grammar.expressionRoot_returns tree u hroot
    simp [ExpressionTree.pieces, hderived.body.plain rfl]
  | @signature tree h =>
    obtain ⟨s, u, -, hroot⟩ := parseWith_eq_ok h
    have hderived := Grammar.signatureRoot_returns tree u hroot
    have htypes e he := (hderived.argumentTypes e he).plain rfl
    simpa [SignatureTree.pieces, hderived.result.plain rfl] using htypes

/-- An entry has a node above it, and a body that gathers it has one in turn. -/
theorem Parses.entryPlace {options : Options} {t : Text} {span : Span} {pieces : List Outline}
    (h : Parses options t span pieces) {path : List Node} {e : Expr}
    (hpath : Descends pieces (path ++ [.expr e])) (he : isDictEntry e = true) :
    e.EntryPlace path := by
  rcases List.eq_nil_or_concat' path with rfl | ⟨above, n, rfl⟩
  · have hplain := (h.plain e hpath).notEntry
    rw [he] at hplain
    cases hplain
  rw [List.append_assoc, List.singleton_append] at hpath
  rcases (h.seated above n e hpath).entry he with hencloses | ⟨b, rfl, hgathers⟩
  · cases hencloses
    exact .body
  have hbody : Descends pieces (above ++ [.expr b]) := by
    rw [List.append_cons] at hpath
    exact hpath.of_append
  rcases List.eq_nil_or_concat' above with rfl | ⟨above, m, rfl⟩
  · have hplain := (h.plain b hbody).gathersNone e hgathers
    rw [he] at hplain
    cases hplain
  rw [List.append_assoc, List.singleton_append] at hbody
  have hencloses := (h.seated above m b hbody).gatherer e hgathers he
  cases hencloses
  rw [List.append_assoc]
  exact .element hgathers

def Node.Homogeneous : Node → Prop
  | .expr e => e.Homogeneous
  | _ => True

/-- What stands in a pair of braces is of one sort throughout: either elements of a dictionary, or
none of these. An entry stands in no other place than the braces of a dictionary, on its own, under
a comprehension or in a row. -/
theorem braces_homogeneous {options : Options} {t : Text} {span : Span} {pieces : List Outline}
    (h : Parses options t span pieces) :
    (∀ n, Event.enter n ∈ eventsOf pieces → n.Homogeneous) ∧
      ∀ path e, Descends pieces (path ++ [.expr e]) → isDictEntry e = true →
        e.EntryPlace path := by
  refine ⟨fun n hn => ?_, fun path e hpath he => h.entryPlace hpath he⟩
  have hderived : n.Derived := h.every_derived _ hn
  cases n with
  | expr e =>
    obtain ⟨P, hP⟩ := hderived
    exact hP.homogeneous
  | _ => trivial

/-- Whether the display begins with an entry before a comma. -/
def Expr.startsWithEntry : Expr → Bool
  | .display _ _ _ (some (.sequence _ _ (.cons e _ _) _)) _ => isDictEntry e
  | _ => false

/-- An entry with a set in it, in a row with an unpacked dictionary. -/
theorem braces_homogeneous_of_row :
    ∃ tree path e, parseExpression {} "{a: {b}, **c}".toList = .ok tree ∧
      Descends tree.pieces (path ++ [.expr e]) ∧ isDictEntry e = true ∧ e.EntryPlace path ∧
      ∀ n, Event.enter n ∈ eventsOf tree.pieces → n.Homogeneous := by
  have hrow : ((parseExpression {} "{a: {b}, **c}".toList).toOption.any
      fun tree => tree.body.startsWithEntry) = true := by
    decide +kernel
  obtain ⟨tree, htree, hentry⟩ := exists_eq_ok_of_any hrow
  obtain ⟨hnodes, hentries⟩ := braces_homogeneous (.expression htree)
  unfold Expr.startsWithEntry at hentry
  split at hentry
  case h_2 => cases hentry
  next e _ _ _ _ hbody =>
    have hpath : Descends tree.pieces ([.expr tree.body, _] ++ [.expr e]) :=
      .node List.mem_cons_self (by
        rw [hbody]
        exact .node (List.mem_cons_of_mem _ List.mem_cons_self) (.node List.mem_cons_self .here))
    exact ⟨tree, _, e, htree, hpath, hentry, hentries _ e hpath hentry, hnodes⟩

end Verbatim
