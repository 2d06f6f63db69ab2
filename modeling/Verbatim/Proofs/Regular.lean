import Verbatim.Proofs.Derivation.Level
import Verbatim.Proofs.Derivation.Root

/-!
# Regular nodes

A walk takes the items of a node and its separators for two lists and shows them in turn, and it
takes each optional part for itself. It shows all of a node only if the counts fit each other
and the parts that belong together are there together. In a parsed source they do,
in every node.
-/

namespace Verbatim

/-! ## Rows -/

section Rows

variable {α : Type}

/-- A separator between each two items and none at the end. -/
structure FitsBetween (items : List α) (separators : List Token) : Prop where
  nonempty : items ≠ []
  count : items.length = separators.length + 1

/-- A separator between each two items and maybe one at the end. -/
structure MayTrail (items : List α) (separators : List Token) : Prop where
  nonempty : items ≠ []
  atLeast : items.length - 1 ≤ separators.length
  atMost : separators.length ≤ items.length

/-- A row that is more than its one item: without another there is a separator at the end. -/
structure CommaRow (items : List α) (separators : List Token) : Prop where
  nonempty : items ≠ []
  atLeast : max 1 (items.length - 1) ≤ separators.length
  atMost : separators.length ≤ items.length

namespace Separated

variable (row : Separated α) (trailing : Option Token)

def allSeparators : List Token :=
  row.separators ++ trailing.toList

theorem items_ne_nil : row.items ≠ [] := by
  cases row <;> simp

theorem fitsBetween : FitsBetween row.items row.separators :=
  ⟨row.items_ne_nil, row.length_items⟩

theorem length_allSeparators :
    (row.allSeparators trailing).length = row.separators.length + trailing.toList.length :=
  List.length_append

theorem mayTrail : MayTrail row.items (row.allSeparators trailing) := by
  have hitems := row.length_items
  have hall := row.length_allSeparators trailing
  have hone : trailing.toList.length ≤ 1 := by cases trailing <;> simp
  constructor
  · exact row.items_ne_nil
  · omega
  · omega

theorem commaRow (hmany : row.separators ≠ [] ∨ trailing.isSome = true) :
    CommaRow row.items (row.allSeparators trailing) := by
  obtain ⟨hne, hleast, hmost⟩ := row.mayTrail trailing
  have hpos : 0 < (row.allSeparators trailing).length := by
    rw [List.length_pos_iff, allSeparators, Ne, List.append_eq_nil_iff]
    rintro ⟨hseparators, htrailing⟩
    rcases hmany with hmany | hmany
    · exact hmany hseparators
    · cases trailing with
      | none => cases hmany
      | some t => cases htrailing
  constructor
  · exact hne
  · omega
  · exact hmost

end Separated

end Rows

/-! ## Parts -/

namespace Step

def colon : Step → Token
  | mk colon _ => colon

def value : Step → Option Expr
  | mk _ value => value

end Step

namespace ImportTargets

def opener? : ImportTargets → Option Token
  | enclosed _ opener _ _ _ => some opener
  | _ => none

def closer? : ImportTargets → Option Token
  | enclosed _ _ _ _ closer => some closer
  | _ => none

/-- The names with all their separators, unless everything is imported. -/
def row? : ImportTargets → Option (List ImportAsName × List Token)
  | star _ => none
  | bare _ names => some (names.items, names.separators)
  | enclosed _ _ names trailing _ => some (names.items, names.allSeparators trailing)

end ImportTargets

namespace ExceptClause

def caught : ExceptClause → Option Caught
  | mk _ _ caught _ _ => caught

end ExceptClause

/-! ## Regular nodes -/

def Expr.Regular : Expr → Prop
  | .sequence _ _ items trailing => CommaRow items.items (items.allSeparators trailing)
  | .slice _ _ _ _ step =>
    (step.bind Step.value).isSome = true → (step.map Step.colon).isSome = true
  | .applied _ await atom trailers =>
    (await.isSome = true ∨ trailers ≠ []) ∧ atom.label ≠ "AtomExpr" ∧
      ∀ t ∈ trailers, t.label ∈ ["DotName", "Call", "Index"]
  | _ => True

def Value.Regular : Value → Prop
  | .single _ => True
  | .list _ items trailing => CommaRow items.items (items.allSeparators trailing)

def DottedName.Regular (name : DottedName) : Prop :=
  FitsBetween name.parts.items name.parts.separators

structure ImportTargets.Regular (targets : ImportTargets) : Prop where
  brackets : targets.opener?.isSome = targets.closer?.isSome
  row : ∀ names separators, targets.row? = some (names, separators) → MayTrail names separators
  trailing : ∀ names separators, targets.row? = some (names, separators) →
    separators.length = names.length → targets.opener?.isSome = true

/-- The targets of an assignment are all its values but the last. -/
def Small.Regular : Small → Prop
  | .value v => v.Regular
  | .assign _ target equal rest =>
    1 ≤ (target :: rest.init).length ∧
      (equal :: rest.separators).length = (target :: rest.init).length
  | .raise _ _ raised =>
    (raised.bind Raised.cause).isSome = true → (raised.map Raised.exception).isSome = true
  | .scope _ _ _ names => FitsBetween names.items names.separators
  | .importModules _ _ names =>
    FitsBetween names.items names.separators ∧ ∀ item ∈ names.items, item.name.Regular
  | .importFrom _ _ dots module _ targets =>
    (dots ≠ [] ∨ module.isSome = true) ∧ (∀ name, module = some name → name.Regular) ∧
      targets.Regular
  | _ => True

def Line.Regular (line : Line) : Prop :=
  MayTrail line.statements.items (line.statements.allSeparators line.trailing)

def Stmt.Regular : Stmt → Prop
  | .line l => l.Regular
  | .tryBlock _ _ _ _ handlers orelse finalizer =>
    (handlers ≠ [] ∨ finalizer.isSome = true) ∧ (orelse.isSome = true → handlers ≠ []) ∧
      ∀ handler ∈ handlers, (handler.caught.bind Caught.asName).isSome = true →
        (handler.caught.map Caught.test).isSome = true
  | .withBlock _ _ _ items _ _ => FitsBetween items.items items.separators
  | .classDef _ _ _ _ bases _ _ =>
    (bases.map ClassArguments.opener).isSome = (bases.map ClassArguments.closer).isSome ∧
      ((bases.bind ClassArguments.arguments).isSome = true →
        (bases.map ClassArguments.opener).isSome = true)
  | _ => True

def Node.Regular : Node → Prop
  | .expr e => e.Regular
  | .params _ ps => MayTrail ps.items.items (ps.items.allSeparators ps.trailing)
  | .value v => v.Regular
  | .small s => s.Regular
  | .line l => l.Regular
  | .stmt s => s.Regular
  | _ => True

/-! ## Derived nodes are regular -/

/-- A part of an optional whole is there only if the whole is. -/
theorem isSome_map_of_bind {α β γ : Type} {o : Option α} {f : α → Option β} {g : α → γ}
    (h : (o.bind f).isSome = true) : (o.map g).isSome = true := by
  cases o with
  | none => cases h
  | some a => rfl

theorem Expr.level?_of_label {e : Expr} (h : e.label = "AtomExpr") :
    e.level? = some .applied := by
  cases e with
  | applied => rfl
  | leaf kind => cases kind <;> simp [Expr.label, LeafKind.label] at h
  | display span kind => cases kind <;> simp [Expr.label, DisplayKind.label] at h
  | binary span kind => cases kind <;> simp [Expr.label, BinaryKind.label] at h
  | compound span kind => cases kind <;> simp [Expr.label, CompoundKind.label] at h
  | unary span kind => cases kind <;> simp [Expr.label, UnaryKind.label] at h
  | sequence span kind => cases kind <;> simp [Expr.label, SequenceKind.label] at h
  | _ => simp [Expr.label] at h

theorem Derives.label_ne {e : Expr} (h : Derives (.level .atom) (.expr e)) :
    e.label ≠ "AtomExpr" := by
  intro hlabel
  obtain ⟨M, hlevel, hrank⟩ := h.within
  rw [Expr.level?_of_label hlabel] at hlevel
  cases hlevel
  exact absurd hrank (by decide)

theorem Trailer.label_mem (t : Trailer) : t.label ∈ ["DotName", "Call", "Index"] := by
  cases t <;> simp [Trailer.label]

theorem Derives.regular {P : Phrase} {n : Node} (h : Derives P n) : n.Regular := by
  induction h with
  | unit _ _ ih => exact ih
  | applied _ hatom _ hne => exact ⟨hne, hatom.label_ne, fun t _ => t.label_mem⟩
  | sequence _ _ _ hmany _ => exact Separated.commaRow _ _ hmany
  | slice => exact isSome_map_of_bind
  | params => exact Separated.mayTrail _ _
  | _ => exact trivial

theorem Value.Derived.regular {v : Value} (h : v.Derived) : v.Regular := by
  cases v with
  | single e => exact trivial
  | list span items trailing => exact Derives.regular h

theorem ImportTargets.regular (targets : ImportTargets) : targets.Regular := by
  cases targets with
  | star t =>
    constructor
    · rfl
    · rintro names separators ⟨⟩
    · rintro names separators ⟨⟩
  | bare span row =>
    obtain ⟨hne, hcount⟩ := row.fitsBetween
    constructor
    · rfl
    · rintro names separators ⟨⟩
      constructor
      · exact hne
      · omega
      · omega
    · rintro names separators ⟨⟩ hlength
      omega
  | enclosed span opener row trailing closer =>
    constructor
    · rfl
    · rintro names separators ⟨⟩
      exact row.mayTrail trailing
    · exact fun _ _ _ _ => rfl

theorem Small.Derived.regular {s : Small} (h : s.Derived) : s.Regular := by
  cases s with
  | value v => exact Value.Derived.regular h
  | assign span target equal rest =>
    have hinit := congrArg List.length rest.init_append_last
    have hitems := rest.length_items
    simp only [List.length_append, List.length_singleton] at hinit
    simp only [Small.Regular, List.length_cons]
    constructor
    · omega
    · omega
  | raise span word raised => exact isSome_map_of_bind
  | scope span kind word names => exact names.fitsBetween
  | importModules span word names =>
    exact ⟨names.fitsBetween, fun item _ => item.name.parts.fitsBetween⟩
  | importFrom span fromToken dots module importToken targets =>
    obtain ⟨-, -, -, hmodule, -, -⟩ := h
    refine ⟨?_, fun name _ => name.parts.fitsBetween, targets.regular⟩
    by_cases hdots : dots = []
    · exact .inr (hmodule hdots)
    · exact .inl hdots
  | _ => exact trivial

theorem Compound.Derived.regular {s : Stmt} (h : Compound.Derived (.stmt s)) : s.Regular := by
  cases h with
  | line hl => exact Separated.mayTrail _ _
  | @tryBlock _ _ _ _ handlers _ _ _ _ _ _ _ _ hnone =>
    refine ⟨?_, ?_, fun _ _ => isSome_map_of_bind⟩
    · by_cases hhandlers : handlers = []
      · exact .inr (hnone hhandlers).2
      · exact .inl hhandlers
    · rintro horelse hhandlers
      rw [(hnone hhandlers).1] at horelse
      cases horelse
  | withBlock => exact Separated.fitsBetween _
  | @classDef _ _ _ _ _ bases =>
    refine ⟨?_, isSome_map_of_bind⟩
    cases bases <;> rfl
  | _ => exact trivial

theorem Node.Derived.regular {n : Node} (h : n.Derived) : n.Regular := by
  cases n with
  | expr e =>
    obtain ⟨P, h⟩ := h
    exact h.regular
  | params typed ps => exact Separated.mayTrail _ _
  | value v => exact Value.Derived.regular h
  | small s => exact Small.Derived.regular h
  | line l => exact Separated.mayTrail _ _
  | stmt s => exact Compound.Derived.regular h
  | _ => exact trivial

/-- Wherever a node stands in a parsed source, its parts and separators fit each other. -/
theorem nodes_regular {options : Options} {t : Text} {span : Span} {pieces : List Outline}
    (h : Parses options t span pieces) :
    ∀ n, Event.enter n ∈ Outline.eventsOf pieces → n.Regular := by
  intro n hn
  have hderived : n.Derived := h.every_derived _ hn
  exact hderived.regular

/-- A relative import in brackets, targets in a chain, a comma behind one item, a slice without its
bounds, and a `try` with a handler. -/
theorem nodes_regular_of_try :
    ∃ span pieces,
      Parses {} "from . import (a,)\ntry: b = c, = d(e,)[::f]\nexcept g as h: pass\n".toList
          span pieces ∧
        ∀ n, Event.enter n ∈ Outline.eventsOf pieces → n.Regular := by
  have hparses :
      (parseModule {} "from . import (a,)\ntry: b = c, = d(e,)[::f]\nexcept g as h: pass\n".toList
        ).toOption.isSome = true := by
    decide +kernel
  rcases htree : parseModule {}
      "from . import (a,)\ntry: b = c, = d(e,)[::f]\nexcept g as h: pass\n".toList with error | tree
  · rw [htree] at hparses
    cases hparses
  · exact ⟨_, _, .module htree, nodes_regular (.module htree)⟩

end Verbatim
