import Verbatim.Token

/-!
# Items with separators between them

One or more items, with a separator token between each two neighbours. A separator after
the last item, where the grammar allows one, is kept beside the sequence.
-/

namespace Verbatim

inductive Separated (α : Type) where
  | one (item : α)
  | cons (item : α) (separator : Token) (rest : Separated α)
deriving Repr

namespace Separated

variable {α : Type}

def items : Separated α → List α
  | one a => [a]
  | cons a _ rest => a :: rest.items

def separators : Separated α → List Token
  | one _ => []
  | cons _ t rest => t :: rest.separators

def last : Separated α → α
  | one a => a
  | cons _ _ rest => rest.last

def init : Separated α → List α
  | one _ => []
  | cons a _ rest => a :: rest.init

@[simp]
theorem items_one (a : α) : (one a).items = [a] := rfl

@[simp]
theorem items_cons (a : α) (t : Token) (rest : Separated α) :
    (cons a t rest).items = a :: rest.items := rfl

@[simp]
theorem separators_one (a : α) : (one a).separators = [] := rfl

@[simp]
theorem separators_cons (a : α) (t : Token) (rest : Separated α) :
    (cons a t rest).separators = t :: rest.separators := rfl

theorem length_items (s : Separated α) : s.items.length = s.separators.length + 1 := by
  induction s with
  | one => rfl
  | cons _ _ _ ih => simp [ih]

theorem init_append_last (s : Separated α) : s.init ++ [s.last] = s.items := by
  induction s with
  | one => rfl
  | cons a _ _ ih => simp [init, last, ih]

end Separated

end Verbatim
