import Verbatim.Tree.Outline

/-!
# Views of a node

What a node shows to someone who does not take it apart: the name that it is, the operator
and operands of a binary one, the brackets and the body of a bracketed one, the counts of
a comma sequence, the statements directly inside a line or a block.
-/

namespace Verbatim

structure BinaryView where
  left : String
  op : Text
  right : String
deriving DecidableEq, Repr

structure BracketView where
  opener : Text
  body : Option String
  closer : Text
deriving DecidableEq, Repr

structure SequenceView where
  elements : Nat
  separators : Nat
  hasTrailing : Bool
deriving DecidableEq, Repr

namespace Node

def name? : Node → Option Text
  | expr e => e.name?
  | _ => none

def binary? : Node → Option BinaryView
  | expr (.binary _ _ left op right) => some ⟨left.label, op.text, right.label⟩
  | _ => none

def bracket? : Node → Option BracketView
  | expr (.display _ _ opener body closer) => some ⟨opener.text, body.map Expr.label, closer.text⟩
  | trailer (.call _ opener body closer) => some ⟨opener.text, body.map Expr.label, closer.text⟩
  | trailer (.index _ opener body closer) => some ⟨opener.text, body.map Expr.label, closer.text⟩
  | _ => none

/-- The trailing separator of a sequence counts among its separators. -/
def sequence? : Node → Option SequenceView
  | expr (.sequence _ _ items trailing) =>
    some ⟨items.items.length, items.separators.length + trailing.toList.length, trailing.isSome⟩
  | _ => none

def isCompound : Node → Bool
  | stmt s => s.isCompound
  | _ => false

def statements : Node → List String
  | line l => l.statements.items.map Small.label
  | block _ inside => inside.map Stmt.label
  | _ => []

/-- The paths of the modules that an import names, and `none` for other nodes. -/
def importedPaths? : Node → Option (List Text)
  | small (.importModules _ _ names) => some (names.items.map fun name => name.name.path)
  | small (.importFrom _ _ _ module _ _) => some (module.toList.map DottedName.path)
  | _ => none

end Node

end Verbatim
