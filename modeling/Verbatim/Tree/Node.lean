import Verbatim.Tree.Stmt

/-!
# Nodes of a tree

A walk meets two sorts of nodes. Expressions are nodes, and so are the trailers of an
applied atom and the clauses of a comprehension, each clause together with those after
it. Statements are nodes, and so are small statements, the values in an assignment,
indented blocks and everything about parameters. Other parts of a statement, such as an
`else` or an alias, belong to the node around them, though they record spans too.
-/

namespace Verbatim

inductive Node where
  | expr (expr : Expr)
  | trailer (trailer : Trailer)
  | clause (clause : Clause)
  | declarator (declarator : Declarator)
  | param (param : Param)
  | params (typed : Bool) (params : Params)
  | value (value : Value)
  | small (small : Small)
  | line (line : Line)
  | block (span : Span) (statements : List Stmt)
  | stmt (stmt : Stmt)

inductive NodeSort where
  | expression | statement
deriving DecidableEq, Repr

/-! ## Labels -/

def LeafKind.label : LeafKind → String
  | .name => "Name"
  | .number => "Number"
  | .ellipsis => "Ellipsis"
  | .noneConstant => "None"
  | .trueConstant => "True"
  | .falseConstant => "False"

def DisplayKind.label : DisplayKind → String
  | .tuple => "Tuple"
  | .list => "List"
  | .dictionary => "Dictionary"
  | .set => "Set"

def BinaryKind.label : BinaryKind → String
  | .power => "Power"
  | .mul => "Mul"
  | .matMul => "MatMul"
  | .div => "Div"
  | .modulo => "Modulo"
  | .floorDiv => "FloorDiv"
  | .plus => "Plus"
  | .minus => "Minus"
  | .shiftLeft => "ShiftLeft"
  | .shiftRight => "ShiftRight"
  | .bitAnd => "BitAnd"
  | .bitXor => "BitXor"
  | .bitOr => "BitOr"
  | .less => "Less"
  | .lessEqual => "LessEqual"
  | .equal => "Equal"
  | .notEqual => "NotEqual"
  | .greater => "Greater"
  | .greaterEqual => "GreaterEqual"
  | .isIn => "In"
  | .isSame => "Is"
  | .and => "And"
  | .or => "Or"
  | .named => "NamedExpr"

def CompoundKind.label : CompoundKind → String
  | .notIn => "NotIn"
  | .isNot => "IsNot"

def UnaryKind.label : UnaryKind → String
  | .plus => "UnaryPlus"
  | .minus => "UnaryMinus"
  | .bitInvert => "BitInvert"
  | .not => "Not"
  | .star => "StarExpr"
  | .doubleStar => "DoubleStarExpr"

def SequenceKind.label : SequenceKind → String
  | .testList => "TestList"
  | .exprList => "ExprList"
  | .testListComp => "TestListComp"
  | .subscriptList => "SubscriptList"
  | .argList => "ArgList"
  | .dictMaker => "DictMaker"
  | .setMaker => "SetMaker"
  | .typeList => "TypeList"

def Expr.label : Expr → String
  | .leaf kind _ => kind.label
  | .strings _ _ _ => "String"
  | .display _ kind _ _ _ => kind.label
  | .applied _ _ _ _ => "AtomExpr"
  | .binary _ kind _ _ _ => kind.label
  | .compound _ kind _ _ _ _ => kind.label
  | .unary _ kind _ _ => kind.label
  | .lambda _ _ _ _ _ => "Lambda"
  | .conditional _ _ _ _ _ _ => "Conditional"
  | .yield _ _ _ => "Yield"
  | .yieldFrom _ _ _ _ => "YieldFrom"
  | .comprehension _ _ _ => "Comprehension"
  | .dictEntry _ _ _ _ => "DictEntry"
  | .argument _ _ _ _ => "Argument"
  | .slice _ _ _ _ _ => "Slice"
  | .sequence _ kind _ _ => kind.label

def Trailer.label : Trailer → String
  | .member _ _ _ => "DotName"
  | .call _ _ _ _ => "Call"
  | .index _ _ _ _ => "Index"

def Clause.label : Clause → String
  | .loop _ _ _ _ _ _ _ => "CompFor"
  | .guard _ _ _ _ => "CompIf"

def Param.label : Param → String
  | .single _ => "VfpDef"
  | .withDefault _ _ _ _ => "VfpDefAssign"
  | .keywordOnly _ _ | .variadic _ _ _ => "StarParam"
  | .keywordVariadic _ _ _ => "DoubleStarParam"
  | .positionalOnly _ => "PositionalOnly"

def Value.label : Value → String
  | .single _ => "Expression"
  | .list _ _ _ => "TestListStarExpr"

def SimpleKeyword.label : SimpleKeyword → String
  | .pass => "Pass"
  | .break => "Break"
  | .continue => "Continue"

def ScopeKind.label : ScopeKind → String
  | .global => "Global"
  | .nonlocal => "Nonlocal"

def Small.label : Small → String
  | .value v => v.label
  | .assign _ _ _ _ => "Assign"
  | .annAssign _ _ _ _ _ => "AnnAssign"
  | .augAssign _ _ _ _ => "AugAssign"
  | .keyword kind _ => kind.label
  | .return _ _ _ => "Return"
  | .raise _ _ _ => "Raise"
  | .del _ _ _ => "Del"
  | .scope _ kind _ _ => kind.label
  | .assert _ _ _ _ => "Assert"
  | .importModules _ _ _ => "Import"
  | .importFrom _ _ _ _ _ _ => "ImportFrom"

def Stmt.label : Stmt → String
  | .line _ => "Simple"
  | .ifElse _ _ _ _ _ _ _ => "If"
  | .whileLoop _ _ _ _ _ _ => "While"
  | .forLoop _ _ _ _ _ _ _ _ _ => "For"
  | .tryBlock _ _ _ _ _ _ _ => "Try"
  | .withBlock _ _ _ _ _ _ => "With"
  | .funcDef _ _ _ _ _ _ _ _ _ _ _ => "FuncDef"
  | .classDef _ _ _ _ _ _ _ => "ClassDef"

namespace Node

def label : Node → String
  | expr e => e.label
  | trailer t => t.label
  | clause c => c.label
  | declarator _ => "VfpDef"
  | param p => p.label
  | params typed _ => if typed then "TypedArgsList" else "VarArgsList"
  | value v => v.label
  | small s => s.label
  | line _ => "Simple"
  | block _ _ => "Suite"
  | stmt s => s.label

def span : Node → Span
  | expr e => e.span
  | trailer t => t.span
  | clause c => c.span
  | declarator d => d.span
  | param p => p.span
  | params _ ps => ps.span
  | value v => v.span
  | small s => s.span
  | line l => l.span
  | block span _ => span
  | stmt s => s.span

def sort : Node → NodeSort
  | expr _ | trailer _ | clause _ => .expression
  | _ => .statement

end Node

end Verbatim
