import VgiWorker.Filter.Expr

/-! The filters a function is shown, projected from the predicates. -/

namespace VgiWorker.Filter

open Arrow

inductive FilterValue (lib : Library) where
  | boolean (value : Bool)
  | cell (values : lib.Array) (row : Nat)

/-- A column index is none where the source has -1. -/
inductive PublicFilter (lib : Library) where
  | constant (columnName : Bytes) (columnIndex : Nat) (op : Comparison) (value : FilterValue lib)
  | isNull (columnName : Bytes) (columnIndex : Nat)
  | isNotNull (columnName : Bytes) (columnIndex : Nat)
  | isIn (columnName : Bytes) (columnIndex : Nat) (values : lib.Array)
  | and (columnName : Bytes) (columnIndex : Option Nat) (children : List (PublicFilter lib))
  | or (columnName : Bytes) (columnIndex : Option Nat) (children : List (PublicFilter lib))
  | view (expr : V2Expr lib)

/-- The operator with its operands exchanged. -/
def Comparison.inverse : Comparison → Comparison
  | lt => gt
  | le => ge
  | gt => lt
  | ge => le
  | op => op

def Comparison.isConstant : Comparison → Bool
  | distinctFrom | notDistinctFrom => false
  | _ => true

variable {lib : Library}

/-- A predicate that is a boolean column, or its negation, as an equality. -/
def boolColumnLeaf (expr : V2Expr lib) : Option (PublicFilter lib) :=
  let (ref, wanted) := match expr with
    | .not expression => (expression, false)
    | expr => (expr, true)
  match ref with
  | .columnRef index name bound =>
    if isBoolean bound then some (.constant name index .eq (.boolean wanted)) else none
  | _ => none

mutual

def v2RootColumn : V2Expr lib → Bytes
  | .columnRef _ name _ => name
  | .fieldRef expression _ _ _ | .not expression | .negate expression | .isNull expression _
  | .isIn expression _ _ | .cast expression _ _ | .runtimeFilter _ expression => v2RootColumn expression
  | .comparison _ left _ | .arithmetic _ left _ => v2RootColumn left
  | .and children | .or children => v2RootColumns children
  | .literal .. | .call .. => []

/-- The first name that is not empty. -/
def v2RootColumns : List (V2Expr lib) → Bytes
  | [] => []
  | child :: children =>
    let name := v2RootColumn child
    if name = [] then v2RootColumns children else name

end

/-- The index of a view is that of the column under its field references. -/
def viewIndex : V2Expr lib → Option Nat
  | .columnRef index _ _ => some index
  | .fieldRef expression _ _ _ => viewIndex expression
  | _ => none

/-- A column compared with a literal of one cell. -/
def constantLeaf (op : Comparison) (left right : V2Expr lib) : Option (PublicFilter lib) :=
  let found := match left, right with
    | .columnRef index name _, .literal _ value _ => some (index, name, value, op)
    | .literal _ value _, .columnRef index name _ => some (index, name, value, op.inverse)
    | _, _ => none
  match found with
  | none => none
  | some (index, name, value, op) =>
    if op.isConstant ∧ lib.length value = 1 ∧ lib.hasScalar value 0 then
      some (.constant name index op (.cell value 0))
    else none

mutual

def publicV2Filter (expr : V2Expr lib) : PublicFilter lib :=
  match boolColumnLeaf expr, expr with
  | some leaf, _ => leaf
  | none, .comparison op left right => (constantLeaf op left right).getD (.view expr)
  | none, .isNull (.columnRef index name _) negated => if negated then .isNotNull name index else .isNull name index
  | none, .isIn (.columnRef index name _) set false => .isIn name index set.values
  | none, .and children => .and (v2RootColumn expr) (viewIndex expr) (publicV2Filters children)
  | none, .or children => .or (v2RootColumn expr) (viewIndex expr) (publicV2Filters children)
  | none, expr => .view expr

def publicV2Filters : List (V2Expr lib) → List (PublicFilter lib)
  | [] => []
  | child :: children => publicV2Filter child :: publicV2Filters children

end

/-- The public filters of a list of predicates. -/
def published (predicates : List (V2Predicate lib)) : List (PublicFilter lib) :=
  predicates.map fun predicate => publicV2Filter predicate.expr

end VgiWorker.Filter
