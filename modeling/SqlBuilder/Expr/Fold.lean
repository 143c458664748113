import SqlBuilder.Operator.Builtin

/-! # Folding conditions -/

namespace SqlBuilder.Expr

/-- Joins expressions from the left with one operator; there is nothing to join in an empty list. -/
def foldWith (op : Operator) : List Expr → Except Error (Option Expr)
  | [] => .ok none
  | e :: es => do
    let all ← es.foldlM (fun joined next => op.compute [joined, next]) e
    return some all

/-- The condition that holds when all of the given ones do. -/
def allOf (conditions : List Expr) : Except Error (Option Expr) :=
  foldWith .conjunction conditions

/-- The condition that holds when one of the given ones does. -/
def anyOf (conditions : List Expr) : Except Error (Option Expr) :=
  foldWith .disjunction conditions

end SqlBuilder.Expr
