import SqlBuilder.Expr.List

/-! # The columns of a SELECT -/

namespace SqlBuilder

/-- What a SELECT asks for. A column that is listed already is not listed again. -/
structure Projection where
  columns : ExprList .refused := {}
  distinct : Bool := false
  deriving DecidableEq

namespace Projection

instance : Inhabited Projection := ⟨{}⟩

/-- The clause can be written once it has a column. -/
def isAvailable (p : Projection) : Bool := !p.columns.isEmpty

def params (p : Projection) : ParamList := p.columns.params

/-- The text of the clause; there is none without columns. -/
def render (p : Projection) : String :=
  if p.isAvailable then
    "SELECT " ++ (if p.distinct then "DISTINCT " else "") ++ p.columns.texts
  else ""

inductive Edit
  | columns (change : ExprList.Edit)
  | distinct (on : Bool)
  deriving DecidableEq

def apply (change : Edit) (p : Projection) : Reply × Projection :=
  match change with
  | .columns change =>
    let (reply, columns) := ExprList.apply change p.columns
    (reply, { p with columns })
  | .distinct on => (.done, { p with distinct := on })

end Projection

end SqlBuilder
