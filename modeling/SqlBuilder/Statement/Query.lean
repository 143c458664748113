import SqlBuilder.Statement.Body

/-! # Queries

A query asks for columns and may say where rows come from, which of them count, how they are grouped
and sorted. Rendered in parentheses it is an expression of other statements.
-/

namespace SqlBuilder

/-- A SELECT statement. -/
structure Query where
  projection : Cached Projection := default
  source : Cached Source := default
  filter : Cached (Condition .rows) := default
  grouping : Cached Grouping := default
  sorting : Cached Sorting := default
  deriving DecidableEq

namespace Query

/-- A query needs at least one column. -/
def isValid (q : Query) : Bool := q.projection.content.isAvailable

def clauses (q : Query) : List Clause :=
  [ .projection q.projection, .source q.source, .condition .rows q.filter, .grouping q.grouping,
    .sorting q.sorting ]

def afterRead (kind : ClauseKind) (q : Query) : Query :=
  match kind with
  | .projection => { q with projection := q.projection.afterRead Projection.render }
  | .source => { q with source := q.source.afterRead Source.render }
  | .filter => { q with filter := q.filter.afterRead Condition.render }
  | .grouping => { q with grouping := Grouping.afterRead q.grouping }
  | .groupFilter => { q with grouping := Grouping.afterHavingRead q.grouping }
  | .sorting => { q with sorting := q.sorting.afterRead Sorting.render }
  | .assignments => q

instance : StatementBody Query where
  kind := .select
  isValid := isValid
  clauses := clauses
  afterRead := afterRead

inductive Edit
  | projection (change : Projection.Edit)
  | source (change : Source.Edit)
  | filter (change : Condition.Edit)
  | grouping (change : Grouping.Edit)
  | sorting (change : Sorting.Edit)
  deriving DecidableEq

def apply (change : Edit) (q : Query) : Except Error Reply × Query :=
  match change with
  | .projection change =>
    let (reply, projection) := q.projection.edit (Projection.apply change)
    (.ok reply, { q with projection })
  | .source change =>
    let (reply, source) := q.source.edit? (Source.apply change)
    (reply, { q with source })
  | .filter change =>
    let (reply, filter) := q.filter.edit? (Condition.apply change)
    (reply, { q with filter })
  | .grouping change =>
    let (reply, grouping) := q.grouping.edit? (Grouping.apply change)
    (reply, { q with grouping })
  | .sorting change =>
    let (reply, sorting) := q.sorting.edit (Sorting.apply change)
    (.ok reply, { q with sorting })

/-- Reads a query as an expression: its text in parentheses with its parameters. -/
def subquery (q : Cached Query) : Reading (Cached Query) Expr :=
  (StatementBody.read q).map fun text =>
    { text := "(" ++ text ++ ")", params := StatementBody.params q.content }

end Query

end SqlBuilder
