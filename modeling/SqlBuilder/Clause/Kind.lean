/-! # Kinds of clauses and joins

The closed set of clauses a statement is made of, the joins a FROM clause knows, and the
directions of ORDER BY, each with the keyword it is written with.
-/

namespace SqlBuilder

/-- The clauses of statements. -/
inductive ClauseKind
  | projection
  | source
  | filter
  | grouping
  | groupFilter
  | sorting
  | assignments
  deriving DecidableEq, Repr

namespace ClauseKind

/-- The keyword a clause opens with; the assignments of INSERT and UPDATE have none. -/
def keyword : ClauseKind → String
  | projection => "SELECT"
  | source => "FROM"
  | filter => "WHERE"
  | grouping => "GROUP BY"
  | groupFilter => "HAVING"
  | sorting => "ORDER BY"
  | assignments => ""

def label : ClauseKind → String
  | assignments => "field-value"
  | kind => kind.keyword

def all : List ClauseKind :=
  [projection, source, filter, grouping, groupFilter, sorting, assignments]

end ClauseKind

/-- The ways two sources are joined. -/
inductive JoinKind
  | inner
  | left
  | right
  | full
  | cross
  deriving DecidableEq, Repr

namespace JoinKind

/-- The word that tells one join from another. -/
def keyword : JoinKind → String
  | inner => "INNER"
  | left => "LEFT"
  | right => "RIGHT"
  | full => "FULL"
  | cross => "CROSS"

/-- A join as it is written between two sources. -/
def label (kind : JoinKind) : String := kind.keyword ++ " JOIN"

/-- Only a cross join may stand without an ON condition. -/
def needsCondition (kind : JoinKind) : Bool := kind != cross

def all : List JoinKind := [inner, left, right, full, cross]

end JoinKind

inductive SortOrder
  | ascending
  | descending
  deriving DecidableEq, Repr, Inhabited

namespace SortOrder

def keyword : SortOrder → String
  | ascending => "ASC"
  | descending => "DESC"

def all : List SortOrder := [ascending, descending]

end SortOrder

end SqlBuilder
