/-! # Kinds of statements -/

namespace SqlBuilder

/-- The statements that can be built; a verbatim statement is text the caller wrote. -/
inductive StatementKind
  | select
  | insert
  | update
  | delete
  | verbatim
  deriving DecidableEq, Repr

namespace StatementKind

/-- The keyword in front of the first clause. The first clause of a SELECT brings its own, and a
verbatim statement has no clauses. -/
def keyword : StatementKind → String
  | insert => "INSERT INTO"
  | update => "UPDATE"
  | delete => "DELETE"
  | select | verbatim => ""

def label : StatementKind → String
  | select => "SELECT"
  | insert => "INSERT"
  | update => "UPDATE"
  | delete => "DELETE"
  | verbatim => "raw"

def all : List StatementKind := [select, insert, update, delete, verbatim]

end StatementKind

end SqlBuilder
