/-! # Kinds of named objects -/

namespace SqlBuilder

/-- What a named object stands for. -/
inductive ObjectKind
  | schema
  | table
  | column
  | serverVariable
  | functionResult
  deriving DecidableEq, Repr

namespace ObjectKind

def label : ObjectKind → String
  | schema => "schema"
  | table => "table"
  | column => "column"
  | serverVariable => "variable"
  | functionResult => "function result"

/-- Server variables and function results have no objects below them. -/
def ownsObjects : ObjectKind → Bool
  | schema | table | column => true
  | serverVariable | functionResult => false

def all : List ObjectKind := [schema, table, column, serverVariable, functionResult]

end ObjectKind

end SqlBuilder
