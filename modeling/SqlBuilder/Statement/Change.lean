import SqlBuilder.Statement.Body

/-! # Statements that change rows

INSERT adds a row of values, UPDATE gives values to the fields of rows, DELETE takes rows away.
-/

namespace SqlBuilder

structure Insertion where
  assignments : Cached (Assignments .insert) := default
  deriving DecidableEq

namespace Insertion

def clauses (s : Insertion) : List Clause := [.assignments .insert s.assignments]

def afterRead (kind : ClauseKind) (s : Insertion) : Insertion :=
  match kind with
  | .assignments => { s with assignments := s.assignments.afterRead? Assignments.render }
  | _ => s

instance : StatementBody Insertion where
  kind := .insert
  isValid s := s.assignments.content.isAvailable
  clauses := clauses
  afterRead := afterRead

def apply (change : Assignments.Edit) (s : Insertion) : Except Error Reply × Insertion :=
  let (reply, assignments) := s.assignments.edit (Assignments.apply change)
  (.ok reply, { s with assignments })

end Insertion

structure Update where
  assignments : Cached (Assignments .update) := default
  source : Cached Source := default
  filter : Cached (Condition .rows) := default
  deriving DecidableEq

namespace Update

def clauses (s : Update) : List Clause :=
  [.assignments .update s.assignments, .source s.source, .condition .rows s.filter]

def afterRead (kind : ClauseKind) (s : Update) : Update :=
  match kind with
  | .assignments => { s with assignments := s.assignments.afterRead? Assignments.render }
  | .source => { s with source := s.source.afterRead Source.render }
  | .filter => { s with filter := s.filter.afterRead Condition.render }
  | _ => s

instance : StatementBody Update where
  kind := .update
  isValid s := s.assignments.content.isAvailable
  clauses := clauses
  afterRead := afterRead

inductive Edit
  | assignments (change : Assignments.Edit)
  | source (change : Source.Edit)
  | filter (change : Condition.Edit)
  deriving DecidableEq

def apply (change : Edit) (s : Update) : Except Error Reply × Update :=
  match change with
  | .assignments change =>
    let (reply, assignments) := s.assignments.edit (Assignments.apply change)
    (.ok reply, { s with assignments })
  | .source change =>
    let (reply, source) := s.source.edit? (Source.apply change)
    (reply, { s with source })
  | .filter change =>
    let (reply, filter) := s.filter.edit? (Condition.apply change)
    (reply, { s with filter })

end Update

structure Deletion where
  source : Cached Source := default
  filter : Cached (Condition .rows) := default
  deriving DecidableEq

namespace Deletion

def clauses (s : Deletion) : List Clause := [.source s.source, .condition .rows s.filter]

def afterRead (kind : ClauseKind) (s : Deletion) : Deletion :=
  match kind with
  | .source => { s with source := s.source.afterRead Source.render }
  | .filter => { s with filter := s.filter.afterRead Condition.render }
  | _ => s

instance : StatementBody Deletion where
  kind := .delete
  isValid s := s.source.content.isAvailable
  clauses := clauses
  afterRead := afterRead

inductive Edit
  | source (change : Source.Edit)
  | filter (change : Condition.Edit)
  deriving DecidableEq

def apply (change : Edit) (s : Deletion) : Except Error Reply × Deletion :=
  match change with
  | .source change =>
    let (reply, source) := s.source.edit? (Source.apply change)
    (reply, { s with source })
  | .filter change =>
    let (reply, filter) := s.filter.edit? (Condition.apply change)
    (reply, { s with filter })

end Deletion

end SqlBuilder
