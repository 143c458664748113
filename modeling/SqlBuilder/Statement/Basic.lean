import SqlBuilder.Statement.Change
import SqlBuilder.Statement.Query
import SqlBuilder.Text.Blank

/-! # Statements

A statement is made of clauses, or is text that the caller wrote. Every change of a statement made
of clauses forgets its text, a refused one too, because the caller could have changed the clause.
-/

namespace SqlBuilder

/-- Text that the caller wrote, with the parameters it mentions. -/
structure Verbatim where
  text : String
  params : ParamList := ∅
  written : Text.allBlank text = false

instance : DecidableEq Verbatim := fun v w =>
  decidable_of_iff (v.text = w.text ∧ v.params = w.params)
    (by cases v; cases w; simp only [Verbatim.mk.injEq])

/-- Takes text from the caller, which must not be blank. -/
def Verbatim.create (text : String) (params : List Param := []) : Except Error Verbatim :=
  if written : Text.allBlank text = false then .ok ⟨text, .ofList params, written⟩
  else .error .blankStatement

inductive Statement
  | select (s : Cached Query)
  | insert (s : Cached Insertion)
  | update (s : Cached Update)
  | delete (s : Cached Deletion)
  | verbatim (s : Verbatim)
  deriving DecidableEq

namespace Statement

def kind : Statement → StatementKind
  | select _ => .select
  | insert _ => .insert
  | update _ => .update
  | delete _ => .delete
  | verbatim _ => .verbatim

/-- Whether a statement can be written. -/
def isValid : Statement → Bool
  | select s => StatementBody.isValid s.content
  | insert s => StatementBody.isValid s.content
  | update s => StatementBody.isValid s.content
  | delete s => StatementBody.isValid s.content
  | verbatim _ => true

/-- The clauses of a statement in the order they are written. -/
def clauses : Statement → List Clause
  | select s => StatementBody.clauses s.content
  | insert s => StatementBody.clauses s.content
  | update s => StatementBody.clauses s.content
  | delete s => StatementBody.clauses s.content
  | verbatim _ => []

def params : Statement → ParamList
  | select s => StatementBody.params s.content
  | insert s => StatementBody.params s.content
  | update s => StatementBody.params s.content
  | delete s => StatementBody.params s.content
  | verbatim s => s.params

/-- The text of a statement from its contents alone. -/
def render : Statement → Except Error String
  | select s => StatementBody.render s.content
  | insert s => StatementBody.render s.content
  | update s => StatementBody.render s.content
  | delete s => StatementBody.render s.content
  | verbatim s => .ok s.text

def read : Statement → Reading Statement String
  | select s => (StatementBody.read s).mapState select
  | insert s => (StatementBody.read s).mapState insert
  | update s => (StatementBody.read s).mapState update
  | delete s => (StatementBody.read s).mapState delete
  | verbatim s => ⟨.ok s.text, verbatim s, []⟩

/-- The clause of a kind; the condition on groups is found inside the grouping. -/
def clause? (s : Statement) (kind : ClauseKind) : Option Clause :=
  (s.clauses ++ s.clauses.filterMap Clause.having?).find? fun clause => clause.kind == kind

/-- What a read of the clause of a kind leaves behind. The text of the statement stays. -/
def afterClauseRead (kind : ClauseKind) : Statement → Statement
  | select s => select { s with content := StatementBody.afterRead kind s.content }
  | insert s => insert { s with content := StatementBody.afterRead kind s.content }
  | update s => update { s with content := StatementBody.afterRead kind s.content }
  | delete s => delete { s with content := StatementBody.afterRead kind s.content }
  | verbatim s => verbatim s

inductive Edit
  | select (change : Query.Edit)
  | insert (change : Assignments.Edit)
  | update (change : Update.Edit)
  | delete (change : Deletion.Edit)
  deriving DecidableEq

/-- The change of a statement of a kind that changes one of its clauses. The place says which
condition is meant, the one on rows or the one on groups. -/
def Edit.ofClause? (kind : StatementKind) (place : ClauseKind) (change : Clause.Edit) :
    Option Edit :=
  match kind, place, change with
  | .select, _, .projection change => some (.select (.projection change))
  | .select, _, .source change => some (.select (.source change))
  | .select, .groupFilter, .condition change => some (.select (.grouping (.having change)))
  | .select, _, .condition change => some (.select (.filter change))
  | .select, _, .grouping change => some (.select (.grouping change))
  | .select, _, .sorting change => some (.select (.sorting change))
  | .insert, _, .assignments change => some (.insert change)
  | .update, _, .assignments change => some (.update (.assignments change))
  | .update, _, .source change => some (.update (.source change))
  | .update, _, .condition change => some (.update (.filter change))
  | .delete, _, .source change => some (.delete (.source change))
  | .delete, _, .condition change => some (.delete (.filter change))
  | _, _, _ => none

/-- Changes a statement, if the change is one for its kind of statement. -/
def change? (change : Edit) (s : Statement) : Option (Except Error Reply × Statement) :=
  match change, s with
  | .select change, select s =>
    let (reply, s) := s.edit (Query.apply change)
    some (reply, select s)
  | .insert change, insert s =>
    let (reply, s) := s.edit (Insertion.apply change)
    some (reply, insert s)
  | .update change, update s =>
    let (reply, s) := s.edit (Update.apply change)
    some (reply, update s)
  | .delete change, delete s =>
    let (reply, s) := s.edit (Deletion.apply change)
    some (reply, delete s)
  | _, _ => none

end Statement

end SqlBuilder
