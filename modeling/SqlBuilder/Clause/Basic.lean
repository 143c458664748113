import SqlBuilder.Clause.Assignments
import SqlBuilder.Clause.Grouping
import SqlBuilder.Clause.Projection
import SqlBuilder.Clause.Sorting
import SqlBuilder.Clause.Source

/-! # Clauses

A clause is one of the parts a statement is made of, with the text it was last read as. `render`
gives the text from the contents alone; `text` is what a read answers, and `afterRead` what it
leaves behind.
-/

namespace SqlBuilder

/-- A part of a statement. -/
inductive Clause
  | projection (c : Cached Projection)
  | source (c : Cached Source)
  | condition (role : Condition.Role) (c : Cached (Condition role))
  | grouping (c : Cached Grouping)
  | sorting (c : Cached Sorting)
  | assignments (layout : Assignments.Layout) (c : Cached (Assignments layout))
  deriving DecidableEq

namespace Clause

def kind : Clause → ClauseKind
  | projection _ => .projection
  | source _ => .source
  | condition role _ => role.kind
  | grouping _ => .grouping
  | sorting _ => .sorting
  | assignments _ _ => .assignments

/-- Whether a clause holds enough to be written. -/
def isAvailable : Clause → Bool
  | projection c => c.content.isAvailable
  | source c => c.content.isAvailable
  | condition _ c => c.content.isAvailable
  | grouping c => c.content.isAvailable
  | sorting c => c.content.isAvailable
  | assignments _ c => c.content.isAvailable

def params : Clause → ParamList
  | projection c => c.content.params
  | source c => c.content.params
  | condition _ c => c.content.params
  | grouping c => c.content.params
  | sorting c => c.content.params
  | assignments _ c => c.content.params

/-- The text of a clause from its contents alone. -/
def render : Clause → Except Error String
  | projection c => .ok c.content.render
  | source c => .ok c.content.render
  | condition _ c => .ok c.content.render
  | grouping c => .ok c.content.render
  | sorting c => .ok c.content.render
  | assignments _ c => c.content.render

/-- The answer to a read of a clause. -/
def text : Clause → Except Error String
  | projection c => .ok (c.text Projection.render)
  | source c => .ok (c.text Source.render)
  | condition _ c => .ok (c.text Condition.render)
  | grouping c => .ok (c.text Grouping.assemble)
  | sorting c => .ok (c.text Sorting.render)
  | assignments _ c => c.text? Assignments.render

/-- What a read of a clause leaves behind. -/
def afterRead : Clause → Clause
  | projection c => projection (c.afterRead Projection.render)
  | source c => source (c.afterRead Source.render)
  | condition role c => condition role (c.afterRead Condition.render)
  | grouping c => grouping (Grouping.afterRead c)
  | sorting c => sorting (c.afterRead Sorting.render)
  | assignments layout c => assignments layout (c.afterRead? Assignments.render)

/-- The condition on groups that a grouping holds. -/
def having? : Clause → Option Clause
  | grouping c => some (condition .groups c.content.having)
  | _ => none

inductive Edit
  | projection (change : Projection.Edit)
  | source (change : Source.Edit)
  | condition (change : Condition.Edit)
  | grouping (change : Grouping.Edit)
  | sorting (change : Sorting.Edit)
  | assignments (change : Assignments.Edit)
  deriving DecidableEq

/-- Changes a clause, if the change is one for its kind of clause. A change that is refused leaves
the clause as it was. -/
def change? (change : Edit) (clause : Clause) : Option (Except Error Reply × Clause) :=
  match change, clause with
  | .projection change, projection c =>
    let (reply, c) := c.edit (Projection.apply change)
    some (.ok reply, projection c)
  | .source change, source c =>
    let (reply, c) := c.edit? (Source.apply change)
    some (reply, source c)
  | .condition change, condition role c =>
    let (reply, c) := c.edit? (Condition.apply change)
    some (reply, condition role c)
  | .grouping change, grouping c =>
    let (reply, c) := c.edit? (Grouping.apply change)
    some (reply, grouping c)
  | .sorting change, sorting c =>
    let (reply, c) := c.edit (Sorting.apply change)
    some (.ok reply, sorting c)
  | .assignments change, assignments layout c =>
    let (reply, c) := c.edit (Assignments.apply change)
    some (.ok reply, assignments layout c)
  | _, _ => none

end Clause

end SqlBuilder
