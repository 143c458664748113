import SqlBuilder.Clause.Condition
import SqlBuilder.Expr.List

/-! # Groups of rows

A GROUP BY clause lists the keys of the groups by the form other clauses refer to them, and holds
the condition on groups. Both the text and the parameters of the condition count only while there
is a key to group by. The condition remembers its own text.
-/

namespace SqlBuilder

/-- The keys of the groups and the condition on groups. -/
structure Grouping where
  keys : ExprList .refused := {}
  having : Cached (Condition .groups) := default
  deriving DecidableEq

namespace Grouping

instance : Inhabited Grouping := ⟨{}⟩

/-- The clause can be written once it has a key. -/
def isAvailable (g : Grouping) : Bool := !g.keys.isEmpty

/-- The parameters of the keys, then those of the condition while it counts. -/
def params (g : Grouping) : ParamList :=
  if g.isAvailable then g.keys.params ∪ g.having.content.params else g.keys.params

/-- The layout of the clause around the text of the condition; there is none without keys. -/
def layOut (g : Grouping) (having : String) : String :=
  if g.isAvailable then
    let keys := "GROUP BY " ++ g.keys.references
    if g.having.content.isAvailable then keys ++ " " ++ having else keys
  else ""

/-- The text of the clause from its contents alone. -/
def render (g : Grouping) : String := g.layOut g.having.content.render

/-- The text of the clause, with the condition read through the text it remembers. -/
def assemble (g : Grouping) : String := g.layOut (g.having.text Condition.render)

/-- What assembling the text leaves behind: the condition has been read if it counts. -/
def assembled (g : Grouping) : Grouping :=
  if g.isAvailable && g.having.content.isAvailable then
    { g with having := g.having.afterRead Condition.render }
  else g

/-- What a read of the clause leaves behind. -/
def afterRead (g : Cached Grouping) : Cached Grouping :=
  match g.memo? with
  | some _ => g
  | none => { content := g.content.assembled, memo? := some g.content.assemble }

/-- What a read of the condition alone leaves behind. -/
def afterHavingRead (g : Cached Grouping) : Cached Grouping :=
  { g with
    content := { g.content with having := g.content.having.afterRead Condition.render } }

inductive Edit
  | keys (change : ExprList.Edit)
  | having (change : Condition.Edit)
  deriving DecidableEq

def apply (change : Edit) (g : Grouping) : Except Error (Reply × Grouping) :=
  match change with
  | .keys change =>
    let (reply, keys) := ExprList.apply change g.keys
    .ok (reply, { g with keys })
  | .having change =>
    match g.having.edit? (Condition.apply change) with
    | (.ok reply, having) => .ok (reply, { g with having })
    | (.error e, _) => .error e

end Grouping

end SqlBuilder
