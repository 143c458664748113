import SqlBuilder.Expr.List
import SqlBuilder.Ident.Parser

/-! # Function calls

A call is a name with arguments in parentheses. Arguments may repeat. The text of a call is
remembered until its arguments change.
-/

namespace SqlBuilder

/-- A call of an SQL function. -/
structure Call where
  name : Ident
  args : ExprList .allowed := {}
  deriving DecidableEq

namespace Call

def create (name : NameSpec) : Except Error Call :=
  match name.resolve with
  | .ok name => .ok { name }
  | .error e => .error e

def ofArgs (name : NameSpec) (args : List Expr) : Except Error Call :=
  match name.resolve with
  | .ok name => .ok { name, args := (ExprList.empty.pushAll args).2 }
  | .error e => .error e

/-- The number of rows. -/
def countAll : Call :=
  { name := ⟨.bare ⟨"COUNT", by decide, by decide⟩, []⟩
    args := ExprList.empty.push .star }

def render (c : Call) : String := c.name.render ++ "(" ++ c.args.texts ++ ")"

/-- An argument that refers to an expression, with repeated values dropped when `distinct`. -/
def referenceArg (e : Expr) (distinct : Bool) : Expr :=
  { text := if distinct then "DISTINCT " ++ e.reference else e.reference, params := e.params }

def apply (change : ExprList.Edit) (c : Call) : Reply × Call :=
  let (reply, args) := ExprList.apply change c.args
  (reply, { c with args })

end Call

namespace Cached

def callText (c : Cached Call) : String := c.text Call.render

/-- The call as an expression, as it stands now. -/
def callExpr (c : Cached Call) : Expr := { text := c.callText, params := c.content.args.params }

end Cached

end SqlBuilder
