import SqlBuilder.Expr.Basic
import SqlBuilder.Ident.Parser

/-! # Aliases

An alias gives an expression a name of its own within a statement: the list that introduces it
writes `expression AS name`, and the other clauses refer to it by the name alone.
-/

namespace SqlBuilder

/-- An expression that may have been given a name. -/
structure Alias where
  target : Expr
  name? : Option Ident := none
  deriving DecidableEq

namespace Alias

def readName : Option String → Except Error (Option Ident)
  | none => .ok none
  | some s =>
    match Ident.parse s with
    | .ok ident => .ok (some ident)
    | .error e => .error e

/-- The expression under an optional name. -/
def create (target : Expr) (name? : Option String) : Except Error Alias :=
  match readName name? with
  | .ok ident? => .ok ⟨target, ident?⟩
  | .error e => .error e

/-- Gives the expression another name, or none. -/
def rename (a : Alias) (name? : Option String) : Except Error Alias := create a.target name?

def name (a : Alias) : Option String := a.name?.map Ident.render

def text (a : Alias) : String :=
  match a.name with
  | some name => a.target.text ++ " AS " ++ name
  | none => a.target.text

/-- The expression as the other clauses refer to it. -/
def reference (a : Alias) : String := a.name.getD a.target.reference

def params (a : Alias) : ParamList := a.target.params

/-- The alias as an expression; without a name it is the expression itself. -/
def toExpr (a : Alias) : Expr :=
  match a.name? with
  | some _ => { text := a.text, params := a.params, reference? := some a.reference }
  | none => a.target

end Alias

/-- The expression under a name. -/
def Expr.aliased (e : Expr) (name : String) : Except Error Expr :=
  match Alias.create e (some name) with
  | .ok a => .ok a.toExpr
  | .error e => .error e

end SqlBuilder
