import SqlBuilder.Expr.Literal
import SqlBuilder.Param.List

/-! # Expressions

An expression is text that has been rendered, together with the parameters the text mentions. It
never changes, so what it was made from may change or go away without a trace in it. Expressions
made from named objects and aliases also carry the form other clauses refer to them by, and those
made from columns the bare name that INSERT and UPDATE write.
-/

namespace SqlBuilder

/-- Rendered text with its parameters. -/
structure Expr where
  text : String
  params : ParamList := ∅
  reference? : Option String := none
  column? : Option String := none
  deriving DecidableEq

namespace Expr

/-- Two expressions are alike when their texts agree. -/
def Alike (e f : Expr) : Prop := e.text = f.text

instance (e f : Expr) : Decidable (e.Alike f) := inferInstanceAs (Decidable (e.text = f.text))

/-- An expression that mentions a parameter. -/
def param (p : Param) : Expr := ⟨p.name, ParamList.ofList [p], none, none⟩

def literal (l : Literal) : Expr := { text := l.render }

def star : Expr := { text := "*" }

/-- The text other clauses refer to an expression by. -/
def reference (e : Expr) : String := e.reference?.getD e.text

/-- The name under which INSERT and UPDATE write to an expression. -/
def fieldName (e : Expr) : String := e.column?.getD e.text

/-- Whether an expression has a name to be referred to by. -/
def isNamed (e : Expr) : Bool := e.reference?.isSome

end Expr

end SqlBuilder
