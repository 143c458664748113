import SqlBuilder.Cached
import SqlBuilder.Expr.Basic

/-! # Lists of expressions

The arguments of a call, the columns of a SELECT and the keys of a GROUP BY are lists of
expressions. A list collects the parameters of what it accepts. Removing an expression keeps its
parameters, since another expression may mention them; only clearing the list drops them.
-/

namespace SqlBuilder

/-- Whether a list takes an expression whose text it holds already. -/
inductive Repeats
  | allowed
  | refused
  deriving DecidableEq, Repr

/-- A list of expressions with the parameters collected from them. -/
structure ExprList (repeats : Repeats) where
  items : List Expr := []
  params : ParamList := ∅
  deriving DecidableEq

namespace ExprList

variable {repeats : Repeats}

instance : Inhabited (ExprList repeats) := ⟨{}⟩

def contains (l : ExprList repeats) (e : Expr) : Bool := l.items.any fun item => item.text == e.text

/-- Whether the list takes an expression. -/
def accepts (l : ExprList repeats) (e : Expr) : Bool :=
  match repeats with
  | .allowed => true
  | .refused => !l.contains e

/-- Adds an expression at the end, if the list takes it. -/
def push (l : ExprList repeats) (e : Expr) : ExprList repeats :=
  if l.accepts e then ⟨l.items ++ [e], l.params ∪ e.params⟩ else l

/-- Adds expressions in order; the count is of those that were taken. -/
def pushAll (l : ExprList repeats) : List Expr → Nat × ExprList repeats
  | [] => (0, l)
  | e :: es =>
    let (count, rest) := (l.push e).pushAll es
    (if l.accepts e then count + 1 else count, rest)

/-- Removes the first expression of the same text. -/
def erase (l : ExprList repeats) (e : Expr) : ExprList repeats :=
  { l with items := l.items.eraseP fun item => item.text == e.text }

def empty : ExprList repeats := {}

def size (l : ExprList repeats) : Nat := l.items.length

def isEmpty (l : ExprList repeats) : Bool := l.items.isEmpty

/-- The expressions as they read where they are listed. -/
def texts (l : ExprList repeats) : String := ", ".intercalate (l.items.map Expr.text)

/-- The expressions as other clauses refer to them. -/
def references (l : ExprList repeats) : String := ", ".intercalate (l.items.map Expr.reference)

inductive Edit
  | push (e : Expr)
  | pushAll (es : List (Option Expr))
  | erase (e : Expr)
  | clear
  deriving DecidableEq

/-- Changes a list. Adding one expression answers whether it was taken, adding several how many of
those present were, and removing one whether it was there. -/
def apply (change : Edit) (l : ExprList repeats) : Reply × ExprList repeats :=
  match change with
  | .push e => (.flag (l.accepts e), l.push e)
  | .pushAll es =>
    let (count, pushed) := l.pushAll (es.filterMap id)
    (.count count, pushed)
  | .erase e => (.flag (l.contains e), l.erase e)
  | .clear => (.done, empty)

end ExprList

end SqlBuilder
