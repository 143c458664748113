import SqlBuilder.Cached
import SqlBuilder.Operator.Builtin

/-! # Conditions on rows and groups

WHERE and HAVING hold one condition each, which can be replaced or extended by another one.
-/

namespace SqlBuilder

/-- What a condition selects. -/
inductive Condition.Role
  | rows
  | groups
  deriving DecidableEq, Repr

namespace Condition.Role

/-- WHERE selects rows and HAVING selects groups. -/
def kind : Role → ClauseKind
  | rows => .filter
  | groups => .groupFilter

/-- The role a kind of clause gives to a condition; other clauses hold none. -/
def ofKind : ClauseKind → Except Error Role
  | .filter => .ok rows
  | .groupFilter => .ok groups
  | kind => .error (.notACondition kind)

end Condition.Role

/-- A clause that holds a condition. -/
structure Condition (role : Condition.Role) where
  expr? : Option Expr := none
  deriving DecidableEq

namespace Condition

variable {role : Role}

instance : Inhabited (Condition role) := ⟨{}⟩

/-- The clause can be written once it has a condition. -/
def isAvailable (c : Condition role) : Bool := c.expr?.isSome

def params (c : Condition role) : ParamList := (c.expr?.map Expr.params).getD ∅

/-- The text of the clause; there is none without a condition. -/
def render (c : Condition role) : String :=
  match c.expr? with
  | some e => role.kind.keyword ++ " " ++ e.text
  | none => ""

/-- Extends the condition by another one, which stands alone if it is the first. -/
def extend (op : Operator) (c : Condition role) (e : Expr) : Except Error (Condition role) :=
  match c.expr? with
  | some held => (op.compute [held, e]).map fun both => ⟨some both⟩
  | none => .ok ⟨some e⟩

inductive Edit
  | set (e : Expr)
  | clear
  | and (e : Expr)
  | or (e : Expr)
  deriving DecidableEq

def apply (change : Edit) (c : Condition role) : Except Error (Reply × Condition role) :=
  match change with
  | .set e => .ok (.done, ⟨some e⟩)
  | .clear => .ok (.done, ⟨none⟩)
  | .and e => (c.extend .conjunction e).map (.done, ·)
  | .or e => (c.extend .disjunction e).map (.done, ·)

end Condition

end SqlBuilder
