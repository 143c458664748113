import SqlBuilder.Cached
import SqlBuilder.Operator.Builtin

/-! # Values for fields

INSERT and UPDATE give values to the fields of a target. The fields are kept in the order they were
first given a value, and giving a field another value keeps its place. INSERT lists all fields
before all values, UPDATE writes each value next to its field.
-/

namespace SqlBuilder

/-- The two layouts of fields and values. -/
inductive Assignments.Layout
  | insert
  | update
  deriving DecidableEq, Repr

/-- A target and the values for its fields. -/
structure Assignments (layout : Assignments.Layout) where
  target? : Option Expr := none
  fields : List (Expr × Expr) := []
  deriving DecidableEq

namespace Assignments

variable {layout : Layout}

instance : Inhabited (Assignments layout) := ⟨{}⟩

/-- The clause can be written once it has a target and a field. -/
def isAvailable (a : Assignments layout) : Bool := a.target?.isSome && !a.fields.isEmpty

/-- Gives a value to the field of the same text, or adds the field at the end. -/
def assign (field value : Expr) : List (Expr × Expr) → List (Expr × Expr)
  | [] => [(field, value)]
  | (held, old) :: rest =>
    if held.text = field.text then (held, value) :: rest else (held, old) :: assign field value rest

def contains (a : Assignments layout) (field : Expr) : Bool :=
  a.fields.any fun entry => entry.1.text == field.text

def erase (a : Assignments layout) (field : Expr) : Assignments layout :=
  { a with fields := a.fields.filter fun entry => entry.1.text != field.text }

def value (a : Assignments layout) (field : Expr) : Except Error Expr :=
  match a.fields.find? fun entry => entry.1.text == field.text with
  | some (_, value) => .ok value
  | none => .error (.unassigned field.text)

/-- The parameters of the target, then of each field and its value. -/
def params (a : Assignments layout) : ParamList :=
  .unions ((a.target?.map Expr.params).toList ++
    a.fields.flatMap fun entry => [entry.1.params, entry.2.params])

/-- A field with its value, as UPDATE writes them. -/
def renderAssignment (entry : Expr × Expr) : Except Error String := do
  let e ← Operator.assignment.compute
    [{ text := entry.1.fieldName, params := entry.1.params }, entry.2]
  return e.text

/-- The fields and values of a target. -/
def renderFields (target : Expr) (fields : List (Expr × Expr)) : Layout → Except Error String
  | .insert =>
    let names := ", ".intercalate (fields.map fun entry => entry.1.fieldName)
    let values := ", ".intercalate (fields.map fun entry => entry.2.text)
    .ok (target.text ++ " (" ++ names ++ ") VALUES (" ++ values ++ ")")
  | .update => do
    let assignments ← fields.mapM renderAssignment
    return target.text ++ " SET " ++ ", ".intercalate assignments

/-- The text of the clause, which needs a target and fields. -/
def render (a : Assignments layout) : Except Error String :=
  match a.target?, a.fields with
  | none, _ => .error .noTarget
  | some _, [] => .error .noFields
  | some target, fields => renderFields target fields layout

inductive Edit
  | setTarget (e : Expr)
  | assign (field value : Expr)
  | erase (field : Expr)
  | clear
  deriving DecidableEq

def apply (change : Edit) (a : Assignments layout) : Reply × Assignments layout :=
  match change with
  | .setTarget e => (.done, { a with target? := some e })
  | .assign field value => (.done, { a with fields := assign field value a.fields })
  | .erase field => (.flag (a.contains field), a.erase field)
  | .clear => (.done, { a with fields := [] })

end Assignments

end SqlBuilder
