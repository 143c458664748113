import SqlBuilder.Error
import SqlBuilder.Text.Blank

/-! # Bind parameters

A bind parameter is known by the number it was issued under: two parameters are the same exactly
when their numbers agree, whatever they are called and whatever they hold. Numbers come from a
supply, which never issues one twice.
-/

namespace SqlBuilder

/-- The column types a parameter can be declared with. -/
inductive SqlType
  | bool
  | int2
  | int4
  | int8
  | text
  | varchar
  | uuid
  deriving DecidableEq, Repr

def SqlType.all : List SqlType := [bool, int2, int4, int8, text, varchar, uuid]

/-- The ways a value can pass between a statement and its caller. -/
inductive Direction
  | input
  | output
  | inputOutput
  | returnValue
  deriving DecidableEq, Repr, Inhabited

def Direction.all : List Direction := [input, output, inputOutput, returnValue]

/-- The values a parameter can hold. A 32-bit integer may be absent and still have its width. -/
inductive Value
  | int8 (n : Int64)
  | int4 (n : Option Int32)
  | bool (b : Bool)
  | text (s : String)
  deriving DecidableEq

/-- A bind parameter. Its name is the placeholder written into statements. -/
structure Param where
  id : Nat
  name : String
  value? : Option Value
  type? : Option SqlType := none
  direction : Direction := .input
  named : Text.allBlank name = false
  deriving DecidableEq

namespace Param

/-- Two parameters are the same when they were issued under one number. -/
def Same (p q : Param) : Prop := p.id = q.id

instance (p q : Param) : Decidable (p.Same q) := inferInstanceAs (Decidable (p.id = q.id))

/-- The number the next parameter is issued under. -/
structure Supply where
  next : Nat := 0
  deriving DecidableEq, Repr, Inhabited

/-- Issues a parameter, unless its name is blank. -/
def Supply.issue (supply : Supply) (name : String) (value? : Option Value)
    (type? : Option SqlType := none) (direction : Direction := .input) :
    Except Error (Param × Supply) :=
  if named : Text.allBlank name = false then
    .ok (⟨supply.next, name, value?, type?, direction, named⟩, ⟨supply.next + 1⟩)
  else .error .blankParamName

end Param

end SqlBuilder
