import SqlBuilder.Expr.Literal

/-! # JSON values

Settings are kept as JSON. A number written with a point is a decimal even when its fraction is
zero, so it is no integer. An object is a list of members in the order they are written.
-/

namespace SqlBuilder

inductive Json
  | null
  | bool (b : Bool)
  | int (n : Int)
  | decimal (d : Decimal)
  | string (s : String)
  | array (items : List Json)
  | object (members : List (String × Json))

namespace Json

instance : Inhabited Json := ⟨null⟩

/-- The member of a key. A key that is given twice is refused. -/
def member? (key : String) (members : List (String × Json)) : Option (Option Json) :=
  match members.filter fun member => member.1 == key with
  | [] => some none
  | [(_, value)] => some (some value)
  | _ => none

def natBelow? (bound : Nat) : Json → Option Nat
  | int n => if 0 ≤ n ∧ n < bound then some n.toNat else none
  | _ => none

def string? : Json → Option String
  | string s => some s
  | _ => none

def nullable {α : Type} (read : Json → Option α) : Json → Option (Option α)
  | null => some none
  | value => (read value).map some

end Json

end SqlBuilder
