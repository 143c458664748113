import SqlBuilder.Text.Quoted

/-! # Literals

A literal is written into a statement as it stands. Decimals are written without zeros at the end
of their fraction, and without a point when no fraction is left. A negative zero keeps its sign.
-/

namespace SqlBuilder

/-- The decimal number `magnitude / 10 ^ places` with a sign. Zero has a sign as well. -/
structure Decimal where
  negative : Bool
  magnitude : Nat
  places : Nat
  deriving DecidableEq, Repr

namespace Decimal

def ofInt (n : Int) : Decimal := ⟨n < 0, n.natAbs, 0⟩

/-- The digits of a decimal as an integer. -/
def mantissa (d : Decimal) : Int := if d.negative then -d.magnitude else d.magnitude

/-- The number `magnitude / 10 ^ places` with a sign, and with no zero at the end of its
fraction. -/
def stripZeros (negative : Bool) (magnitude : Nat) : Nat → Decimal
  | 0 => ⟨negative, magnitude, 0⟩
  | places + 1 =>
    if magnitude % 10 = 0 then stripZeros negative (magnitude / 10) places
    else ⟨negative, magnitude, places + 1⟩

def digits (d : Decimal) : String :=
  let all := Nat.toDigits 10 d.magnitude
  let padded := List.replicate (d.places + 1 - all.length) '0' ++ all
  let sign := if d.negative then "-" else ""
  let whole := String.ofList (padded.take (padded.length - d.places))
  let fraction := String.ofList (padded.drop (padded.length - d.places))
  if d.places = 0 then sign ++ whole else sign ++ whole ++ "." ++ fraction

def render (d : Decimal) : String := (stripZeros d.negative d.magnitude d.places).digits

end Decimal

/-- The values that can be written into a statement. -/
inductive Literal
  | bool (b : Bool)
  | int (n : Int)
  | decimal (d : Decimal)
  | verbatim (s : String)
  | quoted (s : String)
  | null
  deriving DecidableEq

/-- The text of a literal. A quoted literal is a string of the statement's language; a verbatim
one is written as it is. -/
def Literal.render : Literal → String
  | bool true => "true"
  | bool false => "false"
  | int n => (Decimal.ofInt n).render
  | decimal d => d.render
  | verbatim s => s
  | quoted s => Text.Quoted.enclose '\'' s
  | null => "NULL"

end SqlBuilder
