import SqlBuilder.Param.Basic

/-! # Binding values

A value is bound to a column type in binary form: integers in their own width with the highest
byte first, Booleans as one byte, texts in UTF-8. An absent value binds NULL. A value is refused
by every type it was not made for, and a parameter without a value is NULL for every type.
-/

namespace SqlBuilder

/-- What binding a parameter to a column type comes to. -/
inductive Binding
  | bytes (data : List UInt8)
  | null
  | wrongType
  deriving DecidableEq

/-- The lowest `width` bytes of a number, the highest first. -/
def bigEndian : Nat → Nat → List UInt8
  | 0, _ => []
  | width + 1, n => UInt8.ofNat (n >>> (8 * width)) :: bigEndian width n

/-- The binary form of a value under a column type. -/
def Value.bind : Value → SqlType → Binding
  | .int8 n, .int8 => .bytes (bigEndian 8 n.toUInt64.toNat)
  | .int4 (some n), .int4 => .bytes (bigEndian 4 n.toUInt32.toNat)
  | .int4 none, .int4 => .null
  | .bool b, .bool => .bytes [if b then 1 else 0]
  | .text s, .text | .text s, .varchar => .bytes s.toUTF8.toList
  | _, _ => .wrongType

/-- The binary form of what a parameter holds. -/
def Param.bind (p : Param) (type : SqlType) : Binding :=
  match p.value? with
  | some value => value.bind type
  | none => .null

/-- Bytes as pairs of hexadecimal digits. -/
def hexText (data : List UInt8) : String :=
  String.ofList (data.flatMap fun byte =>
    [Nat.digitChar (byte.toNat / 16), Nat.digitChar (byte.toNat % 16)])

end SqlBuilder
