import SqlBuilder.Param.Basic

/-! # Parameters on one line

A summary names every attribute of a parameter and shows that it has a value without showing the
value.
-/

namespace SqlBuilder

def SqlType.title : SqlType → String
  | bool => "Bool"
  | int2 => "Int2"
  | int4 => "Int4"
  | int8 => "Int8"
  | text => "Text"
  | varchar => "Varchar"
  | uuid => "Uuid"

def SqlType.name : SqlType → String
  | bool => "bool"
  | int2 => "int2"
  | int4 => "int4"
  | int8 => "int8"
  | text => "text"
  | varchar => "varchar"
  | uuid => "uuid"

def Direction.title : Direction → String
  | input => "Input"
  | output => "Output"
  | inputOutput => "InputOutput"
  | returnValue => "ReturnValue"

namespace Param

/-- A character inside double quotes: quotes, backslashes and controls are written as escapes. -/
def escapeChar (c : Char) : List Char :=
  if c = '"' then ['\\', '"']
  else if c = '\\' then ['\\', '\\']
  else if c = '\n' then ['\\', 'n']
  else if c = '\r' then ['\\', 'r']
  else if c = '\t' then ['\\', 't']
  else if c.toNat = 0 then ['\\', '0']
  else if c.toNat < 0x20 ∨ c.toNat = 0x7F then
    "\\u\x7b".toList ++ Nat.toDigits 16 c.toNat ++ ['\x7d']
  else [c]

/-- A text between double quotes. -/
def escaped (s : String) : String :=
  String.ofList ('"' :: s.toList.flatMap escapeChar ++ ['"'])

def optionText : Option String → String
  | some s => "Some(" ++ s ++ ")"
  | none => "None"

/-- All attributes of a parameter on one line. -/
def summary (p : Param) : String :=
  let attributes :=
    [ "name: " ++ escaped p.name,
      "sql_type: " ++ optionText (p.type?.map SqlType.title),
      "direction: " ++ p.direction.title,
      "value: " ++ optionText (p.value?.map fun _ => escaped "<dyn ToSql>") ]
  "Param \x7b " ++ ", ".intercalate attributes ++ " \x7d"

end Param

end SqlBuilder
