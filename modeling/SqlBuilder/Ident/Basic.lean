import SqlBuilder.Error
import SqlBuilder.Text.Quoted

/-! # Identifiers

An identifier is a non-empty sequence of parts. A bare part is a name of ASCII letters, digits,
`_` and `$` that starts with a letter or `_`; a quoted part is any non-empty text without NUL. The
rules are part of the types, so an identifier that exists can be written into a statement.
-/

namespace SqlBuilder

/-- The characters a bare name starts with. -/
def startsBareName (c : Char) : Bool := c == '_' || c.isAlpha

/-- The characters a bare name goes on with. -/
def continuesBareName (c : Char) : Bool := c == '_' || c == '$' || c.isAlphanum

/-- The first character that keeps a text from being a bare name. -/
def firstOffender? : List Char → Option Char
  | [] => none
  | c :: rest => if startsBareName c then rest.find? (!continuesBareName ·) else some c

/-- A name that needs no quotes. -/
structure BareName where
  text : String
  nonempty : text.toList ≠ []
  clean : firstOffender? text.toList = none
  deriving DecidableEq

/-- A name that is written between double quotes. -/
structure QuotedName where
  text : String
  nonempty : text.toList ≠ []
  clean : '\x00' ∉ text.toList
  deriving DecidableEq

namespace Ident

/-- One part of an identifier. -/
inductive Part
  | bare (name : BareName)
  | quoted (name : QuotedName)
  deriving DecidableEq

namespace Part

def text : Part → String
  | bare name => name.text
  | quoted name => name.text

/-- A part as it is written: a quoted name stands between double quotes, its own quotes doubled. -/
def render : Part → String
  | bare name => name.text
  | quoted name => Text.Quoted.enclose '"' name.text

/-- The bare part spelled by `segment`, a piece of the identifier text `whole`. -/
def ofSegment (whole : String) (segment : List Char) : Except IdentFault Part :=
  if empty : segment = [] then .error .emptySegment
  else
    match offence : firstOffender? segment with
    | some c => .error (.invalidCharacter c whole)
    | none =>
      .ok (.bare ⟨String.ofList segment, by simpa using empty, by simpa using offence⟩)

/-- The quoted part with the given name. -/
def ofQuoted (name : String) : Except IdentFault Part :=
  if empty : name.toList = [] then .error .emptyQuoted
  else if nul : '\x00' ∈ name.toList then .error .nul
  else .ok (.quoted ⟨name, empty, nul⟩)

end Part

end Ident

/-- A possibly dotted identifier. -/
structure Ident where
  head : Ident.Part
  tail : List Ident.Part := []
  deriving DecidableEq

namespace Ident

def parts (ident : Ident) : List Part := ident.head :: ident.tail

/-- The identifier as it is written, its parts separated by dots. -/
def render (ident : Ident) : String := ".".intercalate (ident.parts.map Part.render)

/-- The identifier with one more part in front. -/
def cons (part : Part) (ident : Ident) : Ident := ⟨part, ident.parts⟩

/-- The identifier of one quoted part, for any text a quoted part can hold. -/
def quoted (name : String) : Except Error Ident :=
  match Part.ofQuoted name with
  | .ok part => .ok ⟨part, []⟩
  | .error fault => .error (.identifier fault)

@[simp]
theorem parts_cons (part : Part) (ident : Ident) : (ident.cons part).parts = part :: ident.parts :=
  rfl

end Ident

end SqlBuilder
