/-! # Faults of identifiers -/

namespace SqlBuilder

/-- Why a text is no identifier. -/
inductive IdentFault
  | empty
  | nul
  | emptySegment
  | trailingDot
  | missingDot (found : Char)
  | unclosedQuote
  | emptyQuoted
  | invalidCharacter (found : Char) (whole : String)
  deriving DecidableEq, Repr

/-- A fault in words; a forbidden character is reported together with the whole text. -/
def IdentFault.describe : IdentFault → String
  | empty => "Identifier cannot be empty"
  | nul => "Identifier cannot contain NUL character"
  | emptySegment => "Empty identifier segment"
  | trailingDot => "Trailing '.' in identifier"
  | missingDot found => s!"Expected '.' between identifier parts, got '{found}'"
  | unclosedQuote => "Unclosed quoted identifier"
  | emptyQuoted => "Empty quoted identifier"
  | invalidCharacter found whole => s!"Invalid character '{found}' in identifier '{whole}'"

end SqlBuilder
