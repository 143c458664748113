import SqlBuilder.Ident.Basic

/-! # Reading identifiers

An identifier text is read part by part from the left. A part that opens with a double quote runs
to the closing quote; any other part runs to the next dot and must be a bare name. Between two
parts stands one dot.
-/

namespace SqlBuilder.Ident

/-- Reads the part at the front of `cs`, the rest of the identifier text `whole`. -/
def Part.read (whole : String) (cs : List Char) : Except IdentFault (Part × List Char) :=
  match cs with
  | '"' :: inside =>
    match Text.Quoted.scan '"' inside with
    | none => .error .unclosedQuote
    | some (name, after) => (Part.ofQuoted (String.ofList name)).map (·, after)
  | _ => (Part.ofSegment whole (cs.takeWhile (· != '.'))).map (·, cs.dropWhile (· != '.'))

/-- A part takes at least one character. -/
theorem Part.length_lt_of_read {whole : String} {cs after : List Char} {part : Part}
    (success : Part.read whole cs = .ok (part, after)) : after.length < cs.length := by
  unfold Part.read at success
  split at success
  · rename_i inside
    split at success
    · cases success
    · rename_i name left scanned
      cases made : Part.ofQuoted (String.ofList name) with
      | error fault => simp [made, Except.map] at success
      | ok part =>
        simp only [made, Except.map, Except.ok.injEq, Prod.mk.injEq] at success
        obtain ⟨-, rfl⟩ := success
        have := Text.Quoted.length_lt_of_scan scanned
        simp only [List.length_cons]
        omega
  · cases made : Part.ofSegment whole (cs.takeWhile (· != '.')) with
    | error fault => simp [made, Except.map] at success
    | ok part =>
      simp only [made, Except.map, Except.ok.injEq, Prod.mk.injEq] at success
      obtain ⟨-, rfl⟩ := success
      have nonempty : cs.takeWhile (· != '.') ≠ [] := by
        intro empty
        simp [Part.ofSegment, empty] at made
      have lengths :=
        congrArg List.length (List.takeWhile_append_dropWhile (p := (· != '.')) (l := cs))
      have := List.length_pos_iff.mpr nonempty
      simp only [List.length_append] at lengths
      omega

/-- Reads an identifier that takes up all of `cs`, the rest of the identifier text `whole`. -/
def readParts (whole : String) (cs : List Char) : Except IdentFault Ident :=
  match _read : Part.read whole cs with
  | .error fault => .error fault
  | .ok (part, []) => .ok ⟨part, []⟩
  | .ok (_, ['.']) => .error .trailingDot
  | .ok (part, '.' :: rest) => (readParts whole rest).map (cons part)
  | .ok (_, c :: _) => .error (.missingDot c)
termination_by cs.length
decreasing_by
  have := Part.length_lt_of_read _read
  simp only [List.length_cons] at this
  omega

def parse (s : String) : Except Error Ident :=
  if s.toList = [] then .error (.identifier .empty)
  else if '\x00' ∈ s.toList then .error (.identifier .nul)
  else
    match readParts s s.toList with
    | .ok ident => .ok ident
    | .error fault => .error (.identifier fault)

end SqlBuilder.Ident

namespace SqlBuilder

/-- A name as callers give it: a text still to be read, or an identifier. -/
inductive NameSpec
  | text (s : String)
  | ident (i : Ident)
  deriving DecidableEq

def NameSpec.resolve : NameSpec → Except Error Ident
  | text s => Ident.parse s
  | ident i => .ok i

end SqlBuilder
