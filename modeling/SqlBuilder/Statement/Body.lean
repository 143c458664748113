import SqlBuilder.Clause.Basic
import SqlBuilder.Reading

/-! # Statements made of clauses

A statement is written as its keyword and its available clauses in a fixed order, with single
spaces between them. It can be written once its required clause is available, and its text is
remembered until the next access that could change it. A read that has to render is reported.
-/

namespace SqlBuilder

/-- The contents of a statement that is made of clauses. -/
class StatementBody (β : Type) where
  /-- The kind of the statement. -/
  kind : StatementKind
  /-- Whether the required clause is available. -/
  isValid : β → Bool
  /-- The clauses in the order they are written. -/
  clauses : β → List Clause
  /-- What a read of the clause of a kind leaves behind. -/
  afterRead : ClauseKind → β → β

namespace StatementBody

variable {β : Type} [StatementBody β]

/-- The clauses that are written. -/
def available (body : β) : List Clause := (clauses body).filter Clause.isAvailable

/-- The parameters of the clauses that are written, in order. -/
def params (body : β) : ParamList := .unions ((available body).map Clause.params)

/-- A keyword, which may be empty, and the texts behind it. -/
def layOut (keyword : String) (texts : List String) : String :=
  " ".intercalate (if keyword = "" then texts else keyword :: texts)

/-- Lays out what the clauses that are written read as. -/
def compose (read : Clause → Except Error String) (body : β) : Except Error String := do
  let texts ← (available body).mapM read
  return layOut (kind β).keyword texts

/-- The text of a statement from its contents alone. -/
def render (body : β) : Except Error String :=
  if isValid body then compose Clause.render body else .error (.incomplete (kind β))

/-- What reading every clause that is written leaves behind. -/
def afterReads (body : β) : β :=
  (available body).foldl (fun body clause => afterRead clause.kind body) body

def read (s : Cached β) : Reading (Cached β) String :=
  if isValid s.content then
    match s.memo? with
    | some text => ⟨.ok text, s, []⟩
    | none =>
      match compose Clause.text s.content with
      | .ok text =>
        ⟨.ok text, ⟨afterReads s.content, some text⟩, [.rendered (kind β) text.utf8ByteSize]⟩
      | .error e => ⟨.error e, s, []⟩
  else ⟨.error (.incomplete (kind β)), s, []⟩

end StatementBody

end SqlBuilder
