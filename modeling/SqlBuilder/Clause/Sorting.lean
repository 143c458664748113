import SqlBuilder.Cached
import SqlBuilder.Error
import SqlBuilder.Expr.Basic

/-! # The order of rows

An ORDER BY clause sorts by its keys from the first to the last, each in its own direction. Giving
a direction to a key that is listed already keeps the place of the key.
-/

namespace SqlBuilder

/-- The keys rows are sorted by, with the parameters collected from them. -/
structure Sorting where
  keys : List (Expr × SortOrder) := []
  params : ParamList := ∅
  deriving DecidableEq

namespace Sorting

instance : Inhabited Sorting := ⟨{}⟩

/-- The clause can be written once it has a key. -/
def isAvailable (s : Sorting) : Bool := !s.keys.isEmpty

/-- Gives a direction to the key of the same text, or adds the key at the end. -/
def direct (e : Expr) (order : SortOrder) : List (Expr × SortOrder) → List (Expr × SortOrder)
  | [] => [(e, order)]
  | (key, old) :: rest =>
    if key.text = e.text then (key, order) :: rest else (key, old) :: direct e order rest

/-- Sorts by one more key, or by a key in another direction. Its parameters are collected either
way. -/
def insert (s : Sorting) (e : Expr) (order : SortOrder) : Sorting :=
  ⟨direct e order s.keys, s.params ∪ e.params⟩

def contains (s : Sorting) (e : Expr) : Bool := s.keys.any fun key => key.1.text == e.text

/-- Stops sorting by an expression; the parameters stay. -/
def erase (s : Sorting) (e : Expr) : Sorting :=
  { s with keys := s.keys.filter fun key => key.1.text != e.text }

def direction (s : Sorting) (e : Expr) : Except Error SortOrder :=
  match s.keys.find? fun key => key.1.text == e.text with
  | some (_, order) => .ok order
  | none => .error (.unsorted e.text)

def renderKey (key : Expr × SortOrder) : String :=
  "(" ++ key.1.reference ++ ") " ++ key.2.keyword

/-- The text of the clause; there is none without keys. -/
def render (s : Sorting) : String :=
  if s.isAvailable then "ORDER BY " ++ ", ".intercalate (s.keys.map renderKey) else ""

inductive Edit
  | insert (e : Expr) (order : SortOrder)
  | erase (e : Expr)
  | clear
  deriving DecidableEq

def apply (change : Edit) (s : Sorting) : Reply × Sorting :=
  match change with
  | .insert e order => (.done, s.insert e order)
  | .erase e => (.flag (s.contains e), s.erase e)
  | .clear => (.done, {})

end Sorting

end SqlBuilder
