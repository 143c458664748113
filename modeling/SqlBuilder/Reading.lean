import SqlBuilder.Error
import SqlBuilder.Statement.Kind

/-! # Readings and their events

Reading a statement or preparing commands is reported by events. A reading is the answer, the state
the read leaves behind, and the events in the order they happened; a read that fails leaves a state
behind too.
-/

namespace SqlBuilder

/-- What is reported about reads. -/
inductive Event
  /-- A statement was rendered; the length of its text is in bytes of UTF-8. -/
  | rendered (kind : StatementKind) (bytes : Nat)
  /-- Statements were prepared as commands that have this many parameters in all. -/
  | prepared (statements commands params : Nat)
  deriving DecidableEq, Repr

/-- What comes of a read. -/
structure Reading (σ α : Type) where
  answer : Except Error α
  state : σ
  events : List Event := []

namespace Reading

variable {σ α β : Type}

/-- Goes on with what was read; a failed reading stays as it is. -/
def andThen (first : Reading σ α) (next : α → σ → Reading σ β) : Reading σ β :=
  match first.answer with
  | .ok a =>
    let second := next a first.state
    { second with events := first.events ++ second.events }
  | .error e => ⟨.error e, first.state, first.events⟩

def map (f : α → β) (reading : Reading σ α) : Reading σ β :=
  { reading with answer := reading.answer.map f }

def mapState {τ : Type} (f : σ → τ) (reading : Reading σ α) : Reading τ α :=
  { reading with state := f reading.state }

/-- Reads one thing after the other, up to the first that fails. -/
def each (read : σ → α → Reading σ β) (state : σ) : List α → Reading σ (List β)
  | [] => ⟨.ok [], state, []⟩
  | a :: as =>
    (read state a).andThen fun b state => (each read state as).map (b :: ·)

end Reading

end SqlBuilder
