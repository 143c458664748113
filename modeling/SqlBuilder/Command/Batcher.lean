import SqlBuilder.Command.Config
import SqlBuilder.Statement.Basic

/-! # Commands

A command is what is sent at once: the texts of some statements with a separator between them,
their parameters, each once, and the time it may take. A batcher cuts a list of statements into
commands of at most the configured size.

Statements are held in a pool and listed by their place in it, so a statement that is listed twice
is rendered once.
-/

namespace SqlBuilder

/-- A command ready to be sent. -/
structure Command where
  text : String
  params : ParamList
  timeout? : Option Duration
  statements : Nat
  deriving DecidableEq

/-- Parameters can be bound to a single statement; a command without any needs no binding. -/
def Command.isBindable (c : Command) : Bool := c.statements == 1 || c.params.isEmpty

/-- Cuts a list into pieces of the given length, of which the last may be shorter. A length of zero
counts as one. -/
def cut {α : Type} (size : Nat) : List α → List (List α)
  | [] => []
  | a :: as => (a :: as.take (size - 1)) :: cut size (as.drop (size - 1))
termination_by as => as.length
decreasing_by simp only [List.length_drop, List.length_cons]; omega

namespace Command

variable {n : Nat}

/-- Reads the listed statements and puts the separator between their texts. -/
def readText (separator : String) (pool : Vector Statement n) (refs : List (Fin n)) :
    Reading (Vector Statement n) String :=
  if refs = [] then ⟨.error .noStatements, pool, []⟩
  else
    let texts := Reading.each
      (fun pool i => (Statement.read pool[i]).mapState fun s => pool.set i s) pool refs
    texts.map (separator.intercalate ·)

/-- Reads the listed statements as one command. -/
def read (separator : String) (timeout? : Option Duration) (pool : Vector Statement n)
    (refs : List (Fin n)) : Reading (Vector Statement n) Command :=
  (readText separator pool refs).map fun text =>
    { text
      params := .unions (refs.map fun i => pool[i].params)
      timeout?
      statements := refs.length }

end Command

/-- What prepares commands: valid settings, and the separator that is written. -/
structure Batcher where
  config : Config
  separator : String
  valid : config.validate = .ok ()
  deriving DecidableEq

namespace Batcher

/-- The batcher of some settings, with a separator of its own if one is given. -/
def create (config : Config) (separator? : Option String := none) : Except Error Batcher :=
  match valid : config.validate with
  | .ok () => .ok ⟨config, separator?.getD config.separator, valid⟩
  | .error e => .error e

/-- How many statements a command gets of a list of the given length. -/
def batchSize (b : Batcher) (count : Nat) : Nat :=
  match b.config.maxBatchSize? with
  | some size => size.toNat
  | none => count

/-- Prepares the listed statements as commands. The statements are read in order up to the first
that cannot be written; only a list without statements and such a statement are refused. -/
def prepare {n : Nat} (b : Batcher) (pool : Vector Statement n) (refs : List (Fin n)) :
    Reading (Vector Statement n) (List Command) :=
  if refs = [] then ⟨.error .noStatements, pool, []⟩
  else
    (Reading.each (Command.read b.separator b.config.timeout?) pool
      (cut (b.batchSize refs.length) refs)).andThen fun commands pool =>
        let params := commands.foldl (fun total c => total + c.params.size) 0
        ⟨.ok commands, pool, [.prepared refs.length commands.length params]⟩

end Batcher

end SqlBuilder
