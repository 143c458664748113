import SqlBuilder.Error
import SqlBuilder.Json

/-! # Settings of commands

The settings say how long a command may run, how many statements it may hold, and what stands
between their texts. They are written as a JSON object with one member for each setting, and read
back from such an object or from a list of the settings in the same order. What is missing takes
its default.
-/

namespace SqlBuilder

/-- A span of time: seconds, and nanoseconds short of one more second. -/
structure Duration where
  secs : UInt64
  nanos : Nat
  nanos_lt : nanos < 1000000000
  deriving DecidableEq

namespace Duration

/-- The span of so many seconds and nanoseconds, unless its seconds exceed 64 bits. -/
def ofParts? (secs nanos : Nat) : Option Duration :=
  let total := secs + nanos / 1000000000
  if total < UInt64.size then
    some ⟨UInt64.ofNat total, nanos % 1000000000, Nat.mod_lt _ (by decide)⟩
  else none

/-- The seconds and nanoseconds of a JSON value: an object of exactly these two members, or a list
of the two. -/
def partsOfJson? : Json → Option (Json × Json)
  | .array [secs, nanos] => some (secs, nanos)
  | .object [("secs", secs), ("nanos", nanos)] => some (secs, nanos)
  | .object [("nanos", nanos), ("secs", secs)] => some (secs, nanos)
  | _ => none

/-- Reads a span; its nanoseconds fit 32 bits and may amount to seconds. -/
def ofJson? (json : Json) : Option Duration := do
  let (secs, nanos) ← partsOfJson? json
  ofParts? (← secs.natBelow? UInt64.size) (← nanos.natBelow? UInt32.size)

def toJson (d : Duration) : Json := .object [("secs", .int d.secs.toNat), ("nanos", .int d.nanos)]

end Duration

/-- The settings of commands. -/
structure Config where
  /-- How long a command may run. -/
  timeout? : Option Duration := none
  /-- How many statements a command may hold. -/
  maxBatchSize? : Option UInt64 := none
  /-- What stands between the statements of a command. -/
  separator : String := ";"
  deriving DecidableEq

namespace Config

instance : Inhabited Config := ⟨{}⟩

/-- Refuses settings under which nothing can be sent. -/
def validate (config : Config) : Except Error Unit :=
  if config.maxBatchSize? = some 0 then .error .zeroBatchSize
  else if config.separator = "" then .error .emptySeparator
  else .ok ()

def toJson (config : Config) : Json :=
  .object
    [ ("command_timeout", (config.timeout?.map Duration.toJson).getD .null),
      ("max_batch_size", (config.maxBatchSize?.map fun size => .int size.toNat).getD .null),
      ("separator", .string config.separator) ]

/-- Reads the settings from JSON values; those that are missing take their defaults. -/
def ofValues? (timeout size separator : Option Json) : Option Config := do
  let timeout? ← (timeout.getD .null).nullable Duration.ofJson?
  let size? ← (size.getD .null).nullable (Json.natBelow? UInt64.size)
  let separator ← (separator.getD (.string ";")).string?
  return ⟨timeout?, size?.map UInt64.ofNat, separator⟩

/-- Reads the settings from an object, in any order and among other members, or from a list. -/
def ofJson? : Json → Option Config
  | .object members => do
    let timeout ← Json.member? "command_timeout" members
    let size ← Json.member? "max_batch_size" members
    let separator ← Json.member? "separator" members
    ofValues? timeout size separator
  | .array [] => ofValues? none none none
  | .array [timeout] => ofValues? (some timeout) none none
  | .array [timeout, size] => ofValues? (some timeout) (some size) none
  | .array [timeout, size, separator] => ofValues? (some timeout) (some size) (some separator)
  | _ => none

end Config

end SqlBuilder
