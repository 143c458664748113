import SqlBuilder.Call

/-! # Named objects

Schemas, tables, columns, server variables and function results are kept in a catalogue. Callers
hold handles, and an object lives as long as someone holds one. An object knows its owner without
holding a handle on it: a live owner qualifies the names of what it owns, and once it is dead they
stand alone. Owners are older than what they own, so the walk up the owners ends.
-/

namespace SqlBuilder

/-- The number an object was entered under; the first object has number zero. -/
abbrev ObjectId := Nat

/-- A named object. -/
structure NamedObject where
  kind : ObjectKind
  name : Ident
  owner? : Option ObjectId
  source : Expr
  deriving DecidableEq

namespace NamedObject

/-- An object with a name of its own. Function results are made from calls instead. -/
def ofName (kind : ObjectKind) (name : Ident) (owner? : Option ObjectId) :
    Except Error NamedObject :=
  match kind with
  | .functionResult => .error .resultWithoutCall
  | .serverVariable => .ok ⟨kind, name, owner?, { text := "@@" ++ name.render }⟩
  | .schema | .table | .column => .ok ⟨kind, name, owner?, { text := name.render }⟩

/-- The result of a call, as the call stands now. Its name is read from the text of the called
function's name. -/
def ofCall (call : Cached Call) : Except Error NamedObject :=
  match Ident.parse call.content.name.render with
  | .ok name => .ok ⟨.functionResult, name, none, call.callExpr⟩
  | .error e => .error e

/-- The full name of an object below an owner of the given full name. Server variables and function
results are known by their source alone. -/
def fullname (object : NamedObject) (owner? : Option String) : String :=
  match object.kind with
  | .serverVariable | .functionResult => object.source.text
  | .schema | .table | .column =>
    match owner? with
    | some owner => owner ++ "." ++ object.name.render
    | none => object.name.render

end NamedObject

/-- A named object in the catalogue, with the number of handles held on it. -/
structure CatalogEntry where
  object : NamedObject
  handles : Nat := 1
  deriving DecidableEq

/-- Everything that has been entered, the newest first. -/
structure Catalog where
  entries : List CatalogEntry := []
  deriving DecidableEq

/-- A named object as the catalogue has it: with the owner it has left and its full name. -/
structure Located where
  id : ObjectId
  object : NamedObject
  owner? : Option ObjectId
  fullname : String
  deriving DecidableEq

namespace Catalog

instance : Inhabited Catalog := ⟨{}⟩

def find? : List CatalogEntry → ObjectId → Option CatalogEntry
  | [], _ => none
  | entry :: older, id => if id = older.length then some entry else find? older id

/-- Whether someone holds a handle on an object. -/
def isLive (entries : List CatalogEntry) (id : ObjectId) : Bool :=
  (find? entries id).any fun entry => 0 < entry.handles

/-- The owner of an object, if it lives. -/
def liveOwner? (entries : List CatalogEntry) (object : NamedObject) : Option ObjectId :=
  object.owner?.filter (isLive entries)

/-- The full name of an object: its name behind the full name of its live owner. -/
def fullname? : List CatalogEntry → ObjectId → Option String
  | [], _ => none
  | entry :: older, id =>
    if id = older.length then
      some (entry.object.fullname ((liveOwner? older entry.object).bind (fullname? older)))
    else fullname? older id

def locate? (catalog : Catalog) (id : ObjectId) : Option Located := do
  let entry ← find? catalog.entries id
  let fullname ← fullname? catalog.entries id
  return ⟨id, entry.object, liveOwner? catalog.entries entry.object, fullname⟩

/-- Enters an object; the caller gets the first handle on it. -/
def enter (catalog : Catalog) (object : NamedObject) : ObjectId × Catalog :=
  (catalog.entries.length, ⟨{ object } :: catalog.entries⟩)

/-- Enters an object without an owner. -/
def create (catalog : Catalog) (kind : ObjectKind) (name : NameSpec) :
    Except Error (ObjectId × Catalog) := do
  let name ← name.resolve
  let object ← NamedObject.ofName kind name none
  return catalog.enter object

/-- Enters an object below an owner, which has to be of a kind that owns objects. -/
def createBelow (catalog : Catalog) (owner : Located) (kind : ObjectKind) (name : NameSpec) :
    Except Error (ObjectId × Catalog) :=
  if owner.object.kind.ownsObjects then do
    let name ← name.resolve
    let object ← NamedObject.ofName kind name (some owner.id)
    return catalog.enter object
  else .error (.cannotOwn owner.object.kind)

def createResult (catalog : Catalog) (call : Cached Call) : Except Error (ObjectId × Catalog) := do
  let object ← NamedObject.ofCall call
  return catalog.enter object

def adjust (change : Nat → Nat) : List CatalogEntry → ObjectId → List CatalogEntry
  | [], _ => []
  | entry :: older, id =>
    if id = older.length then { entry with handles := change entry.handles } :: older
    else entry :: adjust change older id

/-- Takes another handle on an object. -/
def retain (catalog : Catalog) (id : ObjectId) : Catalog := ⟨adjust (· + 1) catalog.entries id⟩

/-- Gives a handle on an object back. -/
def release (catalog : Catalog) (id : ObjectId) : Catalog := ⟨adjust (· - 1) catalog.entries id⟩

end Catalog

namespace Located

def name (o : Located) : String := o.object.name.render

/-- The object as an expression. Columns keep the bare name that INSERT and UPDATE write. -/
def toExpr (o : Located) : Expr :=
  { text := o.fullname
    params := o.object.source.params
    reference? := some o.fullname
    column? := if o.object.kind = .column then some o.name else none }

end Located

end SqlBuilder
