import SqlBuilder.Proofs.Ident.RoundTrip

/-! # Qualified names

Objects are entered below owners that are in the catalogue already and can own objects; this holds
of every catalogue that can be reached, whichever handles have been given back. So the walk from an
object to its owner and on to the owner's owner ends, at the first object that has no owner or has
lost it. The full name of a schema, a table or a column is made of the names on this chain, and is
an identifier again: no function result and no server variable, whose full names are other texts,
stands on it.
-/

namespace SqlBuilder

namespace Ident

/-- The identifier of all parts of two identifiers. -/
def append (left right : Ident) : Ident := ⟨left.head, left.tail ++ right.parts⟩

@[simp]
theorem parts_append (left right : Ident) : (left.append right).parts = left.parts ++ right.parts :=
  rfl

theorem render_append (left right : Ident) :
    (left.append right).render = left.render ++ "." ++ right.render := by
  simp only [render, append, parts, ← List.cons_append, List.map_append]
  exact String.intercalate_append_of_ne_nil (by simp) (by simp)

end Ident

namespace Catalog

/-- The catalogues that can be reached. -/
inductive Reached : Catalog → Prop
  | empty : Reached {}
  | create {catalog next : Catalog} {kind : ObjectKind} {name : NameSpec} {id : ObjectId}
      (reached : Reached catalog) (ok : catalog.create kind name = .ok (id, next)) : Reached next
  | createBelow {catalog next : Catalog} {owner : Located} {kind : ObjectKind} {name : NameSpec}
      {id : ObjectId} (reached : Reached catalog) (held : catalog.locate? owner.id = some owner)
      (ok : catalog.createBelow owner kind name = .ok (id, next)) : Reached next
  | createResult {catalog next : Catalog} {call : Cached Call} {id : ObjectId}
      (reached : Reached catalog) (ok : catalog.createResult call = .ok (id, next)) : Reached next
  | retain {catalog : Catalog} (id : ObjectId) (reached : Reached catalog) :
      Reached (catalog.retain id)
  | release {catalog : Catalog} (id : ObjectId) (reached : Reached catalog) :
      Reached (catalog.release id)

/-- Every owner is older than what it owns, and of a kind that owns objects. -/
def Rooted : List CatalogEntry → Prop
  | [] => True
  | entry :: older =>
    (∀ id ∈ entry.object.owner?, ∃ owner, find? older id = some owner ∧
      owner.object.kind.ownsObjects = true) ∧ Rooted older

variable {entries : List CatalogEntry} {entry : CatalogEntry} {catalog next : Catalog}
  {object : NamedObject} {kind : ObjectKind} {name : NameSpec} {id : ObjectId}

theorem length_adjust (change : Nat → Nat) (entries : List CatalogEntry) (id : ObjectId) :
    (adjust change entries id).length = entries.length := by
  fun_induction adjust change entries id with
  | case1 => rfl
  | case2 => rfl
  | case3 entry older id _ ih => simp [ih]

/-- Taking and giving handles changes no object. -/
theorem object_find?_adjust (change : Nat → Nat) (entries : List CatalogEntry)
    (id other : ObjectId) :
    (find? (adjust change entries id) other).map CatalogEntry.object =
      (find? entries other).map CatalogEntry.object := by
  fun_induction adjust change entries id with
  | case1 => rfl
  | case2 entry older =>
    simp only [find?]
    split <;> rfl
  | case3 entry older id _ ih =>
    simp only [find?, length_adjust]
    split
    · rfl
    · exact ih

/-- Handles have no part in who owns what. -/
theorem rooted_adjust (change : Nat → Nat) (id : ObjectId) (rooted : Rooted entries) :
    Rooted (adjust change entries id) := by
  fun_induction adjust change entries id with
  | case1 => exact rooted
  | case2 => exact rooted
  | case3 entry older id _ ih =>
    refine ⟨?_, ih rooted.2⟩
    intro above owns
    obtain ⟨owner, found, able⟩ := rooted.1 above owns
    have kept := object_find?_adjust change older id above
    rw [found, Option.map_some, Option.map_eq_some_iff] at kept
    obtain ⟨adjusted, held, same⟩ := kept
    exact ⟨adjusted, held, same ▸ able⟩

theorem owner?_of_ofName {name : Ident} {owner? : Option ObjectId}
    (ok : NamedObject.ofName kind name owner? = .ok object) : object.owner? = owner? := by
  cases kind <;> simp only [NamedObject.ofName, Except.ok.injEq, reduceCtorEq] at ok <;>
    rw [← ok]

/-- An object is located as the one that was entered, under the full name it has now. -/
theorem find?_of_locate? {located : Located} (found : catalog.locate? id = some located) :
    ∃ entry, find? catalog.entries id = some entry ∧ entry.object = located.object ∧
      fullname? catalog.entries id = some located.fullname := by
  simp only [locate?, bind, Option.bind_eq_some_iff, pure, Option.some.injEq] at found
  obtain ⟨entry, held, fullname, named, rfl⟩ := found
  exact ⟨entry, held, rfl, named⟩

/-- What is entered by name has no owner. -/
theorem create_eq_ok (ok : catalog.create kind name = .ok (id, next)) :
    ∃ object, object.owner? = none ∧ next = (catalog.enter object).2 := by
  unfold create at ok
  cases resolved : name.resolve with
  | error e => simp [resolved, bind, Except.bind] at ok
  | ok ident =>
    cases made : NamedObject.ofName kind ident none with
    | error e => simp [resolved, made, bind, Except.bind] at ok
    | ok object =>
      simp only [resolved, made, bind, Except.bind, pure, Except.pure, Except.ok.injEq] at ok
      exact ⟨object, owner?_of_ofName made, by rw [ok]⟩

/-- What is entered below an owner is owned by it, and the owner can own objects. -/
theorem createBelow_eq_ok {owner : Located}
    (ok : catalog.createBelow owner kind name = .ok (id, next)) :
    owner.object.kind.ownsObjects = true ∧
      ∃ object, object.owner? = some owner.id ∧ next = (catalog.enter object).2 := by
  unfold createBelow at ok
  split at ok
  · next able =>
    refine ⟨able, ?_⟩
    cases resolved : name.resolve with
    | error e => simp [resolved, bind, Except.bind] at ok
    | ok ident =>
      cases made : NamedObject.ofName kind ident (some owner.id) with
      | error e => simp [resolved, made, bind, Except.bind] at ok
      | ok object =>
        simp only [resolved, made, bind, Except.bind, pure, Except.pure, Except.ok.injEq] at ok
        exact ⟨object, owner?_of_ofName made, by rw [ok]⟩
  · cases ok

/-- The result of a call has no owner. -/
theorem createResult_eq_ok {call : Cached Call}
    (ok : catalog.createResult call = .ok (id, next)) :
    ∃ object, object.owner? = none ∧ next = (catalog.enter object).2 := by
  unfold createResult at ok
  cases read : Ident.parse call.content.name.render with
  | error e => simp [NamedObject.ofCall, read, bind, Except.bind] at ok
  | ok name =>
    simp only [NamedObject.ofCall, read, bind, Except.bind, pure, Except.pure,
      Except.ok.injEq] at ok
    exact ⟨⟨.functionResult, name, none, call.callExpr⟩, rfl, by rw [ok]⟩

/-- Owners are entered before what they own, and objects of other kinds never become owners. -/
theorem Reached.rooted (reached : Reached catalog) : Rooted catalog.entries := by
  induction reached with
  | empty => trivial
  | create _ ok ih =>
    obtain ⟨object, free, rfl⟩ := create_eq_ok ok
    exact ⟨by simp [free], ih⟩
  | createBelow _ held ok ih =>
    obtain ⟨able, object, owned, rfl⟩ := createBelow_eq_ok ok
    obtain ⟨entry, found, same, -⟩ := find?_of_locate? held
    refine ⟨?_, ih⟩
    intro id owns
    obtain rfl : _ = id := by simpa [owned] using owns
    exact ⟨entry, found, same ▸ able⟩
  | createResult _ ok ih =>
    obtain ⟨object, free, rfl⟩ := createResult_eq_ok ok
    exact ⟨by simp [free], ih⟩
  | retain id _ ih => exact rooted_adjust (· + 1) id ih
  | release id _ ih => exact rooted_adjust (· - 1) id ih

/-- An object that could own others is fully named by its name behind that of its owner. -/
theorem fullname_of_ownsObjects (able : object.kind.ownsObjects = true) (owner? : Option String) :
    object.fullname owner? = owner?.elim object.name.render (· ++ "." ++ object.name.render) := by
  unfold NamedObject.fullname
  cases kind : object.kind <;> simp_all [ObjectKind.ownsObjects] <;> cases owner? <;> rfl

/-! ### Chains of owners -/

theorem find?_lt (found : find? entries id = some entry) : id < entries.length := by
  induction entries with
  | nil => cases found
  | cons newest older ih =>
    rw [find?] at found
    split at found
    · next own => simp [own]
    · exact Nat.lt_succ_of_lt (ih found)

/-- What was entered before is found as before. -/
theorem find?_cons_of_lt (newest : CatalogEntry) (older : id < entries.length) :
    find? (newest :: entries) id = find? entries id := by
  rw [find?, if_neg (Nat.ne_of_lt older)]

/-- The owner of an object is among the objects entered before it. -/
theorem Rooted.owner_entered {owner : ObjectId} (rooted : Rooted entries)
    (found : find? entries id = some entry) (owned : entry.object.owner? = some owner) :
    owner < id ∧ ∃ above, find? entries owner = some above ∧
      above.object.kind.ownsObjects = true := by
  induction entries with
  | nil => cases found
  | cons newest older ih =>
    rw [find?] at found
    split at found
    · next own =>
      obtain rfl := Option.some.inj found
      obtain ⟨above, held, able⟩ := rooted.1 owner owned
      have before := find?_lt held
      exact ⟨own ▸ before, above, (find?_cons_of_lt newest before).trans held, able⟩
    · obtain ⟨before, above, held, able⟩ := ih rooted.2 found
      exact ⟨before, above, (find?_cons_of_lt newest (find?_lt held)).trans held, able⟩

/-- The full name of the owner of an object, if it lives. -/
def qualifier? (entries : List CatalogEntry) (object : NamedObject) : Option String :=
  (liveOwner? entries object).bind (fullname? entries)

/-- What is entered later does not qualify what is there. -/
theorem qualifier?_cons (newest : CatalogEntry)
    (older : ∀ owner ∈ object.owner?, owner < entries.length) :
    qualifier? (newest :: entries) object = qualifier? entries object := by
  unfold qualifier? liveOwner?
  cases owned : object.owner? with
  | none => rfl
  | some owner =>
    have before := older owner owned
    have live : isLive (newest :: entries) owner = isLive entries owner := by
      rw [isLive, isLive, find?_cons_of_lt newest before]
    have named : fullname? (newest :: entries) owner = fullname? entries owner := by
      rw [fullname?, if_neg (Nat.ne_of_lt before)]
    simp only [Option.filter_some, live]
    split <;> simp [named]

/-- The full name of an object is its name behind the full name of its owner, both as the whole
catalogue has them. -/
theorem fullname?_eq (rooted : Rooted entries) (found : find? entries id = some entry) :
    fullname? entries id = some (entry.object.fullname (qualifier? entries entry.object)) := by
  induction entries with
  | nil => cases found
  | cons newest older ih =>
    have before : ∀ owner ∈ entry.object.owner?, owner < id := fun owner owned =>
      (rooted.owner_entered found owned).1
    rw [fullname?]
    rw [find?] at found
    split at found
    · next own =>
      obtain rfl := Option.some.inj found
      rw [if_pos own, qualifier?_cons newest (own ▸ before)]
      rfl
    · next other =>
      rw [if_neg other, ih rooted.2 found, qualifier?_cons newest fun owner owned =>
        Nat.lt_trans (before owner owned) (find?_lt found)]

/-- The objects that name an object, from the outermost owner down to the object itself. The chain
goes up from an object to its owner while the owner lives; whatever lives above an owner that is
dead does not count. -/
inductive OwnerChain (entries : List CatalogEntry) : ObjectId → List NamedObject → Prop
  | top {id : ObjectId} {entry : CatalogEntry} (held : find? entries id = some entry)
      (alone : ∀ owner ∈ entry.object.owner?, isLive entries owner = false) :
      OwnerChain entries id [entry.object]
  | under {id owner : ObjectId} {entry : CatalogEntry} {above : List NamedObject}
      (held : find? entries id = some entry) (owned : entry.object.owner? = some owner)
      (live : isLive entries owner = true) (chain : OwnerChain entries owner above) :
      OwnerChain entries id (above ++ [entry.object])

namespace OwnerChain

variable {chain other : List NamedObject}

/-- There is one chain to an object. -/
theorem unique (first : OwnerChain entries id chain) (second : OwnerChain entries id other) :
    other = chain := by
  induction first generalizing other with
  | top held alone =>
    cases second with
    | top held' =>
      obtain rfl := Option.some.inj (held.symm.trans held')
      rfl
    | under held' owned live =>
      obtain rfl := Option.some.inj (held.symm.trans held')
      simp [alone _ owned] at live
  | under held owned live _ ih =>
    cases second with
    | top held' alone =>
      obtain rfl := Option.some.inj (held.symm.trans held')
      simp [alone _ owned] at live
    | under held' owned' _ chain' =>
      obtain rfl := Option.some.inj (held.symm.trans held')
      obtain rfl := Option.some.inj (owned.symm.trans owned')
      rw [ih chain']

/-- The walk up the owners ends, since each of them was entered before what it owns. -/
theorem exists_of_find? (rooted : Rooted entries) (found : find? entries id = some entry) :
    ∃ chain, OwnerChain entries id chain := by
  induction id using Nat.strongRecOn generalizing entry with
  | ind id ih =>
    cases owned : entry.object.owner? with
    | none => exact ⟨_, .top found (by simp [owned])⟩
    | some owner =>
      cases live : isLive entries owner with
      | false => exact ⟨_, .top found (by simp [owned, live])⟩
      | true =>
        obtain ⟨before, above, held, -⟩ := rooted.owner_entered found owned
        obtain ⟨chain, goes⟩ := ih owner before held
        exact ⟨_, .under found owned live goes⟩

/-- If an object is of a kind that owns objects, so is everything in its chain. -/
theorem ownsObjects (goes : OwnerChain entries id chain) (rooted : Rooted entries)
    (found : find? entries id = some entry) (able : entry.object.kind.ownsObjects = true) :
    ∀ object ∈ chain, object.kind.ownsObjects = true := by
  induction goes generalizing entry with
  | top held =>
    obtain rfl := Option.some.inj (held.symm.trans found)
    simpa using able
  | under held owned _ _ ih =>
    obtain rfl := Option.some.inj (held.symm.trans found)
    obtain ⟨-, above, entered, capable⟩ := rooted.owner_entered held owned
    intro object member
    rcases List.mem_append.mp member with member | member
    · exact ih entered capable object member
    · rw [List.mem_singleton.mp member]
      exact able

/-- The names on a chain make up one identifier, which is the full name of the last object. -/
theorem exists_ident (goes : OwnerChain entries id chain) (rooted : Rooted entries)
    (able : ∀ object ∈ chain, object.kind.ownsObjects = true) :
    ∃ ident : Ident, fullname? entries id = some ident.render ∧
      ident.render = ".".intercalate (chain.map fun object => object.name.render) ∧
      ident.parts = chain.flatMap fun object => object.name.parts := by
  induction goes with
  | @top id entry held alone =>
    have unqualified : qualifier? entries entry.object = none := by
      have dead : liveOwner? entries entry.object = none :=
        Option.filter_eq_none_iff.mpr fun owner owned => by simp [alone owner owned]
      rw [qualifier?, dead, Option.bind_none]
    refine ⟨entry.object.name, ?_, by simp, by simp⟩
    rw [fullname?_eq rooted held, unqualified, fullname_of_ownsObjects (able _ (by simp))]
    rfl
  | @under id owner entry above held owned live chain ih =>
    obtain ⟨outer, named, joined, parts⟩ := ih fun object member =>
      able object (List.mem_append_left _ member)
    have nonempty : above ≠ [] := by cases chain <;> simp
    have qualified : qualifier? entries entry.object = some outer.render := by
      have found : liveOwner? entries entry.object = some owner :=
        Option.filter_eq_some_iff.mpr ⟨owned, live⟩
      rw [qualifier?, found, Option.bind_some, named]
    refine ⟨outer.append entry.object.name, ?_, ?_, by simp [parts]⟩
    · rw [fullname?_eq rooted held, qualified, fullname_of_ownsObjects (able _ (by simp)),
        Ident.render_append]
      rfl
    · rw [Ident.render_append, joined, List.map_append,
        String.intercalate_append_of_ne_nil (by simpa using nonempty) (by simp)]
      simp

end OwnerChain

/-- The full name of an object that can own others is an identifier. -/
theorem Reached.fullname_eq_render {located : Located} (reached : Reached catalog)
    (held : catalog.locate? id = some located) (able : located.object.kind.ownsObjects = true) :
    ∃ ident : Ident, located.fullname = ident.render := by
  obtain ⟨entry, found, same, named⟩ := find?_of_locate? held
  obtain ⟨chain, goes⟩ := OwnerChain.exists_of_find? reached.rooted found
  obtain ⟨ident, rendered, -⟩ := goes.exists_ident reached.rooted
    (goes.ownsObjects reached.rooted found (same ▸ able))
  exact ⟨ident, Option.some.inj (named.symm.trans rendered)⟩

/-- In every catalogue that can be reached, whatever handles were taken and given back, the walk
from a schema, a table or a column up its live owners ends, and meets only such objects. The full
name is made of the names of these, outermost first, with dots between them, and is read back as the
identifier of all their parts. Entering an object below an owner takes no handle on the owner. -/
theorem Reached.fullname_follows_owners (reached : Reached catalog) :
    (∀ id entry, find? catalog.entries id = some entry →
      entry.object.kind ∈ [ObjectKind.schema, .table, .column] →
      ∃ located chain ident, catalog.locate? id = some located ∧ located.object = entry.object ∧
        OwnerChain catalog.entries id chain ∧
        (∀ other, OwnerChain catalog.entries id other → other = chain) ∧
        (∀ object ∈ chain, object.kind ∈ [ObjectKind.schema, .table, .column]) ∧
        located.fullname = ".".intercalate (chain.map fun object => object.name.render) ∧
        Ident.parse located.fullname = .ok ident ∧
        ident.parts = chain.flatMap fun object => object.name.parts) ∧
      ∀ owner kind name id next, catalog.createBelow owner kind name = .ok (id, next) →
        ∀ other < catalog.entries.length,
          find? next.entries other = find? catalog.entries other := by
  have owns (kind : ObjectKind) :
      kind.ownsObjects = true ↔ kind ∈ [ObjectKind.schema, .table, .column] := by
    cases kind <;> decide
  constructor
  · intro id entry found kind
    have rooted := reached.rooted
    obtain ⟨chain, goes⟩ := OwnerChain.exists_of_find? rooted found
    have able := goes.ownsObjects rooted found ((owns _).mpr kind)
    obtain ⟨ident, named, joined, parts⟩ := goes.exists_ident rooted able
    refine ⟨⟨id, entry.object, liveOwner? catalog.entries entry.object, ident.render⟩, chain, ident,
      by simp [locate?, found, named], rfl, goes, fun other => goes.unique,
      fun object member => (owns _).mp (able object member), joined, ident.parse_render, parts⟩
  · intro owner kind name id next ok other older
    obtain ⟨-, object, -, rfl⟩ := createBelow_eq_ok ok
    exact find?_cons_of_lt _ older

/-- A column loses all qualifiers with its table, although the schema of the table still lives. -/
theorem Reached.fullname_follows_owners_dropped :
    let schema : Ident := ⟨.bare ⟨"public", by decide, by decide⟩, []⟩
    let table : Ident := ⟨.bare ⟨"users", by decide, by decide⟩, []⟩
    let column : Ident := ⟨.bare ⟨"id", by decide, by decide⟩, []⟩
    let top : CatalogEntry := { object := ⟨.schema, schema, none, { text := schema.render }⟩ }
    let middle : CatalogEntry := { object := ⟨.table, table, some 0, { text := table.render }⟩ }
    let bottom : CatalogEntry := { object := ⟨.column, column, some 1, { text := column.render }⟩ }
    let catalog : Catalog := ⟨[bottom, { middle with handles := 0 }, top]⟩
    Reached catalog ∧ isLive catalog.entries 0 = true ∧ isLive catalog.entries 1 = false ∧
      bottom.object.kind ∈ [ObjectKind.schema, .table, .column] ∧
      ∃ located, catalog.locate? 2 = some located ∧ located.fullname = "id" ∧
        Ident.parse located.fullname = .ok column := by
  intro schema table column top middle bottom catalog
  have one : Catalog.create {} .schema (.ident schema) = .ok (0, ⟨[top]⟩) := rfl
  have two : Catalog.createBelow ⟨[top]⟩ ⟨0, top.object, none, schema.render⟩ .table
      (.ident table) = .ok (1, ⟨[middle, top]⟩) := rfl
  have three : Catalog.createBelow ⟨[middle, top]⟩
      ⟨1, middle.object, some 0, schema.render ++ "." ++ table.render⟩ .column (.ident column) =
        .ok (2, ⟨[bottom, middle, top]⟩) := rfl
  have entered : Reached ⟨[bottom, middle, top]⟩ :=
    .createBelow (.createBelow (.create .empty one) rfl two) rfl three
  have reached : Reached catalog := entered.release 1
  obtain ⟨located, chain, ident, found, -, -, unique, -, joined, parsed, -⟩ :=
    reached.fullname_follows_owners.1 2 bottom rfl (by decide)
  have alone : OwnerChain catalog.entries 2 [bottom.object] :=
    .top rfl fun owner owned => by
      obtain rfl : 1 = owner := Option.some.inj owned
      rfl
  have bare : located.fullname = column.render := by
    rw [joined, ← unique _ alone]
    rfl
  refine ⟨reached, rfl, rfl, by decide, located, found, bare.trans rfl, ?_⟩
  rw [bare, column.parse_render]

end Catalog

end SqlBuilder
