import SqlBuilder.Proofs.Catalog.Naming
import SqlBuilder.Proofs.Clause.Fields

/-! # Names that are written to

Fields are told apart by their texts, and INSERT and UPDATE write to them by their bare names. The
text of a column is its full name at the moment it is given: its name behind the full name of its
owner while the owner lives, and its name alone before and after. So the names that are written to
are different among the fields of one qualification, and a column that is given again under the
qualification it was first given under replaces its value in place. Across qualifications nothing
keeps a name from being written twice.
-/

namespace SqlBuilder

/-- The expression is read as its bare name behind a qualifier, or as its bare name. -/
def Expr.Under (qualifier? : Option String) (e : Expr) : Prop :=
  e.text = qualifier?.elim e.fieldName (· ++ "." ++ e.fieldName)

/-- Under one qualifier, expressions with the same bare name read alike. -/
theorem Expr.Under.text_eq {qualifier? : Option String} {e f : Expr} (first : e.Under qualifier?)
    (second : f.Under qualifier?) (same : e.fieldName = f.fieldName) : e.text = f.text := by
  rw [first, second, same]

/-- An object that someone holds a handle on. -/
def Catalog.held? (catalog : Catalog) (id : ObjectId) : Option Located :=
  if isLive catalog.entries id then catalog.locate? id else none

theorem Catalog.id_of_locate? {catalog : Catalog} {id : ObjectId} {o : Located}
    (found : catalog.locate? id = some o) : o.id = id := by
  simp only [locate?, bind, Option.bind_eq_some_iff, pure, Option.some.injEq] at found
  obtain ⟨-, -, -, -, rfl⟩ := found
  rfl

/-- A field as callers give it: raw text with the parameters it mentions, or a column they hold. -/
inductive FieldSpec
  | raw (text : String) (params : ParamList)
  | column (id : ObjectId)
  deriving DecidableEq

namespace FieldSpec

/-- The expression of a field as the catalogue is now. -/
def expr? (catalog : Catalog) : FieldSpec → Option Expr
  | raw text params => some { text, params }
  | column id =>
    ((catalog.held? id).filter fun o => o.object.kind = .column).map Located.toExpr

/-- What qualifies a field as the catalogue is now: the full name of a live owner of a column. -/
def qualifier? (catalog : Catalog) : FieldSpec → Option String
  | raw _ _ => none
  | column id =>
    (Catalog.find? catalog.entries id).bind fun entry =>
      Catalog.qualifier? catalog.entries entry.object

/-- A field is read under what qualifies it at the moment it is given. -/
theorem under {catalog : Catalog} (reached : catalog.Reached) {field : FieldSpec} {e : Expr}
    (given : field.expr? catalog = some e) : e.Under (field.qualifier? catalog) := by
  cases field with
  | raw text params =>
    obtain rfl := Option.some.inj given
    rfl
  | column id =>
    simp only [expr?, Option.map_eq_some_iff, Option.filter_eq_some_iff, Catalog.held?,
      Option.ite_none_right_eq_some, decide_eq_true_eq] at given
    obtain ⟨o, ⟨⟨-, located⟩, kind⟩, rfl⟩ := given
    obtain ⟨entry, found, same, named⟩ := Catalog.find?_of_locate? located
    have able : entry.object.kind.ownsObjects = true := by rw [same, kind]; rfl
    have full := Option.some.inj (named.symm.trans (Catalog.fullname?_eq reached.rooted found))
    rw [Catalog.fullname_of_ownsObjects able, same] at full
    have bare : o.toExpr.fieldName = o.object.name.render := by
      simp [Located.toExpr, Expr.fieldName, kind, Located.name]
    rw [Expr.Under, qualifier?, found, Option.bind_some, same, bare]
    exact full

end FieldSpec

/-- A target with fields beside the catalogue that its columns are in. -/
structure Worksheet where
  catalog : Catalog := {}
  clause : Clause

namespace Worksheet

/-- What is done with a worksheet: objects are entered, handles taken and given back, and the target
and its fields are changed and read. -/
inductive Step
  | create (kind : ObjectKind) (name : NameSpec)
  | createBelow (owner : ObjectId) (kind : ObjectKind) (name : NameSpec)
  | createResult (call : Cached Call)
  | retain (id : ObjectId)
  | release (id : ObjectId)
  | setTarget (e : Expr)
  | assign (field : FieldSpec) (value : Expr)
  | erase (field : FieldSpec)
  | clear
  | read

/-- The catalogue after an object is entered, or as it was if the object is refused. -/
def entered (catalog : Catalog) : Except Error (ObjectId × Catalog) → Catalog
  | .ok (_, next) => next
  | .error _ => catalog

/-- The catalogue after a step. Only objects that are held can own others or be held again. -/
def catalogAfter (catalog : Catalog) : Step → Catalog
  | .create kind name => entered catalog (catalog.create kind name)
  | .createBelow owner kind name =>
    match catalog.held? owner with
    | some o => entered catalog (catalog.createBelow o kind name)
    | none => catalog
  | .createResult call => entered catalog (catalog.createResult call)
  | .retain id => if (catalog.held? id).isSome then catalog.retain id else catalog
  | .release id => catalog.release id
  | .setTarget _ | .assign _ _ | .erase _ | .clear | .read => catalog

/-- What a step does with the clause, its field taken as the catalogue is at that moment. -/
def Step.action? (catalog : Catalog) : Step → Option Clause.Action
  | setTarget e => some (.change (.assignments (.setTarget e)))
  | assign field value =>
    (field.expr? catalog).map fun e => .change (.assignments (.assign e value))
  | erase field => (field.expr? catalog).map fun e => .change (.assignments (.erase e))
  | clear => some (.change (.assignments .clear))
  | read => some .read
  | create _ _ | createBelow _ _ _ | createResult _ | retain _ | release _ => none

def step (s : Worksheet) (next : Step) : Worksheet where
  catalog := catalogAfter s.catalog next
  clause := (next.action? s.catalog).elim s.clause s.clause.act

def run (layout : Assignments.Layout) (steps : List Step) : Worksheet :=
  steps.foldl step { clause := .assignments layout { content := {} } }

variable {layout : Assignments.Layout} {steps : List Step} {catalog : Catalog}

theorem run_append (layout : Assignments.Layout) (steps : List Step) (next : Step) :
    run layout (steps ++ [next]) = step (run layout steps) next := by
  rw [run, List.foldl_append]
  rfl

theorem reached_entered (reached : catalog.Reached)
    {result : Except Error (ObjectId × Catalog)}
    (sound : ∀ id next, result = .ok (id, next) → next.Reached) :
    (entered catalog result).Reached := by
  cases result with
  | ok made => exact sound made.1 made.2 rfl
  | error e => exact reached

theorem reached_catalogAfter (reached : catalog.Reached) (next : Step) :
    (catalogAfter catalog next).Reached := by
  cases next with
  | create kind name => exact reached_entered reached fun _ _ ok => reached.create ok
  | createBelow owner kind name =>
    unfold catalogAfter
    dsimp only
    split
    · next o held =>
      have located : catalog.locate? owner = some o := by
        rw [Catalog.held?, Option.ite_none_right_eq_some] at held
        exact held.2
      have own : o.id = owner := Catalog.id_of_locate? located
      exact reached_entered reached fun _ _ ok => reached.createBelow (own ▸ located) ok
    · exact reached
  | createResult call => exact reached_entered reached fun _ _ ok => reached.createResult ok
  | retain id =>
    unfold catalogAfter
    dsimp only
    split
    · exact reached.retain id
    · exact reached
  | release id => exact reached.release id
  | setTarget | assign | erase | clear | read => exact reached

/-- The catalogue beside the clause is always one that can be reached. -/
theorem reached_run (layout : Assignments.Layout) (steps : List Step) :
    (run layout steps).catalog.Reached := by
  induction steps using List.reverseRecOn with
  | nil => exact .empty
  | append_singleton steps next ih =>
    rw [run_append]
    exact reached_catalogAfter ih next

/-- A step of a run has given a field by an expression, which the field was at that moment. -/
def Gives (layout : Assignments.Layout) (steps : List Step) (e : Expr) : Prop :=
  ∃ past field value rest, steps = past ++ .assign field value :: rest ∧
    field.expr? (run layout past).catalog = some e

theorem Gives.append {e : Expr} (gives : Gives layout steps e) (next : Step) :
    Gives layout (steps ++ [next]) e := by
  obtain ⟨past, field, value, rest, rfl, given⟩ := gives
  exact ⟨past, field, value, rest ++ [next], by simp, given⟩

/-- What happens to the clause is work on it alone, with fields that the steps have given. -/
theorem exists_actions (layout : Assignments.Layout) (steps : List Step) :
    ∃ actions, (run layout steps).clause =
        (Clause.assignments layout { content := {} }).run actions ∧
      ∀ e value, .change (.assignments (.assign e value)) ∈ actions → Gives layout steps e := by
  induction steps using List.reverseRecOn with
  | nil => exact ⟨[], rfl, by simp⟩
  | append_singleton steps next ih =>
    obtain ⟨actions, reached, given⟩ := ih
    rw [run_append, step]
    dsimp only
    cases made : next.action? (run layout steps).catalog with
    | none => exact ⟨actions, reached, fun e value done => (given e value done).append next⟩
    | some action =>
      refine ⟨actions ++ [action], ?_, fun e value done => ?_⟩
      · rw [Option.elim_some, reached, Clause.run_append]
      · rcases List.mem_append.mp done with done | done
        · exact (given e value done).append next
        · obtain rfl := List.mem_singleton.mp done
          cases next with
          | assign field other =>
            obtain ⟨f, found, same⟩ := Option.map_eq_some_iff.mp made
            cases same
            exact ⟨steps, field, value, [], rfl, found⟩
          | erase field =>
            obtain ⟨f, -, same⟩ := Option.map_eq_some_iff.mp made
            cases same
          | _ => cases made

/-- Giving a field that is there another value, as the expression that it would be now, replaces the
value in place. -/
theorem fields_assign_of_under {c : Cached (Assignments layout)}
    (distinct : (Entries.texts c.content.fields).Nodup) {entry : Expr × Expr}
    (member : entry ∈ c.content.fields) {e : Expr} {qualifier? : Option String}
    (same : entry.1.fieldName = e.fieldName) (old : entry.1.Under qualifier?)
    (new : e.Under qualifier?) (value : Expr) :
    (Assignments.apply (.assign e value) c.content).2.fields =
      c.content.fields.map fun held => if held = entry then (entry.1, value) else held := by
  have texts : entry.1.text = e.text := old.text_eq new same
  have listed : e.text ∈ Entries.texts c.content.fields :=
    texts ▸ List.mem_map_of_mem (f := fun held : Expr × Expr => held.1.text) member
  refine (Assignments.assign_eq_put e value c.content.fields).trans ?_
  rw [Entries.put_of_mem distinct listed]
  refine List.map_congr_left fun held here => ?_
  by_cases own : held.1.text = e.text
  · have found := Entries.lookup?_of_mem distinct here
    rw [own, ← texts, Entries.lookup?_of_mem distinct member] at found
    obtain rfl := Option.some.inj found
    simp [own]
  · have other : held ≠ entry := fun equal => own (equal ▸ texts)
    simp [own, other]

/-- Whatever is done with a target and its fields, given as raw texts or as columns whose owners may
be dropped at any time, every field stands there as the expression it was when it was given, under
what qualified it at that moment. Two fields have the same name to write to only when they were
given under different qualifications. When a field is given again under the qualification it was
given under, its value is replaced in its place; the other fields and the target stay. -/
theorem names_differ_within_qualification (layout : Assignments.Layout) (steps : List Step) :
    let s := run layout steps
    ∃ c : Cached (Assignments layout), s.clause = .assignments layout c ∧
      let fields := c.content.fields
      (∀ target, c.content.target? = some target → fields ≠ [] →
        s.clause.text = .ok (layout.write target.text
          (fields.map fun entry => entry.1.fieldName) (fields.map fun entry => entry.2.text))) ∧
      (∀ entry ∈ fields, ∃ past field value rest, steps = past ++ .assign field value :: rest ∧
        field.expr? (run layout past).catalog = some entry.1 ∧
        entry.1.Under (field.qualifier? (run layout past).catalog)) ∧
      (fields.Pairwise fun entry later => entry.1.fieldName = later.1.fieldName →
        ∀ qualifier?, ¬(entry.1.Under qualifier? ∧ later.1.Under qualifier?)) ∧
      (∀ field e value, field.expr? s.catalog = some e →
        ∀ entry ∈ fields, entry.1.fieldName = e.fieldName →
          entry.1.Under (field.qualifier? s.catalog) →
          ∃ d : Cached (Assignments layout),
            (step s (.assign field value)).clause = .assignments layout d ∧
            d.content.target? = c.content.target? ∧ d.content.fields =
              fields.map fun held => if held = entry then (entry.1, value) else held) := by
  intro s
  obtain ⟨actions, worked, given⟩ := exists_actions layout steps
  obtain ⟨c, reached, follows, -, text⟩ := Assignments.exists_run layout actions
  have clause : s.clause = .assignments layout c := worked.trans reached
  refine ⟨c, clause, fun target held some => ?_, fun entry member => ?_, ?_,
    fun field e value now entry member same under => ?_⟩
  · rw [clause, text]
    exact Assignments.render_eq held some
  · obtain ⟨value, done⟩ := Assignments.exists_assign follows member
    obtain ⟨past, field, value, rest, split, found⟩ := given _ _ done
    exact ⟨past, field, value, rest, split, found, FieldSpec.under (reached_run layout past) found⟩
  · refine (List.pairwise_map.mp follows.distinct).imp fun differ same qualifier? both => ?_
    exact differ (both.1.text_eq both.2 same)
  · refine ⟨(c.edit (Assignments.apply (.assign e value))).2, ?_, rfl, ?_⟩
    · simp [step, Step.action?, now, clause, Clause.act, Clause.change?]
    · exact fields_assign_of_under follows.distinct member same under
        (FieldSpec.under (reached_run layout steps) now) value

/-- A column is given another value while its table lives, behind a raw text that was given a value
in between: its value is replaced in its place. -/
theorem names_differ_within_qualification_again :
    let users : Ident := ⟨.bare ⟨"users", by decide, by decide⟩, []⟩
    let id : Ident := ⟨.bare ⟨"id", by decide, by decide⟩, []⟩
    let value (text : String) : Expr := { text }
    let column : Expr :=
      { text := "users.id", reference? := some "users.id", column? := some "id" }
    let steps : List Step := [.create .table (.ident users), .createBelow 0 .column (.ident id),
      .setTarget (value "users"), .assign (.column 1) (value "1"),
      .assign (.raw "name" ∅) (value "2"), .read]
    let s := run .insert steps
    s.clause.text = .ok "users (id, name) VALUES (1, 2)" ∧
      (FieldSpec.column 1).qualifier? s.catalog = some "users" ∧
      ∃ d : Cached (Assignments .insert),
        (step s (.assign (.column 1) (value "3"))).clause = .assignments .insert d ∧
        d.content.target? = some (value "users") ∧
        d.content.fields = [(column, value "3"), (value "name", value "2")] := by
  intro users id value column steps s
  obtain ⟨c, reached, text, -, -, again⟩ := names_differ_within_qualification .insert steps
  have content : c.content =
      ⟨some (value "users"), [(column, value "1"), (value "name", value "2")]⟩ := by
    cases reached
    rfl
  obtain ⟨d, changed, target, fields⟩ := again (.column 1) column (value "3") rfl
    (column, value "1") (by simp [content]) rfl rfl
  refine ⟨?_, rfl, d, changed, ?_, ?_⟩
  · rw [text (value "users") (by rw [content]) (by simp [content]), content]
    rfl
  · rw [target, content]
  · rw [fields, content]
    rfl

/-- A column is given a value, loses its owner and is given another value: its name is written
twice. -/
theorem names_repeat_across_qualifications :
    let users : Ident := ⟨.bare ⟨"users", by decide, by decide⟩, []⟩
    let id : Ident := ⟨.bare ⟨"id", by decide, by decide⟩, []⟩
    let steps : List Step := [.create .table (.ident users), .createBelow 0 .column (.ident id),
      .setTarget { text := "users" }, .assign (.column 1) { text := "1" }, .release 0,
      .assign (.column 1) { text := "2" }]
    ∃ c : Cached (Assignments .insert), (run .insert steps).clause = .assignments .insert c ∧
      ¬(c.content.fields.map fun entry => entry.1.fieldName).Nodup ∧
      (run .insert steps).clause.text = .ok "users (id, id) VALUES (1, 2)" := by
  intro users id steps
  exact ⟨_, rfl, by decide, rfl⟩

end Worksheet

end SqlBuilder
