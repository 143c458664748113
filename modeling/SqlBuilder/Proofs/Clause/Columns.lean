import SqlBuilder.Expr.Alias
import SqlBuilder.Proofs.Clause.Targets

/-! # Columns as targets

INSERT and UPDATE write to a column by its own name, which its expression carries beside the full
name. It does so whatever owns the column at that moment, and whether the owner lives. But the name
of a column is any identifier, and one of several parts is written with all of them.
-/

namespace SqlBuilder

namespace Ident

/-- An identifier is written as a single part exactly when it has one part. -/
theorem exists_render_eq_part_iff {ident : Ident} :
    (∃ part : Part, ident.render = part.render) ↔ ident.tail = [] := by
  have alone (part : Part) : (⟨part, []⟩ : Ident).render = part.render :=
    String.intercalate_singleton
  obtain ⟨head, tail⟩ := ident
  constructor
  · rintro ⟨part, same⟩
    have read := parse_render ⟨head, tail⟩
    rw [same, ← alone part, parse_render] at read
    exact (congrArg Ident.tail (Except.ok.inj read)).symm
  · rintro rfl
    exact ⟨head, alone head⟩

end Ident

/-- The expressions of columns of a name: a column as a catalogue has it at some moment, whatever
owns it and whether the owner lives, or an alias of one without a name of its own. -/
inductive Expr.OfColumn (name : Ident) : Expr → Prop
  | held {catalog : Catalog} {id : ObjectId} {o : Located} (reached : catalog.Reached)
      (found : catalog.locate? id = some o) (kind : o.object.kind = .column)
      (own : o.object.name = name) : OfColumn name o.toExpr
  | unnamed {a : Alias} (column : OfColumn name a.target) (nameless : a.name? = none) :
      OfColumn name a.toExpr

/-- A column is written to by its own name. -/
theorem Expr.OfColumn.fieldName_eq {name : Ident} {e : Expr} (column : e.OfColumn name) :
    e.fieldName = name.render := by
  induction column with
  | held _ _ kind own => simp [fieldName, Located.toExpr, Located.name, kind, own]
  | unnamed _ nameless ih =>
    rw [Alias.toExpr, nameless]
    exact ih

namespace Assignments

variable {layout : Layout}

/-- In either layout the names that are written to are the own names of the columns, whatever owned
the columns when they were given and whether the owners lived, and are read back as these names. So
they are single parts without a qualifier exactly as far as the columns were named by single
parts. -/
theorem columns_written_by_own_name (layout : Layout) (actions : List Clause.Action)
    (columns : ∀ field value, .change (.assignments (.assign field value)) ∈ actions →
      ∃ name, field.OfColumn name) :
    ∃ c : Cached (Assignments layout),
      (Clause.assignments layout { content := {} }).run actions = .assignments layout c ∧
      (∀ target, c.content.target? = some target → c.content.fields ≠ [] →
        (Clause.assignments layout c).text = .ok (layout.write target.text
          (c.content.fields.map fun entry => entry.1.fieldName)
          (c.content.fields.map fun entry => entry.2.text))) ∧
      ∀ entry ∈ c.content.fields, ∃ name, entry.1.OfColumn name ∧
        entry.1.fieldName = name.render ∧ Ident.parse entry.1.fieldName = .ok name ∧
        ((∃ part : Ident.Part, entry.1.fieldName = part.render) ↔ name.tail = []) := by
  obtain ⟨c, reached, follows, -, text⟩ := exists_run layout actions
  refine ⟨c, reached, fun target held some => text.trans (render_eq held some),
    fun entry member => ?_⟩
  obtain ⟨value, given⟩ := exists_assign follows member
  obtain ⟨name, column⟩ := columns entry.1 value given
  rw [column.fieldName_eq]
  exact ⟨name, column, rfl, name.parse_render, Ident.exists_render_eq_part_iff⟩

/-- A column is given while its table lives. Another one, with a dot between its quotes, is given
after the table is gone, as an alias without a name. -/
theorem columns_written_by_own_name_dropped :
    let users : Ident := ⟨.bare ⟨"users", by decide, by decide⟩, []⟩
    let id : Ident := ⟨.bare ⟨"id", by decide, by decide⟩, []⟩
    let odd : Ident := ⟨.quoted ⟨"a.b", by decide, by decide⟩, []⟩
    let steps : List Worksheet.Step := [.create .table (.ident users),
      .createBelow 0 .column (.ident id), .createBelow 0 .column (.ident odd)]
    let before := (Worksheet.run .update steps).catalog
    let after := (Worksheet.run .update (steps ++ [.release 0])).catalog
    let qualified : Located :=
      ⟨1, ⟨.column, id, some 0, { text := id.render }⟩, some 0, "users.id"⟩
    let bare : Located := ⟨2, ⟨.column, odd, some 0, { text := odd.render }⟩, none, "\"a.b\""⟩
    let change (edit : Edit) : Clause.Action := .change (.assignments edit)
    let actions := [change (.setTarget { text := "users" }),
      change (.assign qualified.toExpr { text := "1" }),
      change (.assign (Alias.toExpr ⟨bare.toExpr, none⟩) { text := "2" })]
    before.locate? 1 = some qualified ∧ after.locate? 2 = some bare ∧
      ∃ c : Cached (Assignments .update),
        (Clause.assignments .update { content := {} }).run actions = .assignments .update c ∧
        (Clause.assignments .update c).text = .ok "users SET id = (1), \"a.b\" = (2)" ∧
        ∀ entry ∈ c.content.fields, ∃ part : Ident.Part, entry.1.fieldName = part.render := by
  intro users id odd steps before after qualified bare change actions
  have live : before.locate? 1 = some qualified := by rfl
  have dropped : after.locate? 2 = some bare := by rfl
  have early : before.Reached := Worksheet.reached_run .update steps
  have late : after.Reached := Worksheet.reached_run .update (steps ++ [.release 0])
  have first : qualified.toExpr.OfColumn id := .held early live rfl rfl
  have second : bare.toExpr.OfColumn odd := .held late dropped rfl rfl
  have columns (field value : Expr)
      (given : .change (.assignments (.assign field value)) ∈ actions) :
      ∃ name : Ident, field.OfColumn name := by
    simp only [actions, change, List.mem_cons, List.not_mem_nil, or_false,
      Clause.Action.change.injEq, Clause.Edit.assignments.injEq, Edit.assign.injEq, reduceCtorEq,
      false_or] at given
    rcases given with ⟨rfl, -⟩ | ⟨rfl, -⟩
    · exact ⟨id, first⟩
    · exact ⟨odd, second.unnamed rfl⟩
  obtain ⟨c, reached, text, written⟩ := columns_written_by_own_name .update actions columns
  have content : c.content = ⟨some { text := "users" }, [(qualified.toExpr, { text := "1" }),
      (bare.toExpr, { text := "2" })]⟩ := by
    cases reached
    rfl
  refine ⟨live, dropped, c, reached, ?_, fun entry member => ?_⟩
  · rw [text { text := "users" } (by rw [content]) (by simp [content]), content]
    rfl
  · obtain ⟨name, -, -, read, single⟩ := written entry member
    refine single.mpr ?_
    simp only [content, List.mem_cons, List.not_mem_nil, or_false] at member
    rcases member with rfl | rfl
    · obtain rfl : id = name := Except.ok.inj (id.parse_render.symm.trans read)
      rfl
    · obtain rfl : odd = name := Except.ok.inj (odd.parse_render.symm.trans read)
      rfl

/-- A column that is named by two parts is written with both. -/
theorem not_forall_columns_written_as_one_part :
    ¬ ∀ (layout : Layout) (actions : List Clause.Action),
      (∀ field value, .change (.assignments (.assign field value)) ∈ actions →
        ∃ name, field.OfColumn name) →
      ∀ c : Cached (Assignments layout),
        (Clause.assignments layout { content := {} }).run actions = .assignments layout c →
        ∀ entry ∈ c.content.fields, ∃ part : Ident.Part, entry.1.fieldName = part.render := by
  intro all
  let name : Ident :=
    ⟨.bare ⟨"users", by decide, by decide⟩, [.bare ⟨"id", by decide, by decide⟩]⟩
  let catalog : Catalog := ⟨[{ object := ⟨.column, name, none, { text := name.render }⟩ }]⟩
  let column : Located := ⟨0, ⟨.column, name, none, { text := name.render }⟩, none, name.render⟩
  let change (edit : Edit) : Clause.Action := .change (.assignments edit)
  have entered : Catalog.create {} .column (.ident name) = .ok (0, catalog) := rfl
  have found : catalog.locate? 0 = some column := rfl
  have given : column.toExpr.OfColumn name := .held (.create .empty entered) found rfl rfl
  obtain ⟨part, same⟩ := all .insert [change (.assign column.toExpr { text := "1" })]
    (fun field value done => by
      simp only [change, List.mem_singleton, Clause.Action.change.injEq,
        Clause.Edit.assignments.injEq, Edit.assign.injEq] at done
      exact ⟨name, done.1 ▸ given⟩)
    _ rfl (column.toExpr, { text := "1" }) (List.mem_singleton_self _)
  rw [given.fieldName_eq] at same
  have single : name.tail = [] := Ident.exists_render_eq_part_iff.mp ⟨part, same⟩
  cases single

end Assignments

end SqlBuilder
