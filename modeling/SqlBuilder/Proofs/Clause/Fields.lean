import SqlBuilder.Proofs.Clause.Entries
import SqlBuilder.Proofs.Clause.Run

/-! # The last value of each field

The fields of an INSERT or UPDATE are entries under their texts, so they follow the history of the
clause: a field has the value it was given last and stays where it came in, as the expression it
came in as. INSERT writes the names of all fields and then all values, UPDATE each name with its
value; in both the name and the value in one place come from the field in that place.
-/

namespace SqlBuilder

namespace Assignments

variable {layout : Layout}

/-- What a change does to the fields. -/
def Edit.onFields? : Edit → Option (Entries.Edit Expr)
  | assign field value => some (.put field value)
  | erase field => some (.without field)
  | clear => some .clear
  | setTarget _ => none

def Edit.target? : Edit → Option Expr
  | setTarget e => some e
  | assign _ _ | erase _ | clear => none

/-- The changes of the fields among all that is done with a clause. -/
def history (actions : List Clause.Action) : List (Entries.Edit Expr) :=
  (actions.filterMap Clause.Action.assignments?).filterMap Edit.onFields?

def targets (actions : List Clause.Action) : List Expr :=
  (actions.filterMap Clause.Action.assignments?).filterMap Edit.target?

/-- A target with the names and the values of fields, given in the same order. -/
def Layout.write (target : String) (names values : List String) : Layout → String
  | insert =>
    target ++ " (" ++ ", ".intercalate names ++ ") VALUES (" ++ ", ".intercalate values ++ ")"
  | update =>
    let pairs := List.zipWith (fun name value => name ++ " = (" ++ value ++ ")") names values
    target ++ " SET " ++ ", ".intercalate pairs

/-- Fields are entries that keep a value under a text. -/
theorem assign_eq_put (field value : Expr) (fields : List (Expr × Expr)) :
    assign field value fields = Entries.put field value fields := by
  induction fields with
  | nil => rfl
  | cons entry rest ih => rw [assign, Entries.put, ih]

/-- A change of the target leaves the fields as they are; all others change them as entries. -/
theorem fields_apply (change : Edit) (a : Assignments layout) :
    (apply change a).2.fields =
      change.onFields?.elim a.fields fun edit => Entries.apply edit a.fields := by
  cases change with
  | assign field value => exact assign_eq_put field value a.fields
  | setTarget | erase | clear => rfl

theorem fields_afterChanges (changes : List Edit) :
    (afterChanges apply ({} : Assignments layout) changes).fields =
      Entries.run (changes.filterMap Edit.onFields?) := by
  induction changes using List.reverseRecOn with
  | nil => rfl
  | append_singleton changes change ih =>
    rw [afterChanges_append, fields_apply, ih, List.filterMap_append]
    cases made : change.onFields? <;> simp [made, Entries.run_append]

/-- The target is the one that was set last. -/
theorem target?_afterChanges (changes : List Edit) :
    (afterChanges apply ({} : Assignments layout) changes).target? =
      (changes.filterMap Edit.target?).getLast? := by
  induction changes using List.reverseRecOn with
  | nil => rfl
  | append_singleton changes change ih =>
    rw [afterChanges_append, List.filterMap_append]
    cases change with
    | setTarget e => simp [apply, Edit.target?]
    | assign | erase | clear => exact ih.trans (by simp [Edit.target?])

/-- The value of a field is the one it was given last. -/
theorem value_eq {a : Assignments layout} {changes : List (Entries.Edit Expr)}
    (follows : Entries.Follows a.fields changes) (field : Expr) :
    a.value field = match (Entries.puts field.text changes).getLast? with
      | some (_, value) => .ok value
      | none => .error (.unassigned field.text) := by
  have latest := follows.latest field.text
  change (match Entries.lookup? field.text a.fields with
    | some (_, value) => Except.ok value
    | none => Except.error (Error.unassigned field.text)) = _
  cases held : Entries.lookup? field.text a.fields <;>
    cases put : (Entries.puts field.text changes).getLast? <;> simp_all

/-- A target with fields is written with the names and the values of the fields in their order. -/
theorem render_eq {a : Assignments layout} {target : Expr} (held : a.target? = some target)
    (some : a.fields ≠ []) :
    a.render = .ok (layout.write target.text (a.fields.map fun entry => entry.1.fieldName)
      (a.fields.map fun entry => entry.2.text)) := by
  have phrase : (Clause.assignments layout { content := a }).render = .ok (layout.write target.text
      (a.fields.map fun entry => entry.1.fieldName) (a.fields.map fun entry => entry.2.text)) := by
    apply Clause.render_of_phrase?
    cases layout <;>
      simp [Clause.phrase?, held, some, Layout.write, List.zipWith_map, List.zipWith_self]
  exact phrase

/-- Without a target or without fields nothing can be written. -/
theorem exists_render_error {a : Assignments layout}
    (missing : a.target? = none ∨ a.fields = []) :
    ∃ e, a.render = .error e ∧ e.kind = .invalidState := by
  cases held : a.target? with
  | none => exact ⟨.noTarget, by rw [render, held], rfl⟩
  | some target =>
    have empty : a.fields = [] := by simpa [held] using missing
    exact ⟨.noFields, by rw [render, held, empty], rfl⟩

/-- Whatever is done with fields and values, they follow the history, and the clause reads as they
render. -/
theorem exists_run (layout : Layout) (actions : List Clause.Action) :
    ∃ c : Cached (Assignments layout),
      (Clause.assignments layout { content := {} }).run actions = .assignments layout c ∧
      Entries.Follows c.content.fields (history actions) ∧
      c.content.target? = (targets actions).getLast? ∧
      (Clause.assignments layout c).text = c.content.render := by
  obtain ⟨c, reached, content⟩ :=
    Clause.exists_run_assignments ({ content := {} } : Cached (Assignments layout)) actions
  refine ⟨c, reached, ?_, ?_, (Clause.coherent_of_run rfl reached).text_eq⟩
  · rw [content, fields_afterChanges]
    exact Entries.follows_run _
  · rw [content, target?_afterChanges, targets]

/-- A field has an expression that it was given by. -/
theorem exists_assign {a : Assignments layout} {actions : List Clause.Action}
    (follows : Entries.Follows a.fields (history actions)) {entry : Expr × Expr}
    (member : entry ∈ a.fields) :
    ∃ value, .change (.assignments (.assign entry.1 value)) ∈ actions := by
  obtain ⟨value, put⟩ := follows.exists_put member
  obtain ⟨edit, changed, made⟩ := List.mem_filterMap.mp put
  obtain ⟨action, done, own⟩ := List.mem_filterMap.mp changed
  refine ⟨value, ?_⟩
  cases edit <;> cases made
  cases action with
  | change clauseEdit => cases clauseEdit <;> cases own; exact done
  | read => cases own

/-- After any changes and reads of a target with fields, in either layout, no two fields have the
same text. The value of a field is the one it was given last since its text was last removed or the
fields cleared, and is not found when there was none since. Fields stand in the order in which they
were first given a value since then, as the expressions they were given by at that time. The target
is the one that was set last. With a target and fields the clause reads as the target with the name
and the value of each field in its place; otherwise it is in an invalid state. -/
theorem fields_follow_history (layout : Layout) (actions : List Clause.Action) :
    ∃ c : Cached (Assignments layout),
      (Clause.assignments layout { content := {} }).run actions = .assignments layout c ∧
      let a := c.content
      let changes := history actions
      (a.fields.map fun entry => entry.1.text).Nodup ∧
      (∀ field, a.value field = match (Entries.puts field.text changes).getLast? with
        | some (_, value) => .ok value
        | none => .error (.unassigned field.text)) ∧
      (∀ text, (Error.unassigned text).kind = .notFound) ∧
      (∀ entry ∈ a.fields,
        (Entries.puts entry.1.text changes).head?.map Prod.fst = some entry.1) ∧
      (a.fields.Pairwise fun entry later =>
        Entries.firstPut entry.1.text changes < Entries.firstPut later.1.text changes) ∧
      a.target? = (targets actions).getLast? ∧
      (∀ target, a.target? = some target → a.fields ≠ [] →
        (Clause.assignments layout c).text = .ok (layout.write target.text
          (a.fields.map fun entry => entry.1.fieldName)
          (a.fields.map fun entry => entry.2.text))) ∧
      (a.target? = none ∨ a.fields = [] →
        ∃ e, (Clause.assignments layout c).text = .error e ∧ e.kind = .invalidState) := by
  obtain ⟨c, reached, follows, target, text⟩ := exists_run layout actions
  refine ⟨c, reached, follows.distinct, value_eq follows, fun _ => rfl,
    fun entry => follows.first_of_mem, follows.in_order, target, fun target held some => ?_,
    fun missing => ?_⟩
  · rw [text]
    exact render_eq held some
  · rw [text]
    exact exists_render_error missing

/-- A column is given another value by its full text: it keeps its place and its bare name. A field
that was removed comes back last. -/
theorem fields_follow_history_replaced :
    let column : Expr := { text := "users.a", column? := some "a" }
    let raw (text : String) : Expr := { text }
    let change (edit : Edit) : Clause.Action := .change (.assignments edit)
    let actions := [change (.assign column (raw "1")), change (.assign (raw "b") (raw "2")),
      change (.setTarget (raw "users")), .read, change (.assign (raw "users.a") (raw "3")),
      change (.erase (raw "b")), change (.assign (raw "c") (raw "4")),
      change (.assign (raw "b") (raw "5"))]
    ∃ c : Cached (Assignments .update),
      (Clause.assignments .update { content := {} }).run actions = .assignments .update c ∧
      c.content.fields = [(column, raw "3"), (raw "c", raw "4"), (raw "b", raw "5")] ∧
      c.content.value column = .ok (raw "3") ∧
      c.content.value (raw "a") = .error (.unassigned "a") ∧
      (Clause.assignments .update c).text = .ok "users SET a = (3), c = (4), b = (5)" := by
  intro column raw change actions
  obtain ⟨c, reached, -, value, -, -, -, target, text, -⟩ := fields_follow_history .update actions
  have fields : c.content.fields =
      [(column, raw "3"), (raw "c", raw "4"), (raw "b", raw "5")] := by
    cases reached
    rfl
  refine ⟨c, reached, fields, value _, value _, ?_⟩
  rw [text (raw "users") target (by simp [fields]), fields]
  rfl

end Assignments

end SqlBuilder
