import SqlBuilder.Call
import SqlBuilder.Statement.Basic

/-! # Texts from contents alone

What a clause or a statement should read as is laid out here once more, in one pass over its
contents and blind to every remembered text. A clause adds a phrase to a statement as soon as it
holds enough to be written, and a statement cannot do without the phrase of its first clause.
Rendering arrives at these texts, by `Clause.toOption_render` and `Statement.toOption_render`.
-/

namespace SqlBuilder

namespace Clause

/-- The phrase a clause adds to a statement; there is none while the clause lacks what it needs. -/
def phrase? : Clause → Option String
  | projection c =>
    let columns := c.content.columns.items
    let distinct := if c.content.distinct then "DISTINCT " else ""
    if columns = [] then none
    else some ("SELECT " ++ distinct ++ ", ".intercalate (columns.map Expr.text))
  | source c => c.content.expr?.map fun e => "FROM " ++ e.text
  | condition .rows c => c.content.expr?.map fun e => "WHERE " ++ e.text
  | condition .groups c => c.content.expr?.map fun e => "HAVING " ++ e.text
  | grouping c =>
    let keys := c.content.keys.items
    let having := c.content.having.content.expr?.elim "" fun e => " HAVING " ++ e.text
    if keys = [] then none
    else some ("GROUP BY " ++ ", ".intercalate (keys.map Expr.reference) ++ having)
  | sorting c =>
    let keys := c.content.keys
    if keys = [] then none
    else some ("ORDER BY " ++ ", ".intercalate
      (keys.map fun key => "(" ++ key.1.reference ++ ") " ++ key.2.keyword))
  | assignments layout c =>
    let fields := c.content.fields
    if fields = [] then none
    else c.content.target?.map fun target =>
      match layout with
      | .insert =>
        target.text ++ " (" ++ ", ".intercalate (fields.map fun entry => entry.1.fieldName) ++
          ") VALUES (" ++ ", ".intercalate (fields.map fun entry => entry.2.text) ++ ")"
      | .update =>
        target.text ++ " SET " ++ ", ".intercalate
          (fields.map fun entry => entry.1.fieldName ++ " = (" ++ entry.2.text ++ ")")

/-- The text of a clause that stands alone. Without what it needs it is empty, except that fields
and values cannot be written then. -/
def written? : Clause → Option String
  | assignments layout c => (assignments layout c).phrase?
  | clause => some (clause.phrase?.getD "")

/-- A clause has a phrase exactly when it can be written. -/
theorem isAvailable_eq_isSome (clause : Clause) : clause.isAvailable = clause.phrase?.isSome := by
  cases clause with
  | projection c =>
    by_cases empty : c.content.columns.items = [] <;>
      simp [isAvailable, phrase?, Projection.isAvailable, ExprList.isEmpty, empty]
  | source c => simp [isAvailable, phrase?, Source.isAvailable]
  | condition role c => cases role <;> simp [isAvailable, phrase?, Condition.isAvailable]
  | grouping c =>
    by_cases empty : c.content.keys.items = [] <;>
      simp [isAvailable, phrase?, Grouping.isAvailable, ExprList.isEmpty, empty]
  | sorting c =>
    by_cases empty : c.content.keys = [] <;>
      simp [isAvailable, phrase?, Sorting.isAvailable, empty]
  | assignments layout c =>
    by_cases empty : c.content.fields = [] <;>
      simp [isAvailable, phrase?, Assignments.isAvailable, empty]

private theorem renderAssignment_eq (entry : Expr × Expr) :
    Assignments.renderAssignment entry =
      .ok (entry.1.fieldName ++ " = (" ++ entry.2.text ++ ")") := by
  have brackets : " = " ++ Operator.parens entry.2.text = " = (" ++ entry.2.text ++ ")" := by
    rw [← String.toList_inj]
    simp [Operator.parens]
  simp only [Assignments.renderAssignment, Operator.compute, Operator.checkCount, Operator.render,
    Operator.arity, Arity.accepts, bind, Except.bind, pure, Except.pure, reduceCtorEq, ↓reduceIte,
    List.length_cons, List.length_nil, Nat.reduceAdd, BEq.rfl, String.append_assoc, brackets]

private theorem renderFields_eq (target : Expr) (fields : List (Expr × Expr)) :
    Assignments.renderFields target fields .update =
      .ok (target.text ++ " SET " ++ ", ".intercalate
        (fields.map fun entry => entry.1.fieldName ++ " = (" ++ entry.2.text ++ ")")) := by
  have entries : fields.mapM Assignments.renderAssignment =
      .ok (fields.map fun entry => entry.1.fieldName ++ " = (" ++ entry.2.text ++ ")") := by
    induction fields with
    | nil => rfl
    | cons entry rest ih =>
      rw [List.mapM_cons, renderAssignment_eq, ih]
      rfl
  rw [Assignments.renderFields, entries]
  rfl

/-- Rendering a clause arrives at its text. -/
theorem toOption_render (clause : Clause) : clause.render.toOption = clause.written? := by
  cases clause with
  | projection c =>
    by_cases empty : c.content.columns.items = [] <;>
      simp [render, written?, phrase?, Projection.render, Projection.isAvailable, ExprList.isEmpty,
        ExprList.texts, Except.toOption, empty, String.append_assoc]
  | source c =>
    cases held : c.content.expr? <;>
      simp [render, written?, phrase?, Source.render, Except.toOption, held]
  | condition role c =>
    cases role <;> cases held : c.content.expr? <;>
      simp [render, written?, phrase?, Condition.render, Except.toOption, held, Condition.Role.kind,
        ClauseKind.keyword]
  | grouping c =>
    by_cases empty : c.content.keys.items = []
    · simp [render, written?, phrase?, Grouping.render, Grouping.layOut, Grouping.isAvailable,
        ExprList.isEmpty, Except.toOption, empty]
    · cases held : c.content.having.content.expr? with
      | none =>
        simp [render, written?, phrase?, Grouping.render, Grouping.layOut, Grouping.isAvailable,
          Condition.isAvailable, ExprList.isEmpty, ExprList.references, Except.toOption, empty,
          held]
      | some e =>
        have spaced : " " ++ ("HAVING " ++ e.text) = " HAVING " ++ e.text := by
          rw [← String.toList_inj]
          simp
        simp [render, written?, phrase?, Grouping.render, Grouping.layOut, Grouping.isAvailable,
          Condition.isAvailable, Condition.render, Condition.Role.kind, ClauseKind.keyword,
          ExprList.isEmpty, ExprList.references, Except.toOption, empty, held, String.append_assoc,
          spaced]
  | sorting c =>
    by_cases empty : c.content.keys = []
    · simp [render, written?, phrase?, Sorting.render, Sorting.isAvailable, Except.toOption, empty]
    · have keys : c.content.keys.isEmpty = false := by simp [empty]
      simp only [render, written?, phrase?, Sorting.render, Sorting.isAvailable, empty, keys,
        Bool.not_false, ↓reduceIte, Except.toOption, Option.getD_some]
      rfl
  | assignments layout c =>
    cases target : c.content.target? with
    | none => simp [render, written?, phrase?, Assignments.render, Except.toOption, target]
    | some target' =>
      cases fields : c.content.fields with
      | nil => simp [render, written?, phrase?, Assignments.render, Except.toOption, target, fields]
      | cons entry rest =>
        cases layout with
        | insert =>
          simp [render, written?, phrase?, Assignments.render, Assignments.renderFields,
            Except.toOption, target, fields, String.append_assoc]
        | update =>
          simp [render, written?, phrase?, Assignments.render, renderFields_eq, Except.toOption,
            target, fields, String.append_assoc]

/-- The phrase of a clause is its text. -/
theorem render_of_phrase? {clause : Clause} {text : String} (held : clause.phrase? = some text) :
    clause.render = .ok text := by
  have written : clause.render.toOption = some text := by
    rw [toOption_render]
    cases clause <;> simp [written?, held]
  cases rendered : clause.render with
  | ok other => simpa [rendered, Except.toOption] using written
  | error e => simp [rendered, Except.toOption] at written

end Clause

namespace StatementBody

variable {β : Type} [StatementBody β]

/-- The text of a statement made of clauses: its keyword, if it has one, and the phrases of its
clauses in their order, with single spaces between them. -/
def written? (body : β) : Option String :=
  let opening := if (kind β).keyword = "" then [] else [(kind β).keyword]
  if (clauses body).head?.any (·.phrase?.isSome) then
    some (" ".intercalate (opening ++ (clauses body).filterMap Clause.phrase?))
  else none

/-- The text of a statement is laid out from the phrases of its clauses. -/
theorem compose_render (body : β) :
    compose Clause.render body =
      .ok (layOut (kind β).keyword ((clauses body).filterMap Clause.phrase?)) := by
  have texts : (available body).mapM Clause.render =
      .ok ((clauses body).filterMap Clause.phrase?) := by
    rw [available]
    induction clauses body with
    | nil => rfl
    | cons clause rest ih =>
      cases held : clause.phrase? with
      | none =>
        rw [List.filter_cons_of_neg (by simp [Clause.isAvailable_eq_isSome, held]),
          List.filterMap_cons_none held, ih]
      | some text =>
        rw [List.filter_cons_of_pos (by simp [Clause.isAvailable_eq_isSome, held]),
          List.filterMap_cons_some held, List.mapM_cons, Clause.render_of_phrase? held, ih]
        rfl
  rw [compose, texts]
  rfl

theorem toOption_render (body : β)
    (required : isValid body = (clauses body).head?.any Clause.isAvailable) :
    (render body).toOption = written? body := by
  have phrased : isValid body = (clauses body).head?.any (·.phrase?.isSome) := by
    rw [required]
    exact congrArg (fun check => (clauses body).head?.any check)
      (funext Clause.isAvailable_eq_isSome)
  cases valid : (clauses body).head?.any (·.phrase?.isSome) with
  | false => simp [render, written?, phrased, valid, Except.toOption]
  | true =>
    by_cases bare : (kind β).keyword = "" <;>
      simp [render, written?, phrased, valid, compose_render, layOut, bare, Except.toOption]

end StatementBody

namespace Statement

def written? : Statement → Option String
  | select s => StatementBody.written? s.content
  | insert s => StatementBody.written? s.content
  | update s => StatementBody.written? s.content
  | delete s => StatementBody.written? s.content
  | verbatim s => some s.text

/-- Rendering a statement arrives at its text. -/
theorem toOption_render (s : Statement) : s.render.toOption = s.written? := by
  cases s with
  | select s | insert s | update s | delete s => exact StatementBody.toOption_render s.content rfl
  | verbatim s => rfl

end Statement

end SqlBuilder
