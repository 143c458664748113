import SqlBuilder.Proofs.Memo.Coherence

/-! # Statements over their clauses

A statement is its clauses and the text it was last read as. What the four kinds of contents have
in common is collected in `StatementBody.Layered`; from it alone follows that a coherent statement
reads as it renders, stays coherent when it or one of its clauses is read, and shows no trace of
the read once its texts are forgotten. A change keeps coherence for any contents, because it
forgets the text of the statement and changes one clause.
-/

namespace SqlBuilder

namespace StatementBody

/-- Contents of statements that are read and forgotten clause by clause, and need their first
clause to be written. -/
class Layered (β : Type) [StatementBody β] where
  /-- The contents with nothing remembered of any clause. -/
  forget : β → β
  isValid_eq (body : β) : isValid body = (clauses body).head?.any Clause.isAvailable
  clauses_forget (body : β) : clauses (forget body) = (clauses body).map Clause.forget
  clauses_afterRead (kind : ClauseKind) (body : β) :
    clauses (afterRead kind body) = (clauses body).map (Clause.afterPartRead kind)
  forget_afterRead (kind : ClauseKind) (body : β) : forget (afterRead kind body) = forget body

open Layered

variable {β : Type} [StatementBody β]

/-- Whatever is remembered of a statement and of its clauses is right. -/
structure Coherent (s : Cached β) : Prop where
  own : s.Coherent render
  inner : ∀ clause ∈ clauses s.content, clause.Coherent

/-- Reading the clauses composes the text that rendering them does. -/
theorem compose_text {body : β} (inner : ∀ clause ∈ clauses body, clause.Coherent) :
    compose Clause.text body = compose Clause.render body := by
  have written : ∀ clause ∈ available body, clause.Coherent := fun clause member =>
    inner clause (List.mem_filter.mp member).1
  have texts : (available body).mapM Clause.text = (available body).mapM Clause.render := by
    generalize available body = cs at written
    induction cs with
    | nil => rfl
    | cons clause rest ih =>
      rw [List.mapM_cons, List.mapM_cons, (written clause (List.mem_cons_self ..)).text_eq,
        ih fun other member => written other (List.mem_cons_of_mem _ member)]
  rw [compose, compose, texts]

variable {s : Cached β}

/-- A read answers with what the contents render as, remembered or not. -/
theorem Coherent.answer_read (coherent : Coherent s) : (read s).answer = render s.content := by
  unfold read
  cases valid : isValid s.content with
  | false => simp [render, valid]
  | true =>
    cases memo : s.memo? with
    | some text => simp [coherent.own text memo]
    | none => simp [compose_text coherent.inner, render, valid, compose_render]

variable [Layered β]

theorem phrases_congr {body other : β} (same : forget body = forget other) :
    (clauses body).map Clause.phrase? = (clauses other).map Clause.phrase? := by
  have blind (body : β) :
      (clauses body).map Clause.phrase? = (clauses (forget body)).map Clause.phrase? := by
    simp [clauses_forget]
  rw [blind body, same, ← blind other]

theorem isValid_congr {body other : β} (same : forget body = forget other) :
    isValid body = isValid other := by
  have phrased (body : β) :
      isValid body = ((clauses body).map Clause.phrase?).head?.any Option.isSome := by
    rw [isValid_eq]
    cases clauses body <;> simp [Clause.isAvailable_eq_isSome]
  rw [phrased, phrased, phrases_congr same]

/-- Contents that agree once everything is forgotten render alike. -/
theorem render_congr {body other : β} (same : forget body = forget other) :
    render body = render other := by
  have phrases : (clauses body).filterMap Clause.phrase? =
      (clauses other).filterMap Clause.phrase? := by
    simpa using congrArg (List.filterMap id) (phrases_congr same)
  simp only [render, isValid_congr same, compose_render, phrases]

theorem coherent_afterRead (kind : ClauseKind) {body : β}
    (inner : ∀ clause ∈ clauses body, clause.Coherent) :
    ∀ clause ∈ clauses (afterRead kind body), clause.Coherent := by
  rw [clauses_afterRead]
  intro clause member
  obtain ⟨old, held, rfl⟩ := List.mem_map.mp member
  exact (inner old held).afterPartRead kind

/-- Reading one clause after the other shows no trace. -/
theorem forget_afterReads (body : β) : forget (afterReads body) = forget body := by
  unfold afterReads
  generalize available body = read
  induction read generalizing body with
  | nil => rfl
  | cons clause rest ih => exact (ih _).trans (forget_afterRead clause.kind body)

theorem coherent_afterReads {body : β} (inner : ∀ clause ∈ clauses body, clause.Coherent) :
    ∀ clause ∈ clauses (afterReads body), clause.Coherent := by
  unfold afterReads
  generalize available body = read
  induction read generalizing body with
  | nil => exact inner
  | cons clause rest ih => exact ih (coherent_afterRead clause.kind inner)

/-- A read of a statement remembers nothing wrong, neither of the statement nor of its clauses. -/
theorem Coherent.state_read (coherent : Coherent s) : Coherent (read s).state := by
  unfold read
  cases valid : isValid s.content with
  | false => simpa [valid] using coherent
  | true =>
    cases memo : s.memo? with
    | some text => simpa [valid, memo] using coherent
    | none =>
      simp only [↓reduceIte, compose_text coherent.inner, compose_render]
      refine ⟨?_, coherent_afterReads coherent.inner⟩
      intro text remembered
      simp only [Option.mem_def, Option.some.injEq] at remembered
      rw [render_congr (forget_afterReads s.content), ← remembered]
      simp [render, valid, compose_render]

theorem forget_read (coherent : Coherent s) :
    forget (read s).state.content = forget s.content := by
  unfold read
  cases valid : isValid s.content with
  | false => simp
  | true =>
    cases memo : s.memo? with
    | some text => simp
    | none =>
      simp only [↓reduceIte, compose_text coherent.inner, compose_render]
      exact forget_afterReads s.content

theorem Coherent.afterRead (coherent : Coherent s) (kind : ClauseKind) :
    Coherent { s with content := StatementBody.afterRead kind s.content } where
  own := fun text remembered =>
    (render_congr (Layered.forget_afterRead kind s.content)).trans (coherent.own text remembered)
  inner := coherent_afterRead kind coherent.inner

end StatementBody

/-! ### The four kinds of contents -/

open StatementBody

namespace Query

/-- A query with nothing remembered of any clause. -/
def forget (q : Query) : Query where
  projection := q.projection.forget
  source := q.source.forget
  filter := q.filter.forget
  grouping := Grouping.forget q.grouping
  sorting := q.sorting.forget

instance : Layered Query where
  forget := forget
  isValid_eq _ := rfl
  clauses_forget _ := rfl
  clauses_afterRead kind _ := by cases kind <;> rfl
  forget_afterRead kind q := by
    cases kind <;> try rfl
    exact congrArg (fun grouping => { forget q with grouping })
      (Grouping.forget_afterRead q.grouping)

/-- A change of a query leaves nothing wrong in any of its clauses. -/
theorem coherent_apply (change : Edit) {q : Query}
    (inner : ∀ clause ∈ q.clauses, clause.Coherent) :
    ∀ clause ∈ (apply change q).2.clauses, clause.Coherent := by
  cases change <;>
    simp only [clauses, apply, List.mem_cons, List.not_mem_nil, or_false, forall_eq_or_imp,
      forall_eq, Clause.Coherent] at inner ⊢ <;>
    obtain ⟨projection, source, filter, grouping, sorting⟩ := inner
  case projection => exact ⟨Cached.coherent_edit _ _ _, source, filter, grouping, sorting⟩
  case source => exact ⟨projection, source.edit? _, filter, grouping, sorting⟩
  case filter => exact ⟨projection, source, filter.edit? _, grouping, sorting⟩
  case grouping => exact ⟨projection, source, filter, grouping.edit? _, sorting⟩
  case sorting => exact ⟨projection, source, filter, grouping, Cached.coherent_edit _ _ _⟩

theorem apply_forget (change : Edit) (q : Query) :
    apply change q.forget = ((apply change q).1, (apply change q).2.forget) := by
  cases change with
  | projection | sorting => rfl
  | source | filter => simp only [apply, forget, Cached.edit?_forget]
  | grouping => simp only [apply, forget, Grouping.edit?_forget]

end Query

namespace Insertion

def forget (s : Insertion) : Insertion where
  assignments := s.assignments.forget

instance : Layered Insertion where
  forget := forget
  isValid_eq _ := rfl
  clauses_forget _ := rfl
  clauses_afterRead kind _ := by cases kind <;> rfl
  forget_afterRead kind s := by
    cases kind <;> try rfl
    exact congrArg (fun assignments => { forget s with assignments })
      (Cached.forget_afterRead? Assignments.render s.assignments)

theorem coherent_apply (change : Assignments.Edit) (s : Insertion) :
    ∀ clause ∈ (apply change s).2.clauses, clause.Coherent := by
  simp only [clauses, apply, List.mem_cons, List.not_mem_nil, or_false, forall_eq, Clause.Coherent]
  exact Cached.coherent_edit _ _ _

end Insertion

namespace Update

def forget (s : Update) : Update where
  assignments := s.assignments.forget
  source := s.source.forget
  filter := s.filter.forget

instance : Layered Update where
  forget := forget
  isValid_eq _ := rfl
  clauses_forget _ := rfl
  clauses_afterRead kind _ := by cases kind <;> rfl
  forget_afterRead kind s := by
    cases kind <;> try rfl
    exact congrArg (fun assignments => { forget s with assignments })
      (Cached.forget_afterRead? Assignments.render s.assignments)

theorem coherent_apply (change : Edit) {s : Update}
    (inner : ∀ clause ∈ s.clauses, clause.Coherent) :
    ∀ clause ∈ (apply change s).2.clauses, clause.Coherent := by
  cases change <;>
    simp only [clauses, apply, List.mem_cons, List.not_mem_nil, or_false, forall_eq_or_imp,
      forall_eq, Clause.Coherent] at inner ⊢ <;>
    obtain ⟨assignments, source, filter⟩ := inner
  case assignments => exact ⟨Cached.coherent_edit _ _ _, source, filter⟩
  case source => exact ⟨assignments, source.edit? _, filter⟩
  case filter => exact ⟨assignments, source, filter.edit? _⟩

theorem apply_forget (change : Edit) (s : Update) :
    apply change s.forget = ((apply change s).1, (apply change s).2.forget) := by
  cases change with
  | assignments => rfl
  | source | filter => simp only [apply, forget, Cached.edit?_forget]

end Update

namespace Deletion

def forget (s : Deletion) : Deletion where
  source := s.source.forget
  filter := s.filter.forget

instance : Layered Deletion where
  forget := forget
  isValid_eq _ := rfl
  clauses_forget _ := rfl
  clauses_afterRead kind _ := by cases kind <;> rfl
  forget_afterRead kind s := by cases kind <;> rfl

theorem coherent_apply (change : Edit) {s : Deletion}
    (inner : ∀ clause ∈ s.clauses, clause.Coherent) :
    ∀ clause ∈ (apply change s).2.clauses, clause.Coherent := by
  cases change <;>
    simp only [clauses, apply, List.mem_cons, List.not_mem_nil, or_false, forall_eq_or_imp,
      forall_eq, Clause.Coherent] at inner ⊢ <;>
    obtain ⟨source, filter⟩ := inner
  case source => exact ⟨source.edit? _, filter⟩
  case filter => exact ⟨source, filter.edit? _⟩

theorem apply_forget (change : Edit) (s : Deletion) :
    apply change s.forget = ((apply change s).1, (apply change s).2.forget) := by
  cases change <;> simp only [apply, forget, Cached.edit?_forget]

end Deletion

/-! ### Statements -/

namespace Statement

def forget : Statement → Statement
  | select s => select { content := s.content.forget }
  | insert s => insert { content := s.content.forget }
  | update s => update { content := s.content.forget }
  | delete s => delete { content := s.content.forget }
  | verbatim s => verbatim s

/-- Whatever is remembered of a statement and of its clauses is right. -/
def Coherent : Statement → Prop
  | select s => StatementBody.Coherent s
  | insert s => StatementBody.Coherent s
  | update s => StatementBody.Coherent s
  | delete s => StatementBody.Coherent s
  | verbatim _ => True

variable {s : Statement}

/-- A statement reads as its contents render. -/
theorem Coherent.answer_read (coherent : s.Coherent) : s.read.answer = s.render := by
  cases s with
  | select s | insert s | update s | delete s => exact StatementBody.Coherent.answer_read coherent
  | verbatim s => rfl

theorem Coherent.state_read (coherent : s.Coherent) : s.read.state.Coherent := by
  cases s with
  | select s | insert s | update s | delete s => exact StatementBody.Coherent.state_read coherent
  | verbatim s => trivial

theorem Coherent.afterClauseRead (coherent : s.Coherent) (kind : ClauseKind) :
    (s.afterClauseRead kind).Coherent := by
  cases s with
  | select s | insert s | update s | delete s =>
    exact StatementBody.Coherent.afterRead coherent kind
  | verbatim s => trivial

theorem Coherent.clause {kind : ClauseKind} {clause : Clause} (coherent : s.Coherent)
    (found : s.clause? kind = some clause) : clause.Coherent := by
  have inner : ∀ clause ∈ s.clauses, clause.Coherent := by
    cases s with
    | select s | insert s | update s | delete s => exact StatementBody.Coherent.inner coherent
    | verbatim s => simp [clauses]
  rcases List.mem_append.mp (List.mem_of_find?_eq_some found) with member | member
  · exact inner clause member
  · obtain ⟨outer, held, having⟩ := List.mem_filterMap.mp member
    exact (inner outer held).having having

/-- A change of a statement leaves nothing wrong behind. -/
theorem Coherent.change {next : Statement} {change : Edit} {reply : Except Error Reply}
    (coherent : s.Coherent) (changed : s.change? change = some (reply, next)) : next.Coherent := by
  cases s <;> cases change <;>
    simp only [change?, Option.some.injEq, Prod.mk.injEq, reduceCtorEq] at changed <;>
    obtain ⟨-, rfl⟩ := changed
  case select s change =>
    exact ⟨Cached.coherent_edit _ _ _,
      Query.coherent_apply change (StatementBody.Coherent.inner coherent)⟩
  case insert s change =>
    exact ⟨Cached.coherent_edit _ _ _, Insertion.coherent_apply change s.content⟩
  case update s change =>
    exact ⟨Cached.coherent_edit _ _ _,
      Update.coherent_apply change (StatementBody.Coherent.inner coherent)⟩
  case delete s change =>
    exact ⟨Cached.coherent_edit _ _ _,
      Deletion.coherent_apply change (StatementBody.Coherent.inner coherent)⟩

theorem coherent_forget (s : Statement) : s.forget.Coherent := by
  have inner {β : Type} [StatementBody β] [Layered β] (body : β) :
      ∀ clause ∈ StatementBody.clauses (Layered.forget body), clause.Coherent := by
    rw [Layered.clauses_forget]
    intro clause member
    obtain ⟨held, _, rfl⟩ := List.mem_map.mp member
    exact held.coherent_forget
  cases s with
  | select s | insert s | update s | delete s => exact ⟨Cached.coherent_fresh _ _, inner s.content⟩
  | verbatim s => trivial

/-- The text of a statement does not depend on what the statement remembers. -/
@[simp]
theorem written?_forget (s : Statement) : s.forget.written? = s.written? := by
  have blind {β : Type} [StatementBody β] [Layered β] (body : β) :
      StatementBody.written? (Layered.forget body) = StatementBody.written? body := by
    simp only [StatementBody.written?, Layered.clauses_forget, List.head?_map, Option.any_map,
      List.filterMap_map, Function.comp_def, Clause.phrase?_forget]
  cases s with
  | select s | insert s | update s | delete s => exact blind s.content
  | verbatim s => rfl

theorem clauses_forget (s : Statement) : s.forget.clauses = s.clauses.map Clause.forget := by
  cases s with
  | select s | insert s | update s | delete s => exact Layered.clauses_forget s.content
  | verbatim s => rfl

theorem clause?_forget (kind : ClauseKind) (s : Statement) :
    s.forget.clause? kind = (s.clause? kind).map Clause.forget := by
  have havings : (s.clauses.map Clause.forget).filterMap Clause.having? =
      (s.clauses.filterMap Clause.having?).map Clause.forget := by
    simp only [List.filterMap_map, List.map_filterMap, Function.comp_def, Clause.having?_forget]
  simp only [clause?, clauses_forget, havings, ← List.map_append, List.find?_map,
    Function.comp_def, Clause.kind_forget]

theorem Coherent.forget_read (coherent : s.Coherent) : s.read.state.forget = s.forget := by
  cases s with
  | select s =>
    exact congrArg (fun q => select { content := q }) (StatementBody.forget_read coherent)
  | insert s =>
    exact congrArg (fun s => insert { content := s }) (StatementBody.forget_read coherent)
  | update s =>
    exact congrArg (fun s => update { content := s }) (StatementBody.forget_read coherent)
  | delete s =>
    exact congrArg (fun s => delete { content := s }) (StatementBody.forget_read coherent)
  | verbatim s => rfl

theorem forget_afterClauseRead (kind : ClauseKind) (s : Statement) :
    (s.afterClauseRead kind).forget = s.forget := by
  cases s with
  | select s =>
    exact congrArg (fun q => select { content := q }) (Layered.forget_afterRead kind s.content)
  | insert s =>
    exact congrArg (fun s => insert { content := s }) (Layered.forget_afterRead kind s.content)
  | update s =>
    exact congrArg (fun s => update { content := s }) (Layered.forget_afterRead kind s.content)
  | delete s =>
    exact congrArg (fun s => delete { content := s }) (Layered.forget_afterRead kind s.content)
  | verbatim s => rfl

/-- A change can be made before or after forgetting. -/
theorem change?_forget (change : Edit) (s : Statement) :
    s.forget.change? change =
      (s.change? change).map fun (reply, next) => (reply, next.forget) := by
  cases s <;> cases change <;> try rfl
  case select s change =>
    simp only [forget, change?, Cached.edit, Query.apply_forget, Option.map_some]
  case update s change =>
    simp only [forget, change?, Cached.edit, Update.apply_forget, Option.map_some]
  case delete s change =>
    simp only [forget, change?, Cached.edit, Deletion.apply_forget, Option.map_some]

end Statement

end SqlBuilder
