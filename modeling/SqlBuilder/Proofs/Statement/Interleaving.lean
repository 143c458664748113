import SqlBuilder.Proofs.Memo.Reread
import SqlBuilder.Proofs.Param.Coverage

/-! # Changes of different parts

The contents of a statement fall into parts that are changed apart from each other: the condition
on groups is one although it lies inside the grouping, and so is the distinct flag of a projection.
What is left of a statement when all but one part is dropped shows the changes of that part and no
others. So a run leaves in each part what the changes of that part alone would have left there, and
the order in which parts are changed and read cannot be told from the statement.
-/

namespace SqlBuilder

/-- The parts of statements. The target of an INSERT or UPDATE is apart from the fields. -/
inductive Statement.Part
  | columns
  | distinct
  | source
  | filter
  | keys
  | having
  | sorting
  | target
  | fields
  deriving DecidableEq

open Statement (Part)
open StatementBody (Layered)

/-- Contents of statements that consist of their parts. -/
class StatementBody.Parted (β : Type) [StatementBody β] [Layered β] where
  /-- One part of the contents, with nothing remembered. -/
  only : Part → β → β
  /-- Contents put together from contents for each part. -/
  ofParts : (Part → β) → β
  only_forget (part : Part) (body : β) : only part (Layered.forget body) = only part body
  ofParts_only (body : β) : (ofParts fun part => only part body) = Layered.forget body

open StatementBody (Parted)

/-- Contents are known by their parts, apart from what they remember. -/
theorem StatementBody.forget_ext {β : Type} [StatementBody β] [Layered β] [Parted β]
    {body other : β} (same : ∀ part, Parted.only part body = Parted.only part other) :
    Layered.forget body = Layered.forget other := by
  rw [← Parted.ofParts_only, ← Parted.ofParts_only, funext same]

/-! ### The four kinds of contents -/

def Projection.Edit.part : Projection.Edit → Part
  | columns _ => .columns
  | distinct _ => .distinct

def Grouping.Edit.part : Grouping.Edit → Part
  | keys _ => .keys
  | having _ => .having

namespace Assignments

variable {layout : Layout}

def Edit.part : Edit → Part
  | setTarget _ => .target
  | assign _ _ | erase _ | clear => .fields

def only (part : Part) (a : Assignments layout) : Assignments layout :=
  match part with
  | .target => { target? := a.target? }
  | .fields => { fields := a.fields }
  | _ => {}

/-- A change of the target leaves the fields as they are, and the other way round. -/
theorem only_apply {change : Edit} {part : Part} (other : change.part ≠ part)
    (a : Assignments layout) : (apply change a).2.only part = a.only part := by
  cases change <;> cases part <;> first | rfl | exact absurd rfl other

/-- What a change makes of a part depends on that part alone. -/
theorem apply_only (change : Edit) (a : Assignments layout) :
    (apply change (a.only change.part)).2 = (apply change a).2.only change.part := by
  cases change <;> rfl

end Assignments

namespace Query

def Edit.part : Edit → Part
  | projection change => change.part
  | source _ => .source
  | filter _ => .filter
  | grouping change => change.part
  | sorting _ => .sorting

def only (part : Part) (q : Query) : Query :=
  match part with
  | .columns => { projection := { content := { columns := q.projection.content.columns } } }
  | .distinct => { projection := { content := { distinct := q.projection.content.distinct } } }
  | .source => { source := q.source.forget }
  | .filter => { filter := q.filter.forget }
  | .keys => { grouping := { content := { keys := q.grouping.content.keys } } }
  | .having => { grouping := { content := { having := q.grouping.content.having.forget } } }
  | .sorting => { sorting := q.sorting.forget }
  | .target | .fields => {}

def ofParts (part : Part → Query) : Query where
  projection := { content := ⟨(part .columns).projection.content.columns,
    (part .distinct).projection.content.distinct⟩ }
  source := (part .source).source
  filter := (part .filter).filter
  grouping := { content := ⟨(part .keys).grouping.content.keys,
    (part .having).grouping.content.having⟩ }
  sorting := (part .sorting).sorting

instance : Parted Query where
  only := only
  ofParts := ofParts
  only_forget part _ := by cases part <;> rfl
  ofParts_only _ := rfl

/-- A change leaves the other parts alone. -/
theorem only_apply {change : Edit} {part : Part} (other : change.part ≠ part) (q : Query) :
    (apply change q).2.only part = q.only part := by
  cases change with
  | projection change => cases change <;> cases part <;> first | rfl | exact absurd rfl other
  | source | filter | sorting => cases part <;> first | rfl | exact absurd rfl other
  | grouping change =>
    cases change with
    | keys => cases part <;> first | rfl | exact absurd rfl other
    | having change =>
      -- A refusal here would keep the text of the grouping, but there is none.
      obtain ⟨next, applied⟩ := Condition.apply_eq_ok change q.grouping.content.having.content
      simp only [apply, Cached.edit?, Grouping.apply, applied]
      cases part <;> first | rfl | exact absurd rfl other

/-- A change sees no other part than its own. -/
theorem apply_only (change : Edit) (q : Query) :
    (apply change (q.only change.part)).2 = (apply change q).2.only change.part := by
  cases change with
  | projection change => cases change <;> rfl
  | source | filter => simp only [apply, only, Edit.part, Cached.edit?_forget]
  | sorting => rfl
  | grouping change =>
    cases change with
    | keys => rfl
    | having change =>
      obtain ⟨next, applied⟩ := Condition.apply_eq_ok change q.grouping.content.having.content
      simp only [apply, only, Edit.part, Grouping.Edit.part, Cached.edit?, Cached.forget,
        Grouping.apply, applied]

end Query

namespace Insertion

def only (part : Part) (s : Insertion) : Insertion where
  assignments := { content := s.assignments.content.only part }

def ofParts (part : Part → Insertion) : Insertion where
  assignments := { content := ⟨(part .target).assignments.content.target?,
    (part .fields).assignments.content.fields⟩ }

instance : Parted Insertion where
  only := only
  ofParts := ofParts
  only_forget _ _ := rfl
  ofParts_only _ := rfl

/-- A change leaves the other part alone. -/
theorem only_apply {change : Assignments.Edit} {part : Part} (other : change.part ≠ part)
    (s : Insertion) : (apply change s).2.only part = s.only part := by
  simp only [only, apply, Cached.edit, Assignments.only_apply other]

/-- A change sees no other part than its own. -/
theorem apply_only (change : Assignments.Edit) (s : Insertion) :
    (apply change (s.only change.part)).2 = (apply change s).2.only change.part := by
  simp only [only, apply, Cached.edit, Assignments.apply_only]

end Insertion

namespace Update

def Edit.part : Edit → Part
  | assignments change => change.part
  | source _ => .source
  | filter _ => .filter

def only (part : Part) (s : Update) : Update :=
  match part with
  | .source => { source := s.source.forget }
  | .filter => { filter := s.filter.forget }
  | part => { assignments := { content := s.assignments.content.only part } }

def ofParts (part : Part → Update) : Update where
  assignments := { content := ⟨(part .target).assignments.content.target?,
    (part .fields).assignments.content.fields⟩ }
  source := (part .source).source
  filter := (part .filter).filter

instance : Parted Update where
  only := only
  ofParts := ofParts
  only_forget part _ := by cases part <;> rfl
  ofParts_only _ := rfl

/-- A change leaves the other parts alone. -/
theorem only_apply {change : Edit} {part : Part} (other : change.part ≠ part) (s : Update) :
    (apply change s).2.only part = s.only part := by
  cases change with
  | assignments change =>
    cases part with
    | source | filter => rfl
    | _ => simp only [only, apply, Cached.edit, Assignments.only_apply other]
  | source | filter => cases part <;> first | rfl | exact absurd rfl other

/-- A change sees no other part than its own. -/
theorem apply_only (change : Edit) (s : Update) :
    (apply change (s.only change.part)).2 = (apply change s).2.only change.part := by
  cases change with
  | assignments change => cases change <;> rfl
  | source | filter => simp only [apply, only, Edit.part, Cached.edit?_forget]

end Update

namespace Deletion

def Edit.part : Edit → Part
  | source _ => .source
  | filter _ => .filter

def only (part : Part) (s : Deletion) : Deletion :=
  match part with
  | .source => { source := s.source.forget }
  | .filter => { filter := s.filter.forget }
  | _ => {}

def ofParts (part : Part → Deletion) : Deletion where
  source := (part .source).source
  filter := (part .filter).filter

instance : Parted Deletion where
  only := only
  ofParts := ofParts
  only_forget part _ := by cases part <;> rfl
  ofParts_only _ := rfl

/-- A change leaves the other part alone. -/
theorem only_apply {change : Edit} {part : Part} (other : change.part ≠ part) (s : Deletion) :
    (apply change s).2.only part = s.only part := by
  cases change <;> cases part <;> first | rfl | exact absurd rfl other

/-- A change sees no other part than its own. -/
theorem apply_only (change : Edit) (s : Deletion) :
    (apply change (s.only change.part)).2 = (apply change s).2.only change.part := by
  cases change <;> simp only [apply, only, Edit.part, Cached.edit?_forget]

end Deletion

/-! ### Statements -/

namespace Statement

def Edit.part : Edit → Part
  | select change => change.part
  | insert change => change.part
  | update change => change.part
  | delete change => change.part

def only (part : Part) : Statement → Statement
  | select s => select { content := s.content.only part }
  | insert s => insert { content := s.content.only part }
  | update s => update { content := s.content.only part }
  | delete s => delete { content := s.content.only part }
  | verbatim s => verbatim s

/-- Makes a change. A change for another kind of statement is none. -/
def change (edit : Edit) (s : Statement) : Statement := ((s.change? edit).map Prod.snd).getD s

variable {s t : Statement}

@[simp]
theorem only_forget (part : Part) (s : Statement) : s.forget.only part = s.only part := by
  cases s with
  | select s =>
    exact congrArg (fun q => select { content := q }) (Parted.only_forget part s.content)
  | insert s =>
    exact congrArg (fun s => insert { content := s }) (Parted.only_forget part s.content)
  | update s =>
    exact congrArg (fun s => update { content := s }) (Parted.only_forget part s.content)
  | delete s =>
    exact congrArg (fun s => delete { content := s }) (Parted.only_forget part s.content)
  | verbatim s => rfl

/-- A change leaves the other parts alone. -/
theorem only_change {edit : Edit} {part : Part} (other : edit.part ≠ part) (s : Statement) :
    (s.change edit).only part = s.only part := by
  cases s <;> cases edit <;> try rfl
  case select s edit =>
    exact congrArg (fun q => select { content := q }) (Query.only_apply other _)
  case insert s edit =>
    exact congrArg (fun s => insert { content := s }) (Insertion.only_apply other _)
  case update s edit =>
    exact congrArg (fun s => update { content := s }) (Update.only_apply other _)
  case delete s edit =>
    exact congrArg (fun s => delete { content := s }) (Deletion.only_apply other _)

/-- A change sees no other part than its own. -/
theorem change_only (edit : Edit) (s : Statement) :
    (s.only edit.part).change edit = (s.change edit).only edit.part := by
  cases s <;> cases edit <;> try rfl
  case select s edit =>
    exact congrArg (fun q => select { content := q }) (Query.apply_only edit _)
  case insert s edit =>
    exact congrArg (fun s => insert { content := s }) (Insertion.apply_only edit _)
  case update s edit =>
    exact congrArg (fun s => update { content := s }) (Update.apply_only edit _)
  case delete s edit =>
    exact congrArg (fun s => delete { content := s }) (Deletion.apply_only edit _)

/-- A statement is its parts and what is remembered. -/
theorem forget_ext (same : ∀ part, s.only part = t.only part) : s.forget = t.forget := by
  -- Parts of statements of different kinds are never the same.
  cases s <;> cases t <;> try cases same .source
  case select s t =>
    have parts : ∀ part, s.content.only part = t.content.only part := by simpa [only] using same
    exact congrArg (fun q => select { content := q }) (StatementBody.forget_ext parts)
  case insert s t =>
    have parts : ∀ part, s.content.only part = t.content.only part := by simpa [only] using same
    exact congrArg (fun s => insert { content := s }) (StatementBody.forget_ext parts)
  case update s t =>
    have parts : ∀ part, s.content.only part = t.content.only part := by simpa [only] using same
    exact congrArg (fun s => update { content := s }) (StatementBody.forget_ext parts)
  case delete s t =>
    have parts : ∀ part, s.content.only part = t.content.only part := by simpa [only] using same
    exact congrArg (fun s => delete { content := s }) (StatementBody.forget_ext parts)
  case verbatim => rfl

theorem isValid_forget (s : Statement) : s.forget.isValid = s.isValid := by
  cases s with
  | select s | insert s | update s | delete s => exact StatementBody.isValid_congr rfl
  | verbatim s => rfl

theorem render_forget (s : Statement) : s.forget.render = s.render := by
  cases s with
  | select s | insert s | update s | delete s => exact StatementBody.render_congr rfl
  | verbatim s => rfl

theorem params_forget (s : Statement) : s.forget.params = s.params := by
  cases s with
  | select s | insert s | update s | delete s => exact StatementBody.params_congr rfl
  | verbatim s => rfl

/-! ### Runs -/

/-- What is done to a statement: changes, and reads of its text, of a clause or of the
parameters. -/
inductive Action
  | change (edit : Edit)
  | read
  | readClause (kind : ClauseKind)
  | readParams
  deriving DecidableEq

/-- The part that an action changes; a read changes none. -/
def Action.part? : Action → Option Part
  | change edit => some edit.part
  | read | readClause _ | readParams => none

/-- The actions that change a part, in their order. -/
def actionsOn (part : Part) (actions : List Action) : List Action :=
  actions.filter fun action => action.part? = some part

def act (s : Statement) : Action → Statement
  | .change edit => s.change edit
  | .read => s.read.state
  | .readClause kind => s.afterClauseRead kind
  | .readParams => s

def run (s : Statement) (actions : List Action) : Statement := actions.foldl act s

theorem coherent_of_blank (blank : s ∈ blanks) : s.Coherent := by
  have fresh : s.forget = s := by
    simp only [blanks, List.mem_cons, List.not_mem_nil, or_false] at blank
    rcases blank with rfl | rfl | rfl | rfl <;> rfl
  rw [← fresh]
  exact s.coherent_forget

theorem Coherent.act (coherent : s.Coherent) (action : Action) : (s.act action).Coherent := by
  cases action with
  | change edit =>
    cases changed : s.change? edit with
    | none => simpa [Statement.act, Statement.change, changed] using coherent
    | some result => simpa [Statement.act, Statement.change, changed] using coherent.change changed
  | read => exact coherent.state_read
  | readClause kind => exact coherent.afterClauseRead kind
  | readParams => exact coherent

/-- What a statement remembers stays right in every run. -/
theorem Coherent.run (coherent : s.Coherent) (actions : List Action) :
    (s.run actions).Coherent := by
  induction actions generalizing s with
  | nil => exact coherent
  | cons action actions ih => exact ih (coherent.act action)

/-- An action leaves the other parts alone, and a read all of them. -/
theorem Coherent.only_act {action : Action} {part : Part} (coherent : s.Coherent)
    (other : action.part? ≠ some part) : (s.act action).only part = s.only part := by
  cases action with
  | change edit => exact only_change (fun own => other (congrArg some own)) s
  | read => rw [← only_forget, Statement.act, coherent.forget_read, only_forget]
  | readClause kind => rw [← only_forget, Statement.act, forget_afterClauseRead, only_forget]
  | readParams => rfl

/-- An action on a part does to the statement what it does to the part alone. -/
theorem act_only {action : Action} {part : Part} (own : action.part? = some part)
    (s : Statement) : (s.only part).act action = (s.act action).only part := by
  cases action with
  | change edit =>
    obtain rfl := Option.some.inj own
    exact change_only edit s
  | read | readClause | readParams => cases own

/-- A run leaves in a part what the actions on that part alone leave there. -/
theorem Coherent.only_run (coherent : s.Coherent) (part : Part) (actions : List Action) :
    (s.run actions).only part = (s.only part).run (actionsOn part actions) := by
  -- Over all coherent statements, since the actions on other parts still fill and drop texts.
  induction actions generalizing s with
  | nil => rfl
  | cons action actions ih =>
    have rest : (s.run (action :: actions)).only part =
        ((s.act action).only part).run (actionsOn part actions) := ih (coherent.act action)
    by_cases own : action.part? = some part
    · have kept : actionsOn part (action :: actions) = action :: actionsOn part actions := by
        simp [actionsOn, own]
      rw [rest, kept, ← act_only own]
      rfl
    · have dropped : actionsOn part (action :: actions) = actionsOn part actions := by
        simp [actionsOn, own]
      rw [rest, dropped, coherent.only_act own]

/-- The order of actions on different parts cannot be told. When two runs on a statement, whatever
was done to it before, have the same actions on each part in the same order, then both leave the
same contents of every clause, with the same validity, text or refusal, and parameters. -/
theorem run_interleave {start : Statement} (blank : start ∈ blanks)
    (history actions others : List Action)
    (same : ∀ part, actionsOn part actions = actionsOn part others) :
    let s := (start.run history).run actions
    let t := (start.run history).run others
    s.isValid = t.isValid ∧ s.read.answer = t.read.answer ∧ s.params = t.params ∧
      s.forget = t.forget := by
  intro s t
  have reached : (start.run history).Coherent := (coherent_of_blank blank).run history
  have contents : s.forget = t.forget := forget_ext fun part => by
    rw [reached.only_run part actions, same part, ← reached.only_run part others]
  refine ⟨?_, ?_, ?_, contents⟩
  · rw [← s.isValid_forget, contents, t.isValid_forget]
  · rw [(reached.run actions).answer_read, (reached.run others).answer_read, ← s.render_forget,
      contents, t.render_forget]
  · rw [← s.params_forget, contents, t.params_forget]

/-- A query that is built backwards and read all the way, and the same query built in the order it
is written. -/
theorem run_interleave_backwards :
    let start : Statement := .select { content := {} }
    let column : Action := .change (.select (.projection (.columns (.push { text := "k" }))))
    let source : Action := .change (.select (.source (.set { text := "t" })))
    let filter : Action := .change (.select (.filter (.set (.param (.placeholder 0)))))
    let key : Action := .change (.select (.grouping (.keys (.push { text := "k" }))))
    let having : Action := .change (.select (.grouping (.having (.set (.param (.placeholder 1))))))
    let backwards := [having, .read, key, filter, .readParams, source, column, .read]
    let forwards := [column, .read, source, .readClause .source, filter, key, having]
    let s := start.run backwards
    let t := start.run forwards
    start ∈ blanks ∧ (∀ part, actionsOn part backwards = actionsOn part forwards) ∧
      s.isValid = true ∧ s.isValid = t.isValid ∧ s.read.answer = t.read.answer ∧
      s.params = t.params ∧ s.forget = t.forget := by
  intro start column source filter key having backwards forwards s t
  have blank : start ∈ blanks := by simp [blanks, start]
  have same : ∀ part, actionsOn part backwards = actionsOn part forwards := by
    intro part
    cases part <;> rfl
  exact ⟨blank, same, by decide, run_interleave blank [] backwards forwards same⟩

end Statement

end SqlBuilder
