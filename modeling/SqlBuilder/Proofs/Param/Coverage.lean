import SqlBuilder.Proofs.Param.Union
import SqlBuilder.Statement.Basic

/-! # Coverage of the parameters in use

Whatever a statement writes, it must bind. Lists keep the parameters of everything they took, also
of what was removed; sources and conditions carry those of all they were folded from; fields and
values are looked through at every read. What a source and a condition were folded from is no
longer in them, so a ledger beside the statement records it change by change. Every change keeps
each clause in possession of the parameters of all expressions it writes.
-/

namespace SqlBuilder

namespace ParamList

/-- Whether a list has all parameters of an expression. -/
def Covers (l : ParamList) (e : Expr) : Prop := ∀ p ∈ e.params.toList, l.contains p = true

variable {l m : ParamList} {e : Expr}

theorem covers_self (e : Expr) : e.params.Covers e := fun _ member =>
  contains_eq_true_iff.mpr (List.mem_map_of_mem member)

theorem Covers.union_left (covers : l.Covers e) (m : ParamList) : (l ∪ m).Covers e :=
  fun p member => by simp [covers p member]

theorem Covers.union_right (covers : m.Covers e) (l : ParamList) : (l ∪ m).Covers e :=
  fun p member => by simp [covers p member]

theorem Covers.unions {ls : List ParamList} (covers : l.Covers e) (member : l ∈ ls) :
    (ParamList.unions ls).Covers e :=
  fun p held => contains_unions.mpr ⟨l, member, covers p held⟩

end ParamList

namespace Cached

variable {α β : Type}

theorem content_edit? (c : Cached α) (change : α → Except Error (β × α)) :
    (c.edit? change).2.content =
      match change c.content with
      | .ok (_, content) => content
      | .error _ => c.content := by
  unfold edit?
  cases change c.content <;> rfl

end Cached

/-! ### Clauses -/

namespace ExprList

variable {repeats : Repeats} {l : ExprList repeats}

/-- The list has the parameters of all its expressions. -/
def Covered (l : ExprList repeats) : Prop := ∀ e ∈ l.items, l.params.Covers e

/-- A list that takes an expression takes its parameters with it. -/
theorem Covered.push (covered : l.Covered) (e : Expr) : (l.push e).Covered := by
  unfold ExprList.push
  split
  · intro item member
    rcases List.mem_append.mp member with member | member
    · exact (covered item member).union_left _
    · rw [List.mem_singleton.mp member]
      exact (ParamList.covers_self e).union_right _
  · exact covered

theorem Covered.pushAll (covered : l.Covered) (es : List Expr) : (l.pushAll es).2.Covered := by
  induction es generalizing l with
  | nil => exact covered
  | cons e es ih => exact ih (covered.push e)

theorem Covered.apply (covered : l.Covered) (change : Edit) : (apply change l).2.Covered := by
  cases change with
  | push e => exact covered.push e
  | pushAll es => exact covered.pushAll _
  | erase e => exact fun item member => covered item (List.mem_of_mem_eraseP member)
  | clear => exact fun item member => by simp [ExprList.apply, ExprList.empty] at member

end ExprList

namespace Source

def fold (parts : List Expr) : Edit → List Expr
  | .set e => [e]
  | .clear => []
  | .join kind right? condition? =>
    match parts, right?, condition? with
    | [], _, _ => []
    | parts, none, _ => parts
    | parts, some right, none => if kind.needsCondition then parts else parts ++ [right]
    | parts, some right, some condition => parts ++ [right, condition]

/-- There is a source exactly if there is something it is folded from, and it has the parameters
of all of that. -/
structure Covered (s : Source) (parts : List Expr) : Prop where
  none_iff : s.expr? = none ↔ parts = []
  covers : ∀ e ∈ parts, s.params.Covers e

/-- Sources that are joined keep the parameters of both sides and of the condition. -/
theorem covers_joined (kind : JoinKind) (left right : Expr) (condition? : Option Expr) {e : Expr}
    (mentioned : left.params.Covers e ∨ e = right ∨ e ∈ condition?) :
    (joined kind left right condition?).params.Covers e := by
  have pair : (left.params.Covers e ∨ e = right) → (left.params ∪ right.params).Covers e := by
    rintro (covers | rfl)
    · exact covers.union_left _
    · exact (ParamList.covers_self e).union_right _
  cases condition? with
  | none => exact pair (by simpa using mentioned)
  | some condition =>
    rw [← or_assoc, Option.mem_def, Option.some.injEq] at mentioned
    rcases mentioned with mentioned | rfl
    · exact (pair mentioned).union_left _
    · exact (ParamList.covers_self condition).union_right _

/-- A source keeps the parameters of all it is folded from, also when a join is refused. -/
theorem Covered.edit {c : Cached Source} {parts : List Expr} (covered : c.content.Covered parts)
    (change : Edit) : (c.edit? (apply change)).2.content.Covered (fold parts change) := by
  rw [Cached.content_edit?]
  cases change with
  | set e =>
    refine ⟨by simp [apply, fold], ?_⟩
    intro part member
    rw [List.mem_singleton.mp member]
    exact ParamList.covers_self e
  | clear => exact ⟨by simp [apply, fold], fun part member => by simp [fold] at member⟩
  | join kind right? condition? =>
    cases held : c.content.expr? with
    | none =>
      have nothing := covered.none_iff.mp held
      subst nothing
      simpa [apply, join, held, Except.map, fold] using covered
    | some left =>
      have some_parts : parts ≠ [] := fun nothing => by
        rw [covered.none_iff.mpr nothing] at held
        cases held
      have base : ∀ e ∈ parts, left.params.Covers e := by
        simpa [params, held] using covered.covers
      obtain ⟨first, rest, rfl⟩ := List.exists_cons_of_ne_nil some_parts
      -- The three ways a join can fail, and what it puts together when it does not.
      cases right? with
      | none => simpa [apply, join, held, Except.map, fold] using covered
      | some right =>
        cases condition? with
        | none =>
          cases needed : kind.needsCondition with
          | true => simpa [apply, join, held, Except.map, fold, needed] using covered
          | false =>
            simp only [apply, join, held, Except.map, fold, needed, Option.isNone_none,
              Bool.true_and, Bool.false_eq_true, ↓reduceIte]
            refine ⟨by simp, fun e member => covers_joined kind left right none ?_⟩
            rcases List.mem_append.mp member with member | member
            · exact .inl (base e member)
            · exact .inr (.inl (List.mem_singleton.mp member))
        | some condition =>
          simp only [apply, join, held, Except.map, fold, Option.isNone_some, Bool.false_and,
            Bool.false_eq_true, ↓reduceIte]
          refine ⟨by simp, fun e member => covers_joined kind left right (some condition) ?_⟩
          rcases List.mem_append.mp member with member | member
          · exact .inl (base e member)
          · simp only [List.mem_cons, List.not_mem_nil, or_false] at member
            exact .inr (member.imp id fun same => by simp [same])

end Source

namespace Condition

variable {role : Role}

/-- No change of a condition is refused: the connectives take any two conditions. -/
theorem apply_eq_ok (change : Edit) (c : Condition role) :
    ∃ next, apply change c = .ok (.done, next) := by
  obtain ⟨e?⟩ := c
  cases change <;> cases e? <;> exact ⟨_, rfl⟩

def fold (parts : List Expr) : Edit → List Expr
  | .set e => [e]
  | .clear => []
  | .and e | .or e => parts ++ [e]

/-- There is a condition exactly if there is something it is folded from, and it has the
parameters of all of that. -/
structure Covered (c : Condition role) (parts : List Expr) : Prop where
  none_iff : c.expr? = none ↔ parts = []
  covers : ∀ e ∈ parts, c.params.Covers e

/-- A connective takes the parameters of both sides. -/
theorem Covered.extend {c : Condition role} {parts : List Expr} (covered : c.Covered parts)
    (op : Operator) (connective : op = .conjunction ∨ op = .disjunction) (e : Expr) :
    ∃ next, c.extend op e = .ok next ∧ next.Covered (parts ++ [e]) := by
  cases held : c.expr? with
  | none =>
    refine ⟨⟨some e⟩, by simp [Condition.extend, held], by simp, ?_⟩
    intro part member
    rw [covered.none_iff.mp held, List.nil_append, List.mem_singleton] at member
    rw [member]
    exact ParamList.covers_self e
  | some old =>
    have computed : ∃ both, op.compute [old, e] = .ok both ∧
        both.params = .unions [old.params, e.params] := by
      rcases connective with rfl | rfl <;> exact ⟨_, rfl, rfl⟩
    obtain ⟨both, ok, collected⟩ := computed
    refine ⟨⟨some both⟩, by simp [Condition.extend, held, ok, Except.map], by simp, ?_⟩
    intro part member
    change both.params.Covers part
    rw [collected]
    rcases List.mem_append.mp member with member | member
    · have base : old.params.Covers part := by
        simpa [params, held] using covered.covers part member
      exact base.unions (by simp)
    · rw [List.mem_singleton.mp member]
      exact (ParamList.covers_self e).unions (by simp)

/-- A condition keeps the parameters of all it is folded from. -/
theorem Covered.edit {c : Cached (Condition role)} {parts : List Expr}
    (covered : c.content.Covered parts) (change : Edit) :
    (c.edit? (apply change)).2.content.Covered (fold parts change) := by
  rw [Cached.content_edit?]
  cases change with
  | set e =>
    refine ⟨by simp [apply, fold], ?_⟩
    intro part member
    rw [List.mem_singleton.mp member]
    exact ParamList.covers_self e
  | clear => exact ⟨by simp [apply, fold], fun part member => by simp [fold] at member⟩
  | and e =>
    obtain ⟨next, extended, kept⟩ := covered.extend .conjunction (.inl rfl) e
    simpa only [apply, extended, Except.map, fold] using kept
  | or e =>
    obtain ⟨next, extended, kept⟩ := covered.extend .disjunction (.inr rfl) e
    simpa only [apply, extended, Except.map, fold] using kept

end Condition

namespace Grouping

/-- The keys and the condition on groups are covered, each by parameters of its own. -/
structure Covered (g : Grouping) (parts : List Expr) : Prop where
  keys : g.keys.Covered
  having : g.having.content.Covered parts

def fold (parts : List Expr) : Edit → List Expr
  | .keys _ => parts
  | .having change => Condition.fold parts change

theorem Covered.edit {c : Cached Grouping} {parts : List Expr} (covered : c.content.Covered parts)
    (change : Edit) : (c.edit? (apply change)).2.content.Covered (fold parts change) := by
  rw [Cached.content_edit?]
  cases change with
  | keys change => exact ⟨covered.keys.apply change, covered.having⟩
  | having change =>
    have inner := covered.having.edit change
    obtain ⟨next, applied⟩ := Condition.apply_eq_ok change c.content.having.content
    rw [Cached.content_edit?, applied] at inner
    simp only [apply, Cached.edit?, applied]
    exact ⟨covered.keys, inner⟩

end Grouping

namespace Sorting

def Covered (s : Sorting) : Prop := ∀ key ∈ s.keys, s.params.Covers key.1

theorem mem_direct {e : Expr} {order : SortOrder} {keys : List (Expr × SortOrder)}
    {key : Expr × SortOrder} (member : key ∈ direct e order keys) :
    key.1 = e ∨ ∃ old ∈ keys, old.1 = key.1 := by
  induction keys with
  | nil => simp_all [direct]
  | cons held rest ih =>
    unfold direct at member
    split at member
    · rcases List.mem_cons.mp member with rfl | member
      · exact .inr ⟨held, List.mem_cons_self .., rfl⟩
      · exact .inr ⟨key, List.mem_cons_of_mem _ member, rfl⟩
    · rcases List.mem_cons.mp member with rfl | member
      · exact .inr ⟨held, List.mem_cons_self .., rfl⟩
      · exact (ih member).imp id fun ⟨old, found, same⟩ => ⟨old, List.mem_cons_of_mem _ found, same⟩

theorem Covered.apply {s : Sorting} (covered : s.Covered) (change : Edit) :
    (apply change s).2.Covered := by
  intro key member
  cases change with
  | insert e order =>
    rcases mem_direct member with same | ⟨old, held, same⟩
    · rw [same]
      exact (ParamList.covers_self e).union_right _
    · rw [← same]
      exact (covered old held).union_left _
  | erase e => exact covered key (List.mem_filter.mp member).1
  | clear => simp [Sorting.apply] at member

end Sorting

/-! ### Statements -/

/-- What the source and the two conditions of a statement are folded from. -/
structure Ledger where
  source : List Expr := []
  filter : List Expr := []
  having : List Expr := []
  deriving DecidableEq

/-- The ledger after one more change of the statement. -/
def Ledger.record (ledger : Ledger) : Statement.Edit → Ledger
  | .select (.source change) | .update (.source change) | .delete (.source change) =>
    { ledger with source := Source.fold ledger.source change }
  | .select (.filter change) | .update (.filter change) | .delete (.filter change) =>
    { ledger with filter := Condition.fold ledger.filter change }
  | .select (.grouping change) => { ledger with having := Grouping.fold ledger.having change }
  | _ => ledger

namespace Clause

/-- The expressions a clause is written from, down to those its source or condition is folded
from. -/
def mentioned (ledger : Ledger) : Clause → List Expr
  | projection c => c.content.columns.items
  | source c => c.content.expr?.toList ++ ledger.source
  | condition .rows c => c.content.expr?.toList ++ ledger.filter
  | condition .groups c => c.content.expr?.toList ++ ledger.having
  | grouping c =>
    c.content.keys.items ++ (c.content.having.content.expr?.toList ++ ledger.having)
  | sorting c => c.content.keys.map Prod.fst
  | assignments _ c =>
    c.content.target?.toList ++ c.content.fields.flatMap fun entry => [entry.1, entry.2]

/-- A clause has the parameters of everything it is written from, and its source or condition is
folded from what the ledger says. -/
def Covered (ledger : Ledger) : Clause → Prop
  | projection c => c.content.columns.Covered
  | source c => c.content.Covered ledger.source
  | condition .rows c => c.content.Covered ledger.filter
  | condition .groups c => c.content.Covered ledger.having
  | grouping c => c.content.Covered ledger.having
  | sorting c => c.content.Covered
  | assignments _ _ => True

/-- A condition has its own parameters and those of what it is folded from. -/
theorem covers_condition {role : Condition.Role} {c : Condition role} {parts : List Expr}
    (covered : c.Covered parts) : ∀ e ∈ c.expr?.toList ++ parts, c.params.Covers e := by
  intro e member
  rcases List.mem_append.mp member with member | member
  · have held : c.expr? = some e := by simpa using member
    simpa [Condition.params, held] using ParamList.covers_self e
  · exact covered.covers e member

/-- What a clause is written from has its parameters among those of the clause. -/
theorem Covered.covers {ledger : Ledger} {clause : Clause} (covered : clause.Covered ledger)
    (available : clause.isAvailable = true) :
    ∀ e ∈ clause.mentioned ledger, clause.params.Covers e := by
  intro e member
  cases clause with
  | projection c => exact covered e member
  | source c =>
    rcases List.mem_append.mp member with member | member
    · have held : c.content.expr? = some e := by simpa using member
      simpa [params, Source.params, held] using ParamList.covers_self e
    · exact Source.Covered.covers covered e member
  | condition role c => cases role <;> exact covers_condition covered e member
  | grouping c =>
    have both : (grouping c).params = c.content.keys.params ∪ c.content.having.content.params :=
      if_pos available
    rw [both]
    rcases List.mem_append.mp member with member | member
    · exact (Grouping.Covered.keys covered e member).union_left _
    · exact (covers_condition (Grouping.Covered.having covered) e member).union_right _
  | sorting c =>
    obtain ⟨key, held, rfl⟩ := List.mem_map.mp member
    exact covered key held
  | assignments layout c =>
    rcases List.mem_append.mp member with member | member
    · have held : c.content.target? = some e := by simpa using member
      exact (ParamList.covers_self e).unions (by simp [held])
    · obtain ⟨entry, held, member⟩ := List.mem_flatMap.mp member
      refine (ParamList.covers_self e).unions (List.mem_append_right _ ?_)
      refine List.mem_flatMap.mpr ⟨entry, held, ?_⟩
      rcases List.mem_cons.mp member with rfl | member
      · simp
      · rw [List.mem_singleton.mp member]
        simp

end Clause

namespace StatementBody

variable {β : Type} [StatementBody β]

/-- The parameters of a statement cover what its written clauses mention. -/
theorem covers_params {ledger : Ledger} {body : β}
    (covered : ∀ clause ∈ clauses body, clause.Covered ledger) :
    ∀ e ∈ (available body).flatMap (Clause.mentioned ledger), (params body).Covers e := by
  intro e member
  obtain ⟨clause, written, mentioned⟩ := List.mem_flatMap.mp member
  obtain ⟨held, available⟩ := List.mem_filter.mp written
  exact ((covered clause held).covers available e mentioned).unions
    (List.mem_map_of_mem written)

end StatementBody

namespace Query

theorem covered_apply (change : Edit) {q : Query} {ledger : Ledger}
    (covered : ∀ clause ∈ q.clauses, clause.Covered ledger) :
    ∀ clause ∈ (apply change q).2.clauses, clause.Covered (ledger.record (.select change)) := by
  cases change <;>
    simp only [clauses, apply, Ledger.record, List.mem_cons, List.not_mem_nil, or_false,
      forall_eq_or_imp, forall_eq, Clause.Covered] at covered ⊢ <;>
    obtain ⟨projection, source, filter, grouping, sorting⟩ := covered
  case projection change =>
    refine ⟨?_, source, filter, grouping, sorting⟩
    cases change with
    | columns change => exact projection.apply change
    | distinct on => exact projection
  case source change => exact ⟨projection, source.edit change, filter, grouping, sorting⟩
  case filter change => exact ⟨projection, source, filter.edit change, grouping, sorting⟩
  case grouping change => exact ⟨projection, source, filter, grouping.edit change, sorting⟩
  case sorting change => exact ⟨projection, source, filter, grouping, sorting.apply change⟩

end Query

namespace Update

theorem covered_apply (change : Edit) {s : Update} {ledger : Ledger}
    (covered : ∀ clause ∈ s.clauses, clause.Covered ledger) :
    ∀ clause ∈ (apply change s).2.clauses, clause.Covered (ledger.record (.update change)) := by
  cases change <;>
    simp only [clauses, apply, Ledger.record, List.mem_cons, List.not_mem_nil, or_false,
      forall_eq_or_imp, forall_eq, Clause.Covered, true_and] at covered ⊢ <;>
    obtain ⟨source, filter⟩ := covered
  case assignments => exact ⟨source, filter⟩
  case source change => exact ⟨source.edit change, filter⟩
  case filter change => exact ⟨source, filter.edit change⟩

end Update

namespace Deletion

theorem covered_apply (change : Edit) {s : Deletion} {ledger : Ledger}
    (covered : ∀ clause ∈ s.clauses, clause.Covered ledger) :
    ∀ clause ∈ (apply change s).2.clauses, clause.Covered (ledger.record (.delete change)) := by
  cases change <;>
    simp only [clauses, apply, Ledger.record, List.mem_cons, List.not_mem_nil, or_false,
      forall_eq_or_imp, forall_eq, Clause.Covered] at covered ⊢ <;>
    obtain ⟨source, filter⟩ := covered
  case source change => exact ⟨source.edit change, filter⟩
  case filter change => exact ⟨source, filter.edit change⟩

end Deletion

namespace Statement

def blanks : List Statement :=
  [select { content := {} }, insert { content := {} }, update { content := {} },
    delete { content := {} }]

end Statement

/-- A statement under construction, with the ledger of what was folded into it. -/
structure Draft where
  statement : Statement
  ledger : Ledger := {}
  deriving DecidableEq

namespace Draft

/-- Changes the statement and records the change. A change for another kind of statement is
none. -/
def change (draft : Draft) (edit : Statement.Edit) : Draft :=
  match draft.statement.change? edit with
  | some (_, next) => ⟨next, draft.ledger.record edit⟩
  | none => draft

def changes (draft : Draft) (edits : List Statement.Edit) : Draft := edits.foldl change draft

/-- The expressions the clauses that are written are written from. -/
def mentioned (draft : Draft) : List Expr :=
  (draft.statement.clauses.filter Clause.isAvailable).flatMap (Clause.mentioned draft.ledger)

/-- Every clause has the parameters of what it is written from. -/
def Covered (draft : Draft) : Prop :=
  ∀ clause ∈ draft.statement.clauses, clause.Covered draft.ledger

theorem covered_blank {start : Statement} (blank : start ∈ Statement.blanks) :
    Covered { statement := start } := by
  have source : Source.Covered {} [] := ⟨by simp, by simp⟩
  have condition (role : Condition.Role) : Condition.Covered ({} : Condition role) [] :=
    ⟨by simp, by simp⟩
  have list (repeats : Repeats) : ExprList.Covered ({} : ExprList repeats) := by
    simp [ExprList.Covered]
  have sorting : Sorting.Covered {} := by simp [Sorting.Covered]
  simp only [Statement.blanks, List.mem_cons, List.not_mem_nil, or_false] at blank
  rcases blank with rfl | rfl | rfl | rfl <;>
    simp only [Covered, Statement.clauses, StatementBody.clauses, Query.clauses, Insertion.clauses,
      Update.clauses, Deletion.clauses, List.mem_cons, List.not_mem_nil, or_false,
      forall_eq_or_imp, forall_eq, Clause.Covered, true_and]
  · exact ⟨list _, source, condition _, ⟨list _, condition _⟩, sorting⟩
  · exact ⟨source, condition _⟩
  · exact ⟨source, condition _⟩

/-- Every change of a draft keeps its clauses covered. -/
theorem Covered.change {draft : Draft} (covered : draft.Covered) (edit : Statement.Edit) :
    (draft.change edit).Covered := by
  obtain ⟨statement, ledger⟩ := draft
  cases statement <;> cases edit <;> try exact covered
  case select.select s edit => exact Query.covered_apply edit covered
  case insert.insert s edit =>
    intro clause member
    rw [List.mem_singleton.mp member]
    trivial
  case update.update s edit => exact Update.covered_apply edit covered
  case delete.delete s edit => exact Deletion.covered_apply edit covered

theorem Covered.changes {draft : Draft} (covered : draft.Covered) (edits : List Statement.Edit) :
    (draft.changes edits).Covered := by
  induction edits generalizing draft with
  | nil => exact covered
  | cons edit edits ih => exact ih (covered.change edit)

/-- What a draft is written from has its parameters among those of the statement. -/
theorem Covered.covers {draft : Draft} (covered : draft.Covered) :
    ∀ e ∈ draft.mentioned, draft.statement.params.Covers e := by
  obtain ⟨statement, ledger⟩ := draft
  cases statement with
  | select s | insert s | update s | delete s => exact StatementBody.covers_params covered
  | verbatim s => intro e member; simp [mentioned, Statement.clauses] at member

/-- Whatever changes are made to a new statement, its parameters contain those of every expression
its text is written from, and contain none twice. -/
theorem params_complete {start : Statement} (blank : start ∈ Statement.blanks)
    (edits : List Statement.Edit) :
    let draft := changes { statement := start } edits
    (∀ e ∈ draft.mentioned, ∀ p ∈ e.params.toList, draft.statement.params.contains p = true) ∧
      (draft.statement.params.toList.map Param.id).Nodup :=
  ⟨((covered_blank blank).changes edits).covers, ParamList.nodup _⟩

/-- A condition on groups that is set before there are groups, a join on a condition with a
parameter, and a source and a column that share one. -/
theorem params_complete_having_first :
    let start : Statement := .select { content := {} }
    let draft := changes { statement := start }
      [ .select (.grouping (.having (.set (.param (.placeholder 0))))),
        .select (.source (.set (.param (.placeholder 1)))),
        .select (.source (.join .left (some { text := "b" }) (some (.param (.placeholder 2))))),
        .select (.grouping (.keys (.push { text := "k" }))),
        .select (.projection (.columns (.push (.param (.placeholder 1))))) ]
    start ∈ Statement.blanks ∧ draft.mentioned.length = 8 ∧
      (∀ e ∈ draft.mentioned, ∀ p ∈ e.params.toList, draft.statement.params.contains p = true) ∧
      (draft.statement.params.toList.map Param.id).Nodup := by
  refine ⟨by simp [Statement.blanks], by decide, ?_⟩
  exact params_complete (by simp [Statement.blanks]) _

end Draft

end SqlBuilder
