import SqlBuilder.Proofs.Session.Facet

/-! # Joins from the left

A join replaces the source of a FROM clause by the text of both sides. So what the clause holds is a
chain: the source that was set last, and behind it every join since then that was not refused, in
their order. When the source is set again or cleared, the joins and all their parameters go with the
old one.
-/

namespace SqlBuilder

namespace Source

/-- One join as it is written behind a source. -/
structure Join where
  kind : JoinKind
  right : Expr
  condition? : Option Expr := none

namespace Join

def text (join : Join) : String :=
  " " ++ join.kind.label ++ " " ++ join.right.text ++
    join.condition?.elim "" fun condition => " ON " ++ condition.text

/-- The joined source and the condition. -/
def parts (join : Join) : List Expr := join.right :: join.condition?.toList

end Join

/-- A source with everything that is joined to it. -/
structure Chain where
  base : Expr
  joins : List Join := []

namespace Chain

/-- The source and the parts of every join, in the order they are written. -/
def parts (chain : Chain) : List Expr := chain.base :: chain.joins.flatMap Join.parts

def text (chain : Chain) : String := chain.base.text ++ String.join (chain.joins.map Join.text)

/-- A chain as one expression. A source without joins is itself. -/
def toExpr (chain : Chain) : Expr :=
  match chain.joins with
  | [] => chain.base
  | _ :: _ => { text := chain.text, params := .unions (chain.parts.map Expr.params) }

def add (chain : Chain) (join : Join) : Chain := { chain with joins := chain.joins ++ [join] }

theorem text_toExpr (chain : Chain) : chain.toExpr.text = chain.text := by
  obtain ⟨base, joins⟩ := chain
  cases joins with
  | nil => simp [toExpr, text]
  | cons join joins => rfl

/-- The parameters of a chain are those of the source and of each join, in the order they are
written. -/
theorem params_toExpr (chain : Chain) :
    chain.toExpr.params = .unions (chain.parts.map Expr.params) := by
  obtain ⟨base, joins⟩ := chain
  cases joins with
  | nil => exact (ParamList.empty_union base.params).symm
  | cons join joins => rfl

theorem text_add (chain : Chain) (join : Join) :
    (chain.add join).text = chain.text ++ join.text := by
  simp [text, add, String.append_assoc]

theorem parts_add (chain : Chain) (join : Join) :
    (chain.add join).parts = chain.parts ++ join.parts := by
  simp [parts, add]

/-- Joining a chain with one more source is adding the join to the chain. -/
theorem joined_toExpr (chain : Chain) (join : Join) :
    joined join.kind chain.toExpr join.right join.condition? = (chain.add join).toExpr := by
  have written : (chain.add join).toExpr =
      { text := (chain.add join).text
        params := .unions ((chain.add join).parts.map Expr.params) } := by
    obtain ⟨base, joins⟩ := chain
    cases joins <;> rfl
  rw [written, text_add, parts_add, List.map_append]
  obtain ⟨kind, right, condition?⟩ := join
  cases condition? with
  | none =>
    simp [joined, text_toExpr, params_toExpr, Join.text, Join.parts, ParamList.unions_concat,
      String.append_assoc]
  | some condition =>
    have params :
        ParamList.unions (chain.parts.map Expr.params ++ [right.params, condition.params]) =
          .unions (chain.parts.map Expr.params) ∪ right.params ∪ condition.params := by
      rw [List.append_cons, ParamList.unions_concat, ParamList.unions_concat]
    simp [joined, text_toExpr, params_toExpr, Join.text, Join.parts, params, String.append_assoc]

end Chain

/-- Whether a change leaves nothing of the source before it. -/
def Edit.resets : Edit → Bool
  | set _ | clear => true
  | join .. => false

/-- The join that a change makes if there is a source: the right side must be given, and so must a
condition unless the join is a cross join. -/
def Edit.join? : Edit → Option Join
  | join kind (some right) condition? =>
    if condition?.isSome ∨ kind = .cross then some { kind, right, condition? } else none
  | _ => none

/-- The chain of the changes since the last one that starts anew. It starts with a source. -/
def Chain.ofLast? : List Edit → Option Chain
  | .set base :: later => some { base, joins := later.filterMap Edit.join? }
  | _ => none

/-- The chain that changes leave, if any is left. -/
def Chain.ofChanges? (changes : List Edit) : Option Chain :=
  ofLast? (sinceReset Edit.resets changes)

namespace Chain

/-- A source is held if one was set that was not replaced or cleared since, with the joins behind
it. -/
theorem ofChanges?_eq_some_iff {changes : List Edit} {chain : Chain} :
    ofChanges? changes = some chain ↔ ∃ before base later, changes = before ++ .set base :: later ∧
      (∀ change ∈ later, change.resets = false) ∧
      chain = { base, joins := later.filterMap Edit.join? } := by
  constructor
  · intro held
    rcases sinceReset_cases Edit.resets changes with
      ⟨none, since⟩ | ⟨before, change, later, rfl, anew, none, since⟩
    · rw [ofChanges?, since] at held
      -- Without a source that was set there are only joins.
      cases changes with
      | nil => cases held
      | cons change later =>
        have joins := none change (List.mem_cons_self ..)
        cases change with
        | join => cases held
        | set | clear => cases joins
    · rw [ofChanges?, since] at held
      cases change with
      | set base => exact ⟨before, base, later, rfl, none, (Option.some.inj held).symm⟩
      | clear => cases held
      | join => cases anew
  · rintro ⟨before, base, later, rfl, none, rfl⟩
    rw [ofChanges?, sinceReset_of_reset none rfl]
    rfl

/-- A join is added to the chain, if there is one and the join can be made. -/
theorem ofLast?_concat_join (last : List Edit) (kind : JoinKind) (right? condition? : Option Expr) :
    ofLast? (last ++ [.join kind right? condition?]) =
      (ofLast? last).map fun chain =>
        (Edit.join kind right? condition?).join?.elim chain chain.add := by
  match last with
  | .set base :: later =>
    cases made : (Edit.join kind right? condition?).join? <;>
      simp [ofLast?, List.filterMap_append, made, add]
  | [] | .clear :: _ | .join _ _ _ :: _ => rfl

end Chain

/-- A join with the source at hand is made as the change says, or not at all. -/
theorem join_toExpr (chain : Chain) (kind : JoinKind) (right? condition? : Option Expr) :
    (∃ e, (Edit.join kind right? condition?).join? = none ∧
        join ⟨some chain.toExpr⟩ kind right? condition? = .error e) ∨
      ∃ made, (Edit.join kind right? condition?).join? = some made ∧
        join ⟨some chain.toExpr⟩ kind right? condition? = .ok ⟨some (chain.add made).toExpr⟩ := by
  cases right? with
  | none => exact .inl ⟨_, rfl, rfl⟩
  | some right =>
    by_cases enough : condition?.isSome ∨ kind = .cross
    · have needless : (condition?.isNone && kind.needsCondition) = false := by
        rcases enough with given | cross
        · simp [Option.isNone_eq_false_iff.mpr given]
        · simp [cross, JoinKind.needsCondition]
      refine .inr ⟨⟨kind, right, condition?⟩, if_pos enough, ?_⟩
      rw [← chain.joined_toExpr]
      simp [join, needless]
    · have needed : (condition?.isNone && kind.needsCondition) = true := by
        simpa [JoinKind.needsCondition] using enough
      exact .inl ⟨.joinWithoutCondition kind, if_neg enough, by simp [join, needed]⟩

/-- A clause that holds a chain and is changed holds the chain of all changes. -/
theorem afterAttempt_chain (changes : List Edit) (change : Edit) :
    afterAttempt apply (⟨(Chain.ofChanges? changes).map Chain.toExpr⟩ : Source) change =
      ⟨(Chain.ofChanges? (changes ++ [change])).map Chain.toExpr⟩ := by
  unfold Chain.ofChanges?
  rw [sinceReset_append]
  cases change with
  | set | clear => rfl
  | join kind right? condition? =>
    simp only [Edit.resets, Bool.false_eq_true, ↓reduceIte, Chain.ofLast?_concat_join]
    cases Chain.ofLast? (sinceReset Edit.resets changes) with
    | none => rfl
    | some chain =>
      rcases join_toExpr chain kind right? condition? with
        ⟨e, none, refused⟩ | ⟨made, some, joined⟩
      · simp [afterAttempt, apply, none, refused, Except.map]
      · simp [afterAttempt, apply, some, joined, Except.map]

/-- Changes of a clause without a source leave their chain. -/
theorem foldl_eq_chain (changes : List Edit) :
    changes.foldl (afterAttempt apply) ({} : Source) =
      ⟨(Chain.ofChanges? changes).map Chain.toExpr⟩ :=
  foldl_afterAttempt afterAttempt_chain changes

end Source

/-! ### Where sources are -/

namespace Clause

def source? : Clause → Option Source
  | source c => some c.content
  | _ => none

/-- The change of a source that a change of a clause is, if it is one. -/
def Edit.source? : Edit → Option Source.Edit
  | source change => some change
  | _ => none

/-- The source as it is seen of FROM clauses. -/
def sources : Facet Clause Action Source Source.Edit := facet source? Edit.source?

/-- The source of a FROM clause undergoes every change of the clause. -/
theorem obeys_sources : sources.Obeys Source.apply fun clause => clause.kind = .source := by
  have blind (clause : Clause) : clause.afterRead.source? = clause.source? := by
    cases clause <;> rfl
  refine obeys_facet blind fun clause edit a own held => ?_
  cases clause with
  | source c =>
    obtain rfl := Option.some.inj held
    cases edit with
    | source change => exact .cached Source.apply c change
    | projection | condition | grouping | sorting | assignments => exact .other
  | projection | condition | grouping | sorting | assignments => cases held

end Clause

namespace Statement

/-- The change of its source that a change of a statement of a kind is, if it is one. -/
def Edit.source? (kind : StatementKind) (edit : Edit) : Option Source.Edit :=
  match kind, edit with
  | .select, select (.source change) => some change
  | .update, update (.source change) => some change
  | .delete, delete (.source change) => some change
  | _, _ => none

/-- The source as it is seen of statements of a kind. -/
def sources (kind : StatementKind) : Facet Statement Action Source Source.Edit :=
  facet source? (Edit.source? kind)

theorem source?_of_blank {s : Statement} (blank : s ∈ blanks) (place : s.source?.isSome) :
    s.source? = some {} := by
  simp only [blanks, List.mem_cons, List.not_mem_nil, or_false] at blank
  rcases blank with rfl | rfl | rfl | rfl <;> first | rfl | cases place

/-- The source of a statement undergoes the changes meant for it. -/
theorem obeys_sources (kind : StatementKind) :
    (sources kind).Obeys Source.apply fun s => s.Coherent ∧ s.kind = kind := by
  have blind (s : Statement) : s.forget.source? = s.source? := by cases s <;> rfl
  refine obeys_facet blind fun s edit a own held => ?_
  subst own
  cases s with
  | select s =>
    obtain rfl := Option.some.inj held
    cases edit with
    | select change =>
      cases change with
      | source change => exact .cached Source.apply s.content.source change
      | projection | filter | grouping | sorting => exact .other
    | insert | update | delete => exact .other
  | update s =>
    obtain rfl := Option.some.inj held
    cases edit with
    | update change =>
      cases change with
      | source change => exact .cached Source.apply s.content.source change
      | assignments | filter => exact .other
    | insert | select | delete => exact .other
  | delete s =>
    obtain rfl := Option.some.inj held
    cases edit with
    | delete change =>
      cases change with
      | source change => exact .cached Source.apply s.content.source change
      | filter => exact .other
    | insert | select | update => exact .other
  | insert | verbatim => cases held

end Statement

/-! ### What the sources of a run are -/

namespace Source

variable {σ A : Type} {f : Facet σ A Source Edit}

/-- How joins fold onto a source that is changed from a state on where there is none. -/
structure Folds (f : Facet σ A Source Edit) (start : σ) : Prop where
  /-- What is held is the chain of the changes, whatever else is done before and between them. -/
  folded (actions : List A) : f.see? (f.run start actions) =
    some ⟨(Chain.ofChanges? (f.changes actions)).map Chain.toExpr⟩
  /-- A source can be set and cleared at any time. -/
  accepted (actions : List A) {action : A} {change : Edit} : f.change? action = some change →
    change.resets = true → f.reply? (f.run start actions) action = some (.ok .done)
  /-- A join succeeds where there is a source and the change makes a join. -/
  joins (actions : List A) {action : A} {change : Edit} : f.change? action = some change →
    change.resets = false →
    (f.reply? (f.run start actions) action = some (.ok .done) ↔
      (Chain.ofChanges? (f.changes actions)).isSome ∧ change.join?.isSome)

/-- Sources that undergo their changes fold. -/
theorem folds_of_obeys {sound : σ → Prop} {start : σ} (obeys : f.Obeys apply sound)
    (right : sound start) (blank : f.see? start = some {}) : Folds f start where
  folded actions := by rw [obeys.see?_run right blank, foldl_eq_chain]
  accepted actions _ change own resets := by
    have seen := obeys.see?_run right blank actions
    rw [obeys.answered (obeys.sound_run right actions) seen own]
    cases change with
    | set | clear => rfl
    | join => cases resets
  joins actions _ change own joins := by
    have seen := obeys.see?_run right blank actions
    rw [obeys.answered (obeys.sound_run right actions) seen own, foldl_eq_chain]
    cases change with
    | set | clear => cases joins
    | join kind right? condition? =>
      cases Chain.ofChanges? (f.changes actions) with
      | none => simp [apply, join, Except.map]
      | some chain =>
        rcases join_toExpr chain kind right? condition? with
          ⟨e, none, refused⟩ | ⟨made, some, joined⟩
        · simp [apply, none, refused, Except.map]
        · simp [apply, some, joined, Except.map]

/-- Joins fold from the left. On a FROM clause that stands alone or belongs to a statement, and
whatever else is done with it, the source is the chain that starts with the source set last and goes
on with the joins since then that succeeded; there is none if it was cleared since or never set. A
join succeeds when there is a source, the right side is given, and a condition as well unless it is
a cross join. A chain without joins is its source, the text of every join follows the text before
it, and a chain has the parameters of its source and of the parts of its joins, each where it occurs
first. -/
theorem joins_from_left :
    Folds Clause.sources (.source { content := {} }) ∧
      (∀ start ∈ Statement.blanks, start.source?.isSome →
        Folds (Statement.sources start.kind) start) ∧
      (∀ changes chain, Chain.ofChanges? changes = some chain ↔
        ∃ before base later, changes = before ++ .set base :: later ∧
          (∀ change ∈ later, change.resets = false) ∧
          chain = { base, joins := later.filterMap Edit.join? }) ∧
      ∀ chain : Chain, (chain.joins = [] → chain.toExpr = chain.base) ∧
        chain.toExpr.text = chain.text ∧
        chain.toExpr.params.toList =
          firstOccurrences (chain.parts.flatMap fun e => e.params.toList) := by
  refine ⟨folds_of_obeys Clause.obeys_sources rfl rfl, fun start blank place => ?_,
    fun changes chain => Chain.ofChanges?_eq_some_iff, fun chain => ⟨fun alone => ?_, ?_, ?_⟩⟩
  · exact folds_of_obeys (Statement.obeys_sources start.kind)
      ⟨Statement.coherent_of_blank blank, rfl⟩ (Statement.source?_of_blank blank place)
  · rw [Chain.toExpr, alone]
  · exact chain.text_toExpr
  · rw [chain.params_toExpr, ParamList.toList_unions, List.flatMap_map]

/-- The first source goes with its join and its parameter. Of the joins of the second one, that
without a condition fails and the others follow it. -/
theorem joins_from_left_replaced :
    let f := Statement.sources .delete
    let start : Statement := .delete { content := {} }
    let source (change : Edit) : Statement.Action := .change (.delete (.source change))
    let a : Expr := { text := "a", params := .ofList [.placeholder 0] }
    let b : Expr := { text := "b(?)", params := .ofList [.placeholder 1] }
    let on : Expr := { text := "x = ?", params := .ofList [.placeholder 2, .placeholder 1] }
    let past := [source (.join .left (some b) (some on)), source (.set a),
      source (.join .cross (some b) none), .read, source (.set b)]
    let failing := source (.join .inner (some a) none)
    let more := [failing, source (.join .cross (some a) none),
      source (.join .inner (some b) (some on))]
    f.reply? (f.run start past) failing ≠ some (.ok .done) ∧
      f.see? (f.run start (past ++ more)) =
        some ⟨some { text := "b(?) CROSS JOIN a INNER JOIN b(?) ON x = ?"
                     params := .ofList [.placeholder 1, .placeholder 0, .placeholder 2] }⟩ := by
  intro f start source a b on past failing more
  have folds : Folds f start := joins_from_left.2.1 start (by decide) rfl
  constructor
  · have fails := folds.joins past (rfl : f.change? failing = some _) rfl
    rw [Ne, fails]
    decide
  · rw [folds.folded]
    decide

end Source

end SqlBuilder
