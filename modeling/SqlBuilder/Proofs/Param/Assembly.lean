import SqlBuilder.Proofs.Memo.Statement
import SqlBuilder.Proofs.Param.Marked

/-! # Queries assembled from marked expressions

Beside a query that is assembled step by step runs a marked query, which holds marked texts in the
places of the clauses and knows nothing of parameter lists. Each step keeps the two in agreement:
the parameters a clause has collected are those of its marked texts, in the order in which the
clause writes them. A key whose text is listed already is not listed again and adds no parameters;
the condition on groups adds none as long as there are no groups.
-/

namespace SqlBuilder

/-- The other clauses refer to an expression without leaving a parameter out. Everything does that
is not an alias of something with parameters. -/
def Expr.RefersInFull (e : Expr) : Prop := e.reference = e.text ∨ e.params = ∅

instance (e : Expr) : Decidable e.RefersInFull :=
  inferInstanceAs (Decidable (e.reference = e.text ∨ e.params = ∅))

/-- The marked text other clauses refer to an expression by. -/
def MarkedExpr.reference (x : MarkedExpr) : Marked :=
  if x.expr.reference = x.expr.text then x.mark else .word x.expr.reference

/-- The ways a condition enters a clause. -/
inductive Attachment
  | set
  | and
  | or
  deriving DecidableEq, Repr

namespace Attachment

def edit (how : Attachment) (e : Expr) : Condition.Edit :=
  match how with
  | set => .set e
  | and => .and e
  | or => .or e

def marked (how : Attachment) (held? : Option Marked) (m : Marked) : Marked :=
  match how, held? with
  | and, some held => Operator.conjunction.layOut [held, m]
  | or, some held => Operator.disjunction.layOut [held, m]
  | _, _ => m

end Attachment

/-- The steps by which a query is assembled. The text of a query may be read between them. -/
inductive QueryStep
  | column (x : MarkedExpr)
  | source (x : MarkedExpr)
  | join (kind : JoinKind) (right? condition? : Option MarkedExpr)
  | filter (how : Attachment) (x : MarkedExpr)
  | key (x : MarkedExpr)
  | having (how : Attachment) (x : MarkedExpr)
  | sort (x : MarkedExpr) (order : SortOrder)
  | read
  deriving DecidableEq

namespace QueryStep

def parts : QueryStep → List MarkedExpr
  | column x | source x | filter _ x | key x | having _ x | sort x _ => [x]
  | join _ right? condition? => right?.toList ++ condition?.toList
  | read => []

/-- The expression that will be referred to instead of being written out. -/
def referred? : QueryStep → Option MarkedExpr
  | key x | sort x _ => some x
  | _ => none

def sortText? : QueryStep → Option String
  | sort x _ => some x.expr.text
  | _ => none

/-- The change of the query; a read is none. -/
def edit? : QueryStep → Option Query.Edit
  | column x => some (.projection (.columns (.push x.expr)))
  | source x => some (.source (.set x.expr))
  | join kind right? condition? =>
    some (.source (.join kind (right?.map MarkedExpr.expr) (condition?.map MarkedExpr.expr)))
  | filter how x => some (.filter (how.edit x.expr))
  | key x => some (.grouping (.keys (.push x.expr)))
  | having how x => some (.grouping (.having (how.edit x.expr)))
  | sort x order => some (.sorting (.insert x.expr order))
  | read => none

/-- The query after a step. A join that is refused leaves the query as it was. -/
def run (q : Cached Query) (step : QueryStep) : Cached Query :=
  match step.edit? with
  | some change => (q.edit (Query.apply change)).2
  | none => (StatementBody.read q).state

def runAll (q : Cached Query) (steps : List QueryStep) : Cached Query := steps.foldl run q

end QueryStep

/-- The marked texts of a query, clause by clause. -/
structure MarkedQuery where
  columns : List MarkedExpr := []
  source? : Option Marked := none
  filter? : Option Marked := none
  keys : List MarkedExpr := []
  having? : Option Marked := none
  sorting : List (MarkedExpr × SortOrder) := []

namespace MarkedQuery

def add (xs : List MarkedExpr) (x : MarkedExpr) : List MarkedExpr :=
  if xs.any fun y => y.expr.text == x.expr.text then xs else xs ++ [x]

/-- The source after a join, which may be refused. -/
def joined (source? : Option Marked) (kind : JoinKind) (right? condition? : Option Marked) :
    Option Marked :=
  match source?, right?, condition? with
  | some left, some right, some condition => some (kind.marked left right (some condition))
  | some left, some right, none =>
    some (if kind.needsCondition then left else kind.marked left right none)
  | source?, _, _ => source?

def step (m : MarkedQuery) : QueryStep → MarkedQuery
  | .column x => { m with columns := add m.columns x }
  | .source x => { m with source? := some x.mark }
  | .join kind right? condition? =>
    { m with
      source? := joined m.source? kind (right?.map MarkedExpr.mark)
        (condition?.map MarkedExpr.mark) }
  | .filter how x => { m with filter? := some (how.marked m.filter? x.mark) }
  | .key x => { m with keys := add m.keys x }
  | .having how x => { m with having? := some (how.marked m.having? x.mark) }
  | .sort x order => { m with sorting := m.sorting ++ [(x, order)] }
  | .read => m

def steps (m : MarkedQuery) (steps : List QueryStep) : MarkedQuery := steps.foldl step m

def sortTexts (m : MarkedQuery) : List String := m.sorting.map fun key => key.1.expr.text

/-- A keyword with a list behind it, if the list is not empty. -/
def listed? (keyword : String) (ms : List Marked) : Option Marked :=
  if ms = [] then none else some (.word keyword ++ .join ", " ms)

def directed (key : MarkedExpr × SortOrder) : Marked :=
  .parens key.1.reference ++ .word (" " ++ key.2.keyword)

/-- The phrases of the clauses in the order they are written. -/
def phrases (m : MarkedQuery) : List (Option Marked) :=
  [ listed? "SELECT " (m.columns.map MarkedExpr.mark),
    m.source?.map (.word "FROM " ++ ·),
    m.filter?.map (.word "WHERE " ++ ·),
    (listed? "GROUP BY " (m.keys.map MarkedExpr.reference)).map
      (· ++ m.having?.elim [] (.word " HAVING " ++ ·)),
    listed? "ORDER BY " (m.sorting.map directed) ]

/-- The marked text of the query in parentheses. -/
def mark (m : MarkedQuery) : Marked := .parens (.join " " (m.phrases.filterMap id))

end MarkedQuery

namespace MarkedExpr

/-- An expression that is there exactly if the marked text is, and agrees with it. -/
def AgreesAt (e? : Option Expr) (m? : Option Marked) : Prop :=
  Option.Rel (fun e m => Agrees ⟨e, m⟩) e? m?

/-- An expression that is referred to in full is referred to with all its parameters. -/
theorem Agrees.reference {x : MarkedExpr} (agrees : x.Agrees) (full : x.expr.RefersInFull) :
    x.expr.reference = x.reference.text ∧ x.reference.handles = x.mark.handles := by
  unfold MarkedExpr.reference
  split
  · next same => exact ⟨same.trans agrees.text, rfl⟩
  · next other =>
    have bare : x.expr.params = ∅ := full.resolve_left other
    have none : firstOccurrences x.mark.handles = [] := by
      rw [← ParamList.toList_ofList, ← agrees.params, bare, ParamList.toList_empty]
    refine ⟨by simp, ?_⟩
    cases handles : x.mark.handles with
    | nil => rfl
    | cons p ps => simp [handles, firstOccurrences] at none

theorem references_eq {xs : List MarkedExpr} (agree : ∀ x ∈ xs, x.Agrees)
    (full : ∀ x ∈ xs, x.expr.RefersInFull) :
    (xs.map expr).map Expr.reference = (xs.map MarkedExpr.reference).map Marked.text ∧
      (xs.map MarkedExpr.reference).flatMap Marked.handles =
        (xs.map mark).flatMap Marked.handles := by
  induction xs with
  | nil => exact ⟨rfl, rfl⟩
  | cons x xs ih =>
    have own := (agree x (List.mem_cons_self ..)).reference (full x (List.mem_cons_self ..))
    have rest := ih (fun y member => agree y (List.mem_cons_of_mem x member))
      fun y member => full y (List.mem_cons_of_mem x member)
    simp only [List.map_cons, List.flatMap_cons, own, rest, and_self]

end MarkedExpr

namespace Sorting

/-- The keys are the given expressions, all with different texts, and nothing but their parameters
has been collected, in their order. -/
structure Agrees (s : Sorting) (keys : List (MarkedExpr × SortOrder)) : Prop where
  listed : s.keys = keys.map fun key => (key.1.expr, key.2)
  params : s.params = .ofList (keys.flatMap fun key => key.1.mark.handles)
  each : ∀ key ∈ keys, key.1.Agrees ∧ key.1.expr.RefersInFull

/-- A key that reads like no other comes behind all keys. -/
theorem direct_fresh {e : Expr} {order : SortOrder} {keys : List (Expr × SortOrder)}
    (fresh : ∀ key ∈ keys, key.1.text ≠ e.text) : direct e order keys = keys ++ [(e, order)] := by
  induction keys with
  | nil => rfl
  | cons key keys ih =>
    rw [direct, if_neg (fresh key (List.mem_cons_self ..)),
      ih fun other member => fresh other (List.mem_cons_of_mem key member), List.cons_append]

theorem Agrees.insert {s : Sorting} {keys : List (MarkedExpr × SortOrder)} (agrees : s.Agrees keys)
    {x : MarkedExpr} (own : x.Agrees) (full : x.expr.RefersInFull)
    (fresh : ∀ key ∈ keys, key.1.expr.text ≠ x.expr.text) (order : SortOrder) :
    (s.insert x.expr order).Agrees (keys ++ [(x, order)]) := by
  have other : ∀ key ∈ s.keys, key.1.text ≠ x.expr.text := by
    rw [agrees.listed]
    intro key member
    obtain ⟨held, listed, rfl⟩ := List.mem_map.mp member
    exact fresh held listed
  refine ⟨?_, ?_, ?_⟩
  · rw [Sorting.insert, direct_fresh other, agrees.listed, List.map_append, List.map_cons,
      List.map_nil]
  · simp [Sorting.insert, agrees.params, own.params, ParamList.ofList_append]
  · intro key member
    rcases List.mem_append.mp member with member | member
    · exact agrees.each key member
    · rw [List.mem_singleton.mp member]
      exact ⟨own, full⟩

end Sorting

/-! ### Steps -/

/-- What is asked of a step: its expressions agree with their marked texts, and those that are
referred to are so in full. -/
structure QueryStep.Sound (step : QueryStep) : Prop where
  agree : ∀ x ∈ step.parts, x.Agrees
  full : ∀ x ∈ step.referred?, x.expr.RefersInFull

/-- A query that holds the given marked texts and has collected their parameters. -/
structure Query.Follows (q : Query) (m : MarkedQuery) : Prop where
  columns : q.projection.content.columns.Agrees m.columns
  plain : q.projection.content.distinct = false
  source : MarkedExpr.AgreesAt q.source.content.expr? m.source?
  filter : MarkedExpr.AgreesAt q.filter.content.expr? m.filter?
  keys : q.grouping.content.keys.Agrees m.keys
  referred : ∀ x ∈ m.keys, x.expr.RefersInFull
  having : MarkedExpr.AgreesAt q.grouping.content.having.content.expr? m.having?
  sorting : q.sorting.content.Agrees m.sorting

theorem ExprList.Agrees.add {l : ExprList .refused} {xs : List MarkedExpr} (agrees : l.Agrees xs)
    {x : MarkedExpr} (own : x.Agrees) : (l.push x.expr).Agrees (MarkedQuery.add xs x) := by
  have accepts : l.accepts x.expr = !(xs.any fun y => y.expr.text == x.expr.text) := by
    simp [ExprList.accepts, ExprList.contains, agrees.items, List.any_map, Function.comp_def]
  have pushed := agrees.push own
  rw [accepts] at pushed
  cases held : xs.any fun y => y.expr.text == x.expr.text <;>
    simpa [MarkedQuery.add, held] using pushed

theorem MarkedQuery.mem_add {xs : List MarkedExpr} {x y : MarkedExpr} (member : y ∈ add xs x) :
    y ∈ xs ∨ y = x := by
  unfold add at member
  split at member
  · exact .inl member
  · simpa using member

/-- Attaching a condition attaches its marked text. -/
theorem Condition.agreesAt_attach {role : Condition.Role} {c : Condition role}
    {held? : Option Marked} (agrees : MarkedExpr.AgreesAt c.expr? held?) {x : MarkedExpr}
    (own : x.Agrees) (how : Attachment) :
    ∃ next, apply (how.edit x.expr) c = .ok (.done, next) ∧
      MarkedExpr.AgreesAt next.expr? (some (how.marked held? x.mark)) := by
  have extend (op : Operator) {e both : Expr} {m : Marked} (held : MarkedExpr.Agrees ⟨e, m⟩)
      (ok : op.compute [e, x.expr] = .ok both) :
      MarkedExpr.Agrees ⟨both, op.layOut [m, x.mark]⟩ := by
    have pair : ∀ y ∈ [⟨e, m⟩, x], MarkedExpr.Agrees y := by simpa using ⟨held, own⟩
    exact Operator.agrees_compute pair ok
  obtain ⟨e?⟩ := c
  cases agrees with
  | none => cases how <;> exact ⟨⟨some x.expr⟩, rfl, .some own⟩
  | some held =>
    cases how with
    | set => exact ⟨⟨some x.expr⟩, rfl, .some own⟩
    | and => exact ⟨_, rfl, .some (extend .conjunction held rfl)⟩
    | or => exact ⟨_, rfl, .some (extend .disjunction held rfl)⟩

/-- Joining a source joins its marked text, unless the join is refused. -/
theorem Source.agreesAt_join {c : Cached Source} {source? : Option Marked}
    (agrees : MarkedExpr.AgreesAt c.content.expr? source?) (kind : JoinKind)
    {right? condition? : Option MarkedExpr} (agreeRight : ∀ x ∈ right?, x.Agrees)
    (agreeOn : ∀ x ∈ condition?, x.Agrees) :
    MarkedExpr.AgreesAt
      (c.edit? (apply (.join kind (right?.map MarkedExpr.expr)
        (condition?.map MarkedExpr.expr)))).2.content.expr?
      (MarkedQuery.joined source? kind (right?.map MarkedExpr.mark)
        (condition?.map MarkedExpr.mark)) := by
  obtain ⟨⟨e?⟩, memo?⟩ := c
  cases agrees with
  | none => exact .none
  | some held =>
    cases right? with
    | none => exact .some held
    | some right =>
      have joined := MarkedExpr.agrees_joined kind held (agreeRight right rfl) agreeOn
      cases condition? with
      | some condition => exact .some joined
      | none =>
        cases needed : kind.needsCondition with
        | true => simpa [Cached.edit?, apply, join, needed, MarkedQuery.joined] using .some held
        | false =>
          simpa [Cached.edit?, apply, join, needed, MarkedQuery.joined, Except.map] using
            .some joined

namespace Query

variable {q : Cached Query} {m : MarkedQuery}

/-- The empty query holds no marked texts. -/
theorem follows_start : Follows {} {} where
  columns := ExprList.agrees_empty .refused
  plain := rfl
  source := .none
  filter := .none
  keys := ExprList.agrees_empty .refused
  referred := by simp
  having := .none
  sorting := ⟨rfl, rfl, by simp⟩

/-- Following does not look at what a query remembers. -/
theorem Follows.of_forget {q other : Query} (follows : Follows q m)
    (same : forget other = forget q) : Follows other m := by
  have blind (q : Query) : Follows q m ↔ Follows (forget q) m :=
    ⟨fun ⟨a, b, c, d, e, f, g, h⟩ => ⟨a, b, c, d, e, f, g, h⟩,
      fun ⟨a, b, c, d, e, f, g, h⟩ => ⟨a, b, c, d, e, f, g, h⟩⟩
  rw [blind, same, ← blind]
  exact follows

/-- A step keeps a query in agreement with its marked texts, unless it sorts by a text a second
time. -/
theorem Follows.step (follows : Follows q.content m) (coherent : StatementBody.Coherent q)
    {step : QueryStep} (sound : step.Sound)
    (fresh : ∀ text ∈ step.sortText?, text ∉ m.sortTexts) :
    Follows (step.run q).content (m.step step) := by
  obtain ⟨columns, plain, source, filter, keys, referred, having, sorting⟩ := follows
  cases step with
  | column x =>
    have own := sound.agree x (by simp [QueryStep.parts])
    exact ⟨columns.add own, plain, source, filter, keys, referred, having, sorting⟩
  | source x =>
    have own := sound.agree x (by simp [QueryStep.parts])
    exact ⟨columns, plain, .some own, filter, keys, referred, having, sorting⟩
  | join kind right? condition? =>
    have agreeRight : ∀ x ∈ right?, x.Agrees := fun x held =>
      sound.agree x (List.mem_append_left _ (Option.mem_toList.mpr held))
    have agreeOn : ∀ x ∈ condition?, x.Agrees := fun x held =>
      sound.agree x (List.mem_append_right _ (Option.mem_toList.mpr held))
    have joined := Source.agreesAt_join source kind agreeRight agreeOn
    exact ⟨columns, plain, joined, filter, keys, referred, having, sorting⟩
  | filter how x =>
    have own := sound.agree x (by simp [QueryStep.parts])
    obtain ⟨next, applied, attached⟩ := Condition.agreesAt_attach filter own how
    have content : ((QueryStep.filter how x).run q).content.filter.content = next := by
      simp [QueryStep.run, QueryStep.edit?, Cached.edit, Query.apply, Cached.edit?, applied]
    exact ⟨columns, plain, source, content ▸ attached, keys, referred, having, sorting⟩
  | key x =>
    have own := sound.agree x (by simp [QueryStep.parts])
    refine ⟨columns, plain, source, filter, keys.add own, ?_, having, sorting⟩
    intro y member
    rcases MarkedQuery.mem_add member with held | rfl
    · exact referred y held
    · exact sound.full y rfl
  | having how x =>
    have own := sound.agree x (by simp [QueryStep.parts])
    obtain ⟨next, applied, attached⟩ := Condition.agreesAt_attach having own how
    have edited : q.content.grouping.edit? (Grouping.apply (.having (how.edit x.expr))) =
        (.ok .done, { content :=
          { q.content.grouping.content with having := { content := next } } }) := by
      simp [Cached.edit?, Grouping.apply, applied]
    have run : ((QueryStep.having how x).run q).content.grouping =
        { content := { q.content.grouping.content with having := { content := next } } } := by
      simp only [QueryStep.run, QueryStep.edit?, Cached.edit, Query.apply, edited]
    exact ⟨columns, plain, source, filter, run ▸ keys, referred, run ▸ attached, sorting⟩
  | sort x order =>
    have own := sound.agree x (by simp [QueryStep.parts])
    have full := sound.full x rfl
    have other : ∀ key ∈ m.sorting, key.1.expr.text ≠ x.expr.text := fun key member same =>
      fresh x.expr.text rfl (same ▸ List.mem_map_of_mem member)
    exact ⟨columns, plain, source, filter, keys, referred, having,
      sorting.insert own full other order⟩
  | read =>
    exact Follows.of_forget ⟨columns, plain, source, filter, keys, referred, having, sorting⟩
      (StatementBody.forget_read coherent)

theorem coherent_run (coherent : StatementBody.Coherent q) (step : QueryStep) :
    StatementBody.Coherent (step.run q) := by
  unfold QueryStep.run
  split
  · exact ⟨Cached.coherent_edit _ _ _, Query.coherent_apply _ coherent.inner⟩
  · exact coherent.state_read

theorem sortTexts_step (m : MarkedQuery) (step : QueryStep) (rest : List QueryStep) :
    (m.step step).sortTexts ++ rest.filterMap QueryStep.sortText? =
      m.sortTexts ++ (step :: rest).filterMap QueryStep.sortText? := by
  cases step with
  | sort x order =>
    simp [MarkedQuery.step, MarkedQuery.sortTexts, QueryStep.sortText?]
  | _ => rfl

/-- Sound steps keep a query in agreement with its marked texts, if they sort by no text twice. -/
theorem Follows.runAll (follows : Follows q.content m) (coherent : StatementBody.Coherent q)
    {steps : List QueryStep} (sound : ∀ step ∈ steps, step.Sound)
    (distinct : (m.sortTexts ++ steps.filterMap QueryStep.sortText?).Nodup) :
    Follows (QueryStep.runAll q steps).content (m.steps steps) ∧
      StatementBody.Coherent (QueryStep.runAll q steps) := by
  induction steps generalizing q m with
  | nil => exact ⟨follows, coherent⟩
  | cons step rest ih =>
    have fresh : ∀ text ∈ step.sortText?, text ∉ m.sortTexts := fun text sorted listed => by
      refine (List.nodup_append.mp distinct).2.2 text listed text ?_ rfl
      rw [List.filterMap_cons_some sorted]
      exact List.mem_cons_self ..
    exact ih (follows.step coherent (sound step (List.mem_cons_self ..)) fresh)
      (coherent_run coherent step) (fun other member => sound other (List.mem_cons_of_mem _ member))
      (by rwa [sortTexts_step])

end Query

/-! ### Phrases -/

/-- A clause adds the given phrase to a statement and has the parameters of the phrase. -/
structure Clause.Writes (clause : Clause) (phrase? : Option Marked) : Prop where
  phrase : clause.phrase? = phrase?.map Marked.text
  params : ∀ phrase ∈ phrase?, clause.params = .ofList phrase.handles

theorem MarkedExpr.AgreesAt.cases {e? : Option Expr} {m? : Option Marked}
    (agrees : AgreesAt e? m?) :
    (e? = none ∧ m? = none) ∨
      ∃ e m, e? = some e ∧ m? = some m ∧ e.text = m.text ∧ e.params = .ofList m.handles := by
  cases agrees with
  | none => exact .inl ⟨rfl, rfl⟩
  | some held => exact .inr ⟨_, _, rfl, rfl, held.text, held.params⟩

namespace Query.Follows

variable {q : Query} {m : MarkedQuery}

theorem writes_projection (follows : q.Follows m) :
    (Clause.projection q.projection).Writes
      (MarkedQuery.listed? "SELECT " (m.columns.map MarkedExpr.mark)) := by
  have texts := MarkedExpr.texts_eq follows.columns.each
  by_cases empty : m.columns = []
  · constructor <;> simp [Clause.phrase?, MarkedQuery.listed?, follows.columns.items, empty]
  · constructor
    · simp [Clause.phrase?, MarkedQuery.listed?, follows.columns.items, follows.plain, empty, texts,
        -List.map_map]
    · simp [Clause.params, Projection.params, MarkedQuery.listed?, follows.columns.params, empty]

theorem writes_source (follows : q.Follows m) :
    (Clause.source q.source).Writes (m.source?.map (.word "FROM " ++ ·)) := by
  rcases follows.source.cases with ⟨none, empty⟩ | ⟨e, mark, some, held, text, params⟩
  · constructor <;> simp [Clause.phrase?, none, empty]
  · constructor
    · simp [Clause.phrase?, some, held, text]
    · simp [Clause.params, Source.params, some, held, params]

theorem writes_filter (follows : q.Follows m) :
    (Clause.condition .rows q.filter).Writes (m.filter?.map (.word "WHERE " ++ ·)) := by
  rcases follows.filter.cases with ⟨none, empty⟩ | ⟨e, mark, some, held, text, params⟩
  · constructor <;> simp [Clause.phrase?, none, empty]
  · constructor
    · simp [Clause.phrase?, some, held, text]
    · simp [Clause.params, Condition.params, some, held, params]

/-- The parameters of the condition on groups come behind those of the keys, and only if there is
a key. -/
theorem writes_grouping (follows : q.Follows m) :
    (Clause.grouping q.grouping).Writes
      ((MarkedQuery.listed? "GROUP BY " (m.keys.map MarkedExpr.reference)).map
        (· ++ m.having?.elim [] (.word " HAVING " ++ ·))) := by
  obtain ⟨texts, handles⟩ := MarkedExpr.references_eq follows.keys.each follows.referred
  by_cases empty : m.keys = []
  · constructor <;> simp [Clause.phrase?, MarkedQuery.listed?, follows.keys.items, empty]
  · have available : q.grouping.content.isAvailable = true := by
      simp [Grouping.isAvailable, ExprList.isEmpty, follows.keys.items, empty]
    rcases follows.having.cases with ⟨none, free⟩ | ⟨e, mark, some, held, text, params⟩
    · constructor
      · simp [Clause.phrase?, MarkedQuery.listed?, follows.keys.items, empty, none, free, texts,
          -List.map_map]
      · simp [Clause.params, Grouping.params, available, MarkedQuery.listed?, empty, none, free,
          follows.keys.params, Condition.params, handles]
    · constructor
      · simp [Clause.phrase?, MarkedQuery.listed?, follows.keys.items, empty, some, held, texts,
          text, -List.map_map, String.append_assoc]
      · simp [Clause.params, Grouping.params, available, MarkedQuery.listed?, empty, some, held,
          follows.keys.params, Condition.params, params, ParamList.ofList_append, handles]

theorem writes_sorting (follows : q.Follows m) :
    (Clause.sorting q.sorting).Writes
      (MarkedQuery.listed? "ORDER BY " (m.sorting.map MarkedQuery.directed)) := by
  have references : ∀ key ∈ m.sorting, key.1.expr.reference = key.1.reference.text ∧
      key.1.reference.handles = key.1.mark.handles := fun key member =>
    (follows.sorting.each key member).1.reference (follows.sorting.each key member).2
  have texts : (q.sorting.content.keys.map fun key =>
      "(" ++ key.1.reference ++ ") " ++ key.2.keyword) =
      (m.sorting.map MarkedQuery.directed).map Marked.text := by
    rw [follows.sorting.listed, List.map_map, List.map_map]
    refine List.map_congr_left fun key member => ?_
    have spaced : ")" ++ (" " ++ key.2.keyword) = ") " ++ key.2.keyword := by
      rw [← String.toList_inj]
      simp
    simp [MarkedQuery.directed, references key member, Operator.parens, String.append_assoc, spaced]
  have handles : (m.sorting.map MarkedQuery.directed).flatMap Marked.handles =
      m.sorting.flatMap fun key => key.1.mark.handles := by
    rw [List.flatMap_def, List.flatMap_def, List.map_map]
    refine congrArg List.flatten (List.map_congr_left fun key member => ?_)
    simp [MarkedQuery.directed, references key member]
  by_cases empty : m.sorting = []
  · constructor <;> simp [Clause.phrase?, MarkedQuery.listed?, follows.sorting.listed, empty]
  · have keys : q.sorting.content.keys ≠ [] := by simp [follows.sorting.listed, empty]
    constructor
    · simp only [Clause.phrase?, keys, ↓reduceIte, texts]
      simp [MarkedQuery.listed?, empty]
    · simp only [Clause.params, follows.sorting.params, ← handles]
      simp [MarkedQuery.listed?, empty]

end Query.Follows

/-- Clauses that write given phrases compose a text with the parameters of the phrases. -/
theorem StatementBody.writes_all {β : Type} [StatementBody β] {body : β}
    {parts : List (Clause × Option Marked)} (same : clauses body = parts.map Prod.fst)
    (writes : ∀ part ∈ parts, part.1.Writes part.2) :
    (clauses body).filterMap Clause.phrase? =
        ((parts.map Prod.snd).filterMap id).map Marked.text ∧
      params body = .ofList (((parts.map Prod.snd).filterMap id).flatMap Marked.handles) := by
  have both : (parts.map Prod.fst).filterMap Clause.phrase? =
        ((parts.map Prod.snd).filterMap id).map Marked.text ∧
      ((parts.map Prod.fst).filter Clause.isAvailable).map Clause.params =
        (((parts.map Prod.snd).filterMap id).map Marked.handles).map ParamList.ofList := by
    clear same
    induction parts with
    | nil => exact ⟨rfl, rfl⟩
    | cons part parts ih =>
      have own := writes part (List.mem_cons_self ..)
      have rest := ih fun other member => writes other (List.mem_cons_of_mem part member)
      have available : part.1.isAvailable = part.2.isSome := by
        rw [Clause.isAvailable_eq_isSome, own.phrase, Option.isSome_map]
      cases phrase : part.2 with
      | none => simp [own.phrase, phrase, available, rest, -List.filterMap_map]
      | some mark =>
        simp [own.phrase, own.params mark phrase, phrase, available, rest, -List.filterMap_map]
  rw [params, StatementBody.available, same]
  exact ⟨both.1, by rw [both.2, ParamList.unions_map_ofList, List.flatMap_def]⟩

theorem Query.subquery_eq_ok {q : Cached Query} {e : Expr} (ok : (subquery q).answer = .ok e) :
    ∃ text, (StatementBody.read q).answer = .ok text ∧
      e = { text := "(" ++ text ++ ")", params := StatementBody.params q.content } := by
  have mapped : (StatementBody.read q).answer.map (fun text =>
      { text := "(" ++ text ++ ")", params := StatementBody.params q.content }) = .ok e := ok
  cases read : (StatementBody.read q).answer with
  | error fault => simp [read, Except.map] at mapped
  | ok text =>
    simp only [read, Except.map, Except.ok.injEq] at mapped
    exact ⟨text, rfl, mapped.symm⟩

/-- A query that follows its marked texts, read as an expression. -/
theorem Query.Follows.agrees_subquery {q : Cached Query} {m : MarkedQuery}
    (follows : q.content.Follows m) (coherent : StatementBody.Coherent q) {e : Expr}
    (ok : (subquery q).answer = .ok e) : MarkedExpr.Agrees ⟨e, m.mark⟩ := by
  let parts : List (Clause × Option Marked) := (clauses q.content).zip m.phrases
  have listed : StatementBody.clauses q.content = parts.map Prod.fst := rfl
  have writes : ∀ part ∈ parts, part.1.Writes part.2 := by
    simpa [parts, clauses, MarkedQuery.phrases] using
      ⟨follows.writes_projection, follows.writes_source, follows.writes_filter,
        follows.writes_grouping, follows.writes_sorting⟩
  obtain ⟨phrases, params⟩ := StatementBody.writes_all listed writes
  obtain ⟨text, read, rfl⟩ := subquery_eq_ok ok
  rw [coherent.answer_read, StatementBody.render, StatementBody.compose_render, phrases] at read
  split at read
  · obtain rfl := Except.ok.inj read
    have layout : m.phrases = parts.map Prod.snd := rfl
    have keyword : (StatementBody.kind Query).keyword = "" := rfl
    constructor
    · simp [MarkedQuery.mark, StatementBody.layOut, keyword, layout, Operator.parens]
    · simp [MarkedQuery.mark, params, layout]
  · cases read

end SqlBuilder
