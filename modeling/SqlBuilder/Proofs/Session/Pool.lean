import SqlBuilder.Proofs.Command.Course
import SqlBuilder.Proofs.Command.Refusal

/-! # Work on a pool of statements

Statements are created, copied, changed and read in any order, each at its place in a pool. Their
text is read alone, as a subquery, in the text of a command, or when commands are prepared. A step
answers what the caller sees of it, also when it is refused, and the work goes on behind it.
-/

namespace SqlBuilder

namespace StatementBody

variable {β : Type} [StatementBody β]

theorem events_read (s : Cached β) :
    (read s).events = if s.memo?.isSome then [] else
      ((read s).answer.toOption.map fun text => .rendered (kind β) text.utf8ByteSize).toList := by
  cases valid : isValid s.content with
  | false => simp [read_of_invalid valid, Except.toOption]
  | true =>
    cases memo : s.memo? with
    | some text => simp [read_of_memo valid memo]
    | none =>
      obtain ⟨text, composed⟩ := exists_compose_text s.content
      simp [read, valid, memo, composed, Except.toOption]

theorem isSome_memo?_read (s : Cached β) :
    (read s).state.memo?.isSome = (s.memo?.isSome || isValid s.content) := by
  cases valid : isValid s.content with
  | false => simp [read_of_invalid valid]
  | true =>
    cases memo : s.memo? with
    | some text => simp [read_of_memo valid memo, memo]
    | none =>
      obtain ⟨text, composed⟩ := exists_compose_text s.content
      simp [read, valid, memo, composed]

end StatementBody

namespace Statement

/-- What a mutable access leaves behind, whatever it is used for: the text is forgotten. -/
def touch : Statement → Statement
  | select s => select { content := s.content }
  | insert s => insert { content := s.content }
  | update s => update { content := s.content }
  | delete s => delete { content := s.content }
  | verbatim s => verbatim s

/-- The text a statement remembers; a verbatim one remembers nothing. -/
def memo? : Statement → Option String
  | select s => s.memo?
  | insert s => s.memo?
  | update s => s.memo?
  | delete s => s.memo?
  | verbatim _ => none

/-- What a new statement is: one without contents, or text that the caller wrote. -/
inductive Opening
  | select
  | insert
  | update
  | delete
  | verbatim (s : Verbatim)
  deriving DecidableEq

def Opening.statement : Opening → Statement
  | select => .select { content := {} }
  | insert => .insert { content := {} }
  | update => .update { content := {} }
  | delete => .delete { content := {} }
  | verbatim s => .verbatim s

/-- The event of the rendering of a statement. There is none for a statement that cannot be written,
and none for a verbatim one, which needs no rendering. -/
def rendering (s : Statement) : List Event :=
  if s.kind = .verbatim then []
  else (s.read.answer.toOption.map fun text => .rendered s.kind text.utf8ByteSize).toList

variable {s t : Statement}

@[simp]
theorem memo?_touch (s : Statement) : s.touch.memo? = none := by cases s <;> rfl

/-- A mutable access changes no contents. -/
@[simp]
theorem forget_touch (s : Statement) : s.touch.forget = s.forget := by cases s <;> rfl

@[simp]
theorem kind_forget (s : Statement) : s.forget.kind = s.kind := by cases s <;> rfl

@[simp]
theorem memo?_statement (opening : Opening) : opening.statement.memo? = none := by
  cases opening <;> rfl

@[simp]
theorem kind_afterClauseRead (kind : ClauseKind) (s : Statement) :
    (s.afterClauseRead kind).kind = s.kind := by
  cases s <;> rfl

/-- A read of a clause leaves the remembered text of the statement alone. -/
@[simp]
theorem memo?_afterClauseRead (kind : ClauseKind) (s : Statement) :
    (s.afterClauseRead kind).memo? = s.memo? := by
  cases s <;> rfl

/-- A change is a mutable access, also a refused one. -/
theorem memo?_change {edit : Edit} {reply : Except Error Reply}
    (changed : s.change? edit = some (reply, t)) : t.memo? = none := by
  cases s <;> cases edit <;>
    simp only [change?, Option.some.injEq, Prod.mk.injEq, reduceCtorEq] at changed <;>
    obtain ⟨-, rfl⟩ := changed <;> rfl

@[simp]
theorem kind_read (s : Statement) : s.read.state.kind = s.kind := by cases s <;> rfl

theorem Alike.isValid (alike : s.Alike t) : s.isValid = t.isValid := by
  rw [Bool.eq_iff_iff, ← exists_answer_read_iff, ← exists_answer_read_iff, alike.answer]

theorem rendering_congr (kind : s.kind = t.kind) (answer : s.read.answer = t.read.answer) :
    s.rendering = t.rendering := by
  rw [rendering, rendering, kind, answer]

theorem rendering_of_invalid (invalid : s.isValid = false) : s.rendering = [] := by
  rw [rendering, answer_read_of_invalid invalid]
  exact ite_self []

/-- A statement is rendered exactly when it remembers no text. -/
theorem events_read (s : Statement) :
    s.read.events = if s.memo?.isSome then [] else s.rendering := by
  cases s with
  | select s | insert s | update s | delete s => exact StatementBody.events_read s
  | verbatim s => rfl

/-- A statement that can be written remembers its text once it has been read. -/
theorem isSome_memo?_read (built : s.kind ≠ .verbatim) :
    s.read.state.memo?.isSome = (s.memo?.isSome || s.isValid) := by
  cases s with
  | select s | insert s | update s | delete s => exact StatementBody.isSome_memo?_read s
  | verbatim s => exact absurd rfl built

end Statement

/-- Statements at work, each at its place. -/
abbrev Pool (n : Nat) := Vector Statement n

namespace Pool

variable {n : Nat}

/-- The ways to ask for texts of statements. -/
inductive Ask (n : Nat)
  | text (i : Fin n)
  | subquery (i : Fin n)
  | command (separator : String) (refs : List (Fin n))
  | prepare (b : Batcher) (refs : List (Fin n))
  deriving DecidableEq

/-- What is done with the statements of a pool. -/
inductive Step (n : Nat)
  | create (i : Fin n) (opening : Statement.Opening)
  /-- A copy, with everything the original remembers, takes the place of another statement. -/
  | copy (source target : Fin n)
  /-- A mutable access through which nothing is changed. -/
  | access (i : Fin n)
  | change (i : Fin n) (edit : Statement.Edit)
  /-- A look at the contents, the validity and the parameters. -/
  | look (i : Fin n)
  | readClause (i : Fin n) (kind : ClauseKind)
  | ask (a : Ask n)
  deriving DecidableEq

/-- What the caller sees of a step that is not refused. -/
inductive Answer
  | nothing
  | reply (reply : Reply)
  | contents (s : Statement) (valid : Bool) (params : ParamList)
  | text (text : String)
  | expr (e : Expr)
  | commands (commands : List Command)
  deriving DecidableEq

/-- Reads a query as a subquery, which no other statement can be. -/
def subquery (pool : Pool n) (i : Fin n) : Reading (Pool n) Answer :=
  match pool.get i with
  | .select q => ((Query.subquery q).mapState fun q => put pool i (.select q)).map .expr
  | _ => ⟨.ok .nothing, pool, []⟩

def ask (pool : Pool n) : Ask n → Reading (Pool n) Answer
  | .text i => (readAt pool i).map .text
  | .subquery i => subquery pool i
  | .command separator refs => (Command.readText separator pool refs).map .text
  | .prepare b refs => (b.prepare pool refs).map .commands

/-- Changes a statement. A change for another kind of statement is none. -/
def change (pool : Pool n) (i : Fin n) (edit : Statement.Edit) : Reading (Pool n) Answer :=
  match (pool.get i).change? edit with
  | some (reply, s) => ⟨reply.map .reply, put pool i s, []⟩
  | none => ⟨.ok .nothing, pool, []⟩

def readClause (pool : Pool n) (i : Fin n) (kind : ClauseKind) : Reading (Pool n) Answer :=
  match (pool.get i).clause? kind with
  | some clause => ⟨clause.text.map .text, put pool i ((pool.get i).afterClauseRead kind), []⟩
  | none => ⟨.ok .nothing, pool, []⟩

def step (pool : Pool n) : Step n → Reading (Pool n) Answer
  | .create i opening => ⟨.ok .nothing, put pool i opening.statement, []⟩
  | .copy source target => ⟨.ok .nothing, put pool target (pool.get source), []⟩
  | .access i => ⟨.ok .nothing, put pool i (pool.get i).touch, []⟩
  | .change i edit => change pool i edit
  | .look i =>
    let s := pool.get i
    ⟨.ok (.contents s.forget s.isValid s.params), pool, []⟩
  | .readClause i kind => readClause pool i kind
  | .ask a => ask pool a

def blank (n : Nat) : Pool n := .replicate n Statement.Opening.select.statement

/-- The statements whose texts are asked for, in order. -/
def Ask.refs (pool : Pool n) : Ask n → List (Fin n)
  | text i => [i]
  | subquery i => if (pool.get i).kind = .select then [i] else []
  | command _ refs => refs
  | prepare _ refs => refs

/-- What is reported behind the events of the statements: the commands that were prepared. -/
def Ask.report : Ask n → Except Error Answer → List Event
  | prepare _ refs, .ok (.commands commands) => Batcher.report refs (.ok commands)
  | _, _ => []

variable {pool : Pool n}

theorem subquery_of_kind {i : Fin n} (query : (pool.get i).kind = .select) :
    subquery pool i = (readAt pool i).map fun text =>
      .expr { text := "(" ++ text ++ ")", params := (pool.get i).params } := by
  unfold subquery readAt
  cases held : pool.get i with
  | select q =>
    simp only [Reading.map, Reading.mapState, Query.subquery, Statement.read, Statement.params]
    cases (StatementBody.read q).answer <;> rfl
  | insert | update | delete | verbatim =>
    rw [held] at query
    cases query

theorem subquery_of_ne_kind {i : Fin n} (other : (pool.get i).kind ≠ .select) :
    subquery pool i = ⟨.ok .nothing, pool, []⟩ := by
  unfold subquery
  cases held : pool.get i with
  | select q => exact absurd (congrArg Statement.kind held) other
  | insert | update | delete | verbatim => rfl

theorem sameCourse_readAt (pool : Pool n) (i : Fin n) :
    (readAt pool i).SameCourse (Reading.each readAt pool [i]) := by
  rw [Reading.each]
  unfold Reading.andThen
  split
  · next text answered => exact ⟨congrArg failure? answered, rfl, (List.append_nil _).symm⟩
  · next e answered => exact ⟨congrArg failure? answered, rfl, rfl⟩

/-- Asking reads the statements one after the other, up to the first that cannot be written. -/
theorem course_ask (pool : Pool n) (a : Ask n) :
    (ask pool a).state = (Reading.each readAt pool (a.refs pool)).state ∧
      (ask pool a).events =
        (Reading.each readAt pool (a.refs pool)).events ++ a.report (ask pool a).answer := by
  have silent {α : Type} {reading : Reading (Pool n) α} {answer : α → Answer} {refs : List (Fin n)}
      (same : reading.SameCourse (Reading.each readAt pool refs)) :
      (reading.map answer).state = (Reading.each readAt pool refs).state ∧
        (reading.map answer).events = (Reading.each readAt pool refs).events ++ [] :=
    ⟨same.state, same.events.trans (List.append_nil _).symm⟩
  cases a with
  | text i => exact silent (sameCourse_readAt pool i)
  | subquery i =>
    by_cases query : (pool.get i).kind = .select
    · rw [ask, subquery_of_kind query, Ask.refs, if_pos query]
      exact silent (sameCourse_readAt pool i)
    · rw [ask, subquery_of_ne_kind query, Ask.refs, if_neg query]
      exact ⟨rfl, rfl⟩
  | command separator refs =>
    by_cases empty : refs = []
    · subst empty
      exact ⟨rfl, rfl⟩
    · exact silent (Command.sameCourse_readText empty separator pool)
  | prepare b refs =>
    obtain ⟨state, events⟩ := b.course_prepare pool refs
    refine ⟨state, events.trans (congrArg _ ?_)⟩
    unfold ask
    dsimp only [Reading.map]
    cases (b.prepare pool refs).answer <;> rfl

end Pool

end SqlBuilder
