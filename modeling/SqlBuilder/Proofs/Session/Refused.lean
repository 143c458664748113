import SqlBuilder.Expr.Alias
import SqlBuilder.Proofs.Session.Lagging

/-! # Refused changes leave no trace

A change that is refused leaves a clause or an alias as it was, and of a statement only the text is
forgotten that it may have been read as. So the work goes on as if the change had never been tried,
except that the statement may be rendered once more. A join is refused for the first of three
causes that applies, whichever clause it is tried on.
-/

namespace SqlBuilder

open Event (Padded)

/-! ### Refused changes -/

namespace Source

variable {s : Source} {kind : JoinKind} {right? condition? : Option Expr} {e : Error}

/-- Why a source refuses a join, whatever the kind of the join: nothing is there to join to, or else
nothing to join, or else a condition is missing that the join needs. -/
inductive Refuses (s : Source) (kind : JoinKind) (right? condition? : Option Expr) : Error → Prop
  | base (unset : s.expr? = none) : s.Refuses kind right? condition? (.joinWithoutBase kind)
  | source (set : s.expr? ≠ none) (missing : right? = none) :
    s.Refuses kind right? condition? (.joinWithoutSource kind)
  | condition (set : s.expr? ≠ none) (given : right? ≠ none) (missing : condition? = none)
    (needed : kind ≠ .cross) : s.Refuses kind right? condition? (.joinWithoutCondition kind)

/-- A join is refused for the stated reasons, in their order, and for no others. -/
theorem join_eq_error_iff :
    s.join kind right? condition? = .error e ↔ s.Refuses kind right? condition? e := by
  constructor
  · intro refused
    unfold join at refused
    split at refused
    · next unset =>
      obtain rfl := Except.error.inj refused
      exact .base unset
    · next left set =>
      obtain rfl := Except.error.inj refused
      exact .source (by simp [set]) rfl
    · next left right set =>
      split at refused
      · next short =>
        obtain rfl := Except.error.inj refused
        simp only [JoinKind.needsCondition, Bool.and_eq_true, Option.isNone_iff_eq_none,
          bne_iff_ne] at short
        exact .condition (by simp [set]) (by simp) short.1 short.2
      · cases refused
  · rintro (unset | ⟨set, rfl⟩ | ⟨set, given, rfl, needed⟩)
    · simp [join, unset]
    · obtain ⟨left, held⟩ := Option.ne_none_iff_exists'.mp set
      simp [join, held]
    · obtain ⟨left, held⟩ := Option.ne_none_iff_exists'.mp set
      obtain ⟨right, rfl⟩ := Option.ne_none_iff_exists'.mp given
      simp [join, held, JoinKind.needsCondition, needed]

end Source

theorem map_eq_error_iff {α β : Type} {f : α → β} {answer : Except Error α} {e : Error} :
    answer.map f = .error e ↔ answer = .error e := by
  rw [← failure?_eq_some_iff, failure?_map, failure?_eq_some_iff]

theorem Cached.fst_edit?_eq_error_iff {α β : Type} {change : α → Except Error (β × α)}
    {c : Cached α} {e : Error} :
    (c.edit? change).1 = .error e ↔ change c.content = .error e := by
  unfold Cached.edit?
  cases change c.content <;> simp

/-- A change that is refused leaves even the remembered text. -/
theorem Cached.snd_edit?_of_refused {α β : Type} {change : α → Except Error (β × α)} {c : Cached α}
    {e : Error} (refused : (c.edit? change).1 = .error e) : (c.edit? change).2 = c := by
  unfold Cached.edit? at refused ⊢
  cases changed : change c.content with
  | ok result => simp [changed] at refused
  | error e => rfl

/-- A change that a query refuses leaves all its clauses as they are. -/
theorem Query.snd_apply_of_refused {change : Edit} {q : Query} {e : Error}
    (refused : (apply change q).1 = .error e) : (apply change q).2 = q := by
  cases change with
  | projection | sorting => cases refused
  | source change =>
    exact congrArg (fun source => { q with source }) (Cached.snd_edit?_of_refused refused)
  | filter change =>
    exact congrArg (fun filter => { q with filter }) (Cached.snd_edit?_of_refused refused)
  | grouping change =>
    exact congrArg (fun grouping => { q with grouping }) (Cached.snd_edit?_of_refused refused)

theorem Update.snd_apply_of_refused {change : Edit} {s : Update} {e : Error}
    (refused : (apply change s).1 = .error e) : (apply change s).2 = s := by
  cases change with
  | assignments => cases refused
  | source change =>
    exact congrArg (fun source => { s with source }) (Cached.snd_edit?_of_refused refused)
  | filter change =>
    exact congrArg (fun filter => { s with filter }) (Cached.snd_edit?_of_refused refused)

theorem Deletion.snd_apply_of_refused {change : Edit} {s : Deletion} {e : Error}
    (refused : (apply change s).1 = .error e) : (apply change s).2 = s := by
  cases change with
  | source change =>
    exact congrArg (fun source => { s with source }) (Cached.snd_edit?_of_refused refused)
  | filter change =>
    exact congrArg (fun filter => { s with filter }) (Cached.snd_edit?_of_refused refused)

/-- A clause stays as it was when a change is refused. -/
theorem Clause.eq_of_refused {change : Edit} {c d : Clause} {e : Error}
    (refused : c.change? change = some (.error e, d)) : d = c := by
  cases c <;> cases change <;>
    simp only [change?, Option.some.injEq, Prod.mk.injEq, reduceCtorEq, false_and] at refused <;>
    obtain ⟨refused, rfl⟩ := refused
  case source => exact congrArg Clause.source (Cached.snd_edit?_of_refused refused)
  case condition role c change =>
    exact congrArg (Clause.condition role) (Cached.snd_edit?_of_refused refused)
  case grouping => exact congrArg Clause.grouping (Cached.snd_edit?_of_refused refused)

namespace Statement

variable {s t : Statement} {e : Error}

/-- A statement only forgets its text when a change is refused. -/
theorem eq_touch_of_refused {edit : Edit} (refused : s.change? edit = some (.error e, t)) :
    t = s.touch := by
  cases s <;> cases edit <;>
    simp only [change?, Cached.edit, Option.some.injEq, Prod.mk.injEq, reduceCtorEq] at refused <;>
    obtain ⟨refused, rfl⟩ := refused
  case select =>
    exact congrArg (fun q => select { content := q }) (Query.snd_apply_of_refused refused)
  case insert => cases refused
  case update =>
    exact congrArg (fun s => update { content := s }) (Update.snd_apply_of_refused refused)
  case delete =>
    exact congrArg (fun s => delete { content := s }) (Deletion.snd_apply_of_refused refused)

@[simp]
theorem clauses_touch (s : Statement) : s.touch.clauses = s.clauses := by cases s <;> rfl

/-- Where the rows of a statement come from, if the statement says so. -/
def source? : Statement → Option Source
  | select s => some s.content.source.content
  | update s => some s.content.source.content
  | delete s => some s.content.source.content
  | insert _ | verbatim _ => none

/-- The source of a statement can be changed, and is asked whether it can. -/
theorem exists_change_source {source : Source} (held : s.source? = some source)
    (change : Source.Edit) :
    ∃ edit reply t, Edit.ofClause? s.kind .source (.source change) = some edit ∧
      s.change? edit = some (reply, t) ∧
      ∀ e, reply = .error e ↔ Source.apply change source = .error e := by
  cases s with
  | select s | update s | delete s =>
    obtain rfl := Option.some.inj held
    exact ⟨_, _, _, rfl, rfl, fun e => Cached.fst_edit?_eq_error_iff⟩
  | insert | verbatim => cases held

end Statement

theorem Pool.get_change_of_refused {n : Nat} {pool : Pool n} {i : Fin n} {edit : Statement.Edit}
    {e : Error} (refused : (change pool i edit).answer = .error e) (j : Fin n) :
    (change pool i edit).state.get j = pool.get j ∨
      (change pool i edit).state.get j = (pool.get j).touch := by
  unfold change at refused ⊢
  cases changed : (pool.get i).change? edit with
  | none => exact .inl rfl
  | some result =>
    obtain ⟨reply, t⟩ := result
    rw [changed] at refused
    cases reply with
    | ok reply => cases refused
    | error cause =>
      dsimp only
      rw [get_put]
      split
      · next here =>
        obtain rfl := here
        exact .inr (Statement.eq_touch_of_refused changed)
      · exact .inl rfl

/-! ### Work on statements, clauses and aliases -/

/-- Statements, with clauses and aliases that stand alone, each at its place. -/
structure Bench (n m l : Nat) where
  statements : Pool n
  clauses : Vector Clause m
  aliases : Vector Alias l

namespace Bench

variable {n m l : Nat}

inductive Step (n m l : Nat)
  | statement (s : Pool.Step n)
  /-- A copy of a clause inside a statement takes the place of a clause that stands alone. -/
  | takeClause (i : Fin n) (kind : ClauseKind) (target : Fin m)
  | copyClause (source target : Fin m)
  | changeClause (k : Fin m) (edit : Clause.Edit)
  /-- A look at the contents, whether they are enough to be written, and the parameters. -/
  | lookClause (k : Fin m)
  | readClause (k : Fin m)
  /-- The condition on groups is read inside a clause that stands alone. -/
  | readHaving (k : Fin m)
  | copyAlias (source target : Fin l)
  | rename (j : Fin l) (name? : Option String)
  /-- A look at the expression and the name, from which everything else about an alias follows. -/
  | lookAlias (j : Fin l)

/-- What the caller sees of a step that is not refused. -/
inductive Answer
  | nothing
  | statement (answer : Pool.Answer)
  | reply (reply : Reply)
  | clause (c : Clause) (available : Bool) (params : ParamList)
  | text (text : String)
  | alias (a : Alias)

def takeClause (b : Bench n m l) (i : Fin n) (kind : ClauseKind) (target : Fin m) :
    Reading (Bench n m l) Answer :=
  match (b.statements.get i).clause? kind with
  | some c => ⟨.ok .nothing, { b with clauses := put b.clauses target c }, []⟩
  | none => ⟨.ok .nothing, b, []⟩

/-- Changes a clause that stands alone. A change for another kind of clause is none. -/
def changeClause (b : Bench n m l) (k : Fin m) (edit : Clause.Edit) :
    Reading (Bench n m l) Answer :=
  match (b.clauses.get k).change? edit with
  | some (reply, c) => ⟨reply.map .reply, { b with clauses := put b.clauses k c }, []⟩
  | none => ⟨.ok .nothing, b, []⟩

def readHaving (b : Bench n m l) (k : Fin m) : Reading (Bench n m l) Answer :=
  match (b.clauses.get k).having? with
  | some having =>
    let clauses := put b.clauses k (b.clauses.get k).afterHavingRead
    ⟨having.text.map .text, { b with clauses }, []⟩
  | none => ⟨.ok .nothing, b, []⟩

def rename (b : Bench n m l) (j : Fin l) (name? : Option String) : Reading (Bench n m l) Answer :=
  match (b.aliases.get j).rename name? with
  | .ok a => ⟨.ok .nothing, { b with aliases := put b.aliases j a }, []⟩
  | .error e => ⟨.error e, b, []⟩

def step (b : Bench n m l) : Step n m l → Reading (Bench n m l) Answer
  | .statement s =>
    ((Pool.step b.statements s).mapState fun statements => { b with statements }).map .statement
  | .takeClause i kind target => takeClause b i kind target
  | .copyClause source target =>
    ⟨.ok .nothing, { b with clauses := put b.clauses target (b.clauses.get source) }, []⟩
  | .changeClause k edit => changeClause b k edit
  | .lookClause k =>
    let c := b.clauses.get k
    ⟨.ok (.clause c.forget c.isAvailable c.params), b, []⟩
  | .readClause k =>
    let c := b.clauses.get k
    ⟨c.text.map .text, { b with clauses := put b.clauses k c.afterRead }, []⟩
  | .readHaving k => readHaving b k
  | .copyAlias source target =>
    ⟨.ok .nothing, { b with aliases := put b.aliases target (b.aliases.get source) }, []⟩
  | .rename j name? => rename b j name?
  | .lookAlias j => ⟨.ok (.alias (b.aliases.get j)), b, []⟩

/-- A run: the answers of all its steps, the bench it leaves, and the events. The work goes on after
a step that is refused. -/
def run (b : Bench n m l) (steps : List (Step n m l)) :
    Reading (Bench n m l) (List (Except Error Answer)) :=
  Reading.each (fun b s => (step b s).attempt) b steps

/-- A bench at which nothing has been done yet, with clauses and aliases of any contents. -/
def start (clauses : Vector Clause m) (aliases : Vector Alias l) : Bench n m l :=
  ⟨Pool.blank n, clauses.map Clause.forget, aliases⟩

/-- Whether a step changes something and can be refused. -/
def Step.mutates : Step n m l → Bool
  | statement (.change _ _) | changeClause _ _ | rename _ _ => true
  | _ => false

/-- Two benches with the same contents, of which the first remembers less of its statements. -/
structure Lags (b c : Bench n m l) : Prop where
  statements : Pool.Lags b.statements c.statements
  clauses (k : Fin m) : (b.clauses.get k).SameContents (c.clauses.get k)
  aliases : b.aliases = c.aliases

variable {b c : Bench n m l}

theorem Lags.set (lags : b.Lags c) (k : Fin m) {held other : Clause}
    (same : held.SameContents other) :
    Lags { b with clauses := put b.clauses k held }
      { c with clauses := put c.clauses k other } where
  statements := lags.statements
  clauses j := by
    rw [get_put, get_put]
    split
    · exact same
    · exact lags.clauses j
  aliases := lags.aliases

theorem matches_takeClause (lags : b.Lags c) (i : Fin n) (kind : ClauseKind) (target : Fin m) :
    (takeClause b i kind target).Matches Lags (takeClause c i kind target) := by
  unfold takeClause
  rcases (lags.statements i).clause kind with
    ⟨none, none'⟩ | ⟨held, other, found, found', same⟩
  · rw [none, none']
    exact .quiet lags
  · rw [found, found']
    exact .quiet (lags.set target same)

theorem matches_changeClause (lags : b.Lags c) (k : Fin m) (edit : Clause.Edit) :
    (changeClause b k edit).Matches Lags (changeClause c k edit) := by
  unfold changeClause
  rcases (lags.clauses k).change edit with
    ⟨none, none'⟩ | ⟨reply, held, other, changed, changed', same⟩
  · rw [none, none']
    exact .quiet lags
  · rw [changed, changed']
    exact .quiet (lags.set k same)

theorem matches_readHaving (lags : b.Lags c) (k : Fin m) :
    (readHaving b k).Matches Lags (readHaving c k) := by
  unfold readHaving
  rcases (lags.clauses k).having with ⟨none, none'⟩ | ⟨held, other, found, found', same⟩
  · rw [none, none']
    exact .quiet lags
  · rw [found, found']
    dsimp only
    rw [same.text]
    exact .quiet (lags.set k (lags.clauses k).afterHavingRead)

theorem matches_rename (lags : b.Lags c) (j : Fin l) (name? : Option String) :
    (rename b j name?).Matches Lags (rename c j name?) := by
  unfold rename
  rw [lags.aliases]
  split
  · exact .quiet ⟨lags.statements, lags.clauses, rfl⟩
  · exact .quiet lags

/-- A step at a bench that lags answers like the step at the other one, and leaves a bench that
lags. -/
theorem matches_step (s : Step n m l) (b c : Bench n m l) (lags : b.Lags c) :
    (step b s).Matches Lags (step c s) := by
  cases s with
  | statement s =>
    obtain ⟨answer, state, events⟩ := Pool.matches_step s lags.statements
    refine ⟨congrArg (Except.map Answer.statement) answer, ?_, events⟩
    exact ⟨state, lags.clauses, lags.aliases⟩
  | takeClause i kind target => exact matches_takeClause lags i kind target
  | copyClause source target => exact .quiet (lags.set target (lags.clauses source))
  | changeClause k edit => exact matches_changeClause lags k edit
  | lookClause k =>
    have same := lags.clauses k
    refine ⟨?_, lags, .nil⟩
    simp only [step, same.contents, same.isAvailable, same.params]
  | readClause k =>
    have same := lags.clauses k
    unfold step
    dsimp only
    rw [same.text]
    exact .quiet (lags.set k same.afterRead)
  | readHaving k => exact matches_readHaving lags k
  | copyAlias source target =>
    exact .quiet ⟨lags.statements, lags.clauses, by rw [lags.aliases]⟩
  | rename j name? => exact matches_rename lags j name?
  | lookAlias j =>
    refine ⟨?_, lags, .nil⟩
    simp only [step, lags.aliases]

/-- Runs on two benches of which one lags behind answer alike, and differ in renderings only. -/
theorem matches_run (lags : b.Lags c) (steps : List (Step n m l)) :
    (run b steps).Matches Lags (run c steps) :=
  Reading.matches_each (fun s b c lags => (matches_step s b c lags).attempt) steps lags

theorem lags_start (clauses : Vector Clause m) (aliases : Vector Alias l) :
    (start (n := n) clauses aliases).Lags (start clauses aliases) where
  statements := Pool.lags_blank n
  clauses k := by
    have forgotten : (clauses.map Clause.forget).get k = (clauses.get k).forget :=
      Vector.getElem_map ..
    change ((clauses.map Clause.forget).get k).SameContents ((clauses.map Clause.forget).get k)
    rw [forgotten]
    exact ⟨Clause.coherent_forget _, Clause.coherent_forget _, rfl⟩
  aliases := rfl

/-- What a refused change leaves of a bench: clauses and aliases as they are, and statements that
may have forgotten their own texts. -/
structure Untouched (after before : Bench n m l) : Prop where
  statements (i : Fin n) : after.statements.get i = before.statements.get i ∨
    after.statements.get i = (before.statements.get i).touch
  clauses : after.clauses = before.clauses
  aliases : after.aliases = before.aliases

theorem Untouched.refl (b : Bench n m l) : b.Untouched b := ⟨fun _ => .inl rfl, rfl, rfl⟩

theorem changeClause_of_refused {k : Fin m} {edit : Clause.Edit} {e : Error}
    (refused : (changeClause b k edit).answer = .error e) :
    (changeClause b k edit).state = b := by
  unfold changeClause at refused ⊢
  cases changed : (b.clauses.get k).change? edit with
  | none => rfl
  | some result =>
    obtain ⟨reply, d⟩ := result
    rw [changed] at refused
    cases reply with
    | ok reply => cases refused
    | error cause =>
      obtain rfl := Clause.eq_of_refused changed
      have same : put b.clauses k (b.clauses.get k) = b.clauses := Vector.set_getElem_self k.isLt
      dsimp only
      rw [same]

theorem rename_of_refused {j : Fin l} {name? : Option String} {e : Error}
    (refused : (rename b j name?).answer = .error e) : (rename b j name?).state = b := by
  unfold rename at refused ⊢
  cases renamed : (b.aliases.get j).rename name? with
  | ok a => simp [renamed] at refused
  | error cause => rfl

/-- A change that is refused leaves a bench untouched. -/
theorem untouched_of_refused {call : Step n m l} {e : Error} (mutates : call.mutates = true)
    (refused : (step b call).answer = .error e) : (step b call).state.Untouched b := by
  cases call with
  | statement s =>
    cases s with
    | change i edit =>
      have cause : (Pool.change b.statements i edit).answer = .error e :=
        map_eq_error_iff.mp refused
      exact ⟨Pool.get_change_of_refused cause, rfl, rfl⟩
    | create | copy | access | look | readClause | ask => cases mutates
  | changeClause k edit =>
    have same : (step b (.changeClause k edit)).state = b := changeClause_of_refused refused
    rw [same]
    exact .refl b
  | rename j name? =>
    have same : (step b (.rename j name?)).state = b := rename_of_refused refused
    rw [same]
    exact .refl b
  | takeClause | copyClause | lookClause | readClause | readHaving | copyAlias | lookAlias =>
    cases mutates

/-- A bench that a refused change has left lags behind the bench before. -/
theorem Untouched.lags {after before : Bench n m l} (untouched : after.Untouched before)
    (sound : before.Lags before) : after.Lags before where
  statements i := by
    have right := sound.statements i
    rcases untouched.statements i with same | touched
    · rw [same]
      exact right
    · rw [touched]
      exact ⟨right.coherent.touch, right.coherent, Statement.forget_touch _, by simp⟩
  clauses k := by
    rw [untouched.clauses]
    exact sound.clauses k
  aliases := untouched.aliases

/-- A join with the source of a statement is refused when the source refuses it. -/
theorem step_join_eq_error_iff {i : Fin n} {source : Source}
    (held : (b.statements.get i).source? = some source) (kind : JoinKind)
    (right? condition? : Option Expr) :
    ∃ edit, Statement.Edit.ofClause? (b.statements.get i).kind .source
        (.source (.join kind right? condition?)) = some edit ∧
      ∀ e, (step b (.statement (.change i edit))).answer = .error e ↔
        source.Refuses kind right? condition? e := by
  obtain ⟨edit, reply, t, named, changed, refused⟩ :=
    Statement.exists_change_source held (.join kind right? condition?)
  refine ⟨edit, named, fun e => ?_⟩
  have answer : (step b (.statement (.change i edit))).answer =
      (reply.map Pool.Answer.reply).map .statement := by
    change Except.map _ (Pool.change b.statements i edit).answer = _
    rw [Pool.change, changed]
  rw [answer, map_eq_error_iff, map_eq_error_iff, refused, ← Source.join_eq_error_iff]
  exact map_eq_error_iff

/-- A join with a clause that stands alone is refused when its source refuses it. -/
theorem step_joinClause_eq_error_iff {k : Fin m} {source : Cached Source} {e : Error}
    (held : b.clauses.get k = .source source) (kind : JoinKind) (right? condition? : Option Expr) :
    (step b (.changeClause k (.source (.join kind right? condition?)))).answer = .error e ↔
      source.content.Refuses kind right? condition? e := by
  change (changeClause b k _).answer = _ ↔ _
  rw [changeClause, held]
  dsimp only [Clause.change?]
  rw [map_eq_error_iff, Cached.fst_edit?_eq_error_iff, ← Source.join_eq_error_iff]
  exact map_eq_error_iff

/-- Refused changes leave no trace. Whatever was done at a bench, and whatever texts are remembered
there, a change that is refused leaves every clause and every alias as it was, and of every
statement the clauses, the contents, the validity, the text or refusal, and the parameters; every
later run answers as if the change had not been tried, with the same events but for renderings. A
join is refused when there is no source to join to, in an invalid state whatever the operands are,
or else when the joined source is missing, or else the condition of a join that is not a cross
join, both as invalid operands. -/
theorem refused_leaves_no_trace (clauses : Vector Clause m) (aliases : Vector Alias l)
    (past : List (Step n m l)) :
    let before := (run (start clauses aliases) past).state
    (∀ call e, call.mutates = true → (step before call).answer = .error e →
        let after := (step before call).state
        after.clauses = before.clauses ∧ after.aliases = before.aliases ∧
          (∀ i, let s := before.statements.get i
            let t := after.statements.get i
            t.clauses = s.clauses ∧ t.forget = s.forget ∧ t.isValid = s.isValid ∧
              t.read.answer = s.read.answer ∧ t.params = s.params) ∧
          ∀ later, (run after later).answer = (run before later).answer ∧
            Padded (run after later).events (run before later).events) ∧
      (∀ i source, (before.statements.get i).source? = some source →
        ∀ kind right? condition?, ∃ edit,
          Statement.Edit.ofClause? (before.statements.get i).kind .source
              (.source (.join kind right? condition?)) = some edit ∧
            ∀ e, (step before (.statement (.change i edit))).answer = .error e ↔
              source.Refuses kind right? condition? e) ∧
      (∀ k source, before.clauses.get k = .source source →
        ∀ kind right? condition? e,
          (step before (.changeClause k (.source (.join kind right? condition?)))).answer =
              .error e ↔
            source.content.Refuses kind right? condition? e) ∧
      ∀ kind, (Error.joinWithoutBase kind).kind = .invalidState ∧
        (Error.joinWithoutSource kind).kind = .invalidOperands ∧
        (Error.joinWithoutCondition kind).kind = .invalidOperands := by
  intro before
  have sound : before.Lags before := (matches_run (lags_start clauses aliases) past).state
  refine ⟨fun call e mutates refused => ?_, fun i source held kind right? condition? =>
    step_join_eq_error_iff held kind right? condition?,
    fun k source held kind right? condition? e =>
      step_joinClause_eq_error_iff held kind right? condition?, fun _ => ⟨rfl, rfl, rfl⟩⟩
  have untouched := untouched_of_refused mutates refused
  have lags := untouched.lags sound
  refine ⟨untouched.clauses, untouched.aliases, fun i => ?_, fun later => ?_⟩
  · have right := lags.statements i
    refine ⟨?_, right.contents, right.isValid, right.answer_read, right.params⟩
    rcases untouched.statements i with same | touched
    · rw [same]
    · rw [touched, Statement.clauses_touch]
  · have same := matches_run lags later
    exact ⟨same.answer, same.events⟩

/-- A query that was read refuses a join, forgets its text and reads as before. An alias that
refuses an empty name is the same as before. -/
theorem refused_leaves_no_trace_read :
    let aliases : Vector Alias 1 := #v[{ target := { text := "x" } }]
    let column : Query.Edit := .projection (.columns (.push { text := "k" }))
    let read : Step 1 0 1 := .statement (.ask (.text 0))
    let join : Step 1 0 1 := .statement (.change 0 (.select (.source (.join .cross none none))))
    let rename : Step 1 0 1 := .rename 0 (some "")
    let before := (run (start #v[] aliases) [.statement (.change 0 (.select column)), read]).state
    let after := (step before join).state
    (before.statements.get 0).memo? = some "SELECT k" ∧ (after.statements.get 0).memo? = none ∧
      (run after [read, join]).answer = (run before [read, join]).answer ∧
      Padded (run after [read, join]).events (run before [read, join]).events ∧
      (step before rename).state.aliases = before.aliases := by
  intro aliases column read join rename before after
  obtain ⟨untraced, -, -, -⟩ := refused_leaves_no_trace (n := 1) #v[] aliases
    [.statement (.change 0 (.select column)), read]
  have refused : (step before join).answer = .error (.joinWithoutBase .cross) := rfl
  have nameless : (step before rename).answer = .error (.identifier .empty) := rfl
  obtain ⟨-, -, -, later⟩ := untraced join _ rfl refused
  obtain ⟨-, aliased, -, -⟩ := untraced rename _ rfl nameless
  exact ⟨by decide, by decide, (later _).1, (later _).2, aliased⟩

end Bench

end SqlBuilder
