import SqlBuilder.Proofs.Session.Pool
import SqlBuilder.Proofs.Statement.Interleaving

/-! # Pools that remember less

What is remembered shows in the events alone. Two pools with the same contents, of which one
remembers fewer texts, answer every step alike and keep on differing in nothing else; the one that
remembers less may render more often.
-/

namespace SqlBuilder

/-- The events of two courses of which the first may have rendered more. -/
inductive Event.Padded : List Event → List Event → Prop
  | nil : Padded [] []
  | both {padded events : List Event} (event : Event) (rest : Padded padded events) :
    Padded (event :: padded) (event :: events)
  | extra {padded events : List Event} (kind : StatementKind) (bytes : Nat)
    (rest : Padded padded events) : Padded (.rendered kind bytes :: padded) events

namespace Event.Padded

variable {padded events padded' events' : List Event}

theorem refl (events : List Event) : Padded events events := by
  induction events with
  | nil => exact .nil
  | cons event events ih => exact .both event ih

theorem append (first : Padded padded events) (second : Padded padded' events') :
    Padded (padded ++ padded') (events ++ events') := by
  induction first with
  | nil => exact second
  | both event _ ih => exact .both event ih
  | extra kind bytes _ ih => exact .extra kind bytes ih

end Event.Padded

open Event (Padded)

namespace Reading

variable {σ α β : Type} {R : σ → σ → Prop} {first second : Reading σ α}

/-- Two readings that answer alike and leave related states, of which the first may have rendered
more. -/
structure Matches (R : σ → σ → Prop) (first second : Reading σ α) : Prop where
  answer : first.answer = second.answer
  state : R first.state second.state
  events : Padded first.events second.events

theorem Matches.quiet {answer : Except Error α} {s t : σ} (related : R s t) :
    Matches R ⟨answer, s, []⟩ ⟨answer, t, []⟩ :=
  ⟨rfl, related, .nil⟩

theorem Matches.map (f : α → β) (same : first.Matches R second) :
    (first.map f).Matches R (second.map f) :=
  ⟨congrArg (Except.map f) same.answer, same.state, same.events⟩

/-- Readings that match still do when both go on alike. -/
theorem Matches.andThen {next : α → σ → Reading σ β} (same : first.Matches R second)
    (go : ∀ a s t, R s t → (next a s).Matches R (next a t)) :
    (first.andThen next).Matches R (second.andThen next) := by
  obtain ⟨answer, s, padded⟩ := first
  obtain ⟨answer', t, events⟩ := second
  obtain ⟨rfl, related, more⟩ := same
  cases answer with
  | error e => exact ⟨rfl, related, more⟩
  | ok a =>
    obtain ⟨answer, state, rest⟩ := go a s t related
    exact ⟨answer, state, more.append rest⟩

/-- A reading that goes on when it is refused. -/
def attempt (reading : Reading σ α) : Reading σ (Except Error α) :=
  ⟨.ok reading.answer, reading.state, reading.events⟩

/-- Readings that match still do when refusals are let pass. -/
theorem Matches.attempt (same : first.Matches R second) :
    first.attempt.Matches R second.attempt :=
  ⟨congrArg Except.ok same.answer, same.state, same.events⟩

/-- Reading one thing after the other matches while every single read does. -/
theorem matches_each {read : σ → β → Reading σ α}
    (step : ∀ b s t, R s t → (read s b).Matches R (read t b)) (bs : List β) {s t : σ}
    (related : R s t) : (each read s bs).Matches R (each read t bs) := by
  induction bs generalizing s t with
  | nil => exact .quiet related
  | cons b bs ih =>
    exact (step b s t related).andThen fun a s t related => (ih related).map (a :: ·)

end Reading

theorem none_or_some_of_map_eq {α β γ : Type} {f : α → γ} {g : β → γ} {a? : Option α}
    {b? : Option β} (same : a?.map f = b?.map g) :
    (a? = none ∧ b? = none) ∨ ∃ a b, a? = some a ∧ b? = some b ∧ f a = g b := by
  cases a? <;> cases b? <;> simp_all

/-! ### Statements -/

theorem Clause.render_forget (clause : Clause) : clause.forget.render = clause.render := by
  cases clause <;> rfl

namespace Clause

/-- Two clauses with the same contents, of which everything that is remembered is right. -/
structure SameContents (c d : Clause) : Prop where
  coherent : c.Coherent
  other : d.Coherent
  contents : c.forget = d.forget

variable {c d : Clause}

/-- Clauses with the same contents read alike. -/
theorem SameContents.text (same : c.SameContents d) : c.text = d.text := by
  rw [same.coherent.text_eq, same.other.text_eq, ← c.render_forget, same.contents, render_forget]

theorem SameContents.isAvailable (same : c.SameContents d) : c.isAvailable = d.isAvailable := by
  rw [← c.isAvailable_forget, same.contents, isAvailable_forget]

theorem SameContents.params (same : c.SameContents d) : c.params = d.params := by
  rw [← c.params_forget, same.contents, params_forget]

theorem SameContents.afterRead (same : c.SameContents d) :
    c.afterRead.SameContents d.afterRead :=
  ⟨same.coherent.afterRead, same.other.afterRead, by
    rw [forget_afterRead, forget_afterRead, same.contents]⟩

theorem forget_afterHavingRead (c : Clause) : c.afterHavingRead.forget = c.forget := by
  cases c <;> rfl

theorem SameContents.afterHavingRead (same : c.SameContents d) :
    c.afterHavingRead.SameContents d.afterHavingRead :=
  ⟨same.coherent.afterHavingRead, same.other.afterHavingRead, by
    rw [forget_afterHavingRead, forget_afterHavingRead, same.contents]⟩

/-- A change that one of them can undergo the other can undergo as well. -/
theorem SameContents.change (same : c.SameContents d) (edit : Edit) :
    (c.change? edit = none ∧ d.change? edit = none) ∨
      ∃ reply c' d', c.change? edit = some (reply, c') ∧ d.change? edit = some (reply, d') ∧
        c'.SameContents d' := by
  have changes := change?_forget edit c
  rw [same.contents, change?_forget] at changes
  refine (none_or_some_of_map_eq changes.symm).imp_right ?_
  rintro ⟨⟨reply, c'⟩, ⟨reply', d'⟩, changed, changed', alike⟩
  obtain ⟨rfl, contents⟩ := Prod.mk.inj alike
  exact ⟨reply, c', d', changed, changed', same.coherent.change changed,
    same.other.change changed', contents⟩

/-- The conditions on groups inside them have the same contents. -/
theorem SameContents.having (same : c.SameContents d) :
    (c.having? = none ∧ d.having? = none) ∨
      ∃ held other, c.having? = some held ∧ d.having? = some other ∧ held.SameContents other := by
  have conditions := having?_forget c
  rw [same.contents, having?_forget] at conditions
  refine (none_or_some_of_map_eq conditions.symm).imp_right ?_
  rintro ⟨held, other, found, found', alike⟩
  exact ⟨held, other, found, found', same.coherent.having found, same.other.having found', alike⟩

end Clause

namespace Statement

/-- A statement that remembers less of its own text than another one with the same contents.
Whatever either of them remembers is right. -/
structure Lags (s t : Statement) : Prop where
  coherent : s.Coherent
  ahead : t.Coherent
  contents : s.forget = t.forget
  memo : s.memo?.isSome = true → t.memo?.isSome = true

variable {s t : Statement}

theorem Coherent.lags (coherent : s.Coherent) : s.Lags s := ⟨coherent, coherent, rfl, id⟩

theorem Opening.coherent (opening : Opening) : opening.statement.Coherent := by
  have fresh : opening.statement.forget = opening.statement := by cases opening <;> rfl
  rw [← fresh]
  exact coherent_forget _

theorem Lags.kind (lags : s.Lags t) : s.kind = t.kind := by
  rw [← s.kind_forget, lags.contents, kind_forget]

theorem Lags.isValid (lags : s.Lags t) : s.isValid = t.isValid := by
  rw [← s.isValid_forget, lags.contents, isValid_forget]

theorem Lags.params (lags : s.Lags t) : s.params = t.params := by
  rw [← s.params_forget, lags.contents, params_forget]

/-- Remembering less does not change the answer to a read. -/
theorem Lags.answer_read (lags : s.Lags t) : s.read.answer = t.read.answer := by
  rw [lags.coherent.answer_read, lags.ahead.answer_read, ← s.render_forget, lags.contents,
    render_forget]

theorem padded_rendering (s : Statement) : Padded s.rendering [] := by
  unfold rendering
  split
  · exact .nil
  · cases s.read.answer with
    | error e => exact .nil
    | ok text => exact .extra _ _ .nil

/-- Remembering less means rendering more, and nothing else. -/
theorem Lags.padded_read (lags : s.Lags t) : Padded s.read.events t.read.events := by
  rw [events_read, events_read, rendering_congr lags.kind lags.answer_read]
  by_cases held : s.memo?.isSome = true
  · rw [if_pos held, if_pos (lags.memo held)]
    exact .nil
  · rw [if_neg held]
    split
    · exact t.padded_rendering
    · exact .refl _

/-- Once both are read, the first still lags behind the other. -/
theorem Lags.state_read (lags : s.Lags t) : s.read.state.Lags t.read.state where
  coherent := lags.coherent.state_read
  ahead := lags.ahead.state_read
  contents := by
    rw [lags.coherent.forget_read, lags.ahead.forget_read, lags.contents]
  memo held := by
    by_cases built : s.kind = .verbatim
    · cases s with
      | verbatim s => cases held
      | select | insert | update | delete => cases built
    · rw [isSome_memo?_read built, Bool.or_eq_true] at held
      rw [isSome_memo?_read (lags.kind ▸ built), ← lags.isValid, Bool.or_eq_true]
      exact held.imp_left lags.memo

theorem Coherent.touch (coherent : s.Coherent) : s.touch.Coherent := by
  cases s with
  | select s | insert s | update s | delete s =>
    have inner := StatementBody.Coherent.inner (s := s) coherent
    exact ⟨Cached.coherent_fresh _ _, inner⟩
  | verbatim s => trivial

theorem Lags.touch (lags : s.Lags t) : s.touch.Lags t.touch where
  coherent := lags.coherent.touch
  ahead := lags.ahead.touch
  contents := by rw [forget_touch, forget_touch, lags.contents]
  memo held := by simp at held

theorem Lags.afterClauseRead (lags : s.Lags t) (kind : ClauseKind) :
    (s.afterClauseRead kind).Lags (t.afterClauseRead kind) where
  coherent := lags.coherent.afterClauseRead kind
  ahead := lags.ahead.afterClauseRead kind
  contents := by rw [forget_afterClauseRead, forget_afterClauseRead, lags.contents]
  memo := by simpa using lags.memo

/-- A change that one of them can undergo the other can undergo as well. -/
theorem Lags.change (lags : s.Lags t) (edit : Edit) :
    (s.change? edit = none ∧ t.change? edit = none) ∨
      ∃ reply s' t', s.change? edit = some (reply, s') ∧ t.change? edit = some (reply, t') ∧
        s'.Lags t' := by
  have same := change?_forget edit s
  rw [lags.contents, change?_forget] at same
  refine (none_or_some_of_map_eq same.symm).imp_right ?_
  rintro ⟨⟨reply, s'⟩, ⟨reply', t'⟩, changed, changed', same⟩
  obtain ⟨rfl, contents⟩ := Prod.mk.inj same
  refine ⟨reply, s', t', changed, changed', lags.coherent.change changed,
    lags.ahead.change changed', contents, fun held => ?_⟩
  rw [memo?_change changed] at held
  cases held

/-- The clauses inside them read alike. -/
theorem Lags.clause (lags : s.Lags t) (kind : ClauseKind) :
    (s.clause? kind = none ∧ t.clause? kind = none) ∨
      ∃ c d, s.clause? kind = some c ∧ t.clause? kind = some d ∧ c.SameContents d := by
  have same : (s.clause? kind).map Clause.forget = (t.clause? kind).map Clause.forget := by
    rw [← clause?_forget, lags.contents, clause?_forget]
  refine (none_or_some_of_map_eq same).imp_right ?_
  rintro ⟨c, d, found, found', same⟩
  exact ⟨c, d, found, found', lags.coherent.clause found, lags.ahead.clause found', same⟩

end Statement

/-! ### Pools -/

namespace Pool

variable {n : Nat} {pool other : Pool n}

/-- Every statement of a pool lags behind the one at the same place of another pool. -/
def Lags (pool other : Pool n) : Prop := ∀ i, (pool.get i).Lags (other.get i)

theorem Lags.set (lags : Lags pool other) (i : Fin n) {s t : Statement} (right : s.Lags t) :
    Lags (put pool i s) (put other i t) := by
  intro j
  rw [get_put, get_put]
  split
  · exact right
  · exact lags j

theorem matches_readAt (i : Fin n) (pool other : Pool n) (lags : Lags pool other) :
    (readAt pool i).Matches Lags (readAt other i) :=
  ⟨(lags i).answer_read, lags.set i (lags i).state_read, (lags i).padded_read⟩

theorem matches_readText (separator : String) (refs : List (Fin n)) (lags : Lags pool other) :
    (Command.readText separator pool refs).Matches Lags
      (Command.readText separator other refs) := by
  unfold Command.readText
  split
  · exact .quiet lags
  · exact (Reading.matches_each matches_readAt refs lags).map _

theorem matches_readCommand (separator : String) (timeout? : Option Duration) (refs : List (Fin n))
    (pool other : Pool n) (lags : Lags pool other) :
    (Command.read separator timeout? pool refs).Matches Lags
      (Command.read separator timeout? other refs) := by
  have params : (refs.map fun i => pool[i].params) = refs.map fun i => other[i].params :=
    List.map_congr_left fun i _ => (lags i).params
  unfold Command.read
  rw [params]
  exact (matches_readText separator refs lags).map _

/-- A preparation from a pool that lags behind comes to the same commands. -/
theorem matches_prepare (b : Batcher) (refs : List (Fin n)) (lags : Lags pool other) :
    (b.prepare pool refs).Matches Lags (b.prepare other refs) := by
  unfold Batcher.prepare
  split
  · exact .quiet lags
  · have commands := Reading.matches_each
      (fun refs pool other => matches_readCommand b.separator b.config.timeout? refs pool other)
      (cut (b.batchSize refs.length) refs) lags
    exact commands.andThen fun commands pool other lags => ⟨rfl, lags, .refl _⟩

theorem matches_subquery (i : Fin n) (lags : Lags pool other) :
    (subquery pool i).Matches Lags (subquery other i) := by
  by_cases query : (pool.get i).kind = .select
  · rw [subquery_of_kind query, subquery_of_kind ((lags i).kind ▸ query), (lags i).params]
    exact (matches_readAt i pool other lags).map _
  · rw [subquery_of_ne_kind query, subquery_of_ne_kind ((lags i).kind ▸ query)]
    exact .quiet lags

theorem matches_ask (a : Ask n) (lags : Lags pool other) :
    (ask pool a).Matches Lags (ask other a) := by
  cases a with
  | text i => exact (matches_readAt i pool other lags).map _
  | subquery i => exact matches_subquery i lags
  | command separator refs => exact (matches_readText separator refs lags).map _
  | prepare b refs => exact (matches_prepare b refs lags).map _

theorem matches_change (i : Fin n) (edit : Statement.Edit) (lags : Lags pool other) :
    (change pool i edit).Matches Lags (change other i edit) := by
  unfold change
  rcases (lags i).change edit with ⟨none, none'⟩ | ⟨reply, s, t, changed, changed', right⟩
  · rw [none, none']
    exact .quiet lags
  · rw [changed, changed']
    exact .quiet (lags.set i right)

theorem matches_readClause (i : Fin n) (kind : ClauseKind) (lags : Lags pool other) :
    (readClause pool i kind).Matches Lags (readClause other i kind) := by
  unfold readClause
  rcases (lags i).clause kind with ⟨none, none'⟩ | ⟨c, d, found, found', same⟩
  · rw [none, none']
    exact .quiet lags
  · rw [found, found']
    dsimp only
    rw [same.text]
    exact .quiet (lags.set i ((lags i).afterClauseRead kind))

theorem lags_blank (n : Nat) : Lags (blank n) (blank n) := by
  intro i
  have fresh : (blank n).get i = Statement.Opening.select.statement :=
    Vector.getElem_replicate i.isLt
  rw [fresh]
  exact Statement.Opening.select.coherent.lags

/-- A step of a pool that lags answers like the step of the other one, and lags behind it still. -/
theorem matches_step (s : Step n) (lags : Lags pool other) :
    (step pool s).Matches Lags (step other s) := by
  cases s with
  | create i opening => exact .quiet (lags.set i opening.coherent.lags)
  | copy source target => exact .quiet (lags.set target (lags source))
  | access i => exact .quiet (lags.set i (lags i).touch)
  | change i edit => exact matches_change i edit lags
  | look i =>
    refine ⟨?_, lags, .nil⟩
    simp only [step, (lags i).contents, (lags i).isValid, (lags i).params]
  | readClause i kind => exact matches_readClause i kind lags
  | ask a => exact matches_ask a lags

end Pool

end SqlBuilder
