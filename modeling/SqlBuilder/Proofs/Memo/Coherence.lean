import SqlBuilder.Proofs.Memo.Phrase

/-! # Coherence of remembered texts

A remembered text is right when the content would render as just that text. Statements remember a
text over clauses that remember theirs, and a GROUP BY clause over its condition, so coherence is
asked of every layer. Reads keep it, since they remember what was rendered, and changes keep it,
since they forget every text above the change.

Forgetting drops the texts of all layers at once. No read is visible in what is left, and every
change can be made before or after.
-/

namespace SqlBuilder

namespace Cached

variable {α β : Type} {c : Cached α}

/-- The content with nothing remembered of it. -/
def forget (c : Cached α) : Cached α := { content := c.content }

/-- What is remembered, if anything, is what the content renders as. -/
def Coherent (render : α → Except Error String) (c : Cached α) : Prop :=
  ∀ text ∈ c.memo?, render c.content = .ok text

theorem coherent_fresh (render : α → Except Error String) (a : α) :
    Coherent render { content := a } := by
  simp [Coherent]

/-- A read of content whose memory is right answers with what the content renders as. -/
theorem Coherent.text_eq {render : α → String} (coherent : c.Coherent fun a => .ok (render a)) :
    c.text render = render c.content := by
  cases memo : c.memo? with
  | none => simp [text, memo]
  | some text =>
    have right := coherent text memo
    simp only [Except.ok.injEq] at right
    simp [Cached.text, memo, right]

theorem Coherent.text?_eq {render : α → Except Error String} (coherent : c.Coherent render) :
    c.text? render = render c.content := by
  cases memo : c.memo? with
  | none => simp [text?, memo]
  | some text => simp [text?, memo, coherent text memo]

theorem Coherent.afterRead {render : α → String} (coherent : c.Coherent fun a => .ok (render a)) :
    (c.afterRead render).Coherent fun a => .ok (render a) := by
  intro text remembered
  simp only [Cached.afterRead, coherent.text_eq, Option.mem_def, Option.some.injEq] at remembered ⊢
  rw [remembered]

theorem Coherent.afterRead? {render : α → Except Error String} (coherent : c.Coherent render) :
    (c.afterRead? render).Coherent render := by
  unfold Cached.afterRead?
  rw [coherent.text?_eq]
  split
  · next text rendered =>
    intro other remembered
    simp only [Option.mem_def, Option.some.injEq] at remembered
    rw [← remembered, rendered]
  · exact coherent

/-- A change forgets the text, so nothing wrong is remembered of the new content. -/
theorem coherent_edit (render : α → Except Error String) (change : α → β × α) (c : Cached α) :
    (c.edit change).2.Coherent render :=
  coherent_fresh render _

/-- Whether a change is made or refused, what is remembered stays right. -/
theorem Coherent.edit? {render : α → Except Error String} (coherent : c.Coherent render)
    (change : α → Except Error (β × α)) : (c.edit? change).2.Coherent render := by
  unfold Cached.edit?
  split
  · exact coherent_fresh render _
  · exact coherent

theorem forget_afterRead? (render : α → Except Error String) (c : Cached α) :
    (c.afterRead? render).forget = c.forget := by
  unfold Cached.afterRead?
  split <;> rfl

/-- A change is answered alike whatever is remembered, and leaves the same content. -/
theorem edit?_forget (change : α → Except Error (β × α)) (c : Cached α) :
    c.forget.edit? change = ((c.edit? change).1, (c.edit? change).2.forget) := by
  unfold Cached.edit? forget
  cases change c.content <;> rfl

end Cached

/-! ### Clauses -/

namespace Grouping

def forget (c : Cached Grouping) : Cached Grouping :=
  { content := { c.content with having := c.content.having.forget } }

/-- Both the text of a grouping and the text of its condition are right. -/
structure Coherent (c : Cached Grouping) : Prop where
  own : c.Coherent fun g => .ok g.render
  inner : c.content.having.Coherent fun h => .ok h.render

variable {c : Cached Grouping}

theorem assemble_eq {g : Grouping} (inner : g.having.Coherent fun h => .ok h.render) :
    g.assemble = g.render := by
  rw [assemble, inner.text_eq, render]

theorem Coherent.text_eq (coherent : Coherent c) : c.text assemble = c.content.render := by
  cases memo : c.memo? with
  | none => simp [Cached.text, memo, assemble_eq coherent.inner]
  | some text =>
    have right := coherent.own text memo
    simp only [Except.ok.injEq] at right
    simp [Cached.text, memo, right]

theorem Coherent.afterHavingRead (coherent : Coherent c) : Coherent (afterHavingRead c) where
  own := coherent.own
  inner := coherent.inner.afterRead

theorem Coherent.afterRead (coherent : Coherent c) : Coherent (afterRead c) := by
  unfold Grouping.afterRead
  split
  · exact coherent
  · have rendered : c.content.assembled.render = c.content.assemble := by
      rw [assemble_eq coherent.inner, assembled]
      split <;> rfl
    refine ⟨?_, ?_⟩
    · intro text remembered
      simp only [Option.mem_def, Option.some.injEq] at remembered
      exact congrArg Except.ok (rendered.trans remembered)
    · dsimp only
      rw [assembled]
      split
      · exact coherent.inner.afterRead
      · exact coherent.inner

theorem Coherent.edit? (coherent : Coherent c) (change : Edit) :
    Coherent (c.edit? (apply change)).2 := by
  refine ⟨coherent.own.edit? _, ?_⟩
  unfold Cached.edit?
  cases change with
  | keys change => exact coherent.inner
  | having change =>
    have kept := coherent.inner.edit? (Condition.apply change)
    simp only [apply]
    cases result : c.content.having.edit? (Condition.apply change) with
    | mk reply having =>
      rw [result] at kept
      cases reply with
      | ok reply => exact kept
      | error e => exact coherent.inner

theorem forget_afterRead (c : Cached Grouping) : forget (afterRead c) = forget c := by
  unfold Grouping.afterRead
  split
  · rfl
  · simp only [forget, assembled]
    split <;> rfl

theorem edit?_forget (change : Edit) (c : Cached Grouping) :
    (forget c).edit? (apply change) =
      ((c.edit? (apply change)).1, forget (c.edit? (apply change)).2) := by
  cases change with
  | keys change => rfl
  | having change =>
    simp only [Cached.edit?, forget, apply, Cached.forget]
    cases Condition.apply change c.content.having.content <;> rfl

end Grouping

namespace Clause

def forget : Clause → Clause
  | projection c => projection c.forget
  | source c => source c.forget
  | condition role c => condition role c.forget
  | grouping c => grouping (Grouping.forget c)
  | sorting c => sorting c.forget
  | assignments layout c => assignments layout c.forget

/-- Whatever is remembered of a clause is right. -/
def Coherent : Clause → Prop
  | projection c => c.Coherent fun p => .ok p.render
  | source c => c.Coherent fun s => .ok s.render
  | condition _ c => c.Coherent fun h => .ok h.render
  | grouping c => Grouping.Coherent c
  | sorting c => c.Coherent fun s => .ok s.render
  | assignments _ c => c.Coherent Assignments.render

def afterHavingRead : Clause → Clause
  | grouping c => grouping (Grouping.afterHavingRead c)
  | clause => clause

/-- What a read of the clause of a kind leaves behind of a clause, whether it is that clause or the
one around it. -/
def afterPartRead (kind : ClauseKind) (clause : Clause) : Clause :=
  if clause.kind = kind then clause.afterRead
  else if kind = .groupFilter then clause.afterHavingRead
  else clause

variable {clause : Clause}

/-- A clause reads as its contents render. -/
theorem Coherent.text_eq (coherent : clause.Coherent) : clause.text = clause.render := by
  cases clause with
  | projection c | source c | condition role c | sorting c =>
    exact congrArg Except.ok (Cached.Coherent.text_eq coherent)
  | grouping c => exact congrArg Except.ok (Grouping.Coherent.text_eq coherent)
  | assignments layout c => exact Cached.Coherent.text?_eq coherent

/-- A read of a clause remembers nothing wrong. -/
theorem Coherent.afterRead (coherent : clause.Coherent) : clause.afterRead.Coherent := by
  cases clause with
  | projection c | source c | condition role c | sorting c =>
    exact Cached.Coherent.afterRead coherent
  | grouping c => exact Grouping.Coherent.afterRead coherent
  | assignments layout c => exact Cached.Coherent.afterRead? coherent

theorem Coherent.afterHavingRead (coherent : clause.Coherent) :
    clause.afterHavingRead.Coherent := by
  cases clause with
  | grouping c => exact Grouping.Coherent.afterHavingRead coherent
  | _ => exact coherent

theorem Coherent.afterPartRead (coherent : clause.Coherent) (kind : ClauseKind) :
    (clause.afterPartRead kind).Coherent := by
  unfold Clause.afterPartRead
  split
  · exact coherent.afterRead
  · split
    · exact coherent.afterHavingRead
    · exact coherent

theorem Coherent.having {having : Clause} (coherent : clause.Coherent)
    (held : clause.having? = some having) : having.Coherent := by
  cases clause with
  | grouping c =>
    simp only [having?, Option.some.injEq] at held
    rw [← held]
    exact Grouping.Coherent.inner coherent
  | _ => simp [having?] at held

/-- A change of a clause leaves nothing wrong behind. -/
theorem Coherent.change {next : Clause} {change : Edit} {reply : Except Error Reply}
    (coherent : clause.Coherent) (changed : clause.change? change = some (reply, next)) :
    next.Coherent := by
  cases clause <;> cases change <;>
    simp only [change?, Option.some.injEq, Prod.mk.injEq, reduceCtorEq] at changed <;>
    obtain ⟨-, rfl⟩ := changed <;>
    simp only [Coherent] at coherent ⊢
  case projection | sorting | assignments => exact Cached.coherent_edit _ _ _
  case source | condition => exact coherent.edit? _
  case grouping => exact coherent.edit? _

theorem coherent_forget (clause : Clause) : clause.forget.Coherent := by
  cases clause <;> simp only [forget, Coherent]
  case grouping c => exact ⟨Cached.coherent_fresh _ _, Cached.coherent_fresh _ _⟩
  all_goals exact Cached.coherent_fresh _ _

@[simp]
theorem kind_forget (clause : Clause) : clause.forget.kind = clause.kind := by cases clause <;> rfl

/-- The phrase of a clause does not depend on what the clause remembers. -/
@[simp]
theorem phrase?_forget (clause : Clause) : clause.forget.phrase? = clause.phrase? := by
  cases clause with
  | condition role c => cases role <;> rfl
  | _ => rfl

@[simp]
theorem written?_forget (clause : Clause) : clause.forget.written? = clause.written? := by
  cases clause with
  | condition role c => cases role <;> rfl
  | _ => rfl

@[simp]
theorem forget_afterRead (clause : Clause) : clause.afterRead.forget = clause.forget := by
  cases clause with
  | grouping c => exact congrArg grouping (Grouping.forget_afterRead c)
  | assignments layout c =>
    exact congrArg (assignments layout) (Cached.forget_afterRead? Assignments.render c)
  | _ => rfl

/-- A change can be made before or after forgetting. -/
theorem change?_forget (change : Edit) (clause : Clause) :
    clause.forget.change? change =
      (clause.change? change).map fun (reply, next) => (reply, next.forget) := by
  cases clause <;> cases change <;> try rfl
  case source c change =>
    simp only [forget, change?, Cached.edit?_forget, Option.map_some]
  case condition role c change =>
    simp only [forget, change?, Cached.edit?_forget, Option.map_some]
  case grouping c change =>
    simp only [forget, change?, Grouping.edit?_forget, Option.map_some]

theorem having?_forget (clause : Clause) :
    clause.forget.having? = clause.having?.map forget := by
  cases clause <;> rfl

end Clause

end SqlBuilder
