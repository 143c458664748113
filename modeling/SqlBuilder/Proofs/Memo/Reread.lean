import SqlBuilder.Proofs.Memo.Statement

/-! # Reading a statement again

A read answers with a text exactly when the statement has the clause it needs, and says that the
statement is incomplete otherwise. Whatever it remembers of itself and of its clauses, it is left in
a state that answers the next read in the same way and has the same parameters.
-/

namespace SqlBuilder

namespace Clause

variable {clause : Clause}

/-- A clause that can be written has a text. -/
theorem exists_render (available : clause.isAvailable = true) :
    ∃ text, clause.render = .ok text := by
  rw [isAvailable_eq_isSome] at available
  obtain ⟨phrase, held⟩ := Option.isSome_iff_exists.mp available
  exact ⟨phrase, render_of_phrase? held⟩

/-- A clause that is available has a text, a remembered one or one that is rendered. -/
theorem exists_text (available : clause.isAvailable = true) : ∃ text, clause.text = .ok text := by
  cases clause with
  | projection | source | condition | grouping | sorting => exact ⟨_, rfl⟩
  | assignments layout c =>
    cases memo : c.memo? with
    | some held => exact ⟨held, by simp [text, Cached.text?, memo]⟩
    | none =>
      obtain ⟨phrase, rendered⟩ := exists_render available
      refine ⟨phrase, ?_⟩
      rw [text, Cached.text?, memo]
      exact rendered

@[simp]
theorem isAvailable_forget (clause : Clause) : clause.forget.isAvailable = clause.isAvailable := by
  rw [isAvailable_eq_isSome, phrase?_forget, ← isAvailable_eq_isSome]

@[simp]
theorem params_forget (clause : Clause) : clause.forget.params = clause.params := by
  cases clause <;> rfl

end Clause

namespace StatementBody

open Layered

variable {β : Type} [StatementBody β] {s : Cached β}

theorem exists_compose_text (body : β) : ∃ text, compose Clause.text body = .ok text := by
  have texts : ∃ texts, (available body).mapM Clause.text = .ok texts := by
    have written : ∀ clause ∈ available body, clause.isAvailable = true := fun clause member =>
      (List.mem_filter.mp member).2
    generalize available body = cs at written
    induction cs with
    | nil => exact ⟨[], rfl⟩
    | cons clause rest ih =>
      obtain ⟨text, read⟩ := Clause.exists_text (written clause (List.mem_cons_self ..))
      obtain ⟨texts, others⟩ := ih fun other member =>
        written other (List.mem_cons_of_mem clause member)
      refine ⟨text :: texts, ?_⟩
      rw [List.mapM_cons, read, others]
      rfl
  obtain ⟨texts, read⟩ := texts
  refine ⟨layOut (kind β).keyword texts, ?_⟩
  rw [compose, read]
  rfl

theorem read_of_invalid (invalid : isValid s.content = false) :
    read s = ⟨.error (.incomplete (kind β)), s, []⟩ := by
  rw [read, invalid]
  rfl

theorem read_of_memo {text : String} (valid : isValid s.content = true)
    (memo : s.memo? = some text) : read s = ⟨.ok text, s, []⟩ := by
  simp [read, valid, memo]

/-- A read of a valid statement leaves it as it is, or with the text it answered. -/
theorem exists_read (valid : isValid s.content = true) :
    ∃ text, (read s).answer = .ok text ∧
      ((read s).state = s ∨ (read s).state = ⟨afterReads s.content, some text⟩) := by
  cases memo : s.memo? with
  | some text => exact ⟨text, by simp [read_of_memo valid memo]⟩
  | none =>
    obtain ⟨text, composed⟩ := exists_compose_text s.content
    exact ⟨text, by simp [read, valid, memo, composed]⟩

variable [Layered β]

theorem params_congr {body other : β} (same : forget body = forget other) :
    params body = params other := by
  have blind (body : β) : params body = params (forget body) := by
    simp only [params, available, clauses_forget, List.filter_map, List.map_map,
      Function.comp_def, Clause.isAvailable_forget, Clause.params_forget]
  rw [blind body, same, ← blind other]

/-- A statement that has been read reads as before. -/
theorem answer_reread (s : Cached β) : (read (read s).state).answer = (read s).answer := by
  cases valid : isValid s.content with
  | false => rw [read_of_invalid valid, read_of_invalid valid]
  | true =>
    obtain ⟨text, answered, state | state⟩ := exists_read valid
    · rw [state]
    · have still : isValid (afterReads s.content) = true :=
        (isValid_congr (forget_afterReads s.content)).trans valid
      rw [answered, state, read_of_memo still rfl]

theorem params_read (s : Cached β) : params (read s).state.content = params s.content := by
  cases valid : isValid s.content with
  | false => rw [read_of_invalid valid]
  | true =>
    obtain ⟨text, -, state | state⟩ := exists_read valid
    · rw [state]
    · rw [state]
      exact params_congr (forget_afterReads s.content)

end StatementBody

namespace Statement

/-- Two states of a statement that cannot be told apart by reading them. -/
structure Alike (s t : Statement) : Prop where
  answer : s.read.answer = t.read.answer
  params : s.params = t.params

variable {s t u : Statement}

theorem Alike.refl (s : Statement) : s.Alike s := ⟨rfl, rfl⟩

theorem Alike.trans (first : s.Alike t) (second : t.Alike u) : s.Alike u :=
  ⟨first.answer.trans second.answer, first.params.trans second.params⟩

/-- Reading a statement cannot be noticed afterwards. -/
theorem alike_read (s : Statement) : s.read.state.Alike s := by
  cases s with
  | select s | insert s | update s | delete s =>
    exact ⟨StatementBody.answer_reread s, StatementBody.params_read s⟩
  | verbatim s => exact .refl _

/-- A statement that cannot be written lacks the clause it needs. -/
theorem answer_read_of_invalid (invalid : s.isValid = false) :
    s.read.answer = .error (.incomplete s.kind) := by
  cases s with
  | select s | insert s | update s | delete s =>
    exact congrArg Reading.answer (StatementBody.read_of_invalid invalid)
  | verbatim s => cases invalid

/-- A valid statement is never refused. -/
theorem exists_answer_read (valid : s.isValid = true) : ∃ text, s.read.answer = .ok text := by
  cases s with
  | select s | insert s | update s | delete s =>
    obtain ⟨text, answered, -⟩ := StatementBody.exists_read valid
    exact ⟨text, answered⟩
  | verbatim s => exact ⟨s.text, rfl⟩

end Statement

end SqlBuilder
