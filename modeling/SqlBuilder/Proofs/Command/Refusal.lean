import SqlBuilder.Proofs.Command.Batching

/-! # Refusals

A statement without the clause it cannot do without is refused as incomplete, also when it has been
written before and still remembers the text. It is refused for nothing else: only clauses that are
available are written, and a clause that is available has a text, with the condition on groups and
the assignments of an UPDATE in it. So subqueries are refused for an incomplete query alone, and
commands for an incomplete statement or for a list without statements.
-/

namespace SqlBuilder

/-- Every value can be assigned to every field. -/
theorem Assignments.exists_renderAssignment (entry : Expr × Expr) :
    ∃ text, renderAssignment entry = .ok text :=
  ⟨_, rfl⟩

namespace Statement

variable {s : Statement} {e : Error}

/-- A statement can be read exactly when it is valid. -/
theorem exists_answer_read_iff : (∃ text, s.read.answer = .ok text) ↔ s.isValid = true := by
  constructor
  · rintro ⟨text, answered⟩
    by_contra invalid
    rw [answer_read_of_invalid (Bool.of_not_eq_true invalid)] at answered
    cases answered
  · exact exists_answer_read

/-- An incomplete statement is refused as incomplete, and no statement is refused for anything else.
-/
theorem answer_read_eq_error_iff :
    s.read.answer = .error e ↔ s.isValid = false ∧ e = .incomplete s.kind := by
  cases valid : s.isValid with
  | false => simp [answer_read_of_invalid valid, eq_comm]
  | true =>
    obtain ⟨text, answered⟩ := exists_answer_read valid
    simp [answered]

end Statement

/-- A query is refused as a subquery just when it is refused as a statement. -/
theorem Query.subquery_eq_error_iff {q : Cached Query} {e : Error} :
    (subquery q).answer = .error e ↔ q.content.isValid = false ∧ e = .incomplete .select := by
  have refused : (Statement.select q).read.answer = .error e ↔
      q.content.isValid = false ∧ e = .incomplete .select :=
    Statement.answer_read_eq_error_iff
  rw [← refused]
  change (StatementBody.read q).answer.map _ = .error e ↔ (StatementBody.read q).answer = .error e
  cases (StatementBody.read q).answer <;> simp [Except.map]

/-- The cause of a refusal of listed statements: there are none, or the first incomplete one is the
cause. -/
theorem Batcher.refused_iff_incomplete {n : Nat} {pool : Vector Statement n} {refs : List (Fin n)}
    {e : Error} :
    Refused pool refs e ↔ refs = [] ∧ e = .noStatements ∨
      ∃ (before : List (Fin n)) (i : Fin n) (after : List (Fin n)), refs = before ++ i :: after ∧
        (∀ j ∈ before, (pool.get j).isValid = true) ∧ (pool.get i).isValid = false ∧
        e = .incomplete (pool.get i).kind := by
  constructor
  · rintro (_ | ⟨written, invalid, answered⟩)
    · exact .inl ⟨rfl, rfl⟩
    · have cause := (Statement.answer_read_eq_error_iff.mp answered).2
      exact .inr ⟨_, _, _, rfl, written, invalid, cause⟩
  · rintro (⟨rfl, rfl⟩ | ⟨before, i, after, rfl, written, invalid, rfl⟩)
    · exact .nothing
    · exact .statement written invalid (Statement.answer_read_of_invalid invalid)

/-- A statement can be read exactly if it is valid, and is refused as incomplete otherwise, whatever
it and its clauses remember. No clause that is available is refused, and no assignment inside one.
A subquery is refused for an incomplete query only, and a list of statements for the first
incomplete statement in it or because it is empty. -/
theorem Statement.refused_only_incomplete :
    (∀ s : Statement, ((∃ text, s.read.answer = .ok text) ↔ s.isValid = true) ∧
        ((∃ e, s.read.answer = .error e ∧ e.kind = .invalidState) ↔ s.isValid = false) ∧
        ∀ e, s.read.answer = .error e → e = .incomplete s.kind) ∧
      (∀ clause : Clause, clause.isAvailable = true →
        (∃ text, clause.render = .ok text) ∧ ∃ text, clause.text = .ok text) ∧
      (∀ entry, ∃ text, Assignments.renderAssignment entry = .ok text) ∧
      (∀ (q : Cached Query) (e : Error), (Query.subquery q).answer = .error e ↔
        q.content.isValid = false ∧ e = .incomplete .select) ∧
      ∀ (n : Nat) (b : Batcher) (pool : Vector Statement n) (refs : List (Fin n)) (e : Error),
        (b.prepare pool refs).answer = .error e ↔ refs = [] ∧ e = .noStatements ∨
          ∃ (before : List (Fin n)) (i : Fin n) (after : List (Fin n)),
            refs = before ++ i :: after ∧ (∀ j ∈ before, (pool.get j).isValid = true) ∧
            (pool.get i).isValid = false ∧ e = .incomplete (pool.get i).kind := by
  refine ⟨fun s => ⟨exists_answer_read_iff, ?_, ?_⟩, ?_, Assignments.exists_renderAssignment,
    fun q e => Query.subquery_eq_error_iff, ?_⟩
  · constructor
    · rintro ⟨e, answered, -⟩
      exact (answer_read_eq_error_iff.mp answered).1
    · intro invalid
      exact ⟨.incomplete s.kind, answer_read_of_invalid invalid, rfl⟩
  · intro e answered
    exact (answer_read_eq_error_iff.mp answered).2
  · exact fun clause available => ⟨Clause.exists_render available, Clause.exists_text available⟩
  · intro n b pool refs e
    rw [b.prepare_eq_error_iff, Batcher.refused_iff_incomplete]

/-- A query that has lost its columns and still remembers its text is refused, alone and behind a
statement that can be written, and an update beside it is read. -/
theorem Statement.refused_only_incomplete_remembered :
    let lost : Cached Query := ⟨{}, some "SELECT a"⟩
    let written : Statement := .update ⟨⟨⟨⟨some { text := "t" },
      [({ text := "f" }, { text := "1" })]⟩, none⟩, default, default⟩, none⟩
    let b : Batcher := ⟨{}, ";", by decide⟩
    (∃ text, written.read.answer = .ok text) ∧
      (Statement.select lost).read.answer = .error (.incomplete .select) ∧
      (Query.subquery lost).answer = .error (.incomplete .select) ∧
      (b.prepare #v[written, .select lost] [0, 1]).answer = .error (.incomplete .select) := by
  intro lost written b
  obtain ⟨each, -, -, subquery, prepare⟩ := refused_only_incomplete
  refine ⟨(each written).1.mpr rfl, ?_, (subquery lost _).mpr ⟨rfl, rfl⟩, ?_⟩
  · obtain ⟨e, answered, -⟩ := (each (.select lost)).2.1.mpr rfl
    rw [answered, (each (.select lost)).2.2 e answered]
    rfl
  · refine (prepare 2 b _ [0, 1] _).mpr (.inr ⟨[0], 1, [], rfl, ?_, rfl, rfl⟩)
    intro j member
    rw [List.mem_singleton.mp member]
    rfl

end SqlBuilder
