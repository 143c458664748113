import SqlBuilder.Proofs.Memo.Coherence

/-! # Work on one clause

A clause is changed and read in any order. Reads leave its contents alone and changes do not look
at what is remembered, so the contents are those that the changes for its kind of clause make of
them, and whatever was read before, the clause reads as its contents render.
-/

namespace SqlBuilder

/-- Contents after changes one after the other. -/
def afterChanges {α ε : Type} (apply : ε → α → Reply × α) (a : α) (changes : List ε) : α :=
  changes.foldl (fun a change => (apply change a).2) a

theorem afterChanges_append {α ε : Type} (apply : ε → α → Reply × α) (a : α) (changes : List ε)
    (change : ε) :
    afterChanges apply a (changes ++ [change]) =
      (apply change (afterChanges apply a changes)).2 := by
  rw [afterChanges, List.foldl_append]
  rfl

namespace Clause

/-- What is done with a clause: it is changed, or its text is read. -/
inductive Action
  | change (edit : Edit)
  | read
  deriving DecidableEq

/-- The change of sort keys that an action is, if it is one. -/
def Action.sorting? : Action → Option Sorting.Edit
  | change (.sorting edit) => some edit
  | _ => none

/-- The change of a target and its fields that an action is, if it is one. -/
def Action.assignments? : Action → Option Assignments.Edit
  | change (.assignments edit) => some edit
  | _ => none

/-- What an action leaves behind. A change for another kind of clause is none. -/
def act (clause : Clause) : Action → Clause
  | .change edit => ((clause.change? edit).map Prod.snd).getD clause
  | .read => clause.afterRead

def run (clause : Clause) (actions : List Action) : Clause := actions.foldl act clause

variable {clause : Clause}

theorem run_append (clause : Clause) (actions : List Action) (action : Action) :
    clause.run (actions ++ [action]) = (clause.run actions).act action := by
  rw [run, List.foldl_append]
  rfl

theorem Coherent.act (coherent : clause.Coherent) (action : Action) :
    (clause.act action).Coherent := by
  cases action with
  | change edit =>
    cases made : clause.change? edit with
    | none => simpa [Clause.act, made] using coherent
    | some result => simpa [Clause.act, made] using coherent.change made
  | read => exact coherent.afterRead

/-- What a clause remembers stays right in every run. -/
theorem Coherent.run (coherent : clause.Coherent) (actions : List Action) :
    (clause.run actions).Coherent := by
  induction actions generalizing clause with
  | nil => exact coherent
  | cons action actions ih => exact ih (coherent.act action)

/-- A clause that was worked on from one that remembers nothing remembers nothing wrong. -/
theorem coherent_of_run {blank : Clause} {actions : List Action} (unread : blank.forget = blank)
    (reached : blank.run actions = clause) : clause.Coherent := by
  rw [← reached, ← unread]
  exact (coherent_forget blank).run actions

/-- After any work an ORDER BY clause holds what the changes of its keys make of it. -/
theorem exists_run_sorting (c : Cached Sorting) (actions : List Action) :
    ∃ d : Cached Sorting, (sorting c).run actions = sorting d ∧
      d.content = afterChanges Sorting.apply c.content (actions.filterMap Action.sorting?) := by
  induction actions generalizing c with
  | nil => exact ⟨c, rfl, rfl⟩
  | cons action actions ih =>
    cases action with
    | read => exact ih (c.afterRead Sorting.render)
    | change edit =>
      cases edit with
      | sorting edit => exact ih (c.edit (Sorting.apply edit)).2
      | projection | source | condition | grouping | assignments => exact ih c

/-- After any work a target with fields holds what the changes of either make of it. -/
theorem exists_run_assignments {layout : Assignments.Layout} (c : Cached (Assignments layout))
    (actions : List Action) :
    ∃ d : Cached (Assignments layout), (assignments layout c).run actions = assignments layout d ∧
      d.content =
        afterChanges Assignments.apply c.content (actions.filterMap Action.assignments?) := by
  induction actions generalizing c with
  | nil => exact ⟨c, rfl, rfl⟩
  | cons action actions ih =>
    cases action with
    | read =>
      have same : (c.afterRead? Assignments.render).content = c.content :=
        (Cached.mk.inj (Cached.forget_afterRead? Assignments.render c)).1
      obtain ⟨d, reached, content⟩ := ih (c.afterRead? Assignments.render)
      exact ⟨d, reached, by rw [content, same]; rfl⟩
    | change edit =>
      cases edit with
      | assignments edit => exact ih (c.edit (Assignments.apply edit)).2
      | projection | source | condition | grouping | sorting => exact ih c

end Clause

end SqlBuilder
