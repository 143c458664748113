import SqlBuilder.Proofs.Command.Batching

/-! # The course of reading statements

What reading several statements does to a pool, and which events it reports, depends on the
statements and their order alone. Cutting them into commands does not show in the course of the
reads: they are read one after the other up to the first that cannot be written, and when all have
been read the commands are reported behind them.
-/

namespace SqlBuilder

namespace Reading

variable {σ α β γ δ : Type}

/-- Two readings that leave the same state and report the same events. They both succeed, whatever
they answer, or fail with the same error. -/
structure SameCourse (first : Reading σ α) (second : Reading σ β) : Prop where
  failure : failure? first.answer = failure? second.answer
  state : first.state = second.state
  events : first.events = second.events

theorem SameCourse.trans {first : Reading σ α} {second : Reading σ β} {third : Reading σ γ}
    (left : first.SameCourse second) (right : second.SameCourse third) : first.SameCourse third :=
  ⟨left.failure.trans right.failure, left.state.trans right.state,
    left.events.trans right.events⟩

/-- Changing the answer does not change the course. -/
theorem sameCourse_map (f : α → β) (reading : Reading σ α) :
    (reading.map f).SameCourse reading :=
  ⟨failure?_map f reading.answer, rfl, rfl⟩

/-- Going on in the same way takes the same course. -/
theorem SameCourse.andThen {first : Reading σ α} {second : Reading σ β}
    {next : α → σ → Reading σ γ} {next' : β → σ → Reading σ δ} (same : first.SameCourse second)
    (go : ∀ a b state, (next a state).SameCourse (next' b state)) :
    (first.andThen next).SameCourse (second.andThen next') := by
  obtain ⟨answer, state, events⟩ := first
  obtain ⟨answer', state', events'⟩ := second
  obtain ⟨failure, rfl, rfl⟩ := same
  cases answer with
  | error e =>
    obtain rfl := failure?_eq_some_iff.mp failure.symm
    exact ⟨rfl, rfl, rfl⟩
  | ok a =>
    cases answer' with
    | error e => cases failure
    | ok b =>
      obtain ⟨failure, state, events⟩ := go a b state
      exact ⟨failure, state, congrArg _ events⟩

/-- Reading two lists in a row is reading the one and then the other. -/
theorem sameCourse_each_append (read : σ → α → Reading σ β) (state : σ) (as bs : List α) :
    (each read state (as ++ bs)).SameCourse
      ((each read state as).andThen fun _ state => each read state bs) := by
  induction as generalizing state with
  | nil => exact ⟨rfl, rfl, rfl⟩
  | cons a as ih =>
    rw [List.cons_append, each, each]
    unfold Reading.andThen
    cases answered : (read state a).answer with
    | error e => exact ⟨rfl, rfl, rfl⟩
    | ok b =>
      obtain ⟨failure, left, events⟩ := ih (read state a).state
      unfold Reading.andThen at failure left events
      dsimp only [map]
      cases others : (each read (read state a).state as).answer with
      | error e =>
        rw [others] at failure left events
        refine ⟨(failure?_map _ _).trans failure, left, ?_⟩
        simp only [Except.map, events]
      | ok rest =>
        rw [others] at failure left events
        refine ⟨(failure?_map _ _).trans failure, left, ?_⟩
        simp only [Except.map, events, List.append_assoc]

/-- Reading in groups takes the course of reading one after the other. -/
theorem sameCourse_each_flatten {read : σ → α → Reading σ β} {readGroup : σ → List α → Reading σ γ}
    {groups : List (List α)}
    (grouped : ∀ group ∈ groups, ∀ state,
      (readGroup state group).SameCourse (each read state group))
    (state : σ) :
    (each readGroup state groups).SameCourse (each read state groups.flatten) := by
  induction groups generalizing state with
  | nil => exact ⟨rfl, rfl, rfl⟩
  | cons group groups ih =>
    have rest := ih fun other member => grouped other (List.mem_cons_of_mem group member)
    have first := grouped group (List.mem_cons_self ..) state
    refine .trans (first.andThen fun _ _ state => (sameCourse_map _ _).trans (rest state)) ?_
    have row := sameCourse_each_append read state group groups.flatten
    exact ⟨row.failure.symm, row.state.symm, row.events.symm⟩

end Reading

section Pool

variable {n : Nat}

def put {α : Type} (places : Vector α n) (i : Fin n) (a : α) : Vector α n :=
  places.set i.val a i.isLt

theorem get_put {α : Type} (places : Vector α n) (i j : Fin n) (a : α) :
    (put places i a).get j = if i = j then a else places.get j := by
  change (places.set i.val a i.isLt)[j.val] = _
  simp only [Vector.getElem_set, Fin.ext_iff]
  rfl

/-- Reads the statement at a place of a pool, and leaves there what the read leaves of it. -/
def readAt (pool : Vector Statement n) (i : Fin n) : Reading (Vector Statement n) String :=
  (pool.get i).read.mapState fun s => put pool i s

/-- The text of a command is read one statement after the other. -/
theorem Command.sameCourse_readText {refs : List (Fin n)} (nonempty : refs ≠ [])
    (separator : String) (pool : Vector Statement n) :
    (readText separator pool refs).SameCourse (Reading.each readAt pool refs) := by
  rw [readText, if_neg nonempty]
  exact Reading.sameCourse_map _ _

namespace Batcher

variable (b : Batcher) (pool : Vector Statement n) (refs : List (Fin n))

/-- The groups of statements are read one after the other. -/
theorem sameCourse_groups :
    (Reading.each (Command.read b.separator b.config.timeout?) pool
      (cut (b.batchSize refs.length) refs)).SameCourse (Reading.each readAt pool refs) := by
  have grouped : ∀ group ∈ cut (b.batchSize refs.length) refs, ∀ pool,
      (Command.read b.separator b.config.timeout? pool group).SameCourse
        (Reading.each readAt pool group) := fun group member pool =>
    (Reading.sameCourse_map _ _).trans
      (Command.sameCourse_readText (ne_nil_of_mem_cut member) b.separator pool)
  have groups := Reading.sameCourse_each_flatten grouped pool
  rwa [flatten_cut] at groups

/-- What is reported of commands that were prepared: the number of statements and of commands, and
how many parameters the commands have in all. -/
def report : Except Error (List Command) → List Event
  | .ok commands =>
    [.prepared refs.length commands.length
      (commands.foldl (fun total c => total + c.params.size) 0)]
  | .error _ => []

/-- Preparing commands reads the listed statements one after the other, and reports the commands
when it succeeds. -/
theorem course_prepare :
    (b.prepare pool refs).state = (Reading.each readAt pool refs).state ∧
      (b.prepare pool refs).events =
        (Reading.each readAt pool refs).events ++ report refs (b.prepare pool refs).answer := by
  by_cases empty : refs = []
  · subst empty
    exact ⟨rfl, rfl⟩
  · obtain ⟨failure, state, events⟩ := b.sameCourse_groups pool refs
    rw [prepare, if_neg empty, ← state, ← events]
    unfold Reading.andThen
    split
    · next commands prepared => exact ⟨rfl, rfl⟩
    · exact ⟨rfl, (List.append_nil _).symm⟩

end Batcher

end Pool

end SqlBuilder
