import Mathlib.Data.List.Forall2
import SqlBuilder.Command.Batcher
import SqlBuilder.Proofs.Memo.Reread
import SqlBuilder.Proofs.Param.Union

/-! # Cutting statements into commands

Preparing commands reads the listed statements in order, group by group. A read leaves every
statement of the pool as it was for the next one, so the commands can be told from the pool as it
was at first: each command is made of its own group, and the first statement that cannot be written
decides which error is answered, wherever the groups are cut.
-/

namespace SqlBuilder

/-! ### Cutting lists -/

/-- Consecutive groups of a list, all of one size but the last, which may be smaller but is not
empty. -/
structure Grouped {α : Type} (size : Nat) (as : List α) (groups : List (List α)) : Prop where
  whole : groups.flatten = as
  full : ∀ group ∈ groups.dropLast, group.length = size
  last : ∀ group ∈ groups.getLast?, 0 < group.length ∧ group.length ≤ size

section Cut

variable {α : Type} {size : Nat}

/-- Cutting loses nothing and keeps the order. -/
theorem flatten_cut (size : Nat) (as : List α) : (cut size as).flatten = as := by
  fun_induction cut size as with
  | case1 => rfl
  | case2 a as ih => rw [List.flatten_cons, ih, List.cons_append, List.take_append_drop]

theorem ne_nil_of_mem_cut {as group : List α} (member : group ∈ cut size as) : group ≠ [] := by
  fun_induction cut size as with
  | case1 => cases member
  | case2 a as ih =>
    rcases List.mem_cons.mp member with rfl | member
    · exact List.cons_ne_nil _ _
    · exact ih member

/-- Cutting makes groups of one size, of which the last may be smaller but is not empty. -/
theorem grouped_cut (positive : 0 < size) (as : List α) : Grouped size as (cut size as) := by
  refine ⟨flatten_cut size as, ?_, ?_⟩
  · fun_induction cut size as with
    | case1 => simp
    | case2 a as ih =>
      cases rest : as.drop (size - 1) with
      | nil => simp [cut]
      | cons b bs =>
        -- Something is left behind the first group, so it is full.
        have longer := congrArg List.length rest
        rw [List.length_drop, List.length_cons] at longer
        rw [rest] at ih
        have more : cut size (b :: bs) ≠ [] := by simp [cut]
        rw [List.dropLast_cons_of_ne_nil more]
        refine List.forall_mem_cons.mpr ⟨?_, ih⟩
        rw [List.length_cons, List.length_take]
        omega
  · fun_induction cut size as with
    | case1 => simp
    | case2 a as ih =>
      cases rest : as.drop (size - 1) with
      | nil =>
        simp only [cut, List.getLast?_singleton, Option.mem_def, Option.some.injEq, forall_eq',
          List.length_cons, List.length_take]
        omega
      | cons b bs =>
        rw [rest, cut] at ih
        rw [cut, List.getLast?_cons_cons]
        exact ih

/-- Nothing is cut off when there is room for everything. -/
theorem cut_length {as : List α} (nonempty : as ≠ []) : cut as.length as = [as] := by
  obtain ⟨a, as, rfl⟩ := List.exists_cons_of_ne_nil nonempty
  simp [cut]

theorem cut_one (as : List α) : cut 1 as = as.map ([·]) := by
  induction as with
  | nil => simp [cut]
  | cons a as ih => simp [cut, ih]

end Cut

/-! ### Reading one after the other -/

section Each

variable {α β σ : Type}

def failure? : Except Error α → Option Error
  | .ok _ => none
  | .error e => some e

theorem failure?_eq_some_iff {answer : Except Error α} {e : Error} :
    failure? answer = some e ↔ answer = .error e := by
  cases answer <;> simp [failure?]

theorem failure?_map (f : α → β) (answer : Except Error α) :
    failure? (answer.map f) = failure? answer := by
  cases answer <;> rfl

/-- The first failure is the one that is answered. -/
theorem failure?_mapM (f : α → Except Error β) (as : List α) :
    failure? (as.mapM f) = as.findSome? fun a => failure? (f a) := by
  induction as with
  | nil => rfl
  | cons a as ih =>
    rw [List.mapM_cons, List.findSome?_cons]
    cases first : f a with
    | error e => rfl
    | ok b =>
      rw [failure?, ← ih]
      cases as.mapM f <;> rfl

theorem findSome?_flatten (f : α → Option β) (groups : List (List α)) :
    groups.flatten.findSome? f = groups.findSome? fun group => group.findSome? f := by
  induction groups with
  | nil => rfl
  | cons group groups ih =>
    rw [List.flatten_cons, List.findSome?_append, List.findSome?_cons, ih]
    cases group.findSome? f <;> rfl

/-- All of a list is computed exactly when each of its elements is. -/
theorem mapM_eq_ok_iff {f : α → Except Error β} {as : List α} {bs : List β} :
    as.mapM f = .ok bs ↔ List.Forall₂ (fun a b => f a = .ok b) as bs := by
  constructor
  · intro mapped
    induction as generalizing bs with
    | nil =>
      obtain rfl := Except.ok.inj mapped
      exact .nil
    | cons a as ih =>
      rw [List.mapM_cons] at mapped
      cases first : f a with
      | error e => simp [first, bind, Except.bind] at mapped
      | ok b =>
        cases others : as.mapM f with
        | error e => simp [first, others, bind, Except.bind] at mapped
        | ok rest =>
          simp only [first, others, bind, Except.bind, pure, Except.pure, Except.ok.injEq] at mapped
          obtain rfl := mapped
          exact .cons first (ih others)
  · intro related
    induction related with
    | nil => rfl
    | cons first _ ih =>
      rw [List.mapM_cons, first, ih]
      rfl

namespace Reading

/-- While an invariant of the state keeps the answers what they are, reading one thing after the
other answers what each of them does, up to the first failure. -/
theorem each_spec {Inv : σ → Prop} {read : σ → α → Reading σ β} {answer : α → Except Error β}
    {as : List α} {state : σ}
    (step : ∀ a ∈ as, ∀ state, Inv state →
      (read state a).answer = answer a ∧ Inv (read state a).state)
    (holds : Inv state) :
    (each read state as).answer = as.mapM answer ∧ Inv (each read state as).state := by
  induction as generalizing state with
  | nil => exact ⟨rfl, holds⟩
  | cons a as ih =>
    obtain ⟨answered, kept⟩ := step a (List.mem_cons_self ..) state holds
    have rest := ih (fun b member => step b (List.mem_cons_of_mem a member)) kept
    rw [each, andThen, List.mapM_cons, answered]
    cases answer a with
    | error e => exact ⟨rfl, kept⟩
    | ok b =>
      refine ⟨?_, rest.2⟩
      dsimp only [map]
      rw [rest.1]
      cases as.mapM answer <;> rfl

end Reading

end Each

/-! ### Commands -/

section Pool

variable {n : Nat}

/-- Pools whose statements cannot be told apart by reading them. -/
def PoolAlike (pool other : Vector Statement n) : Prop :=
  ∀ i : Fin n, (pool.get i).Alike (other.get i)

theorem PoolAlike.refl (pool : Vector Statement n) : PoolAlike pool pool :=
  fun i => Statement.Alike.refl (pool.get i)

/-- Reading a statement in its place cannot be noticed in the pool. -/
theorem PoolAlike.set {pool other : Vector Statement n} (alike : PoolAlike pool other)
    (i : Fin n) : PoolAlike (pool.set i.val (pool.get i).read.state i.isLt) other := by
  intro j
  change (pool.set i.val (pool.get i).read.state i.isLt)[j.val].Alike (other.get j)
  rw [Vector.getElem_set]
  split
  · next same =>
    obtain rfl := Fin.ext same
    exact (Statement.alike_read _).trans (alike i)
  · exact alike j

namespace Command

variable {separator : String} {timeout? : Option Duration} {pool other : Vector Statement n}
  {refs : List (Fin n)}

/-- The command of a group of statements as a pool has them. -/
def ofGroup (separator : String) (timeout? : Option Duration) (pool : Vector Statement n)
    (group : List (Fin n)) : Except Error Command :=
  (group.mapM fun i => (pool.get i).read.answer).map fun texts =>
    { text := separator.intercalate texts
      params := .unions (group.map fun i => (pool.get i).params)
      timeout?
      statements := group.length }

/-- Statements that have been read before make the same command, and reading them changes nothing
that later reads see. -/
theorem read_spec (nonempty : refs ≠ []) (alike : PoolAlike other pool) :
    (read separator timeout? other refs).answer = ofGroup separator timeout? pool refs ∧
      PoolAlike (read separator timeout? other refs).state pool := by
  have step : ∀ i ∈ refs, ∀ state : Vector Statement n, PoolAlike state pool →
      ((Statement.read state[i]).mapState fun s => state.set i s).answer =
          (pool.get i).read.answer ∧
        PoolAlike ((Statement.read state[i]).mapState fun s => state.set i s).state pool :=
    fun i _ state alike => ⟨(alike i).answer, alike.set i⟩
  obtain ⟨answered, kept⟩ := Reading.each_spec step alike
  have params : refs.map (fun i => other[i].params) = refs.map fun i => (pool.get i).params :=
    List.map_congr_left fun i _ => (alike i).params
  rw [read, readText, if_neg nonempty, ofGroup, ← answered, ← params]
  refine ⟨?_, kept⟩
  dsimp only [Reading.map]
  generalize (Reading.each _ other refs).answer = answer
  cases answer <;> rfl

end Command

namespace Batcher

variable (b : Batcher) {pool : Vector Statement n} {refs : List (Fin n)}

/-- Why statements cannot be prepared: there are none, or the first that cannot be written says
why. -/
inductive Refused (pool : Vector Statement n) : List (Fin n) → Error → Prop
  | nothing : Refused pool [] .noStatements
  | statement {before after : List (Fin n)} {i : Fin n} {e : Error}
      (written : ∀ j ∈ before, (pool.get j).isValid = true)
      (invalid : (pool.get i).isValid = false) (answered : (pool.get i).read.answer = .error e) :
      Refused pool (before ++ i :: after) e

/-- A command that is made of a group of statements. -/
structure Makes (pool : Vector Statement n) (group : List (Fin n)) (c : Command) : Prop where
  text : ∃ texts, List.Forall₂ (fun i text => (pool.get i).read.answer = .ok text) group texts ∧
    c.text = b.separator.intercalate texts
  params : c.params.toList = firstOccurrences (group.flatMap fun i => (pool.get i).params.toList)
  timeout : c.timeout? = b.config.timeout?
  statements : c.statements = group.length

theorem batchSize_pos (nonempty : refs ≠ []) : 0 < b.batchSize refs.length := by
  have accepted := b.valid
  unfold batchSize
  cases size : b.config.maxBatchSize? with
  | none => exact List.length_pos_iff.mpr nonempty
  | some size' =>
    have nonzero : size' ≠ 0 := by
      rintro rfl
      simp [Config.validate, size] at accepted
    exact Nat.pos_of_ne_zero fun zero => nonzero (UInt64.toNat_inj.mp zero)

/-- Preparing answers with the commands of the groups, each as the pool had its statements at first,
and cannot be noticed in the pool afterwards. -/
theorem prepare_spec (nonempty : refs ≠ []) :
    (b.prepare pool refs).answer = (cut (b.batchSize refs.length) refs).mapM
        (Command.ofGroup b.separator b.config.timeout? pool) ∧
      PoolAlike (b.prepare pool refs).state pool := by
  have step : ∀ group ∈ cut (b.batchSize refs.length) refs, ∀ state : Vector Statement n,
      PoolAlike state pool →
        (Command.read b.separator b.config.timeout? state group).answer =
            Command.ofGroup b.separator b.config.timeout? pool group ∧
          PoolAlike (Command.read b.separator b.config.timeout? state group).state pool :=
    fun group member state alike => Command.read_spec (ne_nil_of_mem_cut member) alike
  obtain ⟨answered, kept⟩ := Reading.each_spec step (PoolAlike.refl pool)
  rw [prepare, if_neg nonempty, ← answered]
  unfold Reading.andThen
  split
  · next commands each => exact ⟨each.symm, kept⟩
  · next e each => exact ⟨each.symm, kept⟩

/-- The commands are those of the groups, each made of the pool as it was at the start. -/
theorem answer_prepare (nonempty : refs ≠ []) :
    (b.prepare pool refs).answer = (cut (b.batchSize refs.length) refs).mapM
      (Command.ofGroup b.separator b.config.timeout? pool) :=
  (b.prepare_spec nonempty).1

theorem failure?_ofGroup (pool : Vector Statement n) (group : List (Fin n)) :
    failure? (Command.ofGroup b.separator b.config.timeout? pool group) =
      group.findSome? fun i => failure? (pool.get i).read.answer := by
  rw [Command.ofGroup, failure?_map, failure?_mapM]

/-- A preparation fails as the first of its statements that cannot be written does. -/
theorem failure?_prepare (nonempty : refs ≠ []) :
    failure? (b.prepare pool refs).answer =
      refs.findSome? fun i => failure? (pool.get i).read.answer := by
  simp only [b.answer_prepare nonempty, failure?_mapM, failure?_ofGroup]
  rw [← findSome?_flatten, flatten_cut]

/-- A statement fails to be read just when it is invalid. -/
theorem failure?_read_eq_none_iff {s : Statement} :
    failure? s.read.answer = none ↔ s.isValid = true := by
  cases valid : s.isValid with
  | false => simp [Statement.answer_read_of_invalid valid, failure?]
  | true =>
    obtain ⟨text, answered⟩ := Statement.exists_answer_read valid
    simp [answered, failure?]

theorem refused_iff (nonempty : refs ≠ []) {e : Error} :
    Refused pool refs e ↔
      (refs.findSome? fun i => failure? (pool.get i).read.answer) = some e := by
  rw [List.findSome?_eq_some_iff]
  constructor
  · rintro (_ | ⟨written, invalid, answered⟩)
    · exact absurd rfl nonempty
    · exact ⟨_, _, _, rfl, failure?_eq_some_iff.mpr answered,
        fun j member => failure?_read_eq_none_iff.mpr (written j member)⟩
  · rintro ⟨before, i, after, rfl, failed, written⟩
    have invalid : (pool.get i).isValid = false := by
      rw [← Bool.not_eq_true, ← failure?_read_eq_none_iff, failed]
      simp
    exact .statement (fun j member => failure?_read_eq_none_iff.mp (written j member)) invalid
      (failure?_eq_some_iff.mp failed)

theorem refused_nil_iff {e : Error} : Refused pool [] e ↔ e = .noStatements := by
  constructor
  · generalize empty : ([] : List (Fin n)) = refs
    rintro (_ | _)
    · rfl
    · simp at empty
  · rintro rfl
    exact .nothing

/-- A preparation is refused for the stated reasons and for no others. -/
theorem prepare_eq_error_iff {e : Error} :
    (b.prepare pool refs).answer = .error e ↔ Refused pool refs e := by
  by_cases empty : refs = []
  · subst empty
    have answered : (b.prepare pool []).answer = .error .noStatements := rfl
    rw [answered, refused_nil_iff, Except.error.injEq, eq_comm]
  · rw [← failure?_eq_some_iff, b.failure?_prepare empty, refused_iff empty]

/-- Statements are refused when there are none or one of them is invalid. -/
theorem exists_refused_iff :
    (∃ e, Refused pool refs e) ↔ refs = [] ∨ ∃ i ∈ refs, (pool.get i).isValid = false := by
  by_cases empty : refs = []
  · simp [empty, refused_nil_iff]
  · simp only [refused_iff empty, empty, false_or, ← Option.isSome_iff_exists,
      List.findSome?_isSome_iff]
    refine exists_congr fun i => and_congr_right fun _ => ?_
    rw [← Option.ne_none_iff_isSome, ne_eq, failure?_read_eq_none_iff, Bool.not_eq_true]

variable {b}

/-- What is read of a group is a command made of that group. -/
theorem makes_of_ofGroup {group : List (Fin n)} {c : Command}
    (made : Command.ofGroup b.separator b.config.timeout? pool group = .ok c) :
    b.Makes pool group c := by
  unfold Command.ofGroup at made
  cases read : group.mapM fun i => (pool.get i).read.answer with
  | error e =>
    rw [read] at made
    cases made
  | ok texts =>
    rw [read] at made
    obtain rfl := Except.ok.inj made
    refine ⟨⟨texts, mapM_eq_ok_iff.mp read, rfl⟩, ?_, rfl, rfl⟩
    rw [ParamList.toList_unions, List.flatMap_map]

/-- The command of one statement holds its text and its parameters. -/
theorem Makes.single {i : Fin n} {c : Command} (made : b.Makes pool [i] c) :
    c.isBindable = true ∧ (pool.get i).read.answer = .ok c.text ∧
      c.params = (pool.get i).params := by
  obtain ⟨⟨texts, written, joined⟩, params, -, statements⟩ := made
  obtain ⟨text, rest, answered, others, rfl⟩ := List.forall₂_cons_left_iff.mp written
  obtain rfl := List.forall₂_nil_left_iff.mp others
  refine ⟨by simp [Command.isBindable, statements], ?_, ParamList.ext ?_⟩
  · rw [answered, joined, String.intercalate_singleton]
  · rw [params, List.flatMap_singleton, ← ParamList.toList_ofList, ParamList.ofList_toList]

/-- Statements that can all be written are prepared as commands, each made of its own group. -/
theorem exists_prepare (b : Batcher) (nonempty : refs ≠ [])
    (valid : ∀ i ∈ refs, (pool.get i).isValid = true) :
    ∃ commands, (b.prepare pool refs).answer = .ok commands ∧
      List.Forall₂ (b.Makes pool) (cut (b.batchSize refs.length) refs) commands := by
  cases prepared : (b.prepare pool refs).answer with
  | error e =>
    have refused := exists_refused_iff.mp ⟨e, b.prepare_eq_error_iff.mp prepared⟩
    obtain ⟨i, member, invalid⟩ := refused.resolve_left nonempty
    exact absurd (valid i member) (Bool.eq_false_iff.mp invalid)
  | ok commands =>
    rw [b.answer_prepare nonempty] at prepared
    exact ⟨commands, rfl, (mapM_eq_ok_iff.mp prepared).imp fun group c => makes_of_ofGroup⟩

/-- Preparing never cuts into groups of no statements. It is refused exactly when there are no
statements or one of them is invalid, with an error that does not depend on where the statements are
cut. Otherwise every command is made of its own group of statements. There is one group when their
number has no bound, and one for each statement when the bound is one. -/
theorem prepare_partitions (b : Batcher) (pool : Vector Statement n) (refs : List (Fin n)) :
    (refs ≠ [] → 0 < b.batchSize refs.length) ∧
      (∀ e, (b.prepare pool refs).answer = .error e ↔ Refused pool refs e) ∧
      ((∃ e, Refused pool refs e) ↔ refs = [] ∨ ∃ i ∈ refs, (pool.get i).isValid = false) ∧
      Error.noStatements.kind = .invalidArgument ∧
      (refs ≠ [] → (∀ i ∈ refs, (pool.get i).isValid = true) →
        ∃ commands groups, (b.prepare pool refs).answer = .ok commands ∧
          Grouped (b.batchSize refs.length) refs groups ∧
          List.Forall₂ (b.Makes pool) groups commands ∧
          (b.config.maxBatchSize? = none → groups = [refs]) ∧
          (b.config.maxBatchSize? = some 1 →
            List.Forall₂ (fun i c => c.isBindable = true ∧ (pool.get i).read.answer = .ok c.text ∧
              c.params = (pool.get i).params) refs commands)) := by
  refine ⟨b.batchSize_pos, fun e => b.prepare_eq_error_iff, exists_refused_iff, rfl, ?_⟩
  intro nonempty valid
  obtain ⟨commands, prepared, made⟩ := b.exists_prepare nonempty valid
  refine ⟨commands, _, prepared, grouped_cut (b.batchSize_pos nonempty) refs, made, ?_, ?_⟩
  · intro unbounded
    rw [batchSize, unbounded]
    exact cut_length nonempty
  · intro single
    have one : b.batchSize refs.length = 1 := by
      rw [batchSize, single]
      rfl
    rw [one, cut_one, List.forall₂_map_left_iff] at made
    exact made.imp fun i c => Makes.single

/-- A statement can be listed twice, in one group or in several. -/
theorem prepare_partitions_repeated :
    let b : Batcher := ⟨{ maxBatchSize? := some 2 }, "; ", by decide⟩
    let pool : Vector Statement 2 :=
      #v[.verbatim ⟨"SELECT ?", .ofList [.placeholder 0], by decide⟩,
        .verbatim ⟨"SELECT 1", ∅, by decide⟩]
    let refs : List (Fin 2) := [0, 1, 0]
    refs ≠ [] ∧ (∀ i ∈ refs, (pool.get i).isValid = true) ∧
      ∃ commands groups, (b.prepare pool refs).answer = .ok commands ∧
        Grouped 2 refs groups ∧ List.Forall₂ (b.Makes pool) groups commands := by
  intro b pool refs
  have nonempty : refs ≠ [] := by decide
  have valid : ∀ i ∈ refs, (pool.get i).isValid = true := by decide
  obtain ⟨-, -, -, -, prepared⟩ := prepare_partitions b pool refs
  obtain ⟨commands, groups, answered, grouped, made, -, -⟩ := prepared nonempty valid
  exact ⟨nonempty, valid, commands, groups, answered, grouped, made⟩

end Batcher

end Pool

end SqlBuilder
