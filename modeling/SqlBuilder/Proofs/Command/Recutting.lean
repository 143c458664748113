import SqlBuilder.Proofs.Command.Batching

/-! # Cutting statements elsewhere

The number of statements a command may hold decides where a list of statements is cut, and nothing
else. Put together again, commands amount to the texts of all listed statements with separators
between them, to their parameters in the order of first occurrence, and to as many statements as
were listed. A separator stands between two commands just where the cut took one out, and repeated
parameters can be dropped inside every command first and across the commands afterwards.

What the statements remember of an earlier run does not matter either, so a second batcher may work
on the pool that a first one has left behind.
-/

namespace SqlBuilder

/-- Joining groups of texts and then what they were joined to is joining all texts at once. -/
theorem intercalate_flatten (separator : String) {groups : List (List String)}
    (nonempty : ∀ group ∈ groups, group ≠ []) :
    separator.intercalate (groups.map separator.intercalate) =
      separator.intercalate groups.flatten := by
  induction groups with
  | nil => rfl
  | cons group rest ih =>
    have here := nonempty group (List.mem_cons_self ..)
    have there := ih fun other member => nonempty other (List.mem_cons_of_mem group member)
    cases rest with
    | nil => simp
    | cons next rest =>
      have more : (next :: rest).flatten ≠ [] := by simp [nonempty next (by simp)]
      calc
        separator.intercalate ((group :: next :: rest).map separator.intercalate) =
            separator.intercalate group ++ separator ++
              separator.intercalate (next :: rest).flatten := by
          rw [List.map_cons, String.intercalate_cons_of_ne_nil (by simp), there]
        _ = separator.intercalate (group ++ (next :: rest).flatten) :=
          (String.intercalate_append_of_ne_nil here more).symm

/-- Dropping repeated parameters in every group and then between the groups is dropping them at
once. -/
theorem ParamList.unions_flatten (groups : List (List ParamList)) :
    unions (groups.map unions) = unions groups.flatten := by
  have listed (ls : List ParamList) : unions ls = ofList (ls.flatMap toList) :=
    ext (by rw [toList_unions, toList_ofList])
  calc
    unions (groups.map unions) = unions ((groups.map (List.flatMap toList)).map ofList) := by
      rw [List.map_map]
      exact congrArg unions (List.map_congr_left fun ls _ => listed ls)
    _ = ofList (groups.flatten.flatMap toList) := by
      rw [unions_map_ofList, List.flatMap_def, List.map_flatten, List.flatten_flatten, List.map_map]
      rfl
    _ = unions groups.flatten := (listed _).symm

namespace Command

def joined (separator : String) (commands : List Command) : String :=
  separator.intercalate (commands.map text)

/-- The parameters of commands, merged from the first command to the last. -/
def merged (commands : List Command) : ParamList := commands.foldl (fun all c => all ∪ c.params) ∅

def total (commands : List Command) : Nat := commands.foldr (fun c rest => c.statements + rest) 0

theorem merged_eq_unions (commands : List Command) :
    merged commands = .unions (commands.map params) := by
  rw [merged, ParamList.unions, List.foldl_map]
  rfl

end Command

namespace Batcher

variable {n : Nat} {b : Batcher} {pool other : Vector Statement n} {refs : List (Fin n)}
  {groups : List (List (Fin n))} {commands : List Command}

/-- Commands that are made of groups join to what the statements of all groups read as. -/
theorem exists_joined (made : List.Forall₂ (b.Makes pool) groups commands)
    (nonempty : ∀ group ∈ groups, group ≠ []) :
    ∃ texts, List.Forall₂ (fun i text => (pool.get i).read.answer = .ok text)
        groups.flatten texts ∧
      Command.joined b.separator commands = b.separator.intercalate texts := by
  -- The texts are kept in their groups first, none of which is empty.
  have grouped : ∃ parts : List (List String), (∀ part ∈ parts, part ≠ []) ∧
      List.Forall₂ (fun i text => (pool.get i).read.answer = .ok text)
        groups.flatten parts.flatten ∧
      commands.map Command.text = parts.map b.separator.intercalate := by
    induction made with
    | nil => exact ⟨[], by simp, .nil, rfl⟩
    | @cons group c groups commands makes _ ih =>
      obtain ⟨part, read, text⟩ := makes.text
      obtain ⟨parts, filled, others, same⟩ := ih fun other member =>
        nonempty other (List.mem_cons_of_mem group member)
      have written : part ≠ [] := by
        rintro rfl
        exact nonempty group (List.mem_cons_self ..) (List.forall₂_nil_right_iff.mp read)
      exact ⟨part :: parts, List.forall_mem_cons.mpr ⟨written, filled⟩,
        List.rel_append read others, by rw [List.map_cons, List.map_cons, text, same]⟩
  obtain ⟨parts, filled, read, same⟩ := grouped
  exact ⟨parts.flatten, read, by rw [Command.joined, same, intercalate_flatten _ filled]⟩

/-- However the statements are grouped, the commands have their parameters between them, merged in
the order of the statements. -/
theorem merged_eq (made : List.Forall₂ (b.Makes pool) groups commands) :
    Command.merged commands = .unions (groups.flatten.map fun i => (pool.get i).params) := by
  have each : commands.map Command.params =
      (groups.map (List.map fun i => (pool.get i).params)).map ParamList.unions := by
    induction made with
    | nil => rfl
    | cons makes _ ih =>
      have own : _ = ParamList.unions _ := ParamList.ext (makes.params.trans
        (by rw [ParamList.toList_unions, List.flatMap_map]))
      rw [List.map_cons, List.map_cons, List.map_cons, ih, own]
  rw [Command.merged_eq_unions, each, ParamList.unions_flatten, List.map_flatten]

/-- However the statements are grouped, the commands count each of them once. -/
theorem total_eq (made : List.Forall₂ (b.Makes pool) groups commands) :
    Command.total commands = groups.flatten.length := by
  induction made with
  | nil => rfl
  | cons makes _ ih =>
    rw [Command.total] at ih ⊢
    rw [List.foldr_cons, makes.statements, ih, List.flatten_cons, List.length_append]

/-- What the statements of a pool remember does not change what is prepared of them. -/
theorem answer_prepare_congr (b : Batcher) (alike : PoolAlike other pool) :
    (b.prepare other refs).answer = (b.prepare pool refs).answer := by
  by_cases empty : refs = []
  · rw [prepare, prepare, if_pos empty, if_pos empty]
  · have same : Command.ofGroup b.separator b.config.timeout? other =
        Command.ofGroup b.separator b.config.timeout? pool := by
      funext group
      simp only [Command.ofGroup, (alike _).answer, (alike _).params]
    rw [b.answer_prepare empty, b.answer_prepare empty, same]

/-- Preparing commands cannot be noticed afterwards. -/
theorem poolAlike_prepare (b : Batcher) (pool : Vector Statement n) (refs : List (Fin n)) :
    PoolAlike (b.prepare pool refs).state pool := by
  by_cases empty : refs = []
  · rw [prepare, if_pos empty]
    exact PoolAlike.refl pool
  · exact (b.prepare_spec empty).2

/-- Two batchers that write the same separator prepare the same, however many statements they put
into a command, and whether or not one of them has worked on the pool before. Put together again,
the commands of both have the texts of the listed statements, all their parameters in the order of
first occurrence, and the number of the statements. -/
theorem prepare_recut {b c : Batcher} (same : b.separator = c.separator) (nonempty : refs ≠ [])
    (valid : ∀ i ∈ refs, (pool.get i).isValid = true) :
    ∃ commands others texts, (b.prepare pool refs).answer = .ok commands ∧
      (c.prepare pool refs).answer = .ok others ∧
      (c.prepare (b.prepare pool refs).state refs).answer = .ok others ∧
      List.Forall₂ (fun i text => (pool.get i).read.answer = .ok text) refs texts ∧
      Command.joined b.separator commands = Command.joined b.separator others ∧
      Command.joined b.separator others = b.separator.intercalate texts ∧
      Command.merged commands = Command.merged others ∧
      Command.merged others = .unions (refs.map fun i => (pool.get i).params) ∧
      Command.total commands = refs.length ∧ Command.total others = refs.length := by
  have unique : Relator.RightUnique fun (i : Fin n) text =>
      (pool.get i).read.answer = .ok text := fun i text text' first second =>
    Except.ok.inj (first.symm.trans second)
  have amount (b : Batcher) : ∃ commands texts, (b.prepare pool refs).answer = .ok commands ∧
      List.Forall₂ (fun i text => (pool.get i).read.answer = .ok text) refs texts ∧
      Command.joined b.separator commands = b.separator.intercalate texts ∧
      Command.merged commands = .unions (refs.map fun i => (pool.get i).params) ∧
      Command.total commands = refs.length := by
    obtain ⟨commands, prepared, made⟩ := b.exists_prepare nonempty valid
    obtain ⟨texts, read, joined⟩ := exists_joined made fun group => ne_nil_of_mem_cut
    have merged := merged_eq made
    have total := total_eq made
    rw [flatten_cut] at read merged total
    exact ⟨commands, texts, prepared, read, joined, merged, total⟩
  obtain ⟨commands, texts, prepared, read, joined, merged, total⟩ := amount b
  obtain ⟨others, texts', prepared', read', joined', merged', total'⟩ := amount c
  obtain rfl := List.right_unique_forall₂' unique read read'
  rw [← same] at joined'
  refine ⟨commands, others, texts, prepared, prepared', ?_, read, joined.trans joined'.symm,
    joined', merged.trans merged'.symm, merged', total, total'⟩
  rw [c.answer_prepare_congr (b.poolAlike_prepare pool refs), prepared']

/-- Commands of two statements and a single command, with a parameter in the first and in the last
statement and a separator of several characters. -/
theorem prepare_recut_shared :
    let b : Batcher := ⟨{ maxBatchSize? := some 2 }, " ; ", by decide⟩
    let c : Batcher := ⟨{ separator := "," }, " ; ", by decide⟩
    let pool : Vector Statement 2 :=
      #v[.verbatim ⟨"SELECT ?", .ofList [.placeholder 0], by decide⟩,
        .verbatim ⟨"SELECT 1", .ofList [.placeholder 1], by decide⟩]
    let refs : List (Fin 2) := [0, 1, 0]
    b.separator = c.separator ∧ refs ≠ [] ∧ (∀ i ∈ refs, (pool.get i).isValid = true) ∧
      ∃ commands others, (b.prepare pool refs).answer = .ok commands ∧
        (c.prepare pool refs).answer = .ok others ∧
        Command.joined b.separator commands = Command.joined b.separator others ∧
        Command.merged commands = Command.merged others ∧
        Command.total commands = 3 ∧ Command.total others = 3 := by
  intro b c pool refs
  have same : b.separator = c.separator := rfl
  have nonempty : refs ≠ [] := by decide
  have valid : ∀ i ∈ refs, (pool.get i).isValid = true := by decide
  obtain ⟨commands, others, -, prepared, prepared', -, -, joined, -, merged, -, total, total'⟩ :=
    prepare_recut same nonempty valid
  exact ⟨same, nonempty, valid, commands, others, prepared, prepared', joined, merged, total,
    total'⟩

end Batcher

end SqlBuilder
