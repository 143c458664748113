import SqlBuilder.Proofs.Clause.Entries
import SqlBuilder.Proofs.Clause.Run
import SqlBuilder.Proofs.Param.Union

/-! # One direction for each key

The keys of an ORDER BY clause are entries under their texts, so they follow the history of the
clause: a key has the direction it was given last, stays where it came in, and is written with its
own direction. What is collected from keys is not looked up by text. A key that is given a
direction again keeps its place, yet the parameters of the expression it was given by are collected
as well.
-/

namespace SqlBuilder

namespace Sorting

/-- What a change does to the keys. -/
def Edit.onKeys : Edit → Entries.Edit SortOrder
  | insert e order => .put e order
  | erase e => .without e
  | clear => .clear

/-- The changes of the keys among all that is done with a clause. -/
def history (actions : List Clause.Action) : List (Entries.Edit SortOrder) :=
  (actions.filterMap Clause.Action.sorting?).map Edit.onKeys

/-- Sort keys are entries that keep a direction under a text. -/
theorem direct_eq_put (e : Expr) (order : SortOrder) (keys : List (Expr × SortOrder)) :
    direct e order keys = Entries.put e order keys := by
  induction keys with
  | nil => rfl
  | cons key rest ih => rw [direct, Entries.put, ih]

theorem keys_apply (change : Edit) (s : Sorting) :
    (apply change s).2.keys = Entries.apply change.onKeys s.keys := by
  cases change with
  | insert e order => exact direct_eq_put e order s.keys
  | erase | clear => rfl

/-- The keys are the entries that the history of changes leaves. -/
theorem keys_afterChanges (changes : List Edit) :
    (afterChanges apply {} changes).keys = Entries.run (changes.map Edit.onKeys) := by
  induction changes using List.reverseRecOn with
  | nil => rfl
  | append_singleton changes change ih =>
    rw [afterChanges_append, keys_apply, ih, List.map_append, List.map_singleton,
      Entries.run_append]

variable {s : Sorting} {e : Expr}

theorem contains_eq_true_iff :
    s.contains e = true ↔ e.text ∈ Entries.texts s.keys := by
  simp [contains, Entries.texts]

/-- An expression is a key exactly if removing it drops a key. -/
theorem contains_iff_erase : s.contains e = true ↔ (s.erase e).keys ≠ s.keys := by
  simp [contains, erase, List.filter_eq_self]

/-- The direction of a key is the one it was given last. -/
theorem direction_eq {changes : List (Entries.Edit SortOrder)}
    (follows : Entries.Follows s.keys changes) (e : Expr) :
    s.direction e = match (Entries.puts e.text changes).getLast? with
      | some (_, order) => .ok order
      | none => .error (.unsorted e.text) := by
  have latest := follows.latest e.text
  change (match Entries.lookup? e.text s.keys with
    | some (_, order) => Except.ok order
    | none => Except.error (Error.unsorted e.text)) = _
  cases held : Entries.lookup? e.text s.keys <;>
    cases put : (Entries.puts e.text changes).getLast? <;> simp_all

/-- Whatever is done with an ORDER BY clause, its keys follow the history, and it reads as they
render. -/
theorem exists_run (actions : List Clause.Action) :
    ∃ c : Cached Sorting, (Clause.sorting { content := {} }).run actions = .sorting c ∧
      Entries.Follows c.content.keys (history actions) ∧
      (Clause.sorting c).text = .ok c.content.render := by
  obtain ⟨c, reached, content⟩ := Clause.exists_run_sorting { content := {} } actions
  refine ⟨c, reached, ?_, (Clause.coherent_of_run rfl reached).text_eq⟩
  rw [content, keys_afterChanges]
  exact Entries.follows_run _

/-- After any changes and reads of an ORDER BY clause no two keys have the same text. The direction
of an expression is the one it was given last since its text was last removed or the clause cleared,
and is not found when there was none since. Keys stand in the order in which they first came in
since then, with the expressions they came in as. Removing an expression answers whether a key was
dropped. With keys the clause reads as each of them with its own direction. -/
theorem keys_follow_history (actions : List Clause.Action) :
    ∃ c : Cached Sorting, (Clause.sorting { content := {} }).run actions = .sorting c ∧
      let s := c.content
      let changes := history actions
      (s.keys.map fun key => key.1.text).Nodup ∧
      (∀ e, s.direction e = match (Entries.puts e.text changes).getLast? with
        | some (_, order) => .ok order
        | none => .error (.unsorted e.text)) ∧
      (∀ text, (Error.unsorted text).kind = .notFound) ∧
      (∀ key ∈ s.keys, (Entries.puts key.1.text changes).head?.map Prod.fst = some key.1 ∧
        s.direction key.1 = .ok key.2) ∧
      (s.keys.Pairwise fun key later =>
        Entries.firstPut key.1.text changes < Entries.firstPut later.1.text changes) ∧
      (∀ e, ∃ removed d,
        (Clause.sorting c).change? (.sorting (.erase e)) =
          some (.ok (.flag removed), .sorting d) ∧
        (removed = true ↔ d.content.keys ≠ s.keys)) ∧
      (s.keys ≠ [] → (Clause.sorting c).text = .ok ("ORDER BY " ++ ", ".intercalate
        (s.keys.map fun key => "(" ++ key.1.reference ++ ") " ++ key.2.keyword))) := by
  obtain ⟨c, reached, follows, text⟩ := exists_run actions
  refine ⟨c, reached, follows.distinct, direction_eq follows, fun _ => rfl, fun key member => ?_,
    follows.in_order, fun e => ⟨_, _, rfl, contains_iff_erase⟩, fun some => ?_⟩
  · have latest := follows.latest_of_mem member
    refine ⟨follows.first_of_mem member, ?_⟩
    rw [direction_eq follows]
    cases put : (Entries.puts key.1.text (history actions)).getLast? <;> simp_all
  · rw [text, render, isAvailable, List.isEmpty_eq_false_iff.mpr some]
    rfl

/-- A key that is sorted the other way keeps its place; one that was removed comes back last. -/
theorem keys_follow_history_returned :
    let key (name : String) : Expr := { text := name }
    let insert (name : String) (order : SortOrder) : Clause.Action :=
      .change (.sorting (.insert (key name) order))
    let actions := [insert "a" .ascending, insert "b" .descending, .read, insert "a" .descending,
      .change (.sorting (.erase (key "b"))), insert "c" .ascending, insert "b" .ascending]
    ∃ c : Cached Sorting, (Clause.sorting { content := {} }).run actions = .sorting c ∧
      c.content.keys = [(key "a", .descending), (key "c", .ascending), (key "b", .ascending)] ∧
      c.content.direction (key "b") = .ok .ascending ∧
      c.content.direction (key "d") = .error (.unsorted "d") ∧
      (Clause.sorting c).text = .ok "ORDER BY (a) DESC, (c) ASC, (b) ASC" := by
  intro key insert actions
  obtain ⟨c, reached, -, direction, -, -, -, -, text⟩ := keys_follow_history actions
  have keys : c.content.keys =
      [(key "a", .descending), (key "c", .ascending), (key "b", .ascending)] := by
    cases reached
    rfl
  refine ⟨c, reached, keys, direction _, direction _, ?_⟩
  rw [text (by simp [keys]), keys]
  rfl

/-- Giving a direction again to an expression that is a key already, whatever was done with the
clause before, changes the direction of this key and of no other, and leaves all keys in their
places. Those parameters of the expression that the clause has not collected are added behind the
others, so the parameters stay the same exactly if the expression brings none that are new. -/
theorem insert_held (actions : List Clause.Action) :
    ∃ c : Cached Sorting, (Clause.sorting { content := {} }).run actions = .sorting c ∧
      ∀ e order, c.content.contains e = true →
        ∃ d, (Clause.sorting c).change? (.sorting (.insert e order)) =
            some (.ok .done, .sorting d) ∧
          d.content.keys = (c.content.keys.map fun key =>
            if key.1.text = e.text then (key.1, order) else key) ∧
          d.content.params.toList = c.content.params.toList ++
            e.params.toList.filter (fun p => !c.content.params.contains p) ∧
          (d.content.params = c.content.params ↔
            ∀ p ∈ e.params.toList, c.content.params.contains p = true) := by
  obtain ⟨c, reached, follows, -⟩ := exists_run actions
  refine ⟨c, reached, fun e order held => ⟨_, rfl, ?_, ParamList.toList_union _ _,
    ParamList.union_eq_left_iff⟩⟩
  exact (direct_eq_put e order c.content.keys).trans
    (Entries.put_of_mem follows.distinct (contains_eq_true_iff.mp held) order)

/-- A key is given a direction by an expression of its text that mentions another parameter. -/
theorem insert_held_unseen :
    let key (id : Nat) : Expr := .param (.placeholder id)
    let actions : List Clause.Action :=
      [.change (.sorting (.insert (key 0) .ascending)), .read]
    ∃ c : Cached Sorting, (Clause.sorting { content := {} }).run actions = .sorting c ∧
      c.content.contains (key 1) = true ∧
      ∃ d, (Clause.sorting c).change? (.sorting (.insert (key 1) .descending)) =
          some (.ok .done, .sorting d) ∧
        d.content.keys = [(key 0, .descending)] ∧
        d.content.params.toList = [.placeholder 0, .placeholder 1] := by
  intro key actions
  obtain ⟨c, reached, again⟩ := insert_held actions
  have keys : c.content = ⟨[(key 0, .ascending)], (key 0).params⟩ := by
    cases reached
    rfl
  have held : c.content.contains (key 1) = true := by
    rw [keys]
    rfl
  obtain ⟨d, changed, listed, params, -⟩ := again (key 1) .descending held
  refine ⟨c, reached, held, d, changed, ?_, ?_⟩
  · rw [listed, keys]
    rfl
  · rw [params, keys]
    rfl

/-- Giving a direction again does not always leave the parameters of a clause the same: those of the
expression are collected before it is compared with the keys. -/
theorem not_forall_insert_held_params :
    ¬∀ (actions : List Clause.Action) (c d : Cached Sorting) (e : Expr) (order : SortOrder),
      (Clause.sorting { content := {} }).run actions = .sorting c →
      c.content.contains e = true →
      (Clause.sorting c).change? (.sorting (.insert e order)) = some (.ok .done, .sorting d) →
      d.content.params = c.content.params := by
  intro same
  let key (id : Nat) : Expr := .param (.placeholder id)
  let actions : List Clause.Action := [.change (.sorting (.insert (key 0) .ascending))]
  have equal := same actions _ _ (key 1) .descending rfl rfl rfl
  exact absurd equal (by decide)

end Sorting

end SqlBuilder
