import SqlBuilder.Expr.List
import SqlBuilder.Proofs.Param.Union

/-! # What lists of expressions took and gave back

The expressions of a list and its parameters have different lives: an expression goes when it is
removed, its parameters stay until the list is cleared. A journal beside the list keeps both apart.
It records which expressions were taken and which were dropped since the list was last cleared, and
both halves of the list can be read off it: the expressions are those taken, less the first of its
text for each one dropped, and the parameters are those of all that were taken.
-/

namespace SqlBuilder

namespace ExprList

/-- The expressions a list took since it was last cleared, and those it dropped again. -/
structure Journal where
  taken : List Expr := []
  dropped : List Expr := []
  deriving DecidableEq

/-- Takes the first expression of the same text out. -/
def without (es : List Expr) (e : Expr) : List Expr := es.eraseP fun held => held.text == e.text

namespace Journal

/-- What is left of the expressions that were taken: for each one dropped, the first of its text is
gone. -/
def left (j : Journal) : List Expr := j.dropped.foldl without j.taken

/-- Whether one of the expressions that are left has the text of the given one. -/
def Holds (j : Journal) (e : Expr) : Prop := ∃ held ∈ j.left, held.Alike e

instance (j : Journal) (e : Expr) : Decidable (j.Holds e) :=
  inferInstanceAs (Decidable (∃ held ∈ j.left, held.Alike e))

/-- An expression is offered to the list. It is taken unless its text is there already and the list
refuses repeated texts. -/
def offer (repeats : Repeats) (j : Journal) (e : Expr) : Journal :=
  if repeats = .refused ∧ j.Holds e then j else { j with taken := j.taken ++ [e] }

/-- An expression is asked back. It is dropped if its text is there. -/
def withdraw (j : Journal) (e : Expr) : Journal :=
  if j.Holds e then { j with dropped := j.dropped ++ [e] } else j

def record (repeats : Repeats) (j : Journal) : Edit → Journal
  | .push e => j.offer repeats e
  | .pushAll es => (es.filterMap id).foldl (offer repeats) j
  | .erase e => j.withdraw e
  | .clear => {}

end Journal

variable {repeats : Repeats} {l : ExprList repeats} {j : Journal}

/-! ### Dropping from a longer list -/

/-- Everything that is dropped is there to be dropped. -/
def Hits (taken : List Expr) : List Expr → Prop
  | [] => True
  | e :: dropped => (∃ held ∈ taken, held.Alike e) ∧ Hits (without taken e) dropped

theorem without_append {taken : List Expr} {e : Expr} (found : ∃ held ∈ taken, held.Alike e)
    (more : List Expr) : without (taken ++ more) e = without taken e ++ more := by
  obtain ⟨held, member, alike⟩ := found
  have same : (held.text == e.text) = true := beq_iff_eq.mpr alike
  exact List.eraseP_append_left (a := held) same more member

/-- What is taken later is behind everything that was dropped. -/
theorem Hits.append {taken dropped : List Expr} (hits : Hits taken dropped) (more : List Expr) :
    Hits (taken ++ more) dropped ∧
      dropped.foldl without (taken ++ more) = dropped.foldl without taken ++ more := by
  induction dropped generalizing taken with
  | nil => exact ⟨trivial, rfl⟩
  | cons e dropped ih =>
    obtain ⟨found, rest⟩ := hits
    obtain ⟨held, member, alike⟩ := found
    obtain ⟨kept, same⟩ := ih rest
    have first := without_append ⟨held, member, alike⟩ more
    refine ⟨⟨⟨held, List.mem_append_left more member, alike⟩, ?_⟩, ?_⟩
    · rwa [first]
    · rw [List.foldl_cons, first, same, List.foldl_cons]

theorem Hits.drop {taken dropped : List Expr} {e : Expr} (hits : Hits taken dropped)
    (found : ∃ held ∈ dropped.foldl without taken, held.Alike e) :
    Hits taken (dropped ++ [e]) := by
  induction dropped generalizing taken with
  | nil => exact ⟨found, trivial⟩
  | cons first dropped ih => exact ⟨hits.1, ih hits.2 found⟩

/-! ### The journal is kept -/

theorem contains_eq_true_iff {e : Expr} :
    l.contains e = true ↔ ∃ held ∈ l.items, held.Alike e := by
  simp [contains, Expr.Alike]

/-- Only a text that is there already is refused, and only under the policy that refuses it. -/
theorem accepts_eq_false_iff {e : Expr} :
    l.accepts e = false ↔ repeats = .refused ∧ l.contains e = true := by
  cases repeats <;> simp [accepts]

/-- A list has the expressions and the parameters that its journal says. Under the policy that
refuses repeated texts it has each text once. -/
structure Kept (l : ExprList repeats) (j : Journal) : Prop where
  hits : Hits j.taken j.dropped
  items : l.items = j.left
  params : l.params = .ofList (j.taken.flatMap fun e => e.params.toList)
  distinct : repeats = .refused → (l.items.map Expr.text).Nodup

theorem kept_empty : Kept (empty : ExprList repeats) {} :=
  ⟨trivial, rfl, rfl, fun _ => List.nodup_nil⟩

/-- The list holds a text exactly when its journal does. -/
theorem Kept.contains_iff (kept : l.Kept j) {e : Expr} : l.contains e = true ↔ j.Holds e := by
  rw [contains_eq_true_iff, kept.items, Journal.Holds]

/-- To add to the list is to offer to its journal. -/
theorem Kept.push (kept : l.Kept j) (e : Expr) : (l.push e).Kept (j.offer repeats e) := by
  have refused : l.accepts e = false ↔ repeats = .refused ∧ j.Holds e := by
    rw [accepts_eq_false_iff, kept.contains_iff]
  cases accepted : l.accepts e with
  | false =>
    have same : l.push e = l := by simp [ExprList.push, accepted]
    rwa [same, Journal.offer, if_pos (refused.mp accepted)]
  | true =>
    have taken : ¬(repeats = .refused ∧ j.Holds e) := by simp [← refused, accepted]
    obtain ⟨hits, left⟩ := kept.hits.append [e]
    rw [ExprList.push, if_pos accepted, Journal.offer, if_neg taken]
    refine ⟨hits, ?_, ?_, ?_⟩
    · rw [Journal.left, left, kept.items, Journal.left]
    · rw [kept.params, List.flatMap_append, ParamList.ofList_append, List.flatMap_singleton,
        ParamList.ofList_toList]
    · intro policy
      have fresh : e.text ∉ l.items.map Expr.text := by
        intro member
        obtain ⟨held, member, same⟩ := List.mem_map.mp member
        exact taken ⟨policy,
          kept.contains_iff.mp (contains_eq_true_iff.mpr ⟨held, member, same⟩)⟩
      rw [List.map_append, List.nodup_append]
      refine ⟨kept.distinct policy, by simp, ?_⟩
      intro text held other added same
      rw [List.map_singleton, List.mem_singleton] at added
      exact fresh (added ▸ same ▸ held)

theorem Kept.pushAll (kept : l.Kept j) (es : List Expr) :
    (l.pushAll es).2.Kept (es.foldl (Journal.offer repeats) j) := by
  induction es generalizing l j with
  | nil => exact kept
  | cons e es ih => exact ih (kept.push e)

/-- To remove from the list is to ask back from its journal. -/
theorem Kept.erase (kept : l.Kept j) (e : Expr) : (l.erase e).Kept (j.withdraw e) := by
  have fewer : (l.erase e).items.Sublist l.items := List.eraseP_sublist
  have distinct : repeats = .refused → ((l.erase e).items.map Expr.text).Nodup := fun policy =>
    (fewer.map Expr.text).nodup (kept.distinct policy)
  by_cases found : j.Holds e
  · rw [Journal.withdraw, if_pos found]
    refine ⟨kept.hits.drop found, ?_, kept.params, distinct⟩
    change (l.erase e).items = (j.dropped ++ [e]).foldl without j.taken
    rw [List.foldl_append, ← Journal.left, ← kept.items]
    rfl
  · have absent : ∀ held ∈ l.items, ¬(held.text == e.text) = true := by
      intro held member same
      exact found (kept.contains_iff.mp
        (contains_eq_true_iff.mpr ⟨held, member, eq_of_beq same⟩))
    have same : (l.erase e).items = l.items := List.eraseP_of_forall_not absent
    rw [Journal.withdraw, if_neg found]
    exact ⟨kept.hits, same.trans kept.items, kept.params, distinct⟩

/-- A change of the list keeps it as its journal says, once the change is recorded. -/
theorem Kept.apply (kept : l.Kept j) (change : Edit) :
    (apply change l).2.Kept (j.record repeats change) := by
  cases change with
  | push e => exact kept.push e
  | pushAll es => exact kept.pushAll _
  | erase e => exact kept.erase e
  | clear => exact kept_empty

/-! ### Answers -/

/-- What is added when several expressions are pushed is as many of them as the count says, in
their order. -/
theorem exists_pushAll (l : ExprList repeats) (es : List Expr) :
    ∃ taken, taken.Sublist es ∧ (l.pushAll es).2.items = l.items ++ taken ∧
      (l.pushAll es).1 = taken.length := by
  induction es generalizing l with
  | nil => exact ⟨[], .slnil, by simp [pushAll], rfl⟩
  | cons e es ih =>
    obtain ⟨taken, sublist, items, count⟩ := ih (l.push e)
    by_cases accepted : l.accepts e = true
    · have pushed : (l.push e).items = l.items ++ [e] := by rw [push, if_pos accepted]
      refine ⟨e :: taken, sublist.cons_cons e, ?_, ?_⟩
      · rw [pushAll, items, pushed, List.append_assoc, List.singleton_append]
      · simp [pushAll, count, accepted]
    · have same : l.push e = l := by rw [push, if_neg accepted]
      rw [same] at items count
      refine ⟨taken, sublist.cons e, ?_, ?_⟩
      · rw [pushAll, same, items]
      · simp [pushAll, same, count, accepted]

/-- An answer that says what a change did to a list: whether an expression was added at its end, how
many of those present were, or whether one of the same text was there to be removed. -/
def Tells (before after : ExprList repeats) : Edit → Reply → Prop
  | .push e, .flag taken =>
    (taken = true ↔ after.items = before.items ++ [e]) ∧ (taken = false ↔ after = before)
  | .pushAll es, .count count => ∃ taken, taken.Sublist (es.filterMap id) ∧
    after.items = before.items ++ taken ∧ count = taken.length
  | .erase e, .flag found => found = true ↔ ∃ held ∈ before.items, held.Alike e
  | .clear, .done => after = empty
  | _, _ => False

/-- The answer to a change says what the change did. -/
theorem tells_apply (l : ExprList repeats) (change : Edit) :
    Tells l (apply change l).2 change (apply change l).1 := by
  cases change with
  | push e =>
    have longer : l.items ≠ l.items ++ [e] := by simp
    by_cases accepted : l.accepts e = true
    · have pushed : (l.push e).items = l.items ++ [e] := by rw [push, if_pos accepted]
      have other : l.push e ≠ l := fun same => longer (by rw [← pushed, same])
      simp [Tells, ExprList.apply, accepted, pushed, other]
    · have same : l.push e = l := by rw [push, if_neg accepted]
      simp [Tells, ExprList.apply, accepted, same]
  | pushAll es => exact exists_pushAll l (es.filterMap id)
  | erase e => exact contains_eq_true_iff
  | clear => rfl

/-- A text that was removed is taken again. -/
theorem Kept.accepts_erase (kept : l.Kept j) (e : Expr) : (l.erase e).accepts e = true := by
  refine Bool.not_eq_false _ |>.mp fun refused => ?_
  obtain ⟨policy, still⟩ := accepts_eq_false_iff.mp refused
  obtain ⟨held, member, alike⟩ := contains_eq_true_iff.mp still
  -- The first of its text is gone, and there was no second.
  have texts : (l.erase e).items.map Expr.text = (l.items.map Expr.text).erase e.text := by
    rw [List.erase_eq_eraseP', List.eraseP_map]
    rfl
  have gone : e.text ∉ (l.erase e).items.map Expr.text := by
    rw [texts]
    exact (kept.distinct policy).not_mem_erase
  exact gone (List.mem_map.mpr ⟨held, member, alike⟩)

/-! ### Runs -/

def run (repeats : Repeats) (changes : List Edit) : ExprList repeats :=
  changes.foldl (fun l change => (apply change l).2) empty

/-- The journal of changes of the empty list. -/
def Journal.ofChanges (repeats : Repeats) (changes : List Edit) : Journal :=
  changes.foldl (record repeats) {}

/-- Every list that changes make is as its journal says. -/
theorem kept_run (repeats : Repeats) (changes : List Edit) :
    (run repeats changes).Kept (.ofChanges repeats changes) := by
  have grow {l : ExprList repeats} {j : Journal} (kept : l.Kept j) :
      (changes.foldl (fun l change => (ExprList.apply change l).2) l).Kept
        (changes.foldl (Journal.record repeats) j) := by
    induction changes generalizing l j with
    | nil => exact kept
    | cons change changes ih => exact ih (kept.apply change)
  exact grow kept_empty

/-- Whatever is done to an empty list under either policy, it holds the expressions it took since it
was last cleared, less the first of its text for each one dropped, and the parameters of all that it
took, each at its first occurrence. A list that refuses repeated texts never has one, and takes a
text again that was removed. The answer to the next change says what the change does. -/
theorem run_journal (repeats : Repeats) (changes : List Edit) (next : Edit) :
    let l := run repeats changes
    let j := Journal.ofChanges repeats changes
    l.items = j.left ∧
      l.params.toList = firstOccurrences (j.taken.flatMap fun e => e.params.toList) ∧
      (repeats = .refused → (l.items.map Expr.text).Nodup) ∧
      (∀ e, (apply (.push e) (apply (.erase e) l).2).1 = .flag true) ∧
      Tells l (apply next l).2 next (apply next l).1 := by
  intro l j
  have kept := kept_run repeats changes
  refine ⟨kept.items, ?_, kept.distinct, ?_, tells_apply l next⟩
  · rw [kept.params, ParamList.toList_ofList]
  · exact fun e => congrArg Reply.flag (kept.accepts_erase e)

/-- A text that is pushed twice with different parameters, removed and taken again. -/
theorem run_journal_removed :
    let mention (id : Nat) : Expr := .param (.placeholder id)
    let changes : List Edit := [.push (mention 0),
      .pushAll [none, some (mention 1), some { text := "a" }], .erase (mention 0),
      .push (mention 2), .erase { text := "b" }]
    (run .refused changes).items = [{ text := "a" }, mention 2] ∧
      (run .refused changes).params.toList = [.placeholder 0, .placeholder 2] ∧
      ((run .refused changes).items.map Expr.text).Nodup ∧
      (run .allowed changes).params.toList = [.placeholder 0, .placeholder 1, .placeholder 2] ∧
      (apply (.erase (mention 3)) (run .allowed changes)).1 = .flag true := by
  intro mention changes
  obtain ⟨items, params, distinct, -, -⟩ := run_journal .refused changes .clear
  obtain ⟨-, all, -, -, -⟩ := run_journal .allowed changes .clear
  exact ⟨items.trans (by decide), params.trans (by decide), distinct rfl, all.trans (by decide),
    by decide⟩

end ExprList

end SqlBuilder
