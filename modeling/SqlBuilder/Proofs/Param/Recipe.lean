import SqlBuilder.Proofs.Param.Union

/-! # How a parameter list comes about

Lists are collected from parameters, grow by single parameters, by several or by another list, and
are cleared. A recipe is any way of doing this, in which the other lists have recipes of their own.
Whatever the recipe, the list holds what was pushed on it since it was last cleared, every parameter
at its first occurrence. So nothing but the order of the pushes counts, and lists can be merged in
whichever grouping suits.
-/

namespace SqlBuilder

namespace ParamList

/-- The parameters of a list are pairwise different. -/
theorem pairwise_not_same (l : ParamList) : l.toList.Pairwise fun p q => ¬p.Same q :=
  List.pairwise_map.mp l.nodup

/-- The position of a parameter is the one place where the list has it. -/
theorem position?_eq_some_iff {l : ParamList} {p : Param} {i : Nat} :
    l.position? p = some i ↔ ∃ q, l.get? i = some q ∧ q.Same p := by
  rw [position?, List.findIdx?_eq_some_iff_getElem, get?]
  constructor
  · rintro ⟨inside, same, -⟩
    exact ⟨l.toList[i], List.getElem?_eq_getElem inside, eq_of_beq same⟩
  · rintro ⟨q, found, same⟩
    obtain ⟨inside, rfl⟩ := List.getElem?_eq_some_iff.mp found
    refine ⟨inside, beq_iff_eq.mpr same, fun j before other => ?_⟩
    have apart : ¬(l.toList[j]).Same l.toList[i] :=
      List.pairwise_iff_getElem.mp l.pairwise_not_same j i (Nat.lt_trans before inside) inside
        before
    exact apart ((eq_of_beq other).trans same.symm)

/-- A way to come to a parameter list. -/
inductive Recipe
  | collected (ps : List Param)
  | pushed (r : Recipe) (p : Param)
  | pushedAll (r : Recipe) (ps : List Param)
  | extended (r other : Recipe)
  | cleared (r : Recipe)

namespace Recipe

/-- The list that a recipe comes to. -/
def list : Recipe → ParamList
  | collected ps => .ofList ps
  | pushed r p => r.list.push p
  | pushedAll r ps => r.list.pushAll ps
  | extended r other => r.list ∪ other.list
  | cleared _ => ∅

/-- Everything that was pushed since the list was last cleared. Extending a list pushes what the
other one holds, which is what was pushed on that one without its repetitions. -/
def pushes : Recipe → List Param
  | collected ps => ps
  | pushed r p => r.pushes ++ [p]
  | pushedAll r ps => r.pushes ++ ps
  | extended r other => r.pushes ++ firstOccurrences other.pushes
  | cleared _ => []

/-- A recipe comes to the list of what it pushes. -/
theorem list_eq_ofList (r : Recipe) : r.list = .ofList r.pushes := by
  induction r with
  | collected ps => rfl
  | pushed r p ih =>
    calc
      (pushed r p).list = (ofList r.pushes).pushAll [p] := by rw [list, ih]; rfl
      _ = ofList (r.pushes ++ [p]) := (pushAll_append ..).symm
  | pushedAll r ps ih =>
    calc
      (pushedAll r ps).list = (ofList r.pushes).pushAll ps := by rw [list, ih]
      _ = ofList (r.pushes ++ ps) := (pushAll_append ..).symm
  | extended r other ih ihOther =>
    calc
      (extended r other).list = (ofList r.pushes).pushAll (ofList other.pushes).toList := by
        rw [list, ih, ihOther]; rfl
      _ = (ofList r.pushes).pushAll (firstOccurrences other.pushes) := by rw [toList_ofList]
      _ = ofList (r.pushes ++ firstOccurrences other.pushes) := (pushAll_append ..).symm
  | cleared r _ => rfl

/-- However a list comes about, its parameters are pairwise different, they are the first
occurrences of what was pushed since it was last cleared, and a parameter has the position at which
it is found. Extending one list by another keeps the first and appends what is new in the second.
This is associative, the empty list is its unit, and a list that is part of another one adds nothing
to it. -/
theorem list_holds_first_pushes (r : Recipe) (a b c : ParamList) :
    (r.list.toList.Pairwise fun p q => ¬p.Same q) ∧
      r.list.toList = firstOccurrences r.pushes ∧
      (∀ p i, r.list.position? p = some i ↔ ∃ q, r.list.get? i = some q ∧ q.Same p) ∧
      (a ∪ b).toList = a.toList ++ b.toList.filter (fun p => !a.contains p) ∧
      (a ∪ b) ∪ c = a ∪ (b ∪ c) ∧ ∅ ∪ a = a ∧ a ∪ ∅ = a ∧ a ∪ a = a ∧ (a ∪ b) ∪ a = a ∪ b := by
  refine ⟨r.list.pairwise_not_same, ?_, fun p i => position?_eq_some_iff, toList_union a b,
    union_assoc a b c, empty_union a, union_empty a, union_self a, union_union_self a b⟩
  rw [list_eq_ofList, toList_ofList]

/-- Parameters of one name are told apart, before and after the list is cleared. -/
example :
    let handle := Param.placeholder
    let other : Recipe := .pushed (.collected [handle 2, handle 0, handle 2]) (handle 1)
    (extended (.pushed (.cleared (.collected [handle 0, handle 3])) (handle 1)) other).list.toList =
      [handle 1, handle 2, handle 0] := by
  decide

end Recipe

end ParamList

end SqlBuilder
