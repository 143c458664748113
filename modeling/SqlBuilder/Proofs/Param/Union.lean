import SqlBuilder.Param.List

/-! # Unions of parameter lists

A parameter list is what is left of the parameters pushed on it when every repeated one is dropped
after its first occurrence. Dropping can be done piece by piece: the union of two lists is the list
of the parameters of both. From this follow the laws of the union and what it contains.
-/

namespace SqlBuilder

/-- A parameter without a value, written as a question mark. -/
def Param.placeholder (id : Nat) : Param := { id, name := "?", value? := none, named := by decide }

/-- The parameters in order, with every repeated one dropped after its first occurrence. -/
def firstOccurrences : List Param → List Param
  | [] => []
  | p :: ps => p :: (firstOccurrences ps).filter fun q => q.id != p.id

namespace ParamList

theorem contains_push (l : ParamList) (p q : Param) :
    (l.push p).contains q = (l.contains q || q.id == p.id) := by
  by_cases present : l.contains p = true
  · have same : (l.push p) = l := by simp [push, present]
    rw [same]
    by_cases equal : q.id = p.id
    · have held : l.contains q = true := by
        rw [contains_eq_true_iff] at present ⊢
        rwa [equal]
      simp [held]
    · simp [equal]
  · rw [contains, toList_push, if_neg present, List.any_append, ← contains, List.any_cons,
      List.any_nil, Bool.or_false, BEq.comm]

/-- What is pushed is appended, less what is present and less what was pushed before. -/
theorem toList_pushAll (l : ParamList) (ps : List Param) :
    (l.pushAll ps).toList = l.toList ++ (firstOccurrences ps).filter fun p => !l.contains p := by
  induction ps generalizing l with
  | nil => simp [pushAll, firstOccurrences]
  | cons p ps ih =>
    rw [pushAll, List.foldl_cons, ← pushAll, ih, firstOccurrences]
    by_cases present : l.contains p = true
    · have same : l.push p = l := by simp [push, present]
      rw [same, List.filter_cons_of_neg (by simp [present]), List.filter_filter]
      congr 1
      refine List.filter_congr fun q _ => ?_
      by_cases equal : q.id = p.id
      · have held : l.contains q = true := by
          rw [contains_eq_true_iff] at present ⊢
          rwa [equal]
        simp [held]
      · simp [equal]
    · rw [List.filter_cons_of_pos (by simpa using present), List.filter_filter, toList_push,
        if_neg present, List.append_assoc, List.singleton_append]
      refine congrArg (fun rest => l.toList ++ p :: rest) (List.filter_congr fun q _ => ?_)
      simp [contains_push, Bool.not_or, bne]

/-- A list of given parameters has each of them where it occurs first. -/
theorem toList_ofList (ps : List Param) : (ofList ps).toList = firstOccurrences ps := by
  rw [ofList, toList_pushAll]
  simp [empty, contains]

@[simp]
theorem contains_pushAll (l : ParamList) (ps : List Param) (q : Param) :
    (l.pushAll ps).contains q = (l.contains q || ps.any fun p => q.id == p.id) := by
  induction ps generalizing l with
  | nil => simp [pushAll]
  | cons p ps ih =>
    rw [pushAll, List.foldl_cons, ← pushAll, ih, contains_push, List.any_cons, Bool.or_assoc]

theorem contains_ofList (ps : List Param) (q : Param) :
    (ofList ps).contains q = ps.any fun p => q.id == p.id := by
  rw [ofList, contains_pushAll, empty, contains, List.any_nil, Bool.false_or]

@[simp]
theorem contains_union (l m : ParamList) (q : Param) :
    (l ∪ m).contains q = (l.contains q || m.contains q) := by
  have either : (l ∪ m).contains q = (l.contains q || m.toList.any fun p => q.id == p.id) :=
    contains_pushAll l m.toList q
  rw [either, contains, contains]
  congr 2
  funext p
  exact BEq.comm

@[simp]
theorem union_empty (l : ParamList) : l ∪ ∅ = l := rfl

theorem contains_unions {ls : List ParamList} {q : Param} :
    (unions ls).contains q = true ↔ ∃ l ∈ ls, l.contains q = true := by
  have grow (start : ParamList) : (ls.foldl union start).contains q = true ↔
      start.contains q = true ∨ ∃ l ∈ ls, l.contains q = true := by
    induction ls generalizing start with
    | nil => simp
    | cons l ls ih =>
      have step : (start.union l).contains q = (start.contains q || l.contains q) :=
        contains_union start l q
      simp only [List.foldl_cons, ih, step, Bool.or_eq_true, List.mem_cons, exists_eq_or_imp,
        or_assoc]
  rw [unions, grow]
  exact or_iff_right (by simp [empty, contains])

/-- A list keeps everything that is pushed on it without being repeated. -/
theorem ofList_toList (l : ParamList) : ofList l.toList = l := by
  have distinct (ps : List Param) (nodup : (ps.map Param.id).Nodup) : firstOccurrences ps = ps := by
    induction ps with
    | nil => rfl
    | cons p ps ih =>
      rw [List.map_cons, List.nodup_cons] at nodup
      rw [firstOccurrences, ih nodup.2, List.filter_eq_self.mpr]
      intro q member
      have other : q.id ≠ p.id := fun same =>
        nodup.1 (same ▸ List.mem_map_of_mem member)
      simpa using other
  exact ext ((toList_ofList l.toList).trans (distinct l.toList l.nodup))

@[simp]
theorem empty_union (l : ParamList) : ∅ ∪ l = l := ofList_toList l

/-- The union of one more list behind the others. -/
theorem unions_concat (ls : List ParamList) (l : ParamList) :
    unions (ls ++ [l]) = unions ls ∪ l := by
  rw [unions, List.foldl_append]
  rfl

/-- A union adds the parameters of the second list that the first has not. -/
theorem toList_union (l m : ParamList) :
    (l ∪ m).toList = l.toList ++ m.toList.filter fun p => !l.contains p := by
  have distinct : firstOccurrences m.toList = m.toList := by
    rw [← toList_ofList, ofList_toList]
  calc
    (l ∪ m).toList = (l.pushAll m.toList).toList := rfl
    _ = l.toList ++ m.toList.filter fun p => !l.contains p := by rw [toList_pushAll, distinct]

/-- A union adds nothing exactly when everything is there already. -/
theorem union_eq_left_iff {l m : ParamList} :
    l ∪ m = l ↔ ∀ p ∈ m.toList, l.contains p = true := by
  have same : l ∪ m = l ↔ (l ∪ m).toList = l.toList := ⟨congrArg toList, ext⟩
  rw [same, toList_union]
  simp

theorem union_self (l : ParamList) : l ∪ l = l :=
  union_eq_left_iff.mpr fun _ member => contains_eq_true_iff.mpr (List.mem_map_of_mem member)

/-- A list that has been added adds nothing when it is added again. -/
theorem union_union_self (l m : ParamList) : l ∪ m ∪ l = l ∪ m := by
  refine union_eq_left_iff.mpr fun p member => ?_
  have held : l.contains p = true := contains_eq_true_iff.mpr (List.mem_map_of_mem member)
  rw [contains_union, held, Bool.true_or]

/-- Dropping repeated parameters early changes nothing. -/
theorem pushAll_ofList (l : ParamList) (ps : List Param) :
    l.pushAll (ofList ps).toList = l.pushAll ps := by
  apply ext
  have idempotent : firstOccurrences (firstOccurrences ps) = firstOccurrences ps := by
    rw [← toList_ofList, ← toList_ofList, ofList_toList]
  rw [toList_pushAll, toList_pushAll, toList_ofList, idempotent]

theorem pushAll_append (l : ParamList) (ps qs : List Param) :
    l.pushAll (ps ++ qs) = (l.pushAll ps).pushAll qs := List.foldl_append

theorem ofList_append (ps qs : List Param) : ofList (ps ++ qs) = ofList ps ∪ ofList qs := by
  calc
    ofList (ps ++ qs) = (ofList ps).pushAll qs := pushAll_append ..
    _ = (ofList ps).pushAll (ofList qs).toList := (pushAll_ofList _ qs).symm

/-- It does not matter which of three lists are united first. -/
theorem union_assoc (l m n : ParamList) : l ∪ m ∪ n = l ∪ (m ∪ n) := by
  calc
    l ∪ m ∪ n = ofList ((l.toList ++ m.toList) ++ n.toList) := by
      rw [ofList_append, ofList_append, ofList_toList, ofList_toList, ofList_toList]
    _ = ofList (l.toList ++ (m.toList ++ n.toList)) := by rw [List.append_assoc]
    _ = l ∪ (m ∪ n) := by
      rw [ofList_append, ofList_append, ofList_toList, ofList_toList, ofList_toList]

/-- Of a longer sequence the parameters that the first part has not come behind it. -/
theorem firstOccurrences_append (ps qs : List Param) :
    firstOccurrences (ps ++ qs) =
      firstOccurrences ps ++ (firstOccurrences qs).filter fun p => !(ofList ps).contains p := by
  rw [← toList_ofList, ofList_append, toList_union, toList_ofList, toList_ofList]

/-- Parameters can be left out before or after repeated ones are dropped. -/
theorem filter_firstOccurrences {keep : Param → Bool}
    (blind : ∀ p q : Param, p.id = q.id → keep p = keep q) (ps : List Param) :
    (firstOccurrences ps).filter keep = firstOccurrences (ps.filter keep) := by
  induction ps with
  | nil => rfl
  | cons p ps ih =>
    rw [firstOccurrences, List.filter_cons, List.filter_cons, List.filter_filter]
    cases kept : keep p with
    | true =>
      have swapped : (fun q => keep q && q.id != p.id) = fun q => (q.id != p.id) && keep q :=
        funext fun q => Bool.and_comm ..
      rw [if_pos rfl, if_pos rfl, firstOccurrences, ← ih, List.filter_filter, swapped]
    | false =>
      have others : ∀ q, (keep q && q.id != p.id) = keep q := by
        intro q
        by_cases same : q.id = p.id
        · simp [blind q p same, kept]
        · simp [same]
      simp only [others, Bool.false_eq_true, ↓reduceIte]
      exact ih

/-- The union of the lists of several sequences is the list of the sequences in a row. -/
theorem unions_map_ofList (pss : List (List Param)) :
    unions (pss.map ofList) = ofList pss.flatten := by
  have grow (start : List Param) :
      (pss.map ofList).foldl union (ofList start) = ofList (start ++ pss.flatten) := by
    induction pss generalizing start with
    | nil => simp
    | cons ps pss ih =>
      have step : (ofList start).union (ofList ps) = ofList (start ++ ps) :=
        (ofList_append start ps).symm
      simp only [List.map_cons, List.foldl_cons, step, ih, List.flatten_cons, List.append_assoc]
  exact grow []

/-- The union holds the first occurrence of every parameter of the lists. -/
theorem toList_unions (ls : List ParamList) :
    (unions ls).toList = firstOccurrences (ls.flatMap toList) := by
  have relisted : (ls.map toList).map ofList = ls := by
    rw [List.map_map]
    exact List.map_id'' ofList_toList ls
  calc
    (unions ls).toList = (unions ((ls.map toList).map ofList)).toList := by rw [relisted]
    _ = firstOccurrences (ls.flatMap toList) := by
      rw [unions_map_ofList, toList_ofList, List.flatMap_def]

end ParamList

end SqlBuilder
