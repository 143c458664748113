import SqlBuilder.Param.Basic

/-! # Parameter lists

A parameter list holds each parameter once, at the place of its first occurrence. Every operation
that adds parameters is a sequence of pushes, and a push of a parameter that is present is refused.
-/

namespace SqlBuilder

/-- An ordered list of parameters without repetitions. -/
structure ParamList where
  toList : List Param := []
  nodup : (toList.map Param.id).Nodup := by simp
  deriving DecidableEq

namespace ParamList

@[ext]
theorem ext {l m : ParamList} (same : l.toList = m.toList) : l = m := by
  cases l; cases m; simp_all

def empty : ParamList := {}

instance : Inhabited ParamList := ⟨empty⟩
instance : EmptyCollection ParamList := ⟨empty⟩

def contains (l : ParamList) (p : Param) : Bool := l.toList.any (·.id == p.id)

theorem contains_eq_true_iff {l : ParamList} {p : Param} :
    l.contains p = true ↔ p.id ∈ l.toList.map Param.id := by
  simp [contains]

/-- Adds a parameter at the end unless it is present. -/
def push (l : ParamList) (p : Param) : ParamList :=
  if present : l.contains p = true then l
  else
    { toList := l.toList ++ [p]
      nodup := by
        rw [contains_eq_true_iff] at present
        simp only [List.map_append, List.map_cons, List.map_nil, List.nodup_append]
        refine ⟨l.nodup, by simp, fun a held b added same => present ?_⟩
        simp only [List.mem_singleton] at added
        rwa [← added, ← same] }

def pushAll (l : ParamList) (ps : List Param) : ParamList := ps.foldl push l

def ofList (ps : List Param) : ParamList := empty.pushAll ps

/-- The parameters of the first list, then those of the second that the first has not. -/
def union (l m : ParamList) : ParamList := l.pushAll m.toList

instance : Union ParamList := ⟨union⟩

/-- The parameters of several lists in order. -/
def unions (ls : List ParamList) : ParamList := ls.foldl union empty

/-- The place of a parameter, counted from zero. -/
def position? (l : ParamList) (p : Param) : Option Nat := l.toList.findIdx? (·.id == p.id)

def get? (l : ParamList) (i : Nat) : Option Param := l.toList[i]?

def size (l : ParamList) : Nat := l.toList.length

def isEmpty (l : ParamList) : Bool := l.toList.isEmpty

def names (l : ParamList) : List String := l.toList.map Param.name

@[simp]
theorem toList_empty : (∅ : ParamList).toList = [] := rfl

@[simp]
theorem toList_push (l : ParamList) (p : Param) :
    (l.push p).toList = if l.contains p then l.toList else l.toList ++ [p] := by
  unfold push; split <;> simp_all

end ParamList

end SqlBuilder
