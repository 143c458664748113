import SqlBuilder.Json

/-! # The order of members

The members of an object may be written in any order. `Reordered` relates two values that differ in
nothing else, however deep the objects lie in them, and a reader ignores the order if it reads such
values alike. Looking up a member does: all that counts is whether its key is there, and only once.
-/

namespace SqlBuilder.Json

variable {α : Type} {json json' : Json} {key : String} {members members' : List (String × Json)}

/-- Values that are the same up to the order of the members of objects. -/
inductive Reordered : Json → Json → Prop
  | refl (json : Json) : Reordered json json
  | trans {a b c : Json} (first : Reordered a b) (second : Reordered b c) : Reordered a c
  | object {members members' : List (String × Json)} (same : members.Perm members') :
      Reordered (.object members) (.object members')
  | member {value value' : Json} (inner : Reordered value value') (key : String)
      (rest : List (String × Json)) :
      Reordered (.object ((key, value) :: rest)) (.object ((key, value') :: rest))
  | item {value value' : Json} (inner : Reordered value value') (before after : List Json) :
      Reordered (.array (before ++ value :: after)) (.array (before ++ value' :: after))

theorem Reordered.symm (same : json.Reordered json') : json'.Reordered json := by
  induction same with
  | refl json => exact .refl json
  | trans _ _ first second => exact second.trans first
  | object same => exact .object same.symm
  | member _ key rest ih => exact .member ih key rest
  | item _ before after ih => exact .item ih before after

/-! ### Members by their keys -/

/-- A member is what its key looks up, unless the key is repeated. -/
theorem member?_eq (key : String) (members : List (String × Json)) :
    member? key members =
      if 1 < (members.map Prod.fst).count key then none else some (members.lookup key) := by
  have first : members.lookup key =
      (members.filter fun member => member.1 == key).head?.map Prod.snd := by
    induction members with
    | nil => rfl
    | cons member rest ih =>
      obtain ⟨own, value⟩ := member
      by_cases same : own = key
      · simp [same]
      · rw [List.lookup_cons, beq_false_of_ne (Ne.symm same), List.filter_cons_of_neg (by simpa)]
        exact ih
  have times : (members.map Prod.fst).count key =
      (members.filter fun member => member.1 == key).length := by
    rw [List.count, List.countP_map, List.countP_eq_length_filter]
    rfl
  rw [first, times, member?]
  generalize members.filter (fun member => member.1 == key) = found
  match found with
  | [] | [_] => rfl
  | _ :: _ :: _ => simp

/-- Members are found in any order; one that is given twice is found in none. -/
theorem member?_perm (same : members.Perm members') (key : String) :
    member? key members = member? key members' := by
  have found := same.filter fun member => member.1 == key
  rw [member?, member?]
  generalize members.filter (fun member => member.1 == key) = here at found
  generalize members'.filter (fun member => member.1 == key) = there at found
  match here, there, found with
  | [], _, found => rw [found.nil_eq]
  | [_], _, found => rw [List.singleton_perm.mp found]
  | _ :: _ :: _, [], found | _ :: _ :: _, [_], found => simpa using found.length_eq
  | _ :: _ :: _, _ :: _ :: _, _ => rfl

/-- Members of other keys can be left out. -/
theorem member?_filter {keep : String × Json → Bool}
    (kept : ∀ member ∈ members, member.1 = key → keep member = true) :
    member? key (members.filter keep) = member? key members := by
  have found : (members.filter keep).filter (fun member => member.1 == key) =
      members.filter fun member => member.1 == key := by
    rw [List.filter_filter]
    refine List.filter_congr fun member present => ?_
    by_cases same : member.1 = key
    · simp [same, kept member present same]
    · simp [same]
  rw [member?, member?, found]

namespace Reordered

theorem rel_refl (found? : Option Json) : Option.Rel Reordered found? found? := by
  cases found? with
  | none => exact .none
  | some value => exact .some (.refl value)

/-- When the value of one member is reordered, a key looks up what it did, up to this. -/
theorem rel_lookup {value value' : Json} (inner : value.Reordered value') (own key : String)
    (rest : List (String × Json)) :
    Option.Rel Reordered (((own, value) :: rest).lookup key)
      (((own, value') :: rest).lookup key) := by
  rw [List.lookup_cons, List.lookup_cons]
  cases key == own with
  | true => exact .some inner
  | false => exact rel_refl _

/-- When one item is reordered, every place holds what it did, up to this. -/
theorem rel_getElem? {value value' : Json} (inner : value.Reordered value')
    (before after : List Json) (i : Nat) :
    Option.Rel Reordered (before ++ value :: after)[i]? (before ++ value' :: after)[i]? := by
  by_cases early : i < before.length
  · rw [List.getElem?_append_left early, List.getElem?_append_left early]
    exact rel_refl _
  · rw [List.getElem?_append_right (by omega), List.getElem?_append_right (by omega)]
    cases i - before.length with
    | zero => exact .some inner
    | succ j => exact rel_refl _

theorem getD {found? found'? : Option Json} (same : Option.Rel Reordered found? found'?)
    (default : Json) : (found?.getD default).Reordered (found'?.getD default) := by
  cases same with
  | none => exact .refl default
  | some same => exact same

end Reordered

/-! ### Readers -/

/-- A reader that reads values alike if only the order of members differs. -/
def IgnoresOrder (read : Json → α) : Prop :=
  ∀ json json' : Json, json.Reordered json' → read json = read json'

/-- It is enough that what is read of a value is read of all its reorderings. -/
theorem ignoresOrder_of_kept {read : Json → Option α}
    (kept : ∀ (json json' : Json) (a : α), json.Reordered json' → read json = some a →
      read json' = some a) : IgnoresOrder read := fun json json' same =>
  Option.ext fun a => ⟨kept json json' a same, kept json' json a same.symm⟩

/-- A reader that refuses objects and arrays has no order to see. -/
theorem ignoresOrder_of_refuses {read : Json → Option α}
    (objects : ∀ members, read (.object members) = none)
    (arrays : ∀ items, read (.array items) = none) : IgnoresOrder read := by
  intro json json' same
  induction same with
  | refl => rfl
  | trans _ _ first second => exact first.trans second
  | object | member => rw [objects, objects]
  | item => rw [arrays, arrays]

theorem ignoresOrder_natBelow? (bound : Nat) : IgnoresOrder (natBelow? bound) :=
  ignoresOrder_of_refuses (fun _ => rfl) fun _ => rfl

theorem ignoresOrder_string? : IgnoresOrder string? :=
  ignoresOrder_of_refuses (fun _ => rfl) fun _ => rfl

/-- A reader that ignores order still does when null is let through. -/
theorem IgnoresOrder.nullable {read : Json → Option α} (ignores : IgnoresOrder read) :
    IgnoresOrder (nullable read) := by
  intro json json' same
  induction same with
  | refl => rfl
  | trans _ _ first second => exact first.trans second
  -- Neither value is null in the other cases.
  | object same => exact congrArg (Option.map some) (ignores _ _ (.object same))
  | member inner key rest => exact congrArg (Option.map some) (ignores _ _ (.member inner key rest))
  | item inner before after =>
    exact congrArg (Option.map some) (ignores _ _ (.item inner before after))

theorem nullable_of_ne_null {read : Json → Option α} (present : json ≠ .null) :
    nullable read json = (read json).map some := by
  cases json with
  | null => exact absurd rfl present
  | _ => rfl

/-- What is written as null when it is absent is read back if it is read when it is there. -/
theorem nullable_getD_map {β : Type} (read : Json → Option α) (write : β → Json) {f : β → α}
    (present : ∀ b, write b ≠ .null) (reads : ∀ b, read (write b) = some (f b)) (b? : Option β) :
    nullable read ((b?.map write).getD .null) = some (b?.map f) := by
  cases b? with
  | none => rfl
  | some b =>
    rw [Option.map_some, Option.getD_some, nullable_of_ne_null (present b), reads, Option.map_some,
      Option.map_some]

theorem natBelow?_int {bound n : Nat} (below : n < bound) : natBelow? bound (.int n) = some n := by
  simp [natBelow?, below]

end SqlBuilder.Json
