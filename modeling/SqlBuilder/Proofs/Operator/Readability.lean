import SqlBuilder.Proofs.Operator.Outline

/-! # Unique readability

Not every operand stands in parentheses, and the keywords of some operators begin or end those of
others. Still the outline of an operator's text tells which operator it is: outside of parentheses
the built-in operators all write something different, and an assignment, which alone leaves its
first operand bare, can be told by how it ends. What stands in the parentheses are the operands.
-/

namespace SqlBuilder

namespace Operator

open Outline

/-- The ways in which built-in operators are applied. -/
inductive Applied {α : Type} : Operator → List α → Prop
  | binary (sign : String) (a b : α) : Applied (binary sign [sign]) [a, b]
  | negation (a : α) : Applied negation [a]
  | range (sign : String) (a b c : α) : Applied (keyword sign [sign, "AND"] (.exactly 3)) [a, b, c]
  | membership (sign : String) (a b : α) (as : List α) :
      Applied (membership sign sign) (a :: b :: as)
  | assignment (a b : α) : Applied assignment [a, b]
  | suffix (sign : String) (a : α) : Applied (suffix sign sign) [a]

/-- A built-in operator is applied in one of these ways to as many operands as it accepts. -/
theorem applied_of_builtin {α : Type} {op : Operator} (builtin : op ∈ builtins) {as : List α}
    (accepted : op.arity.accepts as.length = true) : Applied op as := by
  have forms : (∃ sign, op = Operator.binary sign [sign]) ∨ op = Operator.negation ∨
      (∃ sign, op = keyword sign [sign, "AND"] (.exactly 3)) ∨
      (∃ sign, op = Operator.membership sign sign) ∨ op = Operator.assignment ∨
      ∃ sign, op = Operator.suffix sign sign := by
    simp only [builtins, List.mem_cons, List.not_mem_nil, or_false] at builtin
    rcases builtin with rfl | rfl | rfl | rfl | rfl | rfl | rfl | rfl | rfl | rfl | rfl | rfl |
      rfl | rfl | rfl | rfl | rfl | rfl | rfl | rfl | rfl | rfl | rfl <;>
      first
        | exact .inl ⟨_, rfl⟩
        | exact .inr (.inl rfl)
        | exact .inr (.inr (.inl ⟨_, rfl⟩))
        | exact .inr (.inr (.inr (.inl ⟨_, rfl⟩)))
        | exact .inr (.inr (.inr (.inr (.inl rfl))))
        | exact .inr (.inr (.inr (.inr (.inr ⟨_, rfl⟩))))
  rcases forms with ⟨sign, rfl⟩ | rfl | ⟨sign, rfl⟩ | ⟨sign, rfl⟩ | rfl | ⟨sign, rfl⟩
  · match as with
    | [a, b] => exact .binary sign a b
    | [] | [_] | _ :: _ :: _ :: _ => simp [Operator.binary, arity, Arity.accepts] at accepted
  · match as with
    | [a] => exact .negation a
    | [] | _ :: _ :: _ => simp [Operator.negation, arity, Arity.accepts] at accepted
  · match as with
    | [a, b, c] => exact .range sign a b c
    | [] | [_] | [_, _] | _ :: _ :: _ :: _ :: _ => simp [arity, Arity.accepts] at accepted
  · match as with
    | a :: b :: as => exact .membership sign a b as
    | [] | [_] => simp [arity, Arity.accepts] at accepted
  · match as with
    | [a, b] => exact .assignment a b
    | [] | [_] | _ :: _ :: _ :: _ => simp [arity, Arity.accepts] at accepted
  · match as with
    | [a] => exact .suffix sign a
    | [] | _ :: _ :: _ => simp [arity, Arity.accepts] at accepted

/-- A built-in operator can be applied to as many operands as its arity allows. -/
theorem compute_builtin {op : Operator} (builtin : op ∈ builtins) {es : List Expr}
    (accepted : op.arity.accepts es.length = true) : ∃ e, op.compute es = .ok e := by
  cases applied_of_builtin builtin accepted <;> exact ⟨_, rfl⟩

def fewest (op : Operator) : Nat :=
  match op.arity with
  | .exactly count | .atLeast count => count

/-- What an operator writes outside of parentheses, behind an operand that stands bare. -/
def frame (op : Operator) : List (Option Char) :=
  skeleton (op.layOut (List.replicate op.fewest []))

/-- The operand that stands bare before everything else; only an assignment has one. -/
def lead (op : Operator) (os : List Outline) : Outline :=
  match op, os with
  | .assignment, o :: _ => o
  | _, _ => []

/-- What an operator writes in parentheses. -/
def enclosed (op : Operator) (os : List Outline) : List Outline :=
  match op, os with
  | .assignment, _ :: os => os
  | .membership _ _, o :: os => [o, commas os]
  | _, os => os

/-- Outside of parentheses an operator writes its bare operand and its frame. -/
theorem skeleton_layOut {op : Operator} {os : List Outline} (applied : Applied op os) :
    skeleton (op.layOut os) = (op.lead os).skeleton ++ op.frame := by
  cases applied <;>
    simp [layOut, layOutBehind, frame, fewest, arity, lead, List.replicate, Operator.binary,
      Operator.negation, Written.spaced, Written.append, Written.group, Written.word,
      Written.blank, Written.empty]

/-- In parentheses stands what the bare operand has there, and then every other operand. -/
theorem contents_layOut {op : Operator} {os : List Outline} (applied : Applied op os) :
    contents (op.layOut os) = (op.lead os).contents ++ (op.enclosed os).map chars := by
  cases applied <;>
    simp [layOut, layOutBehind, enclosed, lead, Operator.binary, Operator.negation,
      Written.spaced, Written.append, Written.group, Written.word, Written.blank, Written.empty,
      Written.list]

/-! Facts about the frames of the built-in operators, checked one by one. -/

theorem frame_plain : ∀ op ∈ builtins, ∀ c, some c ∈ op.frame → c ≠ '(' ∧ c ≠ ')' ∧ c ≠ ',' := by
  have absent : ∀ op ∈ builtins,
      some '(' ∉ op.frame ∧ some ')' ∉ op.frame ∧ some ',' ∉ op.frame := by decide +kernel
  intro op builtin c held
  obtain ⟨opening, closing, comma⟩ := absent op builtin
  refine ⟨?_, ?_, ?_⟩ <;> rintro rfl
  · exact opening held
  · exact closing held
  · exact comma held

theorem frame_has_group : ∀ op ∈ builtins, none ∈ op.frame := by decide +kernel

theorem frame_divided : ∀ op ∈ builtins, 1 < op.frame.length := by decide +kernel

theorem frame_inj : ∀ op ∈ builtins, ∀ other ∈ builtins, op.frame = other.frame → op = other := by
  decide +kernel

/-- Of the others, only equality ends as an assignment does. -/
theorem frame_assignment : ∀ op ∈ builtins, assignment.frame <:+ op.frame →
    op = assignment ∨ op.frame = [none] ++ assignment.frame := by
  decide +kernel

/-- A text that can be an operand: its parentheses are balanced, no comma stands outside of them,
and it is not a single pair of parentheses. -/
structure Sound (o : Outline) : Prop extends o.Closed where
  bare : some ',' ∉ o.skeleton
  divided : o.skeleton ≠ [none]

variable {op other : Operator} {os ps : List Outline}

theorem closed_lead (op : Operator) (sound : ∀ o ∈ os, Sound o) :
    (op.lead os).Closed ∧ some ',' ∉ (op.lead os).skeleton := by
  unfold lead
  split
  · next o _ =>
    have own := sound o (List.mem_cons_self ..)
    exact ⟨own.toClosed, own.bare⟩
  · exact ⟨⟨by simp, by simp⟩, by simp⟩

theorem closed_enclosed (op : Operator) (sound : ∀ o ∈ os, Sound o) :
    ∀ o ∈ op.enclosed os, o.Closed := by
  unfold enclosed
  split
  · exact fun o member => (sound o (List.mem_cons_of_mem _ member)).toClosed
  · intro o member
    simp only [List.mem_cons, List.not_mem_nil, or_false] at member
    rcases member with rfl | rfl
    · exact (sound o (List.mem_cons_self ..)).toClosed
    · exact .commas fun p member => (sound p (List.mem_cons_of_mem _ member)).toClosed
  · exact fun o member => (sound o member).toClosed

/-- The text of an operator can be an operand again. -/
theorem sound_layOut (builtin : op ∈ builtins) (accepted : op.arity.accepts os.length = true)
    (sound : ∀ o ∈ os, Sound o) : Sound (op.layOut os) := by
  have applied := applied_of_builtin builtin accepted
  obtain ⟨closed, bare⟩ := closed_lead op sound
  have enclosed := closed_enclosed op sound
  refine ⟨⟨?_, ?_⟩, ?_, ?_⟩
  · intro c held
    rw [skeleton_layOut applied] at held
    rcases List.mem_append.mp held with held | held
    · exact closed.plain c held
    · have plain := frame_plain op builtin c held
      exact ⟨plain.1, plain.2.1⟩
  · intro content held
    rw [contents_layOut applied] at held
    rcases List.mem_append.mp held with held | held
    · exact closed.balanced content held
    · obtain ⟨o, member, rfl⟩ := List.mem_map.mp held
      exact (enclosed o member).chars_balanced
  · intro held
    rw [skeleton_layOut applied] at held
    rcases List.mem_append.mp held with held | held
    · exact bare held
    · exact (frame_plain op builtin ',' held).2.2 rfl
  · intro lone
    have long := frame_divided op builtin
    have length := congrArg List.length lone
    rw [skeleton_layOut applied, List.length_append, List.length_singleton] at length
    omega

theorem lead_divided (sound : ∀ o ∈ os, Sound o) : (op.lead os).skeleton ≠ [none] := by
  unfold lead
  split
  · next o _ => exact (sound o (List.mem_cons_self ..)).divided
  · simp

theorem lead_eq_nil (other : op ≠ assignment) : op.lead os = [] := by
  cases op with
  | assignment => exact absurd rfl other
  | _ => rfl

/-- Nothing else reads like an assignment: equality does from behind, but would have to be assigned
to a single pair of parentheses. -/
theorem eq_assignment_of_layOut (builtin : op ∈ builtins)
    (accepted : op.arity.accepts os.length = true)
    (accepted' : assignment.arity.accepts ps.length = true) (sound : ∀ p ∈ ps, Sound p)
    (same : op.layOut os = assignment.layOut ps) : op = assignment := by
  refine Decidable.byContradiction ?_
  intro differs
  have skeletons : op.frame = (assignment.lead ps).skeleton ++ assignment.frame := by
    calc
      op.frame = (op.lead os).skeleton ++ op.frame := by simp [lead_eq_nil differs]
      _ = skeleton (op.layOut os) := (skeleton_layOut (applied_of_builtin builtin accepted)).symm
      _ = skeleton (assignment.layOut ps) := congrArg skeleton same
      _ = (assignment.lead ps).skeleton ++ assignment.frame :=
        skeleton_layOut (applied_of_builtin (by decide) accepted')
  rcases frame_assignment op builtin ⟨_, skeletons.symm⟩ with equal | equality
  · exact differs equal
  · exact lead_divided sound (List.append_cancel_right (skeletons.symm.trans equality))

/-- The outline of an operator's text tells the operator. -/
theorem op_of_layOut (builtin : op ∈ builtins) (builtin' : other ∈ builtins)
    (accepted : op.arity.accepts os.length = true)
    (accepted' : other.arity.accepts ps.length = true) (sound : ∀ o ∈ os, Sound o)
    (sound' : ∀ p ∈ ps, Sound p) (same : op.layOut os = other.layOut ps) : op = other := by
  by_cases assigns : op = assignment
  · subst assigns
    exact (eq_assignment_of_layOut builtin' accepted' accepted sound same.symm).symm
  by_cases assigns' : other = assignment
  · subst assigns'
    exact eq_assignment_of_layOut builtin accepted accepted' sound' same
  have skeletons := congrArg skeleton same
  rw [skeleton_layOut (applied_of_builtin builtin accepted), lead_eq_nil assigns,
    skeleton_layOut (applied_of_builtin builtin' accepted'), lead_eq_nil assigns'] at skeletons
  exact frame_inj op builtin other builtin' skeletons

/-- Unless one stands bare, the operands can be told from what stands in parentheses. -/
theorem enclosed_inj (applied : Applied op os) (applied' : Applied op ps)
    (sound : ∀ o ∈ os, Sound o) (sound' : ∀ p ∈ ps, Sound p) (differs : op ≠ assignment)
    (same : op.enclosed os = op.enclosed ps) : os = ps := by
  have bare {os : List Outline} (sound : ∀ o ∈ os, Sound o) : ∀ o ∈ os, Item.char ',' ∉ o :=
    fun o member held => (sound o member).bare (List.mem_map_of_mem held)
  cases op with
  | assignment => exact absurd rfl differs
  | keyword | suffix => exact same
  | membership name sign =>
    cases applied with | membership sign a b as =>
    cases applied' with | membership sign c d cs =>
    simp only [enclosed, List.cons.injEq, and_true] at same
    obtain ⟨rfl, values⟩ := same
    have tails := commas_inj (bare fun o member => sound o (List.mem_cons_of_mem a member))
      (bare fun p member => sound' p (List.mem_cons_of_mem a member)) (by simp) (by simp) values
    rw [tails]

/-- The outline of an operator's text tells the operator and the outlines of the operands. -/
theorem layOut_inj (builtin : op ∈ builtins) (builtin' : other ∈ builtins)
    (accepted : op.arity.accepts os.length = true)
    (accepted' : other.arity.accepts ps.length = true) (sound : ∀ o ∈ os, Sound o)
    (sound' : ∀ p ∈ ps, Sound p) (same : op.layOut os = other.layOut ps) :
    op = other ∧ os = ps := by
  obtain rfl := op_of_layOut builtin builtin' accepted accepted' sound sound' same
  refine ⟨rfl, ?_⟩
  have applied := applied_of_builtin builtin accepted
  have applied' := applied_of_builtin builtin accepted'
  by_cases assigns : op = assignment
  · subst assigns
    cases applied with | assignment a b =>
    cases applied' with | assignment c d =>
    -- The value is one item, so the two texts can be taken apart from behind.
    obtain ⟨fields, values⟩ := List.append_inj' same rfl
    have target : a = c := List.append_cancel_right fields
    have value : b = d := (sound b (by simp)).chars_inj (sound' d (by simp)).toClosed
      (Item.group.inj (List.cons.inj values).1)
    rw [target, value]
  · have contents := congrArg contents same
    rw [contents_layOut applied, contents_layOut applied', lead_eq_nil assigns,
      lead_eq_nil assigns] at contents
    exact enclosed_inj applied applied' sound sound' assigns
      (map_chars_inj (closed_enclosed op sound) (closed_enclosed op sound') contents)

end Operator

end SqlBuilder
