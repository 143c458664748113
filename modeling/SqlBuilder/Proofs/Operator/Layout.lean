import SqlBuilder.Operator.Builtin

/-! # Layouts of operators

How an operator arranges its operands does not depend on what a text is: words are put before,
between and behind operands, some of which stand in parentheses or in a list. `layOut` says this
for anything texts can be represented by, and whatever turns one representation into another can be
applied to the operands or to the result. Operators render by this layout. Whatever is read off the
operands alone is read off the result as well, for as many operands as are written.
-/

namespace SqlBuilder

/-- What texts are put together with. -/
class Written (α : Type) where
  /-- No text at all. -/
  empty : α
  /-- A word that stands as it is. -/
  word : String → α
  /-- The blank between a word and what stands next to it. -/
  blank : α
  /-- One text behind another. -/
  append : α → α → α
  /-- A text between parentheses. -/
  group : α → α
  /-- Texts with commas between them. -/
  list : List α → α

instance : Written String where
  empty := ""
  word s := s
  blank := " "
  append s t := s ++ t
  group := Operator.parens
  list := ", ".intercalate

namespace Written

/-- A word with a blank on each side. -/
def spaced {α : Type} [Written α] (s : String) : α := append (append blank (word s)) blank

/-- A map from one representation of texts to another. -/
structure Hom {α β : Type} [Written α] [Written β] (f : α → β) : Prop where
  empty : f empty = empty
  word (s : String) : f (word s) = word s
  blank : f blank = blank
  append (a b : α) : f (append a b) = append (f a) (f b)
  group (a : α) : f (group a) = group (f a)
  list (as : List α) : f (list as) = list (as.map f)

theorem Hom.spaced {α β : Type} [Written α] [Written β] {f : α → β} (hom : Hom f) (s : String) :
    f (spaced s) = spaced s := by
  simp only [Written.spaced, hom.append, hom.blank, hom.word]

/-- What pieces are written as is separated by what the pieces between them are written as. -/
theorem text_intercalate {γ : Type} {text : List γ → String} (empty : text [] = "")
    (append : ∀ pieces others, text (pieces ++ others) = text pieces ++ text others)
    (separator : List γ) (groups : List (List γ)) :
    text (separator.intercalate groups) = (text separator).intercalate (groups.map text) := by
  induction groups with
  | nil => simpa using empty
  | cons first rest ih =>
    cases rest with
    | nil => simp
    | cons second rest =>
      rw [List.intercalate_cons_cons, append, append, ih, List.map_cons, List.map_cons,
        List.map_cons, String.intercalate_cons_cons]

/-- A map that reads off a text what stands in it besides the words, from the left to the right. -/
structure Collects {α β : Type} [Written α] (f : α → List β) : Prop where
  empty : f empty = []
  word (s : String) : f (word s) = []
  blank : f blank = []
  append (a b : α) : f (append a b) = f a ++ f b
  group (a : α) : f (group a) = f a
  list (as : List α) : f (list as) = as.flatMap f

theorem Collects.spaced {α β : Type} [Written α] {f : α → List β} (collects : Collects f)
    (s : String) : f (spaced s) = [] := by
  simp only [Written.spaced, collects.append, collects.blank, collects.word, List.append_nil]

end Written

namespace Operator

open Written

variable {α β γ : Type} [Written α] [Written β]

/-- Keywords, each followed by a parenthesized operand. -/
def layOutBehind : List String → List α → α
  | sign :: signs, a :: as =>
    append (append (spaced sign) (group a)) (layOutBehind signs as)
  | _, _ => empty

/-- An operator between its operands. Operands the layout has no room for are not written. -/
def layOut (op : Operator) (operands : List α) : α :=
  match op, operands with
  | keyword _ [sign] _, [a] => append (append (word sign) blank) (group a)
  | keyword _ signs _, a :: as => append (group a) (layOutBehind signs as)
  | membership _ sign, a :: as => append (append (group a) (spaced sign)) (group (list as))
  | assignment, [a, b] => append (append a (spaced "=")) (group b)
  | suffix _ sign, [a] => append (append (group a) blank) (word sign)
  | _, _ => empty

/-- The words an operator is written with. -/
def keywords : Operator → List String
  | keyword _ signs _ => signs
  | membership _ sign | suffix _ sign => [sign]
  | assignment => ["="]

/-- One keyword before one operand is the exception among the layouts of keyword operators. -/
theorem layOut_several {name : String} {signs : List String} {arity : Arity} {a : α} {as : List α}
    (several : ¬(as.length = 0 ∧ signs.length = 1)) :
    (keyword name signs arity).layOut (a :: as) = append (group a) (layOutBehind signs as) := by
  rcases signs with _ | ⟨sign, _ | ⟨second, signs⟩⟩
  · rfl
  · cases as with
    | nil => exact absurd ⟨rfl, rfl⟩ several
    | cons b as => rfl
  · rfl

theorem layOutBehind_map {f : α → β} (hom : Hom f) (signs : List String) (as : List α) :
    f (layOutBehind signs as) = layOutBehind signs (as.map f) := by
  induction signs generalizing as with
  | nil => exact hom.empty
  | cons sign signs ih =>
    cases as with
    | nil => exact hom.empty
    | cons a as => simp only [layOutBehind, List.map_cons, hom.append, hom.spaced, hom.group, ih]

/-- A map of texts can be applied to the operands or to the result. -/
theorem layOut_map {f : α → β} (hom : Hom f) (op : Operator) (operands : List α) :
    f (op.layOut operands) = op.layOut (operands.map f) := by
  match op, operands with
  | keyword name signs arity, [] =>
    rcases signs with _ | ⟨sign, _ | ⟨second, signs⟩⟩ <;> exact hom.empty
  | keyword name signs arity, a :: as =>
    by_cases single : as.length = 0 ∧ signs.length = 1
    · obtain ⟨sign, rfl⟩ := List.length_eq_one_iff.mp single.2
      obtain rfl := List.length_eq_zero_iff.mp single.1
      simp only [layOut, List.map_cons, List.map_nil, hom.append, hom.word, hom.blank, hom.group]
    · rw [layOut_several single, List.map_cons, layOut_several (by simpa using single),
        hom.append, hom.group, layOutBehind_map hom]
  | membership name sign, a :: as =>
    simp only [layOut, List.map_cons, hom.append, hom.spaced, hom.group, hom.list]
  | assignment, [a, b] =>
    simp only [layOut, List.map_cons, List.map_nil, hom.append, hom.spaced, hom.group]
  | suffix name sign, [a] =>
    simp only [layOut, List.map_cons, List.map_nil, hom.append, hom.word, hom.blank, hom.group]
  | membership name sign, [] | assignment, [] | assignment, [a] | assignment, a :: b :: c :: as
  | suffix name sign, [] | suffix name sign, a :: b :: as => exact hom.empty

theorem collect_layOutBehind {f : α → List γ} (collects : Collects f) (signs : List String)
    (as : List α) : f (layOutBehind signs as) = (as.take signs.length).flatMap f := by
  induction signs generalizing as with
  | nil => exact collects.empty
  | cons sign signs ih =>
    cases as with
    | nil => exact collects.empty
    | cons a as =>
      simp only [layOutBehind, collects.append, collects.spaced, collects.group, ih,
        List.nil_append, List.length_cons, List.take_succ_cons, List.flatMap_cons]

/-- What is read off the text of an operator is read off the operands that count as written. -/
theorem collect_layOut {f : α → List γ} (collects : Collects f) {op : Operator} {as : List α}
    (accepted : op.arity.accepts as.length = true) :
    f (op.layOut as) = (as.take (op.relevant as.length)).flatMap f := by
  match op, as with
  | keyword name signs arity, [] =>
    rcases signs with _ | ⟨sign, _ | ⟨second, signs⟩⟩ <;> exact collects.empty
  | keyword name signs arity, a :: as =>
    by_cases single : as.length = 0 ∧ signs.length = 1
    · obtain ⟨sign, rfl⟩ := List.length_eq_one_iff.mp single.2
      obtain rfl := List.length_eq_zero_iff.mp single.1
      simp [layOut, relevant, collects.append, collects.word, collects.blank, collects.group]
    · have written : (a :: as).take (relevant (keyword name signs arity) (a :: as).length) =
          a :: as.take signs.length := by
        rw [relevant, if_neg (by simpa using single), List.length_cons, Nat.add_min_add_right,
          List.take_succ_cons, Nat.min_comm, ← List.take_eq_take_min]
      rw [written, layOut_several single, collects.append, collects.group,
        collect_layOutBehind collects, List.flatMap_cons]
  | membership name sign, a :: as =>
    simp [layOut, relevant, collects.append, collects.spaced, collects.group, collects.list]
  | assignment, [a, b] =>
    simp [layOut, relevant, collects.append, collects.spaced, collects.group]
  | suffix name sign, [a] =>
    simp [layOut, relevant, collects.append, collects.word, collects.blank, collects.group]
  | membership name sign, [] => exact collects.empty
  | assignment, [] | assignment, [a] | assignment, a :: b :: c :: as
  | suffix name sign, [] | suffix name sign, a :: b :: as =>
    exact absurd (eq_of_beq accepted) (by simp)

/-! ### Rendering -/

theorem interleave_eq (signs : List String) (es : List Expr) :
    interleave signs es = layOutBehind signs (es.map Expr.text) := by
  induction signs generalizing es with
  | nil => cases es <;> rfl
  | cons sign signs ih =>
    cases es with
    | nil => rfl
    | cons e es => simp only [interleave, ih, layOutBehind, List.map_cons]; rfl

/-- Keywords with as many operands behind the first one are rendered by their layout, except for one
keyword before one operand. -/
theorem render_several {name : String} {signs : List String} {arity : Arity} {e : Expr}
    {es : List Expr} (nonempty : signs ≠ []) (several : ¬(es.length = 0 ∧ signs.length = 1)) :
    (keyword name signs arity).render (e :: es) =
      if es.length < signs.length then .error (.fewOperands name signs.length (es.length + 1))
      else .ok ((keyword name signs arity).layOut ((e :: es).map Expr.text)) := by
  rw [List.map_cons, layOut_several (by simpa using several), ← interleave_eq]
  rcases signs with _ | ⟨sign, _ | ⟨second, signs⟩⟩
  · exact absurd rfl nonempty
  · cases es with
    | nil => exact absurd ⟨rfl, rfl⟩ several
    | cons f es => rfl
  · rfl

/-- An operator renders by its layout. -/
theorem render_eq {op : Operator} {es : List Expr} {text : String} (ok : op.render es = .ok text) :
    text = op.layOut (es.map Expr.text) := by
  match op, es with
  | keyword name [] arity, es => cases ok
  | keyword name (sign :: signs) arity, [] => simp [render, renderKeywords] at ok
  | keyword name (sign :: signs) arity, e :: es =>
    by_cases single : es.length = 0 ∧ (sign :: signs).length = 1
    · obtain rfl : signs = [] := by simpa using single.2
      obtain rfl := List.length_eq_zero_iff.mp single.1
      exact (Except.ok.inj ok).symm
    · rw [render_several (List.cons_ne_nil sign signs) single] at ok
      split at ok
      · cases ok
      · exact (Except.ok.inj ok).symm
  | membership name sign, e :: f :: es =>
    rw [← Except.ok.inj ok]
    simp [layOut, spaced, append, word, blank, group, list, String.append_assoc]
  | assignment, [e, f] => exact (Except.ok.inj ok).symm
  | suffix name sign, [e] => exact (Except.ok.inj ok).symm
  | membership name sign, [] | membership name sign, [e] => simp [render] at ok
  | assignment, [] | assignment, [e] | assignment, e :: f :: g :: es => simp [render] at ok
  | suffix name sign, [] | suffix name sign, e :: f :: es => simp [render] at ok

/-- An expression that is computed has the text and the parameters of the operands that are
rendered, and is referred to by its text. -/
theorem compute_eq_ok {op : Operator} {es : List Expr} {e : Expr} (ok : op.compute es = .ok e) :
    op.arity.accepts es.length = true ∧ op.render es = .ok e.text ∧ e.params = op.collect es ∧
      e.reference = e.text := by
  unfold compute at ok
  split at ok
  · cases ok
  · by_cases accepted : op.arity.accepts es.length = true
    · cases rendered : op.render es with
      | error fault => simp [checkCount, accepted, rendered, bind, Except.bind] at ok
      | ok text =>
        simp only [checkCount, if_pos accepted, rendered, bind, Except.bind, pure, Except.pure,
          Except.ok.injEq] at ok
        rw [← ok]
        exact ⟨accepted, rfl, rfl, rfl⟩
    · simp [checkCount, accepted, bind, Except.bind] at ok

end Operator

end SqlBuilder
