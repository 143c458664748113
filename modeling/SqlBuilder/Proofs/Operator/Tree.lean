import SqlBuilder.Proofs.Operator.Readability

/-! # Trees of operators

An expression that is computed by built-in operators from words can be read back: its text belongs
to no other tree of operators and words.
-/

namespace SqlBuilder

/-- How an expression is computed: operators over raw texts. -/
inductive Tree
  | leaf (text : String)
  | node (op : Operator) (operands : List Tree)

namespace Tree

open Operator

mutual

def eval : Tree → Except Error Expr
  | leaf text => .ok { text }
  | node op operands => do op.compute (← evalAll operands)

def evalAll : List Tree → Except Error (List Expr)
  | [] => .ok []
  | t :: ts => do return (← eval t) :: (← evalAll ts)

end

mutual

def outline : Tree → Outline
  | leaf text => .words text
  | node op operands => op.layOut (outlines operands)

def outlines : List Tree → List Outline
  | [] => []
  | t :: ts => outline t :: outlines ts

end

def isWordChar (c : Char) : Bool := c.isAlphanum || c ∈ ['_', '$', '@', '.']

/-- Trees of built-in operators, each with as many operands as its arity allows, over words. -/
inductive Readable : Tree → Prop
  | leaf {text : String} (word : text.toList.all isWordChar = true) : Readable (leaf text)
  | node {op : Operator} {operands : List Tree} (builtin : op ∈ builtins)
      (accepted : op.arity.accepts operands.length = true)
      (each : ∀ t ∈ operands, Readable t) : Readable (node op operands)

theorem outlines_eq_map (ts : List Tree) : outlines ts = ts.map outline := by
  induction ts with
  | nil => rfl
  | cons t ts ih => rw [outlines, ih, List.map_cons]

variable {t u : Tree}

theorem evalAll_outlines {ts : List Tree}
    (each : ∀ t ∈ ts, ∃ e, t.eval = .ok e ∧ e.text = t.outline.text) :
    ∃ es, evalAll ts = .ok es ∧ es.map Expr.text = (ts.map outline).map Outline.text := by
  induction ts with
  | nil => exact ⟨[], rfl, rfl⟩
  | cons t ts ih =>
    obtain ⟨e, evaluated, text⟩ := each t (List.mem_cons_self ..)
    obtain ⟨es, rest, texts⟩ := ih fun u member => each u (List.mem_cons_of_mem t member)
    refine ⟨e :: es, ?_, by simp only [List.map_cons, text, texts]⟩
    rw [evalAll, evaluated, rest]
    rfl

/-- The text of a tree is the one its outline stands for. -/
theorem Readable.eval_outline (readable : Readable t) :
    ∃ e, t.eval = .ok e ∧ e.text = t.outline.text := by
  induction readable with
  | @leaf text word => exact ⟨{ text }, rfl, by simp [outline, Outline.text]⟩
  | @node op operands builtin accepted each ih =>
    obtain ⟨es, evaluated, texts⟩ := evalAll_outlines ih
    have count : es.length = operands.length := by simpa using congrArg List.length texts
    obtain ⟨e, computed⟩ := compute_builtin builtin (count ▸ accepted)
    refine ⟨e, ?_, ?_⟩
    · rw [eval, evaluated]
      exact computed
    · rw [render_eq (compute_eq_ok computed).2.1, texts, ← layOut_map Outline.hom_text, outline,
        outlines_eq_map]

theorem isWordChar_plain {c : Char} (word : isWordChar c = true) : c ≠ '(' ∧ c ≠ ')' ∧ c ≠ ',' := by
  refine ⟨?_, ?_, ?_⟩ <;> rintro rfl <;> exact absurd word (by decide)

/-- The text of a readable tree can be an operand. -/
theorem Readable.sound (readable : Readable t) : Sound t.outline := by
  induction readable with
  | @leaf text word =>
    have plain (c : Char) (held : some c ∈ (Outline.words text).skeleton) :
        c ≠ '(' ∧ c ≠ ')' ∧ c ≠ ',' :=
      isWordChar_plain (List.all_eq_true.mp word c (by simpa using held))
    exact
      { plain := fun c held => ⟨(plain c held).1, (plain c held).2.1⟩
        balanced := by simp [outline]
        bare := fun held => (plain ',' held).2.2 rfl
        divided := by simp [outline, List.map_eq_cons_iff] }
  | @node op operands builtin accepted each ih =>
    rw [outline, outlines_eq_map]
    refine sound_layOut builtin (by simpa using accepted) ?_
    intro o member
    obtain ⟨t, held, rfl⟩ := List.mem_map.mp member
    exact ih t held

/-- A text without parentheses is not that of an operator. -/
theorem words_ne_layOut {op : Operator} {os : List Outline} (text : String)
    (builtin : op ∈ builtins) (accepted : op.arity.accepts os.length = true) :
    Outline.words text ≠ op.layOut os := by
  intro same
  have group : none ∈ (Outline.words text).skeleton := by
    rw [same, skeleton_layOut (applied_of_builtin builtin accepted)]
    exact List.mem_append_right _ (frame_has_group op builtin)
  simp at group

theorem map_outline_inj {ts us : List Tree}
    (each : ∀ t ∈ ts, ∀ {u : Tree}, Readable u → t.outline = u.outline → t = u)
    (readable : ∀ u ∈ us, Readable u) (same : ts.map outline = us.map outline) : ts = us := by
  induction ts generalizing us with
  | nil => exact (List.map_eq_nil_iff.mp same.symm).symm
  | cons t ts ih =>
    cases us with
    | nil => simp at same
    | cons u us =>
      obtain ⟨first, rest⟩ := List.cons.inj same
      rw [each t (List.mem_cons_self ..) (readable u (List.mem_cons_self ..)) first,
        ih (fun v member => each v (List.mem_cons_of_mem t member))
          (fun v member => readable v (List.mem_cons_of_mem u member)) rest]

theorem Readable.sound_outlines {ts : List Tree} (each : ∀ t ∈ ts, Readable t) :
    ∀ o ∈ ts.map outline, Sound o := by
  intro o member
  obtain ⟨t, held, rfl⟩ := List.mem_map.mp member
  exact (each t held).sound

/-- Trees with one outline are one tree. -/
theorem Readable.outline_inj (left : Readable t) (right : Readable u)
    (same : t.outline = u.outline) : t = u := by
  induction left generalizing u with
  | @leaf text word =>
    cases right with
    | @leaf other word' =>
      have chars := congrArg Outline.chars same
      simp only [outline, Outline.chars_words, String.toList_inj] at chars
      rw [chars]
    | @node other others builtin accepted each =>
      rw [outline, outline, outlines_eq_map] at same
      exact absurd same (words_ne_layOut text builtin (by simpa using accepted))
  | @node op operands builtin accepted each ih =>
    rw [outline, outlines_eq_map] at same
    cases right with
    | @leaf text word =>
      exact absurd same.symm (words_ne_layOut text builtin (by simpa using accepted))
    | @node other others builtin' accepted' each' =>
      rw [outline, outlines_eq_map] at same
      obtain ⟨rfl, outlines⟩ := layOut_inj builtin builtin' (by simpa using accepted)
        (by simpa using accepted') (sound_outlines each) (sound_outlines each') same
      rw [map_outline_inj ih each' outlines]

/-- The texts of two trees are equal only if the trees are: they have the same operators with the
same numbers of operands, and the same words. -/
theorem eval_inj (left : Readable t) (right : Readable u) :
    ∃ e f, t.eval = .ok e ∧ u.eval = .ok f ∧ (e.text = f.text → t = u) := by
  obtain ⟨e, evaluated, text⟩ := left.eval_outline
  obtain ⟨f, evaluated', text'⟩ := right.eval_outline
  refine ⟨e, f, evaluated, evaluated', fun same => left.outline_inj right ?_⟩
  have chars : t.outline.chars = u.outline.chars := by
    rw [text, text'] at same
    exact String.ofList_injective same
  exact left.sound.chars_inj right.sound.toClosed chars

/-- An equality assigned a value, and an equality with an equality: the texts are `(a) = (b) = (c)`
and `(a) = ((b) = (c))`. -/
theorem eval_inj_equalities :
    let assigned : Tree :=
      node assignment [node equal [leaf "a", leaf "b"], leaf "c"]
    let compared : Tree := node equal [leaf "a", node equal [leaf "b", leaf "c"]]
    assigned.Readable ∧ compared.Readable ∧
      ∃ e f, assigned.eval = .ok e ∧ compared.eval = .ok f ∧ e.text ≠ f.text := by
  have a : Readable (leaf "a") := .leaf (by decide)
  have b : Readable (leaf "b") := .leaf (by decide)
  have c : Readable (leaf "c") := .leaf (by decide)
  have pair (op : Operator) {t u : Tree} (builtin : op ∈ builtins)
      (two : op.arity = .exactly 2) (left : t.Readable) (right : u.Readable) :
      Readable (node op [t, u]) :=
    .node builtin (by rw [two]; rfl) (by simpa using ⟨left, right⟩)
  have assigned := pair assignment (by decide) rfl (pair equal (by decide) rfl a b) c
  have compared := pair equal (by decide) rfl a (pair equal (by decide) rfl b c)
  obtain ⟨e, f, evaluated, evaluated', unique⟩ := eval_inj assigned compared
  exact ⟨assigned, compared, e, f, evaluated, evaluated', fun same => by cases unique same⟩

end Tree

end SqlBuilder
