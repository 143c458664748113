import SqlBuilder.Proofs.Operator.Layout

/-! # Outlines of texts

The outline of a text keeps the characters outside of parentheses one by one and takes each
outermost pair of parentheses together with what stands between them as one item. As long as the
parentheses between them are balanced, the closing one of a pair is found without knowing what was
put between the two, so an outline can be read off its text.
-/

namespace SqlBuilder

/-- An item of a text: a character, or something in parentheses. -/
inductive Item
  | char (c : Char)
  | group (content : List Char)
  deriving DecidableEq

namespace Item

/-- The character that is an item; nothing for something in parentheses. -/
def char? : Item → Option Char
  | char c => some c
  | group _ => none

def content? : Item → Option (List Char)
  | char _ => none
  | group content => some content

end Item

/-- A text in items. -/
abbrev Outline := List Item

namespace Outline

def chars : Outline → List Char
  | [] => []
  | .char c :: rest => c :: chars rest
  | .group content :: rest => '(' :: (content ++ ')' :: chars rest)

def text (o : Outline) : String := String.ofList o.chars

/-- The outline of words without parentheses. -/
def words (s : String) : Outline := s.toList.map .char

/-- The outline with commas between texts. -/
def commas (os : List Outline) : Outline := (words ", ").intercalate os

/-- The outline with everything between parentheses left out. -/
def skeleton (o : Outline) : List (Option Char) := o.map Item.char?

/-- What stands between the outermost parentheses. -/
def contents (o : Outline) : List (List Char) := o.filterMap Item.content?

instance : Written Outline where
  empty := []
  word := words
  blank := words " "
  append o p := o ++ p
  group o := [.group o.chars]
  list := commas

@[simp]
theorem chars_append (o p : Outline) : chars (o ++ p) = chars o ++ chars p := by
  fun_induction chars o with
  | case1 => rfl
  | case2 c rest ih => simp [chars, ih]
  | case3 content rest ih => simp [chars, ih]

@[simp]
theorem chars_words (s : String) : chars (words s) = s.toList := by
  rw [words]
  induction s.toList with
  | nil => rfl
  | cons c cs ih => rw [List.map_cons, chars, ih]

@[simp]
theorem text_append (o p : Outline) : text (o ++ p) = text o ++ text p := by simp [text]

@[simp]
theorem text_words (s : String) : text (words s) = s := by simp [text]

theorem hom_text : Written.Hom text where
  empty := rfl
  word := text_words
  blank := rfl
  append := text_append
  group o := by
    rw [← String.toList_inj]
    simp [text, Written.group, Operator.parens, chars]
  list os := by
    simp only [Written.list, commas]
    rw [Written.text_intercalate rfl text_append, text_words]

@[simp]
theorem skeleton_append (o p : Outline) : skeleton (o ++ p) = skeleton o ++ skeleton p :=
  List.map_append

@[simp]
theorem skeleton_words (s : String) : skeleton (words s) = s.toList.map some := by
  simp [skeleton, words, Item.char?, Function.comp_def]

@[simp]
theorem skeleton_nil : skeleton [] = [] := rfl

@[simp]
theorem skeleton_cons_group (content : List Char) (o : Outline) :
    skeleton (.group content :: o) = none :: skeleton o := rfl

@[simp]
theorem contents_nil : contents [] = [] := rfl

@[simp]
theorem contents_cons_group (content : List Char) (o : Outline) :
    contents (.group content :: o) = content :: contents o := rfl

@[simp]
theorem contents_append (o p : Outline) : contents (o ++ p) = contents o ++ contents p :=
  List.filterMap_append

@[simp]
theorem contents_words (s : String) : contents (words s) = [] := by
  simp [contents, words, List.filterMap_eq_nil_iff, Item.content?]

end Outline

/-! ### Reading outlines off texts -/

/-- Characters with balanced parentheses. -/
inductive Balanced : List Char → Prop
  | nil : Balanced []
  | char {c : Char} {rest : List Char} (opening : c ≠ '(') (closing : c ≠ ')')
      (balanced : Balanced rest) : Balanced (c :: rest)
  | group {inner rest : List Char} (balanced : Balanced inner) (others : Balanced rest) :
      Balanced ('(' :: (inner ++ ')' :: rest))

/-- Balanced characters end at the first closing parenthesis that they do not open. -/
theorem Balanced.append_inj {as bs : List Char} (left : Balanced as) (right : Balanced bs)
    {rest others : List Char} (same : as ++ ')' :: rest = bs ++ ')' :: others) :
    as = bs ∧ rest = others := by
  induction left generalizing bs rest others with
  | nil =>
    cases right with
    | nil => simpa using same
    | char opening closing => exact absurd (List.cons.inj same).1.symm closing
    | group => exact absurd (List.cons.inj same).1 (by decide)
  | char opening closing _ ih =>
    cases right with
    | nil => exact absurd (List.cons.inj same).1 closing
    | char _ _ right =>
      obtain ⟨rfl, behind⟩ := List.cons.inj same
      obtain ⟨rfl, rfl⟩ := ih right behind
      exact ⟨rfl, rfl⟩
    | group => exact absurd (List.cons.inj same).1 opening
  | group _ _ ihInner ihRest =>
    cases right with
    | nil => exact absurd (List.cons.inj same).1 (by decide)
    | char opening => exact absurd (List.cons.inj same).1.symm opening
    | group inner right =>
      simp only [List.cons_append, List.append_assoc, List.cons.injEq, true_and] at same
      obtain ⟨rfl, behind⟩ := ihInner inner same
      obtain ⟨rfl, rfl⟩ := ihRest right behind
      exact ⟨rfl, rfl⟩

namespace Outline

/-- All parentheses are those of groups, and are balanced within them. -/
structure Closed (o : Outline) : Prop where
  plain : ∀ c, some c ∈ o.skeleton → c ≠ '(' ∧ c ≠ ')'
  balanced : ∀ content ∈ o.contents, Balanced content

theorem closed_char_iff {c : Char} {o : Outline} :
    Closed (.char c :: o) ↔ (c ≠ '(' ∧ c ≠ ')') ∧ o.Closed := by
  constructor
  · intro closed
    exact ⟨closed.plain c (by simp [skeleton, Item.char?]),
      fun d held => closed.plain d (List.mem_cons_of_mem _ held), closed.balanced⟩
  · rintro ⟨plain, closed⟩
    refine ⟨?_, closed.balanced⟩
    intro d held
    rcases List.mem_cons.mp held with same | held
    · obtain rfl := Option.some.inj same
      exact plain
    · exact closed.plain d held

theorem closed_group_iff {content : List Char} {o : Outline} :
    Closed (.group content :: o) ↔ Balanced content ∧ o.Closed := by
  constructor
  · intro closed
    exact ⟨closed.balanced content (List.mem_cons_self ..),
      fun c held => closed.plain c (List.mem_cons_of_mem _ held),
      fun other held => closed.balanced other (List.mem_cons_of_mem _ held)⟩
  · rintro ⟨balanced, closed⟩
    refine ⟨?_, ?_⟩
    · intro c held
      rcases List.mem_cons.mp held with same | held
      · cases same
      · exact closed.plain c held
    · intro other held
      rcases List.mem_cons.mp held with rfl | held
      · exact balanced
      · exact closed.balanced other held

theorem Closed.append {o p : Outline} (left : o.Closed) (right : p.Closed) :
    Closed (o ++ p) where
  plain c held := by
    rw [skeleton_append] at held
    exact (List.mem_append.mp held).elim (left.plain c) (right.plain c)
  balanced content held := by
    rw [contents_append] at held
    exact (List.mem_append.mp held).elim (left.balanced content) (right.balanced content)

/-- A list of closed outlines is closed. -/
theorem Closed.commas {os : List Outline} (closed : ∀ o ∈ os, o.Closed) :
    (commas os).Closed := by
  have comma : (words ", ").Closed := ⟨by simp, by simp⟩
  induction os with
  | nil => exact ⟨by simp [Outline.commas, skeleton], by simp [Outline.commas, contents]⟩
  | cons o os ih =>
    have own := closed o (List.mem_cons_self ..)
    have rest := ih fun p member => closed p (List.mem_cons_of_mem o member)
    cases os with
    | nil => simpa [Outline.commas] using own
    | cons p os =>
      have split : Outline.commas (o :: p :: os) = o ++ words ", " ++ Outline.commas (p :: os) :=
        List.intercalate_cons_cons
      rw [split]
      exact (own.append comma).append rest

/-- The characters of a closed outline are balanced. -/
theorem Closed.chars_balanced {o : Outline} (closed : o.Closed) : Balanced o.chars := by
  induction o with
  | nil => exact .nil
  | cons item o ih =>
    cases item with
    | char c =>
      obtain ⟨⟨opening, closing⟩, closed⟩ := closed_char_iff.mp closed
      exact .char opening closing (ih closed)
    | group content =>
      obtain ⟨balanced, closed⟩ := closed_group_iff.mp closed
      exact .group balanced (ih closed)

/-- A text has one closed outline. -/
theorem Closed.chars_inj {o p : Outline} (left : o.Closed) (right : p.Closed)
    (same : o.chars = p.chars) : o = p := by
  induction o generalizing p with
  | nil =>
    cases p with
    | nil => rfl
    | cons item p => cases item <;> simp [chars] at same
  | cons item o ih =>
    cases p with
    | nil => cases item <;> simp [chars] at same
    | cons other p =>
      cases item with
      | char c =>
        obtain ⟨⟨opening, closing⟩, left⟩ := closed_char_iff.mp left
        cases other with
        | char d =>
          obtain ⟨rfl, behind⟩ := List.cons.inj same
          rw [ih left (closed_char_iff.mp right).2 behind]
        | group content => exact absurd (List.cons.inj same).1 opening
      | group content =>
        obtain ⟨balanced, left⟩ := closed_group_iff.mp left
        cases other with
        | char d => exact absurd (List.cons.inj same).1.symm (closed_char_iff.mp right).1.1
        | group inner =>
          obtain ⟨balanced', right'⟩ := closed_group_iff.mp right
          obtain ⟨rfl, behind⟩ := balanced.append_inj balanced' (List.cons.inj same).2
          rw [ih left right' behind]

/-- Several texts have one closed outline each. -/
theorem map_chars_inj {os ps : List Outline} (left : ∀ o ∈ os, o.Closed)
    (right : ∀ p ∈ ps, p.Closed) (same : os.map chars = ps.map chars) : os = ps := by
  induction os generalizing ps with
  | nil => exact (List.map_eq_nil_iff.mp same.symm).symm
  | cons o os ih =>
    cases ps with
    | nil => simp at same
    | cons p ps =>
      obtain ⟨first, rest⟩ := List.cons.inj same
      rw [(left o (List.mem_cons_self ..)).chars_inj (right p (List.mem_cons_self ..)) first,
        ih (fun q member => left q (List.mem_cons_of_mem o member))
          (fun q member => right q (List.mem_cons_of_mem p member)) rest]

/-- A comma that is missing in what stands before it is the first one. -/
theorem append_comma_inj {o p rest others : Outline} (bare : Item.char ',' ∉ o)
    (bare' : Item.char ',' ∉ p)
    (same : o ++ .char ',' :: rest = p ++ .char ',' :: others) : o = p ∧ rest = others := by
  induction o generalizing p with
  | nil =>
    cases p with
    | nil => simpa using same
    | cons item p => exact absurd (List.cons.inj same).1 fun first => bare' (by simp [first])
  | cons item o ih =>
    cases p with
    | nil => exact absurd (List.cons.inj same).1 fun first => bare (by simp [first])
    | cons other p =>
      obtain ⟨rfl, behind⟩ := List.cons.inj same
      have tails := ih (fun held => bare (List.mem_cons_of_mem _ held))
        (fun held => bare' (List.mem_cons_of_mem _ held)) behind
      exact ⟨congrArg (item :: ·) tails.1, tails.2⟩

/-- A list is split at its commas, if there are none outside of parentheses in what it lists. -/
theorem commas_inj {os ps : List Outline} (bare : ∀ o ∈ os, Item.char ',' ∉ o)
    (bare' : ∀ p ∈ ps, Item.char ',' ∉ p) (nonempty : os ≠ []) (nonempty' : ps ≠ [])
    (same : commas os = commas ps) : os = ps := by
  have split (o p : Outline) (os : List Outline) :
      commas (o :: p :: os) = o ++ .char ',' :: .char ' ' :: commas (p :: os) := by
    simp [commas, List.intercalate_cons_cons, words]
  induction os generalizing ps with
  | nil => exact absurd rfl nonempty
  | cons o os ih =>
    have own := bare o (List.mem_cons_self ..)
    rcases ps with _ | ⟨p, ps⟩
    · exact absurd rfl nonempty'
    have own' := bare' p (List.mem_cons_self ..)
    rcases os with _ | ⟨second, os⟩ <;> rcases ps with _ | ⟨second', ps⟩
    · simpa [commas] using same
    · rw [split] at same
      exact absurd (by simpa [commas] using same) fun alone : o = _ => own (by simp [alone])
    · rw [split] at same
      exact absurd (by simpa [commas] using same) fun alone : _ = p => own' (by simp [← alone])
    · rw [split, split] at same
      obtain ⟨rfl, behind⟩ := append_comma_inj own own' same
      have rest := ih (fun q member => bare q (List.mem_cons_of_mem o member))
        (fun q member => bare' q (List.mem_cons_of_mem o member)) (by simp) (by simp)
        (List.cons.inj behind).2
      rw [rest]

end Outline

end SqlBuilder
