import SqlBuilder.Proofs.Operator.Readability
import SqlBuilder.Proofs.Token.Lexeme

/-! # Templates

A template is a text in lexemes with gaps that are filled with one string. What the string is does
not change which lexemes can be told apart, so a template is read token by token whatever fills it:
only its neighbours matter, and operators put parentheses, blanks and commas between the texts they
are given.
-/

namespace SqlBuilder

namespace Lexeme

variable {ls ms : List Lexeme} {c : Char}

theorem apart_of_append (apart : Apart (ls ++ ms)) : Apart ls ∧ Apart ms := by
  obtain ⟨unmarked, differ⟩ := apart
  rw [List.map_append] at differ
  exact ⟨⟨fun c held => unmarked c (List.mem_append_left _ held), differ.left_of_append⟩,
    fun c held => unmarked c (List.mem_append_right _ held), differ.right_of_append⟩

/-- A character that is no quote keeps apart what stands on its two sides. -/
theorem Apart.append_plain (left : Apart ls) (free : Quote.ofMark? c = none) (right : Apart ms) :
    Apart (ls ++ plain c :: ms) := by
  have rest := apart_plain_iff.mpr ⟨free, right⟩
  refine ⟨?_, ?_⟩
  · intro d held
    exact (List.mem_append.mp held).elim (left.unmarked d) (rest.unmarked d)
  · rw [List.map_append]
    refine List.isChain_append.mpr ⟨left.differ, rest.differ, ?_⟩
    intro quote _ next first
    obtain rfl : none = next := by simpa [quote?] using first
    exact id

/-- A text in which every quote that is opened is closed. -/
def Closed (s : String) : Prop := ∃ ls, scan s.toList = some ls

def Unmarked (s : String) : Prop := ∀ c ∈ s.toList, Quote.ofMark? c = none

instance (s : String) : Decidable (Unmarked s) := List.decidableBAll _ s.toList

theorem Apart.map_plain_append {cs : List Char} (unmarked : ∀ c ∈ cs, Quote.ofMark? c = none)
    (right : Apart ms) : Apart (cs.map plain ++ ms) := by
  induction cs with
  | nil => exact right
  | cons c cs ih =>
    exact apart_plain_iff.mpr ⟨unmarked c (List.mem_cons_self ..),
      ih fun d held => unmarked d (List.mem_cons_of_mem c held)⟩

theorem written_map_plain (cs : List Char) : (cs.map plain).flatMap written = cs := by
  induction cs with
  | nil => rfl
  | cons c cs ih => rw [List.map_cons, List.flatMap_cons, written, ih, List.singleton_append]

/-- A text in quotes is written as it is enclosed. -/
theorem ofList_written_quoted (quote : Quote) (s : String) :
    String.ofList (written (.quoted quote s.toList)) = Text.Quoted.enclose quote.mark s := by
  rw [← String.toList_inj, String.toList_ofList, Text.Quoted.toList_enclose, written]

theorem scan_of_unmarked {s : String} (unmarked : Unmarked s) :
    scan s.toList = some (s.toList.map plain) := by
  have apart : Apart (s.toList.map plain ++ []) := apart_nil.map_plain_append unmarked
  rw [List.append_nil] at apart
  exact scan_eq_some_iff.mpr ⟨(written_map_plain _).symm, apart⟩

theorem closed_of_unmarked {s : String} (unmarked : Unmarked s) : Closed s :=
  ⟨_, scan_of_unmarked unmarked⟩

/-- A text that is written between quotes closes them. -/
theorem closed_enclose (quote : Quote) (s : String) :
    Closed (Text.Quoted.enclose quote.mark s) := by
  refine ⟨[quoted quote s.toList], scan_eq_some_iff.mpr ⟨?_, ?_⟩⟩
  · simp [Text.Quoted.toList_enclose, written]
  · exact apart_quoted_iff.mpr ⟨by simp, apart_nil⟩

theorem Closed.append_dot {s t : String} (left : Closed s) (right : Closed t) :
    Closed (s ++ "." ++ t) := by
  obtain ⟨ls, divided⟩ := left
  obtain ⟨ms, divided'⟩ := right
  obtain ⟨chars, apart⟩ := scan_eq_some_iff.mp divided
  obtain ⟨chars', apart'⟩ := scan_eq_some_iff.mp divided'
  refine ⟨ls ++ plain '.' :: ms, scan_eq_some_iff.mpr ⟨?_, ?_⟩⟩
  · simp [chars, chars', written]
  · exact apart.append_plain rfl apart'

end Lexeme

/-- A place in a template: a gap for the string, or a lexeme. -/
inductive Slot
  | gap
  | lexeme (l : Lexeme)
  deriving DecidableEq

/-- The lexeme at a place once the string is known. -/
def Slot.fill (s : String) : Slot → Lexeme
  | gap => .quoted .single s.toList
  | lexeme l => l

/-- A text in lexemes, with gaps. -/
abbrev Template := List Slot

namespace Template

def lexemes (s : String) (t : Template) : List Lexeme := t.map (Slot.fill s)

def text (s : String) (t : Template) : String :=
  String.ofList ((t.lexemes s).flatMap Lexeme.written)

def gaps (t : Template) : Nat := t.count .gap

/-- A text without gaps. One in which a quote stays open is taken character by character. -/
def ofText (s : String) : Template :=
  ((Lexeme.scan s.toList).getD (s.toList.map .plain)).map .lexeme

instance : Written Template where
  empty := []
  word := ofText
  blank := ofText " "
  append t u := t ++ u
  group t := ofText "(" ++ t ++ ofText ")"
  list := (ofText ", ").intercalate

/-- Whatever the string is, all lexemes can be told apart. -/
def Apart (t : Template) : Prop := ∀ s, Lexeme.Apart (t.lexemes s)

/-- A template that keeps apart what stands on its two sides. -/
def Guarded (t : Template) : Prop :=
  ∀ before after : Template, before.Apart → after.Apart → (before ++ t ++ after).Apart

variable {t u v : Template} {s w : String}

@[simp]
theorem lexemes_append (s : String) (t u : Template) :
    (t ++ u : Template).lexemes s = t.lexemes s ++ u.lexemes s := List.map_append

@[simp]
theorem lexemes_map_lexeme (s : String) (ls : List Lexeme) :
    lexemes s (ls.map .lexeme) = ls := by
  simp [lexemes, Function.comp_def, Slot.fill]

@[simp]
theorem text_append (s : String) (t u : Template) :
    (t ++ u : Template).text s = t.text s ++ u.text s := by
  simp [text]

@[simp]
theorem text_ofText (s w : String) : (ofText w).text s = w := by
  rw [text, ofText, lexemes_map_lexeme]
  cases divided : Lexeme.scan w.toList with
  | none => simp [Lexeme.written_map_plain]
  | some ls => simp [← (Lexeme.scan_eq_some_iff.mp divided).1]

/-- A gap is filled with a string literal. -/
theorem text_gap (s : String) : text s [.gap] = (Literal.quoted s).render := by
  simp only [text, lexemes, List.map_cons, List.map_nil, Slot.fill, List.flatMap_singleton]
  exact Lexeme.ofList_written_quoted .single s

theorem hom_text (s : String) : Written.Hom (text s) where
  empty := rfl
  word := text_ofText s
  blank := text_ofText s " "
  append := text_append s
  group t := by simp [Written.group, Operator.parens, String.append_assoc]
  list ts := by
    simp only [Written.list]
    rw [Written.text_intercalate rfl (text_append s), text_ofText]

/-! ### Gaps -/

@[simp]
theorem gaps_append (t u : Template) : gaps (t ++ u) = gaps t + gaps u := List.count_append

@[simp]
theorem gaps_ofText (w : String) : gaps (ofText w) = 0 := by
  simp [gaps, ofText, List.count_eq_zero]

/-- Listing adds no gaps and loses none. -/
@[simp]
theorem gaps_list (ts : List Template) : gaps (Written.list ts) = gaps ts.flatten := by
  simp only [Written.list]
  induction ts with
  | nil => rfl
  | cons t ts ih =>
    cases ts with
    | nil => simp
    | cons u ts =>
      have rest : gaps (t :: u :: ts).flatten = gaps t + gaps (u :: ts).flatten := gaps_append ..
      rw [List.intercalate_cons_cons, gaps_append, gaps_append, gaps_ofText, ih, rest, Nat.add_zero]

/-- An operator writes every gap of its operands once. -/
theorem gaps_layOut {op : Operator} {ts : List Template} (applied : Operator.Applied op ts) :
    gaps (op.layOut ts) = gaps ts.flatten := by
  cases applied <;>
    simp [Operator.layOut, Operator.layOutBehind, Operator.binary, Operator.negation,
      Written.spaced, Written.append, Written.group, Written.word, Written.blank, Written.empty]

theorem exists_of_gaps_eq_zero (none : gaps t = 0) : ∃ ls : List Lexeme, t = ls.map .lexeme := by
  induction t with
  | nil => exact ⟨[], rfl⟩
  | cons slot t ih =>
    cases slot with
    | gap => simp [gaps] at none
    | lexeme l =>
      obtain ⟨ls, rfl⟩ := ih (by simpa [gaps] using none)
      exact ⟨l :: ls, rfl⟩

/-- A template with one gap, cut at the gap. -/
theorem exists_of_gaps_eq_one (one : gaps t = 1) :
    ∃ before after : List Lexeme, t = before.map .lexeme ++ .gap :: after.map .lexeme := by
  have held : Slot.gap ∈ t := List.count_pos_iff.mp (by rw [gaps] at one; omega)
  obtain ⟨left, right, rfl⟩ := List.append_of_mem held
  have sides : gaps left = 0 ∧ gaps right = 0 := by
    simp only [gaps, List.count_append, List.count_cons_self] at one ⊢
    omega
  obtain ⟨before, rfl⟩ := exists_of_gaps_eq_zero sides.1
  obtain ⟨after, rfl⟩ := exists_of_gaps_eq_zero sides.2
  exact ⟨before, after, rfl⟩

/-! ### Neighbours -/

theorem apart_nil : Apart [] := fun _ => Lexeme.apart_nil

theorem apart_gap : Apart [.gap] := fun _ =>
  Lexeme.apart_quoted_iff.mpr ⟨by simp, Lexeme.apart_nil⟩

theorem apart_ofText (closed : Lexeme.Closed w) : (ofText w).Apart := by
  intro s
  obtain ⟨ls, divided⟩ := closed
  rw [ofText, lexemes_map_lexeme, divided]
  exact (Lexeme.scan_eq_some_iff.mp divided).2

theorem Guarded.apart (guarded : t.Guarded) : t.Apart := by
  simpa using guarded [] [] apart_nil apart_nil

/-- Two guarded templates guard what stands on their two sides together. -/
theorem Guarded.append (left : t.Guarded) (right : u.Guarded) : (t ++ u).Guarded := by
  intro before after apart apart'
  have first := left before [] apart apart_nil
  rw [List.append_nil] at first
  simpa using right (before ++ t) after first apart'

theorem Apart.append_guarded (apart : t.Apart) (guarded : u.Guarded) : (t ++ u).Apart := by
  simpa using guarded t [] apart apart_nil

theorem Guarded.append_apart (guarded : t.Guarded) (apart : u.Apart) : (t ++ u).Apart :=
  guarded [] u apart_nil apart

/-- Between any two texts a word without quotes keeps them apart. -/
theorem guarded_ofText (unmarked : Lexeme.Unmarked w) (nonempty : w ≠ "") :
    (ofText w).Guarded := by
  intro before after left right s
  have nonempty : w.toList ≠ [] := by simpa using nonempty
  obtain ⟨c, cs, chars⟩ := List.exists_cons_of_ne_nil nonempty
  have free : ∀ d ∈ c :: cs, Quote.ofMark? d = none := chars ▸ unmarked
  rw [ofText, Lexeme.scan_of_unmarked unmarked, Option.getD_some, lexemes_append, lexemes_append,
    lexemes_map_lexeme, chars]
  -- The first character ends what stands before; the others join what stands behind.
  have rest : Lexeme.Apart (cs.map .plain ++ after.lexemes s) :=
    (right s).map_plain_append fun d held => free d (List.mem_cons_of_mem c held)
  simpa using (left s).append_plain (free c (List.mem_cons_self ..)) rest

/-- Between two guarded templates anything can stand that is told apart in itself. -/
theorem Guarded.around (opening : t.Guarded) (apart : u.Apart) (closing : v.Guarded) :
    (t ++ u ++ v).Guarded := by
  intro before after left right
  have inner := closing (before ++ t ++ u) after (opening before u left apart) right
  simpa using inner

theorem guarded_group (apart : t.Apart) : Guarded (Written.group t) :=
  (guarded_ofText (by decide) (by decide)).around apart (guarded_ofText (by decide) (by decide))

theorem guarded_blank : Guarded Written.blank := guarded_ofText (by decide) (by decide)

/-- Between two blanks even an empty word keeps apart what stands on its two sides. -/
theorem guarded_spaced (unmarked : Lexeme.Unmarked w) : Guarded (Written.spaced w) :=
  guarded_blank.around (apart_ofText (Lexeme.closed_of_unmarked unmarked)) guarded_blank

/-- Commas keep apart what is listed. -/
theorem apart_list {ts : List Template} (each : ∀ t ∈ ts, t.Apart) :
    Apart (Written.list ts) := by
  have comma : (ofText ", ").Guarded := guarded_ofText (by decide) (by decide)
  simp only [Written.list]
  induction ts with
  | nil => exact apart_nil
  | cons t ts ih =>
    cases ts with
    | nil => simpa using each t (by simp)
    | cons u ts =>
      rw [List.intercalate_cons_cons]
      exact comma t _ (each t (by simp)) (ih fun v member => each v (List.mem_cons_of_mem t member))

end Template

namespace Operator

open Template

theorem unmarked_keywords : ∀ op ∈ builtins, ∀ sign ∈ op.keywords, Lexeme.Unmarked sign := by
  decide

/-- The operands of a built-in operator are kept apart by what it writes around them. -/
theorem apart_layOut {op : Operator} {ts : List Template} (builtin : op ∈ builtins)
    (accepted : op.arity.accepts ts.length = true) (each : ∀ t ∈ ts, t.Apart) :
    Apart (op.layOut ts) := by
  have unmarked := unmarked_keywords op builtin
  have group (t : Template) (member : t ∈ ts) : Guarded (Written.group t) :=
    guarded_group (each t member)
  cases applied_of_builtin builtin accepted with
  | binary sign a b =>
    have between := guarded_spaced (unmarked sign (by simp [keywords, binary]))
    exact (group a (by simp)).append_apart
      ((between.append (group b (by simp))).append_apart apart_nil)
  | negation a =>
    have before := apart_ofText (Lexeme.closed_of_unmarked (unmarked "NOT" (by decide)))
    exact (before.append_guarded guarded_blank).append_guarded (group a (by simp))
  | range sign a b c =>
    have between := guarded_spaced (unmarked sign (by simp [keywords]))
    have conjoined := guarded_spaced (unmarked "AND" (by simp [keywords]))
    exact (group a (by simp)).append_apart ((between.append (group b (by simp))).append_apart
      ((conjoined.append (group c (by simp))).append_apart apart_nil))
  | membership sign a b as =>
    have between := guarded_spaced (unmarked sign (by simp [keywords]))
    have values : Apart (Written.list (b :: as)) :=
      apart_list fun t member => each t (List.mem_cons_of_mem a member)
    exact (((group a (by simp)).append between).append (guarded_group values)).apart
  | assignment a b =>
    have equals := guarded_spaced (unmarked "=" (by simp [keywords]))
    have target := each a (by simp)
    exact (target.append_guarded equals).append_guarded (group b (by simp))
  | suffix sign a =>
    have behind := apart_ofText (Lexeme.closed_of_unmarked (unmarked sign (by simp [keywords])))
    exact ((group a (by simp)).append guarded_blank).append_apart behind

end Operator

end SqlBuilder
