import Mathlib.Data.List.Chain
import SqlBuilder.Ident.Basic
import SqlBuilder.Proofs.Text.Quoted

/-! # Reading statements token by token

Single quotes stand around strings and double quotes around names; either is written twice inside
its own quotes, and a backslash is a character like any other. A text is first divided at its
quotes, and then the characters outside of them are put together to words. The division finds a
sequence of lexemes in exactly one text, the one they are written as, provided that no two texts in
the same quotes stand next to each other: there the closing quote of the first and the opening one
of the second would be read as one quote inside a longer text.
-/

namespace SqlBuilder

/-- The quotes around strings and around names. -/
inductive Quote
  | single
  | double
  deriving DecidableEq

namespace Quote

def mark : Quote → Char
  | single => '\''
  | double => '"'

/-- The quote that a character is the mark of. -/
def ofMark? (c : Char) : Option Quote :=
  if c = '\'' then some single else if c = '"' then some double else none

theorem ofMark?_eq_some_iff {c : Char} {quote : Quote} :
    ofMark? c = some quote ↔ c = quote.mark := by
  unfold ofMark?
  split
  · next same => cases quote <;> simp [mark, same]
  · split
    · next same => cases quote <;> simp [mark, same]
    · cases quote <;> simp_all [mark]

@[simp]
theorem ofMark?_mark (quote : Quote) : ofMark? quote.mark = some quote :=
  ofMark?_eq_some_iff.mpr rfl

/-- The characters of bare names are no quotes. -/
theorem ofMark?_of_continues {c : Char} (named : continuesBareName c = true) :
    ofMark? c = none := by
  cases marks : ofMark? c with
  | none => rfl
  | some quote =>
    obtain rfl := ofMark?_eq_some_iff.mp marks
    exact absurd named (by cases quote <;> decide)

end Quote

/-- What a text is divided into: a text in quotes, or a character outside of quotes. -/
inductive Lexeme
  | quoted (quote : Quote) (value : List Char)
  | plain (c : Char)
  deriving DecidableEq

namespace Lexeme

def quote? : Lexeme → Option Quote
  | quoted quote _ => some quote
  | plain _ => none

def written : Lexeme → List Char
  | quoted quote value =>
    quote.mark :: (Text.Quoted.double quote.mark value ++ [quote.mark])
  | plain c => [c]

/-- Divides a text at its quotes. There is no division when a quote stays open. -/
def scan : List Char → Option (List Lexeme)
  | [] => some []
  | c :: cs =>
    match Quote.ofMark? c with
    | none => (scan cs).map (plain c :: ·)
    | some quote =>
      match _found : Text.Quoted.scan c cs with
      | none => none
      | some (value, after) => (scan after).map (quoted quote value :: ·)
termination_by cs => cs.length
decreasing_by
  · simp
  · have := Text.Quoted.length_lt_of_scan _found
    simp only [List.length_cons]
    omega

/-- Quotes that can stand next to each other: there are none on one side, or they differ. -/
def Differ (left right : Option Quote) : Prop := left = right → left = none

/-- Lexemes that can be told apart once they are written. -/
structure Apart (ls : List Lexeme) : Prop where
  unmarked : ∀ c, plain c ∈ ls → Quote.ofMark? c = none
  differ : (ls.map quote?).IsChain Differ

variable {ls : List Lexeme} {cs : List Char} {c : Char} {quote : Quote} {value : List Char}

theorem apart_nil : Apart [] := ⟨by simp, by simp⟩

/-- A character that is no quote can be told apart from whatever follows it. -/
theorem apart_plain_iff :
    Apart (plain c :: ls) ↔ Quote.ofMark? c = none ∧ Apart ls := by
  constructor
  · rintro ⟨unmarked, differ⟩
    exact ⟨unmarked c (by simp), fun d held => unmarked d (List.mem_cons_of_mem _ held),
      (List.isChain_cons.mp differ).2⟩
  · rintro ⟨free, unmarked, differ⟩
    refine ⟨?_, List.isChain_cons.mpr ⟨fun _ _ _ => rfl, differ⟩⟩
    intro d held
    rcases List.mem_cons.mp held with same | held
    · rwa [plain.inj same]
    · exact unmarked d held

/-- A text in quotes can stand before lexemes that do not begin with a further such quote. -/
theorem apart_quoted_iff :
    Apart (quoted quote value :: ls) ↔
      (ls.flatMap written).head? ≠ some quote.mark ∧ Apart ls := by
  have clear (unmarked : ∀ c, plain c ∈ ls → Quote.ofMark? c = none) :
      (∀ next ∈ (ls.map quote?).head?, Differ (some quote) next) ↔
        (ls.flatMap written).head? ≠ some quote.mark := by
    rcases ls with _ | ⟨_ | c, ls⟩
    · simp
    · next other text =>
      cases other <;> cases quote <;> simp [Differ, quote?, written, Quote.mark]
    · have free := unmarked c (by simp)
      have unlike : c ≠ quote.mark := by
        rintro rfl
        simp at free
      simp [Differ, quote?, written, unlike]
  constructor
  · rintro ⟨unmarked, differ⟩
    have rest : ∀ c, plain c ∈ ls → Quote.ofMark? c = none := fun c held =>
      unmarked c (List.mem_cons_of_mem _ held)
    obtain ⟨first, differ⟩ := List.isChain_cons.mp differ
    exact ⟨(clear rest).mp first, rest, differ⟩
  · rintro ⟨free, unmarked, differ⟩
    refine ⟨?_, List.isChain_cons.mpr ⟨(clear unmarked).mpr free, differ⟩⟩
    intro c held
    exact unmarked c ((List.mem_cons.mp held).resolve_left (by simp))

theorem scan_plain (free : Quote.ofMark? c = none) :
    scan (c :: cs) = (scan cs).map (plain c :: ·) := by
  rw [scan, free]

/-- At a quote a text in quotes is taken off as one lexeme. -/
theorem scan_quoted {after : List Char}
    (found : Text.Quoted.scan quote.mark cs = some (value, after)) :
    scan (quote.mark :: cs) = (scan after).map (quoted quote value :: ·) := by
  rw [scan, Quote.ofMark?_mark]
  dsimp only
  split
  · next none => simp [found] at none
  · next same =>
    obtain ⟨rfl, rfl⟩ := Prod.mk.inj (Option.some.inj (found.symm.trans same))
    rfl

/-- The division finds the lexemes that can be told apart in the text they are written as. -/
theorem scan_eq_some_iff : scan cs = some ls ↔ cs = ls.flatMap written ∧ Apart ls := by
  constructor
  · intro scanned
    fun_induction scan cs generalizing ls with
    | case1 =>
      obtain rfl := Option.some.inj scanned
      exact ⟨rfl, apart_nil⟩
    | case2 c cs free ih =>
      obtain ⟨rest, found, rfl⟩ := Option.map_eq_some_iff.mp scanned
      obtain ⟨rfl, apart⟩ := ih found
      exact ⟨rfl, apart_plain_iff.mpr ⟨free, apart⟩⟩
    | case3 => cases scanned
    | case4 c cs quote marks value after found ih =>
      obtain rfl := Quote.ofMark?_eq_some_iff.mp marks
      obtain ⟨rfl, clear⟩ := Text.Quoted.eq_of_scan found
      obtain ⟨rest, divided, rfl⟩ := Option.map_eq_some_iff.mp scanned
      obtain ⟨rfl, apart⟩ := ih divided
      exact ⟨by simp [written], apart_quoted_iff.mpr ⟨clear, apart⟩⟩
  · rintro ⟨rfl, apart⟩
    induction ls with
    | nil => simp [scan]
    | cons l ls ih =>
      cases l with
      | plain c =>
        obtain ⟨free, rest⟩ := apart_plain_iff.mp apart
        rw [List.flatMap_cons, written, List.singleton_append, scan_plain free, ih rest]
        rfl
      | quoted quote value =>
        obtain ⟨clear, rest⟩ := apart_quoted_iff.mp apart
        have split : (quoted quote value :: ls).flatMap written =
            quote.mark :: (Text.Quoted.double quote.mark value ++
              quote.mark :: ls.flatMap written) := by simp [written]
        rw [split, scan_quoted (Text.Quoted.scan_double value clear), ih rest]
        rfl

end Lexeme

/-- A token: a string, a quoted name, a word that is not quoted, or a sign. -/
inductive Token
  | string (value : String)
  | name (value : String)
  | word (text : String)
  | sign (c : Char)
  deriving DecidableEq

namespace Token

/-- The character of a word that a lexeme is. Keywords and numbers are made of the characters of
bare names as well. -/
def wordChar? : Lexeme → Option Char
  | .plain c => if continuesBareName c then some c else none
  | .quoted _ _ => none

/-- Whether a lexeme goes on with a word. -/
def continuesWord (l : Lexeme) : Bool := (wordChar? l).isSome

/-- The tokens that lexemes make up. The characters of a word are taken together, as many as there
are, and blanks are left out. -/
def ofLexemes : List Lexeme → List Token
  | [] => []
  | .quoted .single value :: rest => string (String.ofList value) :: ofLexemes rest
  | .quoted .double value :: rest => name (String.ofList value) :: ofLexemes rest
  | .plain c :: rest =>
    if continuesBareName c then
      word (String.ofList (c :: (rest.takeWhile continuesWord).filterMap wordChar?)) ::
        ofLexemes (rest.dropWhile continuesWord)
    else if c.isWhitespace then ofLexemes rest
    else sign c :: ofLexemes rest
termination_by ls => ls.length
decreasing_by
  all_goals
    have := (List.dropWhile_sublist (l := rest) continuesWord).length_le
    simp only [List.length_cons]
    omega

/-- Reads a text token by token. There are no tokens when a quote stays open. -/
def read (s : String) : Option (List Token) := (Lexeme.scan s.toList).map ofLexemes

/-- Lexemes that can be told apart are read as the tokens they make up. -/
theorem read_written {ls : List Lexeme} (apart : Lexeme.Apart ls) :
    read (String.ofList (ls.flatMap Lexeme.written)) = some (ofLexemes ls) := by
  rw [read, String.toList_ofList, Lexeme.scan_eq_some_iff.mpr ⟨rfl, apart⟩, Option.map_some]

theorem takeWhile_append_quoted (before after : List Lexeme) (quote : Quote) (value : List Char) :
    (before ++ .quoted quote value :: after).takeWhile continuesWord =
      before.takeWhile continuesWord := by
  induction before with
  | nil => simp [continuesWord, wordChar?]
  | cons l before ih => simp only [List.cons_append, List.takeWhile_cons, ih]

theorem dropWhile_append_quoted (before after : List Lexeme) (quote : Quote) (value : List Char) :
    (before ++ .quoted quote value :: after).dropWhile continuesWord =
      before.dropWhile continuesWord ++ .quoted quote value :: after := by
  induction before with
  | nil => simp [continuesWord, wordChar?]
  | cons l before ih =>
    simp only [List.cons_append, List.dropWhile_cons, ih]
    split <;> rfl

/-- A string ends the words before it and is no part of those behind it. -/
theorem ofLexemes_append (before after : List Lexeme) (value : List Char) :
    ofLexemes (before ++ .quoted .single value :: after) =
      ofLexemes before ++ string (String.ofList value) :: ofLexemes after := by
  fun_induction ofLexemes before with
  | case1 => rw [List.nil_append, ofLexemes, List.nil_append]
  | case2 text rest ih => rw [List.cons_append, ofLexemes, ih, List.cons_append]
  | case3 text rest ih => rw [List.cons_append, ofLexemes, ih, List.cons_append]
  | case4 c rest isWord ih =>
    rw [List.cons_append, ofLexemes, if_pos isWord, takeWhile_append_quoted,
      dropWhile_append_quoted, ih, List.cons_append]
  | case5 c rest other blank ih =>
    rw [List.cons_append, ofLexemes, if_neg other, if_pos blank, ih]
  | case6 c rest other visible ih =>
    rw [List.cons_append, ofLexemes, if_neg other, if_neg visible, ih, List.cons_append]

end Token

end SqlBuilder
