import SqlBuilder.Ident.Parser
import SqlBuilder.Proofs.Text.Quoted

/-! # The grammar of identifiers

An identifier is a sequence of parts with single dots between them. A bare part is a letter or an
underscore with letters, digits, underscores and dollar signs behind it; a quoted part is any name
that is not empty, between double quotes and with its own quotes doubled. No text with a NUL is an
identifier. The reader accepts the texts of this grammar and no others, and finds the parts that
the grammar names; since it finds only one reading, the grammar has only one.
-/

namespace SqlBuilder

def IsLetter (c : Char) : Prop := ('A' ≤ c ∧ c ≤ 'Z') ∨ ('a' ≤ c ∧ c ≤ 'z')

def IsDigit (c : Char) : Prop := '0' ≤ c ∧ c ≤ '9'

theorem isAlpha_iff {c : Char} : c.isAlpha = true ↔ IsLetter c := by
  have either : c.isAlpha = (c.isUpper || c.isLower) := rfl
  have upper : c.isUpper = decide ('A'.val ≤ c.val ∧ c.val ≤ 'Z'.val) := rfl
  have lower : c.isLower = (decide ('a'.val ≤ c.val) && decide (c.val ≤ 'z'.val)) := rfl
  simp only [either, upper, lower, IsLetter, Bool.or_eq_true, Bool.and_eq_true, decide_eq_true_eq,
    Char.le_def]

theorem isDigit_iff {c : Char} : c.isDigit = true ↔ IsDigit c := by
  have digit : c.isDigit = (decide ('0'.val ≤ c.val) && decide (c.val ≤ '9'.val)) := rfl
  simp only [digit, IsDigit, Bool.and_eq_true, decide_eq_true_eq, Char.le_def]

/-- A bare name starts with an underscore or a letter. -/
theorem startsBareName_iff {c : Char} : startsBareName c = true ↔ c = '_' ∨ IsLetter c := by
  rw [startsBareName, Bool.or_eq_true, beq_iff_eq, isAlpha_iff]

/-- A bare name goes on with underscores, dollar signs, letters and digits. -/
theorem continuesBareName_iff {c : Char} :
    continuesBareName c = true ↔ c = '_' ∨ c = '$' ∨ IsLetter c ∨ IsDigit c := by
  have either : c.isAlphanum = (c.isAlpha || c.isDigit) := rfl
  simp only [continuesBareName, either, Bool.or_eq_true, beq_iff_eq, isAlpha_iff, isDigit_iff,
    or_assoc]

theorem firstOffender?_cons_eq_none_iff {c : Char} {rest : List Char} :
    firstOffender? (c :: rest) = none ↔
      startsBareName c = true ∧ ∀ d ∈ rest, continuesBareName d = true := by
  by_cases starts : startsBareName c = true <;> simp [firstOffender?, starts]

theorem continuesBareName_of_starts {c : Char} (starts : startsBareName c = true) :
    continuesBareName c = true := by
  rcases startsBareName_iff.mp starts with rfl | letter
  · rfl
  · exact continuesBareName_iff.mpr (.inr (.inr (.inl letter)))

namespace BareName

theorem exists_cons (name : BareName) :
    ∃ c rest, name.text.toList = c :: rest ∧ startsBareName c = true ∧
      ∀ d ∈ rest, continuesBareName d = true := by
  obtain ⟨c, rest, chars⟩ := List.exists_cons_of_ne_nil name.nonempty
  obtain ⟨starts, continues⟩ := firstOffender?_cons_eq_none_iff.mp (chars ▸ name.clean)
  exact ⟨c, rest, chars, starts, continues⟩

theorem continues (name : BareName) : ∀ c ∈ name.text.toList, continuesBareName c = true := by
  obtain ⟨c, rest, chars, starts, continues⟩ := name.exists_cons
  rw [chars]
  intro d held
  rcases List.mem_cons.mp held with rfl | held
  · exact continuesBareName_of_starts starts
  · exact continues d held

end BareName

namespace Ident

/-- What a part of an identifier text spells. -/
inductive Segment
  | bare (name : String)
  | quoted (name : String)
  deriving DecidableEq

/-- The texts of a part. -/
inductive Segment.Spelled : List Char → Segment → Prop
  | bare {c : Char} {rest : List Char} (starts : c = '_' ∨ IsLetter c)
      (continues : ∀ d ∈ rest, d = '_' ∨ d = '$' ∨ IsLetter d ∨ IsDigit d) :
      Spelled (c :: rest) (bare (String.ofList (c :: rest)))
  | quoted {written name : List Char} (doubled : Text.Quoted.Doubled '"' written name)
      (nonempty : name ≠ []) :
      Spelled ('"' :: (written ++ ['"'])) (quoted (String.ofList name))

/-- The texts of a sequence of parts. -/
inductive Spelled : List Char → List Segment → Prop
  | one {written : List Char} {segment : Segment} (spelled : segment.Spelled written) :
      Spelled written [segment]
  | more {written rest : List Char} {segment : Segment} {segments : List Segment}
      (spelled : segment.Spelled written) (others : Spelled rest segments) :
      Spelled (written ++ '.' :: rest) (segment :: segments)

def Part.segment : Part → Segment
  | bare name => .bare name.text
  | quoted name => .quoted name.text

/-- A part is known by what it spells. -/
theorem Part.segment_inj {part other : Part} (same : part.segment = other.segment) :
    part = other := by
  cases part with
  | bare name =>
    cases other with
    | bare name' => cases name; cases name'; simp_all [segment]
    | quoted name' => cases same
  | quoted name =>
    cases other with
    | bare name' => cases same
    | quoted name' => cases name; cases name'; simp_all [segment]

/-- An identifier is known by what its parts spell. -/
theorem eq_of_segments {ident other : Ident}
    (same : ident.parts.map Part.segment = other.parts.map Part.segment) : ident = other := by
  cases ident
  cases other
  simpa [parts] using (List.map_inj_right fun _ _ => Part.segment_inj).mp same

variable {whole : String} {cs written rest after : List Char} {part : Part} {segment : Segment}
  {segments : List Segment}

theorem Spelled.nonempty (spelled : Spelled cs segments) : cs ≠ [] := by
  cases spelled with
  | one spelled => cases spelled <;> simp
  | more => simp

/-- Characters that are taken as a bare part spell that part. -/
theorem Part.segment_of_ofSegment (ok : Part.ofSegment whole cs = .ok part) :
    part.segment.Spelled cs := by
  cases cs with
  | nil => simp [ofSegment] at ok
  | cons c rest =>
    rw [ofSegment, dif_neg (by simp)] at ok
    split at ok
    · cases ok
    · next clean =>
      obtain rfl := Except.ok.inj ok
      obtain ⟨starts, continues⟩ := firstOffender?_cons_eq_none_iff.mp clean
      exact .bare (startsBareName_iff.mp starts) fun d held =>
        continuesBareName_iff.mp (continues d held)

theorem Part.segment_of_ofQuoted {name : String} (ok : Part.ofQuoted name = .ok part) :
    name ≠ "" ∧ '\x00' ∉ name.toList ∧ part.segment = .quoted name := by
  unfold ofQuoted at ok
  split at ok
  · cases ok
  · next nonempty =>
    split at ok
    · cases ok
    · next clean =>
      obtain rfl := Except.ok.inj ok
      exact ⟨by simpa using nonempty, clean, rfl⟩

/-- What is read as a part spells it. -/
theorem Part.spelled_of_read (ok : Part.read whole cs = .ok (part, after)) :
    ∃ written, cs = written ++ after ∧ part.segment.Spelled written := by
  unfold read at ok
  split at ok
  · next inside =>
    cases scanned : Text.Quoted.scan '"' inside with
    | none => simp [scanned] at ok
    | some found =>
      obtain ⟨name, left⟩ := found
      cases made : ofQuoted (String.ofList name) with
      | error fault => simp [scanned, made, Except.map] at ok
      | ok held =>
        simp only [scanned, made, Except.map, Except.ok.injEq, Prod.mk.injEq] at ok
        obtain ⟨rfl, rfl⟩ := ok
        obtain ⟨rfl, -⟩ := Text.Quoted.eq_of_scan scanned
        obtain ⟨nonempty, -, same⟩ := segment_of_ofQuoted made
        refine ⟨'"' :: (Text.Quoted.double '"' name ++ ['"']), by simp, ?_⟩
        rw [same]
        exact .quoted (Text.Quoted.doubled_iff.mpr rfl) (by simpa using nonempty)
  · cases made : ofSegment whole (cs.takeWhile (· != '.')) with
    | error fault => simp [made, Except.map] at ok
    | ok held =>
      simp only [made, Except.map, Except.ok.injEq, Prod.mk.injEq] at ok
      obtain ⟨rfl, rfl⟩ := ok
      exact ⟨_, List.takeWhile_append_dropWhile.symm, segment_of_ofSegment made⟩

theorem takeWhile_dropWhile_dot (undotted : '.' ∉ cs) (ends : after.head? ∈ [none, some '.']) :
    (cs ++ after).takeWhile (· != '.') = cs ∧ (cs ++ after).dropWhile (· != '.') = after := by
  have each : ∀ d ∈ cs, (d != '.') = true := by
    intro d held
    rw [bne_iff_ne]
    rintro rfl
    exact undotted held
  rw [List.takeWhile_append_of_pos each, List.dropWhile_append_of_pos each]
  cases after with
  | nil => simp
  | cons d after =>
    obtain rfl : d = '.' := by simpa using ends
    simp

/-- A part is read from any text that spells it, when a dot or nothing follows. -/
theorem Part.read_of_spelled (whole : String) (after : List Char)
    (spelled : segment.Spelled written) (clean : '\x00' ∉ written)
    (ends : after.head? ∈ [none, some '.']) :
    ∃ part, Part.read whole (written ++ after) = .ok (part, after) ∧ part.segment = segment := by
  cases spelled with
  | @bare c rest starts continues =>
    have starts := startsBareName_iff.mpr starts
    have unquoted : c ≠ '"' := by
      rintro rfl
      exact absurd starts (by decide)
    have undotted : '.' ∉ c :: rest := by
      intro held
      have named : continuesBareName '.' = true := by
        rcases List.mem_cons.mp held with rfl | held
        · exact continuesBareName_of_starts starts
        · exact continuesBareName_iff.mpr (continues _ held)
      exact absurd named (by decide)
    have taken := takeWhile_dropWhile_dot undotted ends
    have named : firstOffender? (c :: rest) = none :=
      firstOffender?_cons_eq_none_iff.mpr ⟨starts, fun d held =>
        continuesBareName_iff.mpr (continues d held)⟩
    refine ⟨.bare ⟨String.ofList (c :: rest), by simp, by simpa using named⟩, ?_, rfl⟩
    unfold read
    split
    · next inside same => exact absurd (List.cons.inj same).1 unquoted
    · rw [taken.1, taken.2, ofSegment, dif_neg (by simp)]
      split
      · next offence => simp [named] at offence
      · rfl
  | @quoted written name doubled nonempty =>
    obtain rfl := Text.Quoted.doubled_iff.mp doubled
    have free : after.head? ≠ some '"' := by
      rintro same
      simp [same] at ends
    have nul : '\x00' ∉ name := by
      intro held
      exact clean (by simp [Text.Quoted.mem_double, held])
    have split : '"' :: (Text.Quoted.double '"' name ++ ['"']) ++ after =
        '"' :: (Text.Quoted.double '"' name ++ '"' :: after) := by simp
    refine ⟨.quoted ⟨String.ofList name, by simpa using nonempty, by simpa using nul⟩, ?_, rfl⟩
    rw [split, read]
    simp [Text.Quoted.scan_double name free, ofQuoted, nonempty, nul, Except.map]

theorem readParts_last (read : Part.read whole cs = .ok (part, [])) :
    readParts whole cs = .ok ⟨part, []⟩ := by
  rw [readParts]
  split <;> simp_all

theorem readParts_more (read : Part.read whole cs = .ok (part, '.' :: rest)) (more : rest ≠ []) :
    readParts whole cs = (readParts whole rest).map (cons part) := by
  rw [readParts]
  split <;> simp_all

/-- What is read as an identifier spells its parts. -/
theorem spelled_of_readParts {ident : Ident} (ok : readParts whole cs = .ok ident) :
    Spelled cs (ident.parts.map Part.segment) := by
  fun_induction readParts whole cs generalizing ident with
  | case1 cs fault read => cases ok
  | case2 cs part read =>
    obtain rfl := Except.ok.inj ok
    obtain ⟨written, rfl, spelled⟩ := Part.spelled_of_read read
    simpa [parts] using Spelled.one spelled
  | case3 cs part read => cases ok
  | case4 cs part rest more read ih =>
    cases others : readParts whole rest with
    | error fault => simp [others, Except.map] at ok
    | ok tail =>
      simp only [others, Except.map, Except.ok.injEq] at ok
      obtain rfl := ok
      obtain ⟨written, rfl, spelled⟩ := Part.spelled_of_read read
      exact .more spelled (ih others)
  | case5 cs part c rest _ _ read => cases ok

/-- An identifier is read from any text that spells its parts. -/
theorem readParts_of_spelled (whole : String) (spelled : Spelled cs segments)
    (clean : '\x00' ∉ cs) :
    ∃ ident, readParts whole cs = .ok ident ∧ ident.parts.map Part.segment = segments := by
  induction spelled with
  | @one written segment spelled =>
    obtain ⟨part, read, rfl⟩ := Part.read_of_spelled whole [] spelled clean (by simp)
    rw [List.append_nil] at read
    exact ⟨⟨part, []⟩, readParts_last read, rfl⟩
  | @more written rest segment segments spelled others ih =>
    simp only [List.mem_append, List.mem_cons, not_or] at clean
    obtain ⟨part, read, rfl⟩ :=
      Part.read_of_spelled whole ('.' :: rest) spelled clean.1 (by simp)
    obtain ⟨tail, readTail, rfl⟩ := ih clean.2.2
    refine ⟨cons part tail, ?_, rfl⟩
    rw [readParts_more read others.nonempty, readTail]
    rfl

variable {s : String} {ident : Ident}

/-- Reading an identifier comes down to reading its parts from a text without NUL. -/
theorem parse_eq_ok_iff_readParts :
    parse s = .ok ident ↔ '\x00' ∉ s.toList ∧ readParts s s.toList = .ok ident := by
  unfold parse
  split
  · next empty => simp [empty, readParts, Part.read, Part.ofSegment, Except.map]
  · split
    · next nul => simp [nul]
    · next clean => cases readParts s s.toList <;> simp [clean]

/-- An identifier is read from the texts without NUL that spell its parts. -/
theorem parse_eq_ok_iff :
    parse s = .ok ident ↔
      '\x00' ∉ s.toList ∧ Spelled s.toList (ident.parts.map Part.segment) := by
  rw [parse_eq_ok_iff_readParts]
  refine and_congr_right fun clean => ⟨spelled_of_readParts, fun spelled => ?_⟩
  obtain ⟨other, read, same⟩ := readParts_of_spelled s spelled clean
  rw [read, eq_of_segments same]

/-- Whatever is wrong with an identifier, the argument is invalid. -/
theorem kind_of_parse {e : Error} (refused : parse s = .error e) : e.kind = .invalidArgument := by
  unfold parse at refused
  split at refused
  · rw [← Except.error.inj refused]
    rfl
  · split at refused
    · rw [← Except.error.inj refused]
      rfl
    · split at refused
      · cases refused
      · rw [← Except.error.inj refused]
        rfl

/-- Reading accepts the texts of the grammar and finds the parts that the grammar names. Every other
text is refused as an invalid argument. -/
theorem parse_accepts_grammar (s : String) :
    (∀ segments, (∃ ident, parse s = .ok ident ∧ ident.parts.map Part.segment = segments) ↔
        '\x00' ∉ s.toList ∧ Spelled s.toList segments) ∧
      ((∃ e, parse s = .error e ∧ e.kind = .invalidArgument) ↔
        ¬('\x00' ∉ s.toList ∧ ∃ segments, Spelled s.toList segments)) := by
  have accepted (segments : List Segment) :
      (∃ ident, parse s = .ok ident ∧ ident.parts.map Part.segment = segments) ↔
        '\x00' ∉ s.toList ∧ Spelled s.toList segments := by
    constructor
    · rintro ⟨ident, ok, rfl⟩
      exact parse_eq_ok_iff.mp ok
    · rintro ⟨clean, spelled⟩
      obtain ⟨ident, read, same⟩ := readParts_of_spelled s spelled clean
      exact ⟨ident, parse_eq_ok_iff_readParts.mpr ⟨clean, read⟩, same⟩
  refine ⟨accepted, ?_⟩
  constructor
  · rintro ⟨e, refused, -⟩ ⟨clean, segments, spelled⟩
    obtain ⟨ident, ok, -⟩ := (accepted segments).mpr ⟨clean, spelled⟩
    simp [refused] at ok
  · intro underivable
    cases read : parse s with
    | ok ident =>
      obtain ⟨clean, spelled⟩ := (accepted _).mp ⟨ident, read, rfl⟩
      exact absurd ⟨clean, _, spelled⟩ underivable
    | error e => exact ⟨e, rfl, kind_of_parse read⟩

end Ident

end SqlBuilder
