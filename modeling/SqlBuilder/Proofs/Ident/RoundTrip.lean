import SqlBuilder.Catalog.Basic
import SqlBuilder.Proofs.Ident.Grammar

/-! # Writing and reading identifiers

Of all texts, the one an identifier is written as is the only one that spells its parts. Reading
therefore undoes writing and writing undoes reading, and two identifiers are never written alike.
The result of a call finds its name again in the text of the called function's name.
-/

namespace SqlBuilder.Ident

variable {written cs : List Char} {part : Part} {ident : Ident} {s : String}

/-- The text of a part is the only one that spells it. -/
theorem Part.spelled_iff : part.segment.Spelled written ↔ written = part.render.toList := by
  constructor
  · intro spelled
    cases part with
    | bare name =>
      generalize same : segment (bare name) = segment at spelled
      cases spelled with
      | bare => simpa [Part.segment, render, ← String.toList_inj] using same.symm
      | quoted => cases same
    | quoted name =>
      generalize same : segment (quoted name) = segment at spelled
      cases spelled with
      | bare => cases same
      | @quoted written text doubled =>
        obtain rfl := Text.Quoted.doubled_iff.mp doubled
        obtain same : name.text = String.ofList text := Segment.quoted.inj same
        simp [render, Text.Quoted.toList_enclose, same]
  · rintro rfl
    cases part with
    | bare name =>
      obtain ⟨c, rest, chars, starts, continues⟩ := name.exists_cons
      have spelled : (Segment.bare (String.ofList (c :: rest))).Spelled (c :: rest) :=
        .bare (startsBareName_iff.mp starts) fun d held =>
          continuesBareName_iff.mp (continues d held)
      rwa [← chars, String.ofList_toList] at spelled
    | quoted name =>
      have spelled := Segment.Spelled.quoted
        (Text.Quoted.doubled_iff.mpr (rfl : _ = Text.Quoted.double '"' name.text.toList))
        name.nonempty
      rwa [String.ofList_toList, ← Text.Quoted.toList_enclose] at spelled

theorem Part.nul_not_mem_render (part : Part) : '\x00' ∉ part.render.toList := by
  cases part with
  | bare name =>
    intro held
    exact absurd (name.continues _ held) (by decide)
  | quoted name => simp [render, Text.Quoted.toList_enclose, Text.Quoted.mem_double, name.clean]

/-- The text of an identifier is the only one that spells its parts. -/
theorem spelled_iff : Spelled cs (ident.parts.map Part.segment) ↔ cs = ident.render.toList := by
  obtain ⟨head, tail⟩ := ident
  simp only [render, parts]
  induction tail generalizing cs head with
  | nil =>
    constructor
    · rintro (spelled | ⟨_, ⟨⟩⟩)
      simpa using Part.spelled_iff.mp spelled
    · intro same
      exact .one (Part.spelled_iff.mpr (by simpa using same))
  | cons next tail ih =>
    have split : (".".intercalate ((head :: next :: tail).map Part.render)).toList =
        head.render.toList ++ '.' :: (".".intercalate ((next :: tail).map Part.render)).toList := by
      simp
    rw [split]
    constructor
    · rintro (_ | ⟨spelled, others⟩)
      rw [Part.spelled_iff.mp spelled, (ih next).mp others]
    · rintro rfl
      exact .more (Part.spelled_iff.mpr rfl) ((ih next).mpr rfl)

theorem nul_not_mem_render (ident : Ident) : '\x00' ∉ ident.render.toList := by
  obtain ⟨head, tail⟩ := ident
  simp only [render, parts]
  induction tail generalizing head with
  | nil => simpa using head.nul_not_mem_render
  | cons next tail ih =>
    have rest := ih next
    simp only [List.map_cons, String.intercalate_cons_cons, String.toList_append,
      List.mem_append, not_or] at rest ⊢
    exact ⟨⟨head.nul_not_mem_render, by decide⟩, rest⟩

/-- An identifier is read from the text it is written as. -/
theorem parse_render (ident : Ident) : parse ident.render = .ok ident :=
  parse_eq_ok_iff.mpr ⟨ident.nul_not_mem_render, spelled_iff.mpr rfl⟩

/-- An identifier is written as the text it was read from. -/
theorem render_of_parse (ok : parse s = .ok ident) : ident.render = s :=
  (String.toList_inj.mp (spelled_iff.mp (parse_eq_ok_iff.mp ok).2)).symm

/-- Any text can be quoted that is not empty and does not hold NUL. -/
theorem exists_quoted {name : String} (nonempty : name ≠ "") (clean : '\x00' ∉ name.toList) :
    ∃ ident, quoted name = .ok ident ∧ ident.parts.map Part.segment = [.quoted name] := by
  have chars : name.toList ≠ [] := by simpa using nonempty
  refine ⟨⟨.quoted ⟨name, chars, clean⟩, []⟩, ?_, rfl⟩
  simp [quoted, Part.ofQuoted, nonempty, clean]

theorem of_quoted {name : String} (ok : quoted name = .ok ident) :
    name ≠ "" ∧ '\x00' ∉ name.toList := by
  unfold quoted at ok
  split at ok
  · next made =>
    obtain ⟨nonempty, clean, -⟩ := Part.segment_of_ofQuoted made
    exact ⟨nonempty, clean⟩
  · cases ok

/-- Reading and writing are inverse to each other, also for a name that was put between quotes,
which any text but the empty one can be if it has no NUL. So no two identifiers are written alike,
and the result of a call always has the name of the called function. -/
theorem parse_render_inverse :
    (∀ s ident, parse s = .ok ident ↔ ident.render = s) ∧
      (∀ name, (∃ ident, quoted name = .ok ident ∧ ident.parts.map Part.segment = [.quoted name] ∧
          parse ident.render = .ok ident) ↔ name ≠ "" ∧ '\x00' ∉ name.toList) ∧
      Function.Injective render ∧
      ∀ call : Cached Call, ∃ object, NamedObject.ofCall call = .ok object ∧
        object.kind = .functionResult ∧ object.name = call.content.name := by
  refine ⟨?_, ?_, ?_, ?_⟩
  · intro s ident
    constructor
    · exact render_of_parse
    · rintro rfl
      exact parse_render ident
  · intro name
    constructor
    · rintro ⟨ident, ok, -, -⟩
      exact of_quoted ok
    · rintro ⟨nonempty, clean⟩
      obtain ⟨ident, ok, spells⟩ := exists_quoted nonempty clean
      exact ⟨ident, ok, spells, parse_render ident⟩
  · intro ident other same
    have read : parse ident.render = .ok other := same ▸ parse_render other
    exact Except.ok.inj ((parse_render ident).symm.trans read)
  · intro call
    have named := parse_render call.content.name
    exact ⟨⟨.functionResult, call.content.name, none, call.callExpr⟩,
      by simp [NamedObject.ofCall, named], rfl, rfl⟩

end SqlBuilder.Ident
