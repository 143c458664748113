import SqlBuilder.Text.Quoted

/-! # Reading quoted texts

A mark is found doubled inside a quoted text and single at its end. Reading from behind the opening
mark undoes the doubling, and stops at the first mark that is not doubled; a further mark behind the
closing one would therefore be read into the text.
-/

namespace SqlBuilder.Text.Quoted

variable {mark c : Char} {cs text after : List Char}

/-- A text as it is written between marks: every mark in it stands twice. -/
inductive Doubled (mark : Char) : List Char → List Char → Prop
  | nil : Doubled mark [] []
  | mark {written text : List Char} (rest : Doubled mark written text) :
      Doubled mark (mark :: mark :: written) (mark :: text)
  | other {c : Char} {written text : List Char} (unlike : c ≠ mark)
      (rest : Doubled mark written text) : Doubled mark (c :: written) (c :: text)

/-- There is one way to write a text between marks. -/
theorem doubled_iff {written : List Char} :
    Doubled mark written text ↔ written = double mark text := by
  constructor
  · intro doubled
    induction doubled with
    | nil => rfl
    | mark _ ih => simp [double, ih]
    | other unlike _ ih => simp [double, unlike, ih]
  · rintro rfl
    induction text with
    | nil => exact .nil
    | cons c rest ih =>
      rw [double]
      split
      · next same =>
        rw [same]
        exact .mark ih
      · next unlike => exact .other unlike ih

/-- Doubling marks brings in no new characters. -/
theorem mem_double : c ∈ double mark cs ↔ c ∈ cs := by
  induction cs with
  | nil => rfl
  | cons d rest ih =>
    rw [double]
    split
    · next same => simp [ih, same]
    · simp [ih]

theorem scan_other (unlike : c ≠ mark) :
    scan mark (c :: cs) = (scan mark cs).map fun (text, after) => (c :: text, after) := by
  cases cs with
  | nil => simp [scan, unlike]
  | cons d rest => simp [scan, unlike]

theorem scan_doubled :
    scan mark (mark :: mark :: cs) =
      (scan mark cs).map fun (text, after) => (mark :: text, after) := by
  simp [scan]

theorem scan_closed (free : cs.head? ≠ some mark) : scan mark (mark :: cs) = some ([], cs) := by
  cases cs with
  | nil => simp [scan]
  | cons d rest =>
    have unlike : d ≠ mark := by simpa using free
    simp [scan, unlike]

/-- What is written between marks is read back, if no mark follows. -/
theorem scan_double (text : List Char) (free : after.head? ≠ some mark) :
    scan mark (double mark text ++ mark :: after) = some (text, after) := by
  induction text with
  | nil => exact scan_closed free
  | cons c rest ih =>
    rw [double]
    split
    · next same =>
      rw [List.cons_append, List.cons_append, scan_doubled, ih, same]
      rfl
    · next unlike =>
      rw [List.cons_append, scan_other unlike, ih]
      rfl

/-- What is read between marks stands there as it would be written. -/
theorem eq_of_scan (scanned : scan mark cs = some (text, after)) :
    cs = double mark text ++ mark :: after ∧ after.head? ≠ some mark := by
  fun_induction scan mark cs generalizing text with
  | case1 => cases scanned
  | case2 => simp_all [double]
  | case3 => cases scanned
  | case4 rest ih =>
    obtain ⟨⟨inner, left⟩, found, same⟩ := Option.map_eq_some_iff.mp scanned
    obtain ⟨rfl, rfl⟩ := Prod.mk.inj same
    obtain ⟨rfl, free⟩ := ih found
    exact ⟨by simp [double], free⟩
  | case5 d rest unlike =>
    simp only [Option.some.injEq, Prod.mk.injEq] at scanned
    obtain ⟨rfl, rfl⟩ := scanned
    exact ⟨rfl, by simpa using unlike⟩
  | case6 c d rest unlike ih =>
    obtain ⟨⟨inner, left⟩, found, same⟩ := Option.map_eq_some_iff.mp scanned
    obtain ⟨rfl, rfl⟩ := Prod.mk.inj same
    obtain ⟨split, free⟩ := ih found
    exact ⟨by simp [double, unlike, split], free⟩

theorem toList_enclose (mark : Char) (s : String) :
    (enclose mark s).toList = mark :: (double mark s.toList ++ [mark]) := by
  simp [enclose]

end SqlBuilder.Text.Quoted
