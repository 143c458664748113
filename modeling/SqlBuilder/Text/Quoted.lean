/-! # Text between marks

A text stands between two marks with every mark inside it doubled. String literals use the single
quote as their mark and quoted names the double quote.
-/

namespace SqlBuilder.Text.Quoted

/-- Writes every mark twice and all else once. -/
def double (mark : Char) : List Char → List Char
  | [] => []
  | c :: rest => if c = mark then mark :: mark :: double mark rest else c :: double mark rest

def enclose (mark : Char) (s : String) : String :=
  String.ofList (mark :: double mark s.toList ++ [mark])

/-- Reads on from behind an opening mark: the text up to the closing mark, and what follows it.
There is none when no mark closes the text. -/
def scan (mark : Char) : List Char → Option (List Char × List Char)
  | [] => none
  | [c] => if c = mark then some ([], []) else none
  | c :: d :: rest =>
    if c = mark then
      if d = mark then (scan mark rest).map fun (text, after) => (mark :: text, after)
      else some ([], d :: rest)
    else (scan mark (d :: rest)).map fun (text, after) => (c :: text, after)

/-- Reading takes at least the closing mark. -/
theorem length_lt_of_scan {mark : Char} {cs text after : List Char}
    (scanned : scan mark cs = some (text, after)) : after.length < cs.length := by
  fun_induction scan mark cs generalizing text with
  | case1 => simp at scanned
  | case2 => simp_all
  | case3 => simp at scanned
  | case4 rest ih =>
    simp only [Option.map_eq_some_iff, Prod.exists, Prod.mk.injEq] at scanned
    obtain ⟨inner, left, found, -, rfl⟩ := scanned
    have := ih found
    simp only [List.length_cons]
    omega
  | case5 => simp_all
  | case6 c d rest unlike ih =>
    simp only [Option.map_eq_some_iff, Prod.exists, Prod.mk.injEq] at scanned
    obtain ⟨inner, left, found, -, rfl⟩ := scanned
    have := ih found
    simp only [List.length_cons] at this ⊢
    omega

end SqlBuilder.Text.Quoted
