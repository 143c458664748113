import Mathlib.Data.List.DropRight
import SqlBuilder.Expr.Basic

/-! # Entries and their history

The keys of an ORDER BY clause and the fields of an INSERT or UPDATE are kept in one way. A text has
at most one entry. A put under a text that is there leaves the place and the expression of the
entry as they are; a put under a new text comes last. Which entries there are can therefore be told
from the history of changes, and only the part of it counts that follows the last change that left
no entry of the text: the entry has the expression that was put first and what was put last, and
entries stand in the order of their first puts.
-/

namespace SqlBuilder

/-- Expressions in order, each with something that is kept under its text. -/
abbrev Entries (α : Type) := List (Expr × α)

namespace Entries

variable {α : Type}

def texts (entries : Entries α) : List String := entries.map fun entry => entry.1.text

def lookup? (text : String) (entries : Entries α) : Option (Expr × α) :=
  entries.find? fun entry => entry.1.text == text

/-- Keeps something under the text of an expression: in the entry of that text, or else in a new one
at the end. -/
def put (e : Expr) (a : α) : Entries α → Entries α
  | [] => [(e, a)]
  | (held, old) :: rest =>
    if held.text = e.text then (held, a) :: rest else (held, old) :: put e a rest

/-- Leaves no entry of the text of an expression. -/
def without (e : Expr) (entries : Entries α) : Entries α :=
  entries.filter fun entry => entry.1.text != e.text

/-- The changes entries can undergo. -/
inductive Edit (α : Type)
  | put (e : Expr) (a : α)
  | without (e : Expr)
  | clear
  deriving DecidableEq

def apply : Edit α → Entries α → Entries α
  | .put e a, entries => put e a entries
  | .without e, entries => without e entries
  | .clear, _ => []

/-- The entries that a history of changes leaves where there were none. -/
def run (history : List (Edit α)) : Entries α :=
  history.foldl (fun entries change => apply change entries) []

theorem run_append (history : List (Edit α)) (change : Edit α) :
    run (history ++ [change]) = apply change (run history) := by
  rw [run, List.foldl_append]
  rfl

/-! ### What a history says -/

/-- Whether a change leaves no entry of a text. -/
def Edit.frees (text : String) : Edit α → Bool
  | put _ _ => false
  | without e => e.text == text
  | clear => true

/-- What a change puts under a text. -/
def Edit.put? (text : String) : Edit α → Option (Expr × α)
  | put e a => if e.text = text then some (e, a) else none
  | without _ | clear => none

variable {text : String} {history : List (Edit α)} {change : Edit α}

/-- The changes since the last one that left no entry of a text. -/
def since (text : String) (history : List (Edit α)) : List (Edit α) :=
  history.rtakeWhile fun change => !change.frees text

/-- What was put under a text since the last change that left no entry of it. -/
def puts (text : String) (history : List (Edit α)) : List (Expr × α) :=
  (since text history).filterMap (Edit.put? text)

/-- The number of changes before the first put of those. -/
def firstPut (text : String) (history : List (Edit α)) : Nat :=
  history.length - (since text history).length +
    (since text history).findIdx fun change => (change.put? text).isSome

theorem since_append (kept : change.frees text = false) :
    since text (history ++ [change]) = since text history ++ [change] :=
  List.rtakeWhile_concat_pos _ _ _ (by simp [kept])

theorem puts_append (kept : change.frees text = false) :
    puts text (history ++ [change]) = puts text history ++ (change.put? text).toList := by
  rw [puts, since_append kept, List.filterMap_append, ← puts]
  cases written : change.put? text <;> simp [written]

theorem puts_freed (freed : change.frees text = true) : puts text (history ++ [change]) = [] := by
  have nothing : since text (history ++ [change]) = [] :=
    List.rtakeWhile_concat_neg _ _ _ (by simp [freed])
  rw [puts, nothing, List.filterMap_nil]

/-- A put adds to what was put under its own text and to nothing else. -/
theorem puts_put (e : Expr) (a : α) :
    puts text (history ++ [.put e a]) =
      if e.text = text then puts text history ++ [(e, a)] else puts text history := by
  rw [puts_append rfl, Edit.put?]
  split <;> simp

theorem puts_without_other {e : Expr} (other : e.text ≠ text) :
    puts text (history ++ [.without e]) = puts text history := by
  rw [puts_append (by simp [Edit.frees, other]), Edit.put?, Option.toList_none, List.append_nil]

/-- Something was put under a text exactly if one of the changes that count has put it. -/
theorem puts_ne_nil_iff :
    puts text history ≠ [] ↔ ∃ change ∈ since text history, (change.put? text).isSome := by
  simp [puts, List.filterMap_eq_nil_iff, Option.isSome_iff_ne_none]

theorem length_since_le (text : String) (history : List (Edit α)) :
    (since text history).length ≤ history.length :=
  (List.rtakeWhile_suffix _ history).length_le

/-- The place of the first put, counted from the first change that counts. -/
theorem findIdx_lt (found : puts text history ≠ []) :
    ((since text history).findIdx fun change => (change.put? text).isSome) <
      (since text history).length :=
  List.findIdx_lt_length.mpr (puts_ne_nil_iff.mp found)

theorem firstPut_lt (found : puts text history ≠ []) : firstPut text history < history.length := by
  have counted := findIdx_lt found
  have within := length_since_le text history
  unfold firstPut
  omega

/-- A text that has its first put keeps it as long as it has an entry. -/
theorem firstPut_append (found : puts text history ≠ []) (kept : change.frees text = false) :
    firstPut text (history ++ [change]) = firstPut text history := by
  have counted := findIdx_lt found
  rw [firstPut, firstPut, since_append kept, List.findIdx_append, if_pos counted]
  simp

/-- The first put of a text comes after all changes before. -/
theorem firstPut_put {e : Expr} {a : α} (fresh : puts e.text history = []) :
    firstPut e.text (history ++ [.put e a]) = history.length := by
  have absent : ((since e.text history).findIdx fun change => (change.put? e.text).isSome) =
      (since e.text history).length := by
    refine List.findIdx_eq_length_of_false fun change member => ?_
    have nothing := List.filterMap_eq_nil_iff.mp fresh change member
    simp [nothing]
  have within := length_since_le e.text history
  rw [firstPut, since_append rfl, List.findIdx_append, absent]
  simp [Edit.put?]
  omega

/-! ### Changes of entries -/

variable {entries : Entries α}

theorem mem_texts_iff : text ∈ texts entries ↔ (lookup? text entries).isSome := by
  simp [texts, lookup?, List.find?_isSome]

/-- When no text is repeated, every entry is the one of its text. -/
theorem lookup?_of_mem {entry : Expr × α} (distinct : (texts entries).Nodup)
    (member : entry ∈ entries) : lookup? entry.1.text entries = some entry := by
  induction entries with
  | nil => cases member
  | cons held rest ih =>
    obtain ⟨fresh, distinct⟩ := List.nodup_cons.mp distinct
    rcases List.mem_cons.mp member with rfl | member
    · simp [lookup?]
    · have other : held.1.text ≠ entry.1.text := fun same =>
        fresh (List.mem_map.mpr ⟨entry, member, same.symm⟩)
      simpa [lookup?, other] using ih distinct member

/-- A put replaces what is kept; the expression that was put first stays. -/
theorem lookup?_put (e : Expr) (a : α) :
    lookup? text (put e a entries) =
      if e.text = text then some ((lookup? text entries).elim e Prod.fst, a)
      else lookup? text entries := by
  induction entries with
  | nil => by_cases own : e.text = text <;> simp [put, lookup?, own]
  | cons held rest ih =>
    obtain ⟨key, old⟩ := held
    by_cases same : key.text = e.text
    · rw [put, if_pos same]
      by_cases own : e.text = text <;> simp [lookup?, same, own]
    · rw [put, if_neg same]
      by_cases here : key.text = text
      · have other : e.text ≠ text := fun own => same (here.trans own.symm)
        simp [lookup?, here, other]
      · simp only [lookup?] at ih ⊢
        simp [here, ih]

/-- A text that is new comes behind all others, and any other one keeps its place. -/
theorem texts_put (e : Expr) (a : α) :
    texts (put e a entries) =
      if e.text ∈ texts entries then texts entries else texts entries ++ [e.text] := by
  induction entries with
  | nil => rfl
  | cons held rest ih =>
    obtain ⟨key, old⟩ := held
    by_cases same : key.text = e.text
    · simp [put, texts, same]
    · have later : e.text ∈ texts ((key, old) :: rest) ↔ e.text ∈ texts rest := by
        simp [texts, Ne.symm same]
      rw [put, if_neg same]
      change key.text :: texts (put e a rest) = _
      rw [ih]
      simp only [later]
      split <;> rfl

/-- When no text is repeated, a put under a text that is there changes what its entry keeps. -/
theorem put_of_mem {e : Expr} (distinct : (texts entries).Nodup) (held : e.text ∈ texts entries)
    (a : α) :
    put e a entries =
      entries.map fun entry => if entry.1.text = e.text then (entry.1, a) else entry := by
  induction entries with
  | nil => cases held
  | cons first rest ih =>
    obtain ⟨fresh, distinct⟩ := List.nodup_cons.mp distinct
    by_cases same : first.1.text = e.text
    · have others : rest.map (fun entry => if entry.1.text = e.text then (entry.1, a) else entry) =
          rest := by
        refine (List.map_congr_left fun entry member => if_neg fun own => ?_).trans rest.map_id
        exact fresh (List.mem_map.mpr ⟨entry, member, own.trans same.symm⟩)
      rw [put, if_pos same, List.map_cons, if_pos same, others]
    · have later : e.text ∈ texts rest := (List.mem_cons.mp held).resolve_left (Ne.symm same)
      rw [put, if_neg same, List.map_cons, if_neg same, ih distinct later]

theorem lookup?_without (e : Expr) :
    lookup? text (without e entries) = if e.text = text then none else lookup? text entries := by
  rw [lookup?, without, List.find?_filter]
  split
  · next own => simp [own]
  · next other =>
    refine congrArg (entries.find? ·) (funext fun entry => ?_)
    by_cases here : entry.1.text = text
    · have kept : text ≠ e.text := fun own => other own.symm
      simp [here, kept]
    · simp [here]

/-- Leaving out an entry moves none of the others. -/
theorem texts_without (e : Expr) : (texts (without e entries)).Sublist (texts entries) :=
  List.filter_sublist.map _

/-! ### Entries follow their history -/

/-- The entries are those that a history says. -/
structure Follows (entries : Entries α) (history : List (Edit α)) : Prop where
  /-- The expression of an entry is the one that was put first. -/
  first (text : String) :
    (lookup? text entries).map Prod.fst = (puts text history).head?.map Prod.fst
  /-- What is kept in an entry was put last. -/
  latest (text : String) :
    (lookup? text entries).map Prod.snd = (puts text history).getLast?.map Prod.snd
  /-- Entries stand in the order of their first puts. -/
  ordered : (texts entries).Pairwise fun t u => firstPut t history < firstPut u history

/-- No two entries have the same text. -/
theorem Follows.distinct (follows : Follows entries history) : (texts entries).Nodup :=
  follows.ordered.imp fun earlier => by
    rintro rfl
    exact Nat.lt_irrefl _ earlier

/-- Entries come in the order in which their texts were put first. -/
theorem Follows.in_order (follows : Follows entries history) :
    entries.Pairwise fun entry later =>
      firstPut entry.1.text history < firstPut later.1.text history :=
  (List.pairwise_map (R := fun t u => firstPut t history < firstPut u history)).mp follows.ordered

/-- An entry has the expression that was the first to be put under its text. -/
theorem Follows.first_of_mem {entry : Expr × α} (follows : Follows entries history)
    (member : entry ∈ entries) :
    (puts entry.1.text history).head?.map Prod.fst = some entry.1 := by
  rw [← follows.first, lookup?_of_mem follows.distinct member, Option.map_some]

/-- An entry keeps what was put last under its text. -/
theorem Follows.latest_of_mem {entry : Expr × α} (follows : Follows entries history)
    (member : entry ∈ entries) :
    (puts entry.1.text history).getLast?.map Prod.snd = some entry.2 := by
  rw [← follows.latest, lookup?_of_mem follows.distinct member, Option.map_some]

/-- An entry was put with the expression it has. -/
theorem Follows.exists_put {entry : Expr × α} (follows : Follows entries history)
    (member : entry ∈ entries) : ∃ a, .put entry.1 a ∈ history := by
  obtain ⟨⟨e, a⟩, opens, same⟩ := Option.map_eq_some_iff.mp (follows.first_of_mem member)
  obtain ⟨change, counts, made⟩ := List.mem_filterMap.mp (List.mem_of_mem_head? opens)
  have done : change ∈ history := (List.rtakeWhile_suffix _ history).subset counts
  cases change with
  | put f b =>
    rw [Edit.put?] at made
    split at made
    · cases made
      exact ⟨a, same ▸ done⟩
    · cases made
  | without | clear => cases made

theorem Follows.mem_texts_iff (follows : Follows entries history) :
    text ∈ texts entries ↔ puts text history ≠ [] := by
  have both := congrArg Option.isSome (follows.first text)
  rw [Entries.mem_texts_iff]
  cases found : puts text history <;> simp_all

/-- A put takes entries that follow a history to entries that follow the longer one. -/
theorem Follows.put (follows : Follows entries history) (e : Expr) (a : α) :
    Follows (put e a entries) (history ++ [.put e a]) where
  first text := by
    have before := follows.first text
    rw [lookup?_put, puts_put]
    split
    · cases held : lookup? text entries <;> cases found : puts text history <;> simp_all
    · exact before
  latest text := by
    rw [lookup?_put, puts_put]
    split
    · simp
    · exact follows.latest text
  ordered := by
    have kept : (texts entries).Pairwise fun t u =>
        firstPut t (history ++ [.put e a]) < firstPut u (history ++ [.put e a]) := by
      refine follows.ordered.imp_of_mem fun here there earlier => ?_
      rwa [firstPut_append (follows.mem_texts_iff.mp here) rfl,
        firstPut_append (follows.mem_texts_iff.mp there) rfl]
    rw [texts_put]
    split
    · exact kept
    · next fresh =>
      refine List.pairwise_append.mpr
        ⟨kept, List.pairwise_singleton .., fun text held last only => ?_⟩
      have found := follows.mem_texts_iff.mp held
      have none_before : puts e.text history = [] := by
        simpa using mt follows.mem_texts_iff.mpr fresh
      rw [List.mem_singleton.mp only, firstPut_put none_before, firstPut_append found rfl]
      exact firstPut_lt found

/-- Leaving out a text keeps the entries in step with their history. -/
theorem Follows.without (follows : Follows entries history) (e : Expr) :
    Follows (without e entries) (history ++ [.without e]) where
  first text := by
    rw [lookup?_without]
    split
    · next own => rw [puts_freed (by simp [Edit.frees, own])]; rfl
    · next other => rw [puts_without_other other]; exact follows.first text
  latest text := by
    rw [lookup?_without]
    split
    · next own => rw [puts_freed (by simp [Edit.frees, own])]; rfl
    · next other => rw [puts_without_other other]; exact follows.latest text
  ordered := by
    have kept (text : String) (left : text ∈ texts (Entries.without e entries)) :
        firstPut text (history ++ [.without e]) = firstPut text history := by
      have found := follows.mem_texts_iff.mp ((texts_without e).subset left)
      have other : e.text ≠ text := by
        rw [Entries.mem_texts_iff, lookup?_without] at left
        intro own
        simp [own] at left
      exact firstPut_append found (by simp [Edit.frees, other])
    refine (follows.ordered.sublist (texts_without e)).imp_of_mem fun here there earlier => ?_
    rwa [kept _ here, kept _ there]

theorem follows_clear (history : List (Edit α)) : Follows [] (history ++ [.clear]) where
  first text := by rw [puts_freed rfl]; rfl
  latest text := by rw [puts_freed rfl]; rfl
  ordered := .nil

theorem Follows.apply (follows : Follows entries history) (change : Edit α) :
    Follows (apply change entries) (history ++ [change]) := by
  cases change with
  | put e a => exact follows.put e a
  | without e => exact follows.without e
  | clear => exact follows_clear history

/-- Entries follow the changes that made them. -/
theorem follows_run (history : List (Edit α)) : Follows (run history) history := by
  induction history using List.reverseRecOn with
  | nil => exact ⟨fun _ => rfl, fun _ => rfl, .nil⟩
  | append_singleton history change ih =>
    rw [run_append]
    exact ih.apply change

end Entries

end SqlBuilder
