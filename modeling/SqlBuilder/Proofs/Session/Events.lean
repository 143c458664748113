import Mathlib.Data.List.TakeWhile
import SqlBuilder.Proofs.Session.Pool

/-! # Every reported rendering was needed

Whether the read of a statement renders it can be told from what has happened to the statement, and
from nothing else: it is rendered unless it was read since it was created or last accessed through
something that could change it. The past of every statement is kept beside a run, where a copy takes
over the past of its original. The statements that remember a text are then those that were read
since, which every step keeps up.
-/

namespace SqlBuilder

/-- What can happen to a statement: it is accessed through something that could change it, whether
or not that is refused or without effect, or it is read and answers with its text. -/
inductive Happening
  | accessed
  | read
  deriving DecidableEq

/-- Whether a statement was read since it was created or last accessed. The past of a statement
begins with what happened last. -/
def readSince (past : List Happening) : Bool := (past.takeWhile (· ≠ .accessed)).contains .read

@[simp]
theorem readSince_nil : readSince [] = false := rfl

@[simp]
theorem readSince_accessed (past : List Happening) : readSince (.accessed :: past) = false := rfl

@[simp]
theorem readSince_read (past : List Happening) : readSince (.read :: past) = true := by
  simp [readSince]

/-- What has happened to every statement of a pool. -/
abbrev Log (n : Nat) := Vector (List Happening) n

namespace Log

variable {n : Nat}

def note (happening : Happening) (log : Log n) (i : Fin n) : Log n :=
  put log i (happening :: log.get i)

theorem readSince_foldl_note (log : Log n) (refs : List (Fin n)) (j : Fin n) :
    readSince ((refs.foldl (note .read) log).get j) = true ↔
      j ∈ refs ∨ readSince (log.get j) = true := by
  induction refs generalizing log with
  | nil => simp
  | cons i refs ih =>
    rw [List.foldl_cons, ih, note, get_put, List.mem_cons]
    by_cases same : i = j
    · simp [same]
    · simp [same, Ne.symm same]

end Log

namespace Pool

open Log

variable {n : Nat} {pool other : Pool n} {log : Log n}

/-- The statements that answer with their texts: all up to the first that cannot be written. -/
def answering (pool : Pool n) (refs : List (Fin n)) : List (Fin n) :=
  refs.takeWhile fun i => (pool.get i).isValid

/-- What a step adds to the past of the statements. -/
def follow (pool : Pool n) (log : Log n) : Step n → Log n
  | .create i _ => put log i []
  | .copy source target => put log target (log.get source)
  | .access i => note .accessed log i
  | .change i edit => if ((pool.get i).change? edit).isSome then note .accessed log i else log
  | .look _ | .readClause _ _ => log
  | .ask a => (answering pool (a.refs pool)).foldl (note .read) log

/-- The events of statements that are read one after the other: each is rendered unless it was read
since, an earlier read of the same list included. -/
def misses (pool : Pool n) (log : Log n) : List (Fin n) → List Event
  | [] => []
  | i :: refs =>
    (if readSince (log.get i) then [] else (pool.get i).rendering) ++
      misses pool (note .read log i) refs

/-- The events of a step that answers in the given way. -/
def reported (pool : Pool n) (log : Log n) : Step n → Except Error Answer → List Event
  | .ask a, answer => misses pool log (answering pool (a.refs pool)) ++ a.report answer
  | _, _ => []

def book (steps : List (Step n)) : Pool n × Log n :=
  steps.foldl (fun (pool, log) s => ((step pool s).state, follow pool log s))
    (blank n, .replicate n [])

/-- The statements that remember a text are those that were read since. -/
def Tracks (pool : Pool n) (log : Log n) : Prop :=
  ∀ i, (pool.get i).kind ≠ .verbatim → (pool.get i).memo?.isSome = readSince (log.get i)

theorem Tracks.set (tracks : Tracks pool log) (i : Fin n) {s : Statement} {past : List Happening}
    (right : s.kind ≠ .verbatim → s.memo?.isSome = readSince past) :
    Tracks (put pool i s) (put log i past) := by
  intro j
  rw [get_put, get_put]
  split
  · exact right
  · exact tracks j

/-- A statement is accessed and forgets its text. -/
theorem Tracks.access (tracks : Tracks pool log) (i : Fin n) {s : Statement}
    (forgotten : s.memo? = none) : Tracks (put pool i s) (note .accessed log i) :=
  tracks.set i fun _ => by rw [forgotten, readSince_accessed, Option.isSome_none]

/-- A statement is read and answers with its text. -/
theorem Tracks.read (tracks : Tracks pool log) {i : Fin n} (valid : (pool.get i).isValid = true) :
    Tracks (put pool i (pool.get i).read.state) (note .read log i) :=
  tracks.set i fun built => by
    rw [Statement.kind_read] at built
    rw [Statement.isSome_memo?_read built, valid, Bool.or_true, readSince_read]

/-- Nothing has happened to a statement that cannot be read. -/
theorem Tracks.fail (tracks : Tracks pool log) {i : Fin n}
    (invalid : (pool.get i).isValid = false) :
    Tracks (put pool i (pool.get i).read.state) log := by
  intro j built
  rw [get_put] at built ⊢
  split at built
  · next here =>
    obtain rfl := here
    rw [Statement.kind_read] at built
    rw [if_pos rfl, Statement.isSome_memo?_read built, invalid, Bool.or_false, tracks i built]
  · next elsewhere => rw [if_neg elsewhere, tracks j built]

/-- A read renders a statement unless it was read since. -/
theorem Tracks.events_read (tracks : Tracks pool log) (i : Fin n) :
    (pool.get i).read.events = if readSince (log.get i) then [] else (pool.get i).rendering := by
  by_cases built : (pool.get i).kind = .verbatim
  · have silent : (pool.get i).rendering = [] := if_pos built
    rw [Statement.events_read, silent, ite_self, ite_self]
  · rw [Statement.events_read, tracks i built]

/-- Two states of a pool whose statements are of the same kinds and read alike. -/
structure SameTexts (other pool : Pool n) : Prop where
  alike : PoolAlike other pool
  kind (i : Fin n) : (other.get i).kind = (pool.get i).kind

theorem SameTexts.refl (pool : Pool n) : SameTexts pool pool := ⟨.refl pool, fun _ => rfl⟩

theorem SameTexts.read (same : SameTexts other pool) (i : Fin n) :
    SameTexts (put other i (other.get i).read.state) pool where
  alike := same.alike.set i
  kind j := by
    rw [get_put]
    split
    · next here =>
      obtain rfl := here
      rw [Statement.kind_read, same.kind]
    · exact same.kind j

/-- Statements that are read one after the other report those that had to be rendered, the ones that
answered are noted as read, and the texts stay as they are. -/
theorem events_each (refs : List (Fin n)) (same : SameTexts other pool)
    (tracks : Tracks other log) :
    let reading := Reading.each readAt other refs
    reading.events = misses pool log (answering pool refs) ∧
      Tracks reading.state ((answering pool refs).foldl (note .read) log) ∧
      SameTexts reading.state pool := by
  intro reading
  subst reading
  -- The texts are those of the pool at first, whatever has been read of it since.
  induction refs generalizing other log with
  | nil => exact ⟨rfl, tracks, same⟩
  | cons i refs ih =>
    have events := tracks.events_read i
    rw [Statement.rendering_congr (same.kind i) (same.alike i).answer] at events
    have validity := (same.alike i).isValid
    rw [Reading.each]
    unfold Reading.andThen
    cases valid : (pool.get i).isValid with
    | false =>
      rw [valid] at validity
      have refused : (readAt other i).answer = .error (.incomplete (other.get i).kind) :=
        Statement.answer_read_of_invalid validity
      have nothing : answering pool (i :: refs) = [] := by simp [answering, valid]
      rw [Statement.rendering_of_invalid valid, ite_self] at events
      rw [nothing, refused]
      exact ⟨events, tracks.fail validity, same.read i⟩
    | true =>
      rw [valid] at validity
      obtain ⟨text, answered⟩ := Statement.exists_answer_read validity
      have read : (readAt other i).answer = .ok text := answered
      have more : answering pool (i :: refs) = i :: answering pool refs := by
        simp [answering, valid]
      obtain ⟨rest, kept⟩ := ih (same.read i) (tracks.read validity)
      rw [more, read]
      exact ⟨congrArg₂ (· ++ ·) events rest, kept⟩

/-- Asking for texts reports what had to be rendered and what was prepared. -/
theorem events_ask (tracks : Tracks pool log) (a : Ask n) :
    let reading := ask pool a
    reading.events =
        misses pool log (answering pool (a.refs pool)) ++ a.report reading.answer ∧
      Tracks reading.state ((answering pool (a.refs pool)).foldl (note .read) log) ∧
      SameTexts reading.state pool := by
  obtain ⟨state, events⟩ := course_ask pool a
  obtain ⟨missed, kept⟩ := events_each (a.refs pool) (.refl pool) tracks
  exact ⟨events.trans (congrArg (· ++ _) missed), state ▸ kept⟩

/-- A change reports nothing, and the log keeps up with what is forgotten. -/
theorem tracks_change (tracks : Tracks pool log) (i : Fin n) (edit : Statement.Edit) :
    (change pool i edit).events = [] ∧
      Tracks (change pool i edit).state (follow pool log (.change i edit)) := by
  unfold change
  rw [follow]
  cases changed : (pool.get i).change? edit with
  | none => exact ⟨rfl, tracks⟩
  | some result => exact ⟨rfl, tracks.access i (Statement.memo?_change changed)⟩

/-- A read of a clause reports nothing and counts neither as a read nor as an access. -/
theorem tracks_readClause (tracks : Tracks pool log) (i : Fin n) (kind : ClauseKind) :
    (readClause pool i kind).events = [] ∧ Tracks (readClause pool i kind).state log := by
  unfold readClause
  cases (pool.get i).clause? kind with
  | none => exact ⟨rfl, tracks⟩
  | some clause =>
    refine ⟨rfl, fun j built => ?_⟩
    rw [get_put] at built ⊢
    split at built
    · next here =>
      obtain rfl := here
      rw [Statement.kind_afterClauseRead] at built
      rw [if_pos rfl, Statement.memo?_afterClauseRead, tracks i built]
    · next elsewhere => rw [if_neg elsewhere, tracks j built]

/-- A step reports what had to be rendered and what was prepared, and keeps the log up. -/
theorem tracks_step (tracks : Tracks pool log) (s : Step n) :
    (step pool s).events = reported pool log s (step pool s).answer ∧
      Tracks (step pool s).state (follow pool log s) := by
  cases s with
  | create i opening =>
    exact ⟨rfl, tracks.set i fun _ => by
      rw [Statement.memo?_statement, readSince_nil, Option.isSome_none]⟩
  | copy source target => exact ⟨rfl, tracks.set target (tracks source)⟩
  | access i => exact ⟨rfl, tracks.access i (Statement.memo?_touch _)⟩
  | change i edit => exact tracks_change tracks i edit
  | look i => exact ⟨rfl, tracks⟩
  | readClause i kind => exact tracks_readClause tracks i kind
  | ask a =>
    obtain ⟨events, tracked, -⟩ := events_ask tracks a
    exact ⟨events, tracked⟩

theorem tracks_blank (n : Nat) : Tracks (blank n) (.replicate n []) := by
  intro i _
  have pool : (blank n).get i = Statement.Opening.select.statement :=
    Vector.getElem_replicate i.isLt
  have log : (Vector.replicate n ([] : List Happening)).get i = [] :=
    Vector.getElem_replicate i.isLt
  rw [pool, log]
  rfl

/-- In every run the statements that remember a text are those that were read since. -/
theorem tracks_book (steps : List (Step n)) : Tracks (book steps).1 (book steps).2 := by
  have going : ∀ (pool : Pool n) (log : Log n), Tracks pool log →
      let after := steps.foldl
        (fun (pool, log) s => ((step pool s).state, follow pool log s)) (pool, log)
      Tracks after.1 after.2 := by
    induction steps with
    | nil => exact fun _ _ tracks => tracks
    | cons s steps ih => exact fun pool log tracks => ih _ _ (tracks_step tracks s).2
  exact going _ _ (tracks_blank n)

/-- Reading one statement reports it when it had to be rendered. -/
theorem events_text (tracks : Tracks pool log) (i : Fin n) :
    let reading := ask pool (.text i)
    ((∃ text, reading.answer = .ok (.text text)) ↔ (pool.get i).isValid = true) ∧
      (∀ e, reading.answer = .error e → reading.events = []) ∧
      ∀ text, reading.answer = .ok (.text text) → reading.events =
        if (pool.get i).kind = .verbatim ∨ readSince (log.get i) = true then []
        else [.rendered (pool.get i).kind text.utf8ByteSize] := by
  have answer : (ask pool (.text i)).answer = (pool.get i).read.answer.map .text := rfl
  have events : (ask pool (.text i)).events = _ := tracks.events_read i
  simp only [answer, events, ← Statement.exists_answer_read_iff, Statement.rendering]
  cases (pool.get i).read.answer with
  | error e => simp [Except.map, Except.toOption]
  | ok text =>
    refine ⟨by simp [Except.map], by simp [Except.map], fun other answered => ?_⟩
    obtain rfl : text = other := by simpa [Except.map] using answered
    by_cases since : readSince (log.get i) = true
    · rw [if_pos since, if_pos (.inr since)]
    · simp [since, Except.toOption]

/-- Preparing commands reports the statements that had to be rendered and, when it succeeds, the
commands. The statements in front of the first that cannot be written remember their texts. -/
theorem events_prepare (tracks : Tracks pool log) (b : Batcher) (refs : List (Fin n)) :
    let reading := ask pool (.prepare b refs)
    (∀ commands, reading.answer = .ok (.commands commands) →
        answering pool refs = refs ∧
          reading.events = misses pool log refs ++
            [.prepared refs.length commands.length
              (commands.foldl (fun total c => total + c.params.size) 0)]) ∧
      (∀ e, reading.answer = .error e → reading.events = misses pool log (answering pool refs)) ∧
      ∀ i, (pool.get i).kind ≠ .verbatim →
        ((reading.state.get i).memo?.isSome = true ↔
          i ∈ answering pool refs ∨ readSince (log.get i) = true) := by
  intro reading
  obtain ⟨events, tracked, same⟩ := events_ask tracks (.prepare b refs)
  rw [Ask.refs] at events tracked
  refine ⟨fun commands answered => ?_, fun e answered => ?_, fun i built => ?_⟩
  · have all : answering pool refs = refs := by
      refine List.takeWhile_eq_self_iff.mpr fun i member => ?_
      by_contra invalid
      obtain ⟨e, refused⟩ := Batcher.exists_refused_iff.mpr
        (.inr ⟨i, member, Bool.of_not_eq_true invalid⟩)
      have failed : reading.answer = .error e :=
        congrArg (Except.map Answer.commands) (b.prepare_eq_error_iff.mpr refused)
      rw [failed] at answered
      cases answered
    rw [all] at events
    refine ⟨all, events.trans ?_⟩
    change _ ++ Ask.report _ reading.answer = _
    rw [answered]
    rfl
  · rw [show (ask pool (.prepare b refs)).answer = .error e from answered] at events
    exact events.trans (List.append_nil _)
  · have still : (reading.state.get i).kind ≠ .verbatim := (same.kind i).trans_ne built
    rw [tracked i still]
    exact readSince_foldl_note log _ i

/-- A rendering is reported exactly when it was needed. Whatever was done with the statements of a
pool, a step reports the statements it reads and that were not read since they were created or last
accessed, each with its kind and the length of its text, up to the first that cannot be written;
behind them it reports the commands that were prepared. A statement remembers its text exactly when
it was read since. -/
theorem events_are_misses (steps : List (Step n)) :
    let pool := (book steps).1
    let log := (book steps).2
    (∀ next : Step n,
        let reading := step pool next
        reading.events = reported pool log next reading.answer ∧
          ∀ i, (reading.state.get i).kind ≠ .verbatim →
            (reading.state.get i).memo?.isSome = readSince ((follow pool log next).get i)) ∧
      (∀ i,
        let reading := step pool (.ask (.text i))
        ((∃ text, reading.answer = .ok (.text text)) ↔ (pool.get i).isValid = true) ∧
          (∀ e, reading.answer = .error e → reading.events = []) ∧
          ∀ text, reading.answer = .ok (.text text) → reading.events =
            if (pool.get i).kind = .verbatim ∨ readSince (log.get i) = true then []
            else [.rendered (pool.get i).kind text.utf8ByteSize]) ∧
      ∀ (b : Batcher) (refs : List (Fin n)),
        let reading := step pool (.ask (.prepare b refs))
        (∀ commands, reading.answer = .ok (.commands commands) →
            answering pool refs = refs ∧
              reading.events = misses pool log refs ++
                [.prepared refs.length commands.length
                  (commands.foldl (fun total c => total + c.params.size) 0)]) ∧
          (∀ e, reading.answer = .error e →
            reading.events = misses pool log (answering pool refs)) ∧
          ∀ i, (pool.get i).kind ≠ .verbatim →
            ((reading.state.get i).memo?.isSome = true ↔
              i ∈ answering pool refs ∨ readSince (log.get i) = true) := by
  intro pool log
  have tracks : Tracks pool log := tracks_book steps
  exact ⟨fun next => tracks_step tracks next, events_text tracks, events_prepare tracks⟩

/-- A query is read, copied, and accessed by a join that is refused. Preparing it with the copy and
with a query without columns renders it alone, and all that comes of it is the text it remembers. -/
theorem events_are_misses_partial :
    let steps : List (Step 3) :=
      [.change 0 (.select (.projection (.columns (.push { text := "k" })))), .ask (.text 0),
        .copy 0 1, .change 0 (.select (.source (.join .cross none none)))]
    let b : Batcher := ⟨{}, ";", by decide⟩
    let pool := (book steps).1
    let reading := step pool (.ask (.prepare b [0, 1, 2, 1]))
    (∃ e, reading.answer = .error e) ∧ reading.events = [.rendered .select 8] ∧
      (step pool (.ask (.text 1))).events = [] ∧
      (reading.state.get 0).memo?.isSome = true := by
  intro steps b pool reading
  obtain ⟨-, texts, prepared⟩ := events_are_misses steps
  obtain ⟨-, failed, remembered⟩ := prepared b [0, 1, 2, 1]
  have cause : Batcher.Refused pool [0, 1, 2, 1] (.incomplete .select) :=
    Batcher.refused_iff_incomplete.mpr
      (.inr ⟨[0, 1], 2, [1], rfl, by decide, by decide, by decide⟩)
  have refused : reading.answer = .error (.incomplete .select) :=
    congrArg (Except.map Answer.commands) (b.prepare_eq_error_iff.mpr cause)
  refine ⟨⟨_, refused⟩, (failed _ refused).trans (by decide), ?_, ?_⟩
  · exact ((texts 1).2.2 "SELECT k" (by decide)).trans (if_pos (by decide))
  · exact (remembered 0 (by decide)).mpr (.inl (by decide))

end Pool

end SqlBuilder
