import Mathlib.Data.List.Induction
import SqlBuilder.Proofs.Clause.Run
import SqlBuilder.Proofs.Session.Refused

/-! # Contents that lie further inside

A condition or a source of rows lies in a clause, which stands alone or belongs to a statement and,
for a condition on groups, to the grouping of one. A facet is how such contents are seen from the
outside, which of the actions there change them, and what those answer. When each action does to the
contents what its change does and nothing otherwise, a run leaves what the changes among its actions
make of them: the reads, the changes of other contents and the changes that are refused do not show.
-/

namespace SqlBuilder

/-- Contents after a change that may be refused; a refusal leaves them as they were. -/
def afterAttempt {α ε : Type} (apply : ε → α → Except Error (Reply × α)) (a : α) (change : ε) : α :=
  match apply change a with
  | .ok (_, next) => next
  | .error _ => a

/-- Contents that follow the changes so far when one more is tried follow all of them. -/
theorem foldl_afterAttempt {α ε : Type} {apply : ε → α → Except Error (Reply × α)}
    {held : List ε → α} (step : ∀ changes change,
      afterAttempt apply (held changes) change = held (changes ++ [change])) (changes : List ε) :
    changes.foldl (afterAttempt apply) (held []) = held changes := by
  induction changes using List.reverseRecOn with
  | nil => rfl
  | append_singleton changes change ih =>
    rw [List.foldl_append, ih]
    exact step changes change

/-- The last of some changes, from the last one on that starts anew. -/
def sinceReset {ε : Type} (resets : ε → Bool) : List ε → List ε
  | [] => []
  | change :: later => if later.any resets then sinceReset resets later else change :: later

theorem sinceReset_append {ε : Type} (resets : ε → Bool) (changes : List ε) (change : ε) :
    sinceReset resets (changes ++ [change]) =
      if resets change then [change] else sinceReset resets changes ++ [change] := by
  induction changes with
  | nil => simp [sinceReset]
  | cons first later ih =>
    rw [List.cons_append, sinceReset, ih, List.any_append]
    by_cases anew : resets change = true <;> by_cases within : later.any resets = true <;>
      simp [anew, within, sinceReset]

theorem sinceReset_eq_self {ε : Type} {resets : ε → Bool} {changes : List ε}
    (none : ∀ change ∈ changes, resets change = false) : sinceReset resets changes = changes := by
  cases changes with
  | nil => rfl
  | cons first later =>
    have kept : later.any resets = false := by
      simpa using fun change member => none change (List.mem_cons_of_mem first member)
    simp [sinceReset, kept]

/-- The last change that starts anew is where the last of the changes begin. -/
theorem sinceReset_of_reset {ε : Type} {resets : ε → Bool} {change : ε} {later : List ε}
    (none : ∀ other ∈ later, resets other = false) (anew : resets change = true)
    (before : List ε) : sinceReset resets (before ++ change :: later) = change :: later := by
  induction before with
  | nil =>
    have last : later.any resets = false := by simpa using none
    simp [sinceReset, last]
  | cons first before ih => simpa [sinceReset, anew] using ih

/-- Either no change starts anew or the last of the changes begin with the last one that does. -/
theorem sinceReset_cases {ε : Type} (resets : ε → Bool) (changes : List ε) :
    ((∀ change ∈ changes, resets change = false) ∧ sinceReset resets changes = changes) ∨
      ∃ before change later, changes = before ++ change :: later ∧ resets change = true ∧
        (∀ other ∈ later, resets other = false) ∧
        sinceReset resets changes = change :: later := by
  induction changes with
  | nil => exact .inl ⟨nofun, rfl⟩
  | cons first changes ih =>
    rcases ih with ⟨none, -⟩ | ⟨before, change, later, rfl, anew, none, since⟩
    · cases resets_first : resets first with
      | false =>
        have whole : ∀ change ∈ first :: changes, resets change = false :=
          List.forall_mem_cons.mpr ⟨resets_first, none⟩
        exact .inl ⟨whole, sinceReset_eq_self whole⟩
      | true =>
        exact .inr ⟨[], first, changes, rfl, resets_first, none,
          sinceReset_of_reset none resets_first []⟩
    · exact .inr ⟨first :: before, change, later, rfl, anew, none,
        sinceReset_of_reset none anew (first :: before)⟩

/-- How contents come through a change, which may be one of theirs: what is seen of them afterwards
and what the change answers. -/
inductive Undergoes {α ε : Type} (apply : ε → α → Except Error (Reply × α)) (a : α) :
    Option ε → Option α → Option (Except Error Reply) → Prop
  | own (change : ε) : Undergoes apply a (some change) (some (afterAttempt apply a change))
      (some ((apply change a).map Prod.fst))
  | other {reply? : Option (Except Error Reply)} : Undergoes apply a none (some a) reply?

namespace Undergoes

variable {α ε : Type} {apply : ε → α → Except Error (Reply × α)} {a : α} {change? : Option ε}
  {after? : Option α} {reply? : Option (Except Error Reply)}

theorem seen (undergoes : Undergoes apply a change? after? reply?) :
    after? = some (change?.elim a (afterAttempt apply a)) := by
  cases undergoes <;> rfl

theorem answered {change : ε} (undergoes : Undergoes apply a change? after? reply?)
    (made : change? = some change) : reply? = some ((apply change a).map Prod.fst) := by
  subst made
  cases undergoes
  rfl

/-- Contents that remember a text change as they do without it. -/
theorem cached (apply : ε → α → Except Error (Reply × α)) (c : Cached α) (change : ε) :
    Undergoes apply c.content (some change) (some (c.edit? (apply change)).2.content)
      (some (c.edit? (apply change)).1) := by
  have content : (c.edit? (apply change)).2.content = afterAttempt apply c.content change := by
    unfold Cached.edit? afterAttempt
    cases apply change c.content <;> rfl
  have reply : (c.edit? (apply change)).1 = (apply change c.content).map Prod.fst := by
    unfold Cached.edit?
    cases apply change c.content <;> rfl
  rw [content, reply]
  exact .own change

end Undergoes

/-- Contents of type `α` with changes of type `ε`, seen from states that actions work on. -/
structure Facet (σ A α ε : Type) where
  /-- What an action leaves of a state. -/
  act : σ → A → σ
  /-- The contents that a state has, if it has any. -/
  see? : σ → Option α
  /-- The change of the contents that an action is, if it is one. -/
  change? : A → Option ε
  /-- What an action answers, if it is a change that can be made. -/
  reply? : σ → A → Option (Except Error Reply)

namespace Facet

variable {σ A α ε : Type}

def run (f : Facet σ A α ε) (s : σ) (actions : List A) : σ := actions.foldl f.act s

def changes (f : Facet σ A α ε) (actions : List A) : List ε := actions.filterMap f.change?

/-- At sound states the contents undergo the changes that actions are, and answer them. -/
structure Obeys (f : Facet σ A α ε) (apply : ε → α → Except Error (Reply × α))
    (sound : σ → Prop) : Prop where
  kept {s : σ} (action : A) : sound s → sound (f.act s action)
  seen {s : σ} {a : α} (action : A) : sound s → f.see? s = some a →
    f.see? (f.act s action) = some ((f.change? action).elim a (afterAttempt apply a))
  answered {s : σ} {a : α} {action : A} {change : ε} : sound s → f.see? s = some a →
    f.change? action = some change → f.reply? s action = some ((apply change a).map Prod.fst)

variable {f : Facet σ A α ε} {apply : ε → α → Except Error (Reply × α)} {sound : σ → Prop}

theorem run_append (f : Facet σ A α ε) (s : σ) (actions more : List A) :
    f.run s (actions ++ more) = f.run (f.run s actions) more := by
  rw [run, List.foldl_append]
  rfl

/-- Runs lead from sound states to sound states. -/
theorem Obeys.sound_run (obeys : f.Obeys apply sound) {s : σ} (start : sound s)
    (actions : List A) : sound (f.run s actions) := by
  induction actions generalizing s with
  | nil => exact start
  | cons action actions ih => exact ih (obeys.kept action start)

/-- A run leaves what the changes among its actions make of the contents. -/
theorem Obeys.see?_run (obeys : f.Obeys apply sound) {s : σ} {a : α} (start : sound s)
    (held : f.see? s = some a) (actions : List A) :
    f.see? (f.run s actions) = some ((f.changes actions).foldl (afterAttempt apply) a) := by
  induction actions generalizing s a with
  | nil => exact held
  | cons action actions ih =>
    have rest := ih (obeys.kept action start) (obeys.seen action start held)
    change f.see? (f.run (f.act s action) actions) = _
    rw [rest, changes, changes]
    cases own : f.change? action with
    | none => rw [List.filterMap_cons_none own, Option.elim_none]
    | some change => rw [List.filterMap_cons_some own, List.foldl_cons, Option.elim_some]

end Facet

/-! ### Facets of clauses and of statements -/

namespace Clause

def reply? (clause : Clause) : Action → Option (Except Error Reply)
  | .change edit => (clause.change? edit).map Prod.fst
  | .read => none

/-- Contents that are seen of a clause and undergo some of its changes. -/
def facet {α ε : Type} (see? : Clause → Option α) (own? : Edit → Option ε) :
    Facet Clause Action α ε where
  act := act
  see? := see?
  change?
    | .change edit => own? edit
    | .read => none
  reply? := reply?

theorem kind_act (clause : Clause) (action : Action) : (clause.act action).kind = clause.kind := by
  cases action with
  | change edit => cases clause <;> cases edit <;> rfl
  | read => cases clause <;> rfl

/-- Contents obey in clauses of a kind if reads do not touch them and every change, as far as it is
one of theirs, does. -/
theorem obeys_facet {α ε : Type} {see? : Clause → Option α} {own? : Edit → Option ε}
    {apply : ε → α → Except Error (Reply × α)} {kind : ClauseKind}
    (blind : ∀ clause, see? clause.afterRead = see? clause)
    (changed : ∀ clause edit a, clause.kind = kind → see? clause = some a →
      Undergoes apply a (own? edit) (see? (clause.act (.change edit)))
        ((clause.change? edit).map Prod.fst)) :
    (facet see? own?).Obeys apply fun clause => clause.kind = kind where
  kept action own := (kind_act _ action).trans own
  seen action own held := by
    cases action with
    | change edit => exact (changed _ edit _ own held).seen
    | read => exact (blind _).trans held
  answered {_ _ action _} own held made := by
    cases action with
    | change edit => exact (changed _ edit _ own held).answered made
    | read => cases made

end Clause

namespace Statement

def reply? (s : Statement) : Action → Option (Except Error Reply)
  | .change edit => (s.change? edit).map Prod.fst
  | .read | .readClause _ | .readParams => none

/-- Contents that are seen of a statement and undergo some of its changes. -/
def facet {α ε : Type} (see? : Statement → Option α) (own? : Edit → Option ε) :
    Facet Statement Action α ε where
  act := act
  see? := see?
  change?
    | .change edit => own? edit
    | .read | .readClause _ | .readParams => none
  reply? := reply?

theorem kind_act (s : Statement) (action : Action) : (s.act action).kind = s.kind := by
  cases action with
  | change edit => cases s <;> cases edit <;> rfl
  | read => exact kind_read s
  | readClause kind => exact kind_afterClauseRead kind s
  | readParams => rfl

/-- Contents obey in statements of a kind if they are seen whatever is remembered and every change,
as far as it is one of theirs, is made to them. -/
theorem obeys_facet {α ε : Type} {see? : Statement → Option α} {own? : Edit → Option ε}
    {apply : ε → α → Except Error (Reply × α)} {kind : StatementKind}
    (blind : ∀ s : Statement, see? s.forget = see? s)
    (changed : ∀ s edit a, s.kind = kind → see? s = some a →
      Undergoes apply a (own? edit) (see? (s.change edit)) ((s.change? edit).map Prod.fst)) :
    (facet see? own?).Obeys apply fun s => s.Coherent ∧ s.kind = kind where
  kept action own := ⟨own.1.act action, (kind_act _ action).trans own.2⟩
  seen {s _} action own held := by
    cases action with
    | change edit => exact (changed s edit _ own.2 held).seen
    | read =>
      change see? s.read.state = _
      rw [← blind, own.1.forget_read, blind]
      exact held
    | readClause kind =>
      change see? (s.afterClauseRead kind) = _
      rw [← blind, forget_afterClauseRead, blind]
      exact held
    | readParams => exact held
  answered {_ _ action _} own held made := by
    cases action with
    | change edit => exact (changed _ edit _ own.2 held).answered made
    | read | readClause | readParams => cases made

end Statement

end SqlBuilder
