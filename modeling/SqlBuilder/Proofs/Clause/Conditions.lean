import SqlBuilder.Expr.Fold
import SqlBuilder.Proofs.Session.Facet

/-! # Conditions joined from the left

A condition that is extended is put in parentheses and joined with the next one, so what a WHERE or
HAVING clause holds is a chain: the first condition since the clause was last set or cleared, and
behind it the others in their order, each with its own connective. A first condition that is alone
stays as it was given. Folding a list of conditions at once makes the same chain as extending the
clause by one after the other, wherever the clause is.
-/

namespace SqlBuilder

/-- A connective between two conditions takes any two, and has the parameters of both. -/
theorem Operator.compute_connective (word : String) (e f : Expr) :
    (binary word [word]).compute [e, f] =
      .ok { text := "(" ++ e.text ++ ") " ++ word ++ " (" ++ f.text ++ ")"
            params := e.params ∪ f.params } := by
  have text : parens e.text ++ interleave [word] [f] =
      "(" ++ e.text ++ ") " ++ word ++ " (" ++ f.text ++ ")" := by
    rw [← String.toList_inj]
    simp [parens, interleave]
  have params : (binary word [word]).collect [e, f] = e.params ∪ f.params := by
    change (∅ ∪ e.params) ∪ f.params = _
    rw [ParamList.empty_union]
  rw [← text, ← params]
  rfl

namespace Condition

variable {role : Role}

/-- Conditions in a row: the first, and the others each behind the word that joins it to those
before it. -/
structure Chain where
  first : Expr
  others : List (String × Expr) := []

namespace Chain

/-- The chain of conditions that each have a word; the word of the first is not written. -/
def ofLinks? : List (String × Expr) → Option Chain
  | [] => none
  | (_, first) :: others => some ⟨first, others⟩

def parts (chain : Chain) : List Expr := chain.first :: chain.others.map Prod.snd

/-- The text of a chain: what comes before a word stands in parentheses, and so does the condition
behind it. -/
def text (chain : Chain) : String :=
  chain.others.foldl (fun text link => "(" ++ text ++ ") " ++ link.1 ++ " (" ++ link.2.text ++ ")")
    chain.first.text

/-- A chain as one condition. A single condition is itself. -/
def toExpr (chain : Chain) : Expr :=
  match chain.others with
  | [] => chain.first
  | _ :: _ => { text := chain.text, params := .unions (chain.parts.map Expr.params) }

def append (chain : Chain) (links : List (String × Expr)) : Chain :=
  { chain with others := chain.others ++ links }

theorem text_toExpr (chain : Chain) : chain.toExpr.text = chain.text := by
  obtain ⟨first, others⟩ := chain
  cases others <;> rfl

/-- The parameters of a chain are those of its conditions, in the order they are written. -/
theorem params_toExpr (chain : Chain) :
    chain.toExpr.params = .unions (chain.parts.map Expr.params) := by
  obtain ⟨first, others⟩ := chain
  cases others with
  | nil => exact (ParamList.empty_union first.params).symm
  | cons link others => rfl

/-- Joining a chain with one more condition is adding the condition to the chain. -/
theorem compute_toExpr (chain : Chain) (word : String) (e : Expr) :
    (Operator.binary word [word]).compute [chain.toExpr, e] =
      .ok (chain.append [(word, e)]).toExpr := by
  have text : (chain.append [(word, e)]).text =
      "(" ++ chain.text ++ ") " ++ word ++ " (" ++ e.text ++ ")" := by
    rw [Chain.text, append, List.foldl_append]
    rfl
  have params : ParamList.unions ((chain.append [(word, e)]).parts.map Expr.params) =
      .unions (chain.parts.map Expr.params) ∪ e.params := by
    rw [← ParamList.unions_concat]
    simp [parts, append]
  rw [Operator.compute_connective, text_toExpr, params_toExpr, ← text, ← params]
  obtain ⟨first, others⟩ := chain
  cases others <;> rfl

/-- Folding conditions onto a chain adds all of them to it. -/
theorem foldlM_toExpr (chain : Chain) (word : String) (es : List Expr) :
    es.foldlM (fun joined next => (Operator.binary word [word]).compute [joined, next])
        chain.toExpr =
      .ok (chain.append (es.map (word, ·))).toExpr := by
  induction es generalizing chain with
  | nil => simp [append, pure, Except.pure]
  | cons e es ih =>
    have rest : (chain.append [(word, e)]).append (es.map (word, ·)) =
        chain.append ((e :: es).map (word, ·)) := by simp [append]
    rw [List.foldlM_cons, compute_toExpr, ← rest]
    exact ih _

/-- Folding conditions with one word makes the chain in which that word joins them. -/
theorem foldWith_eq (word : String) (es : List Expr) :
    Expr.foldWith (.binary word [word]) es =
      .ok ((ofLinks? (es.map (word, ·))).map toExpr) := by
  cases es with
  | nil => rfl
  | cons e es =>
    have folded := foldlM_toExpr ⟨e, []⟩ word es
    rw [toExpr] at folded
    rw [Expr.foldWith, folded]
    rfl

end Chain

/-- Whether a change leaves nothing of the conditions before it. -/
def Edit.resets : Edit → Bool
  | set _ | clear => true
  | and _ | or _ => false

/-- The condition that a change gives, behind the word that joins it to those before it. -/
def Edit.link? : Edit → Option (String × Expr)
  | set e => some ("", e)
  | and e => some ("AND", e)
  | or e => some ("OR", e)
  | clear => none

/-- The chain that changes leave: the conditions given since the last one that was set or cleared,
which is the first of them if it was set. -/
def Chain.ofChanges? (changes : List Edit) : Option Chain :=
  ofLinks? ((sinceReset Edit.resets changes).filterMap Edit.link?)

/-- A clause that holds a chain and is changed holds the chain of all changes. -/
theorem afterAttempt_chain (changes : List Edit) (change : Edit) :
    afterAttempt apply (⟨(Chain.ofChanges? changes).map Chain.toExpr⟩ : Condition role) change =
      ⟨(Chain.ofChanges? (changes ++ [change])).map Chain.toExpr⟩ := by
  -- An extension goes to the end of the links, where there are none before it or some.
  have extend (word : String) (e : Expr) (links : List (String × Expr)) :
      Condition.extend (.binary word [word])
          (⟨(Chain.ofLinks? links).map Chain.toExpr⟩ : Condition role) e =
        .ok ⟨(Chain.ofLinks? (links ++ [(word, e)])).map Chain.toExpr⟩ := by
    cases links with
    | nil => rfl
    | cons link links =>
      simp only [Condition.extend, Chain.ofLinks?, Option.map_some, Chain.compute_toExpr]
      rfl
  unfold Chain.ofChanges?
  rw [sinceReset_append]
  cases change with
  | set | clear => rfl
  | and e =>
    simp only [afterAttempt, apply, Operator.conjunction, extend, Except.map, Edit.resets,
      Bool.false_eq_true, ↓reduceIte, List.filterMap_append]
    rfl
  | or e =>
    simp only [afterAttempt, apply, Operator.disjunction, extend, Except.map, Edit.resets,
      Bool.false_eq_true, ↓reduceIte, List.filterMap_append]
    rfl

/-- Changes of a clause without a condition leave their chain. -/
theorem foldl_eq_chain (changes : List Edit) :
    changes.foldl (afterAttempt apply) ({} : Condition role) =
      ⟨(Chain.ofChanges? changes).map Chain.toExpr⟩ :=
  foldl_afterAttempt afterAttempt_chain changes

end Condition

/-! ### Where conditions are -/

namespace Clause

/-- The condition in a role that a clause is or that lies in it. -/
def condition? (role : Condition.Role) (clause : Clause) : Option (Condition role) :=
  match role, clause with
  | .rows, condition .rows c => some c.content
  | .groups, condition .groups c => some c.content
  | .groups, grouping c => some c.content.having.content
  | _, _ => none

/-- The change of its condition that a change of a clause of a kind is, if it is one. -/
def Edit.condition? (kind : ClauseKind) : Edit → Option Condition.Edit
  | condition change => if kind = .grouping then none else some change
  | grouping (.having change) => if kind = .grouping then some change else none
  | _ => none

/-- The condition in a role, as it is seen of clauses of a kind. -/
def conditions (kind : ClauseKind) (role : Condition.Role) :
    Facet Clause Action (Condition role) Condition.Edit :=
  facet (condition? role) (Edit.condition? kind)

/-- The clauses that have a place for a condition and hold nothing yet. -/
def blankConditions : Condition.Role → List Clause
  | .rows => [condition .rows { content := {} }]
  | .groups => [condition .groups { content := {} }, grouping { content := {} }]

variable {role : Condition.Role}

/-- A read changes no condition. -/
theorem condition?_afterRead (role : Condition.Role) (clause : Clause) :
    clause.afterRead.condition? role = clause.condition? role := by
  cases clause with
  | condition own c => cases own <;> cases role <;> rfl
  | grouping c =>
    have same : (Grouping.afterRead c).content.having.content = c.content.having.content :=
      congrArg (fun g => g.content.having.content) (Grouping.forget_afterRead c)
    cases role
    · rfl
    · exact congrArg some same
  | projection | source | sorting | assignments => cases role <;> rfl

theorem condition?_forget (role : Condition.Role) (clause : Clause) :
    clause.forget.condition? role = clause.condition? role := by
  cases clause with
  | condition own c => cases own <;> cases role <;> rfl
  | _ => cases role <;> rfl

end Clause

/-- The condition on groups changes inside a grouping as it does outside. -/
theorem Grouping.undergoes_having (c : Cached Grouping) (change : Condition.Edit) :
    Undergoes Condition.apply c.content.having.content (some change)
      (some (c.edit? (apply (.having change))).2.content.having.content)
      (some (c.edit? (apply (.having change))).1) := by
  obtain ⟨next, applied⟩ := Condition.apply_eq_ok change c.content.having.content
  have edited : c.edit? (apply (.having change)) =
      (.ok .done, { content := { c.content with having := { content := next } } }) := by
    simp [Cached.edit?, apply, applied]
  have own : Undergoes Condition.apply c.content.having.content (some change)
      (some (afterAttempt Condition.apply c.content.having.content change))
      (some ((Condition.apply change c.content.having.content).map Prod.fst)) := .own change
  rw [edited]
  rwa [afterAttempt, applied] at own

/-- The condition in a clause undergoes the changes meant for it, and answers them. -/
theorem Clause.obeys_conditions (kind : ClauseKind) (role : Condition.Role) :
    (conditions kind role).Obeys Condition.apply fun clause => clause.kind = kind := by
  refine obeys_facet (condition?_afterRead role) fun clause edit a own held => ?_
  subst own
  cases clause with
  | condition own c =>
    cases edit with
    | condition change =>
      cases own <;> cases role <;> cases held <;> exact .cached Condition.apply c change
    | grouping change =>
      cases own <;> cases role <;> cases held <;> cases change <;> exact .other
    | projection | source | sorting | assignments =>
      cases own <;> cases role <;> cases held <;> exact .other
  | grouping c =>
    cases role with
    | rows => cases held
    | groups =>
      obtain rfl := Option.some.inj held
      cases edit with
      | grouping change =>
        cases change with
        | having change => exact Grouping.undergoes_having c change
        | keys => exact .other
      | projection | source | condition | sorting | assignments => exact .other
  | projection | source | sorting | assignments => cases role <;> cases held

namespace Statement

/-- The condition in a role that a statement has. -/
def condition? (role : Condition.Role) (s : Statement) : Option (Condition role) :=
  (s.clause? role.kind).bind (Clause.condition? role)

/-- The change of its condition that a change of a statement of a kind is, if it is one. -/
def Edit.condition? (kind : StatementKind) (role : Condition.Role) (edit : Edit) :
    Option Condition.Edit :=
  match kind, role, edit with
  | .select, .rows, select (.filter change) => some change
  | .select, .groups, select (.grouping (.having change)) => some change
  | .update, .rows, update (.filter change) => some change
  | .delete, .rows, delete (.filter change) => some change
  | _, _, _ => none

/-- The condition in a role, as it is seen of statements of a kind. -/
def conditions (kind : StatementKind) (role : Condition.Role) :
    Facet Statement Action (Condition role) Condition.Edit :=
  facet (condition? role) (Edit.condition? kind role)

/-- A place for a condition is empty in a new statement. -/
theorem condition?_of_blank {role : Condition.Role} {s : Statement} (blank : s ∈ blanks)
    (place : (s.condition? role).isSome) : s.condition? role = some {} := by
  simp only [blanks, List.mem_cons, List.not_mem_nil, or_false] at blank
  rcases blank with rfl | rfl | rfl | rfl <;> cases role <;> first | rfl | cases place

theorem condition?_forget (role : Condition.Role) (s : Statement) :
    s.forget.condition? role = s.condition? role := by
  unfold condition?
  rw [clause?_forget, Option.bind_map]
  exact congrArg _ (funext (Clause.condition?_forget role))

/-- The condition in a statement undergoes the changes meant for it, whichever clause it lies in. -/
theorem obeys_conditions (kind : StatementKind) (role : Condition.Role) :
    (conditions kind role).Obeys Condition.apply fun s => s.Coherent ∧ s.kind = kind := by
  refine obeys_facet (condition?_forget role) fun s edit a own held => ?_
  subst own
  cases s with
  | select s =>
    cases role <;> obtain rfl := Option.some.inj held
    case rows =>
      cases edit with
      | select change =>
        cases change with
        | filter change => exact .cached Condition.apply s.content.filter change
        | projection | source | grouping | sorting => exact .other
      | insert | update | delete => exact .other
    case groups =>
      cases edit with
      | select change =>
        cases change with
        | grouping change =>
          cases change with
          | having change => exact Grouping.undergoes_having s.content.grouping change
          | keys => exact .other
        | projection | source | filter | sorting => exact .other
      | insert | update | delete => exact .other
  | update s =>
    cases role with
    | rows =>
      obtain rfl := Option.some.inj held
      cases edit with
      | update change =>
        cases change with
        | filter change => exact .cached Condition.apply s.content.filter change
        | assignments | source => exact .other
      | insert | select | delete => exact .other
    | groups => cases held
  | delete s =>
    cases role with
    | rows =>
      obtain rfl := Option.some.inj held
      cases edit with
      | delete change =>
        cases change with
        | filter change => exact .cached Condition.apply s.content.filter change
        | source => exact .other
      | insert | select | update => exact .other
    | groups => cases held
  | insert | verbatim => cases role <;> cases held

end Statement

/-! ### What the conditions of a run are -/

namespace Condition

variable {σ A : Type} {role : Role} {f : Facet σ A (Condition role) Edit}

/-- How conditions fold that are changed from a state on where there is none. -/
structure Folds (f : Facet σ A (Condition role) Edit) (start : σ) : Prop where
  /-- What is held is the chain of the changes, whatever else is done before and between them. -/
  folded (actions : List A) : f.see? (f.run start actions) =
    some ⟨(Chain.ofChanges? (f.changes actions)).map Chain.toExpr⟩
  /-- No change is refused. -/
  accepted (actions : List A) {action : A} {change : Edit} : f.change? action = some change →
    f.reply? (f.run start actions) action = some (.ok .done)
  /-- Joining conditions one after the other to none with AND is asking for all of them. -/
  all (actions more : List A) (es : List Expr) : f.see? (f.run start actions) = some {} →
    f.changes more = es.map .and → ∃ e?, Expr.allOf es = .ok e? ∧
      f.see? (f.run start (actions ++ more)) = some ⟨e?⟩
  /-- Joining conditions one after the other to none with OR is asking for any of them. -/
  any (actions more : List A) (es : List Expr) : f.see? (f.run start actions) = some {} →
    f.changes more = es.map .or → ∃ e?, Expr.anyOf es = .ok e? ∧
      f.see? (f.run start (actions ++ more)) = some ⟨e?⟩

/-- Conditions that are joined with one connective are not set or cleared in between. -/
theorem ofChanges?_map {join : Expr → Edit} (word : String)
    (joins : ∀ e, (join e).resets = false ∧ (join e).link? = some (word, e)) (es : List Expr) :
    Chain.ofChanges? (es.map join) = Chain.ofLinks? (es.map (word, ·)) := by
  have whole : sinceReset Edit.resets (es.map join) = es.map join :=
    sinceReset_eq_self (List.forall_mem_map.mpr fun e _ => (joins e).1)
  have links : (es.map join).filterMap Edit.link? = es.map (word, ·) := by
    rw [List.filterMap_map, ← List.filterMap_eq_map]
    exact List.filterMap_congr fun e _ => (joins e).2
  rw [Chain.ofChanges?, whole, links]

/-- Conditions that undergo their changes fold. -/
theorem folds_of_obeys {sound : σ → Prop} {start : σ} (obeys : f.Obeys apply sound)
    (right : sound start) (blank : f.see? start = some {}) : Folds f start where
  folded actions := by rw [obeys.see?_run right blank, foldl_eq_chain]
  accepted actions _ change own := by
    have seen := obeys.see?_run right blank actions
    rw [obeys.answered (obeys.sound_run right actions) seen own]
    obtain ⟨next, applied⟩ := apply_eq_ok change _
    rw [applied]
    rfl
  all actions more es none joined := by
    have seen := obeys.see?_run (obeys.sound_run right actions) none more
    rw [joined, foldl_eq_chain, ofChanges?_map "AND" fun _ => ⟨rfl, rfl⟩] at seen
    rw [f.run_append]
    exact ⟨_, Chain.foldWith_eq "AND" es, seen⟩
  any actions more es none joined := by
    have seen := obeys.see?_run (obeys.sound_run right actions) none more
    rw [joined, foldl_eq_chain, ofChanges?_map "OR" fun _ => ⟨rfl, rfl⟩] at seen
    rw [f.run_append]
    exact ⟨_, Chain.foldWith_eq "OR" es, seen⟩

/-- Conditions fold from the left. Wherever a clause or a statement has a place for a condition on
rows or on groups, and whatever else is done with it, the condition there is the chain of those
given since it was last set or cleared, and none of them is refused. Joining conditions one by one
to none makes what folding them at once does. A chain of one condition is the condition itself, any
other is written with parentheses on both sides of every connective, and a chain has the parameters
of its conditions, each where it occurs first. -/
theorem folds_from_left (role : Role) :
    (∀ start ∈ Clause.blankConditions role, Folds (Clause.conditions start.kind role) start) ∧
      (∀ start ∈ Statement.blanks, (start.condition? role).isSome →
        Folds (Statement.conditions start.kind role) start) ∧
      ∀ chain : Chain, (chain.others = [] → chain.toExpr = chain.first) ∧
        chain.toExpr.text = chain.text ∧
        chain.toExpr.params.toList =
          firstOccurrences (chain.parts.flatMap fun e => e.params.toList) := by
  refine ⟨fun start blank => ?_, fun start blank place => ?_,
    fun chain => ⟨fun alone => ?_, ?_, ?_⟩⟩
  · have none : start.condition? role = some {} := by
      cases role <;> simp only [Clause.blankConditions, List.mem_cons, List.not_mem_nil,
        or_false] at blank
      · obtain rfl := blank
        rfl
      · rcases blank with rfl | rfl <;> rfl
    exact folds_of_obeys (Clause.obeys_conditions start.kind role) rfl none
  · exact folds_of_obeys (Statement.obeys_conditions start.kind role)
      ⟨Statement.coherent_of_blank blank, rfl⟩ (Statement.condition?_of_blank blank place)
  · rw [Chain.toExpr, alone]
  · exact chain.text_toExpr
  · rw [chain.params_toExpr, ParamList.toList_unions, List.flatMap_map]

/-- A query is read between the changes of its condition on groups, and a condition on rows is set
besides. Two of the conditions share a parameter. -/
theorem folds_from_left_groups :
    let f := Statement.conditions .select .groups
    let start : Statement := .select { content := {} }
    let having (change : Edit) : Statement.Action := .change (.select (.grouping (.having change)))
    let a : Expr := { text := "a = ?", params := .ofList [.placeholder 0] }
    let b : Expr := { text := "b" }
    let c : Expr := { text := "c = ?", params := .ofList [.placeholder 1, .placeholder 0] }
    let past := [having (.or b), .change (.select (.filter (.set c))), having .clear]
    let joined := [having (.and a), .readClause .groupFilter, having (.and b), having (.and c)]
    f.see? (f.run start past) = some {} ∧
      (∃ e?, Expr.allOf [a, b, c] = .ok e? ∧
        f.see? (f.run start (past ++ joined)) = some ⟨e?⟩) ∧
      f.see? (f.run start (past ++ [having (.and a), having (.or b), having (.and c)])) =
        some ⟨some { text := "((a = ?) OR (b)) AND (c = ?)"
                     params := .ofList [.placeholder 0, .placeholder 1] }⟩ := by
  intro f start having a b c past joined
  have folds : Folds f start := (folds_from_left .groups).2.1 start (by decide) rfl
  have none : f.see? (f.run start past) = some {} := folds.folded past
  refine ⟨none, folds.all past joined [a, b, c] none rfl, ?_⟩
  rw [folds.folded]
  decide

end Condition

end SqlBuilder
