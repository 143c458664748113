import SqlBuilder.Proofs.Param.Assembly

/-! # The order of parameters

Bind parameters are passed by position, so the parameters of an expression must come in the order
in which its text mentions them. The texts of expressions and their parameters are put together by
separate code at every operator, call, alias, join and statement; `Built` follows all of these at
once and marks in the text where the parameters stand.
-/

namespace SqlBuilder.MarkedExpr

/-- The expressions that can be built, each with its marked text. A subquery may refer to its keys
in full only, and sort by no text twice. -/
inductive Built : MarkedExpr → Prop
  | param (p : Param) : Built (.param p)
  | leaf (e : Expr) (bare : e.params = ∅) : Built (.leaf e)
  | apply (op : Operator) (operands : List MarkedExpr) {e : Expr}
      (built : ∀ x ∈ operands, Built x) (ok : op.compute (operands.map expr) = .ok e) :
      Built ⟨e, op.layOut (operands.map mark)⟩
  | call {name : NameSpec} {args : List MarkedExpr} {c : Call} (built : ∀ x ∈ args, Built x)
      (ok : Call.ofArgs name (args.map expr) = .ok c) :
      Built ⟨Cached.callExpr { content := c }, c.name.markedCall (args.map mark)⟩
  | aliased {target : MarkedExpr} {name : String} {ident : Ident} {e : Expr} (built : Built target)
      (read : Ident.parse name = .ok ident) (ok : target.expr.aliased name = .ok e) :
      Built ⟨e, ident.markedAlias target.mark⟩
  | allOf {conditions : List MarkedExpr} {e : Expr} (built : ∀ x ∈ conditions, Built x)
      (ok : Expr.allOf (conditions.map expr) = .ok (some e)) :
      Built ⟨e, Operator.conjunction.markedFold (conditions.map mark)⟩
  | anyOf {conditions : List MarkedExpr} {e : Expr} (built : ∀ x ∈ conditions, Built x)
      (ok : Expr.anyOf (conditions.map expr) = .ok (some e)) :
      Built ⟨e, Operator.disjunction.markedFold (conditions.map mark)⟩
  | subquery (steps : List QueryStep) {e : Expr} (built : ∀ step ∈ steps, ∀ x ∈ step.parts, Built x)
      (full : ∀ step ∈ steps, ∀ x ∈ step.referred?, x.expr.RefersInFull)
      (distinct : (steps.filterMap QueryStep.sortText?).Nodup)
      (ok : (Query.subquery (QueryStep.runAll { content := {} } steps)).answer = .ok e) :
      Built ⟨e, (MarkedQuery.steps {} steps).mark⟩

/-- However an expression is built, it agrees with its marked text. -/
theorem Built.agrees {x : MarkedExpr} (built : Built x) : x.Agrees := by
  induction built with
  | param p => exact agrees_param p
  | leaf e bare => exact agrees_leaf bare
  | apply op operands _ ok ih => exact Operator.agrees_compute ih ok
  | call _ ok ih => exact agrees_call ih ok
  | aliased _ read ok ih => exact agrees_aliased ih read ok
  | allOf _ ok ih => exact agrees_fold ih ok
  | anyOf _ ok ih => exact agrees_fold ih ok
  | subquery steps _ full distinct ok ih =>
    have start : StatementBody.Coherent { content := ({} : Query) } :=
      ⟨Cached.coherent_fresh _ _, (Statement.coherent_forget (.select { content := {} })).inner⟩
    obtain ⟨follows, coherent⟩ := Query.Follows.runAll (m := {}) Query.follows_start start
      (fun step member => ⟨ih step member, full step member⟩) distinct
    exact follows.agrees_subquery coherent ok

/-- The alias of something that can be built. -/
def IsAlias (x : MarkedExpr) : Prop :=
  ∃ (target : MarkedExpr) (ident : Ident), Built target ∧ x.mark = ident.markedAlias target.mark

/-- What expressions are joined to is the only one of them or the result of an operator. -/
theorem reference_joins {op : Operator} {start e : Expr} {rest : List Expr}
    (joined : Expr.Joins op start rest e) :
    e.reference = e.text ∨ (rest = [] ∧ start = e) := by
  induction joined with
  | last e => exact .inr ⟨rfl, rfl⟩
  | next computed _ ih =>
    rcases ih with refers | ⟨-, rfl⟩
    · exact .inl refers
    · exact .inl (Operator.compute_eq_ok computed).2.2.2

theorem reference_fold {op : Operator} {xs : List MarkedExpr} {e : Expr}
    (ok : Expr.foldWith op (xs.map expr) = .ok (some e)) :
    e.reference = e.text ∨ ∃ x ∈ xs, x = ⟨e, op.markedFold (xs.map mark)⟩ := by
  obtain ⟨first, rest, same, joined⟩ := Expr.joins_of_foldWith ok
  obtain ⟨x, others, rfl, rfl, rfl⟩ := List.map_eq_cons_iff.mp same
  rcases reference_joins joined with refers | ⟨alone, rfl⟩
  · exact .inl refers
  · obtain rfl := List.map_eq_nil_iff.mp alone
    exact .inr ⟨x, List.mem_cons_self .., rfl⟩

/-- Whatever is built is referred to in full, unless it is an alias. -/
theorem Built.refersInFull_or_alias {x : MarkedExpr} (built : Built x) :
    x.expr.RefersInFull ∨ x.IsAlias := by
  induction built with
  | param p => exact .inl (.inl rfl)
  | leaf e bare => exact .inl (.inr bare)
  | apply op operands _ ok _ => exact .inl (.inl (Operator.compute_eq_ok ok).2.2.2)
  | call _ ok _ => exact .inl (.inl rfl)
  | @aliased target name ident e built _ _ _ => exact .inr ⟨target, ident, built, rfl⟩
  | allOf _ ok ih | anyOf _ ok ih =>
    rcases reference_fold ok with refers | ⟨x, member, rfl⟩
    · exact .inl (.inl refers)
    · exact ih _ member
  | subquery steps _ _ _ ok _ =>
    obtain ⟨text, _, rfl⟩ := Query.subquery_eq_ok ok
    exact .inl (.inl rfl)

/-- The parameters of an expression are those its text mentions, in the order from the left to the
right, with every repeated one dropped after its first occurrence. -/
theorem Built.params_in_order {x : MarkedExpr} (built : Built x) :
    x.expr.text = x.mark.text ∧ x.expr.params.toList = firstOccurrences x.mark.handles := by
  refine ⟨built.agrees.text, ?_⟩
  rw [built.agrees.params, ParamList.toList_ofList]

/-- A parameter compared with a subquery that mentions it too. The subquery lists one column twice,
and its condition on groups stays unwritten because there is no group. -/
theorem params_in_order_subquery :
    let handle (id : Nat) : MarkedExpr := .param (.placeholder id)
    let leaf (s : String) : MarkedExpr := .leaf { text := s }
    let column : MarkedExpr :=
      ⟨{ text := "(?) + (b)", params := .ofList [.placeholder 2] },
        Operator.plus.layOut [(handle 2).mark, (leaf "b").mark]⟩
    let steps : List QueryStep :=
      [ .having .set (handle 5), .column column, .column column, .source (leaf "t"),
        .join .left (some (leaf "u")) (some (handle 1)), .sort (handle 0) .descending ]
    let x : MarkedExpr :=
      ⟨{ text := "(?) = ((SELECT (?) + (b) FROM t LEFT JOIN u ON ? ORDER BY (?) DESC))"
         params := .ofList [.placeholder 1, .placeholder 2, .placeholder 0] },
        Operator.equal.layOut [(handle 1).mark, (MarkedQuery.steps {} steps).mark]⟩
    Built x ∧ x.expr.text = x.mark.text ∧
      x.expr.params.toList = firstOccurrences x.mark.handles := by
  intro handle leaf column steps x
  have handles (id : Nat) : Built (handle id) := .param _
  have leaves (s : String) : Built (leaf s) := .leaf _ rfl
  have column_built : Built column :=
    .apply .plus [handle 2, leaf "b"] (by simp [handles, leaves]) rfl
  let query : MarkedExpr :=
    ⟨{ text := "(SELECT (?) + (b) FROM t LEFT JOIN u ON ? ORDER BY (?) DESC)"
       params := .ofList [.placeholder 2, .placeholder 1, .placeholder 0] },
      (MarkedQuery.steps {} steps).mark⟩
  have query_built : Built query :=
    .subquery steps (by simp [steps, QueryStep.parts, handles, leaves, column_built])
      (by simp [steps, QueryStep.referred?, Expr.RefersInFull, Expr.reference]; exact .inl rfl)
      (by simp [steps, List.filterMap, QueryStep.sortText?]) rfl
  have built : Built x :=
    .apply .equal [handle 1, query] (by simp [handles, query_built]) rfl
  exact ⟨built, built.params_in_order⟩

end SqlBuilder.MarkedExpr
