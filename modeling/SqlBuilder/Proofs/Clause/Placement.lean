import SqlBuilder.Proofs.Clause.Fields
import SqlBuilder.Proofs.Operator.Operands

/-! # Where the parameters of fields and values are written

One walk over the fields collects the parameters of each field and its value, and that is how UPDATE
writes them. INSERT writes all fields before all values. So the parameters of an INSERT come in the
order of its text exactly when those of the target and of the fields come before all others, as they
do when fields have no parameters.
-/

namespace SqlBuilder

namespace Assignments

variable {layout : Layout}

/-- A field as INSERT and UPDATE write it: under its bare name. -/
def written (field : Expr) : Expr := { text := field.fieldName, params := field.params }

/-- The target, the fields and the values in the order they are written. -/
def Layout.laidOut (target : Expr) (fields : List (Expr × Expr)) : Layout → List Expr
  | insert => target :: fields.map (fun entry => written entry.1) ++ fields.map Prod.snd
  | update => target :: fields.flatMap fun entry => [written entry.1, entry.2]

/-- The pieces that a target with fields is written in. -/
def Layout.segments (target : Expr) (fields : List (Expr × Expr)) : Layout → List Segment
  | insert =>
    .operand target :: .mark " (" ::
      Segment.separated (fields.map fun entry => [.operand (written entry.1)]) ++
      .mark ") VALUES (" :: Segment.separated (fields.map fun entry => [.operand entry.2]) ++
      [.mark ")"]
  | update =>
    .operand target :: .mark " SET " :: Segment.separated (fields.map fun entry =>
      [.operand (written entry.1), .mark " = (", .operand entry.2, .mark ")"])

/-- The pieces make up the text of the clause. -/
theorem written_segments (layout : Layout) (target : Expr) (fields : List (Expr × Expr)) :
    Segment.written (layout.segments target fields) =
      layout.write target.text (fields.map fun entry => entry.1.fieldName)
        (fields.map fun entry => entry.2.text) := by
  cases layout <;>
    simp [Layout.segments, Layout.write, Segment.text, written, String.append_assoc,
      Function.comp_def, List.zipWith_map, List.zipWith_self]

/-- The target, the fields and the values stand among the pieces in the order they are laid out. -/
theorem operands_segments (layout : Layout) (target : Expr) (fields : List (Expr × Expr)) :
    Segment.operands (layout.segments target fields) = layout.laidOut target fields := by
  cases layout <;>
    simp [Layout.segments, Layout.laidOut, Segment.operands, List.flatMap_map,
      ← List.map_eq_flatMap]

/-- The parameters of some expressions in a row, with every repeated one. -/
def paramsOf (es : List Expr) : List Param := es.flatMap fun e => e.params.toList

/-- The parameters are those of the target, the fields and the values in the order of UPDATE. -/
theorem toList_params {a : Assignments layout} {target : Expr} (held : a.target? = some target) :
    a.params.toList = firstOccurrences (paramsOf (Layout.update.laidOut target a.fields)) := by
  rw [params, held, ParamList.toList_unions]
  simp [paramsOf, Layout.laidOut, written, List.flatMap_assoc]

end Assignments

/-- A sequence that adds to some parameters what another one adds to them, perhaps mixed with them,
has the same first occurrences as both in a row exactly when those parameters come first. -/
theorem firstOccurrences_eq_append_iff {ps qs rs : List Param}
    (adds : rs.filter (fun p => !(ParamList.ofList ps).contains p) =
      qs.filter fun p => !(ParamList.ofList ps).contains p) :
    firstOccurrences rs = firstOccurrences (ps ++ qs) ↔
      firstOccurrences ps <+: firstOccurrences rs := by
  let new (p : Param) : Bool := !(ParamList.ofList ps).contains p
  have blind (p q : Param) (same : p.id = q.id) : new p = new q := by
    simp [new, ParamList.contains, same]
  have added : (firstOccurrences rs).filter new = (firstOccurrences qs).filter new := by
    rw [ParamList.filter_firstOccurrences blind, adds, ParamList.filter_firstOccurrences blind]
  rw [ParamList.firstOccurrences_append]
  constructor
  · intro same
    rw [same]
    exact List.prefix_append _ _
  · rintro ⟨rest, split⟩
    have none : (firstOccurrences ps).filter new = [] := by
      refine List.filter_eq_nil_iff.mpr fun p member => ?_
      have held : (ParamList.ofList ps).contains p = true := by
        rw [ParamList.contains_eq_true_iff, ParamList.toList_ofList]
        exact List.mem_map_of_mem member
      simp [new, held]
    have fresh : rest.filter new = rest := by
      refine List.filter_eq_self.mpr fun p member => ?_
      -- Nothing is repeated, so what comes behind the parameters is none of them.
      have distinct := (ParamList.ofList rs).nodup
      rw [ParamList.toList_ofList, ← split, List.map_append, List.nodup_append] at distinct
      have absent : ¬(ParamList.ofList ps).contains p = true := by
        rw [ParamList.contains_eq_true_iff, ParamList.toList_ofList]
        exact fun held => distinct.2.2 _ held _ (List.mem_map_of_mem member) rfl
      simpa [new] using absent
    rw [← split, ← added, ← split, List.filter_append, none, fresh, List.nil_append]

namespace Assignments

variable {layout : Layout}

/-- Without the parameters of the target and of the fields those of the values are left, in their
order. -/
theorem filter_laidOut {new : Param → Bool} {target : Expr} {fields : List (Expr × Expr)}
    (old : ∀ p ∈ paramsOf (target :: fields.map Prod.fst), new p = false) :
    (paramsOf (Layout.update.laidOut target fields)).filter new =
      (paramsOf (fields.map Prod.snd)).filter new := by
  have none (e : Expr) (member : e ∈ target :: fields.map Prod.fst) :
      e.params.toList.filter new = [] :=
    List.filter_eq_nil_iff.mpr fun p held => by
      simp [old p (List.mem_flatMap.mpr ⟨e, member, held⟩)]
  have values :
      (fields.flatMap fun entry => (entry.1.params.toList ++ entry.2.params.toList)).filter new =
        (fields.flatMap fun entry => entry.2.params.toList).filter new := by
    rw [List.filter_flatMap, List.filter_flatMap]
    refine List.flatMap_congr fun entry member => ?_
    have isField : entry.1 ∈ target :: fields.map Prod.fst :=
      List.mem_cons_of_mem _ (List.mem_map_of_mem member)
    rw [List.filter_append, none entry.1 isField, List.nil_append]
  simpa [paramsOf, Layout.laidOut, written, List.flatMap_assoc, List.flatMap_map,
    none target (List.mem_cons_self ..)] using values

/-- The parameters come in the order of the text for UPDATE, and for INSERT exactly when those of
the target and of the fields come first. -/
theorem toList_params_eq_iff {a : Assignments layout} {target : Expr}
    (held : a.target? = some target) :
    a.params.toList = firstOccurrences (paramsOf (layout.laidOut target a.fields)) ↔
      layout = .update ∨
        firstOccurrences (paramsOf (target :: a.fields.map Prod.fst)) <+: a.params.toList := by
  rw [toList_params held]
  cases layout with
  | update => simp
  | insert =>
    have behind : paramsOf (Layout.insert.laidOut target a.fields) =
        paramsOf (target :: a.fields.map Prod.fst) ++ paramsOf (a.fields.map Prod.snd) := by
      simp [paramsOf, Layout.laidOut, written, List.flatMap_map]
    have old (p : Param) (member : p ∈ paramsOf (target :: a.fields.map Prod.fst)) :
        (!(ParamList.ofList (paramsOf (target :: a.fields.map Prod.fst))).contains p) = false := by
      rw [ParamList.contains_ofList, Bool.not_eq_false', List.any_eq_true]
      exact ⟨p, member, beq_self_eq_true p.id⟩
    rw [behind, firstOccurrences_eq_append_iff (filter_laidOut old)]
    simp

/-- Fields whose parameters the target has too add none. -/
theorem prefix_of_fields_add_none {a : Assignments layout} {target : Expr}
    (held : a.target? = some target)
    (none : ∀ entry ∈ a.fields, ∀ p ∈ entry.1.params.toList, target.params.contains p = true) :
    firstOccurrences (paramsOf (target :: a.fields.map Prod.fst)) <+: a.params.toList := by
  have blind (p q : Param) (same : p.id = q.id) :
      (!target.params.contains p) = !target.params.contains q := by
    simp [ParamList.contains, same]
  have dropped : (paramsOf (a.fields.map Prod.fst)).filter (fun p => !target.params.contains p) =
      [] := by
    refine List.filter_eq_nil_iff.mpr fun p member => ?_
    obtain ⟨e, isField, member⟩ := List.mem_flatMap.mp member
    obtain ⟨entry, assigned, rfl⟩ := List.mem_map.mp isField
    simp [none entry assigned p member]
  have front (ps : List Param) : firstOccurrences (target.params.toList ++ ps) =
      firstOccurrences target.params.toList ++
        firstOccurrences (ps.filter fun p => !target.params.contains p) := by
    rw [ParamList.firstOccurrences_append, ParamList.ofList_toList,
      ParamList.filter_firstOccurrences blind]
  have own : firstOccurrences (paramsOf (target :: a.fields.map Prod.fst)) =
      firstOccurrences target.params.toList := by
    rw [paramsOf, List.flatMap_cons, front, ← paramsOf, dropped, firstOccurrences, List.append_nil]
  rw [own, toList_params held, paramsOf, Layout.laidOut, List.flatMap_cons, front]
  exact List.prefix_append _ _

/-- The parameters of a target with fields and their values are those of the target, of each field
and of its value, field by field, each where it occurs first. UPDATE lays them out in this order.
INSERT lays out the target, all fields and all values, and the parameters come in the order of its
text exactly when those of the target and of the fields come before all others; they do when the
fields have none or only such as the target has. -/
theorem params_in_text_order_iff (layout : Layout) (actions : List Clause.Action) :
    ∃ c : Cached (Assignments layout),
      (Clause.assignments layout { content := {} }).run actions = .assignments layout c ∧
      ∀ target, c.content.target? = some target → c.content.fields ≠ [] →
        let fields := c.content.fields
        let segments := layout.segments target fields
        let params := (Clause.assignments layout c).params.toList
        (Clause.assignments layout c).text = .ok (Segment.written segments) ∧
        Segment.operands segments = layout.laidOut target fields ∧
        params = firstOccurrences (paramsOf (Layout.update.laidOut target fields)) ∧
        (params = firstOccurrences (paramsOf (Segment.operands segments)) ↔
          layout = .update ∨
            firstOccurrences (paramsOf (target :: fields.map Prod.fst)) <+: params) ∧
        ((∀ entry ∈ fields, ∀ p ∈ entry.1.params.toList, target.params.contains p = true) →
          params = firstOccurrences (paramsOf (Segment.operands segments))) := by
  obtain ⟨c, reached, -, -, text⟩ := exists_run layout actions
  refine ⟨c, reached, fun target held some => ?_⟩
  dsimp only
  rw [operands_segments, written_segments]
  refine ⟨text.trans (render_eq held some), rfl, toList_params held, toList_params_eq_iff held,
    fun none => ?_⟩
  exact (toList_params_eq_iff held).mpr (.inr (prefix_of_fields_add_none held none))

/-- The values of an INSERT into plain columns are bound in the order of the text. -/
theorem params_in_text_order_iff_columns :
    let column (name : String) : Expr := { text := "t." ++ name, column? := some name }
    let value (id : Nat) : Expr := { text := "?", params := .ofList [.placeholder id] }
    let change (edit : Edit) : Clause.Action := .change (.assignments edit)
    let actions := [change (.assign (column "b") (value 1)), change (.setTarget { text := "t" }),
      change (.assign (column "a") (value 0)), .read, change (.assign (column "c") (value 1))]
    ∃ c : Cached (Assignments .insert),
      (Clause.assignments .insert { content := {} }).run actions = .assignments .insert c ∧
      (Clause.assignments .insert c).text = .ok "t (b, a, c) VALUES (?, ?, ?)" ∧
      (Clause.assignments .insert c).params.toList = [.placeholder 1, .placeholder 0] := by
  intro column value change actions
  obtain ⟨c, reached, follows⟩ := params_in_text_order_iff .insert actions
  have content : c.content = ⟨some { text := "t" }, [(column "b", value 1),
      (column "a", value 0), (column "c", value 1)]⟩ := by
    cases reached
    rfl
  obtain ⟨text, -, -, -, inOrder⟩ := follows { text := "t" } (by rw [content]) (by simp [content])
  refine ⟨c, reached, ?_, ?_⟩
  · rw [text, content]
    rfl
  · rw [inOrder (by rw [content]; simp [column]), content]
    rfl

/-- An INSERT binds the value of its first field before the subscript of its second one, which is
written before all values. -/
theorem not_forall_params_in_text_order :
    ¬ ∀ (layout : Layout) (actions : List Clause.Action) (c : Cached (Assignments layout)),
      (Clause.assignments layout { content := {} }).run actions = .assignments layout c →
      ∀ target, c.content.target? = some target → c.content.fields ≠ [] →
        (Clause.assignments layout c).params.toList =
          firstOccurrences (paramsOf (layout.laidOut target c.content.fields)) := by
  intro all
  let value : Expr := { text := "?", params := .ofList [.placeholder 0] }
  let subscript : Expr := { text := "arr[?]", params := .ofList [.placeholder 1] }
  let change (edit : Edit) : Clause.Action := .change (.assignments edit)
  have order := all .insert [change (.setTarget { text := "t" }),
    change (.assign { text := "a" } value), change (.assign subscript { text := "1" })] _ rfl
    { text := "t" } rfl (by decide)
  revert order
  decide

end Assignments

end SqlBuilder
