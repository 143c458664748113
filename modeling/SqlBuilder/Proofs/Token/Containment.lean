import SqlBuilder.Expr.Alias
import SqlBuilder.Proofs.Catalog.Naming
import SqlBuilder.Proofs.Ident.RoundTrip
import SqlBuilder.Proofs.Token.Template

/-! # Strings in their place

A string that is written into an expression is read as one token, whatever characters it is made
of, and the tokens around it are the same for every string. This holds at any depth of operators,
calls and aliases, next to other strings and quoted names: what is built over validated names,
integers, strings and numbered parameters never lets two quotes meet.
-/

namespace SqlBuilder

/-! ### Names and numbers -/

namespace Ident

theorem closed_part (part : Part) : Lexeme.Closed part.render := by
  cases part with
  | bare name =>
    exact Lexeme.closed_of_unmarked fun c held => Quote.ofMark?_of_continues (name.continues c held)
  | quoted name => exact Lexeme.closed_enclose .double name.text

/-- The quotes of an identifier are closed. -/
theorem closed_render (ident : Ident) : Lexeme.Closed ident.render := by
  obtain ⟨head, tail⟩ := ident
  simp only [render, parts]
  induction tail generalizing head with
  | nil => simpa using closed_part head
  | cons next tail ih =>
    rw [List.map_cons, List.map_cons, String.intercalate_cons_cons]
    exact (closed_part head).append_dot (ih next)

end Ident

theorem Decimal.unmarked_ofInt (n : Int) : Lexeme.Unmarked (Decimal.ofInt n).render := by
  intro c held
  have shape : c = '-' ∨ IsDigit c := by
    simp only [Decimal.render, Decimal.ofInt, Decimal.stripZeros, Decimal.digits, ↓reduceIte,
      String.toList_append, List.mem_append, String.toList_ofList] at held
    rcases held with sign | digit
    · split at sign <;> simp_all
    · rcases List.mem_append.mp (List.mem_of_mem_take digit) with zero | digit
      · exact .inr (List.eq_of_mem_replicate zero ▸ isDigit_iff.mp rfl)
      · exact .inr (isDigit_iff.mp (Nat.isDigit_of_mem_toDigits (by decide) (by decide) digit))
  rcases shape with rfl | digit
  · rfl
  · exact Quote.ofMark?_of_continues (continuesBareName_iff.mpr (.inr (.inr (.inr digit))))

def NameSpec.written : NameSpec → String
  | text s => s
  | ident i => i.render

/-- A name is written as the caller gave it. -/
theorem NameSpec.render_of_resolve {name : NameSpec} {ident : Ident}
    (resolved : name.resolve = .ok ident) : ident.render = name.written := by
  cases name with
  | text s => exact Ident.render_of_parse resolved
  | ident i =>
    obtain rfl := Except.ok.inj resolved
    rfl

/-! ### Contexts -/

/-- An expression with gaps that are filled with one string. -/
inductive Context
  | gap
  | leaf (e : Expr)
  | apply (op : Operator) (operands : List Context)
  | call (name : NameSpec) (args : List Context)
  | aliased (target : Context) (name : String)

namespace Context

mutual

/-- The expression with a string literal in the gaps. -/
def fill (s : String) : Context → Except Error Expr
  | gap => .ok (.literal (.quoted s))
  | leaf e => .ok e
  | apply op operands => do op.compute (← fillAll s operands)
  | call name args => do
    let call ← Call.ofArgs name (← fillAll s args)
    return Cached.callExpr { content := call }
  | aliased target name => do (← fill s target).aliased name

def fillAll (s : String) : List Context → Except Error (List Expr)
  | [] => .ok []
  | c :: cs => do return (← fill s c) :: (← fillAll s cs)

end

mutual

/-- The number of gaps. -/
def gaps : Context → Nat
  | gap => 1
  | leaf _ => 0
  | apply _ operands => gapsAll operands
  | call _ args => gapsAll args
  | aliased target _ => gaps target

def gapsAll : List Context → Nat
  | [] => 0
  | c :: cs => gaps c + gapsAll cs

end

mutual

/-- The template of the text. -/
def template : Context → Template
  | gap => [.gap]
  | leaf e => .ofText e.text
  | apply op operands => op.layOut (templates operands)
  | call name args => .ofText name.written ++ Written.group (Written.list (templates args))
  | aliased target name => template target ++ .ofText " AS " ++ .ofText name

def templates : List Context → List Template
  | [] => []
  | c :: cs => template c :: templates cs

end

/-- The expressions that contexts are built over: tables and columns, integers, strings, and
parameters that are numbered. -/
inductive Leaf : Expr → Prop
  | object {catalog : Catalog} {id : ObjectId} {object : Located} (reached : catalog.Reached)
      (held : catalog.locate? id = some object)
      (kind : object.object.kind = .table ∨ object.object.kind = .column) : Leaf object.toExpr
  | int (n : Int) : Leaf (.literal (.int n))
  | string (s : String) : Leaf (.literal (.quoted s))
  | param {p : Param} {digits : List Char} (named : p.name.toList = '$' :: digits)
      (numeric : ∀ c ∈ digits, IsDigit c) : Leaf (.param p)

/-- Built-in operators with as many operands as they accept, calls and aliases with valid names,
over gaps and leaves. -/
inductive Formed : Context → Prop
  | gap : Formed gap
  | leaf {e : Expr} (plain : Leaf e) : Formed (leaf e)
  | apply {op : Operator} {operands : List Context} (builtin : op ∈ Operator.builtins)
      (accepted : op.arity.accepts operands.length = true) (each : ∀ c ∈ operands, Formed c) :
      Formed (apply op operands)
  | call {name : NameSpec} {ident : Ident} {args : List Context}
      (resolved : name.resolve = .ok ident) (each : ∀ c ∈ args, Formed c) :
      Formed (call name args)
  | aliased {target : Context} {name : String} {ident : Ident}
      (read : Ident.parse name = .ok ident) (formed : Formed target) :
      Formed (aliased target name)

theorem templates_eq_map (cs : List Context) : templates cs = cs.map template := by
  induction cs with
  | nil => rfl
  | cons c cs ih => rw [templates, ih, List.map_cons]

variable {c : Context} {e : Expr}

theorem Leaf.closed (plain : Leaf e) : Lexeme.Closed e.text := by
  cases plain with
  | @object catalog id object reached held kind =>
    have able : object.object.kind.ownsObjects = true := by
      rcases kind with table | column
      · rw [table]
        rfl
      · rw [column]
        rfl
    obtain ⟨ident, named⟩ := reached.fullname_eq_render held able
    rw [Located.toExpr, named]
    exact ident.closed_render
  | int n => exact Lexeme.closed_of_unmarked (Decimal.unmarked_ofInt n)
  | string s => exact Lexeme.closed_enclose .single s
  | @param p digits named numeric =>
    refine Lexeme.closed_of_unmarked fun c held => Quote.ofMark?_of_continues ?_
    rw [Expr.param, named] at held
    rcases List.mem_cons.mp held with rfl | held
    · decide
    · exact continuesBareName_iff.mpr (.inr (.inr (.inr (numeric c held))))

/-! ### Filling the gaps -/

/-- The lexemes of a context can be told apart, whatever fills the gaps. -/
theorem Formed.apart (formed : Formed c) : c.template.Apart := by
  induction formed with
  | gap => exact Template.apart_gap
  | leaf plain => exact Template.apart_ofText plain.closed
  | @apply op operands builtin accepted each ih =>
    rw [template, templates_eq_map]
    refine Operator.apart_layOut builtin (by simpa using accepted) ?_
    intro t member
    obtain ⟨c, held, rfl⟩ := List.mem_map.mp member
    exact ih c held
  | @call name ident args resolved each ih =>
    rw [template, templates_eq_map]
    have values : Template.Apart (Written.list (args.map template)) := by
      refine Template.apart_list fun t member => ?_
      obtain ⟨c, held, rfl⟩ := List.mem_map.mp member
      exact ih c held
    have named := Template.apart_ofText (NameSpec.render_of_resolve resolved ▸ ident.closed_render)
    exact named.append_guarded (Template.guarded_group values)
  | @aliased target name ident read formed ih =>
    have named := Template.apart_ofText (Ident.render_of_parse read ▸ ident.closed_render)
    have between : (Template.ofText " AS ").Guarded :=
      Template.guarded_ofText (by decide) (by decide)
    exact between _ _ ih named

theorem gaps_templates {cs : List Context} (each : ∀ c ∈ cs, c.template.gaps = c.gaps) :
    Template.gaps (cs.map template).flatten = gapsAll cs := by
  induction cs with
  | nil => rfl
  | cons c cs ih =>
    rw [List.map_cons, List.flatten_cons, Template.gaps_append, each c (List.mem_cons_self ..),
      ih fun d member => each d (List.mem_cons_of_mem c member), gapsAll]

/-- The template has a gap for every gap of the expression. -/
theorem Formed.gaps_template (formed : Formed c) : c.template.gaps = c.gaps := by
  induction formed with
  | gap => rfl
  | leaf => simp [template, gaps]
  | @apply op operands builtin accepted each ih =>
    have applied : Operator.Applied op (operands.map template) :=
      Operator.applied_of_builtin builtin (by simpa using accepted)
    rw [template, templates_eq_map, gaps, Template.gaps_layOut applied, gaps_templates ih]
  | @call name ident args resolved each ih =>
    rw [template, templates_eq_map, gaps, ← gaps_templates ih]
    simp [Written.group]
  | aliased read formed ih => simp [template, gaps, ih]

theorem fillAll_templates {s : String} {cs : List Context}
    (each : ∀ c ∈ cs, ∃ e, c.fill s = .ok e ∧ e.text = c.template.text s) :
    ∃ es, fillAll s cs = .ok es ∧ es.map Expr.text = (cs.map template).map (Template.text s) := by
  induction cs with
  | nil => exact ⟨[], rfl, rfl⟩
  | cons c cs ih =>
    obtain ⟨e, filled, text⟩ := each c (List.mem_cons_self ..)
    obtain ⟨es, rest, texts⟩ := ih fun d member => each d (List.mem_cons_of_mem c member)
    refine ⟨e :: es, ?_, by simp only [List.map_cons, text, texts]⟩
    rw [fillAll, filled, rest]
    rfl

theorem items_pushAll (l : ExprList .allowed) (es : List Expr) :
    (l.pushAll es).2.items = l.items ++ es := by
  induction es generalizing l with
  | nil => simp [ExprList.pushAll]
  | cons e es ih => simp [ExprList.pushAll, ih, ExprList.push, ExprList.accepts]

theorem text_callExpr (ident : Ident) (es : List Expr) :
    (Cached.callExpr { content := ⟨ident, (ExprList.empty.pushAll es).2⟩ }).text =
      ident.render ++ "(" ++ ", ".intercalate (es.map Expr.text) ++ ")" := by
  have items : (ExprList.empty.pushAll es).2.items = es := items_pushAll ExprList.empty es
  simp only [Cached.callExpr, Cached.callText, Cached.text, Option.getD_none, Call.render,
    ExprList.texts, items]

/-- Filling the gaps succeeds, and writes the template. -/
theorem Formed.fill_template (formed : Formed c) (s : String) :
    ∃ e, c.fill s = .ok e ∧ e.text = c.template.text s := by
  have hom := Template.hom_text s
  induction formed with
  | gap =>
    refine ⟨_, rfl, ?_⟩
    rw [template, Template.text_gap]
    rfl
  | leaf => exact ⟨_, rfl, (Template.text_ofText s _).symm⟩
  | @apply op operands builtin accepted each ih =>
    obtain ⟨es, filled, texts⟩ := fillAll_templates ih
    have count : es.length = operands.length := by simpa using congrArg List.length texts
    obtain ⟨e, computed⟩ := Operator.compute_builtin builtin (count ▸ accepted)
    refine ⟨e, ?_, ?_⟩
    · rw [fill, filled]
      exact computed
    · rw [Operator.render_eq (Operator.compute_eq_ok computed).2.1, texts,
        ← Operator.layOut_map hom, template, templates_eq_map]
  | @call name ident args resolved each ih =>
    obtain ⟨es, filled, texts⟩ := fillAll_templates ih
    refine ⟨Cached.callExpr { content := ⟨ident, (ExprList.empty.pushAll es).2⟩ }, ?_, ?_⟩
    · simp only [fill, filled, Call.ofArgs, resolved, bind, Except.bind, pure, Except.pure]
    · rw [text_callExpr, texts, NameSpec.render_of_resolve resolved, template, templates_eq_map,
        Template.text_append, Template.text_ofText, hom.group, hom.list]
      simp [Written.group, Written.list, Operator.parens, String.append_assoc]
  | @aliased target name ident read formed ih =>
    obtain ⟨e, filled, text⟩ := ih
    refine ⟨Alias.toExpr ⟨e, some ident⟩, ?_, ?_⟩
    · simp [fill, filled, Expr.aliased, Alias.create, Alias.readName, read, bind, Except.bind]
    · simp [Alias.toExpr, Alias.text, Alias.name, text, template, Ident.render_of_parse read,
        String.append_assoc]

/-- A string in the gap of a context is read as one token with the string as its value. The texts
before and behind the gap, and the tokens they are read as, are the same for every string. -/
theorem literal_contained (formed : Formed c) (one : c.gaps = 1) :
    ∃ (before after : String) (left right : List Token),
      Token.read before = some left ∧ Token.read after = some right ∧
        ∀ s, ∃ e, c.fill s = .ok e ∧
          e.text = before ++ (Expr.literal (.quoted s)).text ++ after ∧
          Token.read e.text = some (left ++ .string s :: right) := by
  obtain ⟨before, after, parted⟩ :=
    Template.exists_of_gaps_eq_one (formed.gaps_template.trans one)
  have lexemes (s : String) :
      c.template.lexemes s = before ++ .quoted .single s.toList :: after := by
    simp [parted, Template.lexemes, Function.comp_def, Slot.fill]
  have apart (s : String) : Lexeme.Apart (before ++ .quoted .single s.toList :: after) :=
    lexemes s ▸ formed.apart s
  have sides := Lexeme.apart_of_append (apart "")
  refine ⟨String.ofList (before.flatMap Lexeme.written),
    String.ofList (after.flatMap Lexeme.written), _, _, Token.read_written sides.1,
    Token.read_written (Lexeme.apart_quoted_iff.mp sides.2).2, fun s => ?_⟩
  obtain ⟨e, filled, text⟩ := formed.fill_template s
  rw [Template.text, lexemes] at text
  refine ⟨e, filled, ?_, ?_⟩
  · have literal : (Expr.literal (.quoted s)).text =
        String.ofList (Lexeme.written (.quoted .single s.toList)) :=
      (Lexeme.ofList_written_quoted .single s).symm
    rw [text, literal, List.flatMap_append, List.flatMap_cons, String.ofList_append,
      String.ofList_append, String.append_assoc]
  · rw [text, Token.read_written (apart s), Token.ofLexemes_append, String.ofList_toList]

/-- Next to the gap stand a string that ends in a quote, and names with quotes inside. -/
theorem literal_contained_neighbours :
    let name : Ident := ⟨.quoted ⟨"a\"", by decide, by decide⟩, []⟩
    let object : NamedObject := ⟨.column, name, none, { text := name.render }⟩
    let column : Located := ⟨0, object, none, name.render⟩
    let value : Context := .call (.ident name) [.leaf (.literal (.quoted "it's'")), .gap]
    let c : Context := .aliased (.apply .equal [.leaf column.toExpr, value]) name.render
    c.Formed ∧ c.gaps = 1 ∧
      ∃ (before after : String) (left right : List Token),
        Token.read before = some left ∧ Token.read after = some right ∧
          ∀ s, ∃ e, c.fill s = .ok e ∧
            e.text = before ++ (Expr.literal (.quoted s)).text ++ after ∧
            Token.read e.text = some (left ++ .string s :: right) := by
  intro name object column value c
  have entered : Catalog.create {} .column (.ident name) = .ok (Catalog.enter {} object) := rfl
  have held : (Catalog.enter {} object).2.locate? 0 = some column := rfl
  have resolved : (NameSpec.ident name).resolve = .ok name := rfl
  have column_plain : Leaf column.toExpr := .object (.create .empty entered) held (.inr rfl)
  have string_plain : Leaf (.literal (.quoted "it's'")) := .string _
  have value_formed : value.Formed :=
    .call resolved (by simp [Formed.gap, Formed.leaf string_plain])
  have formed : c.Formed :=
    .aliased (Ident.parse_render name)
      (.apply (by decide) (by decide) (by simp [Formed.leaf column_plain, value_formed]))
  have one : c.gaps = 1 := rfl
  exact ⟨formed, one, literal_contained formed one⟩

end Context

end SqlBuilder
