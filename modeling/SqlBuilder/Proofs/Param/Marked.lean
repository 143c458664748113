import SqlBuilder.Call
import SqlBuilder.Clause.Source
import SqlBuilder.Expr.Alias
import SqlBuilder.Expr.Fold
import SqlBuilder.Proofs.Operator.Layout
import SqlBuilder.Proofs.Param.Union

/-! # Texts that show their parameters

A rendered text no longer tells where a parameter stands in it: the placeholder of a parameter is
text like any other. A marked text keeps the parameters apart from the words around them, so that
the parameters can be read off in the order they stand. Every way to make an expression of others
has its counterpart on marked texts, and collects the parameters in the order of the marks.
-/

namespace SqlBuilder

/-- A piece of a text: words, or the placeholder of a parameter. -/
inductive Piece
  | words (s : String)
  | handle (p : Param)
  deriving DecidableEq

namespace Piece

def written : Piece → String
  | words s => s
  | handle p => p.name

/-- The parameter a piece stands for. -/
def handle? : Piece → Option Param
  | words _ => none
  | handle p => some p

end Piece

/-- A text in pieces. -/
abbrev Marked := List Piece

namespace Marked

def text : Marked → String
  | [] => ""
  | piece :: rest => piece.written ++ text rest

/-- The parameters from the left to the right, as often as they occur. -/
def handles (m : Marked) : List Param := m.filterMap Piece.handle?

def word (s : String) : Marked := [.words s]

def parens (m : Marked) : Marked := word "(" ++ m ++ word ")"

def join (separator : String) : List Marked → Marked
  | [] => []
  | [m] => m
  | m :: n :: rest => m ++ word separator ++ join separator (n :: rest)

@[simp]
theorem text_append (m n : Marked) : text (m ++ n) = text m ++ text n := by
  induction m with
  | nil => simp [text]
  | cons piece rest ih => rw [List.cons_append, text, ih, text, String.append_assoc]

@[simp]
theorem text_word (s : String) : text (word s) = s := by simp [word, text, Piece.written]

@[simp]
theorem text_parens (m : Marked) : text (parens m) = Operator.parens (text m) := by
  simp [parens, Operator.parens, String.append_assoc]

@[simp]
theorem text_join (separator : String) (ms : List Marked) :
    text (join separator ms) = separator.intercalate (ms.map text) := by
  fun_induction join separator ms with
  | case1 => simp [text]
  | case2 m => simp
  | case3 m n rest ih =>
    simp only [text_append, ih, text_word, List.map_cons, String.intercalate_cons_cons]

@[simp]
theorem handles_append (m n : Marked) : handles (m ++ n) = handles m ++ handles n :=
  List.filterMap_append

@[simp]
theorem handles_word (s : String) : handles (word s) = [] := rfl

@[simp]
theorem handles_parens (m : Marked) : handles (parens m) = handles m := by simp [parens]

@[simp]
theorem handles_join (separator : String) (ms : List Marked) :
    handles (join separator ms) = ms.flatMap handles := by
  fun_induction join separator ms with
  | case1 => rfl
  | case2 m => simp
  | case3 m n rest ih => simp [ih]

end Marked

instance : Written Marked where
  empty := []
  word := Marked.word
  blank := Marked.word " "
  append m n := m ++ n
  group := Marked.parens
  list := Marked.join ", "

theorem Marked.hom_text : Written.Hom Marked.text where
  empty := rfl
  word := text_word
  blank := text_word " "
  append := text_append
  group := text_parens
  list := text_join ", "

theorem Marked.collects_handles : Written.Collects Marked.handles where
  empty := rfl
  word := handles_word
  blank := handles_word " "
  append := handles_append
  group := handles_parens
  list := handles_join ", "

namespace Expr

/-- An expression joined with further ones from the left. -/
inductive Joins (op : Operator) : Expr → List Expr → Expr → Prop
  | last (e : Expr) : Joins op e [] e
  | next {start e both all : Expr} {rest : List Expr} (computed : op.compute [start, e] = .ok both)
      (joined : Joins op both rest all) : Joins op start (e :: rest) all

/-- Joined are the first expression and those behind it. -/
theorem joins_of_foldWith {op : Operator} {es : List Expr} {all : Expr}
    (ok : foldWith op es = .ok (some all)) :
    ∃ first rest, es = first :: rest ∧ Joins op first rest all := by
  have join (rest : List Expr) (start : Expr)
      (ok : rest.foldlM (fun joined next => op.compute [joined, next]) start = .ok all) :
      Joins op start rest all := by
    induction rest generalizing start with
    | nil =>
      obtain rfl := Except.ok.inj ok
      exact .last start
    | cons e rest ih =>
      rw [List.foldlM_cons] at ok
      cases computed : op.compute [start, e] with
      | error fault => simp [computed, bind, Except.bind] at ok
      | ok both =>
        rw [computed] at ok
        exact .next computed (ih both ok)
  cases es with
  | nil => simp [foldWith] at ok
  | cons first rest =>
    refine ⟨first, rest, rfl, join rest first ?_⟩
    rw [foldWith] at ok
    cases folded : rest.foldlM (fun joined next => op.compute [joined, next]) first with
    | error fault => simp [folded, bind, Except.bind] at ok
    | ok both => simpa [folded, bind, Except.bind, pure, Except.pure] using ok

end Expr

def Operator.markedFold (op : Operator) : List Marked → Marked
  | [] => []
  | m :: ms => ms.foldl (fun joined next => op.layOut [joined, next]) m

def Ident.markedCall (name : Ident) (args : List Marked) : Marked :=
  .word name.render ++ .parens (.join ", " args)

def Ident.markedAlias (name : Ident) (target : Marked) : Marked :=
  target ++ .word (" AS " ++ name.render)

def JoinKind.marked (kind : JoinKind) (left right : Marked) (condition? : Option Marked) :
    Marked :=
  left ++ .word (" " ++ kind.label ++ " ") ++ right ++
    condition?.elim [] fun condition => .word " ON " ++ condition

/-- An expression beside its text in pieces. -/
structure MarkedExpr where
  expr : Expr
  mark : Marked
  deriving DecidableEq

namespace MarkedExpr

def param (p : Param) : MarkedExpr := ⟨.param p, [.handle p]⟩

/-- An expression that is written without marks. -/
def leaf (e : Expr) : MarkedExpr := ⟨e, .word e.text⟩

/-- The pieces make up the text of the expression, and its parameters are those of the pieces in
their order, without repetitions. -/
structure Agrees (x : MarkedExpr) : Prop where
  text : x.expr.text = x.mark.text
  params : x.expr.params = .ofList x.mark.handles

theorem agrees_param (p : Param) : (param p).Agrees :=
  ⟨by simp [param, Expr.param, Marked.text, Piece.written], rfl⟩

theorem agrees_leaf {e : Expr} (bare : e.params = ∅) : (leaf e).Agrees := ⟨by simp [leaf], bare⟩

variable {xs : List MarkedExpr}

theorem texts_eq (agree : ∀ x ∈ xs, x.Agrees) :
    (xs.map expr).map Expr.text = (xs.map mark).map Marked.text := by
  rw [List.map_map, List.map_map]
  exact List.map_congr_left fun x member => (agree x member).text

theorem unions_params (agree : ∀ x ∈ xs, x.Agrees) :
    ParamList.unions ((xs.map expr).map Expr.params) =
      .ofList ((xs.map mark).flatMap Marked.handles) := by
  have lists : (xs.map expr).map Expr.params =
      ((xs.map mark).map Marked.handles).map ParamList.ofList := by
    rw [List.map_map, List.map_map, List.map_map]
    exact List.map_congr_left fun x member => (agree x member).params
  rw [lists, ParamList.unions_map_ofList, List.flatMap_def]

end MarkedExpr

namespace Operator

open MarkedExpr

variable {op : Operator} {xs : List MarkedExpr}

/-- An operator applied to expressions that agree with their marked texts. -/
theorem agrees_compute (agree : ∀ x ∈ xs, x.Agrees) {e : Expr}
    (ok : op.compute (xs.map expr) = .ok e) : Agrees ⟨e, op.layOut (xs.map mark)⟩ := by
  obtain ⟨accepted, rendered, collected, -⟩ := compute_eq_ok ok
  have text : e.text = Marked.text (op.layOut (xs.map mark)) := by
    rw [render_eq rendered, texts_eq agree, Operator.layOut_map Marked.hom_text]
  refine ⟨text, ?_⟩
  have taken : ∀ x ∈ xs.take (op.relevant xs.length), x.Agrees := fun x member =>
    agree x (List.mem_of_mem_take member)
  rw [collected, collect, List.length_map, ← List.map_take, unions_params taken,
    collect_layOut Marked.collects_handles (by simpa using accepted), List.length_map,
    List.map_take]

end Operator

namespace ExprList

open MarkedExpr

variable {repeats : Repeats} {l : ExprList repeats} {xs : List MarkedExpr}

/-- A list that holds the given expressions and nothing but their parameters, in their order. -/
structure Agrees (l : ExprList repeats) (xs : List MarkedExpr) : Prop where
  items : l.items = xs.map expr
  params : l.params = .ofList ((xs.map mark).flatMap Marked.handles)
  each : ∀ x ∈ xs, x.Agrees

theorem agrees_empty (repeats : Repeats) : (ExprList.empty : ExprList repeats).Agrees [] :=
  ⟨rfl, rfl, by simp⟩

theorem Agrees.push (agrees : l.Agrees xs) {x : MarkedExpr} (own : x.Agrees) :
    (l.push x.expr).Agrees (if l.accepts x.expr then xs ++ [x] else xs) := by
  unfold ExprList.push
  split
  · refine ⟨by simp [agrees.items], ?_, ?_⟩
    · simp only [agrees.params, own.params, ← ParamList.ofList_append, List.map_append,
        List.flatMap_append, List.map_cons, List.map_nil, List.flatMap_cons, List.flatMap_nil,
        List.append_nil]
    · intro y member
      rcases List.mem_append.mp member with member | member
      · exact agrees.each y member
      · rwa [List.mem_singleton.mp member]
  · exact agrees

/-- A list that allows repetitions takes everything. -/
theorem Agrees.pushAll {l : ExprList .allowed} (agrees : l.Agrees xs) {ys : List MarkedExpr}
    (agree : ∀ y ∈ ys, y.Agrees) : (l.pushAll (ys.map expr)).2.Agrees (xs ++ ys) := by
  induction ys generalizing l xs with
  | nil => simpa [ExprList.pushAll] using agrees
  | cons y ys ih =>
    have pushed := agrees.push (agree y (List.mem_cons_self ..))
    have rest := ih pushed fun z member => agree z (List.mem_cons_of_mem y member)
    simpa [ExprList.pushAll, accepts] using rest

end ExprList

namespace MarkedExpr

variable {xs : List MarkedExpr}

/-- Expressions that agree with their marked texts are folded to one that does. -/
theorem agrees_fold {op : Operator} (agree : ∀ x ∈ xs, x.Agrees) {e : Expr}
    (ok : Expr.foldWith op (xs.map expr) = .ok (some e)) :
    Agrees ⟨e, op.markedFold (xs.map mark)⟩ := by
  -- The part that has been joined so far agrees, whatever is still to come.
  have join (start : MarkedExpr) (own : start.Agrees) (rest : List MarkedExpr)
      (agree : ∀ x ∈ rest, x.Agrees) (joined : Expr.Joins op start.expr (rest.map expr) e) :
      Agrees ⟨e, (rest.map mark).foldl (fun joined next => op.layOut [joined, next])
        start.mark⟩ := by
    induction rest generalizing start with
    | nil =>
      cases joined
      exact own
    | cons x rest ih =>
      cases joined with | next computed joined =>
      have pair : ∀ y ∈ [start, x], y.Agrees := by
        simpa using ⟨own, agree x (List.mem_cons_self ..)⟩
      exact ih ⟨_, _⟩ (Operator.agrees_compute pair computed)
        (fun y member => agree y (List.mem_cons_of_mem x member)) joined
  obtain ⟨first, rest, same, joined⟩ := Expr.joins_of_foldWith ok
  obtain ⟨x, others, rfl, rfl, rfl⟩ := List.map_eq_cons_iff.mp same
  exact join x (agree x (List.mem_cons_self ..)) others
    (fun y member => agree y (List.mem_cons_of_mem x member)) joined

/-- A call with arguments that agree with their marked texts agrees with its own. -/
theorem agrees_call {name : NameSpec} (agree : ∀ x ∈ xs, x.Agrees) {c : Call}
    (ok : Call.ofArgs name (xs.map expr) = .ok c) :
    Agrees ⟨Cached.callExpr { content := c }, c.name.markedCall (xs.map mark)⟩ := by
  unfold Call.ofArgs at ok
  split at ok
  · next ident resolved =>
    obtain rfl := Except.ok.inj ok
    have args := (ExprList.agrees_empty .allowed).pushAll agree
    rw [List.nil_append] at args
    refine ⟨?_, by simp [Cached.callExpr, args.params, Ident.markedCall]⟩
    simp [Cached.callExpr, Cached.callText, Cached.text, Call.render, ExprList.texts, args.items,
      texts_eq agree, Ident.markedCall, Operator.parens, String.append_assoc, -List.map_map]
  · cases ok

theorem agrees_aliased {x : MarkedExpr} (own : x.Agrees) {name : String} {ident : Ident}
    {e : Expr} (read : Ident.parse name = .ok ident) (ok : x.expr.aliased name = .ok e) :
    Agrees ⟨e, ident.markedAlias x.mark⟩ := by
  simp only [Expr.aliased, Alias.create, Alias.readName, read, Except.ok.injEq] at ok
  obtain rfl := ok
  refine ⟨?_, by simp [Alias.toExpr, Alias.params, own.params, Ident.markedAlias]⟩
  simp [Alias.toExpr, Alias.text, Alias.name, own.text, Ident.markedAlias, String.append_assoc]

/-- Joined sources agree with their marked text. -/
theorem agrees_joined (kind : JoinKind) {left right : MarkedExpr}
    {condition? : Option MarkedExpr} (agreeLeft : left.Agrees) (agreeRight : right.Agrees)
    (agreeOn : ∀ x ∈ condition?, x.Agrees) :
    Agrees ⟨Source.joined kind left.expr right.expr (condition?.map expr),
      kind.marked left.mark right.mark (condition?.map mark)⟩ := by
  cases condition? with
  | none =>
    constructor <;>
      simp [Source.joined, JoinKind.marked, agreeLeft.text, agreeRight.text, agreeLeft.params,
        agreeRight.params, ← ParamList.ofList_append, String.append_assoc]
  | some condition =>
    have on := agreeOn condition rfl
    constructor <;>
      simp [Source.joined, JoinKind.marked, agreeLeft.text, agreeRight.text, on.text,
        agreeLeft.params, agreeRight.params, on.params, ← ParamList.ofList_append,
        String.append_assoc]

end MarkedExpr

end SqlBuilder
