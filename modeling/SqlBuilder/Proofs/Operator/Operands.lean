import SqlBuilder.Proofs.Operator.Layout
import SqlBuilder.Proofs.Param.Union

/-! # Operands that are taken, written and bound

Four counts have to agree when an operator is applied: how many operands its arity accepts, how many
its layout asks for, how many of them it writes, and of how many it collects the parameters. They
are computed apart from each other, and the arity of a keyword operator may have nothing to do with
the number of its keywords. An operator takes an operand list exactly when the arity accepts it and
the layout has enough of it; then every word of the operator is written, every operand that is
written is bound, and no other is.
-/

namespace SqlBuilder

/-- A piece of the text of an operator: one of its words, one of its operands, or one of the blanks,
commas and parentheses around them. -/
inductive Segment
  | word (s : String)
  | operand (e : Expr)
  | mark (s : String)
  deriving DecidableEq

namespace Segment

def text : Segment → String
  | word s | mark s => s
  | operand e => e.text

def written (segments : List Segment) : String := .join (segments.map text)

/-- The words among pieces, from the left to the right. -/
def words : List Segment → List String
  | [] => []
  | word s :: segments => s :: words segments
  | operand _ :: segments | mark _ :: segments => words segments

/-- The operands among pieces, from the left to the right. -/
def operands : List Segment → List Expr
  | [] => []
  | operand e :: segments => e :: operands segments
  | word _ :: segments | mark _ :: segments => operands segments

def group (segments : List Segment) : List Segment := mark "(" :: segments ++ [mark ")"]

/-- Groups of pieces with commas between them. -/
def separated (groups : List (List Segment)) : List Segment :=
  List.intercalate [mark ", "] groups

instance : Written (List Segment) where
  empty := []
  word s := [word s]
  blank := [mark " "]
  append segments others := segments ++ others
  group := group
  list := separated

@[simp]
theorem written_nil : written [] = "" := by simp [written]

@[simp]
theorem written_cons (segment : Segment) (segments : List Segment) :
    written (segment :: segments) = segment.text ++ written segments := by simp [written]

@[simp]
theorem written_append (segments others : List Segment) :
    written (segments ++ others) = written segments ++ written others := by
  induction segments with
  | nil => simp
  | cons segment segments ih =>
    rw [List.cons_append, written_cons, ih, written_cons, String.append_assoc]

@[simp]
theorem written_group (segments : List Segment) :
    written (group segments) = Operator.parens (written segments) := by
  simp [group, text, Operator.parens, String.append_assoc]

@[simp]
theorem words_append (segments others : List Segment) :
    words (segments ++ others) = words segments ++ words others := by
  fun_induction words segments <;> simp_all [words]

@[simp]
theorem operands_append (segments others : List Segment) :
    operands (segments ++ others) = operands segments ++ operands others := by
  fun_induction operands segments <;> simp_all [operands]

@[simp]
theorem words_group (segments : List Segment) : words (group segments) = words segments := by
  simp [group, words]

@[simp]
theorem operands_group (segments : List Segment) :
    operands (group segments) = operands segments := by
  simp [group, operands]

@[simp]
theorem written_separated (groups : List (List Segment)) :
    written (separated groups) = ", ".intercalate (groups.map written) := by
  rw [separated, Written.text_intercalate written_nil written_append]
  simp [text]

/-- What is read off pieces without looking at commas is read off the groups between them. -/
theorem collect_separated {β : Type} {f : List Segment → List β} (empty : f [] = [])
    (append : ∀ segments others, f (segments ++ others) = f segments ++ f others)
    (comma : f [mark ", "] = []) (groups : List (List Segment)) :
    f (separated groups) = groups.flatMap f := by
  induction groups with
  | nil => exact empty
  | cons first rest ih =>
    cases rest with
    | nil => simp [separated]
    | cons second rest =>
      rw [separated, List.intercalate_cons_cons, ← separated, append, append, comma,
        List.append_nil, List.flatMap_cons, ih]

@[simp]
theorem words_separated (groups : List (List Segment)) :
    words (separated groups) = groups.flatMap words :=
  collect_separated rfl words_append rfl groups

@[simp]
theorem operands_separated (groups : List (List Segment)) :
    operands (separated groups) = groups.flatMap operands :=
  collect_separated rfl operands_append rfl groups

@[simp]
theorem words_spaced (s : String) : words (Written.spaced s) = [s] := rfl

theorem hom_written : Written.Hom written where
  empty := written_nil
  word s := by simp [Written.word, text]
  blank := by simp [Written.blank, text]
  append := written_append
  group := written_group
  list := written_separated

theorem collects_operands : Written.Collects operands where
  empty := rfl
  word _ := rfl
  blank := rfl
  append := operands_append
  group := operands_group
  list := operands_separated

end Segment

namespace Operator

open Segment

/-- Whether the layout of an operator has a place for each of its words among so many operands. A
single keyword can stand before a single operand; otherwise there is one operand more than there are
keywords, or several more. -/
def Spans (op : Operator) (count : Nat) : Prop :=
  match op with
  | keyword _ signs _ =>
    0 < signs.length ∧ (signs.length < count ∨ count = 1 ∧ signs.length = 1)
  | membership .. | assignment | suffix .. => True

/-- How many operands an operator takes. -/
structure Takes (op : Operator) (count : Nat) : Prop where
  nonempty : 0 < count
  accepted : op.arity.accepts count = true
  spans : op.Spans count

/-- The kind of refusal of operands that an operator does not take. Only an operator without words
is at fault itself, and only when nothing is wrong with the operands. -/
def refusal (op : Operator) (count : Nat) : ErrorKind :=
  if op.keywords = [] ∧ 0 < count ∧ op.arity.accepts count = true then .invalidArgument
  else .invalidOperands

/-- The pieces an operator and its operands are written in, from the left to the right. -/
def segments (op : Operator) (es : List Expr) : List Segment := op.layOut (es.map ([.operand ·]))

variable {op : Operator} {es : List Expr}

/-- The pieces make up the layout of the operator. -/
theorem written_segments (op : Operator) (es : List Expr) :
    written (op.segments es) = op.layOut (es.map Expr.text) := by
  simp [segments, layOut_map hom_written, text, Function.comp_def]

/-- The operands among the pieces are those that count as written. -/
theorem operands_segments (accepted : op.arity.accepts es.length = true) :
    Segment.operands (op.segments es) = es.take (op.relevant es.length) := by
  rw [segments, collect_layOut collects_operands (by simpa using accepted), List.length_map,
    ← List.map_take, List.flatMap_map]
  simp [Segment.operands]

theorem words_layOutBehind {signs : List String} {es : List Expr}
    (enough : signs.length ≤ es.length) :
    Segment.words (layOutBehind signs (es.map ([.operand ·]))) = signs := by
  induction signs generalizing es with
  | nil => rfl
  | cons sign signs ih =>
    obtain ⟨e, es, rfl⟩ := List.exists_cons_of_length_pos (Nat.zero_lt_of_lt enough)
    simp [layOutBehind, Written.append, Written.group, Segment.words,
      ih (Nat.le_of_succ_le_succ enough)]

/-- An operator writes all its words between operands that it takes. -/
theorem words_segments (takes : op.Takes es.length) :
    Segment.words (op.segments es) = op.keywords := by
  have accepted := takes.accepted
  match op, es with
  | keyword name signs arity, [] => exact absurd takes.nonempty (Nat.lt_irrefl 0)
  | keyword name signs arity, e :: es =>
    by_cases single : es.length = 0 ∧ signs.length = 1
    · obtain ⟨sign, rfl⟩ := List.length_eq_one_iff.mp single.2
      obtain rfl := List.length_eq_zero_iff.mp single.1
      rfl
    · have enough : signs.length ≤ es.length := by
        obtain ⟨-, long | ⟨one, alone⟩⟩ := takes.spans
        · exact Nat.le_of_lt_succ long
        · exact absurd ⟨Nat.succ.inj one, alone⟩ single
      rw [segments, List.map_cons, layOut_several (by simpa using single)]
      simp [Written.append, Written.group, Segment.words, words_layOutBehind enough, keywords]
  | membership name sign, e :: es =>
    simp [segments, layOut, Written.append, Written.group, Written.list, Segment.words,
      List.flatMap_map, keywords]
  | assignment, [e, f] => rfl
  | suffix name sign, [e] => rfl
  | membership name sign, [] | assignment, [] | assignment, [e] | assignment, e :: f :: g :: es
  | suffix name sign, [] | suffix name sign, e :: f :: es =>
    simp [arity, Arity.accepts] at accepted

/-- An operator has something to render for operands that it takes. -/
theorem exists_render (takes : op.Takes es.length) : ∃ text, op.render es = .ok text := by
  have accepted := takes.accepted
  match op, es with
  | keyword name signs arity, [] => exact absurd takes.nonempty (Nat.lt_irrefl 0)
  | keyword name signs arity, e :: es =>
    obtain ⟨nonempty, long | ⟨one, alone⟩⟩ := takes.spans
    · have several : ¬(es.length = 0 ∧ signs.length = 1) := by
        rw [List.length_cons] at long
        omega
      rw [render_several (List.length_pos_iff.mp nonempty) several,
        if_neg (Nat.not_lt.mpr (Nat.le_of_lt_succ long))]
      exact ⟨_, rfl⟩
    · obtain ⟨sign, rfl⟩ := List.length_eq_one_iff.mp alone
      obtain rfl := List.length_eq_zero_iff.mp (Nat.succ.inj one)
      exact ⟨_, rfl⟩
  | membership name sign, e :: f :: es | assignment, [e, f] | suffix name sign, [e] =>
    exact ⟨_, rfl⟩
  | membership name sign, [] | membership name sign, [e] | assignment, [] | assignment, [e]
  | assignment, e :: f :: g :: es | suffix name sign, [] | suffix name sign, e :: f :: es =>
    simp [arity, Arity.accepts] at accepted

/-- Operands that are taken make an expression: the pieces as its text, and the parameters of the
operands among them. -/
theorem compute_of_takes (takes : op.Takes es.length) :
    op.compute es = .ok { text := written (op.segments es), params := op.collect es } := by
  have nonempty : es ≠ [] := List.length_pos_iff.mp takes.nonempty
  obtain ⟨text, rendered⟩ := exists_render takes
  rw [compute, if_neg nonempty, checkCount, if_pos takes.accepted, rendered, written_segments,
    ← render_eq rendered]
  rfl

/-- The layout of an accepted operand list falls short only with a keyword operator, for want of
keywords or of operands. -/
theorem exists_render_error (nonempty : es ≠ []) (accepted : op.arity.accepts es.length = true)
    (short : ¬op.Spans es.length) :
    ∃ fault, op.render es = .error fault ∧ fault.kind = op.refusal es.length := by
  cases op with
  | membership | assignment | suffix => exact absurd trivial short
  | keyword name signs arity =>
    obtain ⟨e, es, rfl⟩ := List.exists_cons_of_ne_nil nonempty
    rcases signs with _ | ⟨sign, signs⟩
    · refine ⟨.noKeywords name, rfl, ?_⟩
      rw [refusal, if_pos ⟨rfl, Nat.zero_lt_succ _, accepted⟩]
      rfl
    · have few : es.length < (sign :: signs).length := by
        simp only [Spans, List.length_cons] at short ⊢
        omega
      have several : ¬(es.length = 0 ∧ (sign :: signs).length = 1) := by
        simp only [Spans, List.length_cons] at short ⊢
        omega
      refine ⟨.fewOperands name (sign :: signs).length (es.length + 1), ?_, ?_⟩
      · rw [render_several (List.cons_ne_nil sign signs) several, if_pos few]
      · simp [refusal, keywords, Error.kind]

/-- Operands that are not taken are refused. -/
theorem exists_compute_error (refused : ¬op.Takes es.length) :
    ∃ fault, op.compute es = .error fault ∧ fault.kind = op.refusal es.length := by
  by_cases empty : es = []
  · subst empty
    exact ⟨.noOperands op.name, by simp [compute], by simp [refusal, Error.kind]⟩
  · rw [compute, if_neg empty, checkCount]
    cases accepted : op.arity.accepts es.length with
    | false =>
      exact ⟨.operandCount op.name op.arity es.length, rfl, by simp [refusal, accepted, Error.kind]⟩
    | true =>
      have short : ¬op.Spans es.length := fun spans =>
        refused ⟨List.length_pos_iff.mpr empty, accepted, spans⟩
      obtain ⟨fault, rendered, kind⟩ := exists_render_error empty accepted short
      exact ⟨fault, by rw [rendered]; rfl, kind⟩

/-- An operator makes an expression exactly of the operands it takes. -/
theorem exists_compute_iff : (∃ e, op.compute es = .ok e) ↔ op.Takes es.length := by
  constructor
  · rintro ⟨e, computed⟩
    refine Classical.byContradiction fun refused => ?_
    obtain ⟨fault, failed, -⟩ := exists_compute_error refused
    rw [failed] at computed
    cases computed
  · exact fun takes => ⟨_, compute_of_takes takes⟩

theorem toList_collect (op : Operator) (es : List Expr) :
    (op.collect es).toList =
      firstOccurrences ((es.take (op.relevant es.length)).flatMap fun e => e.params.toList) := by
  rw [collect, ParamList.toList_unions, List.flatMap_map]

/-! ### Places of operands -/

/-- The entries of a list from a place on. There are none to be had from behind the end. -/
def entriesFrom? {α : Type} (place : Nat) (as : List α) : Option (List α) :=
  if place ≤ as.length then some (as.drop place) else none

/-- Rendering by the places of keywords and operands. It comes to nothing when it asks for a place
that a list does not have. -/
def renderByPlace? (op : Operator) (es : List Expr) : Option (Except Error String) :=
  match op with
  | keyword name signs _ =>
    if signs.length = 0 then some (.error (.noKeywords name))
    else if es.length = 1 ∧ signs.length = 1 then do
      let sign ← signs[0]?
      let e ← es[0]?
      return .ok (sign ++ " " ++ parens e.text)
    else if es.length ≤ signs.length then
      some (.error (.fewOperands name signs.length es.length))
    else do
      let e ← es[0]?
      let others ← entriesFrom? 1 es
      return .ok (parens e.text ++ interleave signs others)
  | op =>
    if op.arity.accepts es.length then
      match op with
      | membership _ sign => do
        let values ← entriesFrom? 1 es
        let e ← es[0]?
        return .ok (parens e.text ++ " " ++ sign ++ " " ++
          parens (", ".intercalate (values.map Expr.text)))
      | suffix _ sign => do
        let e ← es[0]?
        return .ok (parens e.text ++ " " ++ sign)
      | _ => do
        let e ← es[0]?
        let f ← es[1]?
        return .ok (e.text ++ " = " ++ parens f.text)
    else some (.error (.operandCount op.name op.arity es.length))

/-- Rendering finds everything at its place, however many operands there are. -/
theorem renderByPlace?_eq (op : Operator) (es : List Expr) :
    op.renderByPlace? es = some (op.render es) := by
  cases op with
  | keyword name signs arity =>
    rcases signs with _ | ⟨sign, _ | ⟨second, signs⟩⟩
    · cases es <;> rfl
    · rcases es with _ | ⟨e, _ | ⟨f, es⟩⟩ <;> rfl
    · cases es with
      | nil => rfl
      | cons e es =>
        by_cases few : es.length < signs.length + 2
        · simp [renderByPlace?, render, renderKeywords, few, Nat.lt_succ_iff.mp few]
        · simp [renderByPlace?, render, renderKeywords, few, entriesFrom?]
          omega
  | membership name sign =>
    rcases es with _ | ⟨e, _ | ⟨f, es⟩⟩
    · rfl
    · rfl
    · simp [renderByPlace?, render, arity, Arity.accepts, entriesFrom?]
  | assignment => rcases es with _ | ⟨e, _ | ⟨f, _ | ⟨g, es⟩⟩⟩ <;> rfl
  | suffix name sign => rcases es with _ | ⟨e, _ | ⟨f, es⟩⟩ <;> rfl

/-! ### Operands that may be missing -/

theorem computeOptional_some (op : Operator) (es : List Expr) :
    op.computeOptional (es.map some) = op.compute es := by
  have present : (es.map some).findIdx? Option.isNone = none := by simp [List.findIdx?_eq_none_iff]
  have all : (es.map some).filterMap id = es := by simp [List.filterMap_map]
  simp only [computeOptional, present, all]

/-- The first operand that is missing is named. -/
theorem exists_computeOptional_error (op : Operator) {operands : List (Option Expr)}
    (missing : none ∈ operands) :
    ∃ i, op.computeOptional operands = .error (.missingOperand op.name i) ∧
      operands[i]? = some none ∧ ∀ j < i, operands[j]? ≠ some none := by
  cases found : operands.findIdx? Option.isNone with
  | none =>
    rw [List.findIdx?_eq_none_iff] at found
    simpa using found none missing
  | some i =>
    obtain ⟨short, absent, before⟩ := List.findIdx?_eq_some_iff_getElem.mp found
    have gone : operands[i] = none := by simpa using absent
    refine ⟨i, by simp only [computeOptional, found], ?_, ?_⟩
    · rw [List.getElem?_eq_getElem short, gone]
    · intro j earlier missed
      obtain ⟨within, missed⟩ := List.getElem?_eq_some_iff.mp missed
      exact before j earlier (by rw [missed]; rfl)

/-! ### All counts together -/

/-- What is taken, written and bound agrees. An operator makes an expression exactly of the operand
lists it takes. It is written with all its words and with the operands that count as written, in
their order, and has the parameters of those operands and no others, each at its first occurrence.
Every other list is refused, for the want of words only when nothing is wrong with the operands.
Rendering never asks for a place behind the end of a list, whatever it is given. An operand that is
missing is refused before anything else, and nothing changes when none is. -/
theorem compute_agrees (op : Operator) (es : List Expr) :
    ((∃ e, op.compute es = .ok e) ↔ op.Takes es.length) ∧
      (∀ fault, op.compute es = .error fault → fault.kind = op.refusal es.length) ∧
      (∀ e, op.compute es = .ok e →
        e.text = written (op.segments es) ∧ Segment.words (op.segments es) = op.keywords ∧
          Segment.operands (op.segments es) = es.take (op.relevant es.length) ∧
          e.params.toList = firstOccurrences
            ((Segment.operands (op.segments es)).flatMap fun e => e.params.toList)) ∧
      op.renderByPlace? es = some (op.render es) ∧
      op.computeOptional (es.map some) = op.compute es ∧
      ∀ operands, none ∈ operands → ∃ i, operands[i]? = some none ∧
        op.computeOptional operands = .error (.missingOperand op.name i) ∧
        (Error.missingOperand op.name i).kind = .invalidOperands := by
  refine ⟨exists_compute_iff, ?_, ?_, op.renderByPlace?_eq es, op.computeOptional_some es, ?_⟩
  · intro fault failed
    have refused : ¬op.Takes es.length := by
      rw [← exists_compute_iff, failed]
      rintro ⟨e, computed⟩
      cases computed
    obtain ⟨other, failed', kind⟩ := exists_compute_error refused
    rw [failed] at failed'
    rwa [Except.error.inj failed']
  · intro e computed
    have takes := exists_compute_iff.mp ⟨e, computed⟩
    have written := operands_segments takes.accepted
    rw [compute_of_takes takes] at computed
    obtain rfl := Except.ok.inj computed
    refine ⟨rfl, words_segments takes, written, ?_⟩
    rw [written]
    exact op.toList_collect es
  · intro operands missing
    obtain ⟨i, refused, gone, -⟩ := op.exists_computeOptional_error missing
    exact ⟨i, gone, refused, rfl⟩

/-- An arity that leaves room for too few and for too many operands, with an operand that occurs
twice and one that is ignored. -/
theorem compute_agrees_surplus :
    let op : Operator := keyword "BETWEEN" ["BETWEEN", "AND"] (.atLeast 2)
    let es : List Expr := [0, 1, 0, 2].map fun id => .param (.placeholder id)
    (∃ e, op.compute es = .ok e ∧ e.text = "(?) BETWEEN (?) AND (?)" ∧
        e.params.toList = [.placeholder 0, .placeholder 1]) ∧
      (∃ fault, op.compute (es.take 2) = .error fault ∧ fault.kind = .invalidOperands) ∧
      ∃ i, [some Expr.star, none][i]? = some none ∧
        op.computeOptional [some .star, none] = .error (.missingOperand "BETWEEN" i) := by
  intro op es
  obtain ⟨made, -, written, -, -, missing⟩ := compute_agrees op es
  obtain ⟨short, refused, -, -, -, -⟩ := compute_agrees op (es.take 2)
  refine ⟨?_, ?_, ?_⟩
  · obtain ⟨e, computed⟩ := made.mpr ⟨by decide, by decide, by decide, .inl (by decide)⟩
    obtain ⟨text, -, -, params⟩ := written e computed
    exact ⟨e, computed, text.trans (by decide), params.trans (by decide)⟩
  · cases computed : op.compute (es.take 2) with
    | ok e =>
      obtain ⟨-, -, -, long | ⟨one, -⟩⟩ := short.mp ⟨e, computed⟩
      · exact absurd long (by decide)
      · exact absurd one (by decide)
    | error fault => exact ⟨fault, rfl, (refused fault computed).trans (by decide)⟩
  · obtain ⟨i, gone, refused, -⟩ := missing [some .star, none] (by simp)
    exact ⟨i, gone, refused⟩

end Operator

end SqlBuilder
