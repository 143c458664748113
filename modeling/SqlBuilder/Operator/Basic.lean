import SqlBuilder.Expr.Basic

/-! # Operators

An operator makes one expression of several. Four layouts cover all operators: keywords between
parenthesized operands, membership in a list, assignment, and a test that follows its operand. The
layouts look at a leading part of the operands only; the parameters of the result are those of the
operands that part holds.
-/

namespace SqlBuilder

/-- An operator: its name and its layout. -/
inductive Operator
  | keyword (name : String) (keywords : List String) (arity : Arity)
  | membership (name keyword : String)
  | assignment
  | suffix (name keyword : String)
  deriving DecidableEq, Repr

namespace Operator

def binary (name : String) (keywords : List String) : Operator := keyword name keywords (.exactly 2)

def name : Operator → String
  | keyword name _ _ | membership name _ | suffix name _ => name
  | assignment => "ASSIGN"

def arity : Operator → Arity
  | keyword _ _ arity => arity
  | membership _ _ => .atLeast 2
  | assignment => .exactly 2
  | suffix _ _ => .exactly 1

/-- Refuses operand lists of the wrong length. -/
def checkCount (name : String) (arity : Arity) (count : Nat) : Except Error Unit :=
  if arity.accepts count then .ok () else .error (.operandCount name arity count)

def parens (text : String) : String := "(" ++ text ++ ")"

/-- Keywords, each followed by a parenthesized operand. -/
def interleave : List String → List Expr → String
  | word :: words, e :: es => " " ++ word ++ " " ++ parens e.text ++ interleave words es
  | _, _ => ""

/-- The layout of keyword operators: a single keyword before a single operand, otherwise an
operand before the first keyword and one after each. -/
def renderKeywords (name : String) (keywords : List String) (operands : List Expr) :
    Except Error String :=
  match keywords, operands with
  | [], _ => .error (.noKeywords name)
  | [word], [e] => .ok (word ++ " " ++ parens e.text)
  | _, [] => .error (.fewOperands name keywords.length 0)
  | _, e :: es =>
    if es.length < keywords.length then
      .error (.fewOperands name keywords.length (es.length + 1))
    else .ok (parens e.text ++ interleave keywords es)

/-- The text of an operator between its operands, with the operands parenthesized as its layout
asks. -/
def render (op : Operator) (operands : List Expr) : Except Error String :=
  match op, operands with
  | keyword name keywords _, es => renderKeywords name keywords es
  | membership _ word, e :: f :: fs =>
    .ok (parens e.text ++ " " ++ word ++ " " ++ parens (", ".intercalate ((f :: fs).map Expr.text)))
  | assignment, [e, f] => .ok (e.text ++ " = " ++ parens f.text)
  | suffix _ word, [e] => .ok (parens e.text ++ " " ++ word)
  | op, es => .error (.operandCount op.name op.arity es.length)

/-- How many of the first operands an operator renders. -/
def relevant (op : Operator) (count : Nat) : Nat :=
  match op with
  | keyword _ keywords _ =>
    if count = 1 ∧ keywords.length = 1 then 1 else min count (keywords.length + 1)
  | _ => count

/-- The parameters of the operands an operator renders, in order. -/
def collect (op : Operator) (operands : List Expr) : ParamList :=
  .unions ((operands.take (op.relevant operands.length)).map Expr.params)

def compute (op : Operator) (operands : List Expr) : Except Error Expr :=
  if operands = [] then .error (.noOperands op.name)
  else do
    checkCount op.name op.arity operands.length
    let text ← op.render operands
    return { text, params := op.collect operands }

/-- Applies an operator to operands that may be missing. -/
def computeOptional (op : Operator) (operands : List (Option Expr)) : Except Error Expr :=
  match operands.findIdx? Option.isNone with
  | some index => .error (.missingOperand op.name index)
  | none => op.compute (operands.filterMap id)

end Operator

end SqlBuilder
