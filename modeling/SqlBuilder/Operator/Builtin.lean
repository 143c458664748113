import SqlBuilder.Operator.Basic
import SqlBuilder.Text.Blank

/-! # Built-in operators -/

namespace SqlBuilder.Operator

def conjunction : Operator := binary "AND" ["AND"]
def disjunction : Operator := binary "OR" ["OR"]
def negation : Operator := keyword "NOT" ["NOT"] (.exactly 1)
def equal : Operator := binary "=" ["="]
def notEqual : Operator := binary "<>" ["<>"]
def less : Operator := binary "<" ["<"]
def lessEqual : Operator := binary "<=" ["<="]
def greater : Operator := binary ">" [">"]
def greaterEqual : Operator := binary ">=" [">="]
def like : Operator := binary "LIKE" ["LIKE"]
def notLike : Operator := binary "NOT LIKE" ["NOT LIKE"]
def between : Operator := keyword "BETWEEN" ["BETWEEN", "AND"] (.exactly 3)
def notBetween : Operator := keyword "NOT BETWEEN" ["NOT BETWEEN", "AND"] (.exactly 3)
def plus : Operator := binary "+" ["+"]
def minus : Operator := binary "-" ["-"]
def times : Operator := binary "*" ["*"]
def divided : Operator := binary "/" ["/"]
def modulo : Operator := binary "%" ["%"]
def memberOf : Operator := membership "IN" "IN"
def notMemberOf : Operator := membership "NOT IN" "NOT IN"
def isNull : Operator := suffix "IS NULL" "IS NULL"
def isNotNull : Operator := suffix "IS NOT NULL" "IS NOT NULL"

def builtins : List Operator :=
  [ conjunction, disjunction, negation, equal, notEqual, less, lessEqual, greater, greaterEqual,
    like, notLike, between, notBetween, plus, minus, times, divided, modulo, memberOf, notMemberOf,
    assignment, isNull, isNotNull ]

/-- The built-in operator of a name, blanks around it and the case of ASCII letters aside. -/
def byName? (name : String) : Option Operator :=
  builtins.find? fun op => op.name.toLower == (Text.trim name).toLower

end SqlBuilder.Operator
