import SqlBuilder.Catalog.Kind
import SqlBuilder.Clause.Kind
import SqlBuilder.Ident.Fault
import SqlBuilder.Operator.Arity
import SqlBuilder.Statement.Kind

/-! # Errors

An error is the cause of a refusal. Its kind and its wording are functions of the cause, so no
other module spells a message. A caller with rules of its own reports them as `Error.reported`.
-/

namespace SqlBuilder

/-- The four kinds of refusal. -/
inductive ErrorKind
  | invalidArgument
  | invalidOperands
  | invalidState
  | notFound
  deriving DecidableEq, Repr

def ErrorKind.label : ErrorKind → String
  | invalidArgument => "Invalid argument"
  | invalidOperands => "Invalid operands"
  | invalidState => "Invalid state"
  | notFound => "Not found"

def ErrorKind.all : List ErrorKind := [invalidArgument, invalidOperands, invalidState, notFound]

/-- The causes of refusals. -/
inductive Error
  | blankParamName
  | identifier (fault : IdentFault)
  | cannotOwn (kind : ObjectKind)
  | resultWithoutCall
  | noOperands (operator : String)
  | operandCount (operator : String) (arity : Arity) (count : Nat)
  | noKeywords (operator : String)
  | fewOperands (operator : String) (keywords count : Nat)
  | missingOperand (operator : String) (index : Nat)
  | notACondition (kind : ClauseKind)
  | joinWithoutBase (kind : JoinKind)
  | joinWithoutSource (kind : JoinKind)
  | joinWithoutCondition (kind : JoinKind)
  | noTarget
  | noFields
  | unassigned (field : String)
  | unsorted (expr : String)
  | incomplete (kind : StatementKind)
  | blankStatement
  | noStatements
  | zeroBatchSize
  | emptySeparator
  | reported (kind : ErrorKind) (details : String)
  deriving DecidableEq, Repr

namespace Error

/-- The kind of refusal a cause leads to. -/
def kind : Error → ErrorKind
  | blankParamName | identifier _ | cannotOwn _ | resultWithoutCall | noKeywords _
  | notACondition _ | blankStatement | noStatements | zeroBatchSize | emptySeparator =>
    .invalidArgument
  | noOperands _ | operandCount .. | fewOperands .. | missingOperand .. | joinWithoutSource _
  | joinWithoutCondition _ => .invalidOperands
  | joinWithoutBase _ | noTarget | noFields | incomplete _ => .invalidState
  | unassigned _ | unsorted _ => .notFound
  | reported kind _ => kind

def details : Error → String
  | blankParamName => "Parameter name cannot be empty"
  | identifier fault => fault.describe
  | cannotOwn kind => "a " ++ kind.label ++ " cannot own other objects"
  | resultWithoutCall => "function results are created from a Function"
  | noOperands operator => s!"operator {operator} called without operands"
  | operandCount operator arity count =>
    let expected := arity.describe
    s!"operator {operator} expects {expected} operand(s), got {count}"
  | noKeywords operator => s!"operator {operator} has no keywords"
  | fewOperands operator keywords count =>
    let needed := keywords + 1
    s!"operator {operator} needs {needed} operands for {keywords} keyword(s), got {count}"
  | missingOperand operator index => s!"operator {operator}: operand {index} is missing"
  | notACondition kind => kind.label ++ " is not a condition clause"
  | joinWithoutBase kind => kind.label ++ " requires an existing FROM source"
  | joinWithoutSource kind => kind.label ++ " without a source"
  | joinWithoutCondition kind => kind.label ++ " without an ON condition"
  | noTarget => "field-value clause has no source"
  | noFields => "field-value clause has no fields"
  | unassigned field => s!"field {field} has no value"
  | unsorted expr => s!"{expr} is not in ORDER BY"
  | incomplete kind => kind.label ++ " statement is missing a required clause"
  | blankStatement => "raw statement text cannot be empty"
  | noStatements => "no statements to combine"
  | zeroBatchSize => "max_batch_size must be at least 1"
  | emptySeparator => "statement separator cannot be empty"
  | reported _ details => details

def message (error : Error) : String := error.kind.label ++ ": " ++ error.details

end Error

end SqlBuilder
