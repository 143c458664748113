import SqlBuilder.Cached
import SqlBuilder.Error
import SqlBuilder.Expr.Basic

/-! # Where rows come from

A FROM clause has one source. A join replaces it by the text of both sides, so joins nest to the
left and replacing the source takes all joins with it.
-/

namespace SqlBuilder

/-- The source of rows, with everything joined to it. -/
structure Source where
  expr? : Option Expr := none
  deriving DecidableEq

namespace Source

instance : Inhabited Source := ⟨{}⟩

/-- The clause can be written once it has a source. -/
def isAvailable (s : Source) : Bool := s.expr?.isSome

def params (s : Source) : ParamList := (s.expr?.map Expr.params).getD ∅

/-- The text of the clause; there is none without a source. -/
def render (s : Source) : String :=
  match s.expr? with
  | some e => "FROM " ++ e.text
  | none => ""

/-- Two sources joined. -/
def joined (kind : JoinKind) (left right : Expr) (condition? : Option Expr) : Expr :=
  let pair := left.text ++ " " ++ kind.label ++ " " ++ right.text
  let params := left.params ∪ right.params
  match condition? with
  | some condition =>
    { text := pair ++ " ON " ++ condition.text, params := params ∪ condition.params }
  | none => { text := pair, params }

/-- Joins another source on the right. -/
def join (s : Source) (kind : JoinKind) (right? condition? : Option Expr) : Except Error Source :=
  match s.expr?, right?, condition? with
  | none, _, _ => .error (.joinWithoutBase kind)
  | some _, none, _ => .error (.joinWithoutSource kind)
  | some left, some right, condition? =>
    if condition?.isNone && kind.needsCondition then .error (.joinWithoutCondition kind)
    else .ok ⟨some (joined kind left right condition?)⟩

inductive Edit
  | set (e : Expr)
  | clear
  | join (kind : JoinKind) (right? condition? : Option Expr)
  deriving DecidableEq

/-- Changes the clause; only a join can be refused. -/
def apply (change : Edit) (s : Source) : Except Error (Reply × Source) :=
  match change with
  | .set e => .ok (.done, ⟨some e⟩)
  | .clear => .ok (.done, ⟨none⟩)
  | .join kind right? condition? => (s.join kind right? condition?).map (.done, ·)

end Source

end SqlBuilder
