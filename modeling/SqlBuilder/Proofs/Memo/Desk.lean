import SqlBuilder.Proofs.Memo.Statement

/-! # Runs over documents

Calls, clauses and statements lie on a desk, where they are changed, read and copied in any order;
the clauses inside a statement and the condition inside a GROUP BY clause are changed and read in
their place. The same run is made by two readers. The caching one answers with remembered texts
and leaves what it read remembered; the fresh one lays every text out from the contents and leaves
nothing behind. Their answers agree at every step, and so do the contents they end with.
-/

namespace SqlBuilder

/-- Whatever changes and reads as text: a call, a clause that stands alone, or a statement. -/
inductive Document
  | call (c : Cached Call)
  | clause (c : Clause)
  | statement (s : Statement)
  deriving DecidableEq

namespace Document

/-- The changes documents can undergo, those of the clauses inside a statement included. -/
inductive Edit
  | call (change : ExprList.Edit)
  | clause (change : Clause.Edit)
  | statement (change : Statement.Edit)
  deriving DecidableEq

/-- Changes a document. A change for another kind of document is none, and one that is refused
leaves the contents as they were. -/
def change (edit : Edit) (d : Document) : Document :=
  match edit, d with
  | .call change, call c => call (c.edit (Call.apply change)).2
  | .clause change, clause c => ((c.change? change).map fun (_, next) => clause next).getD d
  | .statement change, statement s =>
    ((s.change? change).map fun (_, next) => statement next).getD d
  | _, d => d

def text? : Document → Option String
  | call c => some c.callText
  | clause c => c.text.toOption
  | statement s => s.read.answer.toOption

def afterRead : Document → Document
  | call c => call (c.afterRead Call.render)
  | clause c => clause c.afterRead
  | statement s => statement s.read.state

def part? (kind : ClauseKind) : Document → Option Clause
  | call _ => none
  | clause c => c.having?.filter fun having => having.kind = kind
  | statement s => s.clause? kind

def afterPartRead (kind : ClauseKind) : Document → Document
  | call c => call c
  | clause c => clause (if kind = .groupFilter then c.afterHavingRead else c)
  | statement s => statement (s.afterClauseRead kind)

/-- The text of a document, laid out from its contents alone. -/
def written? : Document → Option String
  | call c =>
    some (c.content.name.render ++ "(" ++ ", ".intercalate (c.content.args.items.map Expr.text) ++
      ")")
  | clause c => c.written?
  | statement s => s.written?

def forget : Document → Document
  | call c => call c.forget
  | clause c => clause c.forget
  | statement s => statement s.forget

/-- Whatever is remembered of a document and its parts is right. -/
def Coherent : Document → Prop
  | call c => c.Coherent fun c => .ok c.render
  | clause c => c.Coherent
  | statement s => s.Coherent

variable {d : Document}

theorem coherent_forget (d : Document) : d.forget.Coherent := by
  cases d with
  | call c => exact Cached.coherent_fresh (fun c => .ok c.render) c.content
  | clause c => exact c.coherent_forget
  | statement s => exact s.coherent_forget

/-- A change of a document leaves nothing wrong behind. -/
theorem Coherent.change (coherent : d.Coherent) (edit : Edit) : (d.change edit).Coherent := by
  cases d <;> cases edit <;> try exact coherent
  case call c edit => exact Cached.coherent_edit (fun c => .ok c.render) (Call.apply edit) c
  case clause c edit =>
    cases changed : c.change? edit with
    | none => simpa [Document.change, changed] using coherent
    | some result =>
      simpa [Document.change, changed, Coherent] using Clause.Coherent.change coherent changed
  case statement s edit =>
    cases changed : s.change? edit with
    | none => simpa [Document.change, changed] using coherent
    | some result =>
      simpa [Document.change, changed, Coherent] using Statement.Coherent.change coherent changed

/-- A read of a document remembers nothing wrong. -/
theorem Coherent.afterRead (coherent : d.Coherent) : d.afterRead.Coherent := by
  cases d with
  | call c => exact Cached.Coherent.afterRead coherent
  | clause c => exact Clause.Coherent.afterRead coherent
  | statement s => exact Statement.Coherent.state_read coherent

theorem Coherent.afterPartRead (coherent : d.Coherent) (kind : ClauseKind) :
    (d.afterPartRead kind).Coherent := by
  cases d with
  | call c => exact coherent
  | clause c =>
    by_cases inner : kind = .groupFilter
    · simpa [Document.afterPartRead, inner, Coherent] using
        Clause.Coherent.afterHavingRead coherent
    · simpa [Document.afterPartRead, inner] using coherent
  | statement s => exact Statement.Coherent.afterClauseRead coherent kind

/-- What is remembered of the clauses inside a document is right as well. -/
theorem Coherent.part {kind : ClauseKind} {part : Clause} (coherent : d.Coherent)
    (held : d.part? kind = some part) : part.Coherent := by
  cases d with
  | call c => simp [part?] at held
  | clause c => exact Clause.Coherent.having coherent (Option.eq_some_of_filter_eq_some held)
  | statement s => exact Statement.Coherent.clause coherent held

/-- A coherent document reads as its contents say. -/
theorem Coherent.text?_eq (coherent : d.Coherent) : d.text? = d.written? := by
  cases d with
  | call c => exact congrArg some (Cached.Coherent.text_eq coherent)
  | clause c =>
    rw [text?, Clause.Coherent.text_eq coherent, Clause.toOption_render, written?]
  | statement s =>
    rw [text?, Statement.Coherent.answer_read coherent, Statement.toOption_render, written?]

/-- The text of a document does not depend on what the document remembers. -/
@[simp]
theorem written?_forget (d : Document) : d.forget.written? = d.written? := by
  cases d with
  | call c => rfl
  | clause c => exact c.written?_forget
  | statement s => exact s.written?_forget

theorem Coherent.forget_afterRead (coherent : d.Coherent) : d.afterRead.forget = d.forget := by
  cases d with
  | call c => rfl
  | clause c => exact congrArg clause c.forget_afterRead
  | statement s => exact congrArg statement (Statement.Coherent.forget_read coherent)

end Document

/-! ### Runs -/

/-- What is done at a desk, each time to the document at one place. -/
inductive Step
  | change (place : Nat) (edit : Document.Edit)
  | read (place : Nat)
  | readPart (place : Nat) (kind : ClauseKind)
  | copy (place : Nat)
  deriving DecidableEq

/-- How documents and the clauses inside them are read: the answers of reads that succeed, and
what reads leave behind. -/
structure Reader where
  text? : Document → Option String
  afterRead : Document → Document
  partText? : Clause → Option String
  afterPartRead : ClauseKind → Document → Document

namespace Reader

/-- Lays every text out from the contents, and remembers nothing. -/
def fresh : Reader where
  text? := Document.written?
  afterRead d := d
  partText? := Clause.written?
  afterPartRead _ d := d

/-- One step at a desk: its answer, if it is a read that succeeds, and the desk it leaves. A copy
is put behind everything else and keeps what the original remembers. -/
def step (r : Reader) (desk : List Document) : Step → Option String × List Document
  | .change place edit => (none, desk.modify place (Document.change edit))
  | .read place => (desk[place]?.bind r.text?, desk.modify place r.afterRead)
  | .readPart place kind =>
    ((desk[place]?.bind (Document.part? kind)).bind r.partText?,
      desk.modify place (r.afterPartRead kind))
  | .copy place => (none, desk ++ desk[place]?.toList)

/-- A run at a desk: the answers of all its steps, and the desk it leaves. -/
def run (r : Reader) (desk : List Document) : List Step → List (Option String) × List Document
  | [] => ([], desk)
  | step :: steps =>
    let (answer, next) := r.step desk step
    let (answers, last) := r.run next steps
    (answer :: answers, last)

end Reader

end SqlBuilder
