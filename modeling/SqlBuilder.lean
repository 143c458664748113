import SqlBuilder.Catalog.Basic
import SqlBuilder.Command.Batcher
import SqlBuilder.Expr.Alias
import SqlBuilder.Expr.Fold
import SqlBuilder.Param.Binding
import SqlBuilder.Param.Summary
import SqlBuilder.Proofs.Catalog.Naming
import SqlBuilder.Proofs.Clause.Columns
import SqlBuilder.Proofs.Clause.Conditions
import SqlBuilder.Proofs.Clause.Directions
import SqlBuilder.Proofs.Clause.Joins
import SqlBuilder.Proofs.Clause.Placement
import SqlBuilder.Proofs.Command.Batching
import SqlBuilder.Proofs.Command.Recutting
import SqlBuilder.Proofs.Command.Refusal
import SqlBuilder.Proofs.Command.Settings
import SqlBuilder.Proofs.Expr.Journal
import SqlBuilder.Proofs.Ident.Grammar
import SqlBuilder.Proofs.Ident.RoundTrip
import SqlBuilder.Proofs.Memo.Desk
import SqlBuilder.Proofs.Operator.Operands
import SqlBuilder.Proofs.Operator.Tree
import SqlBuilder.Proofs.Param.Coverage
import SqlBuilder.Proofs.Param.Position
import SqlBuilder.Proofs.Param.Recipe
import SqlBuilder.Proofs.Session.Events
import SqlBuilder.Proofs.Statement.Interleaving
import SqlBuilder.Proofs.Token.Containment
import SqlBuilder.Proofs.Token.Template
import SqlBuilder.Proofs.Session.Lagging
import SqlBuilder.Proofs.Session.Refused
