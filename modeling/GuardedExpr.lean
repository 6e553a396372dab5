import GuardedExpr.Expr.Display
import GuardedExpr.Proofs.Admission.Disorder
import GuardedExpr.Proofs.Engine.Ledger
import GuardedExpr.Proofs.Expr.Unbounded
import GuardedExpr.Proofs.Host.Confinement
import GuardedExpr.Proofs.Host.Noninterference
import GuardedExpr.Proofs.Host.Path
import GuardedExpr.Proofs.Parse.Composition
import GuardedExpr.Proofs.Parse.Names
import GuardedExpr.Proofs.Parse.Spacing
import GuardedExpr.Proofs.Recency.Inclusion
import GuardedExpr.Proofs.Token.Quotation
import GuardedExpr.Proofs.Token.Rendering
import GuardedExpr.Proofs.Token.Screening
import GuardedExpr.Proofs.Token.Spelling
import GuardedExpr.Proofs.Admission.Window
import GuardedExpr.Proofs.Expr.Lexemes
import GuardedExpr.Proofs.Expr.Hoisted
import GuardedExpr.Proofs.Parse.Reparse
import GuardedExpr.Proofs.Decimal.Interval
import GuardedExpr.Proofs.Value.Sign
import GuardedExpr.Proofs.Decimal.Numeral
import GuardedExpr.Proofs.Decimal.Writing
import GuardedExpr.Proofs.Parse.Grouping
import GuardedExpr.Proofs.Parse.Size
import GuardedExpr.Proofs.Token.Limits
import GuardedExpr.Proofs.Engine.Lines
import GuardedExpr.Proofs.Parse.Earliest
import GuardedExpr.Proofs.Host.Restored
import GuardedExpr.Proofs.Expr.Reuse
import GuardedExpr.Proofs.Settings.Lines
import GuardedExpr.Proofs.Value.Equality
import GuardedExpr.Proofs.Value.Order
import GuardedExpr.Proofs.Host.Keys
import GuardedExpr.Proofs.Decimal.Whole
import GuardedExpr.Proofs.Expr.Access
import GuardedExpr.Proofs.Decimal.Reading
import GuardedExpr.Proofs.Parse.Numerals
import GuardedExpr.Proofs.Token.Culprit
import GuardedExpr.Proofs.Parse.Recursion
import GuardedExpr.Proofs.Parse.Globals
