import FormulaEngine.Evaluation.Projection
import FormulaEngine.Proofs.Evaluation.CallOrder
import FormulaEngine.Proofs.Evaluation.Editing
import FormulaEngine.Proofs.Evaluation.SilentScope
import FormulaEngine.Proofs.Evaluation.Substitution
import FormulaEngine.Proofs.Expression.Building
import FormulaEngine.Proofs.Expression.Commutation
import FormulaEngine.Proofs.Expression.Equality
import FormulaEngine.Proofs.Expression.Recursion
import FormulaEngine.Proofs.Expression.Replacement
import FormulaEngine.Proofs.Expression.Sharing
import FormulaEngine.Proofs.Evaluation.Question
import FormulaEngine.Proofs.Evaluation.ReferenceArgument
import FormulaEngine.Proofs.Evaluation.HostFailure
import FormulaEngine.Proofs.Evaluation.Shadowing
import FormulaEngine.Proofs.Evaluation.Termination
import FormulaEngine.Proofs.Evaluation.ResultKind
import FormulaEngine.Proofs.Decimal.Rounding
import FormulaEngine.Proofs.Decimal.Order
import FormulaEngine.Proofs.Number.Exactness
import FormulaEngine.Proofs.Evaluation.Comparison
import FormulaEngine.Proofs.Number.Wrapping
import FormulaEngine.Proofs.Number.Squaring
import FormulaEngine.Proofs.Number.Scale
import FormulaEngine.Proofs.Number.Power
import FormulaEngine.Proofs.Number.PowerError
import FormulaEngine.Proofs.Number.Quotient
import FormulaEngine.Proofs.Number.Budget
import FormulaEngine.Proofs.Number.TotalOrder
import FormulaEngine.Proofs.Expression.Skipping
import FormulaEngine.Proofs.Evaluation.Preparation
import FormulaEngine.Proofs.Number.Relation
import FormulaEngine.Proofs.Evaluation.NumberArgument
import FormulaEngine.Proofs.Evaluation.BareReference
import FormulaEngine.Proofs.Formula.Arity
import FormulaEngine.Proofs.Evaluation.Binding
import FormulaEngine.Proofs.Evaluation.Concatenation
import FormulaEngine.Proofs.Value.Conversion
import FormulaEngine.Proofs.Value.RoundTrip
import FormulaEngine.Proofs.Evaluation.Rearrangement
import FormulaEngine.Proofs.Evaluation.PureRun
import FormulaEngine.Proofs.Context.PurityQuery
import FormulaEngine.Proofs.Expression.Numbering
import FormulaEngine.Proofs.Number.GuardDigits
