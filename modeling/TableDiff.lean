import TableDiff.Comparison
import TableDiff.Condition
import TableDiff.Config.Toml
import TableDiff.Proofs.AnyOrder.AllOrNothing
import TableDiff.Proofs.AnyOrder.Budget
import TableDiff.Proofs.AnyOrder.Compatibility
import TableDiff.Proofs.AnyOrder.Forced
import TableDiff.Proofs.AnyOrder.Greedy
import TableDiff.Proofs.AnyOrder.Kinds
import TableDiff.Proofs.AnyOrder.Matching
import TableDiff.Proofs.AnyOrder.Ranks
import TableDiff.Proofs.AnyOrder.RowOrder
import TableDiff.Proofs.AnyOrder.Symmetric
import TableDiff.Proofs.AnyOrder.Verdict
import TableDiff.Proofs.Assignment
import TableDiff.Proofs.Assignment.Calls
import TableDiff.Proofs.Assignment.MostConstrained
import TableDiff.Proofs.Budget
import TableDiff.Proofs.Cells
import TableDiff.Proofs.Columns
import TableDiff.Proofs.Columns.Arrangement
import TableDiff.Proofs.Columns.Faults
import TableDiff.Proofs.Columns.Lines
import TableDiff.Proofs.Columns.NameCheck
import TableDiff.Proofs.Columns.Names
import TableDiff.Proofs.Columns.Partners
import TableDiff.Proofs.Columns.Repeated
import TableDiff.Proofs.Columns.Symmetric
import TableDiff.Proofs.DiffLine
import TableDiff.Proofs.Fallible
import TableDiff.Proofs.IndexSet.FiniteSet
import TableDiff.Proofs.KeyColumns
import TableDiff.Proofs.KeyGroups
import TableDiff.Proofs.KeyGroups.KeyCells
import TableDiff.Proofs.KeyGroups.Keywise
import TableDiff.Proofs.KeyGroups.RowOrder
import TableDiff.Proofs.KeyGroups.Symmetric
import TableDiff.Proofs.KeyGroups.Verdict
import TableDiff.Proofs.Literal.Conversion
import TableDiff.Proofs.Literal.Equivalence
import TableDiff.Proofs.Literal.SameType
import TableDiff.Proofs.Literal.Survival
import TableDiff.Proofs.Number.Exact
import TableDiff.Proofs.Number.FifteenDigits
import TableDiff.Proofs.Number.Nearest
import TableDiff.Proofs.Number.RoundingError
import TableDiff.Proofs.Number.ShortDecimals
import TableDiff.Proofs.Number.WholeNumbers
import TableDiff.Proofs.Outcome
import TableDiff.Proofs.Outcome.Budget
import TableDiff.Proofs.Outcome.ByName
import TableDiff.Proofs.Outcome.Faults
import TableDiff.Proofs.Outcome.Reflexive
import TableDiff.Proofs.Outcome.Relaxed
import TableDiff.Proofs.Outcome.RowCount
import TableDiff.Proofs.Outcome.RowModes
import TableDiff.Proofs.Outcome.RowOrder
import TableDiff.Proofs.Outcome.RowPermutation
import TableDiff.Proofs.Outcome.Symmetric
import TableDiff.Proofs.Pairing
import TableDiff.Proofs.Pairing.Alignment
import TableDiff.Proofs.Pairing.Built
import TableDiff.Proofs.Pairing.InTurn
import TableDiff.Proofs.PerfectMatching
import TableDiff.Proofs.PerfectMatching.Kinds
import TableDiff.Proofs.PerfectMatching.Unique
import TableDiff.Proofs.Reflexive
import TableDiff.Proofs.RowMatch
import TableDiff.Proofs.Table
import TableDiff.Proofs.Table.Acceptance
import TableDiff.Proofs.Table.RowOrder
import TableDiff.Proofs.Table.Runs
import TableDiff.Proofs.Tally
import TableDiff.Text.Quoted
