import TypedTables.Config.Reader
import TypedTables.Database.Command
import TypedTables.Proofs.Column.Searches
import TypedTables.Proofs.Condition.ConditionGrammar
import TypedTables.Proofs.Condition.JoinGrammar
import TypedTables.Proofs.Condition.Ordering
import TypedTables.Proofs.Condition.WholeNumbers
import TypedTables.Proofs.Database.Isolation
import TypedTables.Proofs.Query.Lookups
import TypedTables.Proofs.Query.OneCondition
import TypedTables.Proofs.Query.Planning
import TypedTables.Proofs.Query.Renderings
import TypedTables.Proofs.Query.TypedAnswers
import TypedTables.Proofs.Row.Outcomes
import TypedTables.Proofs.Row.WrittenBack
import TypedTables.Proofs.Schema.Description
import TypedTables.Proofs.Schema.Faults
import TypedTables.Proofs.Table.CountingNumbers
import TypedTables.Proofs.Table.FreshIds
import TypedTables.Proofs.Value.Chronology
import TypedTables.Proofs.Value.Preorder
