import OrderStore.Proofs.Log.Setup
import OrderStore.Session
import OrderStore.Proofs.Storage.Operation
import OrderStore.Proofs.Storage.Saving
import OrderStore.Proofs.Storage.Atomicity
import OrderStore.Proofs.Json.RoundTrip
import OrderStore.Proofs.Value.Plain
import OrderStore.Proofs.Calendar.StoredText
import OrderStore.Proofs.Storage.StoredRow
import OrderStore.Proofs.Except
import OrderStore.Proofs.Assoc
import OrderStore.Proofs.Order.Derived
import OrderStore.Proofs.Storage.Rows
import OrderStore.Proofs.Value.Integer
import OrderStore.Proofs.Storage.Ledger
import OrderStore.Proofs.Storage.Refinement
import OrderStore.Proofs.Sql.Template
import OrderStore.Proofs.Sql.Parameter
import OrderStore.Proofs.Sql.Predicate
import OrderStore.Proofs.Sql.Clauses
import OrderStore.Proofs.Sql.TableName
import OrderStore.Proofs.Sql.BoundNames
import OrderStore.Proofs.Sql.Binding
import OrderStore.Proofs.Sql.Grammar
import OrderStore.Proofs.Sql.Tokens
import OrderStore.Proofs.Sql.Reading
import OrderStore.Proofs.Query.Built
import OrderStore.Proofs.Sql.Meaning
import OrderStore.Proofs.Sql.Selection
import OrderStore.Proofs.Storage.SaveRun
import OrderStore.Proofs.Storage.SideTables
import OrderStore.Proofs.Storage.NumberedRows
import OrderStore.Proofs.Json.Reload
import OrderStore.Proofs.Storage.Resave
import OrderStore.Proofs.Sql.Shape
import OrderStore.Proofs.Storage.IssuedTexts
import OrderStore.Proofs.Order.Equality
import OrderStore.Proofs.Number.DecimalText
import OrderStore.Proofs.Storage.EventTrail
import OrderStore.Proofs.Storage.CallTrace
import OrderStore.Proofs.Order.Obtained
import OrderStore.Proofs.Order.Lossless
import OrderStore.Proofs.Sql.Conjunction
import OrderStore.Proofs.Query.Rebuild
import OrderStore.Proofs.Query.Calls
import OrderStore.Proofs.Query.LastWriter
import OrderStore.Proofs.Query.Cleared
import OrderStore.Proofs.Query.FilterMaps
import OrderStore.Proofs.Storage.Identity
import OrderStore.Proofs.Json.Retraction
import OrderStore.Proofs.Storage.FilterMatch
import OrderStore.Proofs.Sql.NameGrammar
import OrderStore.Proofs.Storage.NamesInTexts
import OrderStore.Proofs.Query.WellFormed
import OrderStore.Proofs.Sql.SameFilter
import OrderStore.Proofs.Sql.Statement
import OrderStore.Proofs.Sql.Ordering
import OrderStore.Proofs.Sql.Paging
import OrderStore.Proofs.Storage.PageAndTotal
import OrderStore.Proofs.Order.Normal
import OrderStore.Proofs.Value.Number
import OrderStore.Proofs.Order.Changes
import OrderStore.Proofs.Order.Chain
import OrderStore.Proofs.Calendar.DayNumber
import OrderStore.Proofs.Calendar.Instant
import OrderStore.Proofs.Text.Trim
import OrderStore.Proofs.Calendar.IsoText
import OrderStore.Proofs.Number.Compare
import OrderStore.Proofs.Number.NaNText
import OrderStore.Proofs.Value.Amount
import OrderStore.Proofs.Order.Amount
import OrderStore.Proofs.Query.Amount
import OrderStore.Proofs.Pool.Moves
import OrderStore.Proofs.Pool.Turns
import OrderStore.Proofs.Pool.TwoStates
import OrderStore.Proofs.Pool.Lifetime
import OrderStore.Proofs.Value.Encodable
import OrderStore.Proofs.Json.Place
import OrderStore.Proofs.Json.Taken
import OrderStore.Proofs.Json.Grammar
import OrderStore.Proofs.Storage.LenientDocuments
import OrderStore.Proofs.Sql.SchemaNames
