import SearchJoin.Backend.Script
import SearchJoin.Http.Client
import SearchJoin.Json.Parser
import SearchJoin.Logging.Filter
import SearchJoin.Logging.Start
import SearchJoin.Plan
import SearchJoin.Settings.Environment
import SearchJoin.Statement.Codec.Join
import SearchJoin.Proofs.Backend.Session
import SearchJoin.Proofs.Join.EquiJoin
import SearchJoin.Proofs.Join.Batches
import SearchJoin.Proofs.Join.Nesting
import SearchJoin.Proofs.Predicate.Truth
import SearchJoin.Proofs.Query.Selection
import SearchJoin.Proofs.Predicate.Pattern
import SearchJoin.Proofs.Query.Meaning
import SearchJoin.Proofs.Predicate.Escapes
import SearchJoin.Proofs.Number.Exact
import SearchJoin.Proofs.Number.Rounding
import SearchJoin.Proofs.Number.Order
import SearchJoin.Proofs.Join.Binding
import SearchJoin.Proofs.Join.KeyPart
import SearchJoin.Proofs.Join.Requests
import SearchJoin.Proofs.Join.Agreement
import SearchJoin.Proofs.Join.Projection
import SearchJoin.Proofs.Join.BatchFailure
import SearchJoin.Proofs.Predicate.Folding
import SearchJoin.Proofs.Predicate.Residual
import SearchJoin.Proofs.Query.Compiles
import SearchJoin.Proofs.Join.Checked
import SearchJoin.Proofs.Join.EarlyFaults
import SearchJoin.Proofs.Statement.Written
import SearchJoin.Proofs.Join.Explained
import SearchJoin.Proofs.Join.Retryable
import SearchJoin.Proofs.Join.Limit
import SearchJoin.Proofs.Join.BoundTest
import SearchJoin.Proofs.Predicate.Literals
import SearchJoin.Proofs.Join.Orientation
import SearchJoin.Proofs.Join.Probe
import SearchJoin.Proofs.Join.Reads
import SearchJoin.Proofs.Join.SubQuery
import SearchJoin.Proofs.Predicate.Formula
import SearchJoin.Proofs.Join.Scoping
import SearchJoin.Proofs.Query.WellFormed
import SearchJoin.Proofs.Query.Parts
import SearchJoin.Proofs.Join.Traffic
import SearchJoin.Proofs.Join.RowNames
import SearchJoin.Proofs.Join.RowFields
import SearchJoin.Proofs.Statement.HintText
import SearchJoin.Proofs.Join.Sizes
import SearchJoin.Proofs.Text.Blank
import SearchJoin.Proofs.Text.Digits
import SearchJoin.Proofs.Statement.HintList
import SearchJoin.Proofs.Statement.HintSpelling
import SearchJoin.Proofs.Number.Nearest
import SearchJoin.Proofs.Number.Reading
import SearchJoin.Proofs.Json.Scan
import SearchJoin.Proofs.Json.Reading
import SearchJoin.Proofs.Http.MultiSearch
import SearchJoin.Proofs.Json.Equality
import SearchJoin.Proofs.Query.Rendering
import SearchJoin.Proofs.Join.FirstSeen
import SearchJoin.Proofs.Join.KeyIndex
import SearchJoin.Proofs.Join.Rekeying
import SearchJoin.Proofs.Predicate.Grid
