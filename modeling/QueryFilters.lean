import QueryFilters.Text.Blank
import QueryFilters.Text.Ranges
import QueryFilters.Text.Printable
import QueryFilters.Text.GraphemeExtend
import QueryFilters.Text.Debug
import QueryFilters.Keyed
import QueryFilters.Decimal.Shortest
import QueryFilters.Decimal.Read
import QueryFilters.Json.Basic
import QueryFilters.Json.Print
import QueryFilters.Json.Read
import QueryFilters.Json.Skim
import QueryFilters.Error
import QueryFilters.Tuple.Split
import QueryFilters.Tuple.Basic
import QueryFilters.Function.Parameter
import QueryFilters.Function.Handle
import QueryFilters.Function.Registry
import QueryFilters.Filter.Basic
import QueryFilters.Query.Pass
import QueryFilters.Query.Invocation
import QueryFilters.Query.Shape
import QueryFilters.Query.Read
import QueryFilters.Target
import QueryFilters.Backend
import QueryFilters.Apply
import QueryFilters.Engine
import QueryFilters.Encode
import QueryFilters.Config
import QueryFilters.Proofs.Registry
import QueryFilters.Proofs.Pass
import QueryFilters.Proofs.Recognition
import QueryFilters.Proofs.Dispatch
import QueryFilters.Proofs.Parts
import QueryFilters.Proofs.KeyOrder
import QueryFilters.Proofs.Firing
import QueryFilters.Proofs.Blocks
import QueryFilters.Proofs.TupleText
import QueryFilters.Proofs.TupleGrammar
import QueryFilters.Proofs.TupleValues
import QueryFilters.Proofs.Syntaxes
import QueryFilters.Proofs.Registration
import QueryFilters.Proofs.Execution
import QueryFilters.Proofs.SurfaceForms
import QueryFilters.Proofs.Writing
import QueryFilters.Proofs.PreparedValues
import QueryFilters.Proofs.Ranking
import QueryFilters.Proofs.ExplicitInvocation
import QueryFilters.Proofs.DeclaredFunctions
import QueryFilters.Proofs.BareColumns
