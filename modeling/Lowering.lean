import Lowering.Cli
import Lowering.Decimal.Shortest
import Lowering.Error
import Lowering.Ir.Arena
import Lowering.Ir.Basic
import Lowering.Ir.Json
import Lowering.Ir.Model
import Lowering.Ir.Order
import Lowering.Ir.Script
import Lowering.Json.Error
import Lowering.Json.Number
import Lowering.Json.Reader
import Lowering.Json.Reader.Text
import Lowering.Json.Reader.Tree
import Lowering.Json.Scan
import Lowering.Json.Value
import Lowering.Json.Write
import Lowering.Main
import Lowering.Options
import Lowering.Pass.Assemble
import Lowering.Pass.Bindings
import Lowering.Pass.BodyCache
import Lowering.Pass.Lower
import Lowering.Pass.Splice
import Lowering.Request.Answer
import Lowering.Request.Basic
import Lowering.Request.Script
import Lowering.Session
import Lowering.Source.Edge
import Lowering.Source.Graph
import Lowering.Source.Json
import Lowering.Tensor.Basic
import Lowering.Tensor.Json
import Lowering.Text.Quoted
import Lowering.Translator.Context
import Lowering.Translator.Kind
import Lowering.Proofs.Hoare
import Lowering.Proofs.Bindings
import Lowering.Proofs.WellFormed
import Lowering.Proofs.Splice
import Lowering.Proofs.Translator
import Lowering.Proofs.Arrange
import Lowering.Proofs.PassInvariant
import Lowering.Proofs.Consistency
import Lowering.Proofs.Agreement
import Lowering.Proofs.CacheBlind
import Lowering.Proofs.Parameters
import Lowering.Proofs.CacheTransparency
import Lowering.Proofs.CacheCounts
import Lowering.Proofs.FedResults
import Lowering.Proofs.EdgeDirection
import Lowering.Proofs.SearchOrder
import Lowering.Proofs.Spliceable
import Lowering.Proofs.UnreadResults
import Lowering.Proofs.FailureLabels
import Lowering.Proofs.FailedTranslators
import Lowering.Proofs.EdgeText
import Lowering.Proofs.SpliceEffect
import Lowering.Proofs.StandInOutputs
import Lowering.Proofs.OutputGroups
import Lowering.Proofs.TerminalResults
import Lowering.Proofs.NamesBoundOnce
import Lowering.Proofs.EntriesKept
import Lowering.Proofs.ArenaRefinement
import Lowering.Proofs.ShapeJson
