import SemanticLayer.Text.Blank
import SemanticLayer.Text.Word
import SemanticLayer.Text.Substitution
import SemanticLayer.Text.Quoted
import SemanticLayer.Text.Numeral
import SemanticLayer.Member
import SemanticLayer.Schema
import SemanticLayer.Decimal
import SemanticLayer.Dictionary
import SemanticLayer.Query
import SemanticLayer.Error
import SemanticLayer.Json.Value
import SemanticLayer.Json.Printer
import SemanticLayer.Json.Reader
import SemanticLayer.Json.Decoder
import SemanticLayer.Codec.Schema
import SemanticLayer.Codec.Query
import SemanticLayer.Codec.Resolution
import SemanticLayer.Join.Declaration
import SemanticLayer.Join.Graph
import SemanticLayer.Join.Path
import SemanticLayer.Join.Chain
import SemanticLayer.Join.Combine
import SemanticLayer.Statement.Predicate
import SemanticLayer.Statement.Condition
import SemanticLayer.Statement.Select
import SemanticLayer.Statement.Compile
import SemanticLayer.Resolution.Config
import SemanticLayer.Resolution.Lookup
import SemanticLayer.Resolution.RowId
import SemanticLayer.Resolution.Override
import SemanticLayer.Resolution.Alias
import SemanticLayer.Resolution.Compiler
import SemanticLayer.Resolution.Phase
import SemanticLayer.Resolution.Pipeline
import SemanticLayer.Toml.Value
import SemanticLayer.Toml.Scalar
import SemanticLayer.Toml.Text
import SemanticLayer.Toml.Reader
import SemanticLayer.Settings
import SemanticLayer.CommandLine.Arguments
import SemanticLayer.CommandLine.Help
import SemanticLayer.CommandLine.Run
import SemanticLayer.Main
import SemanticLayer.Proofs.Text
import SemanticLayer.Proofs.Names
import SemanticLayer.Proofs.Calling
import SemanticLayer.Proofs.Headings
import SemanticLayer.Proofs.SelectList
import SemanticLayer.Proofs.Base
import SemanticLayer.Proofs.Declaration
import SemanticLayer.Proofs.Dictionary
import SemanticLayer.Proofs.Lookups
import SemanticLayer.Proofs.LookupJoins
import SemanticLayer.Proofs.LookupChain
import SemanticLayer.Proofs.JoinCall
import SemanticLayer.Proofs.References
import SemanticLayer.Proofs.Runs
import SemanticLayer.Proofs.Calls
import SemanticLayer.Proofs.PhaseColumns
import SemanticLayer.Proofs.ArrayColumns
import SemanticLayer.Proofs.AliasMap
import SemanticLayer.Proofs.OutputNames
import SemanticLayer.Proofs.BaseReferences
import SemanticLayer.Proofs.BaseSelect
import SemanticLayer.Proofs.Filters
import SemanticLayer.Proofs.FilterMeaning
import SemanticLayer.Proofs.CallProtocol
import SemanticLayer.Proofs.ConfigAgreement
import SemanticLayer.Proofs.ConfigSpelling
import SemanticLayer.Proofs.DottedNames
import SemanticLayer.Proofs.Codec
import SemanticLayer.Proofs.RequestJson
import SemanticLayer.Proofs.GraphRuns
import SemanticLayer.Proofs.GraphBuild
import SemanticLayer.Proofs.JoinChains
import SemanticLayer.Proofs.JoinedTables
import SemanticLayer.Proofs.Acceptance
import SemanticLayer.Proofs.Pruning
import SemanticLayer.Proofs.ChainText
import SemanticLayer.Proofs.ChainScope
import SemanticLayer.Proofs.Cycles
import SemanticLayer.Proofs.Grouping
import SemanticLayer.Proofs.Literals
import SemanticLayer.Proofs.Flattening
import SemanticLayer.Proofs.Overrides
import SemanticLayer.Proofs.WordReplacement
import SemanticLayer.Proofs.OverrideReferences
import SemanticLayer.Proofs.RestoredAliases
import SemanticLayer.Proofs.RowOrder
import SemanticLayer.Proofs.SafeKeys
