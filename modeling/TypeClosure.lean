import TypeClosure.Closure.Basic
import TypeClosure.Closure.Build
import TypeClosure.Closure.Follow
import TypeClosure.Closure.Resolution
import TypeClosure.Closure.Worklist
import TypeClosure.Command.Arguments
import TypeClosure.Command.Help
import TypeClosure.Command.Run
import TypeClosure.Config.Basic
import TypeClosure.Config.Json
import TypeClosure.Config.Search
import TypeClosure.Contents
import TypeClosure.Declaration.Markers
import TypeClosure.Declaration.References
import TypeClosure.Declaration.Table
import TypeClosure.Failure
import TypeClosure.FileTree.Basic
import TypeClosure.FileTree.Path
import TypeClosure.Glob.Expansion
import TypeClosure.Glob.Pattern
import TypeClosure.Grammar.Basic
import TypeClosure.Grammar.Declaration
import TypeClosure.Grammar.Element
import TypeClosure.Grammar.Expression
import TypeClosure.Grammar.Function
import TypeClosure.Grammar.Module
import TypeClosure.Grammar.Statement
import TypeClosure.Grammar.Type
import TypeClosure.Json.Reader
import TypeClosure.Json.Value
import TypeClosure.Listing
import TypeClosure.Main
import TypeClosure.Outline
import TypeClosure.Proofs.Accounting
import TypeClosure.Proofs.Chains
import TypeClosure.Proofs.Collection
import TypeClosure.Proofs.Combination
import TypeClosure.Proofs.CrossFile
import TypeClosure.Proofs.Demand
import TypeClosure.Proofs.Depth
import TypeClosure.Proofs.Failures
import TypeClosure.Proofs.FileClosure
import TypeClosure.Proofs.FileTree.Parent
import TypeClosure.Proofs.FileTree.Resolution
import TypeClosure.Proofs.FileTree.Segments
import TypeClosure.Proofs.FileTree.Walk
import TypeClosure.Proofs.Following
import TypeClosure.Proofs.Footprint
import TypeClosure.Proofs.Freshness
import TypeClosure.Proofs.PublicNames
import TypeClosure.Proofs.Reachability
import TypeClosure.Proofs.Relisting
import TypeClosure.Proofs.Restriction
import TypeClosure.Proofs.RootOrder
import TypeClosure.Proofs.Spelling
import TypeClosure.Proofs.Targets
import TypeClosure.Proofs.Termination
import TypeClosure.Proofs.Worklist
import TypeClosure.Reexport
import TypeClosure.Report.Data
import TypeClosure.Report.Elapsed
import TypeClosure.Report.Names
import TypeClosure.Report.Span
import TypeClosure.Report.Tree
import TypeClosure.Source
import TypeClosure.Syntax.Scan
import TypeClosure.Syntax.Token
import TypeClosure.Text.Blank
import TypeClosure.Text.Cursor
import TypeClosure.Text.Hex
import TypeClosure.Text.Identifier
import TypeClosure.Proofs.Respelling
import TypeClosure.Proofs.TreeShape
import TypeClosure.Proofs.Grammar.Declaration
import TypeClosure.Proofs.Grammar.Module
import TypeClosure.Proofs.LocalTypes
import TypeClosure.Proofs.TreeReport
import TypeClosure.Proofs.SummaryCounts
import TypeClosure.Proofs.CommandLines
import TypeClosure.Proofs.TaskFootprint
import TypeClosure.Proofs.Presentation
import TypeClosure.Proofs.Sessions
import TypeClosure.Proofs.Extraction
import TypeClosure.Proofs.Iteration
import TypeClosure.Proofs.DiscoveryOrder
import TypeClosure.Proofs.FileByFile
import TypeClosure.Proofs.Grammar.ExportPlaces
import TypeClosure.Proofs.ModuleExports
import TypeClosure.Proofs.Forwarding
import TypeClosure.Proofs.PathExpansion
import TypeClosure.Proofs.PropertyTypes
import TypeClosure.Proofs.Grammar.DeclarationOrder
import TypeClosure.Proofs.SourceOrder
import TypeClosure.Proofs.FileTree.Components
import TypeClosure.Proofs.ConfigSearch
import TypeClosure.Proofs.ModuleLookup
import TypeClosure.Proofs.DefaultRoots
import TypeClosure.Proofs.FileTree.Destination
import TypeClosure.Proofs.Glob.Pattern
import TypeClosure.Proofs.Glob.Search
import TypeClosure.Proofs.Glob.OwnPaths
import TypeClosure.Proofs.GivenPaths
import TypeClosure.Proofs.Colours
import TypeClosure.Proofs.Json.Grammar
import TypeClosure.Proofs.Json.Reading
import TypeClosure.Proofs.TableIndex
import TypeClosure.Proofs.Json.Skipping
import TypeClosure.Proofs.Json.Writing
import TypeClosure.Proofs.ConfigReading
import TypeClosure.Proofs.Json.Unambiguous
import TypeClosure.Proofs.TreeData
