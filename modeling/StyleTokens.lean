import StyleTokens.Ordered
import StyleTokens.Roster
import StyleTokens.Binary64.Text
import StyleTokens.Text.Case
import StyleTokens.Text.Blank
import StyleTokens.Text.Placeholder
import StyleTokens.Naming
import StyleTokens.Doc
import StyleTokens.Json.Printer
import StyleTokens.Json.Reader
import StyleTokens.Violation
import StyleTokens.Token
import StyleTokens.Token.Record
import StyleTokens.Token.References
import StyleTokens.Report
import StyleTokens.Log
import StyleTokens.Text.Utf8
import StyleTokens.Failure
import StyleTokens.Export.Assembly
import StyleTokens.Validation
import StyleTokens.Pipeline
import StyleTokens.Path
import StyleTokens.FileTree
import StyleTokens.Output
import StyleTokens.Yaml
import StyleTokens.Source
import StyleTokens.BuildConfig
import StyleTokens.Build
import StyleTokens.Success
import StyleTokens.Tool
import StyleTokens.CommandLine
import StyleTokens.Yaml.Tokens
import StyleTokens.Main
import StyleTokens.Proofs.LastEntries
import StyleTokens.Proofs.RecordedTables
import StyleTokens.Proofs.ReferenceCycles
import StyleTokens.Proofs.ShortenedPlaceholders
import StyleTokens.Proofs.ValidRecords
import StyleTokens.Proofs.BuiltTables
import StyleTokens.Proofs.JsonDocuments
import StyleTokens.Proofs.CollectionTables
import StyleTokens.Proofs.TreeLeaves
import StyleTokens.Proofs.NestedReferences
import StyleTokens.Proofs.NestedCycles
import StyleTokens.Proofs.CheckedSources
import StyleTokens.Proofs.NearestDoubles
import StyleTokens.Proofs.DecimalTexts
import StyleTokens.Proofs.JsonTexts
import StyleTokens.Proofs.TableFiles
import StyleTokens.Proofs.LosslessCollections
import StyleTokens.Proofs.BundlePaths
import StyleTokens.Proofs.ContainedOutput
import StyleTokens.Proofs.FailedBuilds
import StyleTokens.Proofs.RefusedTables
import StyleTokens.Proofs.FaultlessRuns
import StyleTokens.Proofs.AccountedReferences
import StyleTokens.Proofs.RevalidatedTables
import StyleTokens.Proofs.ClosedBundles
import StyleTokens.Proofs.IndexedNames
import StyleTokens.Proofs.ThemeClasses
import StyleTokens.Proofs.ListedBrands
import StyleTokens.Proofs.IndependentThemes
import StyleTokens.Proofs.ExactCycles
import StyleTokens.Proofs.ScannedPlaceholders
import StyleTokens.Proofs.FlatTrees
import StyleTokens.Proofs.ReportedReferences
import StyleTokens.Proofs.CheckedParts
import StyleTokens.Proofs.SettledCollections
import StyleTokens.Proofs.ReadDocuments
import StyleTokens.Proofs.TableGrammar
import StyleTokens.Proofs.RereadTables
import StyleTokens.Proofs.ReportedTypes
import StyleTokens.Proofs.RefusedTargets
import StyleTokens.Proofs.WrittenFiles
import StyleTokens.Proofs.QuotedLiterals
import StyleTokens.Proofs.TokenExports
import StyleTokens.Proofs.ExportedNames
import StyleTokens.Proofs.RenderedValues
import StyleTokens.Proofs.MappedUtilities
import StyleTokens.Proofs.CountedCycles
import StyleTokens.Proofs.KeptLetters
import StyleTokens.Proofs.HyphenatedNames
