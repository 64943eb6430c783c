import Hades.ExitLoop
import Hades.InPlaceSort
import Hades.OnlineMoments
import Hades.BenchmarkResult
import Hades.StatsAccumulator
import Hades.SliceLoop
import Hades.LevelRuns
import Hades.RingBuffer
import Hades.StopReasons
import Hades.Configuration
import Hades.SequentialRunner
import Hades.DecimalText
import Hades.EscapedText
import Hades.Utf8
import Hades.JsonText
import Hades.TomlIO
import Hades.SuiteToml
import Hades.Lines
import Hades.TomlWriting
import Hades.Sections
import Hades.TomlBlocks
import Hades.SuiteRoundTrip
import Hades.RegistryIO
import Hades.RegistryRoundTrip
import Hades.RegistrySections
import Hades.AppendLaw
import Hades.SuiteMapping
import Hades.Codegen
import Hades.EmittedLiterals
import Hades.EmittedConfig
import Hades.BoundedLoop
import Hades.WildcardMatch
import Hades.GeneratedProgram
import Hades.EmittedRegistration
import Hades.JsonReport
import Hades.Reselection
import Hades.SuiteNames
import Hades.SuiteContext
import Hades.RunCommand
import Hades.RunModes
import Hades.NewTest
import Hades.SuiteHistory
import Hades.LongestRun
import Hades.SliceFates
import Hades.RunWideCounts
import Hades.KeyedStore
import Hades.RegressionAnalyzer
import Hades.SuiteEndings
import Hades.TraceMarks
import Hades.SuiteTrace
import Hades.LexicalPath
import Hades.SuiteMarker
import Hades.NewTestPlan
import Hades.ManifestIds
import Hades.StubHistories
import Hades.CMakeLists
import Hades.Series
import Hades.ValidateCommand
import Hades.SliceHashes
import Hades.Glob
import Hades.WildcardLanguage
import Hades.JitterWindow
import Hades.LevelWindows
import Hades.LoneDiscards
import Hades.DiscardAllowance
import Hades.RegressionOrder
import Hades.QuotedStrings
import Hades.TypeNames
import Hades.CommentedLines
import Hades.CallHistories
import Hades.CheckedArray
import Hades.Binary64
import Hades.CheckedMedian
import Hades.TimeLimits
import Hades.FixtureCalls
import Hades.FixtureContract
import Hades.Clocks
import Hades.RunTime
import Hades.SignificantText
import Hades.Storage
import Hades.JsonStorage
import Hades.HashAccumulators
import Hades.DriverMain
import Hades.SuiteDirectories
import Hades.AbstractDriver
import Hades.DriverCommands
import Hades.DriverSession
import Hades.RegressionListener
import Hades.StatementReader
import Hades.EmittedTests
import Hades.GeneratedSources
import Hades.GeneratedFiles
import Hades.Terminal
import Hades.IsolateScreen
import Hades.MeasuredSpeed
import Hades.BuildCache
import Hades.ArgumentVector
import Hades.ChildCommandLines
import Hades.ShellWords
import Hades.SystemCommands
