import Stopwatch.Benchmark
import Stopwatch.Benchmark.World
import Stopwatch.Completion
import Stopwatch.Dashboard
import Stopwatch.Dashboard.Action
import Stopwatch.Dashboard.Bars
import Stopwatch.Dashboard.Block
import Stopwatch.Dashboard.Chart
import Stopwatch.Dashboard.Figures
import Stopwatch.Dashboard.Live
import Stopwatch.Dashboard.Plot
import Stopwatch.Dashboard.Ring
import Stopwatch.Dashboard.RunLog
import Stopwatch.Dashboard.Window
import Stopwatch.Dashboard.Wrapping
import Stopwatch.Decimal.Binary
import Stopwatch.Decimal.Digits
import Stopwatch.Decimal.FloatText
import Stopwatch.Decimal.Reading
import Stopwatch.Decimal.Whole
import Stopwatch.Disk
import Stopwatch.Duration
import Stopwatch.Exposition
import Stopwatch.Fault
import Stopwatch.Fibonacci
import Stopwatch.Fibonacci.Doubling
import Stopwatch.GcMode
import Stopwatch.Host
import Stopwatch.Journal
import Stopwatch.Journal.Console
import Stopwatch.Journal.Writer
import Stopwatch.Json
import Stopwatch.Main
import Stopwatch.Memory
import Stopwatch.Moment
import Stopwatch.Path
import Stopwatch.Presentation
import Stopwatch.Presentation.Document
import Stopwatch.Presentation.Heading
import Stopwatch.Presentation.ProgressLine
import Stopwatch.Presentation.Table
import Stopwatch.Prime
import Stopwatch.Prime.CrossCheck
import Stopwatch.Prime.Loose
import Stopwatch.Prime.Probable
import Stopwatch.Prime.Root
import Stopwatch.Prime.Sieve
import Stopwatch.Program
import Stopwatch.Progress
import Stopwatch.Proofs.Benchmark.Laps
import Stopwatch.Proofs.Benchmark.Lawful
import Stopwatch.Proofs.Dashboard.Generations
import Stopwatch.Proofs.Dashboard.Outcome
import Stopwatch.Proofs.Dashboard.Restart
import Stopwatch.Proofs.Exposition.Runs
import Stopwatch.Proofs.Float.Arithmetic
import Stopwatch.Proofs.Float.Rounding
import Stopwatch.Proofs.Float.Value
import Stopwatch.Proofs.Presentation.Quiet
import Stopwatch.Proofs.Prime.Root
import Stopwatch.Proofs.Prime.TrialDivision
import Stopwatch.Proofs.Session.Consistency
import Stopwatch.Proofs.Session.Course
import Stopwatch.Proofs.Session.Delivery
import Stopwatch.Proofs.Session.Exit
import Stopwatch.Proofs.Session.Judgement
import Stopwatch.Proofs.Session.Ranking
import Stopwatch.Proofs.Session.Relay
import Stopwatch.Proofs.Session.Transport
import Stopwatch.Proofs.Session.Workloads
import Stopwatch.Proofs.Sorting.Stability
import Stopwatch.Proofs.Summary.Mean
import Stopwatch.Room
import Stopwatch.Server
import Stopwatch.Server.Address
import Stopwatch.Server.Security
import Stopwatch.Server.Target
import Stopwatch.Session
import Stopwatch.Settings
import Stopwatch.Settings.CommandLine
import Stopwatch.Settings.Environment
import Stopwatch.Settings.Validation
import Stopwatch.Sorting.Blocks
import Stopwatch.Sorting.Pattern
import Stopwatch.Summary
import Stopwatch.Template
import Stopwatch.Template.Directive
import Stopwatch.Template.Value
import Stopwatch.Text
import Stopwatch.Text.Capital
import Stopwatch.Text.Cells
import Stopwatch.Text.Fold
import Stopwatch.Text.Joint
import Stopwatch.Text.Measure
import Stopwatch.Text.Pen
import Stopwatch.Text.Piece
import Stopwatch.Text.Printable
import Stopwatch.Text.Quoted
import Stopwatch.Text.Ranges
import Stopwatch.Text.Rune
import Stopwatch.Theme
import Stopwatch.TimeUnit
import Stopwatch.Workload
import Stopwatch.Workload.Registry
import Stopwatch.Proofs.Dashboard.Isolation
import Stopwatch.Proofs.Settings.Precedence
import Stopwatch.Proofs.Settings.Acceptance
import Stopwatch.Proofs.Settings.Limits
import Stopwatch.Proofs.Text.Runes
import Stopwatch.Proofs.Settings.Lookups
import Stopwatch.Proofs.Prime.Chunks
import Stopwatch.Proofs.Prime.Answers
import Stopwatch.Proofs.Prime.Schedules
import Stopwatch.Proofs.Prime.FirstMismatch
import Stopwatch.Proofs.Prime.Sieve
import Stopwatch.Proofs.Prime.Counting
import Stopwatch.Proofs.Session.Agreement
import Stopwatch.Proofs.Float.View
import Stopwatch.Proofs.Prime.Loose
import Stopwatch.Proofs.Fibonacci.Words
import Stopwatch.Proofs.Dashboard.Samples
import Stopwatch.Proofs.Workload.Registrations
import Stopwatch.Proofs.Prime.Spelled
import Stopwatch.Proofs.Dashboard.Courses
import Stopwatch.Proofs.Settings.Readings
import Stopwatch.Proofs.Fibonacci.Doubling
import Stopwatch.Proofs.Prime.Range
import Stopwatch.Proofs.Workload.Limits
import Stopwatch.Proofs.Workload.Scan
import Stopwatch.Proofs.Presentation.FinalPair
import Stopwatch.Proofs.Dashboard.Scrolling
import Stopwatch.Proofs.Session.Numbering
import Stopwatch.Proofs.Dashboard.Current
import Stopwatch.Proofs.Presentation.Refresh
import Stopwatch.Proofs.Float.NotANumber
import Stopwatch.Proofs.Float.Seconds
import Stopwatch.Proofs.Dashboard.Drawing
import Stopwatch.Proofs.Progress.Bounds
import Stopwatch.Proofs.Text.Figures
import Stopwatch.Proofs.Presentation.Values
import Stopwatch.Proofs.Text.Lines
import Stopwatch.Proofs.Presentation.Columns
import Stopwatch.Proofs.Server.Release
import Stopwatch.Proofs.Text.Grouping
import Stopwatch.Proofs.Float.Exact
import Stopwatch.Proofs.Summary.Order
import Stopwatch.Proofs.Summary.Constant
import Stopwatch.Proofs.Text.Amounts
import Stopwatch.Proofs.Progress.TimeLeft
