import DeskCalculator.Archive
import DeskCalculator.Binary64.Integral
import DeskCalculator.Binary64.Parts
import DeskCalculator.Binary64.Remainder
import DeskCalculator.Binary64.TenPower
import DeskCalculator.Calculator
import DeskCalculator.Command.Basic
import DeskCalculator.Command.Catalogue
import DeskCalculator.Command.Standard
import DeskCalculator.CommandLine.Options
import DeskCalculator.CommandLine.Program
import DeskCalculator.Config
import DeskCalculator.ConfigFile
import DeskCalculator.Decimal.Numeral
import DeskCalculator.Decimal.Shortest
import DeskCalculator.Decimal.Style
import DeskCalculator.Display
import DeskCalculator.Elementary.Circle
import DeskCalculator.Elementary.CubeRoot
import DeskCalculator.Elementary.FixedPoint
import DeskCalculator.Elementary.Logarithm
import DeskCalculator.Elementary.Power
import DeskCalculator.Fault
import DeskCalculator.Inspection
import DeskCalculator.Instant.Basic
import DeskCalculator.Instant.Calendar
import DeskCalculator.Instant.Text
import DeskCalculator.Instruction
import DeskCalculator.Interpreter
import DeskCalculator.Journal
import DeskCalculator.Json.Fields
import DeskCalculator.Json.Number
import DeskCalculator.Json.Quoted
import DeskCalculator.Json.Reader
import DeskCalculator.Json.Value
import DeskCalculator.Main
import DeskCalculator.Memory
import DeskCalculator.Operation.Basic
import DeskCalculator.Operation.Factorial
import DeskCalculator.Session.Basic
import DeskCalculator.Session.Dialogue
import DeskCalculator.Settings
import DeskCalculator.Strictness
import DeskCalculator.Text.Blank
import DeskCalculator.Text.CaseTables
import DeskCalculator.Text.Lines
import DeskCalculator.Text.Lowercase
import DeskCalculator.Text.PrintTable
import DeskCalculator.Text.Quoted
import DeskCalculator.Proofs.Calls
import DeskCalculator.Proofs.Atomicity
import DeskCalculator.Proofs.History
import DeskCalculator.Proofs.Ledger
import DeskCalculator.Proofs.Lines
import DeskCalculator.Proofs.Registration
import DeskCalculator.Proofs.Commands
import DeskCalculator.Proofs.Provenance
import DeskCalculator.Proofs.Dialogues
import DeskCalculator.Proofs.Readings
import DeskCalculator.Proofs.Replies
import DeskCalculator.Proofs.Sessions
import DeskCalculator.Proofs.Separation
import DeskCalculator.Proofs.Numerals
import DeskCalculator.Proofs.Faults
import DeskCalculator.Proofs.Arguments
import DeskCalculator.Proofs.Restriction
import DeskCalculator.Proofs.Packing
import DeskCalculator.Proofs.Rounding
import DeskCalculator.Proofs.Scientific
import DeskCalculator.Proofs.ShortestDigits
import DeskCalculator.Proofs.Styles
import DeskCalculator.Proofs.RoundTrip
import DeskCalculator.Proofs.Listings
import DeskCalculator.Proofs.HelpText
import DeskCalculator.Proofs.Announcements
import DeskCalculator.Proofs.Timestamps
import DeskCalculator.Proofs.Domains
import DeskCalculator.Proofs.Verdicts
import DeskCalculator.Proofs.Names
import DeskCalculator.Proofs.Chaining
import DeskCalculator.Proofs.JsonText
import DeskCalculator.Proofs.JsonNumbers
import DeskCalculator.Proofs.Infinities
import DeskCalculator.Proofs.Records
import DeskCalculator.Proofs.Calendar
import DeskCalculator.Proofs.Instants
import DeskCalculator.Proofs.Nearness
import DeskCalculator.Proofs.Scaling
import DeskCalculator.Proofs.Conversion
import DeskCalculator.Proofs.NumberGrammar
import DeskCalculator.Proofs.ByteScan
import DeskCalculator.Proofs.NumberPrefixes
import DeskCalculator.Proofs.DigitCount
import DeskCalculator.Proofs.JsonReading
import DeskCalculator.Proofs.Rereading
import DeskCalculator.Proofs.RecordRoundTrip
import DeskCalculator.Proofs.Composition
import DeskCalculator.Proofs.Precision
import DeskCalculator.Proofs.Clocks
import DeskCalculator.Proofs.Startup
import DeskCalculator.Proofs.ConfigRoundTrip
import DeskCalculator.Proofs.JsonExactness
import DeskCalculator.Proofs.ChainRuns
import DeskCalculator.Proofs.LineLayout
import DeskCalculator.Proofs.Ordering
import DeskCalculator.Proofs.PrecisionLine
import DeskCalculator.Proofs.FewestDigits
import DeskCalculator.Proofs.NumberLayout
import DeskCalculator.Proofs.RoundedProducts
import DeskCalculator.Proofs.Complaints
import DeskCalculator.Proofs.WholeRounding
import DeskCalculator.Proofs.LogarithmBounds
import DeskCalculator.Proofs.Indeterminacy
import DeskCalculator.Proofs.DecimalPlaces
