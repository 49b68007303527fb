import SignalDesk.Abort
import SignalDesk.Act
import SignalDesk.Blank
import SignalDesk.Capture
import SignalDesk.CommandLine.Arguments
import SignalDesk.CommandLine.LogFilter
import SignalDesk.CommandLine.Program
import SignalDesk.Composite.Composer
import SignalDesk.Composite.Fusion
import SignalDesk.Config.Decode
import SignalDesk.Config.Document
import SignalDesk.Config.Settings
import SignalDesk.Config.Validate
import SignalDesk.Data
import SignalDesk.Decimal.Arithmetic
import SignalDesk.Decimal.Basic
import SignalDesk.Decimal.Float
import SignalDesk.Decimal.Text
import SignalDesk.Engine.Desk
import SignalDesk.Engine.Engine
import SignalDesk.Engine.Sharded
import SignalDesk.FloatOrder
import SignalDesk.FloatText
import SignalDesk.Hex
import SignalDesk.Json.Reader
import SignalDesk.Json.Writer
import SignalDesk.Main
import SignalDesk.Market.Contracts
import SignalDesk.Market.Record
import SignalDesk.Market.Tape
import SignalDesk.Market.Wire
import SignalDesk.Numeral
import SignalDesk.Risk.Plan
import SignalDesk.Risk.Portfolio
import SignalDesk.Risk.Position
import SignalDesk.Risk.Terms
import SignalDesk.Risk.Trader
import SignalDesk.Rounding
import SignalDesk.Sha1
import SignalDesk.Signal
import SignalDesk.Signal.FlowAsymmetry
import SignalDesk.Signal.Reading
import SignalDesk.Signal.SpreadVelocity
import SignalDesk.Signal.TradeClustering
import SignalDesk.Signal.TradeConcentration
import SignalDesk.Signal.TradeImbalance
import SignalDesk.Signal.VolumeDivergence
import SignalDesk.Stats
import SignalDesk.Telemetry
import SignalDesk.Time.Calendar
import SignalDesk.Time.Instant
import SignalDesk.Time.Span
import SignalDesk.Toml.Reader
import SignalDesk.Toml.Scalar
import SignalDesk.Toml.Tables
import SignalDesk.Toml.Writer
import SignalDesk.Uuid
import SignalDesk.Proofs.Act
import SignalDesk.Proofs.Decimal.Sum
import SignalDesk.Proofs.Account
import SignalDesk.Proofs.Desk
import SignalDesk.Proofs.Engine
import SignalDesk.Proofs.Floor.Basic
import SignalDesk.Proofs.Floor.Books
import SignalDesk.Proofs.Floor.Halt
import SignalDesk.Proofs.Sharded.Linearization
import SignalDesk.Proofs.Tape.Pruning
import SignalDesk.Proofs.Engine.Lifecycle
import SignalDesk.Proofs.Engine.Solvency
import SignalDesk.Proofs.Sharded.Range
import SignalDesk.Proofs.Engine.Isolation
import SignalDesk.Proofs.Reading
import SignalDesk.Proofs.Capture
import SignalDesk.Proofs.Float.Rounding
import SignalDesk.Proofs.Float.Operations
import SignalDesk.Proofs.Fusion
import SignalDesk.Proofs.Composite
import SignalDesk.Proofs.Bounds
import SignalDesk.Proofs.Engine.Ingestion
import SignalDesk.Proofs.Wire
import SignalDesk.Proofs.Config.RoundTrip
import SignalDesk.Proofs.Correspondence
import SignalDesk.Proofs.Floor.Mirror
import SignalDesk.Proofs.Clustering
import SignalDesk.Proofs.Tape.Relocation
import SignalDesk.Proofs.Engine.Relocation
import SignalDesk.Proofs.Trail
import SignalDesk.Proofs.Metrics
import SignalDesk.Proofs.Engine.Metrics
import SignalDesk.Proofs.Float.Negation
import SignalDesk.Proofs.Float.Monotone
import SignalDesk.Proofs.Float.Opposite
import SignalDesk.Proofs.Float.Complement
import SignalDesk.Proofs.Tape.Mirror
import SignalDesk.Proofs.Signal.Mirror
import SignalDesk.Proofs.Trader.Entry
import SignalDesk.Proofs.Trader.Exit
import SignalDesk.Proofs.Desk.Exit
import SignalDesk.Proofs.Float.Positive
import SignalDesk.Proofs.Desk.Entry
import SignalDesk.Proofs.Tape.Trades
import SignalDesk.Proofs.Signal.Bursts
import SignalDesk.Proofs.Config.Loading
import SignalDesk.Proofs.Tape.Windows
import SignalDesk.Proofs.Contributors
import SignalDesk.Proofs.Position.Wire
import SignalDesk.Proofs.Decimal.Monotone
import SignalDesk.Proofs.Position.Profit
import SignalDesk.Proofs.Engine.Attempts
import SignalDesk.Proofs.Trader.Profit
import SignalDesk.Proofs.Trader.Naming
import SignalDesk.Proofs.Engine.Naming
import SignalDesk.Proofs.Float.Words
import SignalDesk.Proofs.Float.Side
import SignalDesk.Proofs.Signal.Evidence
import SignalDesk.Proofs.Tape.Exact
import SignalDesk.Proofs.Engine.Exact
import SignalDesk.Proofs.Stats.LeastSquares
import SignalDesk.Proofs.Stats.Moments
import SignalDesk.Proofs.Stats.Concentration
import SignalDesk.Proofs.Signal.Velocity
import SignalDesk.Proofs.Signal.Concentration
