import ProofOfWork.Basic
import ProofOfWork.CommandLine.Basic
import ProofOfWork.CommandLine.Flag
import ProofOfWork.CommandLine.Help
import ProofOfWork.CommandLine.Level
import ProofOfWork.CommandLine.Read
import ProofOfWork.Config.Basic
import ProofOfWork.Config.Format
import ProofOfWork.Config.Load
import ProofOfWork.Config.Override
import ProofOfWork.Decimal.Binary64
import ProofOfWork.Decimal.Layout
import ProofOfWork.Decimal.Literal
import ProofOfWork.Decimal.Shortest
import ProofOfWork.Difficulty
import ProofOfWork.Digest
import ProofOfWork.Document.Access
import ProofOfWork.Document.Json.Number
import ProofOfWork.Document.Json.Read
import ProofOfWork.Document.Json.Text
import ProofOfWork.Document.Results
import ProofOfWork.Document.Settings
import ProofOfWork.Document.Toml.Read
import ProofOfWork.Document.Toml.Scalar
import ProofOfWork.Document.Toml.Table
import ProofOfWork.Document.Value
import ProofOfWork.Document.Yaml.Cursor
import ProofOfWork.Document.Yaml.Layout
import ProofOfWork.Document.Yaml.Node
import ProofOfWork.Document.Yaml.Scalar
import ProofOfWork.Document.Yaml.Text
import ProofOfWork.Document.Yaml.Token
import ProofOfWork.Duration.Basic
import ProofOfWork.Duration.Text
import ProofOfWork.Engine.Basic
import ProofOfWork.Engine.Search
import ProofOfWork.Error
import ProofOfWork.Hash.Argon2d
import ProofOfWork.Hash.Blake2b
import ProofOfWork.Hash.Blake2s
import ProofOfWork.Hash.Schedule
import ProofOfWork.Hasher
import ProofOfWork.Logging.Basic
import ProofOfWork.Logging.Event
import ProofOfWork.Logging.Filter
import ProofOfWork.Logging.Layout
import ProofOfWork.Main
import ProofOfWork.Pattern.Basic
import ProofOfWork.Pattern.Read
import ProofOfWork.Pattern.Valid
import ProofOfWork.Program.Run
import ProofOfWork.Program.World
import ProofOfWork.Proofs.CommandLine.Level
import ProofOfWork.Proofs.CommandLine.Options
import ProofOfWork.Proofs.Config.Json
import ProofOfWork.Proofs.Config.Override
import ProofOfWork.Proofs.Config.Validity
import ProofOfWork.Proofs.Decimal.Binary64
import ProofOfWork.Proofs.Decimal.Exact
import ProofOfWork.Proofs.Decimal.Magnitude
import ProofOfWork.Proofs.Decimal.Operations
import ProofOfWork.Proofs.Decimal.Rounding
import ProofOfWork.Proofs.Decimal.Shortest
import ProofOfWork.Proofs.Decimal.Text
import ProofOfWork.Proofs.Difficulty.Adjustment
import ProofOfWork.Proofs.Difficulty.Shares
import ProofOfWork.Proofs.Document.Json.Number
import ProofOfWork.Proofs.Document.Json.Read
import ProofOfWork.Proofs.Document.Json.Reports
import ProofOfWork.Proofs.Document.Json.Results
import ProofOfWork.Proofs.Document.Json.Scale
import ProofOfWork.Proofs.Document.Json.Settings
import ProofOfWork.Proofs.Document.Settings
import ProofOfWork.Proofs.Document.Yaml.Layout
import ProofOfWork.Proofs.Document.Yaml.Read
import ProofOfWork.Proofs.Document.Yaml.Settings
import ProofOfWork.Proofs.Document.Yaml.Words
import ProofOfWork.Proofs.Duration.Documents
import ProofOfWork.Proofs.Duration.Text
import ProofOfWork.Proofs.Engine.Accounting
import ProofOfWork.Proofs.Engine.Answer
import ProofOfWork.Proofs.Engine.Cancellation
import ProofOfWork.Proofs.Engine.FirstFound
import ProofOfWork.Proofs.Engine.Isolation
import ProofOfWork.Proofs.Engine.Ledger
import ProofOfWork.Proofs.Engine.Lowest
import ProofOfWork.Proofs.Engine.Promptness
import ProofOfWork.Proofs.Engine.Resumption
import ProofOfWork.Proofs.Engine.Shared
import ProofOfWork.Proofs.Engine.SharedLedger
import ProofOfWork.Proofs.Engine.Tightening
import ProofOfWork.Proofs.Engine.Verification
import ProofOfWork.Proofs.Payload
import ProofOfWork.Proofs.Program.Lines
import ProofOfWork.Proofs.Program.Printed
import ProofOfWork.Proofs.Program.Run
import ProofOfWork.Proofs.Program.Verification
import ProofOfWork.Proofs.Search.Allowance
import ProofOfWork.Proofs.Search.Board
import ProofOfWork.Proofs.Search.Count
import ProofOfWork.Proofs.Search.Counter
import ProofOfWork.Proofs.Search.Moves
import ProofOfWork.Proofs.Search.Partition
import ProofOfWork.Proofs.Search.Run
import ProofOfWork.Proofs.Search.Scan
import ProofOfWork.Proofs.Search.Token
import ProofOfWork.Proofs.SelfTest
import ProofOfWork.Proofs.Session.Candidates
import ProofOfWork.Proofs.Session.Chain
import ProofOfWork.Proofs.Session.Ledger
import ProofOfWork.Proofs.Session.Prefix
import ProofOfWork.Proofs.Session.Report
import ProofOfWork.Proofs.Session.Retarget
import ProofOfWork.Proofs.Session.Round
import ProofOfWork.Proofs.Session.Verdicts
import ProofOfWork.Proofs.Target.Bits
import ProofOfWork.Proofs.Target.Compact
import ProofOfWork.Proofs.Target.CompactOrder
import ProofOfWork.Proofs.Target.Difficulty
import ProofOfWork.Proofs.Target.DifficultyOrder
import ProofOfWork.Proofs.Target.DifficultyRange
import ProofOfWork.Proofs.Target.FixedPoint
import ProofOfWork.Proofs.Target.Hex
import ProofOfWork.Proofs.Target.Nearness
import ProofOfWork.Proofs.Target.Order
import ProofOfWork.Proofs.Target.Spec
import ProofOfWork.Proofs.Text.Digits
import ProofOfWork.Proofs.Text.Hex
import ProofOfWork.Search.Basic
import ProofOfWork.Search.Schedule
import ProofOfWork.Search.Worker
import ProofOfWork.SelfTest
import ProofOfWork.Session.Basic
import ProofOfWork.Session.Run
import ProofOfWork.Target.Basic
import ProofOfWork.Target.Compact
import ProofOfWork.Target.Spec
import ProofOfWork.Text.Alphanumeric
import ProofOfWork.Text.Basic
import ProofOfWork.Text.Hex
import ProofOfWork.Text.Quoted
import ProofOfWork.Text.Unprinted
import ProofOfWork.Text.Unsigned
import ProofOfWork.Verdict
import ProofOfWork.Word256
