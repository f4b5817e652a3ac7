import EmissionLedger.Accrual.Index
import EmissionLedger.Accrual.Rate
import EmissionLedger.Accrual.Share
import EmissionLedger.Contract.Check
import EmissionLedger.Contract.Document
import EmissionLedger.Contract.Record
import EmissionLedger.Counter
import EmissionLedger.Decimal.Literal
import EmissionLedger.Decimal.Rounding
import EmissionLedger.Digest.Sha256
import EmissionLedger.Emission
import EmissionLedger.Escrow
import EmissionLedger.Fault
import EmissionLedger.Intake.Accruals
import EmissionLedger.Intake.Addresses
import EmissionLedger.Intake.Ledger
import EmissionLedger.Intake.Numbers
import EmissionLedger.Json.Basic
import EmissionLedger.Json.Binary64
import EmissionLedger.Json.Text
import EmissionLedger.Layout.Codec
import EmissionLedger.Layout.Discriminator
import EmissionLedger.Layout.Record
import EmissionLedger.Number.Arithmetic
import EmissionLedger.Number.Basic
import EmissionLedger.Number.Bytes
import EmissionLedger.Number.Decimal
import EmissionLedger.Number.Expr
import EmissionLedger.Number.Operand
import EmissionLedger.Proofs.Accrual
import EmissionLedger.Proofs.Accrual.Faults
import EmissionLedger.Proofs.Escrow.Book
import EmissionLedger.Proofs.Outcome
import EmissionLedger.Proofs.Run
import EmissionLedger.Proofs.Table
import EmissionLedger.Record.Address
import EmissionLedger.Record.Any
import EmissionLedger.Record.Basic
import EmissionLedger.Record.Form
import EmissionLedger.Record.Json
import EmissionLedger.Record.Kind
import EmissionLedger.Record.Shape
import EmissionLedger.Rewarder
import EmissionLedger.Slashing
import EmissionLedger.Staking
import EmissionLedger.Text.Blank
import EmissionLedger.Text.DecimalDigit
import EmissionLedger.Text.Hex
import EmissionLedger.Text.Integer
import EmissionLedger.Text.Printable
import EmissionLedger.Text.Quoted
import EmissionLedger.Text.Wording
import EmissionLedger.Votes
import EmissionLedger.Proofs.Escrow.Conservation
import EmissionLedger.Proofs.Emission.Book
import EmissionLedger.Proofs.Emission.Conservation
import EmissionLedger.Proofs.Staking.Book
import EmissionLedger.Proofs.Votes.Book
import EmissionLedger.Proofs.Votes.Consistency
import EmissionLedger.Proofs.Rewarder.Book
import EmissionLedger.Proofs.Rewarder.Solvency
import EmissionLedger.Proofs.Eager.Ledger
import EmissionLedger.Proofs.Slashing
import EmissionLedger.Proofs.Staking.Moves
import EmissionLedger.Proofs.Staking.Earnings
import EmissionLedger.Proofs.Staking.Solvency
import EmissionLedger.Proofs.Eager.Refinement
import EmissionLedger.Proofs.Escrow.Withdrawal
import EmissionLedger.Proofs.Staking.Withdrawal
import EmissionLedger.Proofs.Votes.Withdrawal
import EmissionLedger.Proofs.Layout.Bytes
import EmissionLedger.Proofs.Layout.Codec
import EmissionLedger.Proofs.Layout.Record
import EmissionLedger.Proofs.Contract.Acceptance
import EmissionLedger.Proofs.Ledger.Operation
import EmissionLedger.Proofs.Ledger.Closure
import EmissionLedger.Proofs.Ledger.Headroom
import EmissionLedger.Proofs.Ledger.Arithmetic
import EmissionLedger.Proofs.Ledger.Run
import EmissionLedger.Proofs.Emission.Synchronization
import EmissionLedger.Proofs.Rewarder.Fairness
import EmissionLedger.Proofs.Rewarder.Accrual
import EmissionLedger.Proofs.Rewarder.Pools
import EmissionLedger.Proofs.Timing.Absorption
import EmissionLedger.Proofs.Timing.Net
import EmissionLedger.Proofs.Timing.Order
import EmissionLedger.Proofs.Timing.Stretch
import EmissionLedger.Proofs.Timing.Polling
import EmissionLedger.Proofs.Timing.Guards
import EmissionLedger.Proofs.Timing.Progress
import EmissionLedger.Proofs.Timing.Ledger
import EmissionLedger.Proofs.Timing.History
import EmissionLedger.Proofs.Timing.Views
import EmissionLedger.Proofs.Payout.Insertion
import EmissionLedger.Proofs.Payout.Stake
import EmissionLedger.Proofs.Payout.Rewarder
import EmissionLedger.Proofs.Number.Text
import EmissionLedger.Proofs.Record.Reading
import EmissionLedger.Proofs.Record.RoundTrip
import EmissionLedger.Proofs.Record.Validation
import EmissionLedger.Proofs.Contract.Loading
import EmissionLedger.Proofs.Slashing.Favour
import EmissionLedger.Proofs.Staking.Answer
import EmissionLedger.Proofs.Timing.Idle
import EmissionLedger.Proofs.Timing.Width
import EmissionLedger.Proofs.Decimal.Grammar
import EmissionLedger.Proofs.Number.Exactness
import EmissionLedger.Proofs.Number.Canonical
import EmissionLedger.Proofs.Number.Words
import EmissionLedger.Proofs.Rewarder.Matching
import EmissionLedger.Proofs.Timing.Flash
import EmissionLedger.Proofs.Accrual.Additivity
import EmissionLedger.Proofs.Ledger.Links
import EmissionLedger.Proofs.Accrual.Splitting
import EmissionLedger.Proofs.Number.Evaluation
