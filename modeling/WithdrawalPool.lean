import WithdrawalPool.Address
import WithdrawalPool.Amount
import WithdrawalPool.Codec.Config
import WithdrawalPool.Codec.Event
import WithdrawalPool.Codec.Records
import WithdrawalPool.Coin
import WithdrawalPool.Config
import WithdrawalPool.Custody.Basic
import WithdrawalPool.Custody.Ledger
import WithdrawalPool.Denom
import WithdrawalPool.Destination
import WithdrawalPool.Error
import WithdrawalPool.Event
import WithdrawalPool.ExecutionContext
import WithdrawalPool.Faults
import WithdrawalPool.Hex
import WithdrawalPool.IdCounter
import WithdrawalPool.Json.Numeral
import WithdrawalPool.Json.Position
import WithdrawalPool.Json.Reading
import WithdrawalPool.Json.Record
import WithdrawalPool.Json.Token
import WithdrawalPool.Json.Value
import WithdrawalPool.Pool.Basic
import WithdrawalPool.Pool.Fees
import WithdrawalPool.Pool.Group
import WithdrawalPool.Pool.Walk
import WithdrawalPool.Proofs.Accounting
import WithdrawalPool.Proofs.Atomicity
import WithdrawalPool.Proofs.Bank
import WithdrawalPool.Proofs.Cancellation
import WithdrawalPool.Proofs.Contents
import WithdrawalPool.Proofs.Configuration
import WithdrawalPool.Proofs.DenomForm
import WithdrawalPool.Proofs.Departure
import WithdrawalPool.Proofs.Destinations
import WithdrawalPool.Proofs.History
import WithdrawalPool.Proofs.Refund
import WithdrawalPool.Proofs.Registration
import WithdrawalPool.Proofs.Running
import WithdrawalPool.Proofs.Solvency
import WithdrawalPool.Proofs.Store
import WithdrawalPool.Proofs.Submission
import WithdrawalPool.Registry.Basic
import WithdrawalPool.Registry.Native
import WithdrawalPool.Scenario
import WithdrawalPool.SortedMap.Basic
import WithdrawalPool.SortedMap.Lemmas
import WithdrawalPool.Tally
import WithdrawalPool.Text
import WithdrawalPool.Transfer
import WithdrawalPool.Transition.Basic
import WithdrawalPool.Transition.Cancel
import WithdrawalPool.Transition.Submit
import WithdrawalPool.Proofs.Conservation
import WithdrawalPool.Proofs.Issuance
import WithdrawalPool.Proofs.Resolution
import WithdrawalPool.Proofs.Draining
import WithdrawalPool.Proofs.Batching
import WithdrawalPool.Proofs.Integrity
import WithdrawalPool.Proofs.Building
import WithdrawalPool.Proofs.Summaries
import WithdrawalPool.Proofs.Answers
import WithdrawalPool.Proofs.Journal
import WithdrawalPool.Proofs.WriteOnce
import WithdrawalPool.Proofs.Balances
import WithdrawalPool.Proofs.Ownership
import WithdrawalPool.Proofs.FeeOrder
import WithdrawalPool.Proofs.Commuting
import WithdrawalPool.Proofs.Json.Numerals
import WithdrawalPool.Proofs.Json.Scanning
import WithdrawalPool.Proofs.Json.Parsing
import WithdrawalPool.Proofs.Json.Partial
import WithdrawalPool.Proofs.Json.Codecs
import WithdrawalPool.Proofs.RoundTrip
import WithdrawalPool.Proofs.Cancellable
import WithdrawalPool.Proofs.Undoing
import WithdrawalPool.Proofs.Addresses
import WithdrawalPool.Proofs.FailedCancellation
import WithdrawalPool.Proofs.Traversal
import WithdrawalPool.Proofs.BestBatch
import WithdrawalPool.Proofs.SuccessiveBatches
import WithdrawalPool.Proofs.Acceptance
import WithdrawalPool.Proofs.Misfiling
import WithdrawalPool.Proofs.Json.Layouts
import WithdrawalPool.Proofs.Json.Refusals
import WithdrawalPool.Proofs.Updates
import WithdrawalPool.Proofs.Vouchers
import WithdrawalPool.Proofs.RecordLayouts
import WithdrawalPool.Proofs.Grammar
import WithdrawalPool.Proofs.AddressForm
import WithdrawalPool.Proofs.Configuration
import WithdrawalPool.Proofs.AmountForm
import WithdrawalPool.Proofs.BankCalls
import WithdrawalPool.Proofs.IdSequence
import WithdrawalPool.Proofs.AddressBytes
import WithdrawalPool.Proofs.Json.Positions
