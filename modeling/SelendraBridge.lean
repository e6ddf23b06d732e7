import SelendraBridge.Lib.Revert
import SelendraBridge.Lib.BigEndian
import SelendraBridge.Lib.Borsh
import SelendraBridge.Lib.Transition
import SelendraBridge.Lib.Asking
import SelendraBridge.Lib.Timelock
import SelendraBridge.Lib.Tally
import SelendraBridge.Lib.Market
import SelendraBridge.Lib.Drift
import SelendraBridge.Lib.Ecdsa
import SelendraBridge.Lib.Attribution
import SelendraBridge.Lib.Backlog
import SelendraBridge.Lib.Frames
import SelendraBridge.Lib.Dues
import SelendraBridge.Lib.Sequence
import SelendraBridge.Lib.Parking
import SelendraBridge.Lib.Hex
import SelendraBridge.Lib.Decimal
import SelendraBridge.Lib.Labels
import SelendraBridge.Basic
import SelendraBridge.Abi
import SelendraBridge.AbiTuples
import SelendraBridge.BridgeHash
import SelendraBridge.Digest
import SelendraBridge.Text
import SelendraBridge.Store.Record
import SelendraBridge.Store.Signatures
import SelendraBridge.Store.Files
import SelendraBridge.Store.Standard
import SelendraBridge.Store.Binding
import SelendraBridge.Db.Submissions
import SelendraBridge.Db.Records
import SelendraBridge.Db.Poisoning
import SelendraBridge.Preimage
import SelendraBridge.Db.Lifecycle
import SelendraBridge.Db.Interleaving
import SelendraBridge.Db.Commute
import SelendraBridge.Evm
import SelendraBridge.Ledger
import SelendraBridge.Gate.State
import SelendraBridge.Gate.Ids
import SelendraBridge.Gate.Quorum
import SelendraBridge.Gate.Scale
import SelendraBridge.Gate.Governance
import SelendraBridge.Gate.Transfer
import SelendraBridge.Gate.Machine
import SelendraBridge.Gate.Governed
import SelendraBridge.Gate.Parts
import SelendraBridge.Gate.Authority
import SelendraBridge.Gate.Books
import SelendraBridge.Gate.Registry
import SelendraBridge.Gate.Sends
import SelendraBridge.Gate.Refund
import SelendraBridge.Gate.Payouts
import SelendraBridge.Gate.Mesh
import SelendraBridge.Gate.Seats
import SelendraBridge.Pool.State
import SelendraBridge.Pool.Machine
import SelendraBridge.Pool.Trades
import SelendraBridge.Pool.Reentrant
import SelendraBridge.Pool.Backing
import SelendraBridge.Router.Intent
import SelendraBridge.Router.State
import SelendraBridge.Router.Machine
import SelendraBridge.Router.Calls
import SelendraBridge.Router.Flows
import SelendraBridge.Router.Moves
import SelendraBridge.Router.Behind
import SelendraBridge.Router.Deliveries
import SelendraBridge.Router.Refunds
import SelendraBridge.Router.Settlement
import SelendraBridge.Router.Rescue
import SelendraBridge.Solana.Runtime
import SelendraBridge.Solana.State
import SelendraBridge.Solana.Frame
import SelendraBridge.Solana.Ids
import SelendraBridge.Solana.AutoParams
import SelendraBridge.Solana.Transfer
import SelendraBridge.Solana.Governance
import SelendraBridge.Solana.Machine
import SelendraBridge.Solana.Seats
import SelendraBridge.Solana.Powers
import SelendraBridge.Solana.Cluster
import SelendraBridge.Solana.Timelock
import SelendraBridge.Solana.Outcome
import SelendraBridge.Quorums
import SelendraBridge.Value
import SelendraBridge.OneWay
import SelendraBridge.Validator.State
import SelendraBridge.Validator.HandleLog
import SelendraBridge.Validator.Scanner
import SelendraBridge.Validator.Window
import SelendraBridge.Validator.Nonces
import SelendraBridge.Validator.Cursor
import SelendraBridge.Validator.Rescan
import SelendraBridge.Validator.Pause
import SelendraBridge.Db.Alike
import SelendraBridge.Db.Calls
import SelendraBridge.Db.Simulation
import SelendraBridge.Db.Contract
import SelendraBridge.Db.OneEntry
import SelendraBridge.Solana.EncodeParams
import SelendraBridge.SameIds
import SelendraBridge.Lib.Quote
import SelendraBridge.SwapMath
import SelendraBridge.Lib.Roster
import SelendraBridge.Lib.Replay
import SelendraBridge.Submit.LowS
import SelendraBridge.Submit.Keeper
import SelendraBridge.Submit.Relayer
import SelendraBridge.Submit.Arrays
import SelendraBridge.Keeper.Fees
import SelendraBridge.Keeper.HeadWatch
import SelendraBridge.Keeper.Pending
import SelendraBridge.Lib.Paging
import SelendraBridge.Store.RefundCursor
import SelendraBridge.Indexer.Mirror
import SelendraBridge.Indexer.GateLog
import SelendraBridge.Indexer.SwapLogs
import SelendraBridge.Indexer.Loop
import SelendraBridge.Indexer.Stalls
import SelendraBridge.SigStore.Policy
import SelendraBridge.SigStore.Requests
import SelendraBridge.Gate.Reentrant
import SelendraBridge.Gate.Nested
import SelendraBridge.Solana.Wire
import SelendraBridge.Clients.Encoders
import SelendraBridge.Clients.Agreement
import SelendraBridge.Pool.Prices
import SelendraBridge.Refresh.Plan
import SelendraBridge.Refresh.Keeper
import SelendraBridge.SolanaSwap.State
import SelendraBridge.SolanaSwap.Machine
import SelendraBridge.SolanaSwap.Records
import SelendraBridge.Pool.Drift
import SelendraBridge.SolanaSwap.Cluster
import SelendraBridge.SolanaSwap.Drift
import SelendraBridge.SolanaSwap.Solvency
import SelendraBridge.Solana.LogLines
import SelendraBridge.Solana.Scanner
import SelendraBridge.Api.Address
import SelendraBridge.Api.ClientIp
import SelendraBridge.Lib.Words
import SelendraBridge.Lib.Lines
import SelendraBridge.LogScrub.Scrub
import SelendraBridge.LogScrub.Writer
import SelendraBridge.Solana.Storage
import SelendraBridge.Submit.Encodable
import SelendraBridge.Submit.Skips
import SelendraBridge.Frontend.Units
import SelendraBridge.Lib.Radix
import SelendraBridge.Frontend.Base58
import SelendraBridge.Frontend.Calldata
import SelendraBridge.Frontend.AutoParams
import SelendraBridge.Lib.ShortVec
import SelendraBridge.Frontend.Message
import SelendraBridge.Clients.Readers
import SelendraBridge.Lib.TokenBucket
import SelendraBridge.RateLimit
import SelendraBridge.Solana.HostGate
import SelendraBridge.Api.Listing
import SelendraBridge.Keeper.Finalize
import SelendraBridge.Keeper.Reach
import SelendraBridge.Lib.Keccak
import SelendraBridge.Frontend.Keccak
import SelendraBridge.Frontend.GateSend
import SelendraBridge.Submit.SameSigner
import SelendraBridge.Solana.Usize
import SelendraBridge.Frontend.Base58Loops
import SelendraBridge.Verifiers
import SelendraBridge.Solana.Bindings
import SelendraBridge.Lib.Votes
import SelendraBridge.Validator.Corroboration
import SelendraBridge.Lib.Base64
import SelendraBridge.SolanaSource.Event
import SelendraBridge.SolanaSource.Origin
import SelendraBridge.SolanaSource.Source
import SelendraBridge.Signers.Past
import SelendraBridge.Signers.RefundLoop
import SelendraBridge.Signers.Relayer
import SelendraBridge.Signers.Evidence
import SelendraBridge.Signers.LoopEvidence
import SelendraBridge.Signers.RelayerEvidence
import SelendraBridge.Signers.Deeds
import SelendraBridge.Signers.ProgramDeeds
import SelendraBridge.Signers.Accounts
import SelendraBridge.Signers.Chain
import SelendraBridge.Signers.Mesh
import SelendraBridge.Signers.Attributed
import SelendraBridge.Signers.Safety
import SelendraBridge.Signers.Outcomes
import SelendraBridge.Signers.Attestations
