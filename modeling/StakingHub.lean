import StakingHub.Text.Quote
import StakingHub.Bytes.Hex
import StakingHub.Digest.Keccak
import StakingHub.Crypto.Fault
import StakingHub.Account.Address
import StakingHub.Number.Binary64
import StakingHub.Number.Shortest
import StakingHub.Json.Value
import StakingHub.Json.Fault
import StakingHub.Json.Lexer
import StakingHub.Json.Reader
import StakingHub.Validator.Pubkey
import StakingHub.Validator.Status
import StakingHub.Service.Fault
import StakingHub.Protocol.Request
import StakingHub.Protocol.Hashing
import StakingHub.Digest.Sha256
import StakingHub.Secp256k1.Curve
import StakingHub.Secp256k1.Signature
import StakingHub.Secp256k1.Ecdsa
import StakingHub.Approval.Digest
import StakingHub.Protocol.Signing
import StakingHub.Cipher.ChaCha20
import StakingHub.Cipher.Aead
import StakingHub.Curve25519.X25519
import StakingHub.Json.Shape
import StakingHub.Json.Stream
import StakingHub.Record.Exit
import StakingHub.Relay.Sealed
import StakingHub.Protocol.Relay
import StakingHub.Record.Deposit
import StakingHub.Service.Config
import StakingHub.Store.Keyed
import StakingHub.Store.Basic
import StakingHub.Protocol.Records
import StakingHub.Store.Session
import StakingHub.Store.Approval
import StakingHub.Store.StakeWise
import StakingHub.Store.Minipool
import StakingHub.Service.Basic
import StakingHub.Protocol.Scenario.State
import StakingHub.Protocol.Scenario.Dump
import StakingHub.Protocol.Scenario.Steps
import StakingHub.Protocol.Scenario
import StakingHub.Protocol.Dispatch
import StakingHub.Proofs.Keyed
import StakingHub.Proofs.Transaction
import StakingHub.Proofs.Operation
import StakingHub.Proofs.Validators
import StakingHub.Proofs.Effects
import StakingHub.Proofs.Atomic
import StakingHub.Proofs.Invariant
import StakingHub.Proofs.Deposits
import StakingHub.Proofs.Preservation
import StakingHub.Proofs.Confinement
import StakingHub.Proofs.Authentication
import StakingHub.Proofs.Runs
import StakingHub.Proofs.Snapshots
import StakingHub.Proofs.Deployments
import StakingHub.Proofs.Counters
import StakingHub.Proofs.CounterBounds
import StakingHub.Proofs.Lookups
import StakingHub.Proofs.Lifecycle
import StakingHub.Proofs.DepositSets
import StakingHub.Proofs.ServedSets
import StakingHub.Proofs.FieldText
import StakingHub.Proofs.RecordValues
import StakingHub.Proofs.Payloads
import StakingHub.Proofs.RecordText
import StakingHub.Proofs.Aead
import StakingHub.Proofs.ExitRelay
import StakingHub.Proofs.Login
import StakingHub.Proofs.BigEndian
import StakingHub.Proofs.Recovery
import StakingHub.Proofs.Approvals
import StakingHub.Proofs.FairShare
import StakingHub.Proofs.Interleaving
import StakingHub.Proofs.Registration
import StakingHub.Proofs.DepositUploads
import StakingHub.Proofs.AdminTransitions
import StakingHub.Proofs.ExitUploads
import StakingHub.Proofs.Checksum
import StakingHub.Proofs.Sealing
import StakingHub.Proofs.ApprovalWords
import StakingHub.Proofs.PersonalMessages
import StakingHub.Proofs.Templates
import StakingHub.Proofs.HexReaders
