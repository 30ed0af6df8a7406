import Icn.Foundation.Map.Finite
import Icn.Foundation.Map.Heap
import Icn.Foundation.Word.UInt64
import Icn.Foundation.Run.Sequential
import Icn.Foundation.Run.Fallible
import Icn.Foundation.Run.Interleaving
import Icn.Foundation.Run.Simulation
import Icn.Foundation.Log.Window
import Icn.Foundation.Codec.PrefixFree
import Icn.Foundation.Codec.Bytes
import Icn.Foundation.Codec.Base58
import Icn.Foundation.Codec.Base64
import Icn.Foundation.Codec.Slice
import Icn.Types.DidKey
import Icn.Types.Canonical
import Icn.Types.Credential
import Icn.Types.CredentialJson
import Icn.Types.Bundle
import Icn.Types.Quorum
import Icn.Crypto.Jws
import Icn.Foundation.Codec.Bincode
import Icn.Foundation.Codec.Cbor
import Icn.Foundation.Codec.Json
import Icn.Foundation.Codec.JsonRead
import Icn.Foundation.Codec.JsonMap
import Icn.Foundation.Codec.JsonParse
import Icn.Foundation.Codec.JsonUntagged
import Icn.Identity.Did
import Icn.Identity.Keys
import Icn.Identity.Canonical
import Icn.Identity.Quorum.Proof
import Icn.Identity.Quorum.Transport
import Icn.Identity.Quorum.Intersection
import Icn.Identity.Quorum.Weighted
import Icn.Identity.Quorum.Growth
import Icn.Identity.Trust.Bundle
import Icn.Identity.Trust.Transport
import Icn.Identity.Trust.Validator
import Icn.Economics.Mana.Pool
import Icn.Economics.Mana.Manager
import Icn.Economics.Mana.Invariant
import Icn.Economics.Mana.Transfer
import Icn.Economics.Ledger.Economics
import Icn.Economics.Ledger.Transfer
import Icn.Economics.Ledger.Isolation
import Icn.Economics.Ledger.Authorization
import Icn.Economics.Policy.Repository
import Icn.Economics.Policy.Enforcer
import Icn.Economics.Policy.Limits
import Icn.Economics.Policy.Contract
import Icn.Economics.ManaLedger.Regenerator
import Icn.Economics.ManaLedger.Adapter
import Icn.Economics.ManaLedger.Concurrent
import Icn.Economics.ManaLedger.Refinement
import Icn.Economics.ManaLedger.Sled
import Icn.AgoraNet.Models
import Icn.AgoraNet.Ledger.Transfers
import Icn.AgoraNet.Ledger.Keying
import Icn.AgoraNet.Ledger.Postgres
import Icn.AgoraNet.Ledger.Transaction
import Icn.AgoraNet.Ledger.Conservation
import Icn.AgoraNet.Auth.Claims
import Icn.AgoraNet.Ledger.Handlers
import Icn.AgoraNet.Ledger.Spending
import Icn.AgoraNet.Ledger.Batch
import Icn.Foundation.Log.FirstBest
import Icn.Foundation.Log.StableSort
import Icn.AgoraNet.Ledger.Query
import Icn.AgoraNet.Auth.Revocation
import Icn.AgoraNet.Auth.Indices
import Icn.AgoraNet.Auth.Token
import Icn.AgoraNet.Auth.Gates
import Icn.AgoraNet.Auth.Handlers
import Icn.AgoraNet.Auth.Confinement
import Icn.AgoraNet.Auth.Reach
import Icn.AgoraNet.Auth.Retention
import Icn.AgoraNet.Socket.Channels
import Icn.AgoraNet.Socket.Notifications
import Icn.AgoraNet.Governance.Proposals
import Icn.AgoraNet.Governance.Tally
import Icn.Mesh.Receipt
import Icn.Mesh.Signing
import Icn.Mesh.Verification
import Icn.Runtime.Context
import Icn.Runtime.Jobs
import Icn.Runtime.JobLoop
import Icn.Runtime.Proposals
import Icn.AgoraNet.Ledger.Refinement
import Icn.Types.Dag.Linearization
import Icn.Planetary.Settlement
import Icn.MeshJobs.Interchange
import Icn.MeshJobs.Selectors
import Icn.MeshJobs.Assignment
import Icn.MeshJobs.BidStream
import Icn.MeshJobs.Lifecycle
import Icn.Reputation.Storage
import Icn.Foundation.Run.ClampedWalk
import Icn.Reputation.Scores
import Icn.Reputation.Tally
import Icn.Economics.Mana.Regeneration
import Icn.Economics.Mana.EitherBuild
import Icn.Economics.Policy.Arithmetic
import Icn.Economics.ManaLedger.Tick
import Icn.Foundation.Run.Metered
import Icn.CoreVm.Host
import Icn.CoreVm.Limits
import Icn.Foundation.Word.Signed
import Icn.Foundation.Run.Keeping
import Icn.CoreVm.Accounting
import Icn.Foundation.Nesting
import Icn.Foundation.Peg.Semantics
import Icn.Foundation.Peg.Equivalence
import Icn.Foundation.Peg.Total
import Icn.Foundation.Peg.Delimiter
import Icn.Foundation.Peg.Front
import Icn.Ccl.Nesting
import Icn.Ccl.Host
import Icn.Ccl.Validity
import Icn.Ccl.Layout
import Icn.Ccl.Bounds
import Icn.Ccl.Grammar
import Icn.Ccl.Lower
import Icn.Ccl.Actions
import Icn.Ccl.Structure
import Icn.Ccl.Naming
import Icn.Ccl.RuleReadBack
import Icn.Ccl.Literals
import Icn.Ccl.Operands
import Icn.Ccl.Conditions
import Icn.Runtime.Charges
import Icn.Runtime.Distribution
import Icn.Foundation.Run.Budget
import Icn.Economics.Mana.RateLimit
import Icn.AgoraNet.Ledger.Books
import Icn.AgoraNet.Ledger.BatchReport
import Icn.Foundation.Codec.Format
import Icn.Runtime.Storage
import Icn.Foundation.Wasm.Linear
import Icn.Runtime.HostEnvironment
import Icn.Foundation.Run.Effect
import Icn.Runtime.HostInterface
import Icn.Runtime.Sandbox
import Icn.Foundation.Run.ReadThrough
import Icn.MeshJobs.ReputationCache
import Icn.Foundation.Run.Network
import Icn.Planetary.Peer
import Icn.Planetary.Agreement
import Icn.AgoraNet.Ledger.Statistics
import Icn.Foundation.Wasm.Execution
import Icn.Ccl.Preservation
import Icn.AgoraNet.Scope.Listing
