import CksRuntime.Lib.Effect
import CksRuntime.Lib.Transition
import CksRuntime.Lib.Chronicle
import CksRuntime.Lib.Clocked
import CksRuntime.Lib.DeltaIndex
import CksRuntime.Lib.HashTrie
import CksRuntime.Lib.JsonText
import CksRuntime.Lib.JsonRead
import CksRuntime.Lib.LastSeen
import CksRuntime.Lib.Lease
import CksRuntime.Lib.MultiValue
import CksRuntime.Lib.ReplayWindow
import CksRuntime.Lib.SharedLog
import CksRuntime.Core.Laws
import CksRuntime.Crdt.Proof.MerkleSync
import CksRuntime.Crdt.Proof.Register
import CksRuntime.Crdt.Proof.Store
import CksRuntime.Crdt.Proof.PostgresRegister
import CksRuntime.Crdt.Proof.PostgresMerkle
import CksRuntime.Session.Proof.Reconstruction
import CksRuntime.Versioning.Metadata
import CksRuntime.Versioning.Proof.VectorOrder
import CksRuntime.Operations.Proof.Effect
import CksRuntime.Pipeline.Proof.Probe
import CksRuntime.Pipeline.Proof.Items
import CksRuntime.Pipeline.Proof.Rollback
import CksRuntime.Pipeline.Proof.Commit
import CksRuntime.Pipeline.Proof.Atomicity
import CksRuntime.Pipeline.Proof.Validity
import CksRuntime.Storage.Proof.Outbox
import CksRuntime.Storage.Proof.Stale
import CksRuntime.Adapters.Proof.AutoMerge
import CksRuntime.Projection.Proof.Index
import CksRuntime.Runtime.Runtime
import CksRuntime.Runtime.Proof.Desk
import CksRuntime.Runtime.Proof.Family
import CksRuntime.Runtime.Proof.Writers
import CksRuntime.Runtime.Proof.Archive
import CksRuntime.Runtime.Proof.Absorb
import CksRuntime.Gossip.Proof.Clocks
import CksRuntime.Gossip.Proof.Convergence
import CksRuntime.Gossip.Proof.Raising
import CksRuntime.Gossip.Proof.ObjectMerge
import CksRuntime.Gossip.Proof.Filter
import CksRuntime.Gossip.Proof.SeqNo
import CksRuntime.Gossip.Proof.Envelope
import CksRuntime.Gossip.Proof.Wire
import CksRuntime.Gossip.Proof.Watch
import CksRuntime.Runtime.Proof.Ledger
import CksRuntime.Gossip.Proof.Closing
import CksRuntime.Storage.Proof.Graphs
import CksRuntime.Storage.Proof.CompareAndSwap
import CksRuntime.Storage.Proof.Import
import CksRuntime.Storage.Proof.Restore
import CksRuntime.Reasoning.Proof.Coverage
import CksRuntime.Reasoning.Proof.Tasks
import CksRuntime.Reasoning.Proof.Freshness
import CksRuntime.Projection.Proof.Retry
import CksRuntime.Adapters.Proof.FieldDiff
import CksRuntime.Storage.Proof.Merge
import CksRuntime.Session.Proof.ReplayFilter
import CksRuntime.Gossip.Proof.Clones
import CksRuntime.Gossip.Proof.Redelivery
import CksRuntime.Gc.GarbageCollector
import CksRuntime.Gc.Proof.Collection
import CksRuntime.Crdt.Proof.Lattice
import CksRuntime.Lib.PyText
import CksRuntime.Reasoning.Components
import CksRuntime.Reasoning.Proof.VersionOrder
import CksRuntime.Reasoning.GraphSweep
import CksRuntime.Reasoning.Proof.Readings
import CksRuntime.Reasoning.Proof.GraphVersions
import CksRuntime.Reasoning.Proof.GraphEscalation
import CksRuntime.Lib.Binary64
import CksRuntime.Gossip.Scheduling
import CksRuntime.Gossip.Proof.Scheduling
import CksRuntime.Net.SafeFetch
import CksRuntime.Net.Proof.SafeFetch
import CksRuntime.Storage.PatchCodec
import CksRuntime.Storage.Proof.PatchCodec
import CksRuntime.Gossip.Server
import CksRuntime.Gossip.Network
import CksRuntime.Gossip.Proof.Authentic
import CksRuntime.Gossip.Proof.Server
import CksRuntime.Gossip.Proof.Network
import CksRuntime.Lib.Doubling
import CksRuntime.Gossip.Membership
import CksRuntime.Gossip.Proof.Membership
import CksRuntime.Lib.LiveList
import CksRuntime.Events.EventBus
import CksRuntime.Events.Proof.EventBus
import CksRuntime.Runtime.BackgroundLoop
import CksRuntime.Runtime.Proof.BackgroundLoop
import CksRuntime.Lib.Respects
import CksRuntime.Pipeline.Proof.Results
import CksRuntime.Gossip.Exchange
import CksRuntime.Gossip.Proof.Exchange
import CksRuntime.Gossip.Rounds
import CksRuntime.Gossip.Proof.Rounds
import CksRuntime.Gossip.Forks
import CksRuntime.Gossip.Proof.Forks
import CksRuntime.Lib.Moves
import CksRuntime.Runtime.Proof.Durable
import CksRuntime.Pipeline.Proof.Unread
import CksRuntime.Runtime.Restart
import CksRuntime.Runtime.Proof.Restart
import CksRuntime.Runtime.Proof.Unnoticed
import CksRuntime.Reasoning.Proof.Visits
