import Kitsune2.Lib.Circle
import Kitsune2.Lib.Effect
import Kitsune2.Lib.Greedy
import Kitsune2.Lib.Loops
import Kitsune2.Lib.Maps
import Kitsune2.Lib.Retain
import Kitsune2.Lib.Runs
import Kitsune2.Lib.Tiling
import Kitsune2.Lib.XorFold
import Kitsune2.Api.Basic
import Kitsune2.Api.Geometry
import Kitsune2.Api.Time
import Kitsune2.Dht.Accuracy
import Kitsune2.Dht.ArcConversions
import Kitsune2.Dht.ArcSet
import Kitsune2.Dht.ArcUnion
import Kitsune2.Dht.Budgeted
import Kitsune2.Dht.Collect
import Kitsune2.Dht.Combine
import Kitsune2.Dht.Completeness
import Kitsune2.Dht.Dht
import Kitsune2.Dht.Differences
import Kitsune2.Dht.Exchange
import Kitsune2.Dht.History
import Kitsune2.Dht.Incremental
import Kitsune2.Dht.Interleaved
import Kitsune2.Dht.Layout
import Kitsune2.Dht.Lockstep
import Kitsune2.Dht.OpStore
import Kitsune2.Dht.Partition
import Kitsune2.Dht.Rebuild
import Kitsune2.Dht.Sector
import Kitsune2.Dht.Snapshot
import Kitsune2.Dht.Spending
import Kitsune2.Dht.Summary
import Kitsune2.Dht.Sync
import Kitsune2.Dht.TimePartition
import Kitsune2.Dht.Total
import Kitsune2.Sharding.Blocks
import Kitsune2.Sharding.Controller
import Kitsune2.Sharding.ControllerInvariant
import Kitsune2.Sharding.ControllerRun
import Kitsune2.Sharding.Coverage
import Kitsune2.Sharding.DeliveryOrder
import Kitsune2.Sharding.Forged
import Kitsune2.Sharding.Intents
import Kitsune2.Sharding.Progress
import Kitsune2.Sharding.Recheck
import Kitsune2.Sharding.StaleModel
import Kitsune2.Sharding.TableHistory
import Kitsune2.Gossip.AcceptLimit
import Kitsune2.Gossip.Calls
import Kitsune2.Gossip.CompletedRounds
import Kitsune2.Gossip.Crossing
import Kitsune2.Gossip.Isolation
import Kitsune2.Gossip.NewOpPaging
import Kitsune2.Gossip.Protocol
import Kitsune2.Gossip.Respond
import Kitsune2.Gossip.State
import Kitsune2.Gossip.Tasks
import Kitsune2.Core.Fetch
import Kitsune2.Core.MemOpStore
import Kitsune2.Core.PeerAccess
import Kitsune2.Core.PeerConvergence
import Kitsune2.Core.PeerStore
import Kitsune2.Core.SpaceIsolation
import Kitsune2.Transport.Connection
import Kitsune2.Transport.Convergence
import Kitsune2.Transport.DeadSlot
import Kitsune2.Transport.Identity
import Kitsune2.Transport.Node
import Kitsune2.Transport.SimultaneousOpen
import Kitsune2.Transport.SimultaneousRun
import Kitsune2.Transport.SpaceAddress
import Kitsune2.Transport.SpaceRelay
import Kitsune2.Transport.Steps
import Kitsune2.Bootstrap.NewestWord
import Kitsune2.Bootstrap.Push
import Kitsune2.Bootstrap.PutServed
import Kitsune2.Bootstrap.RelayAccess
import Kitsune2.Bootstrap.Space
import Kitsune2.Bootstrap.SpaceMap
import Kitsune2.Gossip.RoundBudget
import Kitsune2.Gossip.Charges
import Kitsune2.Gossip.OffersWithin
import Kitsune2.Dht.RecentTime
import Kitsune2.Sharding.SharedView
import Kitsune2.Dht.EarlyUpdate
import Kitsune2.Dht.ExactDiff
import Kitsune2.Dht.GreedySpending
import Kitsune2.Dht.FailedUpdate
import Kitsune2.Dht.Walk
import Kitsune2.Dht.Offers
import Kitsune2.Dht.AgreedArcs
import Kitsune2.Dht.Uniform
import Kitsune2.Dht.PanicFree
import Kitsune2.Dht.Restart
import Kitsune2.Dht.Arcs
import Kitsune2.Dht.SyncedSectors
import Kitsune2.Gossip.StorageArc
import Kitsune2.Gossip.WireSnapshots
import Kitsune2.Lib.Ranks
import Kitsune2.Sharding.Growth
import Kitsune2.Sharding.WireIntents
import Kitsune2.Core.PeerListeners
import Kitsune2.Gossip.FailedAccept
import Kitsune2.Api.Url
import Kitsune2.Lib.BigEndian
import Kitsune2.Transport.Frame
import Kitsune2.Transport.FrameStream
import Kitsune2.Sharding.RecentContact
import Kitsune2.Dht.NamedSectors
import Kitsune2.Gossip.HonestRound
import Kitsune2.Gossip.RoundClosure
import Kitsune2.Gossip.BurstWindow
import Kitsune2.Core.FetchMetadata
import Kitsune2.Core.FetchReports
import Kitsune2.Core.FetchQueue
import Kitsune2.Bootstrap.SpaceList
import Kitsune2.Lib.Files
import Kitsune2.Bootstrap.Store
import Kitsune2.Lib.SortedMap
import Kitsune2.Api.Config
import Kitsune2.Api.ConfigUpdate
import Kitsune2.Dht.ExactTime
import Kitsune2.Dht.RangedUpdate
import Kitsune2.Dht.FactorRange
import Kitsune2.Sharding.WaitingRacer
import Kitsune2.Sharding.Checks
import Kitsune2.Sharding.Network
import Kitsune2.Sharding.NetworkRun
import Kitsune2.Sharding.PatientSafety
import Kitsune2.Core.LocalAgents
import Kitsune2.Core.LocalAgentsRun
import Kitsune2.Core.ReSigning
import Kitsune2.Dht.Turns
import Kitsune2.Gossip.Answers
import Kitsune2.Gossip.RoundDelivery
import Kitsune2.Gossip.Contacts
import Kitsune2.Gossip.Fairness
import Kitsune2.Gossip.RoundAge
import Kitsune2.Core.FetchComplete
import Kitsune2.Core.FetchOrigin
