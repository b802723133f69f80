import IPv8Plus.Lib.Outcome
import IPv8Plus.Lib.BigEndian
import IPv8Plus.Lib.Mask
import IPv8Plus.Lib.Maps
import IPv8Plus.Lib.Moves
import IPv8Plus.Lib.Blocks
import IPv8Plus.Lib.Keyed
import IPv8Plus.Codec.Header
import IPv8Plus.Codec.Encode
import IPv8Plus.Codec.Decode
import IPv8Plus.Codec.RoundTrip
import IPv8Plus.Lib.Run
import IPv8Plus.Lib.Reassembly
import IPv8Plus.Codec.Fragment
import IPv8Plus.Codec.Reassembler
import IPv8Plus.Codec.ReassemblerSafety
import IPv8Plus.Codec.Rejection
import IPv8Plus.Codec.FragmentTotal
import IPv8Plus.Codec.FragmentRoundTrip
import IPv8Plus.Tunnel.Frame
import IPv8Plus.Lib.SlidingWindow
import IPv8Plus.Lib.Word64
import IPv8Plus.Tunnel.Crypto
import IPv8Plus.Tunnel.Nonce
import IPv8Plus.Tunnel.Encapsulate
import IPv8Plus.Tunnel.Engine
import IPv8Plus.Tunnel.Shards
import IPv8Plus.Tunnel.Receiver
import IPv8Plus.Tunnel.Replay
import IPv8Plus.Tunnel.ReceiptReplay
import IPv8Plus.Tunnel.EncapsulateRoundTrip
import IPv8Plus.Tunnel.CipherCache
import IPv8Plus.Codec.Layouts
import IPv8Plus.Routing.RouteTrace
import IPv8Plus.Tunnel.Auth
import IPv8Plus.Tunnel.DataPlane
import IPv8Plus.Tunnel.Flow
import IPv8Plus.Codec.Rebuilt
import IPv8Plus.Tunnel.WorkerEngine
import IPv8Plus.Tunnel.ShardRouting
import IPv8Plus.Codec.Spelling
import IPv8Plus.Tunnel.ShardDelivery
import IPv8Plus.Lib.Ledger
import IPv8Plus.Tunnel.Relay
import IPv8Plus.Tunnel.RelayRun
import IPv8Plus.Tunnel.Traffic
import IPv8Plus.Codec.InOrder
import IPv8Plus.Tunnel.SourceRoute
import IPv8Plus.Tunnel.Arrival
import IPv8Plus.Fec.DataCounter
import IPv8Plus.Fec.Rx
import IPv8Plus.Fec.RecoveryFrame
import IPv8Plus.Fec.SingleLoss
import IPv8Plus.Lib.KeyQueue
import IPv8Plus.Fec.RxState
import IPv8Plus.Observe.Cumulative
import IPv8Plus.Observe.LateReport
import IPv8Plus.Observe.LossAccount
import IPv8Plus.Observe.CcBounds
import IPv8Plus.Lib.Hysteresis
import IPv8Plus.Observe.Hysteresis
import IPv8Plus.Observe.MemberIdentity
import IPv8Plus.Tunnel.AbuseGuard
import IPv8Plus.Tunnel.BanState
import IPv8Plus.Tunnel.TempBan
import IPv8Plus.Driver.Capacity
import IPv8Plus.Driver.Pool
import IPv8Plus.Driver.Transport
import IPv8Plus.Driver.Sender
import IPv8Plus.Cloud.SignedMessages
import IPv8Plus.Tunnel.ReplayedInit
import IPv8Plus.Adapter.LearnedEntry
import IPv8Plus.Adapter.Mediation
import IPv8Plus.Tunnel.Fallback
import IPv8Plus.Lib.Clockwise
import IPv8Plus.Routing.Chord
import IPv8Plus.Routing.ChordLookup
import IPv8Plus.Routing.ChordGrowth
import IPv8Plus.Lib.Lru
import IPv8Plus.Lib.Reader
import IPv8Plus.Cloud.Store
import IPv8Plus.Cloud.CachedStore
import IPv8Plus.Cloud.DhtEntry
import IPv8Plus.Cloud.DhtStore
import IPv8Plus.Cloud.Sweep
import IPv8Plus.Cloud.JsonStrings
import IPv8Plus.Cloud.Restart
import IPv8Plus.Cloud.Ans
import IPv8Plus.Cloud.AnsIndex
import IPv8Plus.Cloud.AnsLease
import IPv8Plus.Lib.IpText
import IPv8Plus.Hook.Inspect
import IPv8Plus.Hook.Dispatch
import IPv8Plus.Hook.Protocol
import IPv8Plus.Hook.Bus
import IPv8Plus.Hook.Attribution
import IPv8Plus.Hook.Cached
import IPv8Plus.Forward.Firewall
import IPv8Plus.Forward.Forwarder
import IPv8Plus.Cloud.Resolver
import IPv8Plus.Cloud.ZoneServer
import IPv8Plus.WsNode.RelayHub
import IPv8Plus.WsNode.RelaySessions
import IPv8Plus.WsNode.RelayClaims
import IPv8Plus.Tunnel.SuiteFixed
import IPv8Plus.WintunNode.Rio
import IPv8Plus.WintunNode.RioSlots
import IPv8Plus.Portal.Dhcp
import IPv8Plus.Portal.Allocation
import IPv8Plus.Neigh.Neighbor
import IPv8Plus.Neigh.Trust
import IPv8Plus.Tunnel.FlowKey
import IPv8Plus.Lib.Lanes
import IPv8Plus.Tunnel.Lane
import IPv8Plus.Tunnel.FlowOrder
import IPv8Plus.Adapter.Roaming
import IPv8Plus.Tunnel.Debounce
import IPv8Plus.Tunnel.PlainPeer
import IPv8Plus.Tunnel.Promotion
import IPv8Plus.Cloud.CardBytes
import IPv8Plus.Cloud.EntryTotal
import IPv8Plus.Lib.Utf8
import IPv8Plus.Cloud.Candidates
import IPv8Plus.Cloud.EntryRoundTrip
import IPv8Plus.Lib.Ranking
import IPv8Plus.Cloud.AnsSearch
import IPv8Plus.Lib.IpPacket
import IPv8Plus.Hook.Ports
import IPv8Plus.Lib.OnesComplement
import IPv8Plus.Compat.Checksum
import IPv8Plus.Compat.Ip
import IPv8Plus.Compat.Mss
import IPv8Plus.Compat.WholeSegment
import IPv8Plus.Compat.Pieces
import IPv8Plus.Compat.Errors
import IPv8Plus.Compat.Outbound
import IPv8Plus.Lib.Bfs
import IPv8Plus.Routing.StaticRoute
import IPv8Plus.Codec.SemanticTags
import IPv8Plus.Codec.Payloads
import IPv8Plus.Neigh.StoreFile
import IPv8Plus.Forward.RuleSet
import IPv8Plus.Lib.Priority
import IPv8Plus.Qos.Scheduler
import IPv8Plus.Driver.Registry
import IPv8Plus.Driver.BindEnds
import IPv8Plus.Driver.Snapshot
import IPv8Plus.Routing.ChordUpkeep
import IPv8Plus.Routing.ChordRounds
import IPv8Plus.Neigh.Client
import IPv8Plus.Neigh.Discovery
import IPv8Plus.Neigh.Handshake
import IPv8Plus.Neigh.SavedTable
