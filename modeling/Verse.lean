import Verse.Lib.Memory
import Verse.Commands.Table
import Verse.Commands.Pack
import Verse.Commands.Unpack
import Verse.Commands.Layout
import Verse.Commands.RoundTrip
import Verse.History.AckNak
import Verse.History.Compression
import Verse.Lib.Chains
import Verse.Queues.HashArray
import Verse.Lib.Run
import Verse.Queues.InQueue
import Verse.Queues.OutQueue
import Verse.Queues.OutQueueInv
import Verse.Queues.OutQueueSpec
import Verse.Queues.OutQueueRun
import Verse.Resend.PacketHistory
import Verse.Resend.PacketHistoryInv
import Verse.Resend.PacketHistorySpec
import Verse.Resend.AckNakHandling
import Verse.Resend.SenderRun
import Verse.Resend.Partition
import Verse.Resend.PartitionRun
import Verse.Resend.SentSize
import Verse.Resend.FailedSend
import Verse.Receive.ServerConn
import Verse.Packets.SysCommands
import Verse.Packets.SysRoundTrip
import Verse.Commands.Bounds
import Verse.Packets.SysBounds
import Verse.Stream.Messages
import Verse.Server.Handshake
import Verse.Server.Slot
import Verse.Server.AuthGate
import Verse.Server.SlotReuse
import Verse.Server.CleanSlots
import Verse.Commands.SingleCmd
import Verse.Stream.Framing
import Verse.Receive.ClientConn
import Verse.Resend.SysCmdArray
import Verse.Resend.TruncatedAcks
import Verse.Nodes.Data
import Verse.Nodes.TagGroups
import Verse.Nodes.Layers
import Verse.Nodes.Node
import Verse.Nodes.SysNodes
import Verse.Lib.Loops
import Verse.Nodes.Effects
import Verse.Nodes.NodeEffects
import Verse.Nodes.SysEffects
import Verse.Nodes.NodeIds
import Verse.Nodes.Runs
import Verse.Nodes.Tree
import Verse.Nodes.Changes
import Verse.Nodes.LifeCycle
import Verse.Nodes.LayerValues
import Verse.Nodes.Locks
import Verse.Lib.Mutex
import Verse.Nodes.Mutexes
import Verse.Nodes.TagValues
import Verse.Nodes.Removal
import Verse.Lib.Tables
import Verse.Nodes.Ownership
import Verse.Lib.Forest
import Verse.Nodes.LayerTrees
import Verse.Nodes.LayerRemoval
import Verse.Nodes.LockExclusion
import Verse.Nodes.EntityIds
import Verse.Nodes.CycleTest
import Verse.Nodes.Rooted
import Verse.Nodes.Subscribers
import Verse.Nodes.MoveNotices
import Verse.History.Cut
import Verse.Commands.Termination
import Verse.Receive.FpsNegotiation
import Verse.Dgram.Packets
import Verse.Dgram.Server
import Verse.Dgram.Malformed
import Verse.Dgram.Client
import Verse.Dgram.Answers
import Verse.Dgram.PartOpen
import Verse.Dgram.ServerLoop
import Verse.Commands.Skipping
import Verse.Commands.LongStrings
import Verse.Commands.Counting
import Verse.Lib.Tallies
import Verse.Queues.OutQueueBooks
import Verse.Queues.OutQueueCounts
import Verse.Queues.OutQueueWeights
import Verse.Packets.NegotiateRoundTrip
import Verse.Packets.NegotiateBounds
import Verse.Nodes.StringTags
import Verse.Server.UrlGrammar
import Verse.Server.HostUrl
import Verse.Server.PortList
import Verse.Stream.UserAuth
import Verse.Lib.Stores
import Verse.Packets.SysArray
import Verse.Lib.LinkedCells
import Verse.Queues.HashedList
import Verse.Lib.CStrings
import Verse.Server.UpgradeRequest
import Verse.Server.CsvAccounts
import Verse.Server.HandshakeAnswers
import Verse.Queues.Lists
import Verse.Lib.Reads
import Verse.Queues.HashKeys
import Verse.Packets.StringUnpack
import Verse.Commands.SharedAddress
import Verse.Lib.Decimals
import Verse.Server.MongoDocuments
import Verse.Server.MongoTags
import Verse.Server.MongoLayers
import Verse.Lib.Together
import Verse.Queues.OutQueueGroups
import Verse.Queues.OutQueueGroupRun
import Verse.Stream.StreamWindow
import Verse.Lib.Walks
import Verse.Nodes.Places
import Verse.Nodes.PlaceWalks
import Verse.Nodes.Disconnects
import Verse.Lib.Resending
import Verse.Resend.DgramLink
import Verse.Resend.Delivery
import Verse.Resend.Settling
import Verse.Lib.Simulation
import Verse.Resend.Packing
import Verse.Resend.WireLink
import Verse.Resend.WireDelivery
import Verse.Resend.PackingEnds
import Verse.Lib.Replicas
import Verse.Nodes.TagRecords
import Verse.Nodes.QuietEvents
import Verse.Nodes.TagReplicas
import Verse.Stream.ClientHandshake
