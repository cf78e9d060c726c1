import NetworkLab.Lib.Run
import NetworkLab.Lib.Walk
import NetworkLab.Lib.MinScan
import NetworkLab.Lib.OnesComplement
import NetworkLab.Lib.Buckets
import NetworkLab.Lib.Bytes
import NetworkLab.Lib.CircularBuffer
import NetworkLab.Lib.Tiling
import NetworkLab.Lib.LinkedRing
import NetworkLab.Lib.Logged
import NetworkLab.Lib.Trie
import NetworkLab.Lib.LastWrite
import NetworkLab.Lib.FirstMax
import NetworkLab.Lib.PrefixMask
import NetworkLab.ListHead
import NetworkLab.Checksum
import NetworkLab.SpanningTree.Switch
import NetworkLab.SpanningTree.Network
import NetworkLab.SpanningTree.Soundness
import NetworkLab.SpanningTree.Selection
import NetworkLab.SpanningTree.AtRest
import NetworkLab.SpanningTree.Roles
import NetworkLab.SpanningTree.RootPort
import NetworkLab.Lookup.PrefixTree
import NetworkLab.Lookup.CvTree
import NetworkLab.Lookup.Compression
import NetworkLab.Lookup.Prefixes
import NetworkLab.Lookup.Insertion
import NetworkLab.Lookup.LeafPush
import NetworkLab.Lookup.PushedRoutes
import NetworkLab.Lookup.Agreement
import NetworkLab.Lookup.LongestMatch
import NetworkLab.Lookup.PrefixMap
import NetworkLab.Lookup.Inheritance
import NetworkLab.Lookup.DottedDecimal
import NetworkLab.Mospf.Daemon
import NetworkLab.Mospf.Database
import NetworkLab.Lib.ShortestPath
import NetworkLab.Mospf.Graph
import NetworkLab.Mospf.ShortestPaths
import NetworkLab.Mospf.Topology
import NetworkLab.Mospf.HopDistances
import NetworkLab.Mospf.Threads
import NetworkLab.Mospf.Consistency
import NetworkLab.Mospf.LockDiscipline
import NetworkLab.Mospf.DistanceSort
import NetworkLab.Mospf.RouteSafety
import NetworkLab.Mospf.Internet
import NetworkLab.Mospf.RouteInstallation
import NetworkLab.Mospf.Neighbours
import NetworkLab.Mospf.Packets
import NetworkLab.Mospf.LsuRoundTrip
import NetworkLab.Mospf.RoutingTable
import NetworkLab.Mospf.Forwarding
import NetworkLab.Mospf.Flooding
import NetworkLab.Mospf.LsuBounds
import NetworkLab.Mospf.LsuSequence
import NetworkLab.Router.ArpCache
import NetworkLab.Router.Expiry
import NetworkLab.Router.Insertion
import NetworkLab.Router.LongestMatch
import NetworkLab.Router.Forwarding
import NetworkLab.Switching.LearningSwitch
import NetworkLab.Switching.Fabric
import NetworkLab.Switching.Ageing
import NetworkLab.AddressTranslation.Table
import NetworkLab.AddressTranslation.Ports
import NetworkLab.AddressTranslation.RoundTrip
import NetworkLab.AddressTranslation.Sweep
import NetworkLab.AddressTranslation.Disposal
import NetworkLab.Tcp.RingBuffer
import NetworkLab.Tcp.BoundedQueue
import NetworkLab.Tcp.Sock
import NetworkLab.Tcp.Process
import NetworkLab.Tcp.Stream
import NetworkLab.Tcp.Delivery
import NetworkLab.Tcp.Retransmission
import NetworkLab.Tcp.Timers
import NetworkLab.Tcp.TimerList
import NetworkLab.Tcp.TimerScan
import NetworkLab.Tcp.Closing
import NetworkLab.Tcp.FinOrder
import NetworkLab.Tcp.Conversation
import NetworkLab.Tcp.Sockets
import NetworkLab.Tcp.Calls
import NetworkLab.Tcp.RefCounts
import NetworkLab.Tcp.Demultiplexing
import NetworkLab.Tcp.BoundPorts
import NetworkLab.Tcp.SynchWait
import NetworkLab.Tcp.AcceptQueue
import NetworkLab.Tcp.Handshake
import NetworkLab.Tcp.ReceiveWindow
import NetworkLab.Tcp.StackState
import NetworkLab.Tcp.Frame
import NetworkLab.Tcp.Malformed
import NetworkLab.Tcp.SegmentChecksum
import NetworkLab.Tcp.Segmentation
import NetworkLab.Tcp.SendWindow
import NetworkLab.Tcp.Writer
import NetworkLab.Tcp.Translation
import NetworkLab.Tcp16.Process
import NetworkLab.Tcp16.Receiving
import NetworkLab.Tcp16.SequenceCheck
import NetworkLab.LetterCount
import NetworkLab.ArpCache.PendingPackets
import NetworkLab.ArpCache.Insertion
import NetworkLab.ArpCache.Messages
import NetworkLab.ArpCache.Link
import NetworkLab.ArpCache.Accounts
import NetworkLab.ArpCache.Resolution
import NetworkLab.ArpCache.Settling
import NetworkLab.Tcp.ListNodes
import NetworkLab.Tcp.NodeDiscipline
import NetworkLab.ListTraversal
import NetworkLab.Router.IcmpMessages
import NetworkLab.Icmp.Stack
import NetworkLab.Lib.Cabling
import NetworkLab.Lib.InFlight
import NetworkLab.Broadcast.Hub
import NetworkLab.Routing.Travel
import NetworkLab.Routing.Segments
import NetworkLab.Lib.EndlessRun
import NetworkLab.SpanningTree.Convergence
