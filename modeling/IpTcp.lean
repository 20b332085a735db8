import IpTcp.ContainerHeap
import IpTcp.RingBuffer
import IpTcp.Socket
import IpTcp.Runs
import IpTcp.Traces
import IpTcp.ReliableStream
import IpTcp.Receiver
import IpTcp.ReadRing
import IpTcp.ReceiverRuns
import IpTcp.Reassembly
import IpTcp.Duplicates
import IpTcp.Writer
import IpTcp.WriteRing
import IpTcp.Close
import IpTcp.SlidingWindow
import IpTcp.SenderRuns
import IpTcp.WindowChain
import IpTcp.SlidingInvariant
import IpTcp.Transmission
import IpTcp.Probing
import IpTcp.Advertised
import IpTcp.UnreadData
import IpTcp.Endpoint
import IpTcp.StepEffects
import IpTcp.SequenceShift
import IpTcp.Feeding
import IpTcp.Closing
import IpTcp.FileTransfer
import IpTcp.Teardown
import IpTcp.Accept
import IpTcp.SocketTable
import IpTcp.LockTrace
import IpTcp.Locks
import IpTcp.Livelock
import IpTcp.WriteProgress
import IpTcp.Rip
import IpTcp.RipResponse
import IpTcp.ConfiguredRoutes
import IpTcp.DistanceVector
import IpTcp.RipSoundness
import IpTcp.RipConvergence
import IpTcp.LearnedRoutes
import IpTcp.Bytes
import IpTcp.InternetChecksum
import IpTcp.Ipv4Header
import IpTcp.TcpWire
import IpTcp.LnxConfig
import IpTcp.LongestMatch
import IpTcp.Forwarding
import IpTcp.CanonicalKeys
import IpTcp.RipWire
import IpTcp.IpNode
import IpTcp.Datagrams
import IpTcp.UsableRoutes
import IpTcp.NextHop
import IpTcp.DottedText
import IpTcp.RipAdverts
import IpTcp.RebuiltPackets
import IpTcp.InterfaceToggle
import IpTcp.Network
import IpTcp.EarlyFin
import IpTcp.GivingUp
import IpTcp.Watchers
import IpTcp.Dispatcher
import IpTcp.SegmentAddresses
import IpTcp.Connections
import IpTcp.Stamps
import IpTcp.Incoming
import IpTcp.Outgoing
import IpTcp.Conversation
import IpTcp.Handshake
import IpTcp.Transport
import IpTcp.Lifecycle
import IpTcp.Release
import IpTcp.StreamRefinement
import IpTcp.Delivery
import IpTcp.LoopFreedom
import IpTcp.RoutedTraffic
import IpTcp.Router
import IpTcp.RouterNetwork
