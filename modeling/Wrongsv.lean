import Wrongsv.L2Machine.Vision.Unframing
import Wrongsv.Bugs.VisionHeldBytes
import Wrongsv.L3Protocol.Kcp.Network
import Wrongsv.L2Machine.Kcp.RoundTripTimes
import Wrongsv.Bugs.KcpCloseDropsData
import Wrongsv.L2Machine.AnyTls.Demux
import Wrongsv.Bugs.AnyTlsPartialReads
import Wrongsv.Bugs.VmessOptionSpace
import Wrongsv.Bugs.VmessIdleReads
import Wrongsv.Bugs.VlessFirstRead
import Wrongsv.Bugs.VlessVisionPipelined
import Wrongsv.Bugs.VisionIdentity
import Wrongsv.Bugs.VlessLongDomain
import Wrongsv.L2Machine.DatagramDrain
import Wrongsv.Bugs.PacketaddrOversized
import Wrongsv.Bugs.UdpRelaySplitPackets
import Wrongsv.L1Encoding.WebSocketCodec
import Wrongsv.L2Machine.WebSocket.Mux
import Wrongsv.Bugs.WebSocketIdleReads
import Wrongsv.Bugs.WebSocketEmptyFrame
import Wrongsv.Bugs.WebSocketEarlyFrames
import Wrongsv.Bugs.KcpMaskOverhead
import Wrongsv.Bugs.KcpWindowOverflow
import Wrongsv.Bugs.KcpTimerPolarity
import Wrongsv.Bugs.KcpVisionBackPressure
import Wrongsv.L2Machine.Shadowsocks.ReplayWindow
import Wrongsv.Bugs.ShadowsocksUdpReplay
import Wrongsv.Bugs.TrojanUdpIpv6
import Wrongsv.Bugs.TuicShortAddress
import Wrongsv.Bugs.TuicStaleAssembly
import Wrongsv.Bugs.Hysteria2RequestLimit
import Wrongsv.Bugs.Hysteria2SlotCount
import Wrongsv.L2Machine.QuicObfs.Accounting
import Wrongsv.Bugs.GeckoChunkCount
import Wrongsv.Bugs.GeckoMessageIds
import Wrongsv.Bugs.SalamanderCoalesced
import Wrongsv.Bugs.ShadowTlsIdleReads
import Wrongsv.L2Machine.Trojan.Udp
import Wrongsv.L2Machine.NaivePadding
import Wrongsv.Bugs.RequestSessionReuse
import Wrongsv.Bugs.RealityAcceptLoss
import Wrongsv.Bugs.AnyTlsFallback
import Wrongsv.Bugs.TlsBridgeBackPressure
import Wrongsv.Bugs.TlsWriteContract
import Wrongsv.Bugs.ValidatorSharedId
import Wrongsv.Bugs.ClientConfigDrops
import Wrongsv.Bugs.ConfigSections
import Wrongsv.Bugs.ConfigUsers
import Wrongsv.Bugs.UuidTrailingText
import Wrongsv.Bugs.VmessNonceWrap
import Wrongsv.Bugs.VmessLengthOverflow
import Wrongsv.Bugs.HttpUpgradeSegments
import Wrongsv.Bugs.GrpcUplink
import Wrongsv.Bugs.Http2BodyWindow
import Wrongsv.Bugs.Http2StreamErrors
import Wrongsv.Bugs.RelayHalfClose
import Wrongsv.Bugs.RelayWaitsForClient
import Wrongsv.Bugs.MixedProxyPipelined
import Wrongsv.L1Encoding.KcpSegmentSlices
import Wrongsv.Bugs.ShadowTlsUdpEof
import Wrongsv.L2Machine.Vision.CompleteRecord
