import SstpClient.Lib.Bytes
import SstpClient.Lib.Footprint
import SstpClient.Lib.Machine
import SstpClient.Buffer
import SstpClient.Packet
import SstpClient.PacketRoundTrip
import SstpClient.ConnectMsg
import SstpClient.PacketBounds
import SstpClient.Recv
import SstpClient.RecvBound
import SstpClient.Reassembly
import SstpClient.Lib.Records
import SstpClient.Lib.Ratchet
import SstpClient.Inject
import SstpClient.Ppp
import SstpClient.PppSpec
import SstpClient.MppeKeys
import SstpClient.MppeSync
import SstpClient.LinkUp
import SstpClient.Stream
import SstpClient.Retry
import SstpClient.StreamSpec
import SstpClient.State
import SstpClient.TxBufRun
import SstpClient.PppMem
import SstpClient.FrameBounds
import SstpClient.Uplink
import SstpClient.PacketImage
import SstpClient.ControlMsg
import SstpClient.StateSpec
import SstpClient.Call
import SstpClient.HandshakeRun
import SstpClient.Idle
import SstpClient.Lib.CString
import SstpClient.Http
import SstpClient.Provider
import SstpClient.Sessions
import SstpClient.ReconnectRun
import SstpClient.Tls
import SstpClient.Trust
import SstpClient.Lib.Framing
import SstpClient.Fcs
import SstpClient.Pinned
import SstpClient.Cmac
import SstpClient.Teardown
import SstpClient.CcpAck
import SstpClient.MsChap
import SstpClient.Completion
import SstpClient.Lib.LinkedList
import SstpClient.TxQueueRun
import SstpClient.SupersededRun
import SstpClient.Lib.InetPton
import SstpClient.Lib.Foundation
import SstpClient.Endpoint
import SstpClient.PacketLoop
import SstpClient.Lib.Unicode
import SstpClient.ChapKeys
import SstpClient.Lib.Tlv
import SstpClient.IpcpOptions
import SstpClient.Replies
import SstpClient.UrlSplit
import SstpClient.Operations
import SstpClient.KeepAlive
import SstpClient.HttpResponse
import SstpClient.Lib.Crc
import SstpClient.FrameCheck
import SstpClient.FrameMemory
import SstpClient.AttrAppend
import SstpClient.BuffPrint
import SstpClient.PasswordBytes
import SstpClient.ApiAttrs
import SstpClient.DeframeRun
import SstpClient.DeliveryRun
import SstpClient.EstablishRun
import SstpClient.Tunnel
import SstpClient.Negotiation
import SstpClient.SnoopRun
import SstpClient.StartupRun
import SstpClient.Contract
