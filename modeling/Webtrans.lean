import Webtrans.Data.Bytes
import Webtrans.Data.ByteStream
import Webtrans.Data.Arrival
import Webtrans.Data.Pipe
import Webtrans.Data.Lossy
import Webtrans.Data.Utf8
import Webtrans.Data.Transition
import Webtrans.Data.Bits
import Webtrans.Data.DecodeTable
import Webtrans.Data.Finmap
import Webtrans.Data.PrefixInteger
import Webtrans.Data.Waiters
import Webtrans.Data.Notify
import Webtrans.Data.Buf
import Webtrans.Data.Checked
import Webtrans.Proto.VarInt
import Webtrans.Proto.Tlv
import Webtrans.Proto.Frame
import Webtrans.Proto.ErrorCode
import Webtrans.Proto.Capsule
import Webtrans.Proto.Qpack.PrefixBounds
import Webtrans.Proto.Connect
import Webtrans.Proto.ConnectReader
import Webtrans.Proto.ConnectResponse
import Webtrans.Proto.Messages
import Webtrans.Proto.Huffman.Codes
import Webtrans.Proto.Huffman.Debug
import Webtrans.Proto.FrameView
import Webtrans.Proto.Readers
import Webtrans.Proto.Settings.Encode
import Webtrans.Proto.Settings.Negotiation
import Webtrans.Proto.Settings.Support
import Webtrans.Proto.UnexpectedEnd
import Webtrans.Proto.ConnectUrl
import Webtrans.Session.CapsuleReader
import Webtrans.Session.Reassembly
import Webtrans.Session.Connection
import Webtrans.Session.Machine
import Webtrans.Session.Agreement
import Webtrans.Session.CloseReason
import Webtrans.Session.Ending
import Webtrans.Session.Accept
import Webtrans.Session.Demultiplexing
import Webtrans.Session.Overtaking
import Webtrans.Session.Wakeups
import Webtrans.Session.CloseCapsule
import Webtrans.Session.FirstClose
import Webtrans.Session.StreamClosed
import Webtrans.Session.Closed
import Webtrans.Session.Raw
import Webtrans.Session.Server
import Webtrans.Session.Established
import Webtrans.Session.Handshake
import Webtrans.Session.HandshakeAgreement
import Webtrans.Session.HandshakeCompletion
import Webtrans.Session.HandshakeCourse
import Webtrans.Session.HandshakeProgress
import Webtrans.Session.HandshakeGuard
import Webtrans.Session.Opening
import Webtrans.Session.OpeningAgreement
import Webtrans.Session.OpeningCompletion
import Webtrans.Session.Datagrams
import Webtrans.Session.CapsuleBound
import Webtrans.Streams.WriteHelpers
import Webtrans.Streams.WriteBuf
import Webtrans.Streams.ReadHelpers
import Webtrans.Streams.ReadChunk
import Webtrans.Wasm.Recv
import Webtrans.Wasm.Send
import Webtrans.Wasm.Unavailable
import Webtrans.Session.Closing
import Webtrans.Session.CloseDelivery
