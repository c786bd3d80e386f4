import Jrtplib4Android.Core.CInt
import Jrtplib4Android.Core.Double
import Jrtplib4Android.Core.Loop
import Jrtplib4Android.Core.Pieces
import Jrtplib4Android.Core.Block
import Jrtplib4Android.Core.Bytes
import Jrtplib4Android.Core.File
import Jrtplib4Android.Sender.Session
import Jrtplib4Android.Sender.Nalu
import Jrtplib4Android.Sender.Unfragmented
import Jrtplib4Android.Sender.FuTrain
import Jrtplib4Android.Sender.Timestamp
import Jrtplib4Android.Ps.Demux
import Jrtplib4Android.Ps.Reached
import Jrtplib4Android.Ps.Refinement
import Jrtplib4Android.Ps.Cursor
import Jrtplib4Android.Ps.Grammar
import Jrtplib4Android.Ps.Truncation
import Jrtplib4Android.Ps.Safety
import Jrtplib4Android.Receiver.Process
import Jrtplib4Android.Receiver.Reassembly
import Jrtplib4Android.Receiver.Isolation
import Jrtplib4Android.Rtmp.Packet
import Jrtplib4Android.Rtmp.Flv
import Jrtplib4Android.Rtmp.Push
import Jrtplib4Android.Rtmp.FlvFile
import Jrtplib4Android.Core.Run
import Jrtplib4Android.Core.Text
import Jrtplib4Android.Rtmp.Calls
import Jrtplib4Android.Rtmp.ChunkReader
import Jrtplib4Android.Rtmp.ChunkWriter
import Jrtplib4Android.Rtmp.ChunkStream
import Jrtplib4Android.Rtmp.Published
import Jrtplib4Android.Rtmp.Overrun
import Jrtplib4Android.Rtmp.FileOverrun
import Jrtplib4Android.Rtmp.StreamTime
import Jrtplib4Android.Rtmp.Amf
import Jrtplib4Android.Rtmp.AmfWire
import Jrtplib4Android.Rtmp.Commands
import Jrtplib4Android.Rtmp.Session
import Jrtplib4Android.Rtmp.Invoke
import Jrtplib4Android.Rtsp.Client
import Jrtplib4Android.Rtsp.Segmentation
import Jrtplib4Android.Rtsp.Outstanding
import Jrtplib4Android.Receiver.Sources
import Jrtplib4Android.Receiver.Destinations
import Jrtplib4Android.Handle.Init
import Jrtplib4Android.Receiver.Stop
import Jrtplib4Android.Camera.Pipeline
import Jrtplib4Android.Rtsp.IpCamera
import Jrtplib4Android.Rtsp.Negotiation
import Jrtplib4Android.Handle.Forward
import Jrtplib4Android.Core.Logged
import Jrtplib4Android.Receiver.Accesses
import Jrtplib4Android.Receiver.RawPacket
import Jrtplib4Android.Receiver.PackStart
import Jrtplib4Android.Receiver.Marker
import Jrtplib4Android.Receiver.Departures
import Jrtplib4Android.Sender.Bounds
import Jrtplib4Android.Handle.SendByte
import Jrtplib4Android.Rtmp.FlvData
import Jrtplib4Android.Core.Filling
import Jrtplib4Android.Osd.Rotation
import Jrtplib4Android.Osd.Watermark
import Jrtplib4Android.Osd.WatermarkSafety
import Jrtplib4Android.Camera.ParameterSets
import Jrtplib4Android.Core.Stores
import Jrtplib4Android.Osd.Conversions
import Jrtplib4Android.Osd.Argb
import Jrtplib4Android.Osd.Glyphs
import Jrtplib4Android.Rtsp.KeyLines
import Jrtplib4Android.Rtsp.Grammar
import Jrtplib4Android.Rtsp.Wire
import Jrtplib4Android.Rtsp.Worker
import Jrtplib4Android.Rtsp.Identifiers
import Jrtplib4Android.Core.CursorMap
import Jrtplib4Android.Core.DoublyLinked
import Jrtplib4Android.Rtp.KeyHashTable
import Jrtplib4Android.Rtp.KeyHashMap
import Jrtplib4Android.Core.ReorderBuffer
import Jrtplib4Android.Rtp.SourceStats
import Jrtplib4Android.Rtp.ReceiveQueue
import Jrtplib4Android.Receiver.Polling
