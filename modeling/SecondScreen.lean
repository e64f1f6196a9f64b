import SecondScreen.Conc.Program
import SecondScreen.Conc.RelyGuarantee
import SecondScreen.Conc.System
import SecondScreen.Machine.Memory
import SecondScreen.Machine.Loop
import SecondScreen.Machine.Lanes
import SecondScreen.Machine.Intrinsics
import SecondScreen.Nv12.Scalar
import SecondScreen.Ring.Layout
import SecondScreen.Ring.Driver
import SecondScreen.Ring.PublishOutline
import SecondScreen.Ring.Reader
import SecondScreen.Ring.Sharing
import SecondScreen.Ring.Protocol
import SecondScreen.Ring.DriverProof
import SecondScreen.Ring.HostOps
import SecondScreen.Ring.KnownSlot
import SecondScreen.Ring.HostProof
import SecondScreen.Ring.Ownership
import SecondScreen.Ring.ReadOutline
import SecondScreen.Ring.Rollback
import SecondScreen.Ring.SlotLayout
import SecondScreen.Ring.Agreement
import SecondScreen.Ring.Restart
import SecondScreen.Ring.RestartProof
import SecondScreen.Ring.TornFrames
import SecondScreen.Ring.Delivery
import SecondScreen.Ring.Starvation
import SecondScreen.Ring.Reassignment
import SecondScreen.Ring.SequentialRead
import SecondScreen.Nv12.Planes
import SecondScreen.Nv12.Avx2
import SecondScreen.Nv12.Sse2
import SecondScreen.Nv12.Convert
import SecondScreen.Machine.ByteOrder
import SecondScreen.Wire.PacketWriter
import SecondScreen.Wire.Session
import SecondScreen.Wire.Framing
import SecondScreen.Wire.Truncation
import SecondScreen.Client.VideoDecoder
import SecondScreen.Client.StreamReceiver
import SecondScreen.Wire.RoundTrip
import SecondScreen.Wire.Transmission
import SecondScreen.Wire.AnnexB
import SecondScreen.Wire.LengthPrefixed
import SecondScreen.Wire.NalTypes
import SecondScreen.Wire.NalExtraction
import SecondScreen.Client.InputStarvation
import SecondScreen.Client.LatestFrameQueue
import SecondScreen.Client.QueueDrops
import SecondScreen.Client.QueueHistory
import SecondScreen.Host.LatestFrameQueue
import SecondScreen.Host.Worker
import SecondScreen.Host.Recovery
import SecondScreen.Host.Handover
import SecondScreen.Nvenc.Encoder
import SecondScreen.Conc.Runs
import SecondScreen.Nvenc.Order
import SecondScreen.Nvenc.Completion
import SecondScreen.Nvenc.Termination
import SecondScreen.Capture.Processor
import SecondScreen.Capture.SwapChainProcessor
import SecondScreen.Capture.Threads
import SecondScreen.Capture.Accounting
import SecondScreen.Capture.Publishing
import SecondScreen.Capture.Staging
import SecondScreen.Capture.InOrder
import SecondScreen.Capture.TearDown
import SecondScreen.Client.ConnectionManager
import SecondScreen.Client.ConnectionOwnership
import SecondScreen.Ring.FirstFrame
import SecondScreen.Capture.BufferPool
import SecondScreen.Capture.BufferOwnership
import SecondScreen.Json.Separated
import SecondScreen.Host.JsonParser
import SecondScreen.Host.JsonTokens
import SecondScreen.Host.JsonValues
import SecondScreen.Host.Handshake
import SecondScreen.Json.Utf8
import SecondScreen.Host.Utf8
import SecondScreen.Json.Writer
import SecondScreen.Json.Strings
import SecondScreen.Host.StringDecoding
import SecondScreen.Host.ReadHandshake
import SecondScreen.Host.CommandLine
import SecondScreen.Host.HandshakeResponse
import SecondScreen.Client.HandshakeResponse
import SecondScreen.Client.ScalarJson
import SecondScreen.Client.HandshakeAgreement
import SecondScreen.Client.ConnectionCallbacks
import SecondScreen.MediaFoundation.Encoder
import SecondScreen.MediaFoundation.Alignment
import SecondScreen.Host.IdleRefresh
import SecondScreen.Machine.RowCopy
import SecondScreen.MediaFoundation.InputBuffers
import SecondScreen.Host.CursorTracker
import SecondScreen.Client.OutputRelease
import SecondScreen.Machine.ScaledDivision
import SecondScreen.Ring.QpcConversion
import SecondScreen.Client.ReceiverThreads
import SecondScreen.Client.ReceiverShutdown
import SecondScreen.Client.ReceiverTermination
import SecondScreen.Client.Watchdog
import SecondScreen.Machine.HandleTable
import SecondScreen.Host.Serving
import SecondScreen.Host.ServingSockets
import SecondScreen.Host.ServingEnd
import SecondScreen.Host.ServingLimit
import SecondScreen.Nvenc.Submissions
import SecondScreen.MediaFoundation.Submissions
import SecondScreen.Encoding.H264Encoder
import SecondScreen.Encoding.Fallback
import SecondScreen.Encoding.Delivery
import SecondScreen.Monitoring.MonitorContext
import SecondScreen.Monitoring.Lifetime
import SecondScreen.Machine.NamedObjects
import SecondScreen.Naming.Processes
import SecondScreen.Naming.SingleHost
