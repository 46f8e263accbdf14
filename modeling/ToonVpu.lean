import ToonVpu.Foundation.Circular
import ToonVpu.Foundation.Machine
import ToonVpu.Lib.Bitstream
import ToonVpu.Stream.Rtp
import ToonVpu.Stream.Feed
import ToonVpu.Stream.Sender
import ToonVpu.Stream.Mpeg4
import ToonVpu.Stream.Mpeg4Loss
import ToonVpu.Stream.H264
import ToonVpu.Stream.H264Store
import ToonVpu.Stream.H264Sender
import ToonVpu.Stream.H264Unit
import ToonVpu.Stream.H264Groups
import ToonVpu.Stream.H264Outcome
import ToonVpu.Stream.H264Loss
import ToonVpu.Stream.H264Chain
import ToonVpu.Lib.Lifetime
import ToonVpu.Stream.Buffers
import ToonVpu.Stream.Session
import ToonVpu.Stream.SessionLock
import ToonVpu.Stream.SessionRing
import ToonVpu.Stream.SessionBuffers
import ToonVpu.Foundation.Ownership
import ToonVpu.Kernel.Pool
import ToonVpu.Kernel.Driver
import ToonVpu.Kernel.Confinement
import ToonVpu.Kernel.Provenance
import ToonVpu.Lib.Io
import ToonVpu.Stream.Render
import ToonVpu.Stream.SessionDisplay
import ToonVpu.Stream.Screen
import ToonVpu.Stream.SessionPrp
import ToonVpu.Stream.SessionGate
import ToonVpu.Lib.Commands
import ToonVpu.Stream.SessionBusy
import ToonVpu.Stream.SessionRefeed
import ToonVpu.Stream.H264Room
import ToonVpu.Stream.H264Lossless
import ToonVpu.Foundation.Logged
import ToonVpu.Stream.RtpMemory
import ToonVpu.Stream.RtpSafety
import ToonVpu.Stream.H264Recovery
import ToonVpu.Stream.H264Agree
import ToonVpu.Foundation.CInt
import ToonVpu.Kernel.LastClose
import ToonVpu.Kernel.PpResize
import ToonVpu.Kernel.PpTables
import ToonVpu.Kernel.PpConvert
import ToonVpu.Kernel.PrpScale
import ToonVpu.Kernel.PrpTables
import ToonVpu.Kernel.PrpConvert
import ToonVpu.Kernel.PrpTotal
import ToonVpu.Foundation.BlockHash
import ToonVpu.Foundation.Md5
import ToonVpu.Stream.Md5
import ToonVpu.Foundation.Base64
import ToonVpu.Foundation.Text
import ToonVpu.Stream.RtspUrl
import ToonVpu.Stream.Sdp
import ToonVpu.Stream.Sprop
import ToonVpu.Foundation.Pieces
import ToonVpu.Stream.RtspRead
import ToonVpu.Stream.RtspReceive
import ToonVpu.Kernel.PoolRuns
import ToonVpu.Stream.SessionSkip
import ToonVpu.Stream.Placement
import ToonVpu.Stream.Chroma
import ToonVpu.Stream.H264Sets
import ToonVpu.Stream.Delivery
import ToonVpu.Stream.Digest
import ToonVpu.Foundation.Custody
import ToonVpu.Stream.SessionHandback
import ToonVpu.Stream.SessionLog
import ToonVpu.Foundation.Surface
import ToonVpu.Stream.SessionOverlay
import ToonVpu.Stream.SessionWatchdog
import ToonVpu.Foundation.LastWins
import ToonVpu.Stream.PpCsc
import ToonVpu.Stream.QpMap
import ToonVpu.Foundation.Timers
import ToonVpu.Doorbell.Sender
import ToonVpu.Doorbell.Cooldown
import ToonVpu.Doorbell.Shutdown
import ToonVpu.Doorbell.Trigger
import ToonVpu.Stream.Base64Trip
import ToonVpu.Foundation.Blocks
import ToonVpu.Foundation.Exchange
import ToonVpu.Stream.RtspSend
import ToonVpu.Stream.RtspClient
import ToonVpu.Stream.RtspCamera
import ToonVpu.Kernel.PrpExact
import ToonVpu.Lib.Firmware
import ToonVpu.Foundation.Mutex
import ToonVpu.Kernel.PpEngine
import ToonVpu.Stream.FrameWait
