import RocToolkit.Address.IoUri
import RocToolkit.Audio.Mixer
import RocToolkit.Audio.OpusGaps
import RocToolkit.Audio.PcmCapture
import RocToolkit.Audio.PcmRoundTrip
import RocToolkit.Core.MemoryLimiter
import RocToolkit.Core.MpscCorrect
import RocToolkit.Core.RingQueue
import RocToolkit.Core.Seqlock
import RocToolkit.Core.SpscRingBuffer
import RocToolkit.Fec.ReaderRuns
import RocToolkit.Fec.WriterCorrect
import RocToolkit.Netio.TcpRuns
import RocToolkit.Netio.UdpClose
import RocToolkit.Netio.UdpReceive
import RocToolkit.Node.Ports
import RocToolkit.Packet.RoundTrip
import RocToolkit.Pipeline.LoopRuns
import RocToolkit.Pipeline.Orphans
import RocToolkit.Pipeline.RouteOrder
import RocToolkit.Rtcp.FromScratch
import RocToolkit.Rtcp.Locality
import RocToolkit.Rtcp.NtpRoundTrip
import RocToolkit.Rtcp.RoundTrip
import RocToolkit.Rtcp.RttRuns
import RocToolkit.Rtp.TimestampMapping
import RocToolkit.Sdp.MediaSections
