import RtmpRelay.ReleaseLag
import RtmpRelay.TimeBase
import RtmpRelay.FrameFeed
import RtmpRelay.Sessions
import RtmpRelay.RelayMuting
import RtmpRelay.Shutdown
import RtmpRelay.HitCoverage
import RtmpRelay.Whitespace
import RtmpRelay.Restarts
import RtmpRelay.Relayer
import RtmpRelay.MuxProtocol
import RtmpRelay.Arguments
import RtmpRelay.FlushSafety
import RtmpRelay.MuteLayout
import RtmpRelay.Codewords
import RtmpRelay.HitUtf8
import RtmpRelay.SentenceEnd
import RtmpRelay.ResampleRoom
import RtmpRelay.TokenHistory
import RtmpRelay.AudioDelivery
import RtmpRelay.AudioProgress
import RtmpRelay.AudioSlices
import RtmpRelay.FrameDelivery
import RtmpRelay.LostFailure
import RtmpRelay.CriticalSections
import RtmpRelay.DelayerThreads
import RtmpRelay.OwnedHeap
import RtmpRelay.PacketMemory
import RtmpRelay.PacketRefinement
import RtmpRelay.EventParsing
import RtmpRelay.FirstAnswer
import RtmpRelay.HeardFrames
import RtmpRelay.NextConnection
import RtmpRelay.SignedRequest
