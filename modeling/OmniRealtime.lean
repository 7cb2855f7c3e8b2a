import OmniRealtime.Router.AckBarrier
import OmniRealtime.Router.WeightUpdate
import OmniRealtime.Serve.VideoEdge
import OmniRealtime.Vision.TextStream
import OmniRealtime.Router.CounterReports
import OmniRealtime.Pipeline.TerminalStates
import OmniRealtime.Pipeline.ReplicaAccounting
import OmniRealtime.Scheduling.StreamResidue
import OmniRealtime.Comm.PayloadRoundTrip
import OmniRealtime.Comm.LeaseSafety
import OmniRealtime.Pipeline.StreamLanes
import OmniRealtime.Serve.AudioCommits
import OmniRealtime.Serve.ResponseBalance
import OmniRealtime.Pipeline.AdminVerdict
import OmniRealtime.Router.AggregateStats
import OmniRealtime.Router.RelayBalance
import OmniRealtime.Scheduling.TerminalCleanup
import OmniRealtime.Scheduling.RowAlignment
import OmniRealtime.Pipeline.TpAdminResults
import OmniRealtime.Comm.NixlCompletion
import OmniRealtime.Serve.UsageSettlement
import OmniRealtime.Legacy.CapacityAccounting
import OmniRealtime.Legacy.RoundEnd
import OmniRealtime.Serve.ResponseFraming
import OmniRealtime.Vision.WindowBounds
import OmniRealtime.Vision.VisibleRemap
import OmniRealtime.Vision.WindowFailure
import OmniRealtime.Vision.MemoryBudget
import OmniRealtime.Vision.MropePositions
import OmniRealtime.Vision.DecodeTransactions
import OmniRealtime.Speech.MingTalker
import OmniRealtime.Speech.MingSpeech
import OmniRealtime.Speech.ZonosSurvival
import OmniRealtime.Vision.UsageAgreement
import OmniRealtime.Pipeline.TerminalRuns
import OmniRealtime.Router.RejectedUpdate
import OmniRealtime.Router.FailureReports
import OmniRealtime.Pipeline.FanIn
import OmniRealtime.Comm.SlotAllocator
import OmniRealtime.Comm.ReservationRuns
import OmniRealtime.Scheduling.BatchOrder
import OmniRealtime.Scheduling.StaleOverrun
import OmniRealtime.Speech.HiggsStream
import OmniRealtime.Serve.RmsSplitter
import OmniRealtime.Scheduling.TypedTensor
import OmniRealtime.Speech.TokenText
import OmniRealtime.Serve.SpeechWs
import OmniRealtime.Serve.VoiceVersions
import OmniRealtime.Scheduling.EncoderSubmissions
import OmniRealtime.Scheduling.ReferenceFlights
import OmniRealtime.Speech.MossEmission
import OmniRealtime.Speech.HiggsRollout
import OmniRealtime.Speech.MossStaircase
import OmniRealtime.Speech.DecodePool
import OmniRealtime.Speech.CudaGraphs
import OmniRealtime.Pipeline.Endpoints
import OmniRealtime.Pipeline.IsolatedPayload
import OmniRealtime.Legacy.FrameRelay
import OmniRealtime.Speech.FishStream
