import RingAllReduce.Library.Runs
import RingAllReduce.Library.Rotation
import RingAllReduce.Library.Splits
import RingAllReduce.Library.Exchange
import RingAllReduce.Library.TagQueue
import RingAllReduce.RingCollectives
import RingAllReduce.Execution
import RingAllReduce.Program
import RingAllReduce.Agreement
import RingAllReduce.MockInvariant
import RingAllReduce.AllReduceValue
import RingAllReduce.TagSafety
import RingAllReduce.ZeroCopyInvariant
import RingAllReduce.CallEvents
import RingAllReduce.LinkTraffic
import RingAllReduce.PhaseValues
import RingAllReduce.SumOverflow
import RingAllReduce.Teardown
import RingAllReduce.BootstrapProgress
import RingAllReduce.ZeroCopyRefinement
import RingAllReduce.VerbsMatching
import RingAllReduce.ControlStream
import RingAllReduce.PieceArithmetic
import RingAllReduce.DescriptorMatching
import RingAllReduce.QueueOverflow
import RingAllReduce.VerbsTermination
import RingAllReduce.StatusAgreement
import RingAllReduce.RejectedCalls
import RingAllReduce.VerbsRefinement
import RingAllReduce.CallResults
import RingAllReduce.ProcessGroupLifetime
import RingAllReduce.EndpointCollectives
import RingAllReduce.Session
import RingAllReduce.Disagreement
