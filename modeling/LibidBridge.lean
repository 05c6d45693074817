import LibidBridge.LabelledRuns
import LibidBridge.CallbackDocument
import LibidBridge.ReferenceCrates
import LibidBridge.TextMatches
import LibidBridge.SortedMembers
import LibidBridge.JsonDecoding
import LibidBridge.PublishedRecord
import LibidBridge.Refresher
import LibidBridge.AdmissionAgreement
import LibidBridge.Atomicity
import LibidBridge.MarkerSubstitution
import LibidBridge.RetrySchedule
import LibidBridge.MediaType
import LibidBridge.ResponseFields
import LibidBridge.CanonicalOrigins
import LibidBridge.RequestBodies
import LibidBridge.FailurePage
import LibidBridge.FailureReason
import LibidBridge.Accounting
import LibidBridge.Progress
import LibidBridge.Isolation
import LibidBridge.Recovery
import LibidBridge.Cancellation
import LibidBridge.Releases
import LibidBridge.LoopRefinement
import LibidBridge.CrossOriginReads
import LibidBridge.StartupRefusals
