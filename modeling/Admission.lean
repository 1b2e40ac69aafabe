import Admission.Main
import Admission.Counter
import Admission.Json.Decode
import Admission.Session.Step
import Admission.Proofs.Placement
import Admission.Proofs.Fairness
import Admission.Proofs.Settled
import Admission.Proofs.Request
import Admission.Proofs.Course
import Admission.Proofs.Stops
import Admission.Proofs.ByteOrder
import Admission.Proofs.Census
import Admission.Proofs.History
import Admission.Proofs.Tally
import Admission.Proofs.Visits
import Admission.Proofs.Cancellation
import Admission.Proofs.Lingers
import Admission.Proofs.Occupancy
import Admission.Proofs.Waking
import Admission.Proofs.Contention
import Admission.Proofs.FirstRelease
import Admission.Proofs.FailingPolicy
import Admission.Proofs.Picture
import Admission.Proofs.QuotedText
import Admission.Proofs.SpanText
import Admission.Proofs.StatusText
import Admission.Proofs.Slicing
import Admission.Proofs.Detached
import Admission.Proofs.Renaming
import Admission.Proofs.Anonymity
import Admission.Proofs.Readback
import Admission.Proofs.Lifecycle
import Admission.Proofs.Balance
import Admission.Proofs.Simulated
import Admission.Proofs.Seating
import Admission.Proofs.Newcomer
import Admission.Proofs.LettingGo
import Admission.Proofs.MoreRoom
import Admission.Proofs.Alignment
import Admission.Proofs.Numerals
import Admission.Proofs.Arguments
import Admission.Proofs.Documents
import Admission.Proofs.StatusJson
import Admission.Proofs.Cascade
import Admission.Proofs.Jumps
import Admission.Proofs.FlowEntries
import Admission.Proofs.Variables
import Admission.Proofs.Nearest
import Admission.Proofs.Literals
import Admission.Proofs.Seconds
import Admission.Proofs.Environment
import Admission.Proofs.Expiries
