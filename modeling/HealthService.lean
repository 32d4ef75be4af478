import HealthService.Body
import HealthService.Check.Handles
import HealthService.Main
import HealthService.Proofs.Contexts.Deadlines
import HealthService.Proofs.Contexts.Governance
import HealthService.Proofs.Config.ReadBack
import HealthService.Proofs.Format.Extras
import HealthService.Proofs.Format.ReadBack
import HealthService.Proofs.Json.Ordered
import HealthService.Proofs.Json.ReadBack
import HealthService.Proofs.Net.Addresses
import HealthService.Proofs.Pool.Erasure
import HealthService.Proofs.Readiness.Accounting
import HealthService.Proofs.Readiness.Counting
import HealthService.Proofs.Readiness.Endings
import HealthService.Proofs.Readiness.Isolation
import HealthService.Proofs.Readiness.Latency
import HealthService.Proofs.Readiness.Outcome
import HealthService.Proofs.Service.Answers
import HealthService.Proofs.Service.Journal
import HealthService.Proofs.Server.Silence
import HealthService.Proofs.Service.Documents
import HealthService.Proofs.Service.ProblemMembers
import HealthService.Proofs.Service.ProblemSteps
import HealthService.Proofs.Service.Problems
import HealthService.Proofs.Service.TraceLayer
import HealthService.Proofs.Trace.Continuation
import HealthService.Proofs.Trace.Faults
import HealthService.Server.Handshakes
import HealthService.Server.PipedConnection
import HealthService.Proofs.Auth.Credentials
import HealthService.Proofs.Body.Reading
import HealthService.Proofs.Service.Access
import HealthService.Proofs.Service.Stacks
import HealthService.Proofs.Auth.Decoding
import HealthService.Proofs.Readiness.Panics
import HealthService.Proofs.Server.Handshakes
import HealthService.Proofs.Server.ZeroTimeouts
import HealthService.Proofs.Config.Validity
import HealthService.Proofs.Server.Draining
import HealthService.Proofs.Pool.Limits
import HealthService.Proofs.Pool.Shift
import HealthService.Proofs.Readiness.Limits
import HealthService.Proofs.Service.Limits
import HealthService.Proofs.Service.Leftovers
import HealthService.Proofs.Server.Overruns
import HealthService.Proofs.Config.Defaults
import HealthService.Proofs.Server.Admissions
import HealthService.Proofs.Service.Heads
import HealthService.Proofs.Check.Probing
import HealthService.Proofs.Time.Durations
import HealthService.Proofs.Config.CarriedOut
import HealthService.Proofs.Metrics.Endpoint
import HealthService.Proofs.Service.Rendering
import HealthService.Proofs.Service.TraceStates
