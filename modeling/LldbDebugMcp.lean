import LldbDebugMcp.Library.Channel
import LldbDebugMcp.Library.Text
import LldbDebugMcp.Library.Transition
import LldbDebugMcp.Library.Effect
import LldbDebugMcp.Library.Traversal
import LldbDebugMcp.Library.Retention
import LldbDebugMcp.Library.Custody
import LldbDebugMcp.Core.Types
import LldbDebugMcp.Session.Output
import LldbDebugMcp.Session.Manager
import LldbDebugMcp.Session.Operation
import LldbDebugMcp.Session.Epoch
import LldbDebugMcp.Client.Message
import LldbDebugMcp.Client.State
import LldbDebugMcp.Client.Wire
import LldbDebugMcp.Client.Correlation
import LldbDebugMcp.Client.Writer
import LldbDebugMcp.Client.StopWaiter
import LldbDebugMcp.Client.ReadLoop
import LldbDebugMcp.Backend.Requests
import LldbDebugMcp.Backend.Operations
import LldbDebugMcp.Backend.Adapter
import LldbDebugMcp.Backend.Steps
import LldbDebugMcp.Backend.Recovery
import LldbDebugMcp.Backend.Stream
import LldbDebugMcp.Backend.Script
import LldbDebugMcp.Backend.Follow
import LldbDebugMcp.Backend.Launch
import LldbDebugMcp.Backend.Attach
import LldbDebugMcp.Backend.Parts
import LldbDebugMcp.Backend.CancelSafety
import LldbDebugMcp.Backend.Stages
import LldbDebugMcp.Backend.Handshake
import LldbDebugMcp.Backend.Child
import LldbDebugMcp.Backend.ResumeCall
import LldbDebugMcp.Backend.Subprocess
import LldbDebugMcp.Backend.StopWaiter
import LldbDebugMcp.Server.Response
import LldbDebugMcp.Server.HexDump
import LldbDebugMcp.Server.Flatten
import LldbDebugMcp.Server.Breakpoints
import LldbDebugMcp.Server.BreakpointLists
import LldbDebugMcp.Server.Arguments
import LldbDebugMcp.Server.BreakpointCalls
import LldbDebugMcp.Server.Inspection
import LldbDebugMcp.Server.Rendering
import LldbDebugMcp.Server.Frames
import LldbDebugMcp.Server.Contract
import LldbDebugMcp.Server.Handler
import LldbDebugMcp.Server.Lifecycle
import LldbDebugMcp.Server.Execution
import LldbDebugMcp.Server.System
import LldbDebugMcp.Server.Steps
import LldbDebugMcp.Server.Lldb
import LldbDebugMcp.Server.BreakpointMap
import LldbDebugMcp.Server.Provenance
import LldbDebugMcp.Server.Capture
import LldbDebugMcp.Server.Status
import LldbDebugMcp.Server.ExitCode
import LldbDebugMcp.Server.InspectionSteps
import LldbDebugMcp.Server.LateCommits
import LldbDebugMcp.Server.Termination
import LldbDebugMcp.Server.StaleResume
import LldbDebugMcp.Server.StaleStart
import LldbDebugMcp.Server.StartGuard
import LldbDebugMcp.Server.Disconnect
import LldbDebugMcp.Server.Orphan
import LldbDebugMcp.Server.Calls
import LldbDebugMcp.Server.ResumeGuard
import LldbDebugMcp.Server.Rejection
import LldbDebugMcp.Server.Baseline
import LldbDebugMcp.Server.Pending
import LldbDebugMcp.Server.Recorded
import LldbDebugMcp.Server.Progress
import LldbDebugMcp.Core.Decode
import LldbDebugMcp.Backend.Body
import LldbDebugMcp.Backend.Queries
import LldbDebugMcp.Backend.Detect
import LldbDebugMcp.Library.Base64
import LldbDebugMcp.Backend.Answers
import LldbDebugMcp.Backend.Refinement
import LldbDebugMcp.Library.Delivery
import LldbDebugMcp.Backend.Reports
import LldbDebugMcp.Server.Reports
import LldbDebugMcp.Client.Codec
import LldbDebugMcp.Backend.Pipeline
import LldbDebugMcp.Server.Interrupt
import LldbDebugMcp.Server.Memory
import LldbDebugMcp.Server.Dispatch
import LldbDebugMcp.Server.Required
import LldbDebugMcp.Server.Configured
