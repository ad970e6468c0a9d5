import Agentty.Orchestration.Areas
import Agentty.Orchestration.Cancellation
import Agentty.Orchestration.Detachment
import Agentty.Orchestration.Approval
import Agentty.Orchestration.Counters
import Agentty.Orchestration.Integration
import Agentty.Orchestration.Merging
import Agentty.Orchestration.Kinds
import Agentty.Orchestration.ResearchReport
import Agentty.Harness.TurnLoop
import Agentty.Harness.ReplaceSafety
import Agentty.Harness.PatchRoundTrip
import Agentty.Harness.Effects
import Agentty.Harness.Submissions
import Agentty.Worker.Ordering
import Agentty.Worker.Permits
import Agentty.Worker.OperationCancellation
import Agentty.Worker.Tracking
import Agentty.Session.PreparedPrompt
import Agentty.Session.StatusUpdates
import Agentty.Session.BaseCheckout
import Agentty.Session.StackGates
import Agentty.Session.Transcript
import Agentty.Session.Titles
import Agentty.Protocol.Parse
import Agentty.Review.Chunks
import Agentty.Agent.RuntimeLifetime
import Agentty.Ui.VerbatimWrap
import Agentty.Ui.DiffLines
