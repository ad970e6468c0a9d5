/-
Lifecycle states of campaigns, subtasks and sessions, and the pure scheduling
policy over them (`ag-session`: `orchestration.rs`, `model.rs`).

The persisted columns are strings; every repository function parses them back
and rejects a string that is no state, so the model stores the state itself.
-/
import Mathlib.Data.List.Basic
import Mathlib.Tactic.Common

set_option autoImplicit false

namespace Agentty.Orchestration

/-- `OrchestrationTaskKind`: what a subtask produces. -/
inductive OrchestrationTaskKind where
  | Implementation
  | Research
  deriving DecidableEq, Repr

/-- `OrchestrationStatus`: lifecycle state of one campaign. -/
inductive OrchestrationStatus where
  | AwaitingApproval
  | Running
  | Canceling
  | Verifying
  | AwaitingIntegration
  | Integrating
  | Done
  | Canceled
  deriving DecidableEq, Repr

/-- `IntegrationApproach`: where verified branches go. -/
inductive IntegrationApproach where
  | LocalMerge
  | ReviewRequest
  deriving DecidableEq, Repr

/-- `OrchestrationTaskStatus`: lifecycle state of one subtask. -/
inductive OrchestrationTaskStatus where
  | Proposed
  | Planned
  | Creating
  | Running
  | Reviewing
  | ReviewApplying
  | WaitingForInput
  | Ready
  | Reported
  | ContinuationPending
  | AwaitingIntegration
  | Merging
  | Integrated
  | ReviewRequested
  | IntegrationFailed
  | Detached
  | Failed
  | Canceled
  deriving DecidableEq, Repr

/-- `SessionStatus`: lifecycle state of one session. -/
inductive SessionStatus where
  | Draft
  | InProgress
  | Review
  | AgentReview
  | Question
  | Queued
  | Rebasing
  | Merging
  | Merged
  | Done
  | Canceled
  deriving DecidableEq, Repr

/-- `SessionRole`: who owns a session's work. -/
inductive SessionRole where
  | Worker
  | OrchestrationWorker
  | OrchestrationResearcher
  | Orchestrator
  deriving DecidableEq, Repr

/-- `FocusedReviewStatus`: state of one focused-review generation. -/
inductive FocusedReviewStatus where
  | Pending
  | Ready
  | Partial
  | Failed
  deriving DecidableEq, Repr

/-- `OperationStatus`: state of one durable session operation. -/
inductive OperationStatus where
  | Queued
  | Running
  | Done
  | Failed
  | Canceled
  deriving DecidableEq, Repr

/-- The controller's verdict on one settled subtask. -/
inductive Verdict where
  | Pass
  | Flag
  deriving DecidableEq, Repr

/-! ## Campaigns -/

def OrchestrationStatus.is_active : OrchestrationStatus → Bool
  | .Done | .Canceled => false
  | _ => true

/-! ## Sessions -/

def SessionStatus.can_transition_to (self next : SessionStatus) : Bool :=
  if self = next then true
  else if self = .Merged then next = .Done
  else
    match self, next with
    | .Draft, .InProgress | .Draft, .Canceled => true
    | .Draft, .Rebasing | .InProgress, .Rebasing => true
    | .InProgress, .Canceled | .Queued, .Canceled | .Rebasing, .Canceled
    | .Merging, .Canceled => true
    | .Review, .AgentReview | .AgentReview, .Review => true
    | .Review, .Merged | .Review, .Done | .AgentReview, .Merged | .AgentReview, .Done => true
    | .Review, .InProgress | .Review, .Queued | .Review, .Rebasing | .Review, .Merging
    | .Review, .Canceled => true
    | .AgentReview, .InProgress | .AgentReview, .Queued | .AgentReview, .Rebasing
    | .AgentReview, .Merging | .AgentReview, .Canceled => true
    | .Question, .InProgress | .Question, .Queued | .Question, .Rebasing | .Question, .Merging
    | .Question, .Canceled => true
    | .Queued, .Merging | .Queued, .Review | .Queued, .AgentReview => true
    | .InProgress, .Review | .InProgress, .AgentReview | .InProgress, .Question => true
    | .Rebasing, .Review | .Rebasing, .AgentReview | .Rebasing, .Question => true
    | .Merging, .Done | .Merging, .Review | .Merging, .AgentReview => true
    | _, _ => false

/-- `child_session_is_stopped` on a parsed status: the child can do no more
branch work. -/
def SessionStatus.is_stopped : SessionStatus → Bool
  | .Merged | .Done | .Canceled => true
  | _ => false

/-! ## Subtasks -/

namespace OrchestrationTaskStatus

def from_child_status : SessionStatus → OrchestrationTaskStatus
  | .Draft | .InProgress | .Queued | .Rebasing | .Merging => .Running
  | .Question => .WaitingForInput
  | .Review | .AgentReview => .Reviewing
  | .Merged | .Done => .Ready
  | .Canceled => .Failed

/-- `OrchestrationTaskStatus::is_settled`: fan-in no longer waits for it. -/
def is_settled : OrchestrationTaskStatus → Bool
  | .Ready | .Reported | .Integrated | .ReviewRequested | .IntegrationFailed
  | .Failed | .Canceled | .Detached => true
  | _ => false

def occupies_parallelism_slot : OrchestrationTaskStatus → Bool
  | .Creating | .Running | .Reviewing | .ReviewApplying | .WaitingForInput
  | .ContinuationPending | .Merging => true
  | _ => false

def is_integration_settled : OrchestrationTaskStatus → Bool
  | .Integrated | .Detached | .Canceled | .Failed => true
  | _ => false

end OrchestrationTaskStatus

/-! ## The scheduling policy -/

structure OrchestrationScheduleDecision where
  /-- Whether every task has settled and there is one. -/
  should_submit : Bool
  /-- How many planned tasks may claim a slot. -/
  spawn_count : Nat
  deriving DecidableEq, Repr

def occupied_slots (statuses : List OrchestrationTaskStatus) : Nat :=
  (statuses.filter OrchestrationTaskStatus.occupies_parallelism_slot).length

def schedule (max_parallelism : Nat) (task_statuses : List OrchestrationTaskStatus) :
    OrchestrationScheduleDecision where
  spawn_count := min (max_parallelism - occupied_slots task_statuses)
    (task_statuses.filter (· = .Planned)).length
  should_submit := !task_statuses.isEmpty && task_statuses.all OrchestrationTaskStatus.is_settled

def MAX_AUTOMATED_REVIEW_ITERATIONS : Nat := 3

def INFRASTRUCTURE_RETRY_LIMIT : Nat := 2

def DEFAULT_ORCHESTRATION_PARALLELISM : Int := 3

def MAX_ORCHESTRATION_PARALLELISM : Int := 8

def DEFAULT_AUTO_APPROVE_ORCHESTRATION_RESEARCH : Bool := true

end Agentty.Orchestration
