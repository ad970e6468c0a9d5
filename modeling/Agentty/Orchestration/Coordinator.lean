/-
The background coordinator (`OrchestrationCoordinator` of
`ag-orchestration/src/coordinator.rs`): one pass over every active campaign.

A `&mut SessionOrchestrationTaskRow` argument of the source is a row that the
program takes and returns: what the coordinator believes about the subtask after
the calls it has made, which need not be what is stored. User-interface events
and the live-status cache are left out.
-/
import Agentty.Orchestration.Handler

set_option autoImplicit false

namespace Agentty.Orchestration

/-! ## Helpers -/

def task_is_integration_settled (task : SessionOrchestrationTaskRow) : Bool :=
  match task.kind, task.status with
  | .Research, .Reported => task.verification_verdict = some .Pass
  | _, status => status.is_integration_settled

def research_edit_warning (task : SessionOrchestrationTaskRow) : Option String :=
  if task.child_has_diff = some true then
    some "Research child modified its temporary worktree; those changes were discarded"
  else none

def continuation_operation_id (task : SessionOrchestrationTaskRow) : OperationId :=
  .orchestration_continuation task.id task.continuation_generation

/-- The child status a missing row counts as. -/
def observed_child_status (task : SessionOrchestrationTaskRow) : SessionStatus :=
  task.child_status.getD .Canceled

/-! ## Single subtasks -/

/-- `update_task_status`: by id, unless the believed status is already the next
one. -/
def update_task_status (task : SessionOrchestrationTaskRow) (next : OrchestrationTaskStatus)
    (last_error : Option String) : Run SessionOrchestrationTaskRow :=
  if task.status = next then pure task
  else do
    perform (.update_orchestration_task_status task.id next last_error)
    return { task with status := next, last_error }

/-- The result summary a settled child leaves, written when it changed. -/
def record_result_summary (task : SessionOrchestrationTaskRow) :
    Run SessionOrchestrationTaskRow :=
  let summary := bounded_summary (task.child_answer.getD "Completed")
  if task.result_summary = some summary then pure task
  else do
    perform (.update_orchestration_task_result_summary task.id summary)
    return { task with result_summary := some summary }

def complete_task_review (task : SessionOrchestrationTaskRow) :
    Run SessionOrchestrationTaskRow := do
  let task ← update_task_status task .Ready none
  record_result_summary task

def cancel_unclaimed_child (child_session_id : SessionId) : Run Unit :=
  perform (.cancel_session child_session_id)

/-- The write of `fail_task_spawn`, after the child is gone. -/
def record_spawn_failure (task : SessionOrchestrationTaskRow) (error : String) :
    Run SessionOrchestrationTaskRow := do
  let next_status ← perform
    (.record_orchestration_spawn_failure task.id error INFRASTRUCTURE_RETRY_LIMIT)
  return { task with
    status := next_status
    infrastructure_retry_count := task.infrastructure_retry_count + 1
    last_error := some error }

/-- `fail_task_spawn`: the child the row names is canceled first. -/
def fail_task_spawn (task : SessionOrchestrationTaskRow) (error : String) :
    Run SessionOrchestrationTaskRow :=
  match task.child_session_id with
  | some child => do
      cancel_unclaimed_child child
      record_spawn_failure { task with child_session_id := none } error
  | none => record_spawn_failure task error

def reconcile_review_application (task : SessionOrchestrationTaskRow) :
    Run SessionOrchestrationTaskRow := do
  let operation_id := continuation_operation_id task
  let operation_status ← perform (.load_rollup_operation_status operation_id)
  match operation_status with
  | none | some .Failed | some .Canceled =>
    match task.child_session_id, task.continuation_prompt with
    | none, _ => .fail "Review remediation lost its managed child"
    | some _, none => .fail "Review remediation lost its verification prompt"
    | some child, some prompt => do
        perform (.submit_coordinator_message child operation_id (.review_application prompt))
        return task
  | some .Queued | some .Running => return task
  | some .Done =>
    match task.child_status with
    | some .Question => update_task_status task .WaitingForInput none
    | some .Canceled => update_task_status task .Failed none
    | some .Review | some .AgentReview => update_task_status task .Reviewing none
    | some .Merged | some .Done => update_task_status task .Ready none
    | _ => return task

/-- The end of `reconcile_focused_review`, when there are suggestions to apply
and iterations left. -/
def apply_focused_review (task : SessionOrchestrationTaskRow) (suggestions : String) :
    Run SessionOrchestrationTaskRow := do
  let task ← update_task_status task .Reviewing none
  let prompt := ContinuationPrompt.apply_review suggestions
  let claimed ← perform (.claim_orchestration_review_application task.id prompt
    MAX_AUTOMATED_REVIEW_ITERATIONS)
  if claimed then
    reconcile_review_application { task with
      continuation_generation := task.continuation_generation + 1
      continuation_prompt := some prompt
      review_iteration := task.review_iteration + 1
      status := .ReviewApplying
      child_focused_review_status := none
      child_focused_review_text := none }
  else return task

def reconcile_focused_review (task : SessionOrchestrationTaskRow) :
    Run SessionOrchestrationTaskRow :=
  if task.child_has_diff ≠ some true then complete_task_review task
  else
    match task.child_focused_review_status with
    | none | some .Pending => update_task_status task .Reviewing none
    | some .Failed | some .Partial => complete_task_review task
    | some .Ready =>
      if task.child_focused_review_text.any
          (fun text => FocusedReviewStatus.for_text text = .Partial) then
        complete_task_review task
      else
        match task.child_focused_review_text.bind review_suggestions with
        | none => complete_task_review task
        | some suggestions =>
          if MAX_AUTOMATED_REVIEW_ITERATIONS ≤ task.review_iteration then
            complete_task_review task
          else apply_focused_review task suggestions

/-- The write of a delivered continuation: the summary goes with `Ready`. -/
def finish_continuation (task : SessionOrchestrationTaskRow) (next : OrchestrationTaskStatus) :
    Run SessionOrchestrationTaskRow :=
  let summary := if next = .Ready then task.child_answer.map bounded_summary else none
  do
    perform (.update_orchestration_task_status task.id next none)
    match summary with
    | some summary => perform (.update_orchestration_task_result_summary task.id summary)
    | none => pure ()
    return { task with status := next, result_summary := summary }

def reconcile_continuation (task : SessionOrchestrationTaskRow) :
    Run SessionOrchestrationTaskRow :=
  match task.child_session_id with
  | none => update_task_status task .Failed (some "Continuation lost its managed child")
  | some child => do
      let operation_id := continuation_operation_id task
      let operation_status ← perform (.load_rollup_operation_status operation_id)
      match operation_status with
      | none | some .Failed | some .Canceled =>
        perform (.submit_coordinator_message child operation_id (.continuation task))
        return task
      | some .Queued | some .Running => return task
      | some .Done =>
        match task.child_status with
        | some .Review | some .AgentReview => reconcile_focused_review task
        | some .Question => finish_continuation task .WaitingForInput
        | some .Canceled => finish_continuation task .Failed
        | some .Merged | some .Done => finish_continuation task .Ready
        | _ => return task

/-- The report of `complete_research_task`. -/
def research_report_text (task : SessionOrchestrationTaskRow) : String :=
  match task.child_answer.map bounded_research_report with
  | some report => if report = "" then "Research child completed without a report." else report
  | none => "Research child completed without a report."

/-- The report is written when it changed. -/
def record_research_report (task : SessionOrchestrationTaskRow) :
    Run SessionOrchestrationTaskRow :=
  let report := research_report_text task
  if task.research_report = some report then pure task
  else do
    perform (.update_orchestration_task_research_report task.id report)
    return { task with research_report := some report }

/-- `complete_research_task`: a child that still waits for review is canceled
before the report counts. -/
def complete_research_task (task : SessionOrchestrationTaskRow) (child_status : SessionStatus) :
    Run SessionOrchestrationTaskRow := do
  let task ← record_research_report task
  if child_status = .Review ∨ child_status = .AgentReview then
    match task.child_session_id with
    | none => .fail "Research task lost its temporary child"
    | some child =>
      perform (.cancel_session child)
      update_task_status task .Reported (research_edit_warning task)
  else update_task_status task .Reported (research_edit_warning task)

def reconcile_research_task (task : SessionOrchestrationTaskRow) :
    Run SessionOrchestrationTaskRow :=
  if task.status = .Reported then pure task
  else
    match observed_child_status task with
    | .Question => update_task_status task .WaitingForInput none
    | .Review => complete_research_task task .Review
    | .AgentReview => complete_research_task task .AgentReview
    | .Merged => complete_research_task task .Merged
    | .Done => complete_research_task task .Done
    | .Canceled =>
      if task.research_report.isSome then
        update_task_status task .Reported (research_edit_warning task)
      else
        update_task_status task .Failed
          (some "Research child stopped before returning a report")
    | .Draft | .InProgress | .Queued | .Rebasing | .Merging =>
      update_task_status task .Running none

/-- The recovery branch of `reconcile_task` for a `Creating` row without a
child: a child whose creation was recorded is linked, otherwise the spawn
failed. -/
def reconcile_creating_task (task : SessionOrchestrationTaskRow) :
    Run SessionOrchestrationTaskRow := do
  let child_session_id ← perform (.load_child_session_id_for_task task.id)
  match child_session_id with
  | some child =>
    let linked ← perform (.link_orchestration_task_child task.id child)
    if linked then return { task with child_session_id := some child, status := .Running }
    cancel_unclaimed_child child
    return { task with child_session_id := some child }
  | none => fail_task_spawn task "Child creation did not complete"

/-- The last branch of `reconcile_task`: the status follows the child's. -/
def reconcile_child_status (task : SessionOrchestrationTaskRow) :
    Run SessionOrchestrationTaskRow :=
  match observed_child_status task with
  | .Review | .AgentReview => reconcile_focused_review task
  | child_status =>
    if OrchestrationTaskStatus.from_child_status child_status = .Ready then
      complete_task_review task
    else
      update_task_status task (OrchestrationTaskStatus.from_child_status child_status) none

def reconcile_task (task : SessionOrchestrationTaskRow) : Run SessionOrchestrationTaskRow :=
  if task.status = .ReviewApplying then reconcile_review_application task
  else if task.status = .ContinuationPending then reconcile_continuation task
  else if task.child_session_id.isNone then
    if task.status = .Creating then reconcile_creating_task task else pure task
  else if task.kind = .Research then reconcile_research_task task
  else reconcile_child_status task

/-! ## Fan-out -/

/-- The end of `spawn_task`, once the child exists: it is linked, then
prompted. -/
def start_child (task : SessionOrchestrationTaskRow) (child : SessionId) :
    Run SessionOrchestrationTaskRow := do
  let linked ← perform (.link_orchestration_task_child task.id child)
  if linked then
    let task := { task with child_session_id := some child, status := .Running }
    let sent ← attempt (.send_message child (.child_prompt task))
    match sent with
    | .ok _ => return task
    | .error error => fail_task_spawn task error
  else
    cancel_unclaimed_child child
    return task

def spawn_task (orchestration : SessionOrchestrationRow) (task : SessionOrchestrationTaskRow) :
    Run SessionOrchestrationTaskRow := do
  let claimed ← perform (.claim_orchestration_task task.id)
  if claimed then
    let task := { task with status := .Creating, last_error := none }
    let mode : CreateSessionMode := match task.kind with
      | .Research => .OrchestrationResearch task.id
      | .Implementation => .OrchestrationChild task.id
    let created ← attempt (.create_session orchestration.controller_session_id mode
      orchestration.controller_project_id)
    match created with
    | .ok child => start_child task child
    | .error error => fail_task_spawn task error
  else return task

/-- `surface_child_questions`: the first waiting row with questions. -/
def surface_child_questions (orchestration : SessionOrchestrationRow)
    (tasks : List SessionOrchestrationTaskRow) : Run Unit :=
  let surfaced := tasks.findSome? fun task =>
    if task.status = .WaitingForInput then task.child_questions.map (task.id, ·) else none
  match surfaced with
  | none => pure ()
  | some (task_id, questions) => do
      let _ ← perform (.surface_orchestration_questions orchestration.id task_id questions)

def submit_rollup (orchestration : SessionOrchestrationRow)
    (tasks : List SessionOrchestrationTaskRow) (verification_generation : Nat) : Run Unit :=
  perform (.submit_coordinator_message orchestration.controller_session_id
    (.orchestration_rollup orchestration.id verification_generation)
    (.rollup orchestration.goal_statement tasks))

/-- The end of `reconcile_orchestration`: the roll-up is claimed and sent once
every subtask has settled. -/
def finish_fan_out (orchestration : SessionOrchestrationRow) : Run Unit := do
  let refreshed ← perform (.load_orchestration_tasks orchestration.id)
  if (schedule orchestration.max_parallelism.toNat (refreshed.map (·.status))).should_submit then
    let claimed ← perform (.claim_orchestration_rollup orchestration.id)
    if claimed then
      submit_rollup orchestration refreshed (orchestration.verification_generation + 1)

/-- The planned rows the schedule lets claim a slot. -/
def spawnable (orchestration : SessionOrchestrationRow)
    (tasks : List SessionOrchestrationTaskRow) : List SessionOrchestrationTaskRow :=
  (tasks.filter (·.status = .Planned)).take
    (schedule orchestration.max_parallelism.toNat (tasks.map (·.status))).spawn_count

/-- `reconcile_orchestration`: the pass over a running campaign. -/
def reconcile_orchestration (orchestration : SessionOrchestrationRow) : Run Unit := do
  let tasks ← perform (.load_orchestration_tasks orchestration.id)
  let tasks ← Prog.traverse reconcile_task tasks
  surface_child_questions orchestration tasks
  let _ ← Prog.traverse (spawn_task orchestration) (spawnable orchestration tasks)
  finish_fan_out orchestration

/-- The statuses `reconcile_parked_plan` keeps reconciling. -/
def is_live : OrchestrationTaskStatus → Bool
  | .ContinuationPending | .Running | .Reviewing | .ReviewApplying | .WaitingForInput => true
  | _ => false

/-- `reconcile_parked_plan`: the pass over a campaign that awaits approval. -/
def reconcile_parked_plan (orchestration : SessionOrchestrationRow) : Run Unit := do
  let tasks ← perform (.load_orchestration_tasks orchestration.id)
  let tasks ← Prog.traverse
    (fun task => if is_live task.status then reconcile_task task else pure task) tasks
  surface_child_questions orchestration tasks

/-! ## Verification -/

/-- `reconcile_rollup`: the pass over a campaign that is being verified. -/
def reconcile_rollup (orchestration : SessionOrchestrationRow)
    (tasks : List SessionOrchestrationTaskRow) : Run Unit := do
  let operation_status ← perform (.load_rollup_operation_status
    (.orchestration_rollup orchestration.id orchestration.verification_generation))
  match operation_status with
  | some .Done =>
    let _ ← perform (.complete_orchestration_rollup orchestration.id)
  | some .Queued | some .Running => pure ()
  | none | some .Failed | some .Canceled =>
    submit_rollup orchestration tasks orchestration.verification_generation

/-! ## Integration -/

def publish_review_request (task : SessionOrchestrationTaskRow) (child : SessionId) :
    Run SessionOrchestrationTaskRow := do
  let result ← attempt (.create_review_request child)
  match result with
  | .ok _ => update_task_status task .ReviewRequested none
  | .error error => update_task_status task .IntegrationFailed (some error)

def reconcile_review_requested_task (task : SessionOrchestrationTaskRow) :
    Run SessionOrchestrationTaskRow :=
  if task.status ≠ .ReviewRequested then pure task
  else
    match task.child_status with
    | some .Merged | some .Done => update_task_status task .Integrated none
    | some .Canceled =>
      update_task_status task .IntegrationFailed (some "Review request closed without merge")
    | _ => pure task

def reconcile_merging_task (integration_approach : IntegrationApproach)
    (task : SessionOrchestrationTaskRow) : Run SessionOrchestrationTaskRow :=
  if task.status ≠ .Merging then pure task
  else if integration_approach = .ReviewRequest then
    match task.child_session_id with
    | some child => publish_review_request task child
    | none =>
      update_task_status task .IntegrationFailed (some "Verified task has no child session")
  else
    match task.child_status with
    | some .Done | some .Merged => update_task_status task .Integrated none
    | some .Canceled =>
      update_task_status task .IntegrationFailed (some "Child integration was canceled")
    | _ => pure task

def integrate_task (integration_approach : IntegrationApproach)
    (task : SessionOrchestrationTaskRow) : Run SessionOrchestrationTaskRow :=
  match task.child_session_id with
  | none => update_task_status task .IntegrationFailed (some "Verified task has no child session")
  | some child => do
      let task ← update_task_status task .Merging none
      if integration_approach = .ReviewRequest then publish_review_request task child
      else
        let result ← attempt (.merge_session child)
        match result with
        | .ok _ => return task
        | .error error => update_task_status task .IntegrationFailed (some error)

def complete_campaign (orchestration : SessionOrchestrationRow) : Run Unit := do
  let _ ← perform (.complete_orchestration_campaign orchestration.id)

/-- The end of `reconcile_integration`: at most one waiting row is integrated
per pass, and only when none is merging. -/
def advance_integration (orchestration : SessionOrchestrationRow)
    (integration_approach : IntegrationApproach) (tasks : List SessionOrchestrationTaskRow) :
    Run Unit :=
  if tasks.any (·.status = .Merging) then pure ()
  else
    match tasks.find? (·.status = .AwaitingIntegration) with
    | some task => do
        let _ ← integrate_task integration_approach task
    | none =>
      if tasks.all task_is_integration_settled then complete_campaign orchestration else pure ()

/-- `reconcile_integration`: the pass over a campaign that integrates. -/
def reconcile_integration (orchestration : SessionOrchestrationRow) : Run Unit := do
  let integration_approach ←
    perform (.load_orchestration_integration_approach orchestration.id)
  let tasks ← perform (.load_orchestration_tasks orchestration.id)
  let tasks ← Prog.traverse (fun task => do
    let task ← reconcile_review_requested_task task
    reconcile_merging_task integration_approach task) tasks
  advance_integration orchestration integration_approach tasks

def reconcile_awaiting_integration (orchestration : SessionOrchestrationRow) : Run Unit := do
  let tasks ← perform (.load_orchestration_tasks orchestration.id)
  if tasks.all task_is_integration_settled then complete_campaign orchestration

/-! ## Cancellation -/

/-- The body of the loop of `reconcile_cancellation`: the error of a child that
would not stop, if there is one. -/
def cancel_task (task : SessionOrchestrationTaskRow) : Run (Option String) :=
  if task.status.is_settled then pure none
  else if child_session_is_stopped task.child_status then do
    let _ ← update_task_status task .Canceled none
    return none
  else do
    let child_session_id ← known_child task
    match child_session_id with
    | some child =>
      let canceled ← attempt (.cancel_session child)
      match canceled with
      | .error error => return some error
      | .ok _ =>
        let _ ← update_task_status task .Canceled none
        return none
    | none =>
      let _ ← update_task_status task .Canceled none
      return none

/-- `reconcile_cancellation`: the pass over a campaign that is being canceled. -/
def reconcile_cancellation (orchestration : SessionOrchestrationRow) : Run Unit := do
  let tasks ← perform (.load_orchestration_tasks orchestration.id)
  let errors ← Prog.traverse cancel_task tasks
  match errors.findSome? (fun error : Option String => error) with
  | some error => .fail error
  | none => perform (.update_orchestration_status orchestration.id .Canceled)

/-! ## One pass -/

/-- The dispatch of `reconcile_once` on the loaded status. -/
def reconcile_campaign (orchestration : SessionOrchestrationRow) : Run Unit :=
  match orchestration.status with
  | .AwaitingApproval => reconcile_parked_plan orchestration
  | .AwaitingIntegration => reconcile_awaiting_integration orchestration
  | .Running => reconcile_orchestration orchestration
  | .Verifying => do
      let tasks ← perform (.load_orchestration_tasks orchestration.id)
      reconcile_rollup orchestration tasks
  | .Integrating => reconcile_integration orchestration
  | .Canceling => reconcile_cancellation orchestration
  | .Done | .Canceled => pure ()

def reconcile_once : Run Unit := do
  let orchestrations ← perform .load_active_orchestrations
  let _ ← Prog.traverse reconcile_campaign orchestrations

end Agentty.Orchestration
