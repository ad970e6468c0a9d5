/-
The programs around a campaign other than the coordinator: what a controller
turn does with its response (`persist_controller_plan` and below, in
`ag-orchestration/src/coordinator.rs`), and what the foreground app does for the
user: approving a parked step, detaching a child, canceling a campaign and
answering relayed questions (`agentty/src/app/session_api.rs`).

Each `await` on a repository or on the session service is one call of the
program. User-interface events are left out.
-/
import Agentty.Orchestration.Calls

set_option autoImplicit false

namespace Agentty.Orchestration

abbrev Run (α : Type) : Type := Prog Call Reply String α

abbrev RunLog : Type := Prog.Log Call Reply String

/-- One call whose error ends the program: `.await?`. -/
abbrev perform (c : Call) : Run (Reply c) := Prog.perform c

/-- One call whose error the program handles: `match ….await`. -/
abbrev attempt (c : Call) : Run (Except String (Reply c)) := Prog.attempt c

/-! ## Settings -/

/-- `load_max_parallelism`: a failing or missing setting is the default. -/
def load_max_parallelism : Run Int := do
  let setting ← attempt .get_setting_orchestration_parallelism
  let value := match setting with
    | .ok (some value) => value
    | _ => DEFAULT_ORCHESTRATION_PARALLELISM
  return max 1 (min value MAX_ORCHESTRATION_PARALLELISM)

def load_auto_approve_research : Run Bool := do
  let setting ← attempt .get_setting_auto_approve_orchestration_research
  return match setting with
    | .ok (some value) => value
    | _ => DEFAULT_AUTO_APPROVE_ORCHESTRATION_RESEARCH

/-- `should_auto_approve_research`: the setting is read only for a research
wave. -/
def should_auto_approve_research (subtasks : List SubtaskItem) : Run Bool :=
  if !subtasks.isEmpty && subtasks.all (·.kind = .Research) then load_auto_approve_research
  else pure false

/-! ## Controller turns -/

/-- `task_as_subtask`: the proposal a persisted row stands for. -/
def task_as_subtask (task : SessionOrchestrationTaskRow) : SubtaskItem where
  acceptance_criteria := task.acceptance_criteria
  kind := task.kind
  prompt := task.prompt
  task_key := task.task_key
  title := task.title
  touched_areas := if task.kind = .Research then [] else task.touched_areas

def continuation_routing_question (task_key : String) : QuestionItem where
  text := "Task `" ++ task_key ++ "` cannot be continued in place until its live child settles. "
    ++ "Wait for it, or use a new task key."
  options := ["Wait, then continue this task", "Create a separate follow-up task",
    "Drop this feedback"]

/-- The loaded row of a key: `existing_by_key.get`. Keys are unique within a
campaign. -/
def existing_by_key (tasks : List SessionOrchestrationTaskRow) (task_key : String) :
    Option SessionOrchestrationTaskRow :=
  tasks.find? (·.task_key = task_key)

/-- The statuses in which a changed proposal of an existing key is routed. -/
def can_continue : OrchestrationTaskStatus → Bool
  | .Ready | .Reported | .AwaitingIntegration | .IntegrationFailed => true
  | _ => false

/-- The checks of `active_subtask_validation_question` on one subtask. -/
def existing_subtask_question (tasks : List SessionOrchestrationTaskRow) (subtask : SubtaskItem) :
    Option QuestionItem :=
  match existing_by_key tasks subtask.task_key with
  | none => none
  | some task =>
    if task.kind ≠ subtask.kind then
      some {
        text := "Task `" ++ subtask.task_key ++ "` cannot change between research and "
          ++ "implementation. Use a new task key for the new execution kind."
        options := ["Create a new task key", "Keep the existing task kind"] }
    else if task_as_subtask task = subtask then none
    else if can_continue task.status then none
    else some (continuation_routing_question subtask.task_key)

def active_subtask_validation_question (orchestration : SessionOrchestrationRow)
    (tasks : List SessionOrchestrationTaskRow) (subtasks : List SubtaskItem) :
    Option QuestionItem :=
  match validate_subtasks subtasks true with
  | .error reason =>
    some {
      text := "The follow-up work cannot run yet: " ++ reason ++ " Revise it?"
      options := ["Revise the follow-up", "Drop the follow-up"] }
  | .ok () =>
    if orchestration.status = .Integrating ∧ tasks.any (·.status = .Merging) then
      some {
        text := "Integration is currently applying a task. Wait for that action to settle "
          ++ "before routing more work."
        options := ["Wait for integration", "Drop the follow-up"] }
    else subtasks.findSome? (existing_subtask_question tasks)

/-- The values `persist_proposed_subtask` upserts. -/
def persisted_task (id : CampaignId) (merge_position : Nat) (subtask : SubtaskItem) :
    PersistedOrchestrationTask where
  acceptance_criteria := subtask.acceptance_criteria
  kind := subtask.kind
  merge_position := merge_position
  prompt := subtask.prompt
  session_orchestration_id := id
  task_key := subtask.task_key
  title := subtask.title
  touched_areas := subtask_touched_areas subtask

/-- `persist_proposed_subtask`: the upsert leaves the row `Planned`; a second
call moves it to `Proposed`. -/
def persist_proposed_subtask (id : CampaignId) (merge_position : Nat) (subtask : SubtaskItem) :
    Run Unit := do
  let task_id ← perform (.upsert_orchestration_task (persisted_task id merge_position subtask))
  perform (.update_orchestration_task_status task_id .Proposed none)

/-- What `ExistingSubtaskRouter::route` reports about one subtask. -/
structure Routed where
  blocked : Bool
  routed : Bool
  proposed_increment : Nat
  deriving DecidableEq, Repr

/-- `ExistingSubtaskRouter::route`. -/
def route_existing_subtask (id : CampaignId) (task : SessionOrchestrationTaskRow)
    (subtask : SubtaskItem) : Run Routed :=
  if task_as_subtask task = subtask then
    pure { blocked := false, routed := false, proposed_increment := 0 }
  else if subtask.kind = .Research then do
    persist_proposed_subtask id task.merge_position subtask
    return { blocked := false, routed := true, proposed_increment := 1 }
  else do
    let queued ← perform (.queue_orchestration_continuation task.id subtask.prompt
      subtask.acceptance_criteria (subtask_touched_areas subtask))
    if queued then return { blocked := false, routed := true, proposed_increment := 0 }
    return { blocked := true, routed := false, proposed_increment := 0 }

/-- What the routing loop of `route_active_subtasks` leaves behind: the key it
was blocked on, or how much it routed. -/
inductive Routing where
  | blocked (task_key : String)
  | routed (has_routed_work : Bool) (proposed_count : Nat)
  deriving DecidableEq, Repr

/-- The routing loop of `route_active_subtasks`. -/
def route_subtasks (id : CampaignId) (tasks : List SessionOrchestrationTaskRow)
    (next_merge_position : Nat) :
    (has_routed_work : Bool) → (proposed_count : Nat) → List SubtaskItem → Run Routing
  | has_routed_work, proposed_count, [] => pure (.routed has_routed_work proposed_count)
  | has_routed_work, proposed_count, subtask :: rest =>
    match existing_by_key tasks subtask.task_key with
    | some task => do
        let routed ← route_existing_subtask id task subtask
        if routed.blocked then return .blocked subtask.task_key
        route_subtasks id tasks next_merge_position (has_routed_work || routed.routed)
          (proposed_count + routed.proposed_increment) rest
    | none => do
        persist_proposed_subtask id (next_merge_position + proposed_count) subtask
        route_subtasks id tasks next_merge_position true (proposed_count + 1) rest

/-- The first free `merge_position`. -/
def next_merge_position (tasks : List SessionOrchestrationTaskRow) : Nat :=
  (tasks.map (·.merge_position + 1)).foldr max 0

/-- The end of `route_active_subtasks`, once some work was routed: earlier
passes of a parked wave are withdrawn, then the campaign's status is written. -/
def finish_routing (orchestration : SessionOrchestrationRow) (auto_approve_research : Bool)
    (proposed_count : Nat) : Run Unit := do
  if orchestration.status = .AwaitingIntegration ∨ orchestration.status = .Integrating then
    perform (.reset_orchestration_verification orchestration.id)
  let next_status : OrchestrationStatus :=
    if proposed_count = 0 then .Running else .AwaitingApproval
  perform (.update_orchestration_status orchestration.id next_status)
  if proposed_count > 0 ∧ auto_approve_research then
    let _ ← perform (.approve_orchestration_plan orchestration.id)

def route_active_subtasks (orchestration : SessionOrchestrationRow) (response : AgentResponse) :
    Run AgentResponse := do
  let subtasks := response.subtask_items
  let tasks ← perform (.load_orchestration_tasks orchestration.id)
  match active_subtask_validation_question orchestration tasks subtasks with
  | some question => return { response with subtasks := [], questions := [question] }
  | none =>
    let auto_approve_research ← should_auto_approve_research subtasks
    let routing ← route_subtasks orchestration.id tasks (next_merge_position tasks) false 0
      subtasks
    match routing with
    | .blocked task_key =>
      return { response with
        subtasks := [], questions := [continuation_routing_question task_key] }
    | .routed false _ => return { response with subtasks := [] }
    | .routed true proposed_count =>
      finish_routing orchestration auto_approve_research proposed_count
      return { response with subtasks := [] }

/-- The campaign statuses in which a turn routes follow-up work. -/
def OrchestrationStatus.routes : OrchestrationStatus → Bool
  | .Running | .Verifying | .AwaitingIntegration | .Integrating => true
  | _ => false

/-- `handle_active_controller_plan`: whether the turn is handled, and the
response it leaves. -/
def handle_active_controller_plan (orchestration : SessionOrchestrationRow)
    (response : AgentResponse) : Run (Bool × AgentResponse) :=
  let routes_follow_up := orchestration.status.routes && !response.subtasks.isEmpty
  if routes_follow_up then do
    let response ← route_active_subtasks orchestration response
    return (true, response)
  else if orchestration.status = .AwaitingApproval ∧ !response.subtasks.isEmpty then do
    perform (.update_orchestration_status orchestration.id .Canceled)
    return (false, response)
  else pure (true, { response with subtasks := [] })

/-- The trimmed text of a `&str`. -/
def trimmed (text : String) : String := String.ofList (Text.trim text.toList)

/-- The loop of `persist_controller_verdicts`. -/
def record_verdicts (id : CampaignId) :
    (recorded_task_keys : List String) → List VerificationVerdictItem → Run Unit
  | _, [] => pure ()
  | recorded_task_keys, verdict :: rest =>
    let task_key := trimmed verdict.task_key
    if task_key = "" || recorded_task_keys.contains task_key then
      record_verdicts id recorded_task_keys rest
    else do
      let recorded ← perform (.record_orchestration_verdict id task_key
        (verdict.verdict = .Pass) (trimmed verdict.reason))
      if !recorded then
        .fail ("task `" ++ task_key ++ "` did not match a ready task in orchestration "
          ++ toString id)
      else record_verdicts id (task_key :: recorded_task_keys) rest

def persist_controller_verdicts (orchestration : SessionOrchestrationRow)
    (response : AgentResponse) : Run Unit :=
  if orchestration.status ≠ .Verifying then pure ()
  else record_verdicts orchestration.id [] response.verification_verdict_items

/-- Whether a loaded row may be proposed again after its campaign is done. -/
def is_retryable (task : SessionOrchestrationTaskRow) : Bool :=
  task.status = .Failed || task.status = .Canceled

def reusable_retry_orchestration_id (existing : Option SessionOrchestrationRow)
    (subtasks : List SubtaskItem) : Run (Option CampaignId) :=
  match existing.filter (·.status = .Done) with
  | none => pure none
  | some existing => do
      let tasks ← perform (.load_orchestration_tasks existing.id)
      let retryable_keys := (tasks.filter is_retryable).map (·.task_key)
      let is_retry := !subtasks.isEmpty && subtasks.all fun s => retryable_keys.contains s.task_key
      return if is_retry then some existing.id else none

/-- The campaign a new plan goes to: the reopened one, or a new one. -/
def plan_orchestration_id (controller_session_id : SessionId) : Option CampaignId → Run CampaignId
  | some id => pure id
  | none => do
      let max_parallelism ← load_max_parallelism
      perform (.insert_orchestration controller_session_id .AwaitingApproval max_parallelism)

/-- The writes of a validated plan. -/
def persist_plan (id : CampaignId) (answer : String) (subtasks : List SubtaskItem)
    (auto_approve_research : Bool) : Run Unit := do
  perform (.update_orchestration_status id .AwaitingApproval)
  let max_parallelism ← load_max_parallelism
  perform (.update_orchestration_plan id (bounded_goal answer) max_parallelism)
  let _ ← Prog.traverse (fun entry : SubtaskItem × Nat =>
    persist_proposed_subtask id entry.2 entry.1) subtasks.zipIdx
  if auto_approve_research then
    let _ ← perform (.approve_orchestration_plan id)

/-- The part of `persist_controller_plan` that proposes a new plan. -/
def propose_plan (controller_session_id : SessionId) (existing : Option SessionOrchestrationRow)
    (response : AgentResponse) : Run AgentResponse :=
  if response.subtasks.isEmpty then pure response
  else do
    let subtasks := response.subtask_items
    let auto_approve_research ← should_auto_approve_research subtasks
    let retry_orchestration_id ← reusable_retry_orchestration_id existing subtasks
    match validate_subtasks subtasks retry_orchestration_id.isSome with
    | .error reason =>
      return { response with
        subtasks := []
        questions := [{
          text := "The orchestration plan cannot run yet: " ++ reason ++ " Revise the plan?"
          options := ["Revise the plan", "Use a regular session"] }] }
    | .ok () =>
      let id ← plan_orchestration_id controller_session_id retry_orchestration_id
      persist_plan id response.answer subtasks auto_approve_research
      return response

def persist_controller_plan (controller_session_id : SessionId) (response : AgentResponse) :
    Run AgentResponse := do
  let session ← perform (.load_session controller_session_id)
  if session.map (·.role) ≠ some .Orchestrator then return response
  let existing ← perform (.load_orchestration_for_controller controller_session_id)
  match existing.filter (·.status.is_active) with
  | some orchestration =>
    persist_controller_verdicts orchestration response
    let (handled, response) ← handle_active_controller_plan orchestration response
    if handled then return response
    propose_plan controller_session_id none response
  | none => propose_plan controller_session_id existing response

/-! ## The user -/

inductive OrchestrationApprovalOutcome where
  | Approved
  | IntegrationApproachRequired
  | Unavailable
  deriving DecidableEq, Repr

def task_blocks_integration_approval (task : SessionOrchestrationTaskRow) : Bool :=
  match task.kind, task.status with
  | .Research, .Reported => task.verification_verdict ≠ some .Pass
  | _, .Ready => true
  | _, _ => false

def approve_orchestration (controller_session_id : SessionId)
    (integration_approach : Option IntegrationApproach) : Run OrchestrationApprovalOutcome := do
  let orchestration ← perform (.load_orchestration_for_controller controller_session_id)
  match orchestration with
  | none => return .Unavailable
  | some orchestration =>
    match orchestration.status with
    | .AwaitingApproval =>
      let approved ← perform (.approve_orchestration_plan orchestration.id)
      return if approved then .Approved else .Unavailable
    | .AwaitingIntegration =>
      let tasks ← perform (.load_orchestration_tasks orchestration.id)
      if tasks.any task_blocks_integration_approval then return .Unavailable
      match integration_approach with
      | none => return .IntegrationApproachRequired
      | some approach =>
        let approved ←
          perform (.approve_orchestration_integration orchestration.id approach)
        return if approved then .Approved else .Unavailable
    | _ => return .Unavailable

def detach_managed_child (child_session_id : SessionId) : Run Bool :=
  perform (.detach_orchestration_child child_session_id)

def child_session_is_stopped (status : Option SessionStatus) : Bool :=
  status.any SessionStatus.is_stopped

/-- The child a subtask row names, or the one whose row names the subtask. -/
def known_child (task : SessionOrchestrationTaskRow) : Run (Option SessionId) :=
  if task.child_session_id.isSome then pure task.child_session_id
  else perform (.load_child_session_id_for_task task.id)

/-- The body of the loop of `cancel_api_orchestration`. -/
def cancel_api_task (task : SessionOrchestrationTaskRow) : Run Unit := do
  let child_session_id ← known_child task
  match child_session_id with
  | some child =>
    if !child_session_is_stopped task.child_status then
      perform (.cancel_session child)
  | none => pure ()
  perform (.update_orchestration_task_status task.id .Canceled none)

def cancel_api_orchestration (session_id : SessionId) : Run Unit := do
  let orchestration ← perform (.load_orchestration_for_controller session_id)
  match orchestration with
  | none => return
  | some orchestration =>
    let cancellation_started ← perform (.begin_orchestration_cancellation orchestration.id)
    if !cancellation_started then return
    let tasks ← perform (.load_orchestration_tasks orchestration.id)
    let _ ← Prog.traverse cancel_api_task (tasks.filter fun task => !task.status.is_settled)
    perform (.update_orchestration_status orchestration.id .Canceled)

/-- `cancel_api_session` on a session the user selected: the controller itself
is canceled after its campaign. -/
def cancel_api_session (session_id : SessionId) : Run Unit := do
  let session ← perform (.load_session session_id)
  match session with
  | none => .fail "Session not found"
  | some session =>
    if session.role.is_managed then .fail "Session is managed by its campaign"
    else
      if session.role = .Orchestrator then cancel_api_orchestration session_id
      perform (.cancel_session session_id)

def orchestration_question_target (controller_session_id : SessionId) :
    Run (Option (CampaignId × SessionId)) := do
  let orchestration ← perform (.load_orchestration_for_controller controller_session_id)
  match orchestration with
  | none => return none
  | some orchestration =>
    match orchestration.relayed_question_task_id with
    | none => return none
    | some task_id =>
      let tasks ← perform (.load_orchestration_tasks orchestration.id)
      match (tasks.find? (·.id = task_id)).bind (·.child_session_id) with
      | some target => return some (orchestration.id, target)
      | none => .fail ("Orchestration question relay references unavailable task `"
          ++ toString task_id ++ "`")

def validate_question_answers (questions : List QuestionItem) (answers : List QuestionAnswer) :
    Except String Unit := do
  if questions.isEmpty then throw "Session has no questions to answer"
  if questions.length ≠ answers.length then
    throw ("Expected " ++ toString questions.length ++ " question answers, received "
      ++ toString answers.length)
  (questions.zip answers).zipIdx.forM fun entry => do
    if entry.1.1.text ≠ entry.1.2.question then
      throw ("Question answer " ++ toString (entry.2 + 1) ++ " is stale")
    if is_blank entry.1.2.answer then
      throw ("Question answer " ++ toString (entry.2 + 1) ++ " is empty")

/-- The end of `answer_api_questions`, once the relay is known: the answers go to
the relayed child, if there is one, and the relay is cleared after the child has
accepted them. -/
def deliver_answers (session_id : SessionId) (answers : List QuestionAnswer)
    (question_relay : Option (CampaignId × SessionId)) : Run Unit := do
  let target := (question_relay.map Prod.snd).getD session_id
  let row ← perform (.load_session target)
  match row with
  | none => .fail "Session not found"
  | some row =>
    match validate_question_answers (row.questions.getD []) answers with
    | .error reason => .fail reason
    | .ok () =>
      perform (.update_session_questions target none)
      let accepted ← perform (.reply_to_question_answers target answers)
      if !accepted then
        perform (.update_session_questions target row.questions)
        .fail "Session cannot accept question answers in its status"
      else
        match question_relay with
        | some (id, _) => perform (.clear_orchestration_questions id)
        | none => pure ()

def answer_api_questions (session_id : SessionId) (answers : List QuestionAnswer) : Run Unit := do
  let session ← perform (.load_session session_id)
  match session with
  | none => .fail "Session not found"
  | some session =>
    if session.role.is_managed then .fail "Session is managed by its campaign"
    else if session.role = .Orchestrator then do
      let question_relay ← orchestration_question_target session_id
      deliver_answers session_id answers question_relay
    else deliver_answers session_id answers none

end Agentty.Orchestration
