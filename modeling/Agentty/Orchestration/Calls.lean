/-
The boundary between the campaign programs and the rest of the process: every
repository and session-service call they make, what each answers, and what each
does to the persisted state.

Repository calls are the definitions of `Store`. Session-service calls are
served by the foreground app (`agentty/src/app/session_api.rs`) and are modelled
by what the app checks and persists before it answers; what the session's own
worker does afterwards is a move of the environment.
-/
import Agentty.Prog
import Agentty.Orchestration.Store

set_option autoImplicit false

namespace Agentty.Orchestration

/-- The messages the coordinator composes. Each carries what its text is
rendered from. -/
inductive Message where
  /-- `child_prompt`. -/
  | child_prompt (task : SessionOrchestrationTaskRow)
  /-- The prompt of a review remediation. -/
  | review_application (prompt : ContinuationPrompt)
  /-- `continuation_message`. -/
  | continuation (task : SessionOrchestrationTaskRow)
  /-- `rollup_message`. -/
  | rollup (goal_statement : String) (tasks : List SessionOrchestrationTaskRow)
  deriving DecidableEq, Repr

/-- `CreateSessionMode`, as far as the coordinator uses it. -/
inductive CreateSessionMode where
  | OrchestrationChild (task_id : TaskId)
  | OrchestrationResearch (task_id : TaskId)
  deriving DecidableEq, Repr

def CreateSessionMode.task_id : CreateSessionMode → TaskId
  | .OrchestrationChild id => id
  | .OrchestrationResearch id => id

def CreateSessionMode.role : CreateSessionMode → SessionRole
  | .OrchestrationChild _ => .OrchestrationWorker
  | .OrchestrationResearch _ => .OrchestrationResearcher

/-- One call of a campaign program. -/
inductive Call where
  -- orchestration repository
  | insert_orchestration (controller_session_id : SessionId) (status : OrchestrationStatus)
      (max_parallelism : Int)
  | upsert_orchestration_task (task : PersistedOrchestrationTask)
  | load_orchestration_for_controller (controller_session_id : SessionId)
  | load_active_orchestrations
  | load_orchestration_tasks (id : CampaignId)
  | load_orchestration_integration_approach (id : CampaignId)
  | load_child_session_id_for_task (id : TaskId)
  | begin_orchestration_cancellation (id : CampaignId)
  | claim_orchestration_task (id : TaskId)
  | claim_orchestration_review_application (id : TaskId) (prompt : ContinuationPrompt)
      (iteration_limit : Nat)
  | claim_orchestration_rollup (id : CampaignId)
  | complete_orchestration_rollup (id : CampaignId)
  | record_orchestration_verdict (id : CampaignId) (task_key : String) (is_pass : Bool)
      (reason : String)
  | complete_orchestration_campaign (id : CampaignId)
  | load_rollup_operation_status (operation_id : OperationId)
  | update_orchestration_status (id : CampaignId) (status : OrchestrationStatus)
  | approve_orchestration_plan (id : CampaignId)
  | approve_orchestration_integration (id : CampaignId) (approach : IntegrationApproach)
  | update_orchestration_plan (id : CampaignId) (goal_statement : String) (max_parallelism : Int)
  | queue_orchestration_continuation (id : TaskId) (prompt : String)
      (acceptance_criteria touched_areas : List String)
  | reset_orchestration_verification (id : CampaignId)
  | record_orchestration_spawn_failure (id : TaskId) (error : String) (retry_limit : Nat)
  | detach_orchestration_child (child_session_id : SessionId)
  | surface_orchestration_questions (id : CampaignId) (task_id : TaskId)
      (questions : List QuestionItem)
  | clear_orchestration_questions (id : CampaignId)
  | link_orchestration_task_child (id : TaskId) (child_session_id : SessionId)
  | update_orchestration_task_status (id : TaskId) (status : OrchestrationTaskStatus)
      (last_error : Option String)
  | update_orchestration_task_result_summary (id : TaskId) (result_summary : String)
  | update_orchestration_task_research_report (id : TaskId) (research_report : String)
  -- session and setting repositories
  | load_session (id : SessionId)
  | update_session_questions (id : SessionId) (questions : Option (List QuestionItem))
  | get_setting_orchestration_parallelism
  | get_setting_auto_approve_orchestration_research
  -- session service
  | create_session (inherit_from_session_id : SessionId) (mode : CreateSessionMode)
      (project_id : Nat)
  | send_message (session_id : SessionId) (message : Message)
  | submit_coordinator_message (session_id : SessionId) (operation_id : OperationId)
      (message : Message)
  | cancel_session (session_id : SessionId)
  | merge_session (session_id : SessionId)
  | create_review_request (session_id : SessionId)
  | reply_to_question_answers (session_id : SessionId) (answers : List QuestionAnswer)

/-- What a call answers when it succeeds. -/
@[reducible] def Reply : Call → Type
  | .insert_orchestration .. => CampaignId
  | .upsert_orchestration_task _ => TaskId
  | .load_orchestration_for_controller _ => Option SessionOrchestrationRow
  | .load_active_orchestrations => List SessionOrchestrationRow
  | .load_orchestration_tasks _ => List SessionOrchestrationTaskRow
  | .load_orchestration_integration_approach _ => IntegrationApproach
  | .load_child_session_id_for_task _ => Option SessionId
  | .begin_orchestration_cancellation _ => Bool
  | .claim_orchestration_task _ => Bool
  | .claim_orchestration_review_application .. => Bool
  | .claim_orchestration_rollup _ => Bool
  | .complete_orchestration_rollup _ => Bool
  | .record_orchestration_verdict .. => Bool
  | .complete_orchestration_campaign _ => Bool
  | .load_rollup_operation_status _ => Option OperationStatus
  | .approve_orchestration_plan _ => Bool
  | .approve_orchestration_integration .. => Bool
  | .queue_orchestration_continuation .. => Bool
  | .record_orchestration_spawn_failure .. => OrchestrationTaskStatus
  | .detach_orchestration_child _ => Bool
  | .surface_orchestration_questions .. => Bool
  | .link_orchestration_task_child .. => Bool
  | .load_session _ => Option Session
  | .get_setting_orchestration_parallelism => Option Int
  | .get_setting_auto_approve_orchestration_research => Option Bool
  | .create_session .. => SessionId
  | .reply_to_question_answers .. => Bool
  | _ => Unit

/-! ## The session service -/

/-- Roles whose sessions a coordinator owns (`SessionRole::is_managed`). -/
def SessionRole.is_managed : SessionRole → Bool
  | .OrchestrationWorker | .OrchestrationResearcher => true
  | _ => false

/-- A session right after `reserve_session`. -/
def reserved_session (project_id : Nat) (mode : CreateSessionMode) : Session :=
  { added_lines := 0, answer := none, deleted_lines := 0, focused_review_status := none,
    focused_review_text := none, has_diff := none, input_tokens := 0,
    orchestration_task_id := some mode.task_id, output_tokens := 0, project_id,
    questions := none, role := mode.role, status := .Draft }

/-- `create_session`: the source session is read for its settings, then the
child's row is reserved with its link to the subtask. The new id is chosen by
the caller of the model; the link is a unique index. -/
def create_session (w : World) (new_id : SessionId) (inherit_from_session_id : SessionId)
    (mode : CreateSessionMode) (project_id : Nat) : World × Except String SessionId :=
  match w.session inherit_from_session_id with
  | none => (w, .error "Session not found")
  | some source =>
    if source.project_id ≠ project_id then (w, .error "Session belongs to another project")
    else if (load_child_session_id_for_task w mode.task_id).isSome then
      (w, .error "UNIQUE constraint failed: session.orchestration_task_id")
    else if h : w.sessions.get? new_id = none then
      ({ w with sessions := w.sessions.insert new_id (reserved_session project_id mode) h },
        .ok new_id)
    else (w, .error "UNIQUE constraint failed: session.id")

/-- `send_message`: a draft starts, a running session queues, an idle one
replies; every other status refuses. -/
def send_message (w : World) (session_id : SessionId) : Except String Unit :=
  match w.session session_id with
  | none => .error "Session not found"
  | some s =>
    match s.status with
    | .Draft | .InProgress | .Rebasing | .Review | .AgentReview | .Question => .ok ()
    | _ => .error "Session cannot accept a message in its status"

/-- `claim_session_operation`: a new operation is queued, a failed or canceled
one is queued again, and any other one has been accepted before. -/
def claim_session_operation (w : World) (operation_id : OperationId) : World :=
  if h : w.operations.get? operation_id = none then
    { w with operations := w.operations.insert operation_id .Queued h }
  else
    { w with
      operations := w.operations.update operation_id (fun s => s = .Failed || s = .Canceled)
        fun _ => .Queued }

/-- `submit_coordinator_message`: accepted only between turns. -/
def submit_coordinator_message (w : World) (session_id : SessionId) (operation_id : OperationId) :
    World × Except String Unit :=
  match w.session session_id with
  | none => (w, .error "Session not found")
  | some s =>
    match s.status with
    | .Review | .AgentReview | .Question => (claim_session_operation w operation_id, .ok ())
    | _ => (w, .error "Session cannot accept a coordinator message in its status")

/-- `CancellationCapability::allows`, for the capability the role gives. -/
def allows_cancel (s : Session) : Bool :=
  match s.status with
  | .InProgress | .Review | .AgentReview => true
  | .Draft => s.role.is_managed || s.role = .Orchestrator
  | _ => false

def cancel_session (w : World) (session_id : SessionId) : World × Except String Unit :=
  match w.session session_id with
  | none => (w, .error "Session not found")
  | some s =>
    if allows_cancel s then
      ({ w with
          sessions := w.sessions.update session_id allows_cancel
            fun s => { s with status := .Canceled } }, .ok ())
    else (w, .error "Session is not cancelable in its current state")

/-- `reply_to_question_answers` (`ReplyEligibility::QuestionAnswer`). -/
def reply_to_question_answers (w : World) (session_id : SessionId) : Bool :=
  (w.session session_id).any fun s => s.status = .InProgress || s.status = .Question

/-! ## Execution -/

/-- What the programs do not determine about one call: whether the store or the
service fails before it does anything, and the id of a new session. -/
structure Choice where
  error : Option String
  session_id : SessionId
  deriving DecidableEq, Repr

/-- A repository call that only fails from outside. -/
def answered {α : Type} (result : World × α) : World × Except String α := (result.1, .ok result.2)

/-- The effect and answer of a call that does not fail from outside. -/
def serve (w : World) (x : Choice) : (c : Call) → World × Except String (Reply c)
  | .insert_orchestration controller status max => insert_orchestration w controller status max
  | .upsert_orchestration_task task => upsert_orchestration_task w task
  | .load_orchestration_for_controller controller =>
    (w, .ok (load_orchestration_for_controller w controller))
  | .load_active_orchestrations => (w, .ok (load_active_orchestrations w))
  | .load_orchestration_tasks id => (w, .ok (load_orchestration_tasks w id))
  | .load_orchestration_integration_approach id =>
    (w, load_orchestration_integration_approach w id)
  | .load_child_session_id_for_task id => (w, .ok (load_child_session_id_for_task w id))
  | .begin_orchestration_cancellation id => answered (begin_orchestration_cancellation w id)
  | .claim_orchestration_task id => answered (claim_orchestration_task w id)
  | .claim_orchestration_review_application id prompt limit =>
    answered (claim_orchestration_review_application w id prompt limit)
  | .claim_orchestration_rollup id => answered (claim_orchestration_rollup w id)
  | .complete_orchestration_rollup id => answered (complete_orchestration_rollup w id)
  | .record_orchestration_verdict id key is_pass reason =>
    answered (record_orchestration_verdict w id key is_pass reason)
  | .complete_orchestration_campaign id => answered (complete_orchestration_campaign w id)
  | .load_rollup_operation_status op => (w, .ok (load_rollup_operation_status w op))
  | .update_orchestration_status id status => (update_orchestration_status w id status, .ok ())
  | .approve_orchestration_plan id => answered (approve_orchestration_plan w id)
  | .approve_orchestration_integration id approach =>
    answered (approve_orchestration_integration w id approach)
  | .update_orchestration_plan id goal max => (update_orchestration_plan w id goal max, .ok ())
  | .queue_orchestration_continuation id prompt criteria areas =>
    answered (queue_orchestration_continuation w id prompt criteria areas)
  | .reset_orchestration_verification id => (reset_orchestration_verification w id, .ok ())
  | .record_orchestration_spawn_failure id error limit =>
    record_orchestration_spawn_failure w id error limit
  | .detach_orchestration_child child => answered (detach_orchestration_child w child)
  | .surface_orchestration_questions id task questions =>
    answered (surface_orchestration_questions w id task questions)
  | .clear_orchestration_questions id => (clear_orchestration_questions w id, .ok ())
  | .link_orchestration_task_child id child =>
    answered (link_orchestration_task_child w id child)
  | .update_orchestration_task_status id status error =>
    (update_orchestration_task_status w id status error, .ok ())
  | .update_orchestration_task_result_summary id text =>
    (update_orchestration_task_result_summary w id text, .ok ())
  | .update_orchestration_task_research_report id text =>
    (update_orchestration_task_research_report w id text, .ok ())
  | .load_session id => (w, .ok (w.session id))
  | .update_session_questions id questions =>
    ({ w with sessions := w.sessions.update id (fun _ => true) fun s => { s with questions } },
      .ok ())
  | .get_setting_orchestration_parallelism => (w, .ok w.settings.orchestration_parallelism)
  | .get_setting_auto_approve_orchestration_research =>
    (w, .ok w.settings.auto_approve_orchestration_research)
  | .create_session source mode project => create_session w x.session_id source mode project
  | .send_message id _ => (w, send_message w id)
  | .submit_coordinator_message id op _ => submit_coordinator_message w id op
  | .cancel_session id => cancel_session w id
  | .merge_session _ => (w, .ok ())
  | .create_review_request _ => (w, .ok ())
  | .reply_to_question_answers id _ => (w, .ok (reply_to_question_answers w id))

/-- The effect and answer of one call. A failure from outside leaves the state
unchanged: repository calls are one statement or one transaction. -/
def exec (w : World) (x : Choice) (c : Call) : World × Except String (Reply c) :=
  match x.error with
  | some e => (w, .error e)
  | none => serve w x c

end Agentty.Orchestration
