/-
The durable state of campaigns and the repository over it
(`ag-store/src/orchestration.rs`).

One definition per repository function, under the function's name. Each is one
SQLite statement or transaction in the source, hence one atomic step here. A
`WHERE` clause is the predicate of `Table.update` or `Table.updateAll`, a `SET`
clause is its record update, and `rows_affected() == 1` is `Table.affects`.
The timestamp columns are left out: no modelled function reads them.
-/
import Agentty.Table
import Agentty.Orchestration.Plan
import Mathlib.Data.List.Sort

set_option autoImplicit false

namespace Agentty.Orchestration

/-! ## Rows -/

/-- Row id of `session_orchestration`. -/
abbrev CampaignId := Nat

/-- Row id of `session_orchestration_task`. -/
abbrev TaskId := Nat

/-- Row id of `session`. -/
abbrev SessionId := String

/-- What `continuation_prompt` holds: the controller's feedback, or the rendered
`build_apply_review_prompt` of a suggestion set. -/
inductive ContinuationPrompt where
  | feedback (prompt : String)
  | apply_review (suggestions : String)
  deriving DecidableEq, Repr

/-- `rollup_operation_id` and `continuation_operation_id`. The source formats
the numbers into a string; different numbers give different strings. -/
inductive OperationId where
  | orchestration_rollup (id : CampaignId) (verification_generation : Nat)
  | orchestration_continuation (id : TaskId) (continuation_generation : Nat)
  deriving DecidableEq, Repr

/-- One row of `session_orchestration`. -/
structure Campaign where
  controller_session_id : SessionId
  goal_statement : String
  integration_approach : IntegrationApproach
  max_parallelism : Int
  relayed_question_task_id : Option TaskId
  status : OrchestrationStatus
  verification_generation : Nat
  deriving DecidableEq, Repr

/-- The columns of `session_orchestration_task` that a load returns. -/
structure TaskColumns where
  acceptance_criteria : List String
  area_violations : List String
  areas_compliant : Option Bool
  attempt_count : Nat
  child_session_id : Option SessionId
  continuation_generation : Nat
  continuation_prompt : Option ContinuationPrompt
  infrastructure_retry_count : Nat
  kind : OrchestrationTaskKind
  last_error : Option String
  merge_position : Nat
  prompt : String
  research_report : Option String
  result_summary : Option String
  review_iteration : Nat
  status : OrchestrationTaskStatus
  task_key : String
  title : String
  touched_areas : List String
  verification_reason : Option String
  verification_verdict : Option Verdict
  deriving DecidableEq, Repr

/-- One row of `session_orchestration_task`. -/
structure Task extends TaskColumns where
  session_orchestration_id : CampaignId
  deriving DecidableEq, Repr

/-- The columns of `session` that campaigns read or write. `questions` is the
serialized question list, `none` for the empty string. -/
structure Session where
  added_lines : Nat
  answer : Option String
  deleted_lines : Nat
  focused_review_status : Option FocusedReviewStatus
  focused_review_text : Option String
  has_diff : Option Bool
  input_tokens : Nat
  orchestration_task_id : Option TaskId
  output_tokens : Nat
  project_id : Nat
  questions : Option (List QuestionItem)
  role : SessionRole
  status : SessionStatus
  deriving DecidableEq, Repr

/-- The two settings campaigns read, already parsed; `none` when the stored text
is missing or does not parse. -/
structure Settings where
  auto_approve_orchestration_research : Option Bool
  orchestration_parallelism : Option Int
  deriving DecidableEq, Repr

/-- The persisted state. -/
structure World where
  campaigns : Table CampaignId Campaign
  tasks : Table TaskId Task
  sessions : Table SessionId Session
  operations : Table OperationId OperationStatus
  settings : Settings

namespace World

abbrev campaign (w : World) (id : CampaignId) : Option Campaign := w.campaigns.get? id

abbrev task (w : World) (id : TaskId) : Option Task := w.tasks.get? id

abbrev session (w : World) (id : SessionId) : Option Session := w.sessions.get? id

def campaign_status (w : World) (id : CampaignId) : Option OrchestrationStatus :=
  (w.campaign id).map (·.status)

end World

/-- `PersistedOrchestrationTask`: the values of one upsert. -/
structure PersistedOrchestrationTask where
  acceptance_criteria : List String
  kind : OrchestrationTaskKind
  merge_position : Nat
  prompt : String
  session_orchestration_id : CampaignId
  task_key : String
  title : String
  touched_areas : List String
  deriving DecidableEq, Repr

/-- `SessionOrchestrationRow`: a loaded campaign. -/
structure SessionOrchestrationRow where
  controller_project_id : Nat
  controller_session_id : SessionId
  goal_statement : String
  id : CampaignId
  max_parallelism : Int
  relayed_question_task_id : Option TaskId
  status : OrchestrationStatus
  verification_generation : Nat
  deriving DecidableEq, Repr

/-- `SessionOrchestrationTaskRow`: a loaded subtask joined with its child. -/
structure SessionOrchestrationTaskRow extends TaskColumns where
  id : TaskId
  child_added_lines : Nat
  child_answer : Option String
  child_deleted_lines : Nat
  child_focused_review_status : Option FocusedReviewStatus
  child_focused_review_text : Option String
  child_has_diff : Option Bool
  child_input_tokens : Nat
  child_output_tokens : Nat
  child_questions : Option (List QuestionItem)
  child_status : Option SessionStatus
  deriving DecidableEq, Repr

/-! ## Plans -/

/-- `insert_orchestration`; the controller is a foreign key. -/
def insert_orchestration (w : World) (controller_session_id : SessionId)
    (status : OrchestrationStatus) (max_parallelism : Int) : World × Except String CampaignId :=
  if (w.session controller_session_id).isNone then (w, .error "FOREIGN KEY constraint failed")
  else
    let row : Campaign :=
      { controller_session_id, goal_statement := "", integration_approach := .LocalMerge,
        max_parallelism, relayed_question_task_id := none, status, verification_generation := 0 }
    ({ w with campaigns := w.campaigns.push row }, .ok w.campaigns.nextId)

/-- The row an upsert of a new key inserts; the columns it does not name take
their defaults. -/
def PersistedOrchestrationTask.fresh (task : PersistedOrchestrationTask) : Task :=
  { acceptance_criteria := task.acceptance_criteria, area_violations := [],
    areas_compliant := none, attempt_count := 0, child_session_id := none,
    continuation_generation := 0, continuation_prompt := none,
    infrastructure_retry_count := 0, kind := task.kind, last_error := none,
    merge_position := task.merge_position, prompt := task.prompt, research_report := none,
    result_summary := none, review_iteration := 0, status := .Planned,
    task_key := task.task_key, title := task.title, touched_areas := task.touched_areas,
    verification_reason := none, verification_verdict := none,
    session_orchestration_id := task.session_orchestration_id }

/-- What an upsert of an existing key writes (`ON CONFLICT … DO UPDATE`). -/
def PersistedOrchestrationTask.overwrite (task : PersistedOrchestrationTask) (row : Task) : Task :=
  { row with
    title := task.title, prompt := task.prompt, kind := task.kind,
    touched_areas := task.touched_areas, acceptance_criteria := task.acceptance_criteria,
    merge_position := task.merge_position, status := .Planned, child_session_id := none,
    continuation_prompt := none, review_iteration := 0, research_report := none,
    result_summary := none, verification_reason := none, verification_verdict := none,
    last_error := none }

/-- The row of a key within a campaign: `UNIQUE (session_orchestration_id,
task_key)`. -/
def find_task (w : World) (id : CampaignId) (task_key : String) : Option TaskId :=
  (w.tasks.rows.find? fun row =>
    row.2.session_orchestration_id = id && row.2.task_key = task_key).map Prod.fst

/-- `UPDATE session SET orchestration_task_id = NULL WHERE orchestration_task_id = ?`. -/
def unlink_sessions (w : World) (id : TaskId) : World :=
  { w with
    sessions := w.sessions.updateAll (fun _ s => s.orchestration_task_id = some id)
      fun s => { s with orchestration_task_id := none } }

/-- `upsert_orchestration_task`; the campaign is a foreign key. -/
def upsert_orchestration_task (w : World) (task : PersistedOrchestrationTask) :
    World × Except String TaskId :=
  if (w.campaign task.session_orchestration_id).isNone then
    (w, .error "FOREIGN KEY constraint failed")
  else
    match find_task w task.session_orchestration_id task.task_key with
    | some id =>
      (unlink_sessions { w with tasks := w.tasks.update id (fun _ => true) task.overwrite } id,
        .ok id)
    | none =>
      (unlink_sessions { w with tasks := w.tasks.push task.fresh } w.tasks.nextId,
        .ok w.tasks.nextId)

def update_orchestration_plan (w : World) (id : CampaignId) (goal_statement : String)
    (max_parallelism : Int) : World :=
  { w with
    campaigns := w.campaigns.update id (·.status = .AwaitingApproval)
      fun c => { c with goal_statement, max_parallelism } }

/-! ## Loads -/

/-- One campaign row joined with its controller. -/
def campaign_row (w : World) (id : CampaignId) (c : Campaign) : Option SessionOrchestrationRow :=
  (w.session c.controller_session_id).map fun controller =>
    { controller_project_id := controller.project_id,
      controller_session_id := c.controller_session_id, goal_statement := c.goal_statement, id,
      max_parallelism := c.max_parallelism,
      relayed_question_task_id := c.relayed_question_task_id, status := c.status,
      verification_generation := c.verification_generation }

/-- `load_orchestration_for_controller`: `ORDER BY id DESC LIMIT 1`. -/
def load_orchestration_for_controller (w : World) (controller_session_id : SessionId) :
    Option SessionOrchestrationRow :=
  (((w.campaigns.select fun _ c => c.controller_session_id = controller_session_id).filterMap
    fun row => campaign_row w row.1 row.2).insertionSort (fun a b => b.id ≤ a.id)).head?

/-- `load_active_orchestrations`: `ORDER BY id`. -/
def load_active_orchestrations (w : World) : List SessionOrchestrationRow :=
  ((w.campaigns.select fun _ c => c.status.is_active).filterMap
    fun row => campaign_row w row.1 row.2).insertionSort (fun a b => a.id ≤ b.id)

/-- One subtask row left-joined with its child. -/
def task_row (w : World) (id : TaskId) (t : Task) : SessionOrchestrationTaskRow :=
  let child := t.child_session_id.bind w.session
  { t.toTaskColumns with
    id
    child_added_lines := (child.map (·.added_lines)).getD 0
    child_answer := child.bind (·.answer)
    child_deleted_lines := (child.map (·.deleted_lines)).getD 0
    child_focused_review_status := child.bind (·.focused_review_status)
    child_focused_review_text := child.bind (·.focused_review_text)
    child_has_diff := child.bind (·.has_diff)
    child_input_tokens := (child.map (·.input_tokens)).getD 0
    child_output_tokens := (child.map (·.output_tokens)).getD 0
    child_questions := child.bind (·.questions)
    child_status := child.map (·.status) }

/-- `load_orchestration_tasks`: `ORDER BY merge_position, id`. -/
def load_orchestration_tasks (w : World) (id : CampaignId) : List SessionOrchestrationTaskRow :=
  ((w.tasks.select fun _ t => t.session_orchestration_id = id).map
    fun row => task_row w row.1 row.2).insertionSort
      (fun a b => a.merge_position < b.merge_position ∨
        (a.merge_position = b.merge_position ∧ a.id ≤ b.id))

/-- `load_orchestration_integration_approach`: `fetch_one` fails on no row. -/
def load_orchestration_integration_approach (w : World) (id : CampaignId) :
    Except String IntegrationApproach :=
  match w.campaign id with
  | some c => .ok c.integration_approach
  | none => .error "load orchestration integration approach: no row"

def load_child_session_id_for_task (w : World) (task_id : TaskId) : Option SessionId :=
  (w.sessions.rows.find? fun row => row.2.orchestration_task_id = some task_id).map Prod.fst

def load_rollup_operation_status (w : World) (operation_id : OperationId) :
    Option OperationStatus :=
  w.operations.get? operation_id

/-! ## Guarded campaign moves -/

structure OrchestrationTransition where
  from_orchestration_status : OrchestrationStatus
  from_task_status : OrchestrationTaskStatus
  require_pass_verdict : Bool
  to_orchestration_status : OrchestrationStatus
  to_task_status : OrchestrationTaskStatus

def transition_orchestration_and_tasks (w : World) (id : CampaignId)
    (transition : OrchestrationTransition) : World × Bool :=
  let from_status := fun c : Campaign => decide (c.status = transition.from_orchestration_status)
  if w.campaigns.affects id from_status then
    ({ w with
        campaigns := w.campaigns.update id from_status
          fun c => { c with status := transition.to_orchestration_status }
        tasks := w.tasks.updateAll
          (fun _ t => t.session_orchestration_id = id && t.status = transition.from_task_status
            && (!transition.require_pass_verdict || t.verification_verdict = some .Pass))
          fun t => { t with status := transition.to_task_status } }, true)
  else (w, false)

def approve_orchestration_plan (w : World) (id : CampaignId) : World × Bool :=
  transition_orchestration_and_tasks w id
    { from_orchestration_status := .AwaitingApproval, from_task_status := .Proposed,
      require_pass_verdict := false, to_orchestration_status := .Running,
      to_task_status := .Planned }

def complete_orchestration_rollup (w : World) (id : CampaignId) : World × Bool :=
  transition_orchestration_and_tasks w id
    { from_orchestration_status := .Verifying, from_task_status := .Ready,
      require_pass_verdict := true, to_orchestration_status := .AwaitingIntegration,
      to_task_status := .AwaitingIntegration }

/-- `UPDATE session_orchestration SET … WHERE id = ? AND …` with its
`rows_affected() == 1`. -/
def update_campaign (w : World) (id : CampaignId) (p : Campaign → Bool)
    (f : Campaign → Campaign) : World × Bool :=
  ({ w with campaigns := w.campaigns.update id p f }, w.campaigns.affects id p)

def begin_orchestration_cancellation (w : World) (id : CampaignId) : World × Bool :=
  update_campaign w id (·.status.is_active) fun c => { c with status := .Canceling }

def claim_orchestration_rollup (w : World) (id : CampaignId) : World × Bool :=
  update_campaign w id (·.status = .Running) fun c =>
    { c with status := .Verifying, verification_generation := c.verification_generation + 1 }

def approve_orchestration_integration (w : World) (id : CampaignId)
    (approach : IntegrationApproach) : World × Bool :=
  update_campaign w id (·.status = .AwaitingIntegration) fun c =>
    { c with integration_approach := approach, status := .Integrating }

/-- `update_orchestration_status`: by id only. -/
def update_orchestration_status (w : World) (id : CampaignId) (status : OrchestrationStatus) :
    World :=
  { w with campaigns := w.campaigns.update id (fun _ => true) fun c => { c with status } }

/-- `complete_orchestration_campaign`: the campaign is archived and its
controller made terminal. -/
def complete_orchestration_campaign (w : World) (id : CampaignId) : World × Bool :=
  let finished := fun c : Campaign =>
    decide (c.status = .AwaitingIntegration) || decide (c.status = .Integrating)
  match w.campaign id with
  | some c =>
    if finished c then
      ({ w with
          campaigns := w.campaigns.update id finished fun c => { c with status := .Done }
          sessions := w.sessions.update c.controller_session_id
            (fun s => s.role = .Orchestrator && (s.status = .Review || s.status = .Question))
            fun s => { s with status := .Done, questions := none } }, true)
    else (w, false)
  | none => (w, false)

/-! ## Guarded subtask moves -/

/-- `UPDATE session_orchestration_task SET … WHERE id = ? AND …` with its
`rows_affected() == 1`. -/
def update_task (w : World) (id : TaskId) (p : Task → Bool) (f : Task → Task) : World × Bool :=
  ({ w with tasks := w.tasks.update id p f }, w.tasks.affects id p)

def is_running (w : World) (id : CampaignId) : Bool := w.campaign_status id = some .Running

def claim_orchestration_task (w : World) (id : TaskId) : World × Bool :=
  update_task w id (fun t => t.status = .Planned && is_running w t.session_orchestration_id)
    fun t => { t with status := .Creating, last_error := none }

def link_orchestration_task_child (w : World) (id : TaskId) (child_session_id : SessionId) :
    World × Bool :=
  update_task w id (fun t => t.status = .Creating && is_running w t.session_orchestration_id)
    fun t => { t with
      child_session_id := some child_session_id, status := .Running,
      attempt_count := t.attempt_count + 1 }

/-- Clear the consumed review cache of a subtask's child. -/
def clear_child_review (w : World) (id : TaskId) : World :=
  { w with
    sessions := w.sessions.updateAll
      (fun s _ => (w.task id).bind (·.child_session_id) = some s)
      fun s => { s with focused_review_status := none, focused_review_text := none } }

def claim_orchestration_review_application (w : World) (id : TaskId)
    (prompt : ContinuationPrompt) (iteration_limit : Nat) : World × Bool :=
  let result := update_task w id
    (fun t => t.status = .Reviewing && t.review_iteration < iteration_limit
      && t.child_session_id.isSome)
    fun t => { t with
      continuation_generation := t.continuation_generation + 1,
      continuation_prompt := some prompt, review_iteration := t.review_iteration + 1,
      status := .ReviewApplying }
  if result.2 then (clear_child_review result.1 id, true) else (w, false)

def queue_orchestration_continuation (w : World) (id : TaskId) (prompt : String)
    (acceptance_criteria touched_areas : List String) : World × Bool :=
  let result := update_task w id
    (fun t => t.child_session_id.isSome && (t.status = .Ready || t.status = .AwaitingIntegration
      || t.status = .IntegrationFailed))
    fun t => { t with
      acceptance_criteria, area_violations := [], areas_compliant := none,
      continuation_generation := t.continuation_generation + 1,
      continuation_prompt := some (.feedback prompt), review_iteration := 0,
      status := .ContinuationPending, touched_areas, result_summary := none,
      verification_verdict := none, verification_reason := none, last_error := none }
  if result.2 then (clear_child_review result.1 id, true) else (w, false)

def record_orchestration_verdict (w : World) (id : CampaignId) (task_key : String)
    (is_pass : Bool) (reason : String) : World × Bool :=
  let hit := fun (_ : TaskId) (t : Task) =>
    decide (t.session_orchestration_id = id) && decide (t.task_key = task_key)
      && (t.status = .Ready || t.status = .Reported) && w.campaign_status id = some .Verifying
  let judged := fun t : Task => { t with
    verification_reason := some reason,
    verification_verdict := some (if is_pass then .Pass else .Flag) }
  ({ w with tasks := w.tasks.updateAll hit judged }, (w.tasks.select hit).length == 1)

def reset_orchestration_verification (w : World) (id : CampaignId) : World :=
  { w with
    tasks := w.tasks.updateAll
      (fun _ t => t.session_orchestration_id = id && t.status = .AwaitingIntegration)
      fun t => { t with
        status := .Ready, verification_reason := none, verification_verdict := none } }

/-- `record_orchestration_spawn_failure`: by id only; `fetch_one` fails on no
row and rolls back. -/
def record_orchestration_spawn_failure (w : World) (id : TaskId) (error : String)
    (retry_limit : Nat) : World × Except String OrchestrationTaskStatus :=
  match w.task id with
  | none => (w, .error "record orchestration spawn failure: no row")
  | some t =>
    let status : OrchestrationTaskStatus :=
      if t.infrastructure_retry_count < retry_limit then .Planned else .Failed
    let failed := fun t : Task => { t with
      child_session_id := none,
      infrastructure_retry_count := t.infrastructure_retry_count + 1,
      status, last_error := some error }
    (unlink_sessions { w with tasks := w.tasks.update id (fun _ => true) failed } id, .ok status)

def detach_orchestration_child (w : World) (child_session_id : SessionId) : World × Bool :=
  match w.session child_session_id with
  | some child =>
    match child.orchestration_task_id with
    | some id =>
      if child.role = .OrchestrationWorker then
        ({ w with
            tasks := w.tasks.update id (fun _ => true)
              fun t => { t with child_session_id := none, status := .Detached }
            sessions := w.sessions.update child_session_id (fun _ => true)
              fun s => { s with orchestration_task_id := none, role := .Worker } }, true)
      else (w, false)
    | none => (w, false)
  | none => (w, false)

/-! ## Unguarded subtask columns -/

/-- `update_orchestration_task_status`: by id only. -/
def update_orchestration_task_status (w : World) (id : TaskId) (status : OrchestrationTaskStatus)
    (last_error : Option String) : World :=
  { w with tasks := w.tasks.update id (fun _ => true) fun t => { t with status, last_error } }

def update_orchestration_task_result_summary (w : World) (id : TaskId) (result_summary : String) :
    World :=
  { w with
    tasks := w.tasks.update id (fun _ => true)
      fun t => { t with result_summary := some result_summary } }

def update_orchestration_task_research_report (w : World) (id : TaskId)
    (research_report : String) : World :=
  { w with
    tasks := w.tasks.update id (·.kind = .Research)
      fun t => { t with research_report := some research_report } }

/-! ## The question relay -/

def surface_orchestration_questions (w : World) (id : CampaignId) (task_id : TaskId)
    (questions : List QuestionItem) : World × Bool :=
  let waits := (w.task task_id).any fun t =>
    t.session_orchestration_id = id && t.status = .WaitingForInput && t.child_session_id.isSome
  let claimable := fun c : Campaign =>
    c.relayed_question_task_id.isNone && waits && (w.session c.controller_session_id).any fun s =>
      s.role = .Orchestrator && (s.status = .Review || s.status = .Question) && s.questions.isNone
  match w.campaign id with
  | some c =>
    if claimable c then
      ({ w with
          campaigns := w.campaigns.update id claimable
            fun c => { c with relayed_question_task_id := some task_id }
          sessions := w.sessions.update c.controller_session_id (fun _ => true)
            fun s => { s with questions := some questions, status := .Question } }, true)
    else (w, false)
  | none => (w, false)

def clear_orchestration_questions (w : World) (id : CampaignId) : World :=
  match w.campaign id with
  | some c =>
    if c.relayed_question_task_id.isSome then
      { w with
        campaigns := w.campaigns.update id (·.relayed_question_task_id.isSome)
          fun c => { c with relayed_question_task_id := none }
        sessions := w.sessions.update c.controller_session_id
          (fun s => s.role = .Orchestrator && s.status = .Question)
          fun s => { s with questions := none, status := .Review } }
    else w
  | none => w

end Agentty.Orchestration
