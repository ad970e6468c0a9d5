/-
The merge queue of the app, and the project syncs beside it.

A merge of a session and a sync of a project run in the background and change the base
checkout of a project. The app knows a merge only by the status of its session in the list of
loaded sessions, which holds the sessions of one project, and a sync by its own status. Both
are read where the next job is started.

A call of the app is one step. A status has a handle, which every part of the app shares, and
a copy in the loaded list; a reload and the event batch that names the session bring the copy
up to date. Status writes succeed, so the row of a session is that of its handle. What the
stack, the session's role and the checkout say about a merge is left to the environment
(`Gates`). A finished sync status and its expiry are left out: nothing here reads them.
-/
import Mathlib.Logic.Function.Basic
import Mathlib.Data.List.Basic
import Agentty.Machine
import Agentty.Orchestration.Status

set_option autoImplicit false

namespace Agentty.Session.Checkout

open Orchestration (SessionStatus)

/-! ## The queue -/

inductive MergeQueueProgress where
  | NoAction | StartNext
  deriving DecidableEq, Repr

structure MergeQueue (Si : Type) where
  active_session_id : Option Si
  queued_session_ids : List Si
  deriving DecidableEq, Repr

namespace MergeQueue

variable {Si : Type} [DecidableEq Si]

def is_queued_or_active (queue : MergeQueue Si) (session_id : Si) : Bool :=
  decide (queue.active_session_id = some session_id) ||
    decide (session_id ∈ queue.queued_session_ids)

def enqueue (queue : MergeQueue Si) (session_id : Si) : MergeQueue Si :=
  { queue with queued_session_ids := queue.queued_session_ids ++ [session_id] }

def has_active (queue : MergeQueue Si) : Bool := queue.active_session_id.isSome

def has_work (queue : MergeQueue Si) : Bool :=
  queue.has_active || !queue.queued_session_ids.isEmpty

def set_active (queue : MergeQueue Si) (session_id : Si) : MergeQueue Si :=
  { queue with active_session_id := some session_id }

def progress_from_status_updates (queue : MergeQueue Si)
    (current_active_status : Option SessionStatus) (session_ids : List Si)
    (previous_session_states : Si → Option SessionStatus) :
    MergeQueue Si × MergeQueueProgress :=
  match queue.active_session_id with
  | none => (queue, .NoAction)
  | some active_session_id =>
    let cleared := { queue with active_session_id := none }
    if active_session_id ∉ session_ids then
      if current_active_status.isNone then (cleared, .StartNext) else (queue, .NoAction)
    else if previous_session_states active_session_id ≠ some .Merging then
      if current_active_status ≠ some .Merging then (cleared, .StartNext)
      else (queue, .NoAction)
    else if current_active_status = some .Merging then (queue, .NoAction)
    else (cleared, .StartNext)

end MergeQueue

/-! ## The app -/

structure ProjectSyncContext (Pr : Type) where
  operation_id : Nat
  project_id : Pr
  deriving DecidableEq, Repr

/-- A background job that changes a base checkout. -/
inductive Job (Pr Si : Type) where
  /-- `run_merge_task` -/
  | merge (session_id : Si)
  /-- a sync that the runner was given -/
  | sync (operation : ProjectSyncContext Pr)
  deriving DecidableEq, Repr

structure App (Pr Si : Type) where
  active_project_id : Pr
  /-- the statuses of the loaded sessions -/
  sessions : Si → Option SessionStatus
  /-- the statuses of the handles -/
  handles : Si → SessionStatus
  merge_queue : MergeQueue Si
  /-- the sync whose status is `Running` -/
  project_sync_status : Option (ProjectSyncContext Pr)
  pending_project_sync_requests : List (ProjectSyncContext Pr)
  next_sync_operation_id : Nat
  latest_project_sync_operation_ids : Pr → Option Nat
  /-- the jobs that run -/
  jobs : List (Job Pr Si)
  /-- the `SyncMainCompleted` events that were sent and not handled -/
  sync_completions : List (ProjectSyncContext Pr)

/-- What a merge depends on beside the status. -/
structure Gates (Si : Type) where
  owns_branch_changes : Si → Bool
  can_merge_session_branch_in_stack : Si → Bool
  /-- the base branch and the repository root are found, and the merge target is clean -/
  checkout_ready : Si → Bool

section

variable {Pr Si : Type} [DecidableEq Pr] [DecidableEq Si]

/-- The project whose base checkout a job changes. -/
def Job.project_id (project : Si → Pr) : Job Pr Si → Pr
  | .merge session_id => project session_id
  | .sync operation => operation.project_id

namespace App

/-- `StatusTransition::apply` -/
def apply_status (app : App Pr Si) (session_id : Si) (status : SessionStatus) : App Pr Si :=
  if (app.handles session_id).can_transition_to status then
    { app with handles := Function.update app.handles session_id status }
  else app

/-- A session that a reload does not skip when its folder is missing. -/
def loads_without_folder (status : SessionStatus) : Bool :=
  match status with
  | .Merging | .Merged | .Done | .Canceled => true
  | _ => false

/-- The list of sessions is loaded anew; `folders` says which sessions have one. -/
def refresh_sessions_now (project : Si → Pr) (folders : Si → Bool) (app : App Pr Si) :
    App Pr Si :=
  { app with
    sessions := fun session_id =>
      if project session_id = app.active_project_id ∧
          (folders session_id || loads_without_folder (app.handles session_id)) then
        some (app.handles session_id)
      else none }

/-- The copies of the named sessions follow their handles. -/
def sync_touched_sessions (session_ids : List Si) (app : App Pr Si) : App Pr Si :=
  { app with
    sessions := fun session_id =>
      if session_id ∈ session_ids then
        (app.sessions session_id).map fun _ => app.handles session_id
      else app.sessions session_id }

/-! ### Merges -/

def ensure_project_checkout_available (app : App Pr Si) (project_id : Pr) : Bool :=
  !app.project_sync_status.any fun status => decide (status.project_id = project_id)

/-- `SessionStatus::allows_review_actions`, or `Queued` -/
def mergeable (status : SessionStatus) : Bool :=
  match status with
  | .Review | .AgentReview | .Queued => true
  | _ => false

/-- `SessionMergeService::merge_session`: the start of the merge task, and whether it was
started. -/
def start_merge (gates : Gates Si) (app : App Pr Si) (session_id : Si) : App Pr Si × Bool :=
  match app.sessions session_id with
  | none => (app, false)
  | some status =>
    if gates.owns_branch_changes session_id && mergeable status &&
        gates.can_merge_session_branch_in_stack session_id &&
        (app.handles session_id).can_transition_to .Merging then
      let merging := app.apply_status session_id .Merging
      if gates.checkout_ready session_id then
        ({ merging with jobs := .merge session_id :: merging.jobs }, true)
      else
        -- `restore_review_status`
        (merging.apply_status session_id .Review, false)
    else (app, false)

def restore_queued_session_to_review (app : App Pr Si) (session_id : Si) : App Pr Si :=
  if app.sessions session_id = some .Queued then app.apply_status session_id .Review else app

/-- The loop of `start_next_merge_from_queue` over what is queued. -/
def start_queued (gates : Gates Si) (stop_on_failure : Bool) : List Si → App Pr Si → App Pr Si
  | [], app => app
  | next :: rest, app =>
    let popped :=
      { app with merge_queue := { app.merge_queue with queued_session_ids := rest } }
    match start_merge gates popped next with
    | (started, true) => { started with merge_queue := started.merge_queue.set_active next }
    | (failed, false) =>
      let restored := failed.restore_queued_session_to_review next
      if stop_on_failure then restored else start_queued gates stop_on_failure rest restored

def start_next_merge_from_queue (gates : Gates Si) (stop_on_failure : Bool) (app : App Pr Si) :
    App Pr Si :=
  if app.merge_queue.has_active then app
  else if app.ensure_project_checkout_available app.active_project_id = false then app
  else start_queued gates stop_on_failure app.merge_queue.queued_session_ids app

def validate_merge_request (gates : Gates Si) (app : App Pr Si) (session_id : Si) : Bool :=
  (app.sessions session_id).any mergeable && gates.can_merge_session_branch_in_stack session_id

/-- `App::merge_session`. A request that is refused changes nothing. -/
def merge_session (gates : Gates Si) (session_id : Si) (app : App Pr Si) : App Pr Si :=
  if app.ensure_project_checkout_available app.active_project_id = false then app
  else if app.merge_queue.is_queued_or_active session_id then app
  else if app.validate_merge_request gates session_id = false then app
  else if app.merge_queue.has_active then
    -- `mark_session_as_queued_for_merge`
    if (app.handles session_id).can_transition_to .Queued then
      let queued := app.apply_status session_id .Queued
      { queued with merge_queue := queued.merge_queue.enqueue session_id }
    else app
  else
    start_next_merge_from_queue gates true
      { app with merge_queue := app.merge_queue.enqueue session_id }

/-! ### Project syncs -/

def dispatch_sync_main_request (app : App Pr Si) (request : ProjectSyncContext Pr) : App Pr Si :=
  { app with
    project_sync_status := some request
    jobs := .sync request :: app.jobs }

def start_sync_main (app : App Pr Si) : App Pr Si :=
  let project_id := app.active_project_id
  if app.ensure_project_checkout_available project_id = false ∨
      (app.pending_project_sync_requests.any fun request =>
        decide (request.project_id = project_id)) then
    app
  else
    let request := ⟨app.next_sync_operation_id, project_id⟩
    let app := { app with
      next_sync_operation_id := app.next_sync_operation_id + 1
      latest_project_sync_operation_ids :=
        Function.update app.latest_project_sync_operation_ids project_id
          (some app.next_sync_operation_id) }
    if app.project_sync_status.isSome then
      { app with
        pending_project_sync_requests := app.pending_project_sync_requests ++ [request] }
    else if app.merge_queue.has_work then
      -- the status becomes `Blocked`
      app
    else app.dispatch_sync_main_request request

def start_next_project_sync_from_queue (app : App Pr Si) : App Pr Si :=
  if app.project_sync_status.isSome || app.merge_queue.has_work then app
  else
    match app.pending_project_sync_requests with
    | [] => app
    | request :: rest =>
      dispatch_sync_main_request { app with pending_project_sync_requests := rest } request

def resume_base_checkout_work (gates : Gates Si) (app : App Pr Si) : App Pr Si :=
  if app.project_sync_status.isSome then app
  else
    let app :=
      if app.merge_queue.has_work then app.start_next_merge_from_queue gates false else app
    app.start_next_project_sync_from_queue

def is_latest_project_sync_operation (app : App Pr Si) (operation : ProjectSyncContext Pr) :
    Bool :=
  match app.latest_project_sync_operation_ids operation.project_id with
  | none => true
  | some operation_id => decide (operation_id = operation.operation_id)

/-- The status of the sync that is running becomes terminal, if it is this one. -/
def set_project_sync_terminal_status (app : App Pr Si) (operation : ProjectSyncContext Pr) :
    App Pr Si :=
  if app.project_sync_status = some operation then { app with project_sync_status := none }
  else app

def apply_sync_main_completion (gates : Gates Si) (app : App Pr Si)
    (operation : ProjectSyncContext Pr) : App Pr Si :=
  if app.is_latest_project_sync_operation operation then
    (app.set_project_sync_terminal_status operation).resume_base_checkout_work gates
  else app

/-! ### Event batches -/

def handle_merge_queue_progress (gates : Gates Si) (session_ids : List Si)
    (previous_session_states : Si → Option SessionStatus) (app : App Pr Si) : App Pr Si :=
  let current_status := app.merge_queue.active_session_id.bind app.sessions
  match app.merge_queue.progress_from_status_updates current_status session_ids
      previous_session_states with
  | (merge_queue, .NoAction) => { app with merge_queue }
  | (merge_queue, .StartNext) => resume_base_checkout_work gates { app with merge_queue }

/-- One reduced batch of app events. -/
structure AppEventBatch (Pr Si : Type) where
  session_ids : List Si
  /-- the folders that a reload among the effects finds -/
  refresh : Option (Si → Bool)
  sync_main_completion : Option (ProjectSyncContext Pr)

/-- The effects of a batch that come before its other updates. -/
def apply_app_event_effects (project : Si → Pr) (batch : AppEventBatch Pr Si)
    (app : App Pr Si) : App Pr Si :=
  match batch.refresh with
  | none => app
  | some folders => app.refresh_sessions_now project folders

/-- The sync completion of a batch, which is taken from the sent ones. -/
def apply_synced_merges (gates : Gates Si) (batch : AppEventBatch Pr Si) (app : App Pr Si) :
    App Pr Si :=
  match batch.sync_main_completion with
  | none => app
  | some operation =>
    apply_sync_main_completion gates
      { app with sync_completions := app.sync_completions.erase operation } operation

def apply_app_event_batch (project : Si → Pr) (gates : Gates Si) (batch : AppEventBatch Pr Si)
    (app : App Pr Si) : App Pr Si :=
  -- read before anything changes
  let previous_session_states := fun session_id =>
    if session_id ∈ batch.session_ids then app.sessions session_id else none
  ((app.apply_app_event_effects project batch).apply_synced_merges gates batch
    |>.sync_touched_sessions batch.session_ids)
    |>.handle_merge_queue_progress gates batch.session_ids previous_session_states

end App

/-! ## Steps -/

inductive Label (Pr Si : Type) where
  | merge_session (gates : Gates Si) (session_id : Si)
  | start_sync_main
  | batch (gates : Gates Si) (batch : App.AppEventBatch Pr Si)
  | switch_project (project_id : Pr) (folders : Si → Bool)
  | refresh_sessions (folders : Si → Bool)
  /-- another part of the app moves a session; only the queue itself moves one to `Queued` or
  to `Merging` -/
  | update_status (session_id : Si) (status : SessionStatus)
  /-- a merge task ends, with `Done` or, if it failed, with `Review` -/
  | finish_merge (session_id : Si) (merged : Bool)
  /-- a sync ends, and sends its completion -/
  | finish_sync (operation : ProjectSyncContext Pr)

def step (project : Si → Pr) (app : App Pr Si) : Label Pr Si → Option (App Pr Si)
  | .merge_session gates session_id => some (app.merge_session gates session_id)
  | .start_sync_main => some app.start_sync_main
  | .batch gates batch =>
    if batch.sync_main_completion.all fun operation =>
      decide (operation ∈ app.sync_completions) then
      some (app.apply_app_event_batch project gates batch)
    else none
  | .switch_project project_id folders =>
    some (App.refresh_sessions_now project folders { app with active_project_id := project_id })
  | .refresh_sessions folders => some (app.refresh_sessions_now project folders)
  | .update_status session_id status =>
    if status ≠ .Queued ∧ status ≠ .Merging then some (app.apply_status session_id status)
    else none
  | .finish_merge session_id merged =>
    if .merge session_id ∈ app.jobs then
      some (App.apply_status { app with jobs := app.jobs.filter (· ≠ .merge session_id) }
        session_id (if merged then .Done else .Review))
    else none
  | .finish_sync operation =>
    if .sync operation ∈ app.jobs then
      some { app with
        jobs := app.jobs.filter (· ≠ .sync operation)
        sync_completions := operation :: app.sync_completions }
    else none

/-- The app after its start: the sessions of the first project are loaded and nothing runs. -/
def App.new (project : Si → Pr) (project_id : Pr) (folders : Si → Bool)
    (handles : Si → SessionStatus) : App Pr Si :=
  App.refresh_sessions_now project folders
    { active_project_id := project_id
      sessions := fun _ => none
      handles
      merge_queue := ⟨none, []⟩
      project_sync_status := none
      pending_project_sync_requests := []
      next_sync_operation_id := 1
      latest_project_sync_operation_ids := fun _ => none
      jobs := []
      sync_completions := [] }

end

end Agentty.Session.Checkout
