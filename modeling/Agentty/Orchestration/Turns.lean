/-
What controller turns and user commands may do, as seen from their own logs.

The counterpart of `Pass` for the programs of `Handler`. A turn reads its
campaign once and its subtask list at most once, and acts on them while the
coordinator and the user go on. `TurnCall` is the catalogue of a turn's calls,
`UserCall` the catalogue of the foreground app's; `HandlerPrograms` proves that
the programs keep to them.
-/
import Agentty.Orchestration.Host
import Agentty.Orchestration.Pass

set_option autoImplicit false

namespace Agentty.Orchestration

/-! ## Reading a log -/

def RunEvent.read? (e : RunEvent) : Option SessionOrchestrationRow :=
  match e with
  | ⟨.load_orchestration_for_controller _, .ok row⟩ => row
  | _ => none

def campaign_read (l : RunLog) : Option SessionOrchestrationRow := l.findSome? RunEvent.read?

def RunEvent.inserted? (e : RunEvent) : Option CampaignId :=
  match e with
  | ⟨.insert_orchestration .., .ok id⟩ => some id
  | _ => none

def inserted (l : RunLog) : Option CampaignId := l.findSome? RunEvent.inserted?

def Upserted (l : RunLog) (task_key : String) : Prop :=
  ∃ task id, (⟨.upsert_orchestration_task task, .ok id⟩ : RunEvent) ∈ l ∧ task.task_key = task_key

/-- The program has made a campaign begin to cancel. -/
def Began (l : RunLog) (id : CampaignId) : Prop :=
  (⟨.begin_orchestration_cancellation id, .ok true⟩ : RunEvent) ∈ l

@[simp] theorem campaign_read_cons (e : RunEvent) (l : RunLog) :
    campaign_read (e :: l) = (RunEvent.read? e).or (campaign_read l) := by
  cases h : RunEvent.read? e <;> simp [campaign_read, h]

@[simp] theorem inserted_cons (e : RunEvent) (l : RunLog) :
    inserted (e :: l) = (RunEvent.inserted? e).or (inserted l) := by
  cases h : RunEvent.inserted? e <;> simp [inserted, h]

theorem Upserted.cons {l : RunLog} {task_key : String} (h : Upserted l task_key) (e : RunEvent) :
    Upserted (e :: l) task_key := by
  obtain ⟨task, id, hmem, hkey⟩ := h
  exact ⟨task, id, List.mem_cons_of_mem e hmem, hkey⟩

/-! ## Controller turns -/

/-- The campaign a turn plans: the one it has inserted, or the finished one it
has read. -/
def Plans (l : RunLog) (id : CampaignId) : Prop :=
  inserted l = some id ∨
    (inserted l = none ∧ ∃ c, campaign_read l = some c ∧ c.status = .Done ∧ c.id = id)

/-- **The calls of a controller turn**, given its log. -/
inductive TurnCall (sid : SessionId) : RunLog → Call → Prop where
  | load_session : TurnCall sid [] (.load_session sid)
  | load_campaign {session : Option Session} :
      TurnCall sid [⟨.load_session sid, .ok session⟩] (.load_orchestration_for_controller sid)
  | verdict {l : RunLog} {c : SessionOrchestrationRow} {task_key reason : String} {is_pass : Bool}
      (hc : campaign_read l = some c) (hs : c.status = .Verifying) :
      TurnCall sid l (.record_orchestration_verdict c.id task_key is_pass reason)
  | list {l : RunLog} {c : SessionOrchestrationRow} (hc : campaign_read l = some c)
      (hs : c.status.routes = true ∨ c.status = .Done) (hl : snapshot l = none)
      (hfirst : ∀ task_key, ¬ Upserted l task_key) (hin : inserted l = none) :
      TurnCall sid l (.load_orchestration_tasks c.id)
  | parallelism {l : RunLog} : TurnCall sid l .get_setting_orchestration_parallelism
  | auto_approve {l : RunLog} : TurnCall sid l .get_setting_auto_approve_orchestration_research
  -- follow-up work on an active campaign
  | route_new {l : RunLog} {c : SessionOrchestrationRow} {rows : List SessionOrchestrationTaskRow}
      {task : PersistedOrchestrationTask} (hc : campaign_read l = some c)
      (hs : c.status.routes = true) (hin : inserted l = none) (hl : snapshot l = some (c.id, rows))
      (hid : task.session_orchestration_id = c.id)
      (hnew : ∀ r ∈ rows, r.task_key ≠ task.task_key) (hfresh : ¬ Upserted l task.task_key) :
      TurnCall sid l (.upsert_orchestration_task task)
  | route_again {l : RunLog} {c : SessionOrchestrationRow}
      {rows : List SessionOrchestrationTaskRow} {r : SessionOrchestrationTaskRow}
      {task : PersistedOrchestrationTask} (hc : campaign_read l = some c)
      (hs : c.status.routes = true) (hin : inserted l = none) (hl : snapshot l = some (c.id, rows))
      (hid : task.session_orchestration_id = c.id) (hr : r ∈ rows)
      (hkey : r.task_key = task.task_key) (hkind : r.kind = .Research)
      (hkind' : task.kind = .Research) (hcont : can_continue r.status = true)
      (hfresh : ¬ Upserted l task.task_key) :
      TurnCall sid l (.upsert_orchestration_task task)
  | continue {l : RunLog} {c : SessionOrchestrationRow} {rows : List SessionOrchestrationTaskRow}
      {r : SessionOrchestrationTaskRow} {prompt : String} {criteria areas : List String}
      (hc : campaign_read l = some c) (hs : c.status.routes = true)
      (hl : snapshot l = some (c.id, rows)) (hr : r ∈ rows) (hkind : r.kind = .Implementation)
      (hcont : can_continue r.status = true) :
      TurnCall sid l (.queue_orchestration_continuation r.id prompt criteria areas)
  | reset {l : RunLog} {c : SessionOrchestrationRow} (hc : campaign_read l = some c)
      (hs : c.status = .AwaitingIntegration ∨ c.status = .Integrating) :
      TurnCall sid l (.reset_orchestration_verification c.id)
  | route_status {l : RunLog} {c : SessionOrchestrationRow} {status : OrchestrationStatus}
      (hc : campaign_read l = some c) (hs : c.status.routes = true)
      (hstatus : status = .Running ∨ status = .AwaitingApproval) :
      TurnCall sid l (.update_orchestration_status c.id status)
  -- new plans
  | supersede {l : RunLog} {c : SessionOrchestrationRow} (hc : campaign_read l = some c)
      (hs : c.status = .AwaitingApproval) (hin : inserted l = none) :
      TurnCall sid l (.update_orchestration_status c.id .Canceled)
  | insert {l : RunLog} {max_parallelism : Int} (hin : inserted l = none)
      (hmax : 1 ≤ max_parallelism) (hfirst : ∀ task_key, ¬ Upserted l task_key)
      (hs : ∀ c, campaign_read l = some c → c.status.routes = false) :
      TurnCall sid l (.insert_orchestration sid .AwaitingApproval max_parallelism)
  | plan_status {l : RunLog} {id : CampaignId} (hid : Plans l id)
      (hfirst : ∀ task_key, ¬ Upserted l task_key)
        (hlisted : inserted l = none → snapshot l ≠ none) :
      TurnCall sid l (.update_orchestration_status id .AwaitingApproval)
  | plan {l : RunLog} {id : CampaignId} {goal : String} {max_parallelism : Int} (hid : Plans l id)
      (hmax : 1 ≤ max_parallelism) :
      TurnCall sid l (.update_orchestration_plan id goal max_parallelism)
  | plan_new {l : RunLog} {id : CampaignId} {task : PersistedOrchestrationTask}
      (hin : inserted l = some id) (hid : task.session_orchestration_id = id)
      (hfresh : ¬ Upserted l task.task_key) :
      TurnCall sid l (.upsert_orchestration_task task)
  | plan_retry {l : RunLog} {c : SessionOrchestrationRow} {rows : List SessionOrchestrationTaskRow}
      {r : SessionOrchestrationTaskRow} {task : PersistedOrchestrationTask}
      (hc : campaign_read l = some c) (hs : c.status = .Done) (hin : inserted l = none)
      (hl : snapshot l = some (c.id, rows)) (hid : task.session_orchestration_id = c.id)
      (hr : r ∈ rows) (hkey : r.task_key = task.task_key) (hretry : is_retryable r = true)
      (hreopened : (⟨.update_orchestration_status c.id .AwaitingApproval, .ok ()⟩ : RunEvent) ∈ l)
      (hfresh : ¬ Upserted l task.task_key) :
      TurnCall sid l (.upsert_orchestration_task task)
  | propose {l : RunLog} {task : PersistedOrchestrationTask} {id : TaskId} :
      TurnCall sid (⟨.upsert_orchestration_task task, .ok id⟩ :: l)
        (.update_orchestration_task_status id .Proposed none)
  | approve {l : RunLog} {id : CampaignId}
      (hid : Plans l id ∨ ∃ c, campaign_read l = some c ∧ c.status.routes = true ∧ c.id = id) :
      TurnCall sid l (.approve_orchestration_plan id)

/-! ## The user -/

/-- The row was read by a cancellation that had begun. -/
structure Canceling (l : RunLog) (c : SessionOrchestrationRow)
    (rows : List SessionOrchestrationTaskRow) (r : SessionOrchestrationTaskRow) : Prop where
  read : campaign_read l = some c
  began : Began l c.id
  list : snapshot l = some (c.id, rows)
  mem : r ∈ rows
  unsettled : r.status.is_settled = false

/-- **The calls of the foreground app**, given the log of the command it
serves. -/
inductive UserCall : RunLog → Call → Prop where
  | load_session {l : RunLog} {id : SessionId} : UserCall l (.load_session id)
  | load_campaign {l : RunLog} {id : SessionId} (hc : campaign_read l = none)
      (hl : snapshot l = none) (hbegan : ∀ id, ¬ Began l id) :
      UserCall l (.load_orchestration_for_controller id)
  | list {l : RunLog} {c : SessionOrchestrationRow} (hc : campaign_read l = some c)
      (hl : snapshot l = none) : UserCall l (.load_orchestration_tasks c.id)
  | approve_plan {l : RunLog} {c : SessionOrchestrationRow} (hc : campaign_read l = some c)
      (hs : c.status = .AwaitingApproval) : UserCall l (.approve_orchestration_plan c.id)
  | approve_integration {l : RunLog} {c : SessionOrchestrationRow}
      {rows : List SessionOrchestrationTaskRow} {approach : IntegrationApproach}
      (hc : campaign_read l = some c) (hs : c.status = .AwaitingIntegration)
      (hl : snapshot l = some (c.id, rows))
      (hall : ∀ r ∈ rows, task_blocks_integration_approval r = false) :
      UserCall l (.approve_orchestration_integration c.id approach)
  | detach {child : SessionId} : UserCall [] (.detach_orchestration_child child)
  -- canceling a campaign
  | begin {l : RunLog} {c : SessionOrchestrationRow} (hc : campaign_read l = some c)
      (hl : snapshot l = none) : UserCall l (.begin_orchestration_cancellation c.id)
  | cancel_lookup {l : RunLog} {c : SessionOrchestrationRow}
      {rows : List SessionOrchestrationTaskRow} {r : SessionOrchestrationTaskRow}
      (h : Canceling l c rows r) (hchild : r.child_session_id = none) :
      UserCall l (.load_child_session_id_for_task r.id)
  | cancel_child {l : RunLog} {c : SessionOrchestrationRow}
      {rows : List SessionOrchestrationTaskRow} {r : SessionOrchestrationTaskRow}
      {child : SessionId} (h : Canceling l c rows r) (hchild : FoundChild r l child) :
      UserCall l (.cancel_session child)
  | canceled {l : RunLog} {c : SessionOrchestrationRow} {rows : List SessionOrchestrationTaskRow}
      {r : SessionOrchestrationTaskRow} (h : Canceling l c rows r) (hstop : Stopped r l) :
      UserCall l (.update_orchestration_task_status r.id .Canceled none)
  | cancel {l : RunLog} {c : SessionOrchestrationRow} {rows : List SessionOrchestrationTaskRow}
      (hc : campaign_read l = some c) (hbegan : Began l c.id)
      (hl : snapshot l = some (c.id, rows))
      (hall : ∀ r ∈ rows, (believed l r).status.is_settled = true) :
      UserCall l (.update_orchestration_status c.id .Canceled)
  | cancel_selected {l : RunLog} {id : SessionId} {session : Session}
      (hload : (⟨.load_session id, .ok (some session)⟩ : RunEvent) ∈ l)
      (hrole : session.role.is_managed = false) : UserCall l (.cancel_session id)
  -- answering questions
  | questions {l : RunLog} {id : SessionId} {questions : Option (List QuestionItem)} :
      UserCall l (.update_session_questions id questions)
  | reply {l : RunLog} {id : SessionId} {answers : List QuestionAnswer} :
      UserCall l (.reply_to_question_answers id answers)
  | clear {l : RunLog} {c : SessionOrchestrationRow} {id : SessionId}
      {answers : List QuestionAnswer} (hc : campaign_read l = some c) :
      UserCall (⟨.reply_to_question_answers id answers, .ok true⟩ :: l)
        (.clear_orchestration_questions c.id)

/-- **The calls of every actor**, given the log of the program it runs. -/
def Justified : Actor → RunLog → Call → Prop
  | .coordinator => PassCall
  | .app => UserCall
  | .controller sid => TurnCall sid

end Agentty.Orchestration
