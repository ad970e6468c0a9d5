/-
What a coordinator pass may do, as seen from its own log.

A pass reads snapshots and then acts on them one call at a time, while other
actors go on. All it knows is its log, so every call it makes is described here
by the log before it: which campaign row and which subtask row it had read, what
it believes the subtask's status to be, and which answers came just before. The
catalogue is `PassCall`; `CoordinatorPrograms` proves that the programs keep to
it. Everything later that depends on what the coordinator does goes through this
catalogue and never through the programs.
-/
import Agentty.Orchestration.Coordinator

set_option autoImplicit false

namespace Agentty.Orchestration

/-- One call of a campaign program with its answer. -/
abbrev RunEvent : Type := Prog.Event Call Reply String

/-- What an answer of the store is known to satisfy, whatever the state. -/
def Valid : (c : Call) → Reply c → Prop
  | .load_active_orchestrations, rows => (rows.map (·.id)).Nodup
  | .load_orchestration_tasks _, rows => (rows.map (·.id)).Nodup ∧
      ∀ r ∈ rows, r.child_session_id = none → r.child_status = none
  | .load_orchestration_for_controller id, row =>
    ∀ c : SessionOrchestrationRow, row = some c → c.controller_session_id = id
  | .record_orchestration_spawn_failure .., status => status = .Planned ∨ status = .Failed
  | _, _ => True

/-! ## Reading a log -/

/-- What an event says about the status of a subtask. -/
def RunEvent.tells (e : RunEvent) (id : TaskId) : Option OrchestrationTaskStatus :=
  match e with
  | ⟨.load_orchestration_tasks _, .ok rows⟩ => (rows.find? (·.id = id)).map (·.status)
  | ⟨.update_orchestration_task_status id' status _, .ok _⟩ =>
    if id' = id then some status else none
  | ⟨.claim_orchestration_task id', .ok claimed⟩ =>
    if id' = id ∧ claimed then some .Creating else none
  | ⟨.link_orchestration_task_child id' _, .ok linked⟩ =>
    if id' = id ∧ linked then some .Running else none
  | ⟨.claim_orchestration_review_application id' _ _, .ok claimed⟩ =>
    if id' = id ∧ claimed then some .ReviewApplying else none
  | ⟨.record_orchestration_spawn_failure id' _ _, .ok status⟩ =>
    if id' = id then some status else none
  | _ => none

/-- The status a program believes a subtask to have: the newest event that says
something about it. -/
def belief : RunLog → TaskId → Option OrchestrationTaskStatus
  | [], _ => none
  | e :: l, id => (RunEvent.tells e id).or (belief l id)

/-- The subtask list an event read, with its campaign. -/
def RunEvent.list? (e : RunEvent) : Option (CampaignId × List SessionOrchestrationTaskRow) :=
  match e with
  | ⟨.load_orchestration_tasks id, .ok rows⟩ => some (id, rows)
  | _ => none

/-- The subtask list a program works from: the newest one it has read. -/
def snapshot (l : RunLog) : Option (CampaignId × List SessionOrchestrationTaskRow) :=
  l.findSome? RunEvent.list?

/-- The pass has loaded a campaign row. -/
def Loaded (l : RunLog) (c : SessionOrchestrationRow) : Prop :=
  ∃ cs : List SessionOrchestrationRow,
    (⟨.load_active_orchestrations, .ok cs⟩ : RunEvent) ∈ l ∧ c ∈ cs

/-- Calls that end the work on a campaign: they move its status. -/
def Call.closes (id : CampaignId) : Call → Bool
  | .claim_orchestration_rollup id' => id' = id
  | .complete_orchestration_rollup id' => id' = id
  | .complete_orchestration_campaign id' => id' = id
  | .update_orchestration_status id' _ => id' = id
  | _ => false

/-- The program has not yet tried to move the campaign's status. -/
def IsOpen (l : RunLog) (id : CampaignId) : Prop := ∀ e ∈ l, e.1.closes id = false

/-! ## Subtasks -/

/-- The pass reconciles this row: every row of a running campaign, the live ones
of a parked one. -/
def Reconciles (c : SessionOrchestrationRow) (r : SessionOrchestrationTaskRow) : Prop :=
  c.status = .Running ∨ (c.status = .AwaitingApproval ∧ is_live r.status = true)

/-- The row is reconciled by its child's status, not by a research report. -/
def FollowsBranch (r : SessionOrchestrationTaskRow) : Prop :=
  r.kind = .Implementation ∨ r.status = .ReviewApplying ∨ r.status = .ContinuationPending

/-- The statuses `reconcile_task` derives from the child it has read. -/
inductive Follows (r : SessionOrchestrationTaskRow) : OrchestrationTaskStatus → Prop where
  /-- A child under review is waited for, or its review is complete. -/
  | review {s : OrchestrationTaskStatus}
      (h : r.child_status = some .Review ∨ r.child_status = some .AgentReview)
      (hs : s = .Reviewing ∨ s = .Ready) (hkind : FollowsBranch r) : Follows r s
  /-- Any other child decides the status alone. -/
  | mapped {child_status : SessionStatus} (h : observed_child_status r = child_status)
      (hreview : child_status ≠ .Review ∧ child_status ≠ .AgentReview)
      (hkind : OrchestrationTaskStatus.from_child_status child_status = .Ready → FollowsBranch r) :
      Follows r (OrchestrationTaskStatus.from_child_status child_status)

/-- A coordinator message is sent again only when its operation is missing or
has failed. -/
def Redeliverable : Option OperationStatus → Prop
  | none | some .Failed | some .Canceled => True
  | _ => False

/-- Which prompt generation a delivery uses: the stored one of a pending prompt,
or the one this pass has just claimed. -/
def Delivers (r : SessionOrchestrationTaskRow) (l : RunLog) (generation : Nat) : Prop :=
  (generation = r.continuation_generation ∧
    (r.status = .ReviewApplying ∨ r.status = .ContinuationPending)) ∨
  (generation = r.continuation_generation + 1 ∧ ∃ prompt limit,
    (⟨.claim_orchestration_review_application r.id prompt limit, .ok true⟩ : RunEvent) ∈ l)

/-- The writes of an integrating pass on one row. -/
inductive IntegrationWrite (r : SessionOrchestrationTaskRow) (l : RunLog) :
    OrchestrationTaskStatus → Prop where
  | merged (hr : r.status = .ReviewRequested)
      (h : r.child_status = some .Merged ∨ r.child_status = some .Done) :
      IntegrationWrite r l .Integrated
  | closed (hr : r.status = .ReviewRequested) (h : r.child_status = some .Canceled) :
      IntegrationWrite r l .IntegrationFailed
  | integrated (hr : r.status = .Merging)
      (h : r.child_status = some .Merged ∨ r.child_status = some .Done) :
      IntegrationWrite r l .Integrated
  | merging (hr : r.status = .AwaitingIntegration)
      (hb : belief l r.id = some .AwaitingIntegration) : IntegrationWrite r l .Merging
  | settle {s : OrchestrationTaskStatus}
      (hr : r.status = .Merging ∨ r.status = .AwaitingIntegration)
      (hb : belief l r.id = some .Merging ∨ belief l r.id = some .AwaitingIntegration)
      (hs : s = .ReviewRequested ∨ s = .IntegrationFailed) : IntegrationWrite r l s

/-- The child a canceling program found for a row: the one the row names, or the
one whose own row names the subtask. -/
def FoundChild (r : SessionOrchestrationTaskRow) (l : RunLog) (child : SessionId) : Prop :=
  r.child_session_id = some child ∨
    (r.child_session_id = none ∧
      ∃ l', l = ⟨.load_child_session_id_for_task r.id, .ok (some child)⟩ :: l')

/-- What stops a subtask that is being canceled, from its row: nothing to stop,
a child that has stopped, or one that has just been canceled. -/
inductive Stopped (r : SessionOrchestrationTaskRow) : RunLog → Prop where
  | already {l : RunLog} (h : child_session_is_stopped r.child_status = true) : Stopped r l
  | canceled {l : RunLog} {child : SessionId} (h : FoundChild r l child) :
      Stopped r (⟨.cancel_session child, .ok ()⟩ :: l)
  | absent {l : RunLog} (h : r.child_session_id = none) :
      Stopped r (⟨.load_child_session_id_for_task r.id, .ok none⟩ :: l)

/-- The slots the rows of a list occupy, as far as the pass knows. -/
def believed_slots (l : RunLog) (rows : List SessionOrchestrationTaskRow) : Nat :=
  (rows.filter fun r =>
      (belief l r.id).any OrchestrationTaskStatus.occupies_parallelism_slot).length

/-- **The calls a pass makes about one subtask**, given the campaign row `c` and
the subtask row `r` it has read, and its log. -/
inductive TaskCall (c : SessionOrchestrationRow) (rows : List SessionOrchestrationTaskRow)
    (r : SessionOrchestrationTaskRow) : RunLog → Call → Prop where
  -- reconciling the child's status
  | operation {l : RunLog} {generation : Nat} (hc : Reconciles c r) :
      TaskCall c rows r l
        (.load_rollup_operation_status (.orchestration_continuation r.id generation))
  | deliver {l : RunLog} {child : SessionId} {generation : Nat} {m : Message}
      {status : Option OperationStatus} (hc : Reconciles c r)
      (hchild : r.child_session_id = some child) (hstatus : Redeliverable status)
      (hgeneration : Delivers r l generation) :
      TaskCall c rows r
        (⟨.load_rollup_operation_status (.orchestration_continuation r.id generation),
          .ok status⟩ :: l)
        (.submit_coordinator_message child (.orchestration_continuation r.id generation) m)
  | follow {l : RunLog} {s : OrchestrationTaskStatus} {error : Option String}
      (hc : Reconciles c r) (hchild : r.child_session_id ≠ none) (hs : Follows r s)
      (hne : belief l r.id ≠ some s) :
      TaskCall c rows r l (.update_orchestration_task_status r.id s error)
  | lost {l : RunLog} {error : Option String} (hc : Reconciles c r)
      (hr : r.status = .ContinuationPending) (hchild : r.child_session_id = none) :
      TaskCall c rows r l (.update_orchestration_task_status r.id .Failed error)
  | report {l : RunLog} {text : String} (hc : Reconciles c r) (hkind : r.kind = .Research) :
      TaskCall c rows r l (.update_orchestration_task_research_report r.id text)
  | discard {l : RunLog} {child : SessionId} (hc : Reconciles c r) (hkind : r.kind = .Research)
      (hr : r.status ≠ .Reported) (hchild : r.child_session_id = some child)
      (h : r.child_status = some .Review ∨ r.child_status = some .AgentReview) :
      TaskCall c rows r l (.cancel_session child)
  | reported {l : RunLog} {error : Option String} {child : SessionId} (hc : Reconciles c r)
      (hkind : r.kind = .Research) (hr : r.status ≠ .Reported)
      (hchild : r.child_session_id = some child)
      (h : (observed_child_status r).is_stopped = true ∨
        ∃ l', l = ⟨.cancel_session child, .ok ()⟩ :: l') :
      TaskCall c rows r l (.update_orchestration_task_status r.id .Reported error)
  | summary {l : RunLog} {text : String} (hc : Reconciles c r) :
      TaskCall c rows r l (.update_orchestration_task_result_summary r.id text)
  | claim_review {l : RunLog} {prompt : ContinuationPrompt} (hc : Reconciles c r)
      (hchild : r.child_session_id ≠ none)
      (h : r.child_status = some .Review ∨ r.child_status = some .AgentReview)
      (hkind : FollowsBranch r) (hb : belief l r.id = some .Reviewing) :
      TaskCall c rows r l (.claim_orchestration_review_application r.id prompt
        MAX_AUTOMATED_REVIEW_ITERATIONS)
  -- recovering an interrupted creation
  | recover_lookup {l : RunLog} (hc : c.status = .Running) (hr : r.status = .Creating)
      (hchild : r.child_session_id = none) (hb : belief l r.id = some .Creating) :
      TaskCall c rows r l (.load_child_session_id_for_task r.id)
  | recover_link {l : RunLog} {child : SessionId} (hc : c.status = .Running)
      (hr : r.status = .Creating) (hchild : r.child_session_id = none)
      (hb : belief l r.id = some .Creating) :
      TaskCall c rows r (⟨.load_child_session_id_for_task r.id, .ok (some child)⟩ :: l)
        (.link_orchestration_task_child r.id child)
  | recover_failed {l : RunLog} {error : String} (hc : c.status = .Running)
      (hr : r.status = .Creating) (hchild : r.child_session_id = none)
      (hb : belief l r.id = some .Creating) :
      TaskCall c rows r (⟨.load_child_session_id_for_task r.id, .ok none⟩ :: l)
        (.record_orchestration_spawn_failure r.id error INFRASTRUCTURE_RETRY_LIMIT)
  | unclaimed {l : RunLog} {child : SessionId} (hc : c.status = .Running)
      (hchild : r.child_session_id = none) (hr : r.status = .Planned ∨ r.status = .Creating) :
      TaskCall c rows r (⟨.link_orchestration_task_child r.id child, .ok false⟩ :: l)
        (.cancel_session child)
  -- spawning
  | claim {l : RunLog} (hc : c.status = .Running)
      (hr : r.status = .Planned ∨ r.status = .Creating) (hchild : r.child_session_id = none)
      (hb : belief l r.id = some .Planned)
      (hslots : believed_slots l rows < c.max_parallelism.toNat) :
      TaskCall c rows r l (.claim_orchestration_task r.id)
  | create {l : RunLog} {mode : CreateSessionMode} (hc : c.status = .Running)
      (hr : r.status = .Planned ∨ r.status = .Creating) (hchild : r.child_session_id = none)
      (hmode : mode = match r.kind with
        | .Research => .OrchestrationResearch r.id
        | .Implementation => .OrchestrationChild r.id) :
      TaskCall c rows r (⟨.claim_orchestration_task r.id, .ok true⟩ :: l)
        (.create_session c.controller_session_id mode c.controller_project_id)
  | create_failed {l : RunLog} {source : SessionId} {mode : CreateSessionMode} {project : Nat}
      {error error' : String} (hc : c.status = .Running)
      (hr : r.status = .Planned ∨ r.status = .Creating) (hchild : r.child_session_id = none) :
      TaskCall c rows r
        (⟨.create_session source mode project, .error error⟩ ::
          ⟨.claim_orchestration_task r.id, .ok true⟩ :: l)
        (.record_orchestration_spawn_failure r.id error' INFRASTRUCTURE_RETRY_LIMIT)
  | link {l : RunLog} {source child : SessionId} {mode : CreateSessionMode} {project : Nat}
      (hc : c.status = .Running) (hr : r.status = .Planned ∨ r.status = .Creating)
      (hchild : r.child_session_id = none) (hmode : mode.task_id = r.id) :
      TaskCall c rows r
        (⟨.create_session source mode project, .ok child⟩ ::
          ⟨.claim_orchestration_task r.id, .ok true⟩ :: l)
        (.link_orchestration_task_child r.id child)
  | send {l : RunLog} {source child : SessionId} {mode : CreateSessionMode} {project : Nat}
      {task : SessionOrchestrationTaskRow} (hc : c.status = .Running)
      (hr : r.status = .Planned ∨ r.status = .Creating) (hchild : r.child_session_id = none)
      (htask : task.id = r.id) :
      TaskCall c rows r
        (⟨.link_orchestration_task_child r.id child, .ok true⟩ ::
          ⟨.create_session source mode project, .ok child⟩ :: l)
        (.send_message child (.child_prompt task))
  | retract {l : RunLog} {child : SessionId} {m : Message} {error : String}
      (hc : c.status = .Running) (hr : r.status = .Planned ∨ r.status = .Creating)
      (hchild : r.child_session_id = none) :
      TaskCall c rows r
        (⟨.send_message child m, .error error⟩ ::
          ⟨.link_orchestration_task_child r.id child, .ok true⟩ :: l)
        (.cancel_session child)
  | send_failed {l : RunLog} {child : SessionId} {m : Message} {error error' : String}
      (hc : c.status = .Running) (hr : r.status = .Planned ∨ r.status = .Creating)
      (hchild : r.child_session_id = none) :
      TaskCall c rows r
        (⟨.cancel_session child, .ok ()⟩ :: ⟨.send_message child m, .error error⟩ ::
          ⟨.link_orchestration_task_child r.id child, .ok true⟩ :: l)
        (.record_orchestration_spawn_failure r.id error' INFRASTRUCTURE_RETRY_LIMIT)
  -- integrating
  | integrate {l : RunLog} {s : OrchestrationTaskStatus} {error : Option String}
      (hc : c.status = .Integrating) (hs : IntegrationWrite r l s) :
      TaskCall c rows r l (.update_orchestration_task_status r.id s error)
  | merge {l : RunLog} {child : SessionId} (hc : c.status = .Integrating)
      (hr : r.status = .AwaitingIntegration) (hchild : r.child_session_id = some child)
      (hb : belief l r.id = some .Merging) :
      TaskCall c rows r l (.merge_session child)
  | publish {l : RunLog} {child : SessionId} (hc : c.status = .Integrating)
      (hr : r.status = .AwaitingIntegration ∨ r.status = .Merging)
      (hchild : r.child_session_id = some child) (hb : belief l r.id = some .Merging) :
      TaskCall c rows r l (.create_review_request child)
  -- canceling
  | cancel_lookup {l : RunLog} (hc : c.status = .Canceling) (hr : r.status.is_settled = false)
      (hchild : r.child_session_id = none) :
      TaskCall c rows r l (.load_child_session_id_for_task r.id)
  | cancel_child {l : RunLog} {child : SessionId} (hc : c.status = .Canceling)
      (hr : r.status.is_settled = false) (hchild : FoundChild r l child) :
      TaskCall c rows r l (.cancel_session child)
  | canceled {l : RunLog} {error : Option String} (hc : c.status = .Canceling)
      (hr : r.status.is_settled = false) (hstop : Stopped r l) :
      TaskCall c rows r l (.update_orchestration_task_status r.id .Canceled error)

/-! ## Campaigns -/

/-- A row as the pass believes it to be. -/
def believed (l : RunLog) (r : SessionOrchestrationTaskRow) : SessionOrchestrationTaskRow :=
  { r with status := (belief l r.id).getD r.status }

/-- **The calls of a pass about one campaign**, given the row `c` it has loaded
and its log. -/
inductive CampaignCall (c : SessionOrchestrationRow) : RunLog → Call → Prop where
  | list {l : RunLog} (ho : IsOpen l c.id) : CampaignCall c l (.load_orchestration_tasks c.id)
  | approach {l : RunLog} (ho : IsOpen l c.id) (hs : c.status = .Integrating) :
      CampaignCall c l (.load_orchestration_integration_approach c.id)
  | task {l : RunLog} {rows : List SessionOrchestrationTaskRow} {r : SessionOrchestrationTaskRow}
      {call : Call} (ho : IsOpen l c.id) (hl : snapshot l = some (c.id, rows)) (hr : r ∈ rows)
      (h : TaskCall c rows r l call) : CampaignCall c l call
  | surface {l : RunLog} {rows : List SessionOrchestrationTaskRow} {r : SessionOrchestrationTaskRow}
      {questions : List QuestionItem} (ho : IsOpen l c.id)
      (hs : c.status = .Running ∨ c.status = .AwaitingApproval)
      (hl : snapshot l = some (c.id, rows)) (hr : r ∈ rows)
      (hb : belief l r.id = some .WaitingForInput) (hq : r.child_questions = some questions) :
      CampaignCall c l (.surface_orchestration_questions c.id r.id questions)
  | claim_rollup {l : RunLog} {refreshed : List SessionOrchestrationTaskRow}
      (ho : IsOpen l c.id) (hs : c.status = .Running)
      (hall : ∀ r ∈ refreshed, r.status.is_settled = true) :
      CampaignCall c (⟨.load_orchestration_tasks c.id, .ok refreshed⟩ :: l)
        (.claim_orchestration_rollup c.id)
  | submit_claimed {l : RunLog} {m : Message} (hs : c.status = .Running) :
      CampaignCall c (⟨.claim_orchestration_rollup c.id, .ok true⟩ :: l)
        (.submit_coordinator_message c.controller_session_id
          (.orchestration_rollup c.id (c.verification_generation + 1)) m)
  | rollup_operation {l : RunLog} (ho : IsOpen l c.id) (hs : c.status = .Verifying) :
      CampaignCall c l (.load_rollup_operation_status
        (.orchestration_rollup c.id c.verification_generation))
  | complete_rollup {l : RunLog} (ho : IsOpen l c.id) (hs : c.status = .Verifying) :
      CampaignCall c (⟨.load_rollup_operation_status
        (.orchestration_rollup c.id c.verification_generation), .ok (some .Done)⟩ :: l)
        (.complete_orchestration_rollup c.id)
  | submit_rollup {l : RunLog} {m : Message} {status : Option OperationStatus}
      (ho : IsOpen l c.id) (hs : c.status = .Verifying) (hstatus : Redeliverable status) :
      CampaignCall c (⟨.load_rollup_operation_status
        (.orchestration_rollup c.id c.verification_generation), .ok status⟩ :: l)
        (.submit_coordinator_message c.controller_session_id
          (.orchestration_rollup c.id c.verification_generation) m)
  | complete_campaign {l : RunLog} {rows : List SessionOrchestrationTaskRow}
      (ho : IsOpen l c.id) (hs : c.status = .AwaitingIntegration ∨ c.status = .Integrating)
      (hl : snapshot l = some (c.id, rows))
      (hall : ∀ r ∈ rows, task_is_integration_settled (believed l r) = true) :
      CampaignCall c l (.complete_orchestration_campaign c.id)
  | cancel {l : RunLog} {rows : List SessionOrchestrationTaskRow} (ho : IsOpen l c.id)
      (hs : c.status = .Canceling) (hl : snapshot l = some (c.id, rows))
      (hall : ∀ r ∈ rows, (believed l r).status.is_settled = true) :
      CampaignCall c l (.update_orchestration_status c.id .Canceled)

/-- **The calls of a pass**, given its log. -/
inductive PassCall : RunLog → Call → Prop where
  | load_active : PassCall [] .load_active_orchestrations
  | campaign {l : RunLog} {c : SessionOrchestrationRow} {call : Call} (hc : Loaded l c)
      (h : CampaignCall c l call) : PassCall l call

/-! ## What the calls about one subtask leave alone -/

section Frame

variable {c : SessionOrchestrationRow} {rows : List SessionOrchestrationTaskRow}
  {r : SessionOrchestrationTaskRow} {l l' : RunLog} {call : Call}

/-- A call about a subtask tells nothing about another one. -/
theorem TaskCall.tells_of_ne (h : TaskCall c rows r l call) {id : TaskId} (hid : id ≠ r.id)
    (reply : Except String (Reply call)) : RunEvent.tells ⟨call, reply⟩ id = none := by
  have hne : ¬ r.id = id := fun h => hid h.symm
  cases h <;> cases reply <;> first | rfl | simp [RunEvent.tells, hne]

theorem TaskCall.closes_eq_false (h : TaskCall c rows r l call) (id : CampaignId) :
    call.closes id = false := by
  cases h <;> rfl

theorem CampaignCall.closes_of_ne (h : CampaignCall c l call) {id : CampaignId} (hid : id ≠ c.id) :
    call.closes id = false := by
  have hne : ¬ c.id = id := fun h => hid h.symm
  cases h with
  | task _ _ _ h => exact h.closes_eq_false id
  | _ => simp [Call.closes, hne]

end Frame

theorem Loaded.cons {l : RunLog} {c : SessionOrchestrationRow} (h : Loaded l c) (e : RunEvent) :
    Loaded (e :: l) c := by
  obtain ⟨cs, hmem, hc⟩ := h
  exact ⟨cs, List.mem_cons_of_mem e hmem, hc⟩

theorem IsOpen.cons {l : RunLog} {id : CampaignId} (h : IsOpen l id) {e : RunEvent}
    (he : e.1.closes id = false) : IsOpen (e :: l) id := by
  intro e' he'
  rcases List.mem_cons.mp he' with rfl | he'
  · exact he
  · exact h e' he'

@[simp] theorem snapshot_cons (e : RunEvent) (l : RunLog) :
    snapshot (e :: l) = (RunEvent.list? e).or (snapshot l) := by
  cases h : RunEvent.list? e <;> simp [snapshot, h]

end Agentty.Orchestration
