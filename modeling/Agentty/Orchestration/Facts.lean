/-
What stays true for good.

Some facts a program reads never change afterwards: the campaign and the key of
a subtask, who a session was created for. They hold in every run, under every
interleaving, and the later invariants rest on them. The first part says which
actor issues which call, so that later proofs can go from a row's move to what the
acting program had read.
-/
import Agentty.Orchestration.Ownership

set_option autoImplicit false

namespace Agentty.Orchestration

/-! ## Who issues a call -/

/-- The coordinator works on a row of a list it has read for an open campaign. -/
structure At (l : RunLog) (c : SessionOrchestrationRow) (rows : List SessionOrchestrationTaskRow)
    (r : SessionOrchestrationTaskRow) : Prop where
  loaded : Loaded l c
  isOpen : IsOpen l c.id
  list : snapshot l = some (c.id, rows)
  mem : r ∈ rows

/-- Calls that only the coordinator issues, and about single subtasks. -/
def Call.is_task_call : Call → Bool
  | .claim_orchestration_task _ | .link_orchestration_task_child .. | .create_session ..
  | .record_orchestration_spawn_failure .. | .claim_orchestration_review_application ..
  | .update_orchestration_task_research_report .. | .update_orchestration_task_result_summary ..
  | .merge_session _ | .create_review_request _ | .send_message .. => true
  | _ => false

variable {a : Actor} {l : RunLog} {call : Call}

theorem Justified.of_task_call (h : Justified a l call) (hc : call.is_task_call = true) :
    a = .coordinator ∧ ∃ c rows r, At l c rows r ∧ TaskCall c rows r l call := by
  cases a with
  | coordinator =>
    cases h with
    | load_active => cases hc
    | campaign hload h =>
      cases h with
      | task ho hl hr h => exact ⟨rfl, _, _, _, ⟨hload, ho, hl, hr⟩, h⟩
      | _ => cases hc
  | app | controller => cases h <;> cases hc

variable {id : TaskId} {status : OrchestrationTaskStatus} {error : Option String}

theorem Justified.of_task_status
    (h : Justified a l (.update_orchestration_task_status id status error)) :
    (a = .coordinator ∧ ∃ c rows r, At l c rows r ∧
      TaskCall c rows r l (.update_orchestration_task_status id status error)) ∨
    (a = .app ∧ status = .Canceled ∧ ∃ c rows r, Canceling l c rows r ∧ r.id = id ∧ Stopped r l) ∨
    ∃ sid task l', a = .controller sid ∧ status = .Proposed ∧
      l = ⟨.upsert_orchestration_task task, .ok id⟩ :: l' := by
  cases a with
  | coordinator =>
    cases h with
    | campaign hload h =>
      cases h with
      | task ho hl hr h => exact .inl ⟨rfl, _, _, _, ⟨hload, ho, hl, hr⟩, h⟩
  | app =>
    cases h with
    | canceled h hstop => exact .inr (.inl ⟨rfl, rfl, _, _, _, h, rfl, hstop⟩)
  | controller sid =>
    cases h with
    | propose => exact .inr (.inr ⟨sid, _, _, rfl, rfl, rfl⟩)

/-- The turn may still write a status other than `Canceled`: it has inserted the
campaign, or has read it in a status from which it routes work or retries. -/
def Reopens (l : RunLog) (id : CampaignId) : Prop :=
  (∃ c, campaign_read l = some c ∧ c.id = id ∧ (c.status.routes = true ∨ c.status = .Done)) ∨
    inserted l = some id

theorem Reopens.touches {id : CampaignId} (h : Reopens l id) : Touches l id := by
  rcases h with ⟨c, hc, hid, -⟩ | h
  · exact .inl ⟨c, hc, hid⟩
  · exact .inr h

section

variable {id : CampaignId} {status : OrchestrationStatus}
  (h : Justified a l (.update_orchestration_status id status))

include h

theorem Justified.status_write :
    status = .Canceled ∨ ∃ sid, a = .controller sid ∧ Reopens l id := by
  cases a with
  | coordinator =>
    cases h with
    | campaign _ h =>
      cases h with
      | cancel => exact .inl rfl
      | task _ _ _ h => cases h
  | app =>
    cases h with
    | cancel => exact .inl rfl
  | controller sid =>
    cases h with
    | route_status hc hs _ => exact .inr ⟨sid, rfl, .inl ⟨_, hc, rfl, .inl hs⟩⟩
    | supersede => exact .inl rfl
    | plan_status hid _ _ =>
      refine .inr ⟨sid, rfl, ?_⟩
      rcases hid with h | ⟨-, c, hc, hdone, hid⟩
      · exact .inr h
      · exact .inl ⟨c, hc, hid, .inr hdone⟩

theorem Justified.status_written :
    status = .Running ∨ status = .AwaitingApproval ∨ status = .Canceled := by
  cases a with
  | coordinator =>
    cases h with
    | campaign _ h =>
      cases h with
      | cancel => exact .inr (.inr rfl)
      | task _ _ _ h => cases h
  | app => cases h; exact .inr (.inr rfl)
  | controller sid =>
    cases h with
    | route_status _ _ hstatus => exact hstatus.imp_right .inl
    | supersede => exact .inr (.inr rfl)
    | plan_status => exact .inr (.inl rfl)

end

/-- Upserts, continuations, verdicts and resets come from turns. -/
def Call.is_turn_call : Call → Bool
  | .upsert_orchestration_task _ | .queue_orchestration_continuation ..
  | .record_orchestration_verdict .. | .reset_orchestration_verification _
  | .insert_orchestration .. | .update_orchestration_plan .. => true
  | _ => false

theorem Justified.of_turn_call (h : Justified a l call) (hc : call.is_turn_call = true) :
    ∃ sid, a = .controller sid ∧ TurnCall sid l call := by
  cases a with
  | coordinator =>
    cases h with
    | load_active => cases hc
    | campaign hload h =>
      cases h with
      | task ho hl hr h => cases h <;> cases hc
      | _ => cases hc
  | app => cases h <;> cases hc
  | controller sid => exact ⟨sid, rfl, h⟩

/-- The campaign moves that only the coordinator makes. -/
def Call.is_pass_call : Call → Bool
  | .claim_orchestration_rollup _ | .complete_orchestration_rollup _
  | .complete_orchestration_campaign _ | .surface_orchestration_questions .. => true
  | _ => false

theorem Justified.of_pass_call (h : Justified a l call) (hc : call.is_pass_call = true) :
    a = .coordinator ∧ ∃ c, Loaded l c ∧ CampaignCall c l call := by
  cases a with
  | coordinator =>
    cases h with
    | load_active => cases hc
    | campaign hload h => exact ⟨rfl, _, hload, h⟩
  | app | controller => cases h <;> cases hc

/-! ## Subtasks keep their campaign and key -/

variable {w : World} {t t' : Task} {c : Call} {r : Except String (Reply c)}

section

variable (h : TaskMove w id t c r t')

include h

theorem TaskMove.campaign : t'.session_orchestration_id = t.session_orchestration_id := by
  cases h <;> rfl

theorem TaskMove.key : t'.task_key = t.task_key := by
  cases h <;> rfl

/-! ### How a subtask comes to a status before its spawn -/

theorem TaskMove.to_proposed (hs : t'.status = .Proposed) :
    t.status = .Proposed ∨
      ∃ error, (⟨c, r⟩ : RunEvent)
        = ⟨.update_orchestration_task_status id .Proposed error, .ok ()⟩ := by
  cases h with
  | written => subst hs; exact .inr ⟨_, rfl⟩
  | spawn_failed hstatus => rcases hstatus with rfl | rfl <;> cases hs
  | _ => first | exact .inl hs | cases hs

theorem TaskMove.to_merging (hs : t'.status = .Merging) :
    (t.status = .Merging ∧ t'.child_session_id = t.child_session_id) ∨
      ∃ error, (⟨c, r⟩ : RunEvent)
        = ⟨.update_orchestration_task_status id .Merging error, .ok ()⟩ := by
  cases h with
  | written => subst hs; exact .inr ⟨_, rfl⟩
  | spawn_failed hstatus => rcases hstatus with rfl | rfl <;> cases hs
  | _ => first | exact .inl ⟨hs, rfl⟩ | cases hs

theorem TaskMove.to_planned (hs : t'.status = .Planned) :
    t.status = .Planned ∨
    (t.status = .Proposed ∧ (⟨c, r⟩ : RunEvent) =
      ⟨.approve_orchestration_plan t.session_orchestration_id, .ok true⟩) ∨
    (∃ error limit status, (⟨c, r⟩ : RunEvent) =
      ⟨.record_orchestration_spawn_failure id error limit, .ok status⟩) ∨
    (∃ error, (⟨c, r⟩ : RunEvent) =
      ⟨.update_orchestration_task_status id .Planned error, .ok ()⟩) ∨
    ∃ task, (⟨c, r⟩ : RunEvent) = ⟨.upsert_orchestration_task task, .ok id⟩ := by
  cases h with
  | approved _ hs' => exact .inr (.inl ⟨hs', rfl⟩)
  | spawn_failed _ => exact .inr (.inr (.inl ⟨_, _, _, rfl⟩))
  | written => subst hs; exact .inr (.inr (.inr (.inl ⟨_, rfl⟩)))
  | upserted _ _ => exact .inr (.inr (.inr (.inr ⟨_, rfl⟩)))
  | _ => first | exact .inl hs | cases hs

theorem TaskMove.to_creating (hs : t'.status = .Creating) :
    t.status = .Creating ∨
    (t.status = .Planned ∧ (⟨c, r⟩ : RunEvent) = ⟨.claim_orchestration_task id, .ok true⟩) ∨
    ∃ error, (⟨c, r⟩ : RunEvent) =
      ⟨.update_orchestration_task_status id .Creating error, .ok ()⟩ := by
  cases h with
  | claimed _ hs' => exact .inr (.inl ⟨hs', rfl⟩)
  | spawn_failed hstatus => rcases hstatus with rfl | rfl <;> cases hs
  | written => subst hs; exact .inr (.inr ⟨_, rfl⟩)
  | _ => first | exact .inl hs | cases hs

end

/-- The row was read of a subtask of this campaign. -/
def Known (w : World) (cid : CampaignId) (r : SessionOrchestrationTaskRow) : Prop :=
  ∃ t, w.task r.id = some t ∧ t.session_orchestration_id = cid ∧ t.task_key = r.task_key

variable {cid : CampaignId}

theorem Known.exec {w' : World} {rep : Except String (Reply c)} {r : SessionOrchestrationTaskRow}
    (h : Known w cid r) (hx : Exec w c rep w') : Known w' cid r := by
  obtain ⟨t, ht, hcid, hkey⟩ := h
  obtain ⟨t', ht', hmove⟩ := hx.task_of_some ht
  exact ⟨t', ht', hmove.campaign.trans hcid, hmove.key.trans hkey⟩

variable {rows : List SessionOrchestrationTaskRow}

/-- A list is read once and for all, or is the one that was there. -/
theorem snapshot_cons_eq_some {e : RunEvent} (h : snapshot (e :: l) = some (cid, rows)) :
    e = ⟨.load_orchestration_tasks cid, .ok rows⟩ ∨
      (RunEvent.list? e = none ∧ snapshot l = some (cid, rows)) := by
  rw [snapshot_cons] at h
  rcases Option.or_eq_some_iff.mp h with h | h
  · unfold RunEvent.list? at h
    split at h
    · cases h
      exact .inl rfl
    · cases h
  · exact .inr h

variable {K : Configuration → HostLabel → Prop} {cfg : Configuration}

/-- **The rows of a list stay known.** -/
theorem listed_known (h : Reachable K cfg) (hl : cfg.log a = some l)
    (hlist : snapshot l = some (cid, rows)) :
    (rows.map (·.id)).Nodup ∧ ∀ r ∈ rows, Known cfg.world cid r := by
  refine reachable_logs (fun w _ l => ∀ cid rows, snapshot l = some (cid, rows) →
    (rows.map (·.id)).Nodup ∧ ∀ r ∈ rows, Known w cid r) h ?_ ?_ ?_ ?_ a l hl cid rows hlist
  · intro w a cid rows hlist
    cases hlist
  · intro cfg w' a l c r _ _ ih _ hx cid rows hlist
    rcases snapshot_cons_eq_some hlist with he | ⟨-, hlist⟩
    · cases he
      obtain ⟨rfl, rfl⟩ := hx.load_tasks
      refine ⟨nodup_load_orchestration_tasks cid, fun r hr => ?_⟩
      obtain ⟨t, ht, hcid, hrow⟩ := mem_load_orchestration_tasks.mp hr
      exact ⟨t, ht, hcid, by rw [hrow]; rfl⟩
    · obtain ⟨hnd, hknown⟩ := ih cid rows hlist
      exact ⟨hnd, fun r hr => (hknown r hr).exec hx⟩
  · intro cfg w' a l b l₀ c r _ _ ih _ _ _ hx cid rows hlist
    obtain ⟨hnd, hknown⟩ := ih cid rows hlist
    exact ⟨hnd, fun r hr => (hknown r hr).exec hx⟩
  · intro w w' m a l henv ih cid rows hlist
    obtain ⟨hnd, hknown⟩ := ih cid rows hlist
    refine ⟨hnd, fun r hr => ?_⟩
    rw [Known, World.task, env_tasks henv]
    exact hknown r hr

/-- **A key names one subtask of a campaign.** -/
theorem keys_unique (h : Reachable K cfg) {id' : TaskId} (ht : cfg.world.task id = some t)
    (ht' : cfg.world.task id' = some t')
    (hcid : t.session_orchestration_id = t'.session_orchestration_id)
    (hkey : t.task_key = t'.task_key) : id = id' := by
  refine reachable_world (fun w => ∀ id id' t t', w.task id = some t → w.task id' = some t' →
    t.session_orchestration_id = t'.session_orchestration_id → t.task_key = t'.task_key →
    id = id') h ?_ ?_ ?_ id id' t t' ht ht' hcid hkey
  · intro id id' t t' ht
    cases ht
  · intro cfg w' a l c r _ _ ih _ hx id id' t t' ht ht' hcid hkey
    rcases hx.task ht with ⟨t₀, ht₀, hmove⟩ | hborn
    · rcases hx.task ht' with ⟨t₀', ht₀', hmove'⟩ | hborn'
      · refine ih id id' t₀ t₀' ht₀ ht₀' ?_ ?_
        · rw [← hmove.campaign, ← hmove'.campaign, hcid]
        · rw [← hmove.key, ← hmove'.key, hkey]
      · -- the inserted row has a key that no other row of the campaign has
        cases hborn' with
        | fresh _ hfresh _ =>
          exact absurd (hmove.key ▸ hkey) (hfresh id t₀ ht₀ (hmove.campaign ▸ hcid))
    · cases hborn with
      | fresh _ hfresh _ =>
        rcases hx.task ht' with ⟨t₀', ht₀', hmove'⟩ | hborn'
        · exact absurd (hmove'.key ▸ hkey.symm) (hfresh id' t₀' ht₀' (hmove'.campaign ▸ hcid.symm))
        · cases hborn'
          rfl
  · intro w w' m henv ih id id' t t' ht ht'
    rw [World.task, env_tasks henv] at ht ht'
    exact ih id id' t t' ht ht'

/-! ## Sessions and their subtasks -/

variable {s : Session}

/-- Whom a session was created for changes only to nobody. -/
theorem SessionMove.link {id : SessionId} {s' : Session} (h : SessionMove w id s c r s')
    {task_id : TaskId} (hlink : s'.orchestration_task_id = some task_id) :
    s.orchestration_task_id = some task_id := by
  cases h <;> first | exact hlink | cases hlink

theorem EnvSession.link {id : SessionId} {s' : Session} {m : EnvMove} (h : EnvSession id s m s') :
    s'.orchestration_task_id = s.orchestration_task_id := by
  cases h <;> rfl

/-- **A session is linked to a subtask that exists.** -/
theorem linked_task (h : Reachable K cfg) {id : SessionId} {task_id : TaskId}
    (hs : cfg.world.session id = some s) (hlink : s.orchestration_task_id = some task_id) :
    ∃ t, cfg.world.task task_id = some t := by
  refine reachable_world (fun w => ∀ id s task_id, w.session id = some s →
    s.orchestration_task_id = some task_id → ∃ t, w.task task_id = some t) h ?_ ?_ ?_
    id s task_id hs hlink
  · intro id s task_id hs
    cases hs
  · intro cfg w' a l c r hreach hl ih hJ hx id s' task_id hs' hlink
    have hexists : ∃ t, cfg.world.task task_id = some t := by
      rcases hx.session hs' with ⟨s, hs, hmove⟩ | hborn
      · exact ih id s task_id hs (hmove.link hlink)
      · cases hborn with
        | fresh =>
          -- the subtask the child was created for is a row the pass has read
          obtain ⟨rfl, c, rows, r, hat, hcall⟩ := hJ.of_task_call rfl
          obtain ⟨t, ht, -⟩ := (listed_known hreach hl hat.list).2 r hat.mem
          cases hcall with
          | create _ _ _ hmode =>
            refine ⟨t, ?_⟩
            rw [← ht, ← Option.some.inj hlink, hmode]
            cases r.kind <;> rfl
    obtain ⟨t, ht⟩ := hexists
    obtain ⟨t', ht', -⟩ := hx.task_of_some ht
    exact ⟨t', ht'⟩
  · intro w w' m henv ih id s' task_id hs' hlink
    rw [World.task, env_tasks henv]
    rcases env_session henv hs' with ⟨s, hs, hmove⟩ | ⟨-, project, orchestrator, rfl⟩
    · exact ih id s task_id hs (hmove.link ▸ hlink)
    · cases hlink

/-! ## What programs in flight may still write -/

/-- A pass that has read the row may still write the subtask's status by id,
without a guard on the stored one. -/
def StatusWritable (c : SessionOrchestrationRow) (r : SessionOrchestrationTaskRow) : Prop :=
  (Reconciles c r ∧ (r.child_session_id ≠ none ∨ r.status = .ContinuationPending)) ∨
  (c.status = .Integrating ∧
    (r.status = .ReviewRequested ∨ r.status = .Merging ∨ r.status = .AwaitingIntegration)) ∨
  (c.status = .Canceling ∧ r.status.is_settled = false)

/-- A pass that has read the row may spawn the subtask, and record a failure by
id. -/
def SpawnWritable (c : SessionOrchestrationRow) (r : SessionOrchestrationTaskRow) : Prop :=
  c.status = .Running ∧ r.child_session_id = none ∧ (r.status = .Planned ∨ r.status = .Creating)

/-- A pass that has read the row may still overwrite the subtask. -/
def Writable (c : SessionOrchestrationRow) (r : SessionOrchestrationTaskRow) : Prop :=
  StatusWritable c r ∨ SpawnWritable c r

theorem TaskCall.statusWritable {c : SessionOrchestrationRow} {r : SessionOrchestrationTaskRow}
    (h : TaskCall c rows r l (.update_orchestration_task_status id status error)) :
    r.id = id ∧ StatusWritable c r := by
  cases h with
  | follow hc hchild _ _ => exact ⟨rfl, .inl ⟨hc, .inl hchild⟩⟩
  | lost hc hr _ => exact ⟨rfl, .inl ⟨hc, .inr hr⟩⟩
  | reported hc _ _ hchild _ => exact ⟨rfl, .inl ⟨hc, .inl (by rw [hchild]; simp)⟩⟩
  | canceled hc hr _ => exact ⟨rfl, .inr (.inr ⟨hc, hr⟩)⟩
  | integrate hc hs =>
    refine ⟨rfl, .inr (.inl ⟨hc, ?_⟩)⟩
    cases hs with
    | merged hr | closed hr => exact .inl hr
    | integrated hr _ => exact .inr (.inl hr)
    | merging hr _ => exact .inr (.inr hr)
    | settle hr _ _ => exact .inr hr

theorem TaskCall.spawnWritable {c : SessionOrchestrationRow} {r : SessionOrchestrationTaskRow}
    {error : String} {limit : Nat}
    (h : TaskCall c rows r l (.record_orchestration_spawn_failure id error limit)) :
    r.id = id ∧ SpawnWritable c r := by
  cases h with
  | recover_failed hc hr hchild _ => exact ⟨rfl, hc, hchild, .inr hr⟩
  | create_failed hc hr hchild | send_failed hc hr hchild => exact ⟨rfl, hc, hchild, hr⟩

theorem SpawnWritable.not_statusWritable {c : SessionOrchestrationRow}
    {r : SessionOrchestrationTaskRow} (h : SpawnWritable c r) : ¬ StatusWritable c r := by
  obtain ⟨hc, hchild, hr⟩ := h
  rintro (⟨-, h⟩ | ⟨h, -⟩ | ⟨h, -⟩)
  · rcases hr with hr | hr <;> simp [hchild, hr] at h
  · simp [hc] at h
  · simp [hc] at h

theorem TaskCall.status_ne {c : SessionOrchestrationRow} {r : SessionOrchestrationTaskRow}
    (h : TaskCall c rows r l (.update_orchestration_task_status id status error)) :
    status ≠ .Proposed ∧ status ≠ .Planned ∧ status ≠ .Creating := by
  cases h with
  | follow _ _ hs _ =>
    cases hs with
    | review _ hs _ => rcases hs with rfl | rfl <;> simp
    | @mapped child_status _ _ _ =>
      cases child_status <;> simp [OrchestrationTaskStatus.from_child_status]
  | lost | reported | canceled => simp
  | integrate _ hs =>
    cases hs with
    | settle _ _ hs => rcases hs with rfl | rfl <;> simp
    | _ => simp

/-- A status write of anybody is `Proposed` by a turn that has just upserted the
subtask, or another status than those before a spawn. -/
theorem Justified.proposes_or_ne
    (h : Justified a l (.update_orchestration_task_status id status error)) :
    (status = .Proposed ∧ ∃ sid task l', a = .controller sid ∧
      l = ⟨.upsert_orchestration_task task, .ok id⟩ :: l') ∨
    (status ≠ .Proposed ∧ status ≠ .Planned ∧ status ≠ .Creating) := by
  rcases h.of_task_status with
    ⟨-, c, rows, r, -, hcall⟩ | ⟨-, rfl, -⟩ | ⟨sid, task, l', ha, rfl, hl⟩
  · exact .inr hcall.status_ne
  · exact .inr (by simp)
  · exact .inl ⟨rfl, sid, task, l', ha, hl⟩

/-- A turn has upserted the subtask and is about to write `Proposed`. -/
def Pending (cfg : Configuration) (id : TaskId) : Prop :=
  ∃ sid task l, cfg.log (.controller sid) = some (⟨.upsert_orchestration_task task, .ok id⟩ :: l)

/-- The entry is an upsert that wrote the subtask. -/
def upserts (id : TaskId) : HostEntry → Bool
  | ⟨_, .upsert_orchestration_task _, .ok id', _⟩ => id' = id
  | _ => false

variable {e : HostEntry}

theorem upserts_eq_true (h : upserts id e = true) :
    ∃ task, e.event = ⟨.upsert_orchestration_task task, .ok id⟩ := by
  unfold upserts at h
  split at h
  · obtain rfl := of_decide_eq_true h
    exact ⟨_, rfl⟩
  · cases h

theorem upserts_eq_false (h : upserts id e = false) (task : PersistedOrchestrationTask) :
    e.event ≠ ⟨.upsert_orchestration_task task, .ok id⟩ := by
  intro he
  obtain ⟨a, c, r, w⟩ := e
  cases he
  simp [upserts] at h

theorem Pending.of_called {cfg' : Configuration} (h : Pending cfg' id)
    (hc : Called cfg cfg' a c r l)
    (hne : ∀ task, (⟨c, r⟩ : RunEvent) ≠ ⟨.upsert_orchestration_task task, .ok id⟩) :
    Pending cfg id := by
  obtain ⟨sid, task, l', hl⟩ := h
  rcases hc.log_cases hl with ⟨rfl, he⟩ | ⟨-, hl⟩
  · exact absurd (List.cons.inj he).1.symm (hne task)
  · exact ⟨sid, task, l', hl⟩

theorem Pending.of_quiet {cfg' : Configuration} {lab : HostLabel} (h : Pending cfg' id)
    (hq : Quiet cfg cfg' lab) : Pending cfg id := by
  obtain ⟨sid, task, l, hl⟩ := h
  rcases hq.logs _ _ hl with he | hl
  · cases he
  · exact ⟨sid, task, l, hl⟩

/-- The entry moves the subtask to `Proposed`. -/
def parks (id : TaskId) : HostEntry → Bool
  | ⟨_, .update_orchestration_task_status id' status _, .ok _, _⟩ => id' = id && status = .Proposed
  | _ => false

theorem parks_eq_true (h : parks id e = true) :
    ∃ error, e.event = ⟨.update_orchestration_task_status id .Proposed error, .ok ()⟩ := by
  unfold parks at h
  split at h
  · obtain ⟨hid, hs⟩ := Bool.and_eq_true_iff.mp h
    obtain rfl := of_decide_eq_true hid
    obtain rfl := of_decide_eq_true hs
    exact ⟨_, rfl⟩
  · cases h

/-- The row the coordinator works on was read by its newest call, or before. -/
theorem at_cons {reply : Except String (Reply call)} {c : SessionOrchestrationRow}
    {r : SessionOrchestrationTaskRow} (hJ : Justified .coordinator l call)
    (h : At (⟨call, reply⟩ :: l) c rows r) :
    (⟨call, reply⟩ : RunEvent) = ⟨.load_orchestration_tasks c.id, .ok rows⟩ ∨
      (RunEvent.list? ⟨call, reply⟩ = none ∧ At l c rows r) := by
  rcases snapshot_cons_eq_some h.list with he | ⟨hnone, hlist⟩
  · exact .inl he
  · refine .inr ⟨hnone, ?_, fun e' he' => h.isOpen e' (List.mem_cons_of_mem _ he'), hlist, h.mem⟩
    obtain ⟨cs, hmem, hc⟩ := h.loaded
    rcases List.mem_cons.mp hmem with he | hmem
    · cases he
      -- campaigns are loaded first, before any list
      cases hJ with
      | load_active => cases hlist
      | campaign _ h' =>
        cases h' with
        | task _ _ _ h' => cases h'
    · exact ⟨cs, hmem, hc⟩

/-- The row a pass works on after a call was read by that call, or was its row before. -/
theorem Called.at_cases {cfg' : Configuration} {reply : Except String (Reply call)} {l' : RunLog}
    {c : SessionOrchestrationRow} {r : SessionOrchestrationTaskRow}
    (hc : Called cfg cfg' a call reply l) (hl : cfg'.log .coordinator = some l')
    (h : At l' c rows r) :
    (a = .coordinator ∧ l' = ⟨call, reply⟩ :: l ∧
      (⟨call, reply⟩ : RunEvent) = ⟨.load_orchestration_tasks c.id, .ok rows⟩) ∨
    ∃ l₀, cfg.log .coordinator = some l₀ ∧ At l₀ c rows r := by
  rcases hc.log_cases hl with ⟨rfl, rfl⟩ | ⟨-, hl⟩
  · rcases at_cons hc.justified h with he | ⟨-, h⟩
    · exact .inl ⟨rfl, rfl, he⟩
    · exact .inr ⟨l, hc.log, h⟩
  · exact .inr ⟨l', hl, h⟩

theorem not_at_nil {c : SessionOrchestrationRow} {r : SessionOrchestrationTaskRow} :
    ¬ At [] c rows r := by
  intro h
  cases h.list

theorem Exec.row_of_load_tasks {w' : World} {r : SessionOrchestrationTaskRow}
    (h : Exec w (.load_orchestration_tasks cid) (.ok rows) w') (hr : r ∈ rows) :
    w' = w ∧ ∃ t, w.task r.id = some t ∧ t.session_orchestration_id = cid ∧
      r = task_row w r.id t := by
  obtain ⟨rfl, rfl⟩ := h.load_tasks
  exact ⟨rfl, mem_load_orchestration_tasks.mp hr⟩

end Agentty.Orchestration
