/-
What one executed call can do to one row.

Each table has a catalogue of moves: `TaskMove`, `CampaignMove` and
`SessionMove` list every way a call changes a row, with the guard under which
the repository function does it and the row it leaves. The inversion theorems
say that the catalogues are complete, so a proof about runs looks at the moves
and never at the repository functions again.
-/
import Agentty.Orchestration.Host

set_option autoImplicit false

namespace Agentty.Orchestration

/-- A call takes a state to another one with this answer. -/
def Exec (w : World) (c : Call) (r : Except String (Reply c)) (w' : World) : Prop :=
  ∃ x, exec w x c = (w', r)

variable {w : World} {c : Call}

theorem Exec.cases {w' : World} {r : Except String (Reply c)} (h : Exec w c r w') :
    (w' = w ∧ ∃ e, r = .error e) ∨ ∃ x, serve w x c = (w', r) := by
  obtain ⟨x, hx⟩ := h
  unfold exec at hx
  split at hx
  · cases hx
    exact .inl ⟨rfl, _, rfl⟩
  · exact .inr ⟨x, hx⟩

theorem Exec.served {w' : World} {a : Reply c} (h : Exec w c (.ok a) w') :
    ∃ x, serve w x c = (w', .ok a) := by
  rcases h.cases with ⟨-, e, he⟩ | hserved
  · cases he
  · exact hserved

/-! ## Subtasks -/

/-- **How a call changes a subtask row.** -/
inductive TaskMove (w : World) (id : TaskId) (t : Task) :
    (c : Call) → Except String (Reply c) → Task → Prop where
  | keep {c : Call} {r : Except String (Reply c)} : TaskMove w id t c r t
  | approved (hc : w.campaign_status t.session_orchestration_id = some .AwaitingApproval)
      (hs : t.status = .Proposed) :
      TaskMove w id t (.approve_orchestration_plan t.session_orchestration_id) (.ok true)
        { t with status := .Planned }
  | admitted (hc : w.campaign_status t.session_orchestration_id = some .Verifying)
      (hs : t.status = .Ready) (hv : t.verification_verdict = some .Pass) :
      TaskMove w id t (.complete_orchestration_rollup t.session_orchestration_id) (.ok true)
        { t with status := .AwaitingIntegration }
  | claimed (hc : w.campaign_status t.session_orchestration_id = some .Running)
      (hs : t.status = .Planned) :
      TaskMove w id t (.claim_orchestration_task id) (.ok true)
        { t with status := .Creating, last_error := none }
  | linked {child : SessionId}
      (hc : w.campaign_status t.session_orchestration_id = some .Running)
      (hs : t.status = .Creating) :
      TaskMove w id t (.link_orchestration_task_child id child) (.ok true)
        { t with
          child_session_id := some child, status := .Running,
          attempt_count := t.attempt_count + 1 }
  | review_claimed {prompt : ContinuationPrompt} {limit : Nat} (hs : t.status = .Reviewing)
      (hchild : t.child_session_id.isSome = true) :
      TaskMove w id t (.claim_orchestration_review_application id prompt limit) (.ok true)
        { t with
          continuation_generation := t.continuation_generation + 1,
          continuation_prompt := some prompt, review_iteration := t.review_iteration + 1,
          status := .ReviewApplying }
  | continued {prompt : String} {criteria areas : List String}
      (hs : t.status = .Ready ∨ t.status = .AwaitingIntegration ∨ t.status = .IntegrationFailed)
      (hchild : t.child_session_id.isSome = true) :
      TaskMove w id t (.queue_orchestration_continuation id prompt criteria areas) (.ok true)
        { t with
          acceptance_criteria := criteria, area_violations := [], areas_compliant := none,
          continuation_generation := t.continuation_generation + 1,
          continuation_prompt := some (.feedback prompt), review_iteration := 0,
          status := .ContinuationPending, touched_areas := areas, result_summary := none,
          verification_verdict := none, verification_reason := none, last_error := none }
  | judged {is_pass : Bool} {reason : String} {recorded : Bool}
      (hc : w.campaign_status t.session_orchestration_id = some .Verifying)
      (hs : t.status = .Ready ∨ t.status = .Reported) :
      TaskMove w id t
        (.record_orchestration_verdict t.session_orchestration_id t.task_key is_pass reason)
        (.ok recorded)
        { t with
          verification_reason := some reason,
          verification_verdict := some (if is_pass then .Pass else .Flag) }
  | reset (hs : t.status = .AwaitingIntegration) :
      TaskMove w id t (.reset_orchestration_verification t.session_orchestration_id) (.ok ())
        { t with status := .Ready, verification_reason := none, verification_verdict := none }
  | spawn_failed {error : String} {limit : Nat} {status : OrchestrationTaskStatus}
      (hs : status = .Planned ∨ status = .Failed) :
      TaskMove w id t (.record_orchestration_spawn_failure id error limit) (.ok status)
        { t with
          child_session_id := none,
          infrastructure_retry_count := t.infrastructure_retry_count + 1,
          status, last_error := some error }
  | detached {child : SessionId} {s : Session} (hs : w.session child = some s)
      (hlink : s.orchestration_task_id = some id) (hrole : s.role = .OrchestrationWorker) :
      TaskMove w id t (.detach_orchestration_child child) (.ok true)
        { t with child_session_id := none, status := .Detached }
  | written {status : OrchestrationTaskStatus} {error : Option String} :
      TaskMove w id t (.update_orchestration_task_status id status error) (.ok ())
        { t with status, last_error := error }
  | summarized {text : String} :
      TaskMove w id t (.update_orchestration_task_result_summary id text) (.ok ())
        { t with result_summary := some text }
  | reported {text : String} (hkind : t.kind = .Research) :
      TaskMove w id t (.update_orchestration_task_research_report id text) (.ok ())
        { t with research_report := some text }
  | upserted {task : PersistedOrchestrationTask}
      (hid : task.session_orchestration_id = t.session_orchestration_id)
      (hkey : task.task_key = t.task_key) :
      TaskMove w id t (.upsert_orchestration_task task) (.ok id) (task.overwrite t)

def Call.writes_tasks : Call → Bool
  | .upsert_orchestration_task _ | .approve_orchestration_plan _
  | .complete_orchestration_rollup _ | .claim_orchestration_task _
  | .link_orchestration_task_child .. | .claim_orchestration_review_application ..
  | .queue_orchestration_continuation .. | .record_orchestration_verdict ..
  | .reset_orchestration_verification _ | .record_orchestration_spawn_failure ..
  | .detach_orchestration_child _ | .update_orchestration_task_status ..
  | .update_orchestration_task_result_summary .. | .update_orchestration_task_research_report .. =>
    true
  | _ => false

theorem serve_tasks (hc : c.writes_tasks = false) (w : World) (x : Choice) :
    (serve w x c).1.tasks = w.tasks := by
  cases c <;> first | rfl | cases hc
  -- the calls whose effect depends on the state
  all_goals
    simp only [serve, insert_orchestration, complete_orchestration_campaign,
      surface_orchestration_questions, clear_orchestration_questions, create_session,
      submit_coordinator_message, claim_session_operation, cancel_session, answered]
    repeat' split
  all_goals rfl

/-- The row `upsert_orchestration_task` inserts for a new key. -/
inductive TaskBorn (w : World) (id : TaskId) :
    (c : Call) → Except String (Reply c) → Task → Prop where
  | fresh {task : PersistedOrchestrationTask} (hnone : w.task id = none)
      (hkey : ∀ id' t, w.task id' = some t →
        t.session_orchestration_id = task.session_orchestration_id → t.task_key ≠ task.task_key)
      (hcampaign : (w.campaign task.session_orchestration_id).isSome = true) :
      TaskBorn w id (.upsert_orchestration_task task) (.ok id) task.fresh

variable {id : TaskId} {cid : CampaignId} {task_key : String}

theorem find_task_eq_some (h : find_task w cid task_key = some id) :
    ∃ t, w.task id = some t ∧ t.session_orchestration_id = cid ∧ t.task_key = task_key := by
  obtain ⟨⟨id', t⟩, hfind, rfl⟩ := Option.map_eq_some_iff.mp h
  have hp := List.find?_some hfind
  simp only [Bool.and_eq_true, decide_eq_true_eq] at hp
  exact ⟨t, Table.get?_eq_some_iff.mpr (List.mem_of_find?_eq_some hfind), hp.1, hp.2⟩

section TaskInversion

variable {w w' : World} {x : Choice} {id : TaskId} {t' : Task}

variable {p : Task → Bool} {f : Task → Task}

theorem task_of_update {id' : TaskId} {r : Except String (Reply c)}
    (h : (w.tasks.update id' p f).get? id = some t')
    (hmove : ∀ t, w.task id' = some t → p t = true → TaskMove w id' t c r (f t)) :
    ∃ t, w.task id = some t ∧ TaskMove w id t c r t' := by
  obtain ⟨t, ht, ⟨rfl, hp, rfl⟩ | ⟨-, rfl⟩⟩ := Table.exists_of_get?_update h
  · exact ⟨t, ht, hmove t ht hp⟩
  · exact ⟨_, ht, .keep⟩

theorem task_of_updateAll {q : TaskId → Task → Bool} {r : Except String (Reply c)}
    (h : (w.tasks.updateAll q f).get? id = some t')
    (hmove : ∀ t, q id t = true → TaskMove w id t c r (f t)) :
    ∃ t, w.task id = some t ∧ TaskMove w id t c r t' := by
  obtain ⟨t, ht, ⟨hp, rfl⟩ | ⟨-, rfl⟩⟩ := Table.exists_of_get?_updateAll h
  · exact ⟨t, ht, hmove t hp⟩
  · exact ⟨_, ht, .keep⟩

variable {reply : Bool → Except String (Reply c)} {moved : Bool}

/-- The moves of a guarded `UPDATE` that answers whether it wrote. -/
theorem task_of_update_task {id' : TaskId} (hx : update_task w id' p f = (w', moved))
    (h : w'.task id = some t')
    (hmove : ∀ t, p t = true → TaskMove w id' t c (reply true) (f t)) :
    ∃ t, w.task id = some t ∧ TaskMove w id t c (reply moved) t' := by
  cases hx
  refine task_of_update h fun t ht hp => ?_
  rw [Table.affects_iff.mpr ⟨t, ht, hp⟩]
  exact hmove t hp

theorem task_of_transition {tr : OrchestrationTransition}
    (hx : transition_orchestration_and_tasks w cid tr = (w', moved)) (h : w'.task id = some t') :
    ∃ t, w.task id = some t ∧
      (t' = t ∨ (moved = true ∧ w.campaign_status cid = some tr.from_orchestration_status ∧
        t.session_orchestration_id = cid ∧ t.status = tr.from_task_status ∧
        (tr.require_pass_verdict = true → t.verification_verdict = some .Pass) ∧
        t' = { t with status := tr.to_task_status })) := by
  simp only [transition_orchestration_and_tasks] at hx
  split at hx
  · rename_i haff
    cases hx
    obtain ⟨c, hc, hstatus⟩ := Table.affects_iff.mp haff
    simp only [decide_eq_true_eq] at hstatus
    obtain ⟨t, ht, ⟨hp, rfl⟩ | ⟨-, rfl⟩⟩ := Table.exists_of_get?_updateAll h
    · simp only [Bool.and_eq_true, decide_eq_true_eq, Bool.or_eq_true, Bool.not_eq_true'] at hp
      obtain ⟨⟨hcid, hs⟩, hv⟩ := hp
      refine ⟨t, ht, .inr ⟨rfl, ?_, hcid, hs, fun hreq => ?_, rfl⟩⟩
      · exact Option.map_eq_some_iff.mpr ⟨c, hc, hstatus⟩
      · rcases hv with hv | hv
        · rw [hreq] at hv
          cases hv
        · exact hv
    · exact ⟨_, ht, .inl rfl⟩
  · cases hx
    exact ⟨t', h, .inl rfl⟩

@[simp] theorem clear_child_review_tasks (w : World) (id : TaskId) :
    (clear_child_review w id).tasks = w.tasks := rfl

@[simp] theorem unlink_sessions_tasks (w : World) (id : TaskId) :
    (unlink_sessions w id).tasks = w.tasks := rfl

theorem task_of_upsert {task : PersistedOrchestrationTask} {r : Except String TaskId}
    (hx : upsert_orchestration_task w task = (w', r)) (h : w'.task id = some t') :
    (∃ t, w.task id = some t ∧ TaskMove w id t (.upsert_orchestration_task task) r t') ∨
      TaskBorn w id (.upsert_orchestration_task task) r t' := by
  unfold upsert_orchestration_task at hx
  split at hx
  · cases hx
    exact .inl ⟨t', h, .keep⟩
  rename_i hcampaign
  split at hx
  · rename_i id₀ hfind
    cases hx
    obtain ⟨t₀, ht₀, hcid, hkey⟩ := find_task_eq_some hfind
    refine .inl (task_of_update h fun t ht _ => ?_)
    cases ht.symm.trans ht₀
    exact .upserted hcid.symm hkey.symm
  · rename_i hfind
    cases hx
    simp only [World.task, unlink_sessions_tasks, Table.get?_push] at h
    split at h
    · rename_i hid
      cases h
      subst hid
      refine .inr (.fresh (Table.get?_nextId _) (fun id' t ht hcid => ?_) ?_)
      · intro hkey
        have hnone := List.find?_eq_none.mp (Option.map_eq_none_iff.mp hfind) _
          (Table.get?_eq_some_iff.mp ht)
        simp [hcid, hkey] at hnone
      · cases hc : w.campaign task.session_orchestration_id <;> simp [hc] at hcampaign ⊢
    · exact .inl ⟨t', h, .keep⟩

theorem task_of_detach {child : SessionId} {detached : Bool}
    (hx : detach_orchestration_child w child = (w', detached)) (h : w'.task id = some t') :
    ∃ t, w.task id = some t ∧
      TaskMove w id t (.detach_orchestration_child child) (.ok detached) t' := by
  unfold detach_orchestration_child at hx
  -- the one branch that writes, and those that do not
  split at hx
  · rename_i s hs
    split at hx
    · rename_i id₀ hlink
      split at hx
      · rename_i hrole
        cases hx
        exact task_of_update h fun t _ _ => .detached hs hlink hrole
      · cases hx
        exact ⟨t', h, .keep⟩
    · cases hx
      exact ⟨t', h, .keep⟩
  · cases hx
    exact ⟨t', h, .keep⟩

variable {id₀ : TaskId}

theorem task_of_spawn_failure {error : String} {limit : Nat}
    {r : Except String OrchestrationTaskStatus}
    (hx : record_orchestration_spawn_failure w id₀ error limit = (w', r))
    (h : w'.task id = some t') :
    ∃ t, w.task id = some t ∧
      TaskMove w id t (.record_orchestration_spawn_failure id₀ error limit) r t' := by
  unfold record_orchestration_spawn_failure at hx
  split at hx
  · cases hx
    exact ⟨t', h, .keep⟩
  cases hx
  refine task_of_update h fun t _ _ => .spawn_failed ?_
  split
  · exact .inl rfl
  · exact .inr rfl

/-- The moves of a review or continuation claim, which also clears the child's
review. -/
theorem task_of_claim
    (hx : (if (update_task w id₀ p f).2 then
      (clear_child_review (update_task w id₀ p f).1 id₀, true) else (w, false)) = (w', moved))
    (h : w'.task id = some t')
    (hmove : ∀ t, p t = true → TaskMove w id₀ t c (reply true) (f t)) :
    ∃ t, w.task id = some t ∧ TaskMove w id t c (reply moved) t' := by
  split at hx
  · cases hx
    exact task_of_update h fun t _ => hmove t
  · cases hx
    exact ⟨t', h, .keep⟩

theorem answered_eq {α : Type} {result : World × α} {r : Except String α}
    (h : answered result = (w', r)) : ∃ a, result = (w', a) ∧ r = .ok a := by
  cases h
  exact ⟨result.2, rfl, rfl⟩

/-- **Every subtask row after a call comes from a move or an insert.** -/
theorem task_of_serve {r : Except String (Reply c)} (hx : serve w x c = (w', r))
    (h : w'.task id = some t') :
    (∃ t, w.task id = some t ∧ TaskMove w id t c r t') ∨ TaskBorn w id c r t' := by
  by_cases hc : c.writes_tasks = true
  · cases c <;> simp only [Call.writes_tasks, Bool.false_eq_true] at hc
    case upsert_orchestration_task task => exact task_of_upsert hx h
    case approve_orchestration_plan cid =>
      obtain ⟨moved, hs', rfl⟩ := answered_eq hx
      obtain ⟨t, ht, rfl | ⟨rfl, hcs, rfl, hs, -, rfl⟩⟩ := task_of_transition hs' h
      · exact .inl ⟨_, ht, .keep⟩
      · exact .inl ⟨t, ht, .approved hcs hs⟩
    case complete_orchestration_rollup cid =>
      obtain ⟨moved, hs', rfl⟩ := answered_eq hx
      obtain ⟨t, ht, rfl | ⟨rfl, hcs, rfl, hs, hv, rfl⟩⟩ := task_of_transition hs' h
      · exact .inl ⟨_, ht, .keep⟩
      · exact .inl ⟨t, ht, .admitted hcs hs (hv rfl)⟩
    case claim_orchestration_task id₀ =>
      obtain ⟨moved, hs', rfl⟩ := answered_eq hx
      refine .inl (task_of_update_task hs' h fun t hp => ?_)
      simp only [Bool.and_eq_true, decide_eq_true_eq, is_running] at hp
      exact .claimed hp.2 hp.1
    case link_orchestration_task_child id₀ child =>
      obtain ⟨moved, hs', rfl⟩ := answered_eq hx
      refine .inl (task_of_update_task hs' h fun t hp => ?_)
      simp only [Bool.and_eq_true, decide_eq_true_eq, is_running] at hp
      exact .linked hp.2 hp.1
    case claim_orchestration_review_application id₀ prompt limit =>
      obtain ⟨moved, hs', rfl⟩ := answered_eq hx
      refine .inl (task_of_claim hs' h fun t hp => ?_)
      simp only [Bool.and_eq_true, decide_eq_true_eq] at hp
      exact .review_claimed hp.1.1 hp.2
    case queue_orchestration_continuation id₀ prompt criteria areas =>
      obtain ⟨moved, hs', rfl⟩ := answered_eq hx
      refine .inl (task_of_claim hs' h fun t hp => ?_)
      simp only [Bool.and_eq_true, decide_eq_true_eq, Bool.or_eq_true, or_assoc] at hp
      exact .continued hp.2 hp.1
    case record_orchestration_verdict cid key is_pass reason =>
      obtain ⟨recorded, hs', rfl⟩ := answered_eq hx
      cases hs'
      refine .inl (task_of_updateAll h fun t hp => ?_)
      simp only [Bool.and_eq_true, decide_eq_true_eq, Bool.or_eq_true] at hp
      obtain ⟨⟨⟨rfl, rfl⟩, hs⟩, hcs⟩ := hp
      exact .judged hcs hs
    case reset_orchestration_verification cid =>
      cases hx
      refine .inl (task_of_updateAll h fun t hp => ?_)
      simp only [Bool.and_eq_true, decide_eq_true_eq] at hp
      obtain ⟨rfl, hs⟩ := hp
      exact .reset hs
    case record_orchestration_spawn_failure id₀ error limit =>
      exact .inl (task_of_spawn_failure hx h)
    case detach_orchestration_child child =>
      obtain ⟨detached, hs', rfl⟩ := answered_eq hx
      exact .inl (task_of_detach hs' h)
    case update_orchestration_task_status id₀ status error =>
      cases hx
      exact .inl (task_of_update h fun _ _ _ => .written)
    case update_orchestration_task_result_summary id₀ text =>
      cases hx
      exact .inl (task_of_update h fun _ _ _ => .summarized)
    case update_orchestration_task_research_report id₀ text =>
      cases hx
      exact .inl (task_of_update h fun _ _ hp => .reported (by simpa using hp))
  · have htasks : w'.tasks = w.tasks := by
      rw [← serve_tasks (Bool.not_eq_true _ ▸ hc) w x, hx]
    rw [World.task, htasks] at h
    exact .inl ⟨t', h, .keep⟩

/-- No row was deleted between two states. -/
structure Grows (w w' : World) : Prop where
  tasks : w.tasks.Grows w'.tasks
  campaigns : w.campaigns.Grows w'.campaigns
  sessions : w.sessions.Grows w'.sessions

theorem Grows.refl (w : World) : Grows w w := ⟨.refl _, .refl _, .refl _⟩

theorem grows_of_claim :
    Grows w (if (update_task w id₀ p f).2 then
      (clear_child_review (update_task w id₀ p f).1 id₀, true) else (w, false)).1 := by
  split
  · exact ⟨Table.grows_update _ _ _ _, .refl _, Table.grows_updateAll _ _ _⟩
  · exact Grows.refl w

theorem serve_grows (w : World) (x : Choice) (c : Call) : Grows w (serve w x c).1 := by
  cases c
  case claim_orchestration_review_application => exact grows_of_claim
  case queue_orchestration_continuation => exact grows_of_claim
  all_goals
    simp only [serve, insert_orchestration, upsert_orchestration_task, answered,
      approve_orchestration_plan, complete_orchestration_rollup,
      transition_orchestration_and_tasks, begin_orchestration_cancellation,
      update_orchestration_status, update_orchestration_plan, complete_orchestration_campaign,
      reset_orchestration_verification, record_orchestration_spawn_failure,
      detach_orchestration_child, update_orchestration_task_status,
      surface_orchestration_questions, clear_orchestration_questions, create_session,
      submit_coordinator_message, claim_session_operation, cancel_session]
    repeat' split
  all_goals constructor
  all_goals first
    | exact Table.Grows.refl _
    | exact Table.grows_push _ _
    | exact Table.grows_update _ _ _ _
    | exact Table.grows_updateAll _ _ _
    | exact Table.grows_insert _ _ _ (by assumption)

end TaskInversion

variable {w' : World} {c : Call} {r : Except String (Reply c)}

theorem Exec.task (h : Exec w c r w') {t' : Task} (ht' : w'.task id = some t') :
    (∃ t, w.task id = some t ∧ TaskMove w id t c r t') ∨ TaskBorn w id c r t' := by
  rcases h.cases with ⟨rfl, e, rfl⟩ | ⟨x, hx⟩
  · exact .inl ⟨t', ht', .keep⟩
  · exact task_of_serve hx ht'

theorem Exec.grows (h : Exec w c r w') : Grows w w' := by
  rcases h.cases with ⟨rfl, -⟩ | ⟨x, hx⟩
  · exact Grows.refl w'
  · have := serve_grows w x c
    rwa [hx] at this

/-- A subtask row goes on as one of the moves says. -/
theorem Exec.task_of_some (h : Exec w c r w') {t : Task} (ht : w.task id = some t) :
    ∃ t', w'.task id = some t' ∧ TaskMove w id t c r t' := by
  obtain ⟨t', ht'⟩ := h.grows.tasks id t ht
  rcases h.task ht' with ⟨t₀, ht₀, hmove⟩ | hborn
  · cases ht.symm.trans ht₀
    exact ⟨t', ht', hmove⟩
  · cases hborn with
    | fresh hnone _ _ => rw [hnone] at ht; cases ht

/-! ## Campaigns -/

/-- **How a call changes a campaign row.** -/
inductive CampaignMove (w : World) (id : CampaignId) (k : Campaign) :
    (c : Call) → Except String (Reply c) → Campaign → Prop where
  | keep {c : Call} {r : Except String (Reply c)} : CampaignMove w id k c r k
  | approved (hs : k.status = .AwaitingApproval) :
      CampaignMove w id k (.approve_orchestration_plan id) (.ok true)
        { k with status := .Running }
  | rolled_up (hs : k.status = .Verifying) :
      CampaignMove w id k (.complete_orchestration_rollup id) (.ok true)
        { k with status := .AwaitingIntegration }
  | began (hs : k.status.is_active = true) :
      CampaignMove w id k (.begin_orchestration_cancellation id) (.ok true)
        { k with status := .Canceling }
  | rollup_claimed (hs : k.status = .Running) :
      CampaignMove w id k (.claim_orchestration_rollup id) (.ok true)
        { k with
          status := .Verifying, verification_generation := k.verification_generation + 1 }
  | integrating {approach : IntegrationApproach} (hs : k.status = .AwaitingIntegration) :
      CampaignMove w id k (.approve_orchestration_integration id approach) (.ok true)
        { k with integration_approach := approach, status := .Integrating }
  | written {status : OrchestrationStatus} :
      CampaignMove w id k (.update_orchestration_status id status) (.ok ()) { k with status }
  | completed (hs : k.status = .AwaitingIntegration ∨ k.status = .Integrating) :
      CampaignMove w id k (.complete_orchestration_campaign id) (.ok true)
        { k with status := .Done }
  | planned {goal_statement : String} {max_parallelism : Int} (hs : k.status = .AwaitingApproval) :
      CampaignMove w id k (.update_orchestration_plan id goal_statement max_parallelism) (.ok ())
        { k with goal_statement, max_parallelism }
  | surfaced {task_id : TaskId} {questions : List QuestionItem} {t : Task} {s : Session}
      (hfree : k.relayed_question_task_id = none) (ht : w.task task_id = some t)
      (hid : t.session_orchestration_id = id) (hwaits : t.status = .WaitingForInput)
      (hchild : t.child_session_id.isSome = true) (hs : w.session k.controller_session_id = some s)
      (hrole : s.role = .Orchestrator) (hq : s.questions = none) :
      CampaignMove w id k (.surface_orchestration_questions id task_id questions) (.ok true)
        { k with relayed_question_task_id := some task_id }
  | cleared (hr : k.relayed_question_task_id.isSome = true) :
      CampaignMove w id k (.clear_orchestration_questions id) (.ok ())
        { k with relayed_question_task_id := none }

/-- The row `insert_orchestration` inserts. -/
inductive CampaignBorn (w : World) (id : CampaignId) :
    (c : Call) → Except String (Reply c) → Campaign → Prop where
  | fresh {controller_session_id : SessionId} {status : OrchestrationStatus}
      {max_parallelism : Int} (hnone : w.campaign id = none)
      (hcontroller : (w.session controller_session_id).isSome = true) :
      CampaignBorn w id (.insert_orchestration controller_session_id status max_parallelism)
        (.ok id)
        { controller_session_id, goal_statement := "", integration_approach := .LocalMerge,
          max_parallelism, relayed_question_task_id := none, status,
          verification_generation := 0 }

def Call.writes_campaigns : Call → Bool
  | .insert_orchestration .. | .approve_orchestration_plan _ | .complete_orchestration_rollup _
  | .begin_orchestration_cancellation _ | .claim_orchestration_rollup _
  | .approve_orchestration_integration .. | .update_orchestration_status ..
  | .complete_orchestration_campaign _ | .update_orchestration_plan ..
  | .surface_orchestration_questions .. | .clear_orchestration_questions _ => true
  | _ => false

theorem serve_campaigns (hc : c.writes_campaigns = false) (w : World) (x : Choice) :
    (serve w x c).1.campaigns = w.campaigns := by
  cases c <;> first | rfl | cases hc
  -- the calls whose effect depends on the state
  all_goals
    simp only [serve, upsert_orchestration_task, unlink_sessions,
      record_orchestration_spawn_failure, detach_orchestration_child, create_session,
      submit_coordinator_message, claim_session_operation, cancel_session, answered,
      claim_orchestration_review_application, queue_orchestration_continuation]
    repeat' split
  all_goals rfl

section CampaignInversion

variable {w w' : World} {x : Choice} {id : CampaignId} {k' : Campaign}

variable {id₀ : CampaignId}

section Update

variable {p : Campaign → Bool} {f : Campaign → Campaign}

theorem campaign_of_update (h : (w.campaigns.update id₀ p f).get? id = some k')
    (hmove : ∀ k, w.campaign id₀ = some k → p k = true → CampaignMove w id₀ k c r (f k)) :
    ∃ k, w.campaign id = some k ∧ CampaignMove w id k c r k' := by
  obtain ⟨k, hk, ⟨rfl, hp, rfl⟩ | ⟨-, rfl⟩⟩ := Table.exists_of_get?_update h
  · exact ⟨k, hk, hmove k hk hp⟩
  · exact ⟨_, hk, .keep⟩

variable {reply : Bool → Except String (Reply c)} {moved : Bool}

theorem campaign_of_update_campaign (hx : update_campaign w id₀ p f = (w', moved))
    (h : w'.campaign id = some k')
    (hmove : ∀ k, p k = true → CampaignMove w id₀ k c (reply true) (f k)) :
    ∃ k, w.campaign id = some k ∧ CampaignMove w id k c (reply moved) k' := by
  cases hx
  refine campaign_of_update h fun k hk hp => ?_
  rw [Table.affects_iff.mpr ⟨k, hk, hp⟩]
  exact hmove k hp

theorem campaign_of_transition {tr : OrchestrationTransition}
    (hx : transition_orchestration_and_tasks w id₀ tr = (w', moved))
    (h : w'.campaign id = some k')
    (hmove : ∀ k, k.status = tr.from_orchestration_status →
      CampaignMove w id₀ k c (reply true) { k with status := tr.to_orchestration_status }) :
    ∃ k, w.campaign id = some k ∧ CampaignMove w id k c (reply moved) k' := by
  simp only [transition_orchestration_and_tasks] at hx
  split at hx
  · cases hx
    exact campaign_of_update h fun k _ hp => hmove k (by simpa using hp)
  · cases hx
    exact ⟨k', h, .keep⟩

end Update

theorem campaign_of_complete {completed : Bool}
    (hx : complete_orchestration_campaign w id₀ = (w', completed)) (h : w'.campaign id = some k') :
    ∃ k, w.campaign id = some k ∧
      CampaignMove w id k (.complete_orchestration_campaign id₀) (.ok completed) k' := by
  simp only [complete_orchestration_campaign] at hx
  split at hx
  · split at hx
    · cases hx
      exact campaign_of_update h fun k _ hp => .completed (by simpa using hp)
    · cases hx
      exact ⟨k', h, .keep⟩
  · cases hx
    exact ⟨k', h, .keep⟩

theorem campaign_of_surface {task_id : TaskId} {questions : List QuestionItem} {surfaced : Bool}
    (hx : surface_orchestration_questions w id₀ task_id questions = (w', surfaced))
    (h : w'.campaign id = some k') :
    ∃ k, w.campaign id = some k ∧
      CampaignMove w id k (.surface_orchestration_questions id₀ task_id questions) (.ok surfaced)
        k' := by
  simp only [surface_orchestration_questions] at hx
  split at hx
  · split at hx
    · cases hx
      refine campaign_of_update h fun k _ hp => ?_
      simp only [Bool.and_eq_true, Option.isNone_iff_eq_none, Option.any_eq_true,
        decide_eq_true_eq] at hp
      obtain ⟨⟨hfree, t, ht, ⟨hid, hwaits⟩, hchild⟩, s, hs, ⟨hrole, -⟩, hq⟩ := hp
      exact .surfaced hfree ht hid hwaits hchild hs hrole hq
    · cases hx
      exact ⟨k', h, .keep⟩
  · cases hx
    exact ⟨k', h, .keep⟩

theorem campaign_of_clear (h : (clear_orchestration_questions w id₀).campaign id = some k') :
    ∃ k, w.campaign id = some k ∧
      CampaignMove w id k (.clear_orchestration_questions id₀) (.ok ()) k' := by
  unfold clear_orchestration_questions at h
  split at h
  · split at h
    · exact campaign_of_update h fun k _ hp => .cleared hp
    · exact ⟨k', h, .keep⟩
  · exact ⟨k', h, .keep⟩

/-- **Every campaign row after a call comes from a move or an insert.** -/
theorem campaign_of_serve (hx : serve w x c = (w', r)) (h : w'.campaign id = some k') :
    (∃ k, w.campaign id = some k ∧ CampaignMove w id k c r k') ∨ CampaignBorn w id c r k' := by
  by_cases hc : c.writes_campaigns = true
  · cases c <;> simp only [Call.writes_campaigns, Bool.false_eq_true] at hc
    case insert_orchestration controller status max =>
      simp only [serve, insert_orchestration] at hx
      split at hx
      · cases hx
        exact .inl ⟨k', h, .keep⟩
      rename_i hcontroller
      cases hx
      simp only [World.campaign, Table.get?_push] at h
      split at h
      · rename_i hid
        cases h
        subst hid
        refine .inr (.fresh (Table.get?_nextId _) ?_)
        cases hs : w.session controller <;> simp [hs] at hcontroller ⊢
      · exact .inl ⟨k', h, .keep⟩
    case approve_orchestration_plan id₀ =>
      obtain ⟨moved, hs', rfl⟩ := answered_eq hx
      exact .inl (campaign_of_transition hs' h fun _ => .approved)
    case complete_orchestration_rollup id₀ =>
      obtain ⟨moved, hs', rfl⟩ := answered_eq hx
      exact .inl (campaign_of_transition hs' h fun _ => .rolled_up)
    case begin_orchestration_cancellation id₀ =>
      obtain ⟨moved, hs', rfl⟩ := answered_eq hx
      exact .inl (campaign_of_update_campaign hs' h fun _ => .began)
    case claim_orchestration_rollup id₀ =>
      obtain ⟨moved, hs', rfl⟩ := answered_eq hx
      exact .inl (campaign_of_update_campaign hs' h fun _ hs =>
        .rollup_claimed (by simpa using hs))
    case approve_orchestration_integration id₀ approach =>
      obtain ⟨moved, hs', rfl⟩ := answered_eq hx
      exact .inl (campaign_of_update_campaign hs' h fun _ hs => .integrating (by simpa using hs))
    case update_orchestration_status id₀ status =>
      cases hx
      exact .inl (campaign_of_update h fun _ _ _ => .written)
    case complete_orchestration_campaign id₀ =>
      obtain ⟨completed, hs', rfl⟩ := answered_eq hx
      exact .inl (campaign_of_complete hs' h)
    case update_orchestration_plan id₀ goal max =>
      cases hx
      exact .inl (campaign_of_update h fun _ _ hp => .planned (by simpa using hp))
    case surface_orchestration_questions id₀ task_id questions =>
      obtain ⟨surfaced, hs', rfl⟩ := answered_eq hx
      exact .inl (campaign_of_surface hs' h)
    case clear_orchestration_questions id₀ =>
      cases hx
      exact .inl (campaign_of_clear h)
  · have hcampaigns : w'.campaigns = w.campaigns := by
      rw [← serve_campaigns (Bool.not_eq_true _ ▸ hc) w x, hx]
    rw [World.campaign, hcampaigns] at h
    exact .inl ⟨k', h, .keep⟩

end CampaignInversion

theorem Exec.campaign (h : Exec w c r w') {id : CampaignId} {k' : Campaign}
    (hk' : w'.campaign id = some k') :
    (∃ k, w.campaign id = some k ∧ CampaignMove w id k c r k') ∨ CampaignBorn w id c r k' := by
  rcases h.cases with ⟨rfl, e, rfl⟩ | ⟨x, hx⟩
  · exact .inl ⟨k', hk', .keep⟩
  · exact campaign_of_serve hx hk'

theorem Exec.campaign_of_some (h : Exec w c r w') {id : CampaignId} {k : Campaign}
    (hk : w.campaign id = some k) :
    ∃ k', w'.campaign id = some k' ∧ CampaignMove w id k c r k' := by
  obtain ⟨k', hk'⟩ := h.grows.campaigns id k hk
  rcases h.campaign hk' with ⟨k₀, hk₀, hmove⟩ | hborn
  · cases hk.symm.trans hk₀
    exact ⟨k', hk', hmove⟩
  · cases hborn with
    | fresh hnone _ => rw [hnone] at hk; cases hk

end Agentty.Orchestration
