/-
Controller turns and user commands keep to the catalogues of `Turns`.

The programs of `Handler` are straight lines and loops around single calls, so a
lemma here says which calls may have been appended to the log and what that
leaves unchanged (`Adds`); the loops carry it along.
-/
import Agentty.Orchestration.Turns
import Agentty.Orchestration.CoordinatorPrograms

set_option autoImplicit false

namespace Agentty.Orchestration

open List

open Prog (Obeys Extends obeys_perform obeys_perform_last obeys_attempt obeys_traverse)

/-- The log `l'` goes on from `l` without another read, list or insert, and with
upserts of the given keys only. -/
structure Adds (keys : List String) (l l' : RunLog) : Prop where
  read : campaign_read l' = campaign_read l
  inserted : inserted l' = inserted l
  snapshot : snapshot l' = snapshot l
  mem : ∀ e ∈ l, e ∈ l'
  upserted : ∀ key, Upserted l' key → Upserted l key ∨ key ∈ keys

theorem Adds.refl (keys : List String) (l : RunLog) : Adds keys l l :=
  ⟨rfl, rfl, rfl, fun _ h => h, fun _ h => .inl h⟩

variable {keys : List String} {keys' : List String}

theorem Adds.trans {l₁ l₂ l₃ : RunLog} (h : Adds keys l₁ l₂) (h' : Adds keys' l₂ l₃) :
    Adds (keys ++ keys') l₁ l₃ := by
  refine ⟨h'.read.trans h.read, h'.inserted.trans h.inserted, h'.snapshot.trans h.snapshot,
    fun e he => h'.mem e (h.mem e he), fun key hkey => ?_⟩
  rcases h'.upserted key hkey with hkey | hkey
  · rcases h.upserted key hkey with hkey | hkey
    · exact .inl hkey
    · exact .inr (mem_append_left _ hkey)
  · exact .inr (mem_append_right _ hkey)

variable {l l' : RunLog}

theorem Adds.mono (h : Adds keys l l') (hk : ∀ key ∈ keys, key ∈ keys') : Adds keys' l l' :=
  ⟨h.read, h.inserted, h.snapshot, h.mem, fun key hkey => (h.upserted key hkey).imp_right (hk key)⟩

/-- Calls that neither read a campaign or a list, nor insert or upsert. -/
def Call.is_plain : Call → Bool
  | .load_orchestration_for_controller _ | .load_orchestration_tasks _ | .insert_orchestration ..
  | .upsert_orchestration_task _ => false
  | _ => true

variable {call : Call}

/-- A plain call adds nothing to a log that the catalogues look for. -/
theorem Adds.cons (h : Adds keys l l') (hplain : call.is_plain = true)
    (reply : Except String (Reply call)) : Adds keys l (⟨call, reply⟩ :: l') := by
  have hread : RunEvent.read? ⟨call, reply⟩ = none := by cases call <;> first | rfl | cases hplain
  have hins : RunEvent.inserted? ⟨call, reply⟩ = none := by
    cases call <;> first | rfl | cases hplain
  have hlist : RunEvent.list? ⟨call, reply⟩ = none := by cases call <;> first | rfl | cases hplain
  refine ⟨?_, ?_, ?_, fun e he => mem_cons_of_mem _ (h.mem e he), ?_⟩
  · rw [campaign_read_cons, hread]
    exact h.read
  · rw [inserted_cons, hins]
    exact h.inserted
  · rw [snapshot_cons, hlist]
    exact h.snapshot
  · rintro key ⟨task, id, hmem, hkey⟩
    rcases mem_cons.mp hmem with heq | hmem
    · obtain ⟨rfl, -⟩ := Sigma.mk.inj heq
      cases hplain
    · exact h.upserted key ⟨task, id, hmem, hkey⟩

theorem Adds.upsert (l : RunLog) (task : PersistedOrchestrationTask) (id : TaskId) :
    Adds [task.task_key] l (⟨.upsert_orchestration_task task, .ok id⟩ :: l) := by
  refine ⟨by simp [RunEvent.read?], by simp [RunEvent.inserted?], by simp [RunEvent.list?],
    fun e he => mem_cons_of_mem _ he, ?_⟩
  rintro key ⟨task', id', hmem, rfl⟩
  rcases mem_cons.mp hmem with heq | hmem
  · obtain ⟨hcall, -⟩ := Sigma.mk.inj heq
    obtain rfl := Call.upsert_orchestration_task.inj hcall
    exact .inr (mem_singleton_self _)
  · exact .inl ⟨task', id', hmem, rfl⟩

theorem Adds.not_upserted (h : Adds [] l l') (hl : ∀ key, ¬ Upserted l key) :
    ∀ key, ¬ Upserted l' key := by
  intro key hkey
  rcases h.upserted key hkey with h | h
  · exact hl key h
  · cases h

theorem not_upserted_cons (hl : ∀ key, ¬ Upserted l key)
    (hcall : ∀ task, call ≠ .upsert_orchestration_task task) (reply : Except String (Reply call)) :
    ∀ key, ¬ Upserted (⟨call, reply⟩ :: l) key := by
  rintro key ⟨task, id, hmem, hkey⟩
  rcases mem_cons.mp hmem with heq | hmem
  · exact hcall task (Sigma.mk.inj heq).1.symm
  · exact hl key ⟨task, id, hmem, hkey⟩

/-! ## Controller turns -/

section Turn

variable {sid : SessionId} {l : RunLog}

theorem load_max_parallelism_obeys :
    Obeys Valid (TurnCall sid) (fun l' max_parallelism => Adds [] l l' ∧ 1 ≤ max_parallelism)
      load_max_parallelism l := by
  refine obeys_attempt .parallelism (fun value _ => ?_) fun error => ?_
  · exact ⟨(Adds.refl [] l).cons rfl _, Int.le_max_left _ _⟩
  · exact ⟨(Adds.refl [] l).cons rfl _, Int.le_max_left _ _⟩

variable {subtasks : List SubtaskItem}

theorem should_auto_approve_research_obeys :
    Obeys Valid (TurnCall sid) (fun l' _ => Adds [] l l') (should_auto_approve_research subtasks)
      l := by
  unfold should_auto_approve_research
  split
  · refine obeys_attempt .auto_approve (fun value _ => ?_) fun error => ?_
    · exact (Adds.refl [] l).cons rfl _
    · exact (Adds.refl [] l).cons rfl _
  · exact Adds.refl [] l

variable {id : CampaignId} {subtask : SubtaskItem}

theorem persist_proposed_subtask_obeys {merge_position : Nat}
    (hJ : TurnCall sid l (.upsert_orchestration_task (persisted_task id merge_position subtask))) :
    Obeys Valid (TurnCall sid) (fun l' _ => Adds [subtask.task_key] l l')
      (persist_proposed_subtask id merge_position subtask) l := by
  refine obeys_perform hJ fun task_id _ => ?_
  refine obeys_perform_last .propose fun _ _ => ?_
  exact (Adds.upsert l (persisted_task id merge_position subtask) task_id).cons rfl _

variable {c : SessionOrchestrationRow}

theorem record_verdicts_obeys (hs : c.status = .Verifying) :
    ∀ (verdicts : List VerificationVerdictItem) (recorded : List String) (l : RunLog),
      campaign_read l = some c →
      Obeys Valid (TurnCall sid) (fun l' _ => Adds [] l l') (record_verdicts c.id recorded verdicts)
        l := by
  intro verdicts
  induction verdicts with
  | nil => exact fun _ l _ => Adds.refl [] l
  | cons verdict verdicts ih =>
    intro recorded l hc
    simp only [record_verdicts]
    split
    · exact ih recorded l hc
    refine obeys_perform (.verdict hc hs) fun was_recorded _ => ?_
    have hadd : Adds [] l (⟨.record_orchestration_verdict c.id (trimmed verdict.task_key)
        (verdict.verdict = .Pass) (trimmed verdict.reason), .ok was_recorded⟩ :: l) :=
      (Adds.refl [] l).cons rfl _
    split
    · trivial
    · refine (ih _ _ (hadd.read.trans hc)).post fun l' _ h => ?_
      exact (hadd.trans h).mono (by simp)

variable {response : AgentResponse}

theorem persist_controller_verdicts_obeys (hc : campaign_read l = some c) :
    Obeys Valid (TurnCall sid) (fun l' _ => Adds [] l l')
      (persist_controller_verdicts c response) l := by
  unfold persist_controller_verdicts
  split
  · exact Adds.refl [] l
  · rename_i hs
    exact record_verdicts_obeys (not_not.mp hs) _ _ l hc

/-! ### Follow-up work -/

/-- A turn that routes follow-up work of a campaign it has read. -/
structure Routes (c : SessionOrchestrationRow) (rows : List SessionOrchestrationTaskRow)
    (l : RunLog) : Prop where
  read : campaign_read l = some c
  routes : c.status.routes = true
  inserted : inserted l = none
  list : snapshot l = some (c.id, rows)

variable {rows : List SessionOrchestrationTaskRow}

theorem Routes.adds (h : Routes c rows l) (hadd : Adds keys l l') : Routes c rows l' :=
  ⟨hadd.read.trans h.read, h.routes, hadd.inserted.trans h.inserted, hadd.snapshot.trans h.list⟩

variable {r : SessionOrchestrationTaskRow}

theorem route_existing_subtask_obeys (hroutes : Routes c rows l)
    (hr : existing_by_key rows subtask.task_key = some r)
    (hvalid : existing_subtask_question rows subtask = none)
    (hfresh : ¬ Upserted l subtask.task_key) :
    Obeys Valid (TurnCall sid) (fun l' _ => Adds [subtask.task_key] l l')
      (route_existing_subtask c.id r subtask) l := by
  simp only [existing_subtask_question, hr] at hvalid
  split at hvalid
  · cases hvalid
  rename_i hkind
  rw [not_not] at hkind
  have hmem : r ∈ rows := mem_of_find?_eq_some hr
  have hkey : r.task_key = subtask.task_key := by simpa using find?_some hr
  unfold route_existing_subtask
  split
  · exact Adds.refl _ l
  rename_i hchanged
  have hcont : can_continue r.status = true := by
    by_contra hcont
    rw [if_neg hchanged, if_neg hcont] at hvalid
    cases hvalid
  split
  · rename_i hresearch
    refine (persist_proposed_subtask_obeys ?_).bind fun l' _ h => h
    exact .route_again hroutes.read hroutes.routes hroutes.inserted hroutes.list rfl hmem hkey
      (hkind.trans hresearch) hresearch hcont hfresh
  · rename_i himpl
    have hkind : r.kind = .Implementation := by
      cases h : r.kind
      · rfl
      · exact absurd (hkind.symm.trans h) himpl
    refine obeys_perform (.continue hroutes.read hroutes.routes hroutes.list hmem hkind hcont)
      fun queued _ => ?_
    have hadd : Adds [subtask.task_key] l (⟨.queue_orchestration_continuation r.id subtask.prompt
        subtask.acceptance_criteria (subtask_touched_areas subtask), .ok queued⟩ :: l) :=
      (Adds.refl _ l).cons rfl _
    split
    · exact hadd
    · exact hadd

/-- **The routing loop**: the keys still to come have not been upserted. -/
theorem route_subtasks_obeys {next_merge_position : Nat} :
    ∀ (subtasks : List SubtaskItem) (has_routed_work : Bool) (proposed_count : Nat) (l : RunLog),
      Routes c rows l → (∀ s ∈ subtasks, existing_subtask_question rows s = none) →
      (subtasks.map (·.task_key)).Nodup → (∀ s ∈ subtasks, ¬ Upserted l s.task_key) →
      Obeys Valid (TurnCall sid) (fun l' _ => Routes c rows l')
        (route_subtasks c.id rows next_merge_position has_routed_work proposed_count subtasks)
        l := by
  intro subtasks
  induction subtasks with
  | nil => exact fun _ _ l h _ _ _ => h
  | cons subtask subtasks ih =>
    intro has_routed_work proposed_count l hroutes hvalid hnd hfresh
    rw [map_cons, nodup_cons] at hnd
    -- routing this subtask does not touch the keys of the later ones
    have hrest : ∀ l', Adds [subtask.task_key] l l' →
        ∀ s ∈ subtasks, ¬ Upserted l' s.task_key := by
      intro l' hadd s hs hup
      rcases hadd.upserted _ hup with h | h
      · exact hfresh s (mem_cons_of_mem _ hs) h
      · rw [mem_singleton] at h
        exact hnd.1 (h ▸ mem_map_of_mem hs)
    have hvalid' : ∀ s ∈ subtasks, existing_subtask_question rows s = none :=
      fun s hs => hvalid s (mem_cons_of_mem _ hs)
    simp only [route_subtasks]
    split
    · rename_i r hr
      refine (route_existing_subtask_obeys hroutes hr (hvalid _ mem_cons_self)
        (hfresh _ mem_cons_self)).bind fun l' routed hadd => ?_
      split
      · exact hroutes.adds hadd
      · exact ih _ _ l' (hroutes.adds hadd) hvalid' hnd.2 (hrest l' hadd)
    · rename_i hnone
      have hnew : ∀ r ∈ rows, r.task_key ≠ subtask.task_key := by
        intro r hr
        simpa using find?_eq_none.mp hnone r hr
      refine (persist_proposed_subtask_obeys ?_).bind fun l' _ hadd => ?_
      · exact .route_new hroutes.read hroutes.routes hroutes.inserted hroutes.list rfl hnew
          (hfresh _ mem_cons_self)
      · exact ih _ _ l' (hroutes.adds hadd) hvalid' hnd.2 (hrest l' hadd)

variable {auto_approve_research : Bool}

theorem finish_routing_obeys {proposed_count : Nat} (hroutes : Routes c rows l) :
    Obeys Valid (TurnCall sid) (fun _ _ => True)
      (finish_routing c auto_approve_research proposed_count) l := by
  -- the campaign's status, then the approval of a research wave
  have hwrite : ∀ l', Routes c rows l' →
      Obeys Valid (TurnCall sid) (fun _ _ => True)
        ((perform (.update_orchestration_status c.id (if proposed_count = 0 then .Running
          else .AwaitingApproval))).bind fun _ =>
            if proposed_count > 0 ∧ auto_approve_research = true then
              (perform (.approve_orchestration_plan c.id)).bind fun _ => .ret ()
            else .ret ()) l' := by
    intro l' h
    refine obeys_perform (.route_status h.read h.routes ?_) fun _ _ => ?_
    · split
      · exact .inl rfl
      · exact .inr rfl
    · split
      · refine obeys_perform (.approve (.inr ⟨c, ?_, h.routes, rfl⟩)) fun _ _ => trivial
        exact (Adds.cons (Adds.refl [] l') rfl _).read.trans h.read
      · trivial
  unfold finish_routing
  simp only [Prog.bind_eq, Prog.pure_eq]
  split
  · rename_i hs
    refine obeys_perform (.reset hroutes.read hs) fun _ _ => hwrite _ ?_
    exact hroutes.adds (Adds.cons (Adds.refl [] l) rfl _)
  · exact hwrite l hroutes

theorem route_active_subtasks_obeys (hc : campaign_read l = some c) (hs : c.status.routes = true)
    (hin : inserted l = none) (hl : snapshot l = none) (hfirst : ∀ key, ¬ Upserted l key) :
    Obeys Valid (TurnCall sid) (fun _ _ => True) (route_active_subtasks c response) l := by
  refine obeys_perform (.list hc (.inl hs) hl hfirst hin) fun rows _ => ?_
  split
  · trivial
  rename_i hvalid
  -- what a passed validation says
  obtain ⟨hok, hall⟩ : validate_subtasks response.subtask_items true = .ok () ∧
      ∀ s ∈ response.subtask_items, existing_subtask_question rows s = none := by
    simp only [active_subtask_validation_question] at hvalid
    split at hvalid
    · cases hvalid
    · rename_i hok
      split at hvalid
      · cases hvalid
      · exact ⟨hok, findSome?_eq_none_iff.mp hvalid⟩
  refine should_auto_approve_research_obeys.bind fun l' auto hadd => ?_
  have hroutes : Routes c rows l' := by
    refine Routes.adds ⟨?_, hs, ?_, ?_⟩ hadd
    · simpa [RunEvent.read?] using hc
    · simpa [RunEvent.inserted?] using hin
    · simp [RunEvent.list?]
  have hfresh : ∀ s ∈ response.subtask_items, ¬ Upserted l' s.task_key := by
    intro s _ hup
    exact hadd.not_upserted (not_upserted_cons hfirst (fun _ => Call.noConfusion) _) _ hup
  refine (route_subtasks_obeys _ _ _ l' hroutes hall (validate_subtasks_nodup hok) hfresh).bind
    fun l'' routing hroutes => ?_
  split
  · trivial
  · trivial
  · exact (finish_routing_obeys hroutes).bind fun _ _ _ => trivial

/-! ### New plans -/

theorem Plans.adds (h : Plans l id) (hadd : Adds keys l l') : Plans l' id := by
  rw [Plans, hadd.read, hadd.inserted]
  exact h

/-- The writes of a plan, for a campaign whose upserts are justified once its
status is written. -/
theorem persist_plan_obeys {answer : String} (hid : Plans l id) (hfirst : ∀ key, ¬ Upserted l key)
    (hlisted : inserted l = none → snapshot l ≠ none) (hnd : (subtasks.map (·.task_key)).Nodup)
    (hup : ∀ s ∈ subtasks, ∀ keys l' merge_position, Adds keys l l' →
      (⟨.update_orchestration_status id .AwaitingApproval, .ok ()⟩ : RunEvent) ∈ l' →
      ¬ Upserted l' s.task_key →
      TurnCall sid l' (.upsert_orchestration_task (persisted_task id merge_position s))) :
    Obeys Valid (TurnCall sid) (fun _ _ => True)
      (persist_plan id answer subtasks auto_approve_research) l := by
  refine obeys_perform (.plan_status hid hfirst hlisted) fun _ _ => ?_
  have hadd₁ : Adds [] l
      (⟨.update_orchestration_status id .AwaitingApproval, .ok ()⟩ :: l) :=
    (Adds.refl [] l).cons rfl _
  refine load_max_parallelism_obeys.bind ?_
  rintro l₂ max_parallelism ⟨hmore, hmax⟩
  have hadd₂ : Adds [] l l₂ := (hadd₁.trans hmore).mono (by simp)
  refine obeys_perform (.plan (hid.adds hadd₂) hmax) fun _ _ => ?_
  have hadd₃ : Adds [] l (⟨.update_orchestration_plan id (bounded_goal answer) max_parallelism,
      .ok ()⟩ :: l₂) := hadd₂.cons rfl _
  have hloop := obeys_traverse (V := Valid) (J := TurnCall sid)
    (f := fun entry : SubtaskItem × Nat => persist_proposed_subtask id entry.2 entry.1)
    (fun l' _ rest => (∃ keys, Adds keys l l') ∧
      (⟨.update_orchestration_status id .AwaitingApproval, .ok ()⟩ : RunEvent) ∈ l' ∧
      (rest.map (·.1.task_key)).Nodup ∧ (∀ entry ∈ rest, entry.1 ∈ subtasks) ∧
      ∀ entry ∈ rest, ¬ Upserted l' entry.1.task_key) ?_
    subtasks.zipIdx (⟨.update_orchestration_plan id (bounded_goal answer) max_parallelism,
      .ok ()⟩ :: l₂) [] ?_
  · refine hloop.bind ?_
    rintro l' _ ⟨⟨keys, hadd⟩, -⟩
    split
    · exact obeys_perform (.approve (.inl (hid.adds hadd))) fun _ _ => trivial
    · trivial
  · rintro l' done ⟨subtask, merge_position⟩ rest ⟨⟨keys, hadd⟩, hopened, hnd, hmem, hfresh⟩
    rw [map_cons, nodup_cons] at hnd
    refine (persist_proposed_subtask_obeys (hup subtask (hmem _ mem_cons_self) keys l' _ hadd
      hopened (hfresh _ mem_cons_self))).post fun l'' _ hadd' => ?_
    refine ⟨⟨_, hadd.trans hadd'⟩, hadd'.mem _ hopened, hnd.2,
      fun entry h => hmem entry (mem_cons_of_mem _ h), fun entry h hkey => ?_⟩
    rcases hadd'.upserted _ hkey with hkey | hkey
    · exact hfresh entry (mem_cons_of_mem _ h) hkey
    · rw [mem_singleton] at hkey
      exact hnd.1 (hkey ▸ mem_map_of_mem h)
  · refine ⟨⟨[], hadd₃⟩, mem_cons_of_mem _ (hmore.mem _ mem_cons_self), ?_,
      fun entry h => ?_, fun entry h hkey => ?_⟩
    · have hkeys : subtasks.zipIdx.map (fun entry => entry.1.task_key)
          = subtasks.map (·.task_key) := by
        rw [← zipIdx_map_fst 0 subtasks, map_map, zipIdx_map_fst]
        rfl
      rw [hkeys]
      exact hnd
    · exact fst_mem_of_mem_zipIdx h
    · rcases hadd₃.upserted _ hkey with h | h
      · exact hfirst _ h
      · cases h

variable {existing : Option SessionOrchestrationRow}

/-- The campaign a retry reopens has been read as done, and every key of the
plan is a row of it that may be proposed again. -/
theorem reusable_retry_orchestration_id_obeys
    (hread : ∀ c, existing = some c → campaign_read l = some c) (hin : inserted l = none)
    (hl : snapshot l = none) (hfirst : ∀ key, ¬ Upserted l key) :
    Obeys Valid (TurnCall sid)
      (fun l' retry => campaign_read l' = campaign_read l ∧ inserted l' = none ∧
        (∀ key, ¬ Upserted l' key) ∧
        ∀ id, retry = some id → ∃ c rows, campaign_read l' = some c ∧ c.status = .Done ∧
          c.id = id ∧ snapshot l' = some (c.id, rows) ∧
          ∀ s ∈ subtasks, ∃ r ∈ rows, r.task_key = s.task_key ∧ is_retryable r = true)
      (reusable_retry_orchestration_id existing subtasks) l := by
  unfold reusable_retry_orchestration_id
  split
  · exact ⟨rfl, hin, hfirst, fun id h => by cases h⟩
  rename_i c hc
  obtain ⟨hex, hdone⟩ := Option.filter_eq_some_iff.mp hc
  have hdone : c.status = .Done := by simpa using hdone
  have hc : campaign_read l = some c := hread c hex
  refine obeys_perform (.list hc (.inr hdone) hl hfirst hin) fun rows _ => ?_
  refine ⟨by simp [RunEvent.read?], by simpa [RunEvent.inserted?] using hin,
    not_upserted_cons hfirst (fun _ => Call.noConfusion) _, ?_⟩
  · intro id hid
    split at hid
    · rename_i hretry
      cases hid
      refine ⟨c, rows, by simpa [RunEvent.read?] using hc, hdone, rfl,
        by simp [RunEvent.list?], fun s hs => ?_⟩
      have hkey := all_eq_true.mp (Bool.and_eq_true_iff.mp hretry).2 s hs
      obtain ⟨r, hr, hkey⟩ := mem_map.mp (contains_iff_mem.mp hkey)
      obtain ⟨hr, hretry⟩ := mem_filter.mp hr
      exact ⟨r, hr, hkey, hretry⟩
    · cases hid

theorem plan_orchestration_id_obeys (hin : inserted l = none) (hfirst : ∀ key, ¬ Upserted l key)
    (hroutes : ∀ c, campaign_read l = some c → c.status.routes = false) :
    Obeys Valid (TurnCall sid) (fun l' id => inserted l' = some id ∧ ∀ key, ¬ Upserted l' key)
      (plan_orchestration_id sid none) l := by
  refine load_max_parallelism_obeys.bind ?_
  rintro l' max_parallelism ⟨hadd, hmax⟩
  have hfirst' : ∀ key, ¬ Upserted l' key := hadd.not_upserted hfirst
  refine obeys_perform_last (.insert (hadd.inserted.trans hin) hmax hfirst' fun c hc => ?_)
    fun id _ => ⟨by simp [RunEvent.inserted?], ?_⟩
  · exact hroutes c (by rw [← hadd.read]; exact hc)
  · exact not_upserted_cons hfirst' (fun _ => Call.noConfusion) _

/-- A turn that proposes a new plan; `existing` is the campaign it has read, or
nothing when it has just superseded one. -/
theorem propose_plan_obeys (hread : ∀ c, existing = some c → campaign_read l = some c)
    (hroutes : ∀ c, campaign_read l = some c → c.status.routes = false) (hin : inserted l = none)
    (hl : snapshot l = none) (hfirst : ∀ key, ¬ Upserted l key) :
    Obeys Valid (TurnCall sid) (fun _ _ => True) (propose_plan sid existing response) l := by
  unfold propose_plan
  split
  · trivial
  refine should_auto_approve_research_obeys.bind fun l₁ auto hadd₁ => ?_
  have hfirst₁ : ∀ key, ¬ Upserted l₁ key := hadd₁.not_upserted hfirst
  refine (reusable_retry_orchestration_id_obeys (fun c hc => hadd₁.read.trans (hread c hc))
    (hadd₁.inserted.trans hin) (hadd₁.snapshot.trans hl) hfirst₁).bind ?_
  rintro l₂ retry ⟨hread₂, hin₂, hfirst₂, hretry⟩
  split
  · trivial
  rename_i hok
  have hnd := validate_subtasks_nodup hok
  cases retry with
  | some id =>
    obtain ⟨c, rows, hc, hdone, rfl, hlist, hkeys⟩ := hretry id rfl
    refine (persist_plan_obeys (.inr ⟨hin₂, c, hc, hdone, rfl⟩) hfirst₂
      (fun _ h => by rw [hlist] at h; cases h) hnd ?_).bind
      fun _ _ _ => trivial
    intro s hs keys l' merge_position hadd hopened hfresh
    obtain ⟨r, hr, hkey, hretry⟩ := hkeys s hs
    exact .plan_retry (hadd.read.trans hc) hdone (hadd.inserted.trans hin₂)
      (hadd.snapshot.trans hlist) rfl hr hkey hretry hopened hfresh
  | none =>
    refine (plan_orchestration_id_obeys hin₂ hfirst₂ fun c hc => ?_).bind ?_
    · exact hroutes c (by rw [← hadd₁.read, ← hread₂]; exact hc)
    · rintro l₄ id ⟨hin₄, hfirst₄⟩
      refine (persist_plan_obeys (.inl hin₄) hfirst₄ (fun h => by rw [hin₄] at h; cases h) hnd
        ?_).bind fun _ _ _ => trivial
      intro s hs keys l' merge_position hadd hopened hfresh
      exact .plan_new (hadd.inserted.trans hin₄) rfl hfresh

/-- What is left of an active campaign that the turn does not handle. -/
theorem handle_active_controller_plan_obeys (hc : campaign_read l = some c)
    (hin : inserted l = none) (hl : snapshot l = none) (hfirst : ∀ key, ¬ Upserted l key) :
    Obeys Valid (TurnCall sid)
      (fun l' result => result.1 = false → c.status = .AwaitingApproval ∧ Adds [] l l')
      (handle_active_controller_plan c response) l := by
  unfold handle_active_controller_plan
  simp only [Prog.bind_eq, Prog.pure_eq]
  split
  · rename_i hfollow
    have hroutes : c.status.routes = true := (Bool.and_eq_true_iff.mp hfollow).1
    refine (route_active_subtasks_obeys hc hroutes hin hl hfirst).bind fun _ _ _ h => ?_
    cases h
  · split
    · rename_i hs
      refine obeys_perform (.supersede hc hs.1 hin) fun _ _ _ => ⟨hs.1, ?_⟩
      exact (Adds.refl [] l).cons rfl _
    · exact fun h => by cases h

/-- **A controller turn** keeps to the catalogue. -/
theorem persist_controller_plan_obeys :
    Obeys Valid (TurnCall sid) (fun _ _ => True) (persist_controller_plan sid response) [] := by
  refine obeys_perform .load_session fun session _ => ?_
  split
  · trivial
  refine obeys_perform .load_campaign fun existing hvalid => ?_
  have hread : campaign_read (⟨.load_orchestration_for_controller sid, .ok existing⟩ ::
      [⟨.load_session sid, .ok session⟩]) = existing := by
    cases existing <;> rfl
  have hfirst : ∀ key, ¬ Upserted (⟨.load_orchestration_for_controller sid, .ok existing⟩ ::
      [⟨.load_session sid, .ok session⟩]) key := by
    rintro key ⟨task, id, hmem, -⟩
    simp at hmem
  split
  · rename_i c hc
    obtain ⟨hex, hactive⟩ := Option.filter_eq_some_iff.mp hc
    refine (persist_controller_verdicts_obeys (hread.trans hex)).bind fun l₁ _ hadd₁ => ?_
    have hc₁ : campaign_read l₁ = some c := (hadd₁.read.trans hread).trans hex
    have hfirst₁ : ∀ key, ¬ Upserted l₁ key := hadd₁.not_upserted hfirst
    refine (handle_active_controller_plan_obeys hc₁ hadd₁.inserted hadd₁.snapshot hfirst₁).bind
      fun l₂ result h => ?_
    dsimp only at h ⊢
    split
    · trivial
    rename_i hresult
    obtain ⟨hs, hadd₂⟩ := h (Bool.not_eq_true _ ▸ hresult)
    refine propose_plan_obeys (fun c h => by cases h) (fun c' h => ?_)
      (hadd₂.inserted.trans hadd₁.inserted) (hadd₂.snapshot.trans hadd₁.snapshot)
      (hadd₂.not_upserted hfirst₁)
    rw [hadd₂.read, hc₁] at h
    rw [← Option.some.inj h, hs]
    rfl
  · rename_i hnone
    refine propose_plan_obeys (fun c hc => hread.trans hc) (fun c hc => ?_) rfl rfl hfirst
    -- an inactive campaign routes nothing
    rw [hread] at hc
    subst hc
    have hinactive : ¬ c.status.is_active = true := by simpa using hnone
    cases h : c.status <;> first | rfl | exact absurd (by rw [h]; rfl) hinactive

end Turn

/-! ## The user -/

section User

variable {l : RunLog}

variable {sid : SessionId}

theorem approve_orchestration_obeys {approach : Option IntegrationApproach} :
    Obeys Valid UserCall (fun _ _ => True) (approve_orchestration sid approach) [] := by
  refine obeys_perform (.load_campaign rfl rfl fun id h => by cases h) fun orchestration _ => ?_
  cases orchestration with
  | none => trivial
  | some c =>
    dsimp only
    have hread : campaign_read [⟨.load_orchestration_for_controller sid, .ok (some c)⟩]
        = some c := rfl
    split
    · rename_i hs
      exact obeys_perform (.approve_plan hread hs) fun _ _ => trivial
    · rename_i hs
      refine obeys_perform (.list hread rfl) fun tasks _ => ?_
      split
      · trivial
      rename_i hblocks
      split
      · trivial
      · refine obeys_perform (.approve_integration hread hs rfl fun r hr => ?_)
          fun _ _ => trivial
        rw [Bool.not_eq_true, any_eq_false] at hblocks
        exact Bool.not_eq_true _ ▸ hblocks r hr
    · trivial

/-- The list a cancellation works from. -/
structure Cascade (c : SessionOrchestrationRow) (rows : List SessionOrchestrationTaskRow)
    (l : RunLog) : Prop where
  read : campaign_read l = some c
  began : Began l c.id
  list : snapshot l = some (c.id, rows)

variable {c : SessionOrchestrationRow} {rows : List SessionOrchestrationTaskRow}

theorem Cascade.cons (h : Cascade c rows l) (hplain : call.is_plain = true)
    (reply : Except String (Reply call)) : Cascade c rows (⟨call, reply⟩ :: l) := by
  have hadd : Adds [] l (⟨call, reply⟩ :: l) := (Adds.refl [] l).cons hplain reply
  exact ⟨hadd.read.trans h.read, hadd.mem _ h.began, hadd.snapshot.trans h.list⟩

/-- One unsettled row of a cancellation: its child is stopped, then it is
written as canceled. -/
theorem cancel_api_task_obeys {r : SessionOrchestrationTaskRow} (h : Cascade c rows l)
    (hr : r ∈ rows) (hs : r.status.is_settled = false) :
    Obeys Valid UserCall
      (fun l' _ => Cascade c rows l' ∧ belief l' r.id = some .Canceled ∧
        ∀ id, id ≠ r.id → belief l' id = belief l id)
      (cancel_api_task r) l := by
  -- the write, once the child is known to have stopped
  have hwrite : ∀ l', Cascade c rows l' → Stopped r l' →
      (∀ id, id ≠ r.id → belief l' id = belief l id) →
      Obeys Valid UserCall
        (fun l' _ => Cascade c rows l' ∧ belief l' r.id = some .Canceled ∧
          ∀ id, id ≠ r.id → belief l' id = belief l id)
        (perform (.update_orchestration_task_status r.id .Canceled none)) l' := by
    intro l' h' hstop hb
    refine obeys_perform_last (.canceled ⟨h'.read, h'.began, h'.list, hr, hs⟩ hstop) fun _ _ => ?_
    refine ⟨h'.cons rfl _, by simp [belief, RunEvent.tells], fun id hid => ?_⟩
    have hne : ¬ r.id = id := fun h => hid h.symm
    rw [← hb id hid]
    simp [belief, RunEvent.tells, hne]
  -- a child that may still run is canceled first
  have hcancel : ∀ l' child, Cascade c rows l' → FoundChild r l' child →
      (∀ id, id ≠ r.id → belief l' id = belief l id) →
      Obeys Valid UserCall
        (fun l' _ => Cascade c rows l' ∧ belief l' r.id = some .Canceled ∧
          ∀ id, id ≠ r.id → belief l' id = belief l id)
        (if (!child_session_is_stopped r.child_status) = true then
          (perform (.cancel_session child)).bind fun _ =>
            perform (.update_orchestration_task_status r.id .Canceled none)
        else perform (.update_orchestration_task_status r.id .Canceled none)) l' := by
    intro l' child h' hfound hb
    split
    · refine obeys_perform (.cancel_child ⟨h'.read, h'.began, h'.list, hr, hs⟩ hfound)
        fun _ _ => ?_
      exact hwrite _ (h'.cons rfl _) (.canceled hfound) hb
    · rename_i hstopped
      exact hwrite l' h' (.already (by simpa using hstopped)) hb
  unfold cancel_api_task known_child
  split
  · rename_i hsome
    obtain ⟨child, hchild⟩ := Option.isSome_iff_exists.mp hsome
    simp only [Prog.bind_eq, Prog.pure_eq, Prog.ret_bind, hchild]
    exact hcancel l child h (.inl hchild) fun _ _ => rfl
  · rename_i hnone
    have hchild : r.child_session_id = none := by simpa using hnone
    refine obeys_perform (.cancel_lookup ⟨h.read, h.began, h.list, hr, hs⟩ hchild)
      fun found _ => ?_
    cases found with
    | none => exact hwrite _ (h.cons rfl _) (.absent hchild) fun _ _ => rfl
    | some child => exact hcancel _ child (h.cons rfl _) (.inr ⟨hchild, l, rfl⟩) fun _ _ => rfl

/-- The loop of a cancellation leaves no row that is believed unsettled. -/
theorem cancel_loop_obeys (h : Cascade c rows l) (ht : ∀ r ∈ rows, Tracks l r) :
    Obeys Valid UserCall
      (fun l' _ => Cascade c rows l' ∧ ∀ r ∈ rows, (believed l' r).status.is_settled = true)
      (Prog.traverse cancel_api_task (rows.filter fun r => !r.status.is_settled)) l := by
  have hloop := obeys_traverse (V := Valid) (J := UserCall) (f := cancel_api_task)
    (fun l' _ rest => Cascade c rows l' ∧ (∀ r ∈ rest, r ∈ rows ∧ r.status.is_settled = false) ∧
      ∀ r ∈ rows, r ∈ rest ∨ (believed l' r).status.is_settled = true) ?_
    (rows.filter fun r => !r.status.is_settled) l [] ⟨h, fun r hr => ?_, fun r hr => ?_⟩
  · refine hloop.post ?_
    rintro l' _ ⟨h', -, hall⟩
    exact ⟨h', fun r hr => (hall r hr).resolve_left not_mem_nil⟩
  · rintro l' done r rest ⟨h', hrest, hall⟩
    obtain ⟨hr, hs⟩ := hrest r mem_cons_self
    refine (cancel_api_task_obeys h' hr hs).post ?_
    rintro l'' _ ⟨h'', hcanceled, hb⟩
    refine ⟨h'', fun r' hr' => hrest r' (mem_cons_of_mem _ hr'), fun r' hr' => ?_⟩
    by_cases hid : r'.id = r.id
    · right
      rw [believed, hid, hcanceled]
      rfl
    · rcases hall r' hr' with hmem | hsettled
      · rcases mem_cons.mp hmem with heq | hmem
        · exact absurd (congrArg _ heq) hid
        · exact .inl hmem
      · right
        rw [believed, hb _ hid]
        exact hsettled
  · obtain ⟨hmem, hs⟩ := mem_filter.mp hr
    exact ⟨hmem, by simpa using hs⟩
  · by_cases hs : r.status.is_settled = true
    · right
      rw [believed, show belief l r.id = some r.status from ht r hr]
      exact hs
    · exact .inl (mem_filter.mpr ⟨hr, by simpa using hs⟩)

theorem cancel_api_orchestration_obeys (hc : campaign_read l = none) (hl : snapshot l = none)
    (hb : ∀ id, ¬ Began l id) :
    Obeys Valid UserCall (fun _ _ => True) (cancel_api_orchestration sid) l := by
  refine obeys_perform (.load_campaign hc hl hb) fun orchestration _ => ?_
  cases orchestration with
  | none => trivial
  | some c =>
    refine obeys_perform (.begin rfl ?_) fun started _ => ?_
    · simpa [RunEvent.list?] using hl
    · cases started with
      | false => trivial
      | true =>
        refine obeys_perform (.list rfl ?_) fun rows hrows => ?_
        · simpa [RunEvent.list?] using hl
        · refine (cancel_loop_obeys ⟨rfl, ?_, rfl⟩ (tracks_of_list hrows.1)).bind ?_
          · exact mem_cons_of_mem _ mem_cons_self
          · rintro l' _ ⟨h, hall⟩
            exact obeys_perform_last (.cancel h.read h.began h.list hall) fun _ _ => trivial

theorem cancel_api_session_obeys :
    Obeys Valid UserCall (fun _ _ => True) (cancel_api_session sid) [] := by
  refine obeys_perform .load_session fun session _ => ?_
  cases session with
  | none => trivial
  | some session =>
    dsimp only
    split
    · trivial
    rename_i hmanaged
    have hrole : session.role.is_managed = false := Bool.not_eq_true _ ▸ hmanaged
    split
    · refine ((cancel_api_orchestration_obeys rfl rfl fun id h => ?_).strengthen
        (fun _ _ _ hJ => hJ) fun l' _ hext _ => hext.mem mem_cons_self).bind
        fun l' _ hload => ?_
      · simp [Began] at h
      · exact obeys_perform_last (.cancel_selected hload hrole) fun _ _ => trivial
    · exact obeys_perform_last (.cancel_selected mem_cons_self hrole) fun _ _ => trivial

/-- The relay a controller's answers go to was read for its campaign. -/
theorem orchestration_question_target_obeys (hc : campaign_read l = none) (hl : snapshot l = none)
    (hb : ∀ id, ¬ Began l id) :
    Obeys Valid UserCall
      (fun l' target => ∀ id child, target = some (id, child) →
        ∃ c, campaign_read l' = some c ∧ c.id = id)
      (orchestration_question_target sid) l := by
  refine obeys_perform (.load_campaign hc hl hb) fun orchestration _ => ?_
  cases orchestration with
  | none => exact fun _ _ h => by cases h
  | some c =>
    dsimp only
    split
    · exact fun _ _ h => by cases h
    refine obeys_perform (.list rfl ?_) fun tasks _ => ?_
    · simpa [RunEvent.list?] using hl
    · split
      · intro id child h
        obtain ⟨rfl, -⟩ := Prod.mk.inj (Option.some.inj h)
        exact ⟨c, rfl, rfl⟩
      · trivial

variable {answers : List QuestionAnswer}

theorem deliver_answers_obeys {relay : Option (CampaignId × SessionId)}
    (hrelay : ∀ id child, relay = some (id, child) → ∃ c, campaign_read l = some c ∧ c.id = id) :
    Obeys Valid UserCall (fun _ _ => True) (deliver_answers sid answers relay) l := by
  refine obeys_perform .load_session fun row _ => ?_
  cases row with
  | none => trivial
  | some row =>
    dsimp only
    split
    · trivial
    refine obeys_perform .questions fun _ _ => ?_
    refine obeys_perform .reply fun accepted _ => ?_
    cases accepted with
    | false => exact obeys_perform .questions fun _ _ => trivial
    | true =>
      rcases relay with _ | ⟨id, child⟩
      · trivial
      · obtain ⟨c, hc, rfl⟩ := hrelay id child rfl
        exact obeys_perform_last (.clear hc) fun _ _ => trivial

theorem answer_api_questions_obeys :
    Obeys Valid UserCall (fun _ _ => True) (answer_api_questions sid answers) [] := by
  refine obeys_perform .load_session fun session _ => ?_
  cases session with
  | none => trivial
  | some =>
    dsimp only
    split
    · trivial
    split
    · refine (orchestration_question_target_obeys rfl rfl fun id h => ?_).bind
        fun l' relay h => deliver_answers_obeys h
      simp [Began] at h
    · exact deliver_answers_obeys fun _ _ h => by cases h

end User

end Agentty.Orchestration
