/-
Who changes a base checkout, and who waits to.

At most one job runs for a project, as long as the app does not lose sight of the session
whose merge task runs (`InSight`): the active merge is forgotten when a batch is handled while
its session is not loaded, or when the session leaves `Merging` before its task ends. A queued
session is an entry of the queue, and the queue waits for something, as long as every entry is
seen as `Queued` when the queue is served (`Shown`): an entry whose session is not loaded is
dropped and keeps its status. Switching the project breaks both.
-/
import Mathlib.Data.List.Nodup
import Agentty.Session.MergeQueue

set_option autoImplicit false

namespace Agentty.Session.Checkout

open List

open Orchestration (SessionStatus)

variable {Pr Si : Type}

/-! ## What the calls change -/

section Calls

variable [DecidableEq Si]

/-- The active merge is forgotten exactly when the next one may start. -/
theorem MergeQueue.progress_cases (queue : MergeQueue Si) (current : Option SessionStatus)
    (session_ids : List Si) (previous : Si → Option SessionStatus) :
    queue.progress_from_status_updates current session_ids previous = (queue, .NoAction) ∨
      queue.progress_from_status_updates current session_ids previous =
        ({ queue with active_session_id := none }, .StartNext) := by
  unfold progress_from_status_updates
  cases queue.active_session_id with
  | none => exact .inl rfl
  | some active =>
    dsimp only
    split
    · split
      · exact .inr rfl
      · exact .inl rfl
    split
    · split
      · exact .inr rfl
      · exact .inl rfl
    split
    · exact .inl rfl
    · exact .inr rfl

namespace App

theorem apply_status_eq (app : App Pr Si) (session_id : Si) (status : SessionStatus) :
    app.apply_status session_id status =
      { app with handles := (app.apply_status session_id status).handles } := by
  unfold apply_status
  split <;> rfl

variable {session_id : Si}

theorem apply_status_handles_of_ne (app : App Pr Si) {other : Si} (status : SessionStatus)
    (h : other ≠ session_id) :
    (app.apply_status session_id status).handles other = app.handles other := by
  unfold apply_status
  split
  · exact Function.update_of_ne h _ _
  · rfl

variable {app : App Pr Si}

theorem apply_status_ne_queued {status : SessionStatus} (hstatus : status ≠ .Queued)
    (h : app.handles session_id ≠ .Queued) :
    (app.apply_status session_id status).handles session_id ≠ .Queued := by
  unfold apply_status
  split
  · simpa using hstatus
  · exact h

variable {gates : Gates Si} {app' : App Pr Si}

/-- A merge that starts sets the status of a loaded session and adds its task. -/
theorem start_merge_started (h : start_merge gates app session_id = (app', true)) :
    (app.sessions session_id).isSome ∧
      app' = { app with
        handles := Function.update app.handles session_id .Merging
        jobs := .merge session_id :: app.jobs } := by
  unfold start_merge at h
  split at h
  · simp at h
  rename_i status hstatus
  split at h
  · next hgates =>
    have htransition : (app.handles session_id).can_transition_to .Merging = true := by
      simp only [Bool.and_eq_true] at hgates
      exact hgates.2
    simp only [apply_status, htransition, if_true] at h
    split at h
    · refine ⟨by rw [hstatus]; rfl, ?_⟩
      exact (Prod.mk.inj h).1.symm
    · simp at h
  · simp at h

/-- A merge that does not start changes at most the status of the session. -/
theorem start_merge_failed (h : start_merge gates app session_id = (app', false)) :
    app' = { app with handles := app'.handles } ∧
      (∀ other, other ≠ session_id → app'.handles other = app.handles other) ∧
      (app.handles session_id ≠ .Queued → app'.handles session_id ≠ .Queued) := by
  unfold start_merge at h
  split at h
  · obtain rfl := (Prod.mk.inj h).1
    exact ⟨rfl, fun _ _ => rfl, id⟩
  split at h
  · split at h
    · simp at h
    · obtain rfl := (Prod.mk.inj h).1
      refine ⟨?_, ?_, ?_⟩
      · rw [apply_status_eq, apply_status_eq app]
      · intro other hother
        rw [apply_status_handles_of_ne _ _ hother, apply_status_handles_of_ne _ _ hother]
      · intro hqueued
        exact apply_status_ne_queued (by decide)
          (apply_status_ne_queued (by decide) hqueued)
  · obtain rfl := (Prod.mk.inj h).1
    exact ⟨rfl, fun _ _ => rfl, id⟩

theorem restore_spec (app : App Pr Si) (session_id : Si) :
    app.restore_queued_session_to_review session_id =
        { app with handles := (app.restore_queued_session_to_review session_id).handles } ∧
      ∀ other, other ≠ session_id →
        (app.restore_queued_session_to_review session_id).handles other = app.handles other := by
  unfold restore_queued_session_to_review
  split
  · exact ⟨apply_status_eq app session_id .Review, fun _ => apply_status_handles_of_ne app .Review⟩
  · exact ⟨rfl, fun _ _ => rfl⟩

theorem restore_ne_queued
    (h : app.handles session_id = .Queued → app.sessions session_id = some .Queued) :
    (app.restore_queued_session_to_review session_id).handles session_id ≠ .Queued := by
  unfold restore_queued_session_to_review
  by_cases hqueued : app.handles session_id = .Queued
  · have hreview : SessionStatus.Queued.can_transition_to .Review = true := by decide
    rw [if_pos (h hqueued), apply_status, hqueued, if_pos hreview]
    simp
  · split
    · exact apply_status_ne_queued (by decide) hqueued
    · exact hqueued

/-- One turn of the loop that fails: the popped entry is gone, and at most its status has
changed. -/
theorem start_queued_failed (stop : Bool) {next : Si} {rest : List Si} {failed : App Pr Si}
    (h : start_merge gates { app with
      merge_queue := { app.merge_queue with queued_session_ids := rest } } next = (failed, false)) :
    ∃ handles : Si → SessionStatus,
      (∀ other, other ≠ next → handles other = app.handles other) ∧
      ((app.handles next = .Queued → app.sessions next = some .Queued) →
        handles next ≠ .Queued) ∧
      start_queued gates stop (next :: rest) app =
        let restored := { app with
          merge_queue := { app.merge_queue with queued_session_ids := rest }
          handles }
        if stop then restored else start_queued gates stop rest restored := by
  obtain ⟨hfailed, hothers, hself⟩ := start_merge_failed h
  have hsessions : failed.sessions = app.sessions := by
    rw [hfailed]
  refine ⟨(failed.restore_queued_session_to_review next).handles, ?_, ?_, ?_⟩
  · intro other hother
    rw [(restore_spec failed next).2 other hother]
    exact hothers other hother
  · intro hshown
    apply restore_ne_queued
    intro hqueued
    rw [hsessions]
    apply hshown
    -- a merge that does not start does not queue the session
    by_contra hne
    exact hself hne hqueued
  · have hrestored : failed.restore_queued_session_to_review next =
        { app with
          merge_queue := { app.merge_queue with queued_session_ids := rest }
          handles := (failed.restore_queued_session_to_review next).handles } := by
      rw [(restore_spec failed next).1, hfailed]
    simp only [start_queued, h]
    rw [← hrestored]

end App

end Calls

/-! ## One job for a project -/

/-- What the app knows of the running jobs, beside that they are apart. -/
structure Exclusive (project : Si → Pr) (app : App Pr Si) : Prop where
  loaded : ∀ session_id, (app.sessions session_id).isSome →
    project session_id = app.active_project_id
  merging : ∀ session_id, .merge session_id ∈ app.jobs →
    app.merge_queue.active_session_id = some session_id ∧ app.handles session_id = .Merging
  syncing : ∀ operation, .sync operation ∈ app.jobs → app.project_sync_status = some operation
  apart : app.jobs.Pairwise fun a b => a.project_id project ≠ b.project_id project
  /-- The requests are told apart by their number. -/
  issued : ∀ operation, operation ∈ app.sync_completions ∨
    operation ∈ app.pending_project_sync_requests ∨ .sync operation ∈ app.jobs →
      operation.operation_id < app.next_sync_operation_id
  completed : ∀ operation ∈ app.sync_completions,
    operation ∉ app.pending_project_sync_requests ∧ .sync operation ∉ app.jobs
  waiting : ∀ operation ∈ app.pending_project_sync_requests, .sync operation ∉ app.jobs
  once : app.pending_project_sync_requests.Nodup

namespace Exclusive

variable {project : Si → Pr} {app : App Pr Si} {gates : Gates Si}

variable (hs : Exclusive project app)

include hs

theorem with_handles {handles : Si → SessionStatus}
    (h : ∀ session_id, .merge session_id ∈ app.jobs → handles session_id = .Merging) :
    Exclusive project { app with handles } :=
  { hs with merging := fun session_id hjob => ⟨(hs.merging session_id hjob).1, h session_id hjob⟩ }

theorem with_sessions {sessions : Si → Option SessionStatus}
    (h : ∀ session_id, (sessions session_id).isSome → project session_id = app.active_project_id) :
    Exclusive project { app with sessions } :=
  { hs with loaded := h }

theorem with_queued (queued_session_ids : List Si) :
    Exclusive project
      { app with merge_queue := { app.merge_queue with queued_session_ids } } :=
  { hs with }

theorem no_merge (h : app.merge_queue.active_session_id = none) (session_id : Si) :
    .merge session_id ∉ app.jobs := by
  intro hjob
  have hactive := (hs.merging session_id hjob).1
  rw [h] at hactive
  cases hactive

theorem of_fewer {jobs : List (Job Pr Si)}
    {sync_completions pending_project_sync_requests : List (ProjectSyncContext Pr)}
    (hjobs : jobs.Sublist app.jobs) (hdone : sync_completions ⊆ app.sync_completions)
    (hpending : pending_project_sync_requests.Sublist app.pending_project_sync_requests) :
    Exclusive project { app with jobs, sync_completions, pending_project_sync_requests } where
  loaded := hs.loaded
  merging session_id hjob := hs.merging session_id (hjobs.subset hjob)
  syncing operation hjob := hs.syncing operation (hjobs.subset hjob)
  apart := hs.apart.sublist hjobs
  issued operation h := hs.issued operation
    (h.imp (hdone ·) (Or.imp (hpending.subset ·) (hjobs.subset ·)))
  completed operation h := (hs.completed operation (hdone h)).imp (· ∘ (hpending.subset ·))
    (· ∘ (hjobs.subset ·))
  waiting operation h := hs.waiting operation (hpending.subset h) ∘ (hjobs.subset ·)
  once := hs.once.sublist hpending

/-- A request that was not given to the runner yet is given while no job runs. -/
theorem dispatch_sync_main_request {request : ProjectSyncContext Pr}
    (hmerge : app.merge_queue.active_session_id = none) (hsync : app.project_sync_status = none)
    (hissued : request.operation_id < app.next_sync_operation_id)
    (hcompleted : request ∉ app.sync_completions)
    (hwaiting : request ∉ app.pending_project_sync_requests) :
    Exclusive project (app.dispatch_sync_main_request request) := by
  have hjobs : app.jobs = [] := by
    apply eq_nil_iff_forall_not_mem.mpr
    intro job hjob
    cases job with
    | merge session_id => exact hs.no_merge hmerge session_id hjob
    | sync operation =>
      have hstatus := hs.syncing operation hjob
      rw [hsync] at hstatus
      cases hstatus
  unfold App.dispatch_sync_main_request
  rw [hjobs]
  refine { hs with merging := ?_, syncing := ?_, apart := ?_, issued := ?_, completed := ?_,
                   waiting := ?_ }
  · intro session_id hjob
    simp at hjob
  · intro operation hjob
    simp only [mem_singleton, Job.sync.injEq] at hjob
    rw [hjob]
  · exact pairwise_singleton _ _
  · rintro operation (hdone | hpending | hjob)
    · exact hs.issued operation (.inl hdone)
    · exact hs.issued operation (.inr (.inl hpending))
    · simp only [mem_singleton, Job.sync.injEq] at hjob
      rwa [hjob]
  · intro operation hdone
    refine ⟨(hs.completed operation hdone).1, ?_⟩
    simp only [mem_singleton, Job.sync.injEq]
    rintro rfl
    exact hcompleted hdone
  · intro operation hpending
    simp only [mem_singleton, Job.sync.injEq]
    rintro rfl
    exact hwaiting hpending

theorem start_next_project_sync_from_queue :
    Exclusive project app.start_next_project_sync_from_queue := by
  unfold App.start_next_project_sync_from_queue
  split
  · exact hs
  next hidle =>
  split
  · exact hs
  rename_i request rest hpending
  simp only [MergeQueue.has_work, MergeQueue.has_active, Bool.or_eq_true, not_or,
    Bool.not_eq_true, Option.isSome_eq_false_iff, Option.isNone_iff_eq_none] at hidle
  have hmem : request ∈ app.pending_project_sync_requests := by
    rw [hpending]
    exact mem_cons_self
  have honce := hs.once
  rw [hpending] at honce
  have hpopped : Exclusive project { app with pending_project_sync_requests := rest } :=
    hs.of_fewer (List.Sublist.refl _) (List.Subset.refl _)
      (by rw [hpending]; exact sublist_cons_self _ _)
  apply hpopped.dispatch_sync_main_request hidle.2.1 hidle.1
  · exact hs.issued request (.inr (.inl hmem))
  · intro hdone
    exact (hs.completed request hdone).1 hmem
  · exact (nodup_cons.mp honce).1

section

variable [DecidableEq Pr]

theorem start_sync_main : Exclusive project app.start_sync_main := by
  unfold App.start_sync_main
  -- the new request has a number that no other has
  have hnew : ∀ operation, operation ∈ app.sync_completions ∨
      operation ∈ app.pending_project_sync_requests ∨ .sync operation ∈ app.jobs →
        operation ≠ ⟨app.next_sync_operation_id, app.active_project_id⟩ := by
    rintro operation hold rfl
    exact Nat.lt_irrefl _ (hs.issued _ hold)
  have hnext : Exclusive project { app with
      next_sync_operation_id := app.next_sync_operation_id + 1
      latest_project_sync_operation_ids :=
        Function.update app.latest_project_sync_operation_ids app.active_project_id
          (some app.next_sync_operation_id) } :=
    { hs with issued := fun operation hold => Nat.lt_succ_of_lt (hs.issued operation hold) }
  dsimp only
  split
  · exact hs
  split
  · refine { hnext with issued := ?_, completed := ?_, waiting := ?_, once := ?_ }
    · rintro operation (hdone | hpending | hjob)
      · exact hnext.issued operation (.inl hdone)
      · rcases mem_append.mp hpending with hpending | hpending
        · exact hnext.issued operation (.inr (.inl hpending))
        · rw [mem_singleton.mp hpending]
          exact Nat.lt_succ_self _
      · exact hnext.issued operation (.inr (.inr hjob))
    · intro operation hdone
      refine ⟨?_, (hs.completed operation hdone).2⟩
      simp only [mem_append, mem_singleton, not_or]
      exact ⟨(hs.completed operation hdone).1, hnew operation (.inl hdone)⟩
    · intro operation hpending hjob
      rcases mem_append.mp hpending with hpending | hpending
      · exact hs.waiting operation hpending hjob
      · exact hnew operation (.inr (.inr hjob)) (mem_singleton.mp hpending)
    · apply nodup_append.mpr
      refine ⟨hs.once, nodup_singleton _, ?_⟩
      intro a ha b hb
      rw [mem_singleton.mp hb]
      exact hnew a (.inr (.inl ha))
  next hsync =>
  split
  · exact hnext
  rename_i hwork
  have hactive : app.merge_queue.active_session_id = none := by
    simp only [MergeQueue.has_work, MergeQueue.has_active, Bool.or_eq_true, not_or,
      Bool.not_eq_true, Option.isSome_eq_false_iff, Option.isNone_iff_eq_none] at hwork
    exact hwork.1
  apply hnext.dispatch_sync_main_request hactive
  · simpa using hsync
  · exact Nat.lt_succ_self _
  · intro hdone
    exact hnew _ (.inl hdone) rfl
  · intro hpending
    exact hnew _ (.inr (.inl hpending)) rfl

theorem refresh_sessions_now (folders : Si → Bool) :
    Exclusive project (app.refresh_sessions_now project folders) := by
  apply hs.with_sessions
  intro session_id hloaded
  split at hloaded
  · next h => exact h.1
  · cases hloaded

theorem apply_app_event_effects (batch : App.AppEventBatch Pr Si) :
    Exclusive project (app.apply_app_event_effects project batch) := by
  unfold App.apply_app_event_effects
  split
  · exact hs
  · exact hs.refresh_sessions_now _

end

variable [DecidableEq Si]

theorem apply_status {session_id : Si} (h : .merge session_id ∉ app.jobs) (status : SessionStatus) :
    Exclusive project (app.apply_status session_id status) := by
  rw [App.apply_status_eq]
  apply hs.with_handles
  intro other hjob
  have hne : other ≠ session_id := by
    rintro rfl
    exact h hjob
  rw [App.apply_status_handles_of_ne _ _ hne]
  exact (hs.merging other hjob).2

/-- The loop runs while no merge is active and no sync runs for the active project; a merge
that it starts is of a loaded session, and so of the active project. -/
theorem start_queued (stop : Bool) (queued : List Si)
    (hactive : app.merge_queue.active_session_id = none)
    (hfree : ∀ operation, app.project_sync_status = some operation →
      operation.project_id ≠ app.active_project_id) :
    Exclusive project (App.start_queued gates stop queued app) := by
  induction queued generalizing app with
  | nil => exact hs
  | cons next rest ih =>
    have hpopped := hs.with_queued rest
    rcases hstart : App.start_merge gates
        { app with merge_queue := { app.merge_queue with queued_session_ids := rest } } next
      with ⟨app', started⟩
    cases started with
    | true =>
      obtain ⟨hloaded, rfl⟩ := App.start_merge_started hstart
      simp only [App.start_queued, hstart]
      refine { hpopped with merging := ?_, syncing := ?_, apart := ?_, issued := ?_,
                            completed := ?_, waiting := ?_ }
      · intro session_id hjob
        rcases mem_cons.mp hjob with heq | hjob
        · cases heq
          exact ⟨rfl, Function.update_self _ _ _⟩
        · exact absurd hjob (hs.no_merge hactive session_id)
      · intro operation hjob
        exact hs.syncing operation (by simpa using hjob)
      · refine pairwise_cons.mpr ⟨?_, hs.apart⟩
        intro job hjob
        cases job with
        | merge session_id => exact absurd hjob (hs.no_merge hactive session_id)
        | sync operation =>
          have hne := hfree operation (hs.syncing operation hjob)
          rw [← hs.loaded next hloaded] at hne
          exact hne.symm
      · simpa using hs.issued
      · simpa using hs.completed
      · simpa using hs.waiting
    | false =>
      obtain ⟨handles, hothers, -, hloop⟩ := App.start_queued_failed stop hstart
      have hrestored : Exclusive project { app with
          merge_queue := { app.merge_queue with queued_session_ids := rest }
          handles } := by
        apply hpopped.with_handles
        intro session_id hjob
        exact absurd hjob (hs.no_merge hactive session_id)
      rw [hloop]
      cases stop with
      | true => exact hrestored
      | false => exact ih hrestored hactive hfree

theorem sync_touched_sessions (session_ids : List Si) :
    Exclusive project (app.sync_touched_sessions session_ids) := by
  apply hs.with_sessions
  intro session_id hloaded
  apply hs.loaded
  split at hloaded
  · simpa using hloaded
  · exact hloaded

variable [DecidableEq Pr]

theorem start_next_merge_from_queue (stop : Bool) :
    Exclusive project (app.start_next_merge_from_queue gates stop) := by
  unfold App.start_next_merge_from_queue
  split
  · exact hs
  rename_i hactive
  split
  · exact hs
  rename_i hfree
  apply hs.start_queued
  · simpa [MergeQueue.has_active] using hactive
  · intro operation hstatus hproject
    apply hfree
    simp [App.ensure_project_checkout_available, hstatus, hproject]

theorem merge_session (session_id : Si) :
    Exclusive project (app.merge_session gates session_id) := by
  unfold App.merge_session
  split
  · exact hs
  split
  · exact hs
  next hqueued =>
  split
  · exact hs
  split
  · split
    · -- the session is not the active one, so no task of its own runs
      have hjob : .merge session_id ∉ app.jobs := by
        intro hjob
        have hactive := (hs.merging session_id hjob).1
        simp [MergeQueue.is_queued_or_active, hactive] at hqueued
      exact (hs.apply_status hjob .Queued).with_queued _
    · exact hs
  · exact (hs.with_queued _).start_next_merge_from_queue true

theorem resume_base_checkout_work : Exclusive project (app.resume_base_checkout_work gates) := by
  unfold App.resume_base_checkout_work
  split
  · exact hs
  · apply start_next_project_sync_from_queue
    split
    · exact hs.start_next_merge_from_queue false
    · exact hs

/-- The sync whose completion is handled has ended. -/
theorem apply_sync_main_completion {operation : ProjectSyncContext Pr}
    (hended : .sync operation ∉ app.jobs) :
    Exclusive project (app.apply_sync_main_completion gates operation) := by
  unfold App.apply_sync_main_completion App.set_project_sync_terminal_status
  split
  · apply resume_base_checkout_work
    split
    · next hstatus =>
      refine { hs with syncing := ?_ }
      intro running hjob
      have hrunning := hs.syncing running hjob
      rw [hstatus] at hrunning
      cases hrunning
      exact absurd hjob hended
    · exact hs
  · exact hs

end Exclusive

variable [DecidableEq Pr] [DecidableEq Si]

/-! ### Batches -/

/-- The sessions whose merge tasks run are loaded. -/
def Seen (app : App Pr Si) : Prop :=
  ∀ session_id, .merge session_id ∈ app.jobs → (app.sessions session_id).isSome

namespace Seen

variable {project : Si → Pr} {app : App Pr Si} {gates : Gates Si}

variable (hs : Seen app)

include hs

omit [DecidableEq Pr] in
theorem start_queued (stop : Bool) (queued : List Si) :
    Seen (App.start_queued gates stop queued app) := by
  induction queued generalizing app with
  | nil => exact hs
  | cons next rest ih =>
    rcases hstart : App.start_merge gates
        { app with merge_queue := { app.merge_queue with queued_session_ids := rest } } next
      with ⟨app', started⟩
    cases started with
    | true =>
      obtain ⟨hloaded, rfl⟩ := App.start_merge_started hstart
      simp only [App.start_queued, hstart]
      intro session_id hjob
      rcases mem_cons.mp hjob with heq | hjob
      · cases heq
        exact hloaded
      · exact hs session_id hjob
    | false =>
      obtain ⟨handles, -, -, hloop⟩ := App.start_queued_failed stop hstart
      rw [hloop]
      cases stop with
      | true => exact hs
      | false => exact ih hs

omit [DecidableEq Si] in
omit [DecidableEq Pr] in
theorem start_next_project_sync_from_queue : Seen app.start_next_project_sync_from_queue := by
  unfold App.start_next_project_sync_from_queue
  split
  · exact hs
  split
  · exact hs
  · intro session_id hjob
    apply hs
    simpa [App.dispatch_sync_main_request] using hjob

theorem resume_base_checkout_work : Seen (app.resume_base_checkout_work gates) := by
  unfold App.resume_base_checkout_work
  split
  · exact hs
  apply start_next_project_sync_from_queue
  split
  · unfold App.start_next_merge_from_queue
    split
    · exact hs
    split
    · exact hs
    · exact hs.start_queued false _
  · exact hs

theorem apply_sync_main_completion (operation : ProjectSyncContext Pr) :
    Seen (app.apply_sync_main_completion gates operation) := by
  unfold App.apply_sync_main_completion App.set_project_sync_terminal_status
  split
  · apply resume_base_checkout_work
    split <;> exact hs
  · exact hs

omit [DecidableEq Pr] in
theorem sync_touched_sessions (session_ids : List Si) :
    Seen (app.sync_touched_sessions session_ids) := by
  intro session_id hjob
  have hloaded := hs session_id hjob
  unfold App.sync_touched_sessions
  dsimp only
  split
  · simpa using hloaded
  · exact hloaded

end Seen

namespace Exclusive

variable {project : Si → Pr} {app : App Pr Si} {gates : Gates Si}

/-- The active merge is forgotten only when its task has ended: the copy of a loaded session
that the batch names is up to date, and it is `Merging` as long as the task runs. -/
theorem handle_merge_queue_progress {session_ids : List Si}
    (previous : Si → Option SessionStatus) (hs : Exclusive project app) (hseen : Seen app)
    (htouched : ∀ session_id ∈ session_ids, ∀ status, app.sessions session_id = some status →
      status = app.handles session_id) :
    Exclusive project (app.handle_merge_queue_progress gates session_ids previous) := by
  cases hactive : app.merge_queue.active_session_id with
  | none =>
    simp only [App.handle_merge_queue_progress, MergeQueue.progress_from_status_updates, hactive]
    exact hs
  | some active =>
    by_cases hjob : .merge active ∈ app.jobs
    · obtain ⟨status, hstatus⟩ := Option.isSome_iff_exists.mp (hseen active hjob)
      have hprogress : app.merge_queue.progress_from_status_updates (some status) session_ids
          previous = (app.merge_queue, .NoAction) := by
        by_cases hmem : active ∈ session_ids
        · have hmerging : status = .Merging := by
            rw [htouched active hmem status hstatus]
            exact (hs.merging active hjob).2
          simp [MergeQueue.progress_from_status_updates, hactive, hmem, hmerging]
        · simp [MergeQueue.progress_from_status_updates, hactive, hmem]
      simp only [App.handle_merge_queue_progress, hactive, Option.bind_some, hstatus, hprogress]
      exact hs
    · -- no merge task runs, so the active marker may be dropped
      have hcleared : Exclusive project
          { app with merge_queue := { app.merge_queue with active_session_id := none } } := by
        refine { hs with merging := ?_ }
        intro session_id hmerge
        have heq := (hs.merging session_id hmerge).1
        rw [hactive] at heq
        cases heq
        exact absurd hmerge hjob
      unfold App.handle_merge_queue_progress
      rcases MergeQueue.progress_cases app.merge_queue
          (app.merge_queue.active_session_id.bind app.sessions) session_ids previous with h | h
      · simp only [h]
        exact hs
      · simp only [h]
        exact hcleared.resume_base_checkout_work

theorem apply_app_event_batch {batch : App.AppEventBatch Pr Si} (hs : Exclusive project app)
    (hsent : ∀ operation, batch.sync_main_completion = some operation →
      operation ∈ app.sync_completions)
    (hseen : Seen (app.apply_app_event_effects project batch)) :
    Exclusive project (app.apply_app_event_batch project gates batch) := by
  have heffects := hs.apply_app_event_effects batch
  have hsame : (app.apply_app_event_effects project batch).sync_completions =
      app.sync_completions := by
    unfold App.apply_app_event_effects
    split <;> rfl
  have hsynced : Exclusive project
      ((app.apply_app_event_effects project batch).apply_synced_merges gates batch) ∧
      Seen ((app.apply_app_event_effects project batch).apply_synced_merges gates batch) := by
    unfold App.apply_synced_merges
    split
    · exact ⟨heffects, hseen⟩
    rename_i operation hoperation
    have hdone := hsent operation hoperation
    rw [← hsame] at hdone
    refine ⟨?_, Seen.apply_sync_main_completion ?_ operation⟩
    case refine_2 => exact hseen
    apply Exclusive.apply_sync_main_completion
    · exact heffects.of_fewer (List.Sublist.refl _) erase_subset (List.Sublist.refl _)
    · exact (heffects.completed operation hdone).2
  apply handle_merge_queue_progress
  · exact hsynced.1.sync_touched_sessions _
  · exact hsynced.2.sync_touched_sessions _
  · intro session_id hmem status hstatus
    simp only [App.sync_touched_sessions, if_pos hmem] at hstatus
    obtain ⟨_, _, rfl⟩ := Option.map_eq_some_iff.mp hstatus
    rfl

end Exclusive

/-- The app keeps sight of the sessions whose merge tasks run: they are loaded when a batch is
handled, and only the task itself moves such a session. -/
def InSight (project : Si → Pr) (app : App Pr Si) : Label Pr Si → Prop
  | .batch _ batch => Seen (app.apply_app_event_effects project batch)
  | .update_status session_id _ => .merge session_id ∉ app.jobs
  | _ => True

variable {label : Label Pr Si} {project : Si → Pr} {app app' : App Pr Si}

theorem Exclusive.step (hs : Exclusive project app) (hk : InSight project app label)
    (h : step project app label = some app') : Exclusive project app' := by
  cases label with
  | merge_session gates session_id =>
    cases h
    exact hs.merge_session session_id
  | start_sync_main =>
    cases h
    exact hs.start_sync_main
  | batch =>
    obtain ⟨hsent, ⟨⟩⟩ := Option.ite_none_right_eq_some.mp h
    apply hs.apply_app_event_batch _ hk
    intro operation hoperation
    rw [hoperation] at hsent
    simpa using hsent
  | switch_project project_id folders =>
    cases h
    have hunloaded : Exclusive project
        { app with active_project_id := project_id, sessions := fun _ => none } :=
      { hs with loaded := by simp }
    exact hunloaded.refresh_sessions_now folders
  | refresh_sessions folders =>
    cases h
    exact hs.refresh_sessions_now folders
  | update_status session_id status =>
    obtain ⟨_, ⟨⟩⟩ := Option.ite_none_right_eq_some.mp h
    exact hs.apply_status hk status
  | finish_merge =>
    obtain ⟨_, ⟨⟩⟩ := Option.ite_none_right_eq_some.mp h
    apply Exclusive.apply_status
    · exact hs.of_fewer filter_sublist (List.Subset.refl _) (List.Sublist.refl _)
    · simp
  | finish_sync operation =>
    obtain ⟨hjob, ⟨⟩⟩ := Option.ite_none_right_eq_some.mp h
    have hended := hs.of_fewer (filter_sublist (p := (· ≠ .sync operation)))
      (List.Subset.refl _) (List.Sublist.refl _)
    refine { hended with issued := ?_, completed := ?_ }
    · rintro other (hdone | hold)
      · rcases mem_cons.mp hdone with rfl | hdone
        · exact hs.issued other (.inr (.inr hjob))
        · exact hs.issued other (.inl hdone)
      · exact hended.issued other (.inr hold)
    · intro other hdone
      rcases mem_cons.mp hdone with rfl | hdone
      · refine ⟨?_, by simp⟩
        intro hpending
        exact hs.waiting other hpending hjob
      · exact hended.completed other hdone

/-- In every run that keeps sight of the merges, no two jobs run for one project. -/
theorem one_job_for_a_project (project : Si → Pr) (project_id : Pr) (folders : Si → Bool)
    (handles : Si → SessionStatus) (app : App Pr Si)
    (h : Machine.Reaches (step project) (InSight project)
      (App.new project project_id folders handles) app) :
    app.jobs.Pairwise fun a b => a.project_id project ≠ b.project_id project := by
  have hs : Exclusive project app :=
    h.invariant (Exclusive project) (Exclusive.refresh_sessions_now (by constructor <;> simp) _)
      fun _ _ _ hs hk hstep => hs.step hk hstep
  exact hs.apart

def check_sight (project : Si → Pr) (app : App Pr Si) : Label Pr Si → Bool
  | .batch _ batch =>
    (app.apply_app_event_effects project batch).jobs.all fun
      | .merge session_id =>
        ((app.apply_app_event_effects project batch).sessions session_id).isSome
      | .sync _ => true
  | .update_status session_id _ => !app.jobs.contains (.merge session_id)
  | _ => true

theorem inSight_of_check {app : App Pr Si} (h : check_sight project app label = true) :
    InSight project app label := by
  cases label with
  | batch =>
    intro session_id hjob
    exact all_eq_true.mp h _ hjob
  | update_status =>
    rw [check_sight, Bool.not_eq_true', ← Bool.not_eq_true, contains_iff_mem] at h
    exact h
  | _ => trivial

/-- Every gate of every session is open. -/
def Gates.open : Gates Nat := ⟨fun _ => true, fun _ => true, fun _ => true⟩

/-- A merge in one project beside a sync of another. -/
theorem one_job_for_a_project_two_projects :
    ∃ app, Machine.Reaches (step id) (InSight id)
        (App.new id 1 (fun _ => true) fun _ => .Review) app ∧
      app.jobs = [.merge 0, .sync ⟨1, 1⟩] ∧
      app.jobs.Pairwise fun a b => a.project_id id ≠ b.project_id id := by
  have hrun : (Machine.run (step id) (check_sight id)
      (App.new id 1 (fun _ => true) fun _ => .Review)
      [.start_sync_main, .switch_project 0 fun _ => true, .merge_session .open 0,
        .batch .open ⟨[0], none, none⟩]).any
      (fun app => app.jobs = [.merge 0, .sync ⟨1, 1⟩]) = true := by
    decide +kernel
  obtain ⟨app, hreaches, hjobs⟩ :=
    Machine.exists_reaches_of_run (K := InSight id) (fun _ _ => inSight_of_check) hrun
  exact ⟨app, hreaches, hjobs,
    one_job_for_a_project id 1 (fun _ => true) (fun _ => .Review) app hreaches⟩

/-- Two sessions of one project. While the first is merged the user looks at another project,
and a batch is handled there: the active merge is forgotten. Back in the project, the second
merge starts beside the first. -/
theorem two_merges_in_one_project :
    ∃ app, Machine.Reaches (step fun _ => 0) Machine.anyStep
        (App.new (fun _ : Nat => 0) 0 (fun _ => true) fun _ => .Review) app ∧
      app.jobs = [.merge 1, .merge 0] ∧
      ¬ app.jobs.Pairwise fun a b => a.project_id (fun _ => 0) ≠ b.project_id (fun _ => 0) := by
  have hrun : (Machine.run (step fun _ => 0) (fun _ _ => true)
      (App.new (fun _ : Nat => 0) 0 (fun _ => true) fun _ => .Review)
      [.merge_session .open 0, .batch .open ⟨[0], none, none⟩,
        .switch_project 1 fun _ => true, .batch .open ⟨[], none, none⟩,
        .switch_project 0 fun _ => true, .merge_session .open 1]).any
      (fun app => app.jobs = [.merge 1, .merge 0]) = true := by
    decide +kernel
  obtain ⟨app, hreaches, hjobs⟩ := Machine.exists_reaches _ hrun
  refine ⟨app, hreaches, hjobs, ?_⟩
  rw [hjobs]
  simp [Job.project_id]

/-! ## Who waits -/

/-- A session that is `Queued` is an entry of the queue. -/
def Listed (app : App Pr Si) : Prop :=
  ∀ session_id, app.handles session_id = .Queued →
    session_id ∈ app.merge_queue.queued_session_ids

/-- The entries of the queue whose sessions are `Queued` are seen as such. -/
def Shown (app : App Pr Si) : Prop :=
  ∀ session_id ∈ app.merge_queue.queued_session_ids, app.handles session_id = .Queued →
    app.sessions session_id = some .Queued

/-- The queue waits for a merge or a sync. -/
def Served (app : App Pr Si) : Prop :=
  app.merge_queue.queued_session_ids ≠ [] →
    app.merge_queue.active_session_id.isSome ∨ app.project_sync_status.isSome

def Orderly (app : App Pr Si) : Prop := Listed app ∧ Shown app ∧ Served app

section

variable {project : Si → Pr} {app : App Pr Si} {gates : Gates Si}

omit [DecidableEq Pr] in
/-- The loop leaves no session `Queued` that it takes from the queue, and it ends with a merge
or with the queue empty, unless it stops at a failure. -/
theorem start_queued_listed (gates : Gates Si) (stop : Bool) (queued : List Si)
    (hqueue : app.merge_queue.queued_session_ids = queued) (hlisted : Listed app)
    (hshown : Shown app) :
    Listed (App.start_queued gates stop queued app) ∧
      Shown (App.start_queued gates stop queued app) ∧
      (App.start_queued gates stop queued app).project_sync_status = app.project_sync_status ∧
      ((App.start_queued gates stop queued app).merge_queue.active_session_id.isSome ∨
        (App.start_queued gates stop queued app).merge_queue.queued_session_ids = [] ∨
        (stop = true ∧ (App.start_queued gates stop queued app).merge_queue.queued_session_ids =
          queued.tail)) := by
  induction queued generalizing app with
  | nil => exact ⟨hlisted, hshown, rfl, .inr (.inl hqueue)⟩
  | cons next rest ih =>
    have hseen : ∀ session_id ∈ next :: rest, app.handles session_id = .Queued →
        app.sessions session_id = some .Queued := by
      rw [← hqueue]
      exact hshown
    -- the first entry is gone, and its session is not `Queued`
    have hpopped : ∀ app' : App Pr Si, app'.merge_queue.queued_session_ids = rest →
        app'.sessions = app.sessions → app'.handles next ≠ .Queued →
        (∀ other, other ≠ next → app'.handles other = app.handles other) →
        Listed app' ∧ Shown app' := by
      intro app' hrest hsessions hnext hothers
      have hkept : ∀ session_id, app'.handles session_id = .Queued →
          session_id ≠ next ∧ app.handles session_id = .Queued := by
        intro session_id hqueued
        have hne : session_id ≠ next := by
          rintro rfl
          exact hnext hqueued
        rw [hothers session_id hne] at hqueued
        exact ⟨hne, hqueued⟩
      unfold Listed Shown
      rw [hrest, hsessions]
      refine ⟨fun session_id hqueued => ?_, fun session_id hmem hqueued => ?_⟩
      · obtain ⟨hne, hqueued⟩ := hkept session_id hqueued
        have hmem := hlisted session_id hqueued
        rw [hqueue] at hmem
        exact mem_of_ne_of_mem hne hmem
      · exact hseen session_id (mem_cons_of_mem _ hmem) (hkept session_id hqueued).2
    rcases hstart : App.start_merge gates
        { app with merge_queue := { app.merge_queue with queued_session_ids := rest } } next
      with ⟨app', started⟩
    cases started with
    | true =>
      obtain ⟨-, rfl⟩ := App.start_merge_started hstart
      simp only [App.start_queued, hstart]
      obtain ⟨hl, hv⟩ := hpopped { app with
          merge_queue := { app.merge_queue with queued_session_ids := rest }
          handles := Function.update app.handles next .Merging } rfl rfl (by simp)
        fun other hother => Function.update_of_ne hother _ _
      exact ⟨hl, hv, trivial, .inl rfl⟩
    | false =>
      obtain ⟨handles, hothers, hself, hloop⟩ := App.start_queued_failed stop hstart
      obtain ⟨hrestored, hvisible⟩ := hpopped { app with
          merge_queue := { app.merge_queue with queued_session_ids := rest }, handles } rfl rfl
        (hself (hseen next mem_cons_self)) hothers
      rw [hloop]
      cases stop with
      | true => exact ⟨hrestored, hvisible, rfl, .inr (.inr ⟨rfl, rfl⟩)⟩
      | false =>
        obtain ⟨hl, hv, hsync, hend⟩ := ih rfl hrestored hvisible
        refine ⟨hl, hv, hsync, ?_⟩
        rcases hend with hend | hend | ⟨hfalse, -⟩
        · exact .inl hend
        · exact .inr (.inl hend)
        · cases hfalse

omit [DecidableEq Pr] in
omit [DecidableEq Si] in
theorem start_next_project_sync_served (h : Orderly app) :
    Orderly app.start_next_project_sync_from_queue := by
  unfold App.start_next_project_sync_from_queue
  split
  · exact h
  split
  · exact h
  · exact ⟨h.1, h.2.1, fun _ => .inr rfl⟩

/-- The queue is served again: what is left of it has something to wait for. -/
theorem resume_served (gates : Gates Si) (app : App Pr Si) (hlisted : Listed app)
    (hshown : Shown app) : Orderly (app.resume_base_checkout_work gates) := by
  unfold App.resume_base_checkout_work
  split
  · next hsync => exact ⟨hlisted, hshown, fun _ => .inr hsync⟩
  next hsync =>
  have hsync : app.project_sync_status = none := by simpa using hsync
  split
  · unfold App.start_next_merge_from_queue
    split
    · next hactive =>
      exact start_next_project_sync_served ⟨hlisted, hshown, fun _ => .inl hactive⟩
    split
    · next hbusy =>
      -- no sync is running, so the checkout is free
      simp [App.ensure_project_checkout_available, hsync] at hbusy
    · obtain ⟨hl, hv, -, hend⟩ := start_queued_listed gates false _ rfl hlisted hshown
      refine start_next_project_sync_served ⟨hl, hv, fun hqueue => ?_⟩
      rcases hend with hactive | hempty | ⟨hfalse, -⟩
      · exact .inl hactive
      · exact absurd hempty hqueue
      · cases hfalse
  · next hwork =>
    refine start_next_project_sync_served ⟨hlisted, hshown, fun hqueue => ?_⟩
    simp [MergeQueue.has_work] at hwork
    exact absurd hwork.2 hqueue

theorem apply_sync_main_completion_served (gates : Gates Si) (app : App Pr Si)
    (operation : ProjectSyncContext Pr) (h : Orderly app) :
    Orderly (app.apply_sync_main_completion gates operation) := by
  unfold App.apply_sync_main_completion App.set_project_sync_terminal_status
  split
  · split <;> exact resume_served gates _ h.1 h.2.1
  · exact h

omit [DecidableEq Pr] in
theorem sync_touched_sessions_shown (session_ids : List Si) (hshown : Shown app) :
    Shown (app.sync_touched_sessions session_ids) := by
  intro session_id hmem hqueued
  have hcopy := hshown session_id hmem hqueued
  simp only [App.sync_touched_sessions, hcopy, Option.map_some]
  split
  · exact congrArg some hqueued
  · rfl

theorem handle_merge_queue_progress_served {session_ids : List Si}
    {previous : Si → Option SessionStatus} (hlisted : Listed app) (hshown : Shown app)
    (hserved : Served app) :
    Listed (app.handle_merge_queue_progress gates session_ids previous) ∧
      Served (app.handle_merge_queue_progress gates session_ids previous) := by
  unfold App.handle_merge_queue_progress
  rcases MergeQueue.progress_cases app.merge_queue
      (app.merge_queue.active_session_id.bind app.sessions) session_ids previous with h | h
  · simp only [h]
    exact ⟨hlisted, hserved⟩
  · simp only [h]
    have hresumed := resume_served gates
      { app with merge_queue := { app.merge_queue with active_session_id := none } }
      hlisted hshown
    exact ⟨hresumed.1, hresumed.2.2⟩

theorem apply_app_event_batch_served {batch : App.AppEventBatch Pr Si}
    (hlisted : Listed app) (hserved : Served app)
    (hshown : Shown (if batch.sync_main_completion.isSome then
      app.apply_app_event_effects project batch
      else (app.apply_app_event_effects project batch).sync_touched_sessions batch.session_ids)) :
    Listed (app.apply_app_event_batch project gates batch) ∧
      Served (app.apply_app_event_batch project gates batch) := by
  have heffects : Listed (app.apply_app_event_effects project batch) ∧
      Served (app.apply_app_event_effects project batch) := by
    unfold App.apply_app_event_effects
    split <;> exact ⟨hlisted, hserved⟩
  unfold App.apply_app_event_batch App.apply_synced_merges
  cases hcompletion : batch.sync_main_completion with
  | none =>
    rw [hcompletion] at hshown
    exact handle_merge_queue_progress_served heffects.1 hshown heffects.2
  | some operation =>
    rw [hcompletion] at hshown
    obtain ⟨hl, hv, hs⟩ := apply_sync_main_completion_served gates
      { app.apply_app_event_effects project batch with
        sync_completions :=
          (app.apply_app_event_effects project batch).sync_completions.erase operation }
      operation ⟨heffects.1, hshown, heffects.2⟩
    exact handle_merge_queue_progress_served hl (sync_touched_sessions_shown _ hv) hs

theorem merge_session_served (session_id : Si) (hlisted : Listed app) (hshown : Shown app)
    (hserved : Served app) :
    Listed (app.merge_session gates session_id) ∧ Served (app.merge_session gates session_id) := by
  unfold App.merge_session
  split
  · exact ⟨hlisted, hserved⟩
  next hfree =>
  split
  · exact ⟨hlisted, hserved⟩
  next hnew =>
  split
  · exact ⟨hlisted, hserved⟩
  split
  · next hactive =>
    split
    · next htransition =>
      simp only [App.apply_status, htransition, if_true]
      refine ⟨?_, fun _ => .inl hactive⟩
      intro other hqueued
      apply mem_append.mpr
      by_cases heq : other = session_id
      · exact .inr (mem_singleton.mpr heq)
      · exact .inl (hlisted other (by simpa [heq] using hqueued))
    · exact ⟨hlisted, hserved⟩
  · next hactive =>
    have hl : Listed { app with merge_queue := app.merge_queue.enqueue session_id } := by
      intro other hqueued
      exact mem_append_left _ (hlisted other hqueued)
    have hv : Shown { app with merge_queue := app.merge_queue.enqueue session_id } := by
      intro other hmem hqueued
      -- a session that is `Queued` was an entry before
      exact hshown other (hlisted other hqueued) hqueued
    have hstart : App.start_next_merge_from_queue gates true
        { app with merge_queue := app.merge_queue.enqueue session_id } =
          App.start_queued gates true (app.merge_queue.enqueue session_id).queued_session_ids
            { app with merge_queue := app.merge_queue.enqueue session_id } := by
      unfold App.start_next_merge_from_queue
      rw [if_neg, if_neg]
      · exact hfree
      · exact hactive
    rw [hstart]
    obtain ⟨hl, -, hsync, hend⟩ := start_queued_listed gates true _ rfl hl hv
    refine ⟨hl, ?_⟩
    intro hqueue
    rcases hend with hstarted | hempty | ⟨-, htail⟩
    · exact .inl hstarted
    · exact absurd hempty hqueue
    · -- the first entry failed, and it was not the only one: a sync is running
      have hbefore : app.merge_queue.queued_session_ids ≠ [] := by
        intro hnil
        apply hqueue
        rw [htail]
        simp [MergeQueue.enqueue, hnil]
      refine .inr ?_
      rw [hsync]
      rcases hserved hbefore with hmerge | hrunning
      · exact absurd hmerge hactive
      · exact hrunning

variable {status : SessionStatus}

omit [DecidableEq Pr] in
theorem apply_status_listed {session_id : Si} (hstatus : status ≠ .Queued) (hlisted : Listed app) :
    Listed (app.apply_status session_id status) := by
  intro other hqueued
  rw [App.apply_status_eq]
  apply hlisted
  by_cases heq : other = session_id
  · subst heq
    by_contra hne
    exact App.apply_status_ne_queued hstatus hne hqueued
  · rwa [App.apply_status_handles_of_ne _ _ heq] at hqueued

omit [DecidableEq Pr] in
theorem apply_status_served {session_id : Si} (hserved : Served app) :
    Served (app.apply_status session_id status) := by
  rw [App.apply_status_eq]
  exact hserved

end

/-- Every entry that waits is seen to wait where the queue is served. -/
def InView (project : Si → Pr) (app : App Pr Si) : Label Pr Si → Prop
  | .merge_session _ _ => Shown app
  | .batch _ batch =>
    Shown (if batch.sync_main_completion.isSome then app.apply_app_event_effects project batch
      else (app.apply_app_event_effects project batch).sync_touched_sessions batch.session_ids)
  | _ => True

theorem waits_step (hs : Listed app ∧ Served app) (hk : InView project app label)
    (h : step project app label = some app') : Listed app' ∧ Served app' := by
  cases label with
  | merge_session gates session_id =>
    cases h
    exact merge_session_served session_id hs.1 hk hs.2
  | start_sync_main =>
    cases h
    unfold App.start_sync_main
    dsimp only
    split
    · exact hs
    split
    · exact hs
    split
    · exact hs
    · exact ⟨hs.1, fun _ => .inr rfl⟩
  | batch =>
    obtain ⟨-, ⟨⟩⟩ := Option.ite_none_right_eq_some.mp h
    exact apply_app_event_batch_served hs.1 hs.2 hk
  | switch_project | refresh_sessions =>
    cases h
    exact hs
  | update_status =>
    obtain ⟨hstatus, ⟨⟩⟩ := Option.ite_none_right_eq_some.mp h
    exact ⟨apply_status_listed hstatus.1 hs.1, apply_status_served hs.2⟩
  | finish_merge =>
    obtain ⟨-, ⟨⟩⟩ := Option.ite_none_right_eq_some.mp h
    refine ⟨apply_status_listed ?_ hs.1, apply_status_served hs.2⟩
    split <;> decide
  | finish_sync =>
    obtain ⟨-, ⟨⟩⟩ := Option.ite_none_right_eq_some.mp h
    exact hs

/-- In every run in which the waiting entries are seen where the queue is served, a session
that is `Queued` is an entry of the queue, and the queue has entries only while a merge is
active or a sync is running. -/
theorem queued_sessions_are_served (project : Si → Pr) (project_id : Pr) (folders : Si → Bool)
    (handles : Si → SessionStatus) (hnew : ∀ session_id, handles session_id ≠ .Queued)
    (app : App Pr Si)
    (h : Machine.Reaches (step project) (InView project)
      (App.new project project_id folders handles) app) :
    (∀ session_id, app.handles session_id = .Queued →
      session_id ∈ app.merge_queue.queued_session_ids) ∧
    (app.merge_queue.queued_session_ids ≠ [] →
      app.merge_queue.active_session_id.isSome ∨ app.project_sync_status.isSome) := by
  apply h.invariant (fun app => Listed app ∧ Served app)
  · refine ⟨?_, ?_⟩
    · intro session_id hqueued
      exact absurd hqueued (hnew session_id)
    · intro hqueue
      exact absurd rfl hqueue
  · intro app label app' hs hk hstep
    exact waits_step hs hk hstep

def check_view (project : Si → Pr) (app : App Pr Si) : Label Pr Si → Bool
  | .merge_session _ _ => shown app
  | .batch _ batch =>
    shown (if batch.sync_main_completion.isSome then app.apply_app_event_effects project batch
      else (app.apply_app_event_effects project batch).sync_touched_sessions batch.session_ids)
  | _ => true
where
  shown (app : App Pr Si) : Bool :=
    app.merge_queue.queued_session_ids.all fun session_id =>
      decide (app.handles session_id = .Queued → app.sessions session_id = some .Queued)

theorem inView_of_check {app : App Pr Si} (h : check_view project app label = true) :
    InView project app label := by
  have hshown : ∀ app : App Pr Si, check_view.shown app = true → Shown app := by
    intro app happ session_id hmem
    exact of_decide_eq_true (all_eq_true.mp happ session_id hmem)
  cases label with
  | merge_session => exact hshown app h
  | batch => exact hshown _ h
  | _ => trivial

/-- The second merge waits for the first, and starts after it. -/
theorem queued_sessions_are_served_second_merge :
    ∃ app, Machine.Reaches (step fun _ => 0) (InView fun _ => 0)
        (App.new (fun _ : Nat => 0) 0 (fun _ => true) fun _ => .Review) app ∧
      app.handles 1 = .Merging ∧ app.handles 2 = .Queued ∧
      2 ∈ app.merge_queue.queued_session_ids ∧ app.merge_queue.active_session_id = some 1 := by
  have hrun : (Machine.run (step fun _ => 0) (check_view fun _ => 0)
      (App.new (fun _ : Nat => 0) 0 (fun _ => true) fun _ => .Review)
      [.merge_session .open 0, .batch .open ⟨[0], none, none⟩,
        .merge_session .open 1, .batch .open ⟨[1], none, none⟩,
        .merge_session .open 2, .batch .open ⟨[2], none, none⟩,
        .finish_merge 0 true, .batch .open ⟨[0], none, none⟩]).any
      (fun app => app.handles 1 = .Merging ∧ app.handles 2 = .Queued ∧
        app.merge_queue.active_session_id = some 1) = true := by
    decide +kernel
  obtain ⟨app, hreaches, hmerging, hqueued, hactive⟩ :=
    Machine.exists_reaches_of_run (K := InView fun _ => 0) (fun _ _ => inView_of_check) hrun
  have hserved := queued_sessions_are_served (fun _ => 0) 0 (fun _ => true) (fun _ => .Review)
    (fun _ => by decide) app hreaches
  exact ⟨app, hreaches, hmerging, hqueued, hserved.1 2 hqueued, hactive⟩

/-- A session waits for the merge of another. The user looks at another project, and a batch is
handled there: the waiting entry is taken from the queue, its session is not found, and it
stays `Queued` for good. -/
theorem queued_session_is_dropped :
    ∃ app, Machine.Reaches (step fun _ => 0) Machine.anyStep
        (App.new (fun _ : Nat => 0) 0 (fun _ => true) fun _ => .Review) app ∧
      app.handles 1 = .Queued ∧ app.merge_queue.queued_session_ids = [] := by
  apply Machine.exists_reaches [.merge_session .open 0, .batch .open ⟨[0], none, none⟩,
    .merge_session .open 1, .batch .open ⟨[1], none, none⟩,
    .switch_project 1 fun _ => true, .batch .open ⟨[], none, none⟩]
  decide +kernel

end Agentty.Session.Checkout
