/-
Subtasks and their children.

A child names its subtask from its creation on (`session.orchestration_task_id`)
and the subtask names its child once it is linked. The two rows are written by
different calls, with other actors in between, so that they agree is a fact about
runs: what a subtask names as its child names the subtask, and a row that a
program has read names a child that names the same subtask or none.
-/
import Agentty.Orchestration.TurnFacts

set_option autoImplicit false

namespace Agentty.Orchestration

/-- The session was created for the subtask and has not been unlinked. -/
def Linked (w : World) (child : SessionId) (id : TaskId) : Prop :=
  ∃ s, w.session child = some s ∧ s.orchestration_task_id = some id

/-! ## What single calls do to links -/

section Answers

variable {w w' : World}

theorem Exec.spawn_failure {id : TaskId} {error : String} {limit : Nat}
    {status : OrchestrationTaskStatus}
    (h : Exec w (.record_orchestration_spawn_failure id error limit) (.ok status) w') :
    ∃ t t', w.task id = some t ∧ w'.task id = some t' ∧ t'.child_session_id = none ∧
      t'.status = status := by
  obtain ⟨x, hx⟩ := h.served
  simp only [serve, record_orchestration_spawn_failure] at hx
  split at hx
  · cases hx
  next t ht =>
  obtain ⟨rfl, hr⟩ := Prod.mk.inj hx
  simp [World.task, Table.get?_update_self, ht, Except.ok.inj hr]

theorem Exec.create {source child : SessionId} {mode : CreateSessionMode} {project : Nat}
    (h : Exec w (.create_session source mode project) (.ok child) w') :
    w'.session child = some (reserved_session project mode) ∧ w.session child = none := by
  obtain ⟨x, hx⟩ := h.served
  simp only [serve, create_session] at hx
  split at hx
  · cases hx
  split at hx
  · cases hx
  split at hx
  · cases hx
  split at hx
  · next hnone =>
    cases hx
    exact ⟨by simp [World.session, Table.get?_insert], hnone⟩
  · cases hx

/-- How a session stops naming a subtask. -/
theorem Linked.exec {call : Call} {reply : Except String (Reply call)} {child : SessionId}
    {id : TaskId} (h : Linked w child id) (hx : Exec w call reply w') :
    Linked w' child id ∨
      (∃ task, (⟨call, reply⟩ : RunEvent) = ⟨.upsert_orchestration_task task, .ok id⟩) ∨
      (∃ error limit status, (⟨call, reply⟩ : RunEvent) =
        ⟨.record_orchestration_spawn_failure id error limit, .ok status⟩) ∨
      (⟨call, reply⟩ : RunEvent) = ⟨.detach_orchestration_child child, .ok true⟩ := by
  obtain ⟨s, hs, hlink⟩ := h
  obtain ⟨s', hs', hmove⟩ := hx.session_of_some hs
  cases hmove with
  | @unlinked_upsert task task_id h =>
    cases h.symm.trans hlink
    exact .inr (.inl ⟨task, rfl⟩)
  | @unlinked_failure task_id error limit status h =>
    cases h.symm.trans hlink
    exact .inr (.inr (.inl ⟨error, limit, status, rfl⟩))
  | detached h _ => exact .inr (.inr (.inr rfl))
  | _ => exact .inl ⟨_, hs', hlink⟩

end Answers

variable {child : SessionId} {id : TaskId}

theorem Linked.env {w w' : World} {m : EnvMove} (h : Linked w child id)
    (henv : Orchestration.env w m = some w') : Linked w' child id := by
  obtain ⟨s, hs, hlink⟩ := h
  obtain ⟨s', hs', hmove⟩ := env_session_of_some henv hs
  exact ⟨s', hs', hmove.link.trans hlink⟩

variable {K : Configuration → HostLabel → Prop} {cfg : Configuration}

/-- **A subtask has one child at a time**: the unique index of
`session.orchestration_task_id`. -/
theorem linked_unique (h : Reachable K cfg) {child' : SessionId} (hc : Linked cfg.world child id)
    (hc' : Linked cfg.world child' id) : child = child' := by
  refine reachable_world (fun w => ∀ child child' id, Linked w child id → Linked w child' id →
    child = child') h ?_ ?_ ?_ child child' id hc hc'
  · rintro child child' id ⟨s, hs, -⟩
    cases hs
  · rintro cfg w' a l call reply _ _ ih _ hx child child' id ⟨s, hs, hlink⟩ ⟨s', hs', hlink'⟩
    rcases hx.session hs with ⟨s₀, hs₀, hmove⟩ | hborn
    · rcases hx.session hs' with ⟨s₀', hs₀', hmove'⟩ | hborn'
      · exact ih child child' id ⟨s₀, hs₀, hmove.link hlink⟩ ⟨s₀', hs₀', hmove'.link hlink'⟩
      · cases hborn' with
        | fresh _ hfresh =>
          exact absurd ((hmove.link hlink).trans hlink'.symm) (hfresh child s₀ hs₀)
    · cases hborn with
      | fresh _ hfresh =>
        rcases hx.session hs' with ⟨s₀', hs₀', hmove'⟩ | hborn'
        · exact absurd ((hmove'.link hlink').trans hlink.symm) (hfresh child' s₀' hs₀')
        · cases hborn'
          rfl
  · rintro w w' m henv ih child child' id ⟨s, hs, hlink⟩ ⟨s', hs', hlink'⟩
    rcases env_session henv hs with ⟨s₀, hs₀, hmove⟩ | ⟨-, project, orchestrator, rfl⟩
    · rcases env_session henv hs' with ⟨s₀', hs₀', hmove'⟩ | ⟨-, project, orchestrator, rfl⟩
      · exact ih child child' id ⟨s₀, hs₀, hmove.link ▸ hlink⟩ ⟨s₀', hs₀', hmove'.link ▸ hlink'⟩
      · cases hlink'
    · cases hlink

/-! ## Linking -/

/-- The newest call of the pass has made or found a child of the subtask. -/
def Obtained (l : RunLog) (id : TaskId) (child : SessionId) : Prop :=
  (∃ source mode project l', l = ⟨.create_session source mode project, .ok child⟩ :: l' ∧
    mode.task_id = id) ∨
  ∃ l', l = ⟨.load_child_session_id_for_task id, .ok (some child)⟩ :: l'

variable {l : RunLog}

theorem obtained_cons {call : Call} {reply : Except String (Reply call)} {w w' : World}
    (h : Obtained (⟨call, reply⟩ :: l) id child) (hx : Exec w call reply w') :
    Linked w' child id := by
  rcases h with ⟨source, mode, project, l', he, rfl⟩ | ⟨l', he⟩
  · obtain ⟨he, -⟩ := List.cons.inj he
    cases he
    exact ⟨_, hx.create.1, rfl⟩
  · obtain ⟨he, -⟩ := List.cons.inj he
    cases he
    obtain ⟨x, hserved⟩ := hx.served
    obtain ⟨rfl, hfind⟩ := Prod.mk.inj hserved
    obtain ⟨⟨id', s⟩, hrow, rfl⟩ := Option.map_eq_some_iff.mp (Except.ok.inj hfind)
    have hp := List.find?_some hrow
    exact ⟨s, Table.get?_eq_some_iff.mpr (List.mem_of_find?_eq_some hrow), by simpa using hp⟩

variable {rows : List SessionOrchestrationTaskRow} {r : SessionOrchestrationTaskRow}

theorem TaskCall.obtained {c : SessionOrchestrationRow}
    (h : TaskCall c rows r l (.link_orchestration_task_child id child)) : Obtained l id child := by
  cases h with
  | recover_link => exact .inr ⟨_, rfl⟩
  | link _ _ _ hmode => exact .inl ⟨_, _, _, _, rfl, hmode⟩

/-- Between obtaining a child and linking it, the child names the subtask, or
the subtask is no longer being created. -/
theorem obtained_linked (h : Reachable K cfg) (hl : cfg.log .coordinator = some l)
    (ho : Obtained l id child) :
    Linked cfg.world child id ∨ ∀ t, cfg.world.task id = some t → t.status ≠ .Creating := by
  refine reachable_logs (fun w a l => ∀ id child, a = .coordinator → Obtained l id child →
    Linked w child id ∨ ∀ t, w.task id = some t → t.status ≠ .Creating) h ?_ ?_ ?_ ?_
    _ l hl id child rfl ho
  · rintro w a id child - (⟨source, mode, project, l', he, -⟩ | ⟨l', he⟩) <;> cases he
  · exact fun cfg w' a l call reply _ _ _ _ hx id child _ ho => .inl (obtained_cons ho hx)
  · intro cfg w' a l b l₀ call reply hreach _ ih hb hl₀ hJ hx id child ha ho
    rcases ih id child ha ho with hlinked | hstatus
    · have hlinked₀ := hlinked
      rcases hlinked.exec hx with h | ⟨task, he⟩ | ⟨error, limit, status, he⟩ | he
      · exact .inl h
      · cases he
        refine .inr fun t ht hs => ?_
        rcases hx.upsert.1 with ⟨-, h⟩ | ⟨t₀, -, -, -, h⟩ <;>
          · rw [ht] at h
            rw [Option.some.inj h] at hs
            cases hs
      · -- only the pass itself records spawn failures
        cases he
        exact absurd ((hJ.of_task_call rfl).1.trans ha.symm) hb
      · cases he
        refine .inr fun t ht hs => ?_
        obtain ⟨s, hs', hlink⟩ := hlinked₀
        obtain ⟨t₀, ht₀⟩ := linked_task hreach hs' hlink
        rw [Option.some.inj (ht.symm.trans (hx.detach hs' hlink ht₀))] at hs
        cases hs
    · refine .inr fun t' ht' hs' => ?_
      rcases hx.task ht' with ⟨t, ht, hmove⟩ | hborn
      · rcases hmove.to_creating hs' with hs | ⟨-, he⟩ | ⟨error, he⟩
        · exact hstatus t ht hs
        · cases he
          exact hb ((hJ.of_task_call rfl).1.trans ha.symm)
        · cases he
          rcases hJ.proposes_or_ne with ⟨h, -⟩ | ⟨-, -, h⟩
          · cases h
          · exact h rfl
      · cases hborn with
        | fresh _ _ _ => cases hs'
  · intro w w' m a l henv ih id child ha ho
    rcases ih id child ha ho with h | h
    · exact .inl (h.env henv)
    · rw [World.task, env_tasks henv]
      exact .inr h

/-- **What a subtask names as its child names the subtask.** -/
theorem child_linked (h : Reachable K cfg) {t : Task} (ht : cfg.world.task id = some t)
    (hchild : t.child_session_id = some child) : Linked cfg.world child id := by
  refine reachable_world (fun w => ∀ id t child, w.task id = some t →
    t.child_session_id = some child → Linked w child id) h ?_ ?_ ?_ id t child ht hchild
  · intro id t child ht
    cases ht
  · intro cfg w' a l call reply hreach hl ih hJ hx id t' child ht' hchild
    -- it was so before the call, or has just been linked
    have hlinked : Linked cfg.world child id := by
      rcases hx.task ht' with ⟨t, ht, hmove⟩ | hborn
      · cases hmove with
        | linked _ hs =>
          cases hchild
          obtain ⟨rfl, c, rows, r, hat, hcall⟩ := hJ.of_task_call rfl
          exact (obtained_linked hreach hl hcall.obtained).resolve_right fun h => h t ht hs
        | spawn_failed | detached | upserted => cases hchild
        | _ => exact ih id _ child ht hchild
      · cases hborn with
        | fresh _ _ _ => cases hchild
    have hlinked₀ := hlinked
    rcases hlinked.exec hx with h | ⟨task, he⟩ | ⟨error, limit, status, he⟩ | he
    · exact h
    · cases he
      rcases hx.upsert.1 with ⟨-, h⟩ | ⟨t₀, -, -, -, h⟩ <;>
        · rw [ht'] at h
          rw [Option.some.inj h] at hchild
          cases hchild
    · cases he
      obtain ⟨t₀, t₁, -, ht₁, hnone, -⟩ := hx.spawn_failure
      rw [Option.some.inj (ht'.symm.trans ht₁), hnone] at hchild
      cases hchild
    · cases he
      obtain ⟨s, hs, hlink⟩ := hlinked₀
      obtain ⟨t₀, ht₀⟩ := linked_task hreach hs hlink
      rw [Option.some.inj (ht'.symm.trans (hx.detach hs hlink ht₀))] at hchild
      cases hchild
  · intro w w' m henv ih id t child ht hchild
    rw [World.task, env_tasks henv] at ht
    exact (ih id t child ht hchild).env henv

/-- **The child of a row that a program has read names the same subtask, or
none.** -/
theorem row_child (h : Reachable K cfg) {a : Actor} (hl : cfg.log a = some l) {cid : CampaignId}
    (hlist : snapshot l = some (cid, rows)) (hr : r ∈ rows)
    (hchild : r.child_session_id = some child) :
    ∃ s, cfg.world.session child = some s ∧
      ∀ id, s.orchestration_task_id = some id → id = r.id := by
  refine reachable_logs (fun w _ l => ∀ cid rows, snapshot l = some (cid, rows) → ∀ r ∈ rows,
    ∀ child, r.child_session_id = some child → ∃ s, w.session child = some s ∧
      ∀ id, s.orchestration_task_id = some id → id = r.id) h ?_ ?_ ?_ ?_ a l hl cid rows hlist r hr
    child hchild
  · intro w a cid rows hlist
    cases hlist
  · intro cfg w' a l call reply hreach hl ih hJ hx cid rows hlist r hr child hchild
    rcases snapshot_cons_eq_some hlist with he | ⟨-, hlist⟩
    · cases he
      obtain ⟨rfl, t, ht, -, hrow⟩ := hx.row_of_load_tasks hr
      have hchild' : t.child_session_id = some child := by rw [← hchild, hrow]; rfl
      obtain ⟨s, hs, hlink⟩ := child_linked hreach ht hchild'
      exact ⟨s, hs, fun id hid => Option.some.inj (hid.symm.trans hlink)⟩
    · obtain ⟨s, hs, hid⟩ := ih cid rows hlist r hr child hchild
      obtain ⟨s', hs', hmove⟩ := hx.session_of_some hs
      exact ⟨s', hs', fun id h => hid id (hmove.link h)⟩
  · intro cfg w' a l b l₀ call reply _ _ ih _ _ _ hx cid rows hlist r hr child hchild
    obtain ⟨s, hs, hid⟩ := ih cid rows hlist r hr child hchild
    obtain ⟨s', hs', hmove⟩ := hx.session_of_some hs
    exact ⟨s', hs', fun id h => hid id (hmove.link h)⟩
  · intro w w' m a l henv ih cid rows hlist r hr child hchild
    obtain ⟨s, hs, hid⟩ := ih cid rows hlist r hr child hchild
    obtain ⟨s', hs', hmove⟩ := env_session_of_some henv hs
    exact ⟨s', hs', fun id h => hid id (hmove.link ▸ h)⟩

/-! ## The tables together -/

/-- The rows of the three tables belong to each other. -/
structure Consistent (w : World) : Prop where
  campaign : ∀ id t, w.task id = some t → ∃ k, w.campaign t.session_orchestration_id = some k
  key : ∀ id id' t t', w.task id = some t → w.task id' = some t' →
    t.session_orchestration_id = t'.session_orchestration_id → t.task_key = t'.task_key → id = id'
  /-- The child of a subtask was created for it, -/
  child : ∀ id t child, w.task id = some t → t.child_session_id = some child → Linked w child id
  /-- for a subtask that exists, -/
  parent : ∀ child id, Linked w child id → ∃ t, w.task id = some t
  /-- and no other session is. -/
  one_child : ∀ child child' id, Linked w child id → Linked w child' id → child = child'
  one_parent : ∀ id id' t t' child, w.task id = some t → w.task id' = some t' →
    t.child_session_id = some child → t'.child_session_id = some child → id = id'

/-- **The tables are consistent** in every run, whichever calls fail or are never made. -/
theorem tables_are_consistent (h : Reachable K cfg) : Consistent cfg.world where
  campaign _ _ ht := task_campaign h ht
  key _ _ _ _ ht ht' := keys_unique h ht ht'
  child _ _ _ ht hchild := child_linked h ht hchild
  parent child id := by
    rintro ⟨s, hs, hlink⟩
    exact linked_task h hs hlink
  one_child _ _ _ hc hc' := linked_unique h hc hc'
  one_parent id id' t t' child ht ht' hchild hchild' := by
    obtain ⟨s, hs, hlink⟩ := child_linked h ht hchild
    obtain ⟨s', hs', hlink'⟩ := child_linked h ht' hchild'
    cases hs.symm.trans hs'
    exact Option.some.inj (hlink.symm.trans hlink')

/-- Two subtasks with their children. -/
theorem tables_are_consistent_started : ∃ cfg, Reachable System.anyStep cfg ∧
    (cfg.world.task 1).bind (·.child_session_id) = some "x" ∧
    (cfg.world.task 2).bind (·.child_session_id) = some "y" ∧ Consistent cfg.world := by
  have hrun : (host.run start started_campaign).any (fun cfg =>
      (cfg.world.task 1).bind (·.child_session_id) = some "x" ∧
      (cfg.world.task 2).bind (·.child_session_id) = some "y") = true := by
    decide +kernel
  obtain ⟨cfg, hreach, hx, hy⟩ := System.exists_reaches_of_run _ hrun
  exact ⟨cfg, hreach, hx, hy, tables_are_consistent hreach⟩

end Agentty.Orchestration
