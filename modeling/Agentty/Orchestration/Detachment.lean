/-
A detached subtask stays detached, as long as no pass may still write it.

`detach_orchestration_child` moves the subtask to `Detached` and unlinks its
child in one transaction. The guarded writes of the other functions refuse a
detached row, but the coordinator writes statuses and spawn failures by id, from
the row it read at the start of its pass. A stale pass that has read the row in a
state it acts on overwrites the detachment; one that has not leaves it alone.
-/
import Agentty.Orchestration.Facts

set_option autoImplicit false

namespace Agentty.Orchestration

/-- The entry is the detachment of a subtask's child. -/
def detaches (id : TaskId) : HostEntry → Bool
  | ⟨_, .detach_orchestration_child child, .ok detached, before⟩ =>
    detached && (before.session child).any (·.orchestration_task_id = some id)
  | _ => false

/-- The subtask's child was detached, and no plan has upserted it since. -/
def detached_since (id : TaskId) : List HostEntry → Bool := since (detaches id) (upserts id)

variable {id : TaskId}

theorem detaches_eq_true {e : HostEntry} (h : detaches id e = true) :
    ∃ child s, e.event = ⟨.detach_orchestration_child child, .ok true⟩ ∧
      e.before.session child = some s ∧ s.orchestration_task_id = some id := by
  unfold detaches at h
  split at h
  · obtain ⟨rfl, hany⟩ := Bool.and_eq_true_iff.mp h
    obtain ⟨s, hs, hlink⟩ := (Option.any_eq_true _ _).mp hany
    exact ⟨_, s, rfl, hs, of_decide_eq_true hlink⟩
  · cases h

/-- A child is detached only while no pass in flight may still write its
subtask from the row it has read, and no turn is about to park it. -/
def DetachesUnwritten (cfg : Configuration) : HostLabel → Prop
  | .call a _ => ∀ child s id, cfg.next a = some (.detach_orchestration_child child) →
      cfg.world.session child = some s → s.orchestration_task_id = some id →
      (∀ l c rows r, cfg.log .coordinator = some l → At l c rows r → r.id = id → ¬ Writable c r) ∧
        ¬ Pending cfg id
  | _ => True

/-- What holds of a subtask that was detached. -/
structure DetachedInv (cfg : Configuration) (id : TaskId) : Prop where
  task : ∃ t, cfg.world.task id = some t ∧ t.status = .Detached ∧ t.child_session_id = none
  /-- No pass in flight may write it. -/
  pass : ∀ l c rows r, cfg.log .coordinator = some l → At l c rows r → r.id = id → ¬ Writable c r
  /-- No turn in flight may park it. -/
  turn : ¬ Pending cfg id
  /-- A cancellation in flight has read it as settled. -/
  app : ∀ l cid rows r, cfg.log .app = some l → snapshot l = some (cid, rows) → r ∈ rows →
    r.id = id → r.status.is_settled = true

variable {a : Actor} {l : RunLog}

variable {cfg cfg' : Configuration}

theorem detachedInv_of_detach {K : Configuration → HostLabel → Prop} {x : Choice}
    {child : SessionId} {s : Session} (hreach : Reachable K cfg)
    (hK : DetachesUnwritten cfg (.call a x))
    (h : Called cfg cfg' a (.detach_orchestration_child child) (.ok true) l)
    (hs : cfg.world.session child = some s) (hlink : s.orchestration_task_id = some id) :
    DetachedInv cfg' id := by
  obtain ⟨rfl, rfl⟩ : a = .app ∧ l = [] := by
    have hjustified := h.justified
    cases a with
    | coordinator =>
      cases hjustified with
      | campaign _ h =>
        cases h with
        | task _ _ _ h => cases h
    | app => cases hjustified; exact ⟨rfl, rfl⟩
    | controller sid => cases hjustified
  obtain ⟨hpass, hturn⟩ := hK child s id h.next hs hlink
  obtain ⟨t, ht⟩ := linked_task hreach hs hlink
  refine ⟨⟨_, h.exec.detach hs hlink ht, rfl, rfl⟩, fun l c rows r hl => ?_, ?_, ?_⟩
  · rw [h.others .coordinator (by simp)] at hl
    exact hpass l c rows r hl
  · exact fun hp => hturn (hp.of_called h fun task he => by cases he)
  · intro l cid rows r hl hlist
    rw [h.own l hl] at hlist
    cases hlist

section

variable {c : Call} {r : Except String (Reply c)} (ih : DetachedInv cfg id)
  (h : Called cfg cfg' a c r l)
  (hne : ∀ task, (⟨c, r⟩ : RunEvent) ≠ ⟨.upsert_orchestration_task task, .ok id⟩)

include ih h hne

/-- **No call writes a detached subtask**, unless it upserts it. -/
theorem DetachedInv.task_exec :
    ∃ t, cfg'.world.task id = some t ∧ t.status = .Detached ∧ t.child_session_id = none := by
  obtain ⟨t, ht, hs, hchild⟩ := ih.task
  obtain ⟨t', ht', hmove⟩ := h.exec.task_of_some ht
  refine ⟨t', ht', ?_⟩
  have hJ := h.justified
  cases hmove with
  | keep | judged | summarized | reported => exact ⟨hs, hchild⟩
  | detached _ _ _ => exact ⟨rfl, rfl⟩
  -- the guards of these refuse a detached row
  | approved _ hs' => rw [hs] at hs'; cases hs'
  | admitted _ hs' _ => rw [hs] at hs'; cases hs'
  | claimed _ hs' => rw [hs] at hs'; cases hs'
  | linked _ hs' => rw [hs] at hs'; cases hs'
  | review_claimed hs' _ => rw [hs] at hs'; cases hs'
  | continued hs' _ => rw [hs] at hs'; simp at hs'
  | reset hs' => rw [hs] at hs'; cases hs'
  -- these have no guard
  | written =>
    rcases hJ.of_task_status with ⟨rfl, c, rows, row, hat, hcall⟩ |
      ⟨rfl, -, c, rows, row, hcan, hid, -⟩ | ⟨sid, task, l', rfl, -, rfl⟩
    · obtain ⟨hid, hw⟩ := hcall.statusWritable
      exact absurd (.inl hw) (ih.pass l c rows row h.log hat hid)
    · have hsettled := ih.app l c.id rows row h.log hcan.list hcan.mem hid
      rw [hcan.unsettled] at hsettled
      cases hsettled
    · exact absurd ⟨sid, task, l', h.log⟩ ih.turn
  | spawn_failed _ =>
    obtain ⟨rfl, c, rows, row, hat, hcall⟩ := hJ.of_task_call rfl
    obtain ⟨hid, hw⟩ := hcall.spawnWritable
    exact absurd (.inr hw) (ih.pass l c rows row h.log hat hid)
  | @upserted task _ _ => exact absurd rfl (hne task)

/-- What was detached stays so over a call that does not upsert it. -/
theorem DetachedInv.call : DetachedInv cfg' id := by
  obtain ⟨t, ht, hs, hchild⟩ := ih.task
  -- a list that is read now has the detached row
  have hrow : ∀ cid rows row, (⟨c, r⟩ : RunEvent) = ⟨.load_orchestration_tasks cid, .ok rows⟩ →
      row ∈ rows → row.id = id → row.status = .Detached ∧ row.child_session_id = none := by
    intro cid rows row he hrow hid
    have hx := h.exec
    cases he
    obtain ⟨-, t', ht', -, hrow'⟩ := hx.row_of_load_tasks hrow
    rw [hid, ht] at ht'
    cases ht'
    rw [hrow']
    exact ⟨hs, hchild⟩
  refine ⟨ih.task_exec h hne, fun l' c' rows row hl hat hid => ?_, ?_,
    fun l' cid rows row hl hlist hmem hid => ?_⟩
  · rcases h.at_cases hl hat with ⟨-, -, he⟩ | ⟨l₀, hl₀, hat₀⟩
    · obtain ⟨hs', hchild'⟩ := hrow _ _ row he hat.mem hid
      rintro ((⟨-, h⟩ | ⟨-, h⟩ | ⟨-, h⟩) | ⟨-, -, h⟩)
      · simp [hs', hchild'] at h
      · simp [hs'] at h
      · simp [hs', OrchestrationTaskStatus.is_settled] at h
      · simp [hs'] at h
    · exact ih.pass l₀ c' rows row hl₀ hat₀ hid
  · exact fun hp => ih.turn (hp.of_called h hne)
  · rcases h.log_cases hl with ⟨rfl, rfl⟩ | ⟨-, hl⟩
    · rcases snapshot_cons_eq_some hlist with he | ⟨-, hlist⟩
      · rw [(hrow _ _ row he hmem hid).1]
        rfl
      · exact ih.app l cid rows row h.log hlist hmem hid
    · exact ih.app l' cid rows row hl hlist hmem hid

end

theorem DetachedInv.quiet {lab : HostLabel} (ih : DetachedInv cfg id) (h : Quiet cfg cfg' lab) :
    DetachedInv cfg' id := by
  refine ⟨by rw [h.tasks]; exact ih.task, fun l c rows r hl hat => ?_, ?_,
    fun l cid rows r hl hlist => ?_⟩
  · rcases h.logs _ l hl with rfl | hl
    · exact absurd hat not_at_nil
    · exact ih.pass l c rows r hl hat
  · exact fun hp => ih.turn (hp.of_quiet h)
  · rcases h.logs _ l hl with rfl | hl
    · cases hlist
    · exact ih.app l cid rows r hl hlist

/-- **A detached subtask stays detached.** In a run in which a child is detached
only while no pass may still write its subtask, the subtask is `Detached` without
a child from then on, until a plan upserts it. -/
theorem detached_stays {cfg : Configuration} (h : Reachable DetachesUnwritten cfg) {id : TaskId}
    (hd : detached_since id cfg.trace = true) :
    ∃ t, cfg.world.task id = some t ∧ t.status = .Detached ∧ t.child_session_id = none := by
  have hinv : ∀ id, detached_since id cfg.trace = true → DetachedInv cfg id := by
    refine reachable_steps (fun cfg => ∀ id, detached_since id cfg.trace = true →
      DetachedInv cfg id) h ?_ ?_ ?_
    · intro id hd
      cases hd
    · intro cfg cfg' lab _ ih _ hq id hd
      rw [hq.trace] at hd
      exact (ih id hd).quiet hq
    · intro cfg cfg' a x c r l hreach ih hK hc _ id hd
      rw [hc.trace] at hd
      rcases since_cons.mp hd with hon | ⟨hoff, hd⟩
      · obtain ⟨child, s, he, hs, hlink⟩ := detaches_eq_true hon
        cases he
        exact detachedInv_of_detach hreach hK hc hs hlink
      · exact (ih id hd).call hc fun task he => upserts_eq_false hoff task he
  exact (hinv id hd).task

/-! ### A run that meets the condition, and one that does not -/

/-- The app detaches alone. -/
def detaches_alone : Call → Option Actor
  | .detach_orchestration_child _ => some .app
  | _ => none

theorem detachesUnwritten_of_alone (cfg : Configuration) (lab : HostLabel)
    (h : Alone detaches_alone cfg lab) : DetachesUnwritten cfg lab := by
  cases lab with
  | call a x =>
    intro child s id hnext _ _
    have hidle := (h _ .app hnext rfl).2
    refine ⟨fun l c rows r hl => ?_, ?_⟩
    · rw [hidle _ (by simp)] at hl
      cases hl
    · rintro ⟨sid, task, l, hl⟩
      rw [hidle _ (by simp)] at hl
      cases hl
  | _ => trivial

/-- The child of the first subtask asks a question. -/
def asking_campaign : List HostLabel :=
  started_campaign
    ++ [.env (.session_status "x" .InProgress), .env (.session_status "x" .Question)]

/-- The user detaches the asking child between two passes. -/
theorem detached_stays_run : ∃ cfg, Reachable DetachesUnwritten cfg ∧
    detached_since 1 cfg.trace = true ∧
    ∃ t, cfg.world.task 1 = some t ∧ t.status = .Detached ∧ t.child_session_id = none := by
  have hrun : (host.runIf (alone detaches_alone) start (asking_campaign ++ [.start (.detach "x")]
      ++ steps .app 1 ++ [.start .reconcile] ++ steps .coordinator 3)).any
      (fun cfg => detached_since 1 cfg.trace = true) = true := by
    decide +kernel
  obtain ⟨cfg, hreach, -, hd⟩ := exists_reachable_alone detachesUnwritten_of_alone hrun
  exact ⟨cfg, hreach, hd, detached_stays hreach hd⟩

/-- A pass has read the subtask before the user detaches its asking child, and
then writes `WaitingForInput`. -/
theorem detached_subtask_overwritten : ∃ cfg, Reachable System.anyStep cfg ∧
    detached_since 1 cfg.trace = true ∧
    (cfg.world.task 1).map (fun t => (t.status, t.child_session_id)) =
      some (.WaitingForInput, none) := by
  apply System.exists_reaches_of_run (asking_campaign ++ [.start .reconcile] ++ steps .coordinator 2
    ++ [.start (.detach "x")] ++ steps .app 1 ++ steps .coordinator 1)
  decide +kernel

end Agentty.Orchestration
