/-
A research subtask never takes part in review or integration, as long as no plan
turns an implementation subtask into a research one while a pass may still write
it.

Review, continuation and integration are for subtasks with a branch. Every path of
the coordinator asks for the kind of the row it has read, and the guarded moves of
the repository start from statuses that a research subtask does not have. What is
left is a key that changes its kind: the upsert of a retried plan does not look at
the old kind, and a pass that has read the old row writes by id.
-/
import Agentty.Orchestration.TurnFacts

set_option autoImplicit false

namespace Agentty.Orchestration

/-- The statuses of review, continuation and integration: those of subtasks with a
branch. -/
def is_branch_status : OrchestrationTaskStatus → Bool
  | .Ready | .Reviewing | .ReviewApplying | .ContinuationPending | .AwaitingIntegration
  | .Merging | .Integrated | .ReviewRequested | .IntegrationFailed => true
  | _ => false

/-- A plan turns an implementation subtask into a research one only while the
row that a pass in flight works from leaves it no status to write. -/
def ChangesKindUnwritten (cfg : Configuration) : HostLabel → Prop
  | .call a _ => ∀ task id t, cfg.next a = some (.upsert_orchestration_task task) →
      task.kind = .Research → cfg.world.task id = some t →
      t.session_orchestration_id = task.session_orchestration_id → t.task_key = task.task_key →
      t.kind = .Implementation →
      ∀ l c rows r, cfg.log .coordinator = some l → At l c rows r → r.id = id → ¬ StatusWritable c r
  | _ => True

/-- What holds of a research subtask. -/
structure KindInv (cfg : Configuration) (id : TaskId) : Prop where
  task : ∀ t, cfg.world.task id = some t → t.kind = .Research → is_branch_status t.status = false
  /-- A row that was read as one has such a status, too. -/
  row : ∀ l c rows r, cfg.log .coordinator = some l → At l c rows r → r.id = id →
    r.kind = .Research → is_branch_status r.status = false
  /-- A pass has read it as one, or does not write it. -/
  pass : ∀ l c rows r t, cfg.log .coordinator = some l → At l c rows r → r.id = id →
    cfg.world.task id = some t → t.kind = .Research → r.kind = .Research ∨ ¬ StatusWritable c r

/-- The statuses a pass writes for a row that it has read as a research subtask. -/
theorem TaskCall.research_stays {c : SessionOrchestrationRow}
    {rows : List SessionOrchestrationTaskRow} {r : SessionOrchestrationTaskRow} {l : RunLog}
    {id : TaskId} {status : OrchestrationTaskStatus} {error : Option String}
    (h : TaskCall c rows r l (.update_orchestration_task_status id status error))
    (hkind : r.kind = .Research) (hr : is_branch_status r.status = false) :
    is_branch_status status = false := by
  have hbranch : ¬ FollowsBranch r := by
    rintro (h | h | h)
    · rw [hkind] at h
      cases h
    · simp [h, is_branch_status] at hr
    · simp [h, is_branch_status] at hr
  cases h with
  | follow _ _ hs _ =>
    cases hs with
    | review _ _ hf => exact absurd hf hbranch
    | @mapped child_status _ hreview hf =>
      cases child_status with
      | Merged | Done => exact absurd (hf rfl) hbranch
      | Review => exact absurd rfl hreview.1
      | AgentReview => exact absurd rfl hreview.2
      | _ => rfl
  | lost | reported | canceled => rfl
  | integrate _ hs =>
    cases hs with
    | merged h | closed h | integrated h | merging h => simp [h, is_branch_status] at hr
    | settle h _ _ => rcases h with h | h <;> simp [h, is_branch_status] at hr

section Step

variable {cfg cfg' : Configuration} {a : Actor} {call : Call}
  {reply : Except String (Reply call)} {l : RunLog} {id : TaskId}

theorem KindInv.task_call (ih : KindInv cfg id) (hc : Called cfg cfg' a call reply l) {t t' : Task}
    (ht : cfg.world.task id = some t) (hmove : TaskMove cfg.world id t call reply t')
    (hkind : t'.kind = .Research) : is_branch_status t'.status = false := by
  have hJ := hc.justified
  -- a guard that asks for such a status does not let a research subtask pass
  have hguard : ∀ s, t.status = s → is_branch_status s = true → t.kind ≠ .Research := by
    rintro s rfl hs hkind
    rw [ih.task t ht hkind] at hs
    cases hs
  cases hmove with
  | upserted | approved | claimed | linked | detached => rfl
  | written =>
    rcases hJ.of_task_status with ⟨rfl, c, rows, r, hat, hcall⟩ | ⟨-, rfl, -⟩ | ⟨-, -, -, -, rfl, -⟩
    · obtain ⟨hid, hw⟩ := hcall.statusWritable
      rcases ih.pass l c rows r t hc.log hat hid ht hkind with hr | hr
      · exact hcall.research_stays hr (ih.row l c rows r hc.log hat hid hr)
      · exact absurd hw hr
    · rfl
    · rfl
  | spawn_failed hs => rcases hs with rfl | rfl <;> rfl
  | admitted _ hs | review_claimed hs | reset hs => exact absurd hkind (hguard _ hs rfl)
  | continued hs _ => rcases hs with hs | hs | hs <;> exact absurd hkind (hguard _ hs rfl)
  | _ => exact ih.task t ht hkind

theorem TaskMove.kind {w : World} {t t' : Task} (h : TaskMove w id t call reply t') :
    t'.kind = t.kind ∨
      ∃ task, (⟨call, reply⟩ : RunEvent) = ⟨.upsert_orchestration_task task, .ok id⟩ ∧
      t'.kind = task.kind ∧ t.session_orchestration_id = task.session_orchestration_id ∧
      t.task_key = task.task_key := by
  cases h with
  | @upserted task hid hkey => exact .inr ⟨task, rfl, rfl, hid.symm, hkey.symm⟩
  | _ => exact .inl rfl

theorem KindInv.step {K : Configuration → HostLabel → Prop} {x : Choice} (hreach : Reachable K cfg)
    (ih : KindInv cfg id)
    (hK : ChangesKindUnwritten cfg (.call a x)) (hc : Called cfg cfg' a call reply l) :
    KindInv cfg' id := by
  -- what holds of a row that has just been read
  have hread : ∀ c rows r, At (⟨call, reply⟩ :: l) c rows r → r.id = id →
      (⟨call, reply⟩ : RunEvent) = ⟨.load_orchestration_tasks c.id, .ok rows⟩ →
      ∃ t, cfg.world.task id = some t ∧ cfg'.world.task id = some t ∧ r.kind = t.kind ∧
        r.status = t.status := by
    intro c rows r hat hid he
    have hx := hc.exec
    cases he
    obtain ⟨hw, t, ht, -, hrow⟩ := hx.row_of_load_tasks hat.mem
    rw [hid] at ht hrow
    exact ⟨t, ht, by rw [hw]; exact ht, by rw [hrow]; rfl, by rw [hrow]; rfl⟩
  refine ⟨fun t' ht' hkind => ?_, fun l' c rows r hl hat hid hkind => ?_,
    fun l' c rows r t' hl hat hid ht' hkind => ?_⟩
  · rcases hc.exec.task ht' with ⟨t, ht, hmove⟩ | hborn
    · exact ih.task_call hc ht hmove hkind
    · cases hborn with
      | fresh _ _ _ => rfl
  · rcases hc.at_cases hl hat with ⟨ha, rfl, he⟩ | ⟨l₀, hl₀, hat₀⟩
    · subst ha
      obtain ⟨t, ht, -, hrkind, hrstatus⟩ := hread c rows r hat hid he
      rw [hrstatus]
      exact ih.task t ht (hrkind ▸ hkind)
    · exact ih.row l₀ c rows r hl₀ hat₀ hid hkind
  · -- what a pass has read about an older row, over one more call
    have hkeep : ∀ l₀, cfg.log .coordinator = some l₀ → At l₀ c rows r →
        r.kind = .Research ∨ ¬ StatusWritable c r := by
      intro l₀ hl₀ hat₀
      rcases hc.exec.task ht' with ⟨t, ht, hmove⟩ | hborn
      · rcases hmove.kind with h | ⟨task, he, htask, hcid, hkey⟩
        · exact ih.pass l₀ c rows r t hl₀ hat₀ hid ht (h.symm.trans hkind)
        · -- an upsert: from a research subtask, or under the condition
          by_cases hold : t.kind = .Research
          · exact ih.pass l₀ c rows r t hl₀ hat₀ hid ht hold
          have hnext := hc.next
          cases he
          refine .inr (hK task id t hnext (htask.symm.trans hkind) ht hcid hkey ?_ l₀ c rows r hl₀
            hat₀ hid)
          cases hk : t.kind with
          | Research => exact absurd hk hold
          | Implementation => rfl
      · cases hborn with
        | fresh hnone _ _ =>
          obtain ⟨t, ht, -⟩ := hat₀.known hreach hl₀
          rw [hid, hnone] at ht
          cases ht
    rcases hc.at_cases hl hat with ⟨ha, rfl, he⟩ | ⟨l₀, hl₀, hat₀⟩
    · subst ha
      obtain ⟨t, -, ht, hrkind, -⟩ := hread c rows r hat hid he
      cases ht.symm.trans ht'
      exact .inl (hrkind.trans hkind)
    · exact hkeep l₀ hl₀ hat₀

theorem KindInv.quiet {lab : HostLabel} (ih : KindInv cfg id) (hq : Quiet cfg cfg' lab) :
    KindInv cfg' id := by
  refine ⟨fun t ht => ?_, fun l c rows r hl hat => ?_, fun l c rows r t hl hat hid ht => ?_⟩
  · rw [hq.tasks] at ht
    exact ih.task t ht
  · rcases hq.logs _ l hl with rfl | hl
    · exact absurd hat not_at_nil
    · exact ih.row l c rows r hl hat
  · rw [hq.tasks] at ht
    rcases hq.logs _ l hl with rfl | hl
    · exact absurd hat not_at_nil
    · exact ih.pass l c rows r t hl hat hid ht

end Step

/-- **A research subtask has no status of review, continuation or integration**, in
every run in which a key changes to research only while no pass may still write
it. -/
theorem research_status {cfg : Configuration} (h : Reachable ChangesKindUnwritten cfg)
    {id : TaskId} {t : Task} (ht : cfg.world.task id = some t) (hkind : t.kind = .Research) :
    is_branch_status t.status = false := by
  have hinv : ∀ id, KindInv cfg id := by
    refine reachable_steps (fun cfg => ∀ id, KindInv cfg id) h ?_ ?_ ?_
    · intro id
      refine ⟨fun t ht => ?_, fun l c rows r hl => ?_, fun l c rows r t hl => ?_⟩
      · cases ht
      · cases hl
      · cases hl
    · exact fun cfg cfg' lab _ ih _ hq id => (ih id).quiet hq
    · exact fun cfg cfg' a x c r l hreach ih hK hc _ id => (ih id).step hreach hK hc
  exact (hinv id).task t ht hkind

/-! ### A run that meets the condition, and one that does not -/

/-- Turns upsert alone. -/
def upserts_alone : Call → Option Actor
  | .upsert_orchestration_task _ => some (.controller "k")
  | _ => none

theorem changesKindUnwritten_of_alone (cfg : Configuration) (lab : HostLabel)
    (h : Alone upserts_alone cfg lab) : ChangesKindUnwritten cfg lab := by
  cases lab with
  | call a x =>
    intro task id t hnext _ _ _ _ _ l c rows r hl
    rw [(h _ (.controller "k") hnext rfl).2 _ (by simp)] at hl
    cases hl
  | _ => trivial

/-- A subtask of a kind with a status. -/
def has_status (id : TaskId) (kind : OrchestrationTaskKind) (status : OrchestrationTaskStatus)
    (cfg : Configuration) : Bool :=
  (cfg.world.task id).any fun t => t.kind = kind && t.status = status

theorem has_status_eq_true {id : TaskId} {kind : OrchestrationTaskKind}
    {status : OrchestrationTaskStatus} {cfg : Configuration}
    (h : has_status id kind status cfg = true) :
    ∃ t, cfg.world.task id = some t ∧ t.kind = kind ∧ t.status = status := by
  obtain ⟨t, ht, h⟩ := (Option.any_eq_true _ _).mp h
  obtain ⟨hkind, hs⟩ := Bool.and_eq_true_iff.mp h
  exact ⟨t, ht, of_decide_eq_true hkind, of_decide_eq_true hs⟩

/-- A plan of two research subtasks; the child of the second has answered. -/
def research_campaign : List HostLabel :=
  [.env (.session_created "k" 1 true),
    .start (.controller_turn "k"
      (proposing [proposal .Research "a", proposal .Research "b"]))]
    ++ steps (.controller "k") 12 ++ [.start (.approve "k" none)] ++ steps .app 2
    ++ [.start .reconcile] ++ steps .coordinator 3 ++ [serves .coordinator "x"]
    ++ steps .coordinator 3 ++ [serves .coordinator "y"] ++ steps .coordinator 3
    ++ moved "y" [.InProgress, .Review]

/-- The research subtask is `Reported`. -/
theorem research_status_run : ∃ cfg t, Reachable ChangesKindUnwritten cfg ∧
    cfg.world.task 2 = some t ∧ t.kind = .Research ∧ t.status = .Reported ∧
    is_branch_status t.status = false := by
  have hrun : (host.runIf (alone upserts_alone) start (research_campaign ++ [.start .reconcile]
      ++ steps .coordinator 5)).any (fun cfg => has_status 2 .Research .Reported cfg = true)
        = true := by
    decide +kernel
  obtain ⟨cfg, hreach, -, hshows⟩ := exists_reachable_alone changesKindUnwritten_of_alone hrun
  obtain ⟨t, ht, hkind, hs⟩ := has_status_eq_true hshows
  exact ⟨cfg, t, hreach, ht, hkind, hs, research_status hreach ht hkind⟩

/-- The second subtask is ready and its child canceled, the first child has been
merged by the user. A turn continues the second subtask while the user cancels
the campaign: it has read the campaign before and sets it running again. A pass
that was in flight then finds every subtask settled; just before its roll-up the
cancellation writes the first subtask, and the process is killed. -/
def revived_campaign : List HostLabel :=
  started_campaign ++ moved "k" [.InProgress, .Review] ++ moved "y" [.InProgress, .Review]
    ++ [.start .reconcile] ++ steps .coordinator 5
    ++ moved "x" [.InProgress, .Review, .Queued, .Merging, .Done] ++ moved "y" [.Canceled]
    ++ [.start (.controller_turn "k"
      (proposing [{ proposal .Implementation "b" with prompt := "more" }]))]
    ++ steps (.controller "k") 3 ++ [.start .reconcile] ++ steps .coordinator 2
    ++ [.start (.cancel "k")] ++ steps .app 4 ++ steps (.controller "k") 2 ++ steps .coordinator 4
    ++ steps .app 1 ++ steps .coordinator 1 ++ [.crash]

/-- The roll-up is worked off and the campaign done, with one subtask canceled and
one failed. The controller retries the first one as a research subtask; the user
approves before it is upserted, and a pass reads the old row. -/
def retried_campaign : List HostLabel :=
  revived_campaign ++ [.start .reconcile] ++ steps .coordinator 4
    ++ [.env (.operation_status (.orchestration_rollup 1 1) .Done), .start .reconcile]
    ++ steps .coordinator 4 ++ moved "k" [.InProgress] ++ [.start .reconcile]
    ++ steps .coordinator 3
    ++ [.start (.controller_turn "k" (proposing [proposal .Research "a"]))]
    ++ steps (.controller "k") 7 ++ [.start (.approve "k" none)] ++ steps .app 2
    ++ [.start .reconcile] ++ steps .coordinator 2

/-- The turn makes the subtask a research one, and the pass writes `Ready` from the
child of the implementation subtask it was. -/
theorem research_subtask_ready : ∃ cfg t, Reachable System.anyStep cfg ∧
    cfg.world.task 1 = some t ∧ t.kind = .Research ∧ t.status = .Ready := by
  have hrun : (host.run start (retried_campaign ++ steps (.controller "k") 1
      ++ steps .coordinator 1)).any (fun cfg => has_status 1 .Research .Ready cfg = true)
        = true := by
    decide +kernel
  obtain ⟨cfg, hreach, hshows⟩ := System.exists_reaches_of_run _ hrun
  obtain ⟨t, ht, hkind, hs⟩ := has_status_eq_true hshows
  exact ⟨cfg, t, hreach, ht, hkind, hs⟩

end Agentty.Orchestration
