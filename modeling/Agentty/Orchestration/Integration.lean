/-
An integrated subtask stays settled, as long as no pass over a running campaign
reads it with a live child.

Integration writes `Integrated` or `ReviewRequested`; both are settled. But a
pass over a running campaign derives the status of every subtask with a child
from the child's status, whatever the stored status is, and follow-up work makes
an integrating campaign run again. A subtask whose branch has been merged is then
`Ready` again, and the next generation may integrate it a second time. In a run
in which such a pass finds integrated subtasks only without a child, or with a
canceled one, this does not happen, and no branch is integrated twice.
-/
import Agentty.Orchestration.Links

set_option autoImplicit false

namespace Agentty.Orchestration

/-! ## Events and states -/

/-- The entry moves the subtask to `Integrated` or `ReviewRequested`. -/
def integrates (id : TaskId) : HostEntry → Bool
  | ⟨_, .update_orchestration_task_status id' status _, .ok _, _⟩ =>
    id' = id && (status = .Integrated || status = .ReviewRequested)
  | _ => false

/-- The subtask was integrated, or its review requested, and no plan has upserted
it since. -/
def integrated_since (id : TaskId) : List HostEntry → Bool := since (integrates id) (upserts id)

/-- The subtask has no child that could go on: none, or a canceled one. -/
def Childless (w : World) (t : Task) : Prop :=
  ∀ child, t.child_session_id = some child →
    ∃ s, w.session child = some s ∧ s.status = .Canceled

/-- The same, of a row that was read. -/
def RowChildless (r : SessionOrchestrationTaskRow) : Prop :=
  r.child_session_id ≠ none → r.child_status = some .Canceled

/-- Integrated subtasks and running work are kept apart: a pass over a campaign
that it has loaded as `Running` reads integrated subtasks only without a child
that could go on, and a subtask is integrated only while no turn is about to park
it. -/
def IntegratesApart (cfg : Configuration) : HostLabel → Prop
  | .call .coordinator _ =>
    (∀ l c, cfg.log .coordinator = some l → Loaded l c → c.status = .Running →
      cfg.next .coordinator = some (.load_orchestration_tasks c.id) →
      ∀ id t, cfg.world.task id = some t → t.session_orchestration_id = c.id →
        integrated_since id cfg.trace = true → Childless cfg.world t) ∧
    ∀ id status error, cfg.next .coordinator =
      some (.update_orchestration_task_status id status error) →
      status = .Integrated ∨ status = .ReviewRequested → ¬ Pending cfg id
  | _ => True

/-- The statuses an integrated subtask goes through by itself. -/
def is_after_integration : OrchestrationTaskStatus → Bool
  | .Integrated | .ReviewRequested | .Reported | .Canceled | .Detached | .Failed => true
  | _ => false

variable {s : OrchestrationTaskStatus}

theorem is_settled_of_is_after_integration (h : is_after_integration s = true) :
    s.is_settled = true ∧ s ≠ .Ready := by
  cases s <;> simp [is_after_integration, OrchestrationTaskStatus.is_settled] at h ⊢

variable {id : TaskId}

theorem integrates_eq_true {e : HostEntry} (h : integrates id e = true) :
    ∃ status error, e.event = ⟨.update_orchestration_task_status id status error, .ok ()⟩ ∧
      (status = .Integrated ∨ status = .ReviewRequested) := by
  unfold integrates at h
  split at h
  · obtain ⟨hid, hs⟩ := Bool.and_eq_true_iff.mp h
    obtain rfl := of_decide_eq_true hid
    exact ⟨_, _, rfl, by simpa using hs⟩
  · cases h

variable {w : World} {t : Task}

/-- Having no child that could go on is for good, unless a child is linked. -/
theorem Childless.exec {w' : World} {call : Call} {reply : Except String (Reply call)} {t' : Task}
    (h : Childless w t) (hx : Exec w call reply w') (hmove : TaskMove w id t call reply t')
    (hs : t.status ≠ .Creating) : Childless w' t' := by
  have hkeep : Childless w' t := by
    intro child hchild
    obtain ⟨s, hs, hcanceled⟩ := h child hchild
    obtain ⟨s', hs', hsession⟩ := hx.session_of_some hs
    exact ⟨s', hs', (hsession.status_of_stopped (by rw [hcanceled]; rfl)).trans hcanceled⟩
  cases hmove with
  | linked _ hs' => exact absurd hs' hs
  | spawn_failed | detached | upserted => intro child hchild; cases hchild
  | _ => exact hkeep

theorem Childless.quiet {cfg cfg' : Configuration} {lab : HostLabel} (h : Childless cfg.world t)
    (hq : Quiet cfg cfg' lab) : Childless cfg'.world t := by
  rcases hq.world with hw | ⟨m, henv⟩
  · rw [hw]
    exact h
  · intro child hchild
    obtain ⟨s, hs, hcanceled⟩ := h child hchild
    obtain ⟨s', hs', hmove⟩ := env_session_of_some henv hs
    exact ⟨s', hs', (hmove.stopped (by rw [hcanceled]; rfl)).2 hcanceled⟩

theorem Childless.row (h : Childless w t) : RowChildless (task_row w id t) := by
  intro hne
  obtain ⟨child, hchild⟩ := Option.ne_none_iff_exists'.mp hne
  have hchild : t.child_session_id = some child := hchild
  obtain ⟨s, hs, hcanceled⟩ := h child hchild
  simp [task_row, hchild, hs, hcanceled]

theorem childless_of_row (h : (task_row w id t).child_status = some .Canceled) : Childless w t := by
  intro child hchild
  simp only [task_row, hchild, Option.bind_some, Option.map_eq_some_iff] at h
  exact h

/-! ## What a pass may do with such a row -/

theorem Follows.failed {r : SessionOrchestrationTaskRow} (h : Follows r s)
    (hchild : r.child_status = some .Canceled) : s = .Failed := by
  cases h with
  | review h _ _ => rcases h with h | h <;> rw [hchild] at h <;> cases h
  | mapped h _ _ =>
    rw [observed_child_status, hchild] at h
    rw [← h]
    rfl

/-- The invariant of a subtask that was integrated. -/
structure IntegratedInv (cfg : Configuration) (id : TaskId) : Prop where
  task : ∃ t, cfg.world.task id = some t ∧ (is_after_integration t.status = true ∨
    ((t.status = .IntegrationFailed ∨ t.status = .ContinuationPending) ∧ Childless cfg.world t))
  /-- A pass over a running campaign has read it without a child that could go
  on, and does not spawn it. -/
  running : ∀ l c rows r t, cfg.log .coordinator = some l → At l c rows r → r.id = id →
    c.status = .Running → cfg.world.task id = some t →
    Childless cfg.world t ∧ RowChildless r ∧ ¬ SpawnWritable c r
  /-- So has a pass over a parked campaign, if it reconciles the row at all. -/
  parked : ∀ l c rows r t, cfg.log .coordinator = some l → At l c rows r → r.id = id →
    c.status = .AwaitingApproval → is_live r.status = true → cfg.world.task id = some t →
    Childless cfg.world t ∧ RowChildless r
  /-- An integrating pass has nothing left to integrate. -/
  integrating : ∀ l c rows r t, cfg.log .coordinator = some l → At l c rows r → r.id = id →
    c.status = .Integrating → cfg.world.task id = some t →
    belief l id ≠ some .AwaitingIntegration ∧ belief l id ≠ some .Merging ∧
      (r.status = .ReviewRequested → r.child_status = some .Canceled → Childless cfg.world t)
  /-- No turn in flight may park it. -/
  turn : ¬ Pending cfg id

section Step

variable {cfg cfg' : Configuration} {a : Actor} {call : Call}
  {reply : Except String (Reply call)} {l : RunLog} {id : TaskId}

theorem IntegratedInv.status_ne (ih : IntegratedInv cfg id) (ht : cfg.world.task id = some t) :
    t.status ≠ .Planned ∧ t.status ≠ .Creating := by
  obtain ⟨t₀, ht₀, hs⟩ := ih.task
  cases ht.symm.trans ht₀
  constructor <;> intro h <;> simp [h, is_after_integration] at hs

variable {rows : List SessionOrchestrationTaskRow} {r : SessionOrchestrationTaskRow}
  {c : SessionOrchestrationRow}

/-- The statuses a pass writes for an integrated subtask. -/
theorem IntegratedInv.status_write (ih : IntegratedInv cfg id) (hl : cfg.log .coordinator = some l)
    (hat : At l c rows r) {status : OrchestrationTaskStatus} {error : Option String}
    (hcall : TaskCall c rows r l (.update_orchestration_task_status id status error))
    (ht : cfg.world.task id = some t) :
    is_after_integration status = true ∨
      (status = .IntegrationFailed ∧ Childless cfg.world t) := by
  cases hcall with
  | follow hc hchild hs _ =>
    have hrow : RowChildless r := by
      rcases hc with hc | ⟨hc, hlive⟩
      · exact (ih.running l c rows r t hl hat rfl hc ht).2.1
      · exact (ih.parked l c rows r t hl hat rfl hc hlive ht).2
    rw [hs.failed (hrow hchild)]
    exact .inl rfl
  | lost | reported | canceled => exact .inl rfl
  | integrate hc hs =>
    obtain ⟨hai, hmerging, hclosed⟩ := ih.integrating l c rows r t hl hat rfl hc ht
    cases hs with
    | merged | integrated => exact .inl rfl
    | closed hr hchild => exact .inr ⟨rfl, hclosed hr hchild⟩
    | merging _ hb => exact absurd hb hai
    | settle _ hb _ => exact absurd hb (by simp [hai, hmerging])

/-- **Where a call takes an integrated subtask** that it does not propose again:
a pass never out of what comes after integration, a turn at most to a
continuation of a failed integration. -/
theorem IntegratedInv.task_call (ih : IntegratedInv cfg id) (hc : Called cfg cfg' a call reply l)
    (hoff : upserts id ⟨a, call, reply, cfg.world⟩ = false) {t' : Task}
    (ht : cfg.world.task id = some t) (hmove : TaskMove cfg.world id t call reply t') :
    t'.status = t.status ∨ is_after_integration t'.status = true ∨
      (t'.status = .IntegrationFailed ∧ Childless cfg.world t) ∨
      (t.status = .IntegrationFailed ∧ t'.status = .ContinuationPending ∧ a ≠ .coordinator) := by
  obtain ⟨t₀, ht₀, hs⟩ := ih.task
  cases ht.symm.trans ht₀
  obtain ⟨hplanned, hcreating⟩ := ih.status_ne ht
  have hJ := hc.justified
  cases hmove with
  | keep | judged | summarized | reported => exact .inl rfl
  | detached _ _ _ => exact .inr (.inl rfl)
  | continued h _ =>
    refine .inr (.inr (.inr ⟨?_, rfl, ?_⟩))
    · rcases h with h | h | h
      · simp [h, is_after_integration] at hs
      · simp [h, is_after_integration] at hs
      · exact h
    · rintro rfl
      obtain ⟨sid, h, -⟩ := hJ.of_turn_call rfl
      cases h
  | written =>
    rcases hJ.of_task_status with ⟨rfl, c, rows, r, hat, hcall⟩ | ⟨-, rfl, -⟩ |
      ⟨sid, task, l', rfl, rfl, rfl⟩
    · rcases ih.status_write hc.log hat hcall ht with h | h
      · exact .inr (.inl h)
      · exact .inr (.inr (.inl h))
    · exact .inr (.inl rfl)
    · exact absurd ⟨sid, task, l', hc.log⟩ ih.turn
  | spawn_failed _ =>
    obtain ⟨rfl, c, rows, r, hat, hcall⟩ := hJ.of_task_call rfl
    obtain ⟨hid, hw⟩ := hcall.spawnWritable
    exact absurd hw (ih.running l c rows r t hc.log hat hid hw.1 ht).2.2
  | upserted _ _ => simp [upserts] at hoff
  | claimed _ h => exact absurd h hplanned
  | linked _ h => exact absurd h hcreating
  | approved _ h | admitted _ h | review_claimed h | reset h => simp [h, is_after_integration] at hs

variable {K : Configuration → HostLabel → Prop}

/-- What an integrating pass believes about an integrated subtask after a call
about it. -/
theorem IntegratedInv.belief_call (hreach : Reachable K cfg) (ih : IntegratedInv cfg id)
    (hl : cfg.log .coordinator = some l) (hJ : Justified .coordinator l call) (hat : At l c rows r)
    (hid : r.id = id) (hc : c.status = .Integrating) (hnone : RunEvent.list? ⟨call, reply⟩ = none)
    (ht : cfg.world.task id = some t) :
    belief (⟨call, reply⟩ :: l) id ≠ some .AwaitingIntegration ∧
      belief (⟨call, reply⟩ :: l) id ≠ some .Merging := by
  obtain ⟨hai, hmerging, -⟩ := ih.integrating l c rows r t hl hat hid hc ht
  rw [belief]
  cases htells : RunEvent.tells ⟨call, reply⟩ id with
  | none => exact ⟨hai, hmerging⟩
  | some status =>
    rcases hJ.tells_cases htells with ⟨cid, rows', he⟩ | ⟨c', rows', r', hat', hid', hcall⟩
    · rw [he] at hnone
      cases hnone
    · -- it is an integration write, and not the one to `Merging`
      obtain ⟨rfl, -, rfl⟩ := at_unique hreach hl hat hat' (hid.trans hid'.symm)
      subst hid
      have hstatus : status ≠ .AwaitingIntegration ∧ status ≠ .Merging := by
        cases reply with
        | error e => cases hcall <;> cases htells
        | ok answer =>
          cases hcall with
          | integrate _ hs =>
            simp only [RunEvent.tells, if_pos] at htells
            cases htells
            cases hs with
            | merging _ hb => exact absurd hb hai
            | settle _ hb _ => exact absurd hb (by simp [hai, hmerging])
            | _ => simp
          | _ => simp_all [Reconciles]
      exact ⟨fun h => hstatus.1 (Option.some.inj h), fun h => hstatus.2 (Option.some.inj h)⟩

/-- A call that does not propose the subtask again keeps the invariant. -/
theorem IntegratedInv.step {x : Choice} (hreach : Reachable K cfg) (ih : IntegratedInv cfg id)
    (hK : IntegratesApart cfg (.call a x)) (hd : integrated_since id cfg.trace = true)
    (hc : Called cfg cfg' a call reply l) (hoff : upserts id ⟨a, call, reply, cfg.world⟩ = false) :
    IntegratedInv cfg' id := by
  obtain ⟨t, ht, hs⟩ := ih.task
  obtain ⟨t', ht', hmove⟩ := hc.exec.task_of_some ht
  have hcreating := (ih.status_ne ht).2
  have hkeep : Childless cfg.world t → Childless cfg'.world t' :=
    fun h => h.exec hc.exec hmove hcreating
  -- what holds of a row that has just been read
  have hread : ∀ c rows r, At (⟨call, reply⟩ :: l) c rows r → r.id = id → a = .coordinator →
      (⟨call, reply⟩ : RunEvent) = ⟨.load_orchestration_tasks c.id, .ok rows⟩ →
      cfg'.world = cfg.world ∧ r = task_row cfg.world id t ∧
        t.session_orchestration_id = c.id ∧ Loaded l c ∧
        belief (⟨call, reply⟩ :: l) id = some t.status := by
    intro c rows r hat hid ha he
    have hx := hc.exec
    have hJ := hc.justified
    subst ha
    cases he
    obtain ⟨hw, t₀, ht₀, hcid, hrow⟩ := hx.row_of_load_tasks hat.mem
    rw [hid] at ht₀ hrow
    cases ht.symm.trans ht₀
    refine ⟨hw, hrow, hcid, ?_, ?_⟩
    · rcases loaded_cons hJ hat.loaded with ⟨-, cs, he, -⟩ | h
      · cases he
      · exact h
    · have hnd := hx.load_tasks.2 ▸ nodup_load_orchestration_tasks c.id
      rw [belief, ← hid, tells_list hnd hat.mem, hrow]
      rfl
  refine ⟨⟨t', ht', ?_⟩, fun l' c rows r t₀ hl' hat hid hrunning ht₀ => ?_,
    fun l' c rows r t₀ hl' hat hid hparked hlive ht₀ => ?_,
    fun l' c rows r t₀ hl' hat hid hintegrating ht₀ => ?_,
    fun h => ih.turn (h.of_called hc (upserts_eq_false hoff))⟩
  · rcases ih.task_call hc hoff ht hmove with h | h | ⟨h, hdead⟩ | ⟨h, h', -⟩
    · rw [h]
      exact hs.imp_right fun hs => ⟨hs.1, hkeep hs.2⟩
    · exact .inl h
    · exact .inr ⟨.inl h, hkeep hdead⟩
    · rcases hs with hs | hs
      · simp [h, is_after_integration] at hs
      · exact .inr ⟨.inr h', hkeep hs.2⟩
  · cases ht'.symm.trans ht₀
    rcases hc.at_cases hl' hat with ⟨ha, rfl, he⟩ | ⟨l₀, hl₀, hat₀⟩
    · subst ha
      obtain ⟨-, rfl, hcid, hload, -⟩ := hread c rows r hat hid rfl he
      have hnext : cfg.next .coordinator = some (.load_orchestration_tasks c.id) := by
        rw [hc.next]
        exact congrArg some (congrArg Sigma.fst he)
      have hdead := hK.1 l c hc.log hload hrunning hnext id t ht hcid hd
      refine ⟨hkeep hdead, hdead.row, fun hw => ?_⟩
      obtain ⟨hplanned, hcreating⟩ := ih.status_ne ht
      exact hw.2.2.elim hplanned hcreating
    · obtain ⟨hdead, hrow⟩ := ih.running l₀ c rows r t hl₀ hat₀ hid hrunning ht
      exact ⟨hkeep hdead, hrow⟩
  · cases ht'.symm.trans ht₀
    rcases hc.at_cases hl' hat with ⟨ha, rfl, he⟩ | ⟨l₀, hl₀, hat₀⟩
    · subst ha
      obtain ⟨-, rfl, -⟩ := hread c rows r hat hid rfl he
      have hdead : Childless cfg.world t := by
        rcases hs with hs | hs
        · have hlive : is_live t.status = true := hlive
          cases h : t.status <;> simp [h, is_live, is_after_integration] at hlive hs
        · exact hs.2
      exact ⟨hkeep hdead, hdead.row⟩
    · obtain ⟨hdead, hrow⟩ := ih.parked l₀ c rows r t hl₀ hat₀ hid hparked hlive ht
      exact ⟨hkeep hdead, hrow⟩
  · cases ht'.symm.trans ht₀
    rcases hc.log_cases hl' with ⟨ha, rfl⟩ | ⟨-, hl'⟩
    · subst ha
      rcases at_cons hc.justified hat with he | ⟨hnone, hat₀⟩
      · obtain ⟨-, rfl, -, -, hb⟩ := hread c rows r hat hid rfl he
        rw [hb]
        refine ⟨fun h => ?_, fun h => ?_, fun _ hchild => hkeep (childless_of_row hchild)⟩ <;>
          simp [Option.some.inj h, is_after_integration] at hs
      · obtain ⟨-, -, hclosed⟩ := ih.integrating l c rows r t hc.log hat₀ hid hintegrating ht
        obtain ⟨hai, hmerging⟩ := ih.belief_call hreach hc.log hc.justified hat₀ hid
          hintegrating hnone ht
        exact ⟨hai, hmerging, fun hr hchild => hkeep (hclosed hr hchild)⟩
    · obtain ⟨hai, hmerging, hclosed⟩ := ih.integrating l' c rows r t hl' hat hid hintegrating ht
      exact ⟨hai, hmerging, fun hr hchild => hkeep (hclosed hr hchild)⟩

theorem integratedInv_of_integrates {x : Choice} (hreach : Reachable K cfg)
    (hK : IntegratesApart cfg (.call a x)) (hc : Called cfg cfg' a call reply l)
    (hon : integrates id ⟨a, call, reply, cfg.world⟩ = true) : IntegratedInv cfg' id := by
  obtain ⟨status, error, he, hstatus⟩ := integrates_eq_true hon
  have hJ := hc.justified
  have hx := hc.exec
  cases he
  rcases hJ.of_task_status with
    ⟨rfl, c, rows, r, hat, hcall⟩ | ⟨-, rfl, -⟩ | ⟨sid, task, l', -, rfl, -⟩
  · obtain ⟨rfl, -⟩ := hcall.statusWritable
    obtain ⟨t, ht, -⟩ := hat.known hreach hc.log
    have ht' := hx.task_status ht
    -- the pass works on this row of an integrating campaign
    have hintegrating : c.status = .Integrating ∧ ¬ (r.status = .ReviewRequested ∧
        r.child_status = some .Canceled) := by
      cases hcall with
      | integrate hc hs =>
        refine ⟨hc, fun hr => ?_⟩
        cases hs with
        | merged _ h => simp [hr.2] at h
        | integrated h | settle h | merging h => simp [hr.1] at h
        | closed _ _ => simp at hstatus
      | follow _ _ hs _ =>
        cases hs with
        | review _ hs _ => rcases hs with rfl | rfl <;> simp at hstatus
        | @mapped child_status _ _ _ =>
          cases child_status <;> simp [OrchestrationTaskStatus.from_child_status] at hstatus
      | lost | reported | canceled => simp at hstatus
    have hrow : ∀ l' c' rows' r', cfg'.log .coordinator = some l' → At l' c' rows' r' →
        r'.id = r.id → c' = c ∧ r' = r ∧
          l' = ⟨.update_orchestration_task_status r.id status error, .ok ()⟩ :: l := by
      intro l' c' rows' r' hl' hat' hid
      obtain rfl := hc.own l' hl'
      rcases at_cons hJ hat' with he | ⟨-, hat₀⟩
      · cases he
      · obtain ⟨rfl, -, rfl⟩ := at_unique hreach hc.log hat₀ hat hid
        exact ⟨rfl, rfl, rfl⟩
    refine ⟨⟨_, ht', .inl ?_⟩, fun l' c' rows' r' t₀ hl' hat' hid hs => ?_,
      fun l' c' rows' r' t₀ hl' hat' hid hs => ?_, fun l' c' rows' r' t₀ hl' hat' hid _ _ => ?_,
      fun h => hK.2 r.id status error hc.next hstatus (h.of_called hc fun task he => by cases he)⟩
    · rcases hstatus with rfl | rfl <;> rfl
    iterate 2
      · obtain ⟨rfl, -, -⟩ := hrow l' c' rows' r' hl' hat' hid
        rw [hintegrating.1] at hs
        cases hs
    · obtain ⟨rfl, rfl, rfl⟩ := hrow l' c' rows' r' hl' hat' hid
      refine ⟨?_, ?_, fun hr hchild => absurd ⟨hr, hchild⟩ hintegrating.2⟩ <;>
        rcases hstatus with rfl | rfl <;> simp [belief, RunEvent.tells]
  · simp at hstatus
  · simp at hstatus

theorem IntegratedInv.quiet {lab : HostLabel} (ih : IntegratedInv cfg id)
    (hq : Quiet cfg cfg' lab) : IntegratedInv cfg' id := by
  refine ⟨?_, fun l c rows r t hl hat hid hs ht => ?_,
    fun l c rows r t hl hat hid hs hlive ht => ?_,
    fun l c rows r t hl hat hid hs ht => ?_, fun h => ih.turn (h.of_quiet hq)⟩
  · obtain ⟨t, ht, hs⟩ := ih.task
    exact ⟨t, by rw [hq.tasks]; exact ht, hs.imp_right fun hs => ⟨hs.1, hs.2.quiet hq⟩⟩
  · rw [hq.tasks] at ht
    rcases hq.logs _ l hl with rfl | hl
    · exact absurd hat not_at_nil
    · obtain ⟨hdead, hrow⟩ := ih.running l c rows r t hl hat hid hs ht
      exact ⟨hdead.quiet hq, hrow⟩
  · rw [hq.tasks] at ht
    rcases hq.logs _ l hl with rfl | hl
    · exact absurd hat not_at_nil
    · obtain ⟨hdead, hrow⟩ := ih.parked l c rows r t hl hat hid hs hlive ht
      exact ⟨hdead.quiet hq, hrow⟩
  · rw [hq.tasks] at ht
    rcases hq.logs _ l hl with rfl | hl
    · exact absurd hat not_at_nil
    · obtain ⟨hai, hmerging, hclosed⟩ := ih.integrating l c rows r t hl hat hid hs ht
      exact ⟨hai, hmerging, fun hr hchild => (hclosed hr hchild).quiet hq⟩

end Step

variable {cfg : Configuration}

theorem integrated_inv (h : Reachable IntegratesApart cfg)
    (hd : integrated_since id cfg.trace = true) : IntegratedInv cfg id := by
  refine reachable_steps (fun cfg => ∀ id, integrated_since id cfg.trace = true →
    IntegratedInv cfg id) h ?_ ?_ ?_ id hd
  · intro id hd
    cases hd
  · intro cfg cfg' lab _ ih _ hq id hd
    rw [hq.trace] at hd
    exact (ih id hd).quiet hq
  · intro cfg cfg' a x c r l hreach ih hK hc _ id hd
    rw [hc.trace] at hd
    rcases since_cons.mp hd with hon | ⟨hoff, hd⟩
    · exact integratedInv_of_integrates hreach hK hc hon
    · exact (ih id hd).step hreach hK hd hc hoff

/-- A pass integrates no branch of an integrated subtask. -/
theorem IntegratedInv.not_integrates {K : Configuration → HostLabel → Prop}
    (hreach : Reachable K cfg) (ih : IntegratedInv cfg id) {l : RunLog} {call : Call}
    (hl : cfg.log .coordinator = some l) (hJ : Justified .coordinator l call) {child : SessionId}
    (hlinked : Linked cfg.world child id) :
    call ≠ .merge_session child ∧ call ≠ .create_review_request child := by
  obtain ⟨t, ht, -⟩ := ih.task
  have hrow : ∀ c rows r, At l c rows r → r.child_session_id = some child →
      c.status = .Integrating → belief l r.id ≠ some .Merging := by
    intro c rows r hat hchild hs
    -- the row is one of the same subtask
    obtain ⟨s, hsession, hunique⟩ := row_child hreach hl hat.list hat.mem hchild
    obtain ⟨s', hsession', hlink⟩ := hlinked
    cases hsession.symm.trans hsession'
    have hid := hunique id hlink
    exact hid ▸ (ih.integrating l c rows r t hl hat hid.symm hs ht).2.1
  constructor
  · rintro rfl
    obtain ⟨-, c, rows, r, hat, hcall⟩ := hJ.of_task_call rfl
    cases hcall with
    | merge hs _ hchild hb => exact hrow c rows r hat hchild hs hb
  · rintro rfl
    obtain ⟨-, c, rows, r, hat, hcall⟩ := hJ.of_task_call rfl
    cases hcall with
    | publish hs _ hchild hb => exact hrow c rows r hat hchild hs hb

/-- **An integrated subtask stays settled.** In a run in which integrated subtasks
and running work are kept apart, a subtask that was integrated is in a status
after integration from then on, or its integration has failed and its child is
gone, until a plan upserts it. A pass leaves its status alone or writes a settled
one other than `Ready`, and integrates no branch of it again. -/
theorem integrated_stays {cfg : Configuration} (h : Reachable IntegratesApart cfg) {id : TaskId}
    (hd : integrated_since id cfg.trace = true) :
    (∃ t, cfg.world.task id = some t ∧ (is_after_integration t.status = true ∨
      ((t.status = .IntegrationFailed ∨ t.status = .ContinuationPending) ∧
        Childless cfg.world t))) ∧
    ∀ x cfg', IntegratesApart cfg (.call .coordinator x) →
      host.step cfg (.call .coordinator x) = some cfg' →
      (∃ t t', cfg.world.task id = some t ∧ cfg'.world.task id = some t' ∧
        (t'.status = t.status ∨ (t'.status.is_settled = true ∧ t'.status ≠ .Ready))) ∧
      ∀ child, Linked cfg.world child id →
        cfg.next .coordinator ≠ some (.merge_session child) ∧
          cfg.next .coordinator ≠ some (.create_review_request child) := by
  have ih := integrated_inv h hd
  refine ⟨ih.task, fun x cfg' hK hstep => ?_⟩
  obtain ⟨call, reply, l, hc⟩ := called_of_step h hstep
  constructor
  · obtain ⟨t, ht, -⟩ := ih.task
    obtain ⟨t', ht', hmove⟩ := hc.exec.task_of_some ht
    have hoff : upserts id ⟨.coordinator, call, reply, cfg.world⟩ = false := by
      by_contra hup
      obtain ⟨task, he⟩ := upserts_eq_true (Bool.not_eq_false _ ▸ hup)
      have hJ := hc.justified
      cases he
      obtain ⟨sid, h, -⟩ := hJ.of_turn_call rfl
      cases h
    refine ⟨t, t', ht, ht', ?_⟩
    rcases ih.task_call hc hoff ht hmove with h | h | ⟨h, -⟩ | ⟨-, -, h⟩
    · exact .inl h
    · exact .inr (is_settled_of_is_after_integration h)
    · exact .inr (by rw [h]; exact ⟨rfl, by simp⟩)
    · exact absurd rfl h
  · intro child hlinked
    obtain ⟨hmerge, hpublish⟩ := ih.not_integrates h hc.log hc.justified hlinked
    rw [hc.next]
    exact ⟨fun he => hmerge (Option.some.inj he), fun he => hpublish (Option.some.inj he)⟩

/-! ### A run that meets the condition, and one that does not -/

/-- The test of `IntegratesApart` on a step of a concrete run: no list is read
once a subtask is integrated, and subtasks are written while no turn is in
flight. -/
def integrates_apart (cfg : Configuration) : HostLabel → Bool
  | .start (.controller_turn sid _) => sid = "k"
  | .call .coordinator _ => match cfg.next .coordinator with
      | some (.load_orchestration_tasks _) =>
        cfg.world.tasks.rows.all fun row => !integrated_since row.1 cfg.trace
      | some (.update_orchestration_task_status ..) => (cfg.running (.controller "k")).isNone
      | _ => true
  | _ => true

theorem integratesApart_of_test (cfg : Configuration) (lab : HostLabel)
    (hrun : System.Config.RunsOnly cast cfg) (h : integrates_apart cfg lab = true) :
    IntegratesApart cfg lab := by
  unfold IntegratesApart
  split
  · refine ⟨fun l c _ _ _ hnext id t ht _ hd => ?_, fun id status error hnext _ => ?_⟩
    · simp only [integrates_apart, hnext, List.all_eq_true] at h
      have hno := h (id, t) (Table.get?_eq_some_iff.mp ht)
      simp [hd] at hno
    · simp only [integrates_apart, hnext] at h
      rintro ⟨sid, task, l, hl⟩
      have hidle : cfg.running (.controller sid) = none := by
        by_cases hk : sid = "k"
        · exact hk ▸ Option.isNone_iff_eq_none.mp h
        · exact hrun _ (by simp [cast, hk])
      rw [Config.log, hidle] at hl
      cases hl
  · trivial

/-- The first branch has been merged. -/
def merged_campaign : List HostLabel :=
  integrating_campaign ++ [.start .reconcile] ++ steps .coordinator 5
    ++ moved "x" [.Queued, .Merging, .Done]

/-- A pass records that the first branch is merged and goes on. -/
theorem integrated_stays_run : ∃ cfg, Reachable IntegratesApart cfg ∧
    integrated_since 1 cfg.trace = true ∧ ∃ t, cfg.world.task 1 = some t ∧
      (is_after_integration t.status = true ∨
        ((t.status = .IntegrationFailed ∨ t.status = .ContinuationPending) ∧
          Childless cfg.world t)) := by
  have hrun : (host.runIf integrates_apart start (merged_campaign ++ [.start .reconcile]
      ++ steps .coordinator 4)).any (fun cfg => integrated_since 1 cfg.trace = true) = true := by
    decide +kernel
  obtain ⟨cfg, hreach, -, hd⟩ := exists_reachable_of_test integratesApart_of_test
    (fun _ _ _ h => of_decide_eq_true h) hrun
  exact ⟨cfg, hreach, hd, (integrated_stays hreach hd).1⟩

/-- The first branch has been merged and the merge of the second one fails. The
controller routes a third subtask, which is approved: the campaign runs again. -/
def extended_campaign : List HostLabel :=
  merged_campaign ++ [.start .reconcile] ++ steps .coordinator 5
    ++ [.call .coordinator { error := some "conflict", session_id := "" }]
    ++ steps .coordinator 1
    ++ [.start (.controller_turn "k" (proposing [proposal .Implementation "c"]))]
    ++ steps (.controller "k") 7 ++ [.start (.approve "k" none)] ++ steps .app 2
    ++ [.start .reconcile] ++ steps .coordinator 2

/-- The status of a subtask that was integrated. -/
def integrated_status (id : TaskId) (status : OrchestrationTaskStatus)
    (cfg : Configuration) : Bool :=
  integrated_since id cfg.trace && decide ((cfg.world.task id).map (·.status) = some status)

/-- The next pass takes the integrated subtask back to `Ready`, because its child
is `Done`. -/
theorem integrated_subtask_reopened : ∃ cfg cfg', Reachable System.anyStep cfg ∧
    integrated_since 1 cfg.trace = true ∧ (cfg.world.task 1).map (·.status) = some .Integrated ∧
    host.step cfg (serves .coordinator "") = some cfg' ∧ integrated_since 1 cfg'.trace = true ∧
    (cfg'.world.task 1).map (·.status) = some .Ready := by
  have hrun : (host.run start extended_campaign).any (fun cfg =>
      integrated_status 1 .Integrated cfg = true ∧
      ∃ cfg' ∈ host.step cfg (serves .coordinator ""), integrated_status 1 .Ready cfg' = true) =
      true := by
    decide +kernel
  obtain ⟨cfg, hreach, hbefore, cfg', hstep, hafter⟩ := System.exists_reaches_of_run _ hrun
  obtain ⟨hd, hs⟩ := Bool.and_eq_true_iff.mp hbefore
  obtain ⟨hd', hs'⟩ := Bool.and_eq_true_iff.mp hafter
  exact ⟨cfg, cfg', hreach, hd, of_decide_eq_true hs, hstep, hd', of_decide_eq_true hs'⟩

end Agentty.Orchestration
