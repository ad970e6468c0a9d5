/-
No subtask is started before its plan is approved, as long as none is claimed
half-way through its proposal.

A turn proposes a subtask in two calls: the upsert leaves the row `Planned`, a
second call moves it to `Proposed`. Approval moves it back to `Planned`, and a
pass claims what is `Planned`. A pass over a running campaign that comes between
the two calls, or after a crash between them, claims a subtask nobody has
approved. In a run in which that does not happen, every claimed subtask was
approved since its last upsert; the proof has to rule out that a pass which is
still spawning an earlier generation of the row puts it back to `Planned`.
-/
import Agentty.Orchestration.TurnFacts

set_option autoImplicit false

namespace Agentty.Orchestration

open List

/-! ## Events -/

/-- The entry is an approval that moved the subtask out of `Proposed`. -/
def approves (id : TaskId) : HostEntry → Bool
  | ⟨_, .approve_orchestration_plan cid, .ok approved, before⟩ =>
    approved && (before.task id).any fun t =>
      t.session_orchestration_id = cid && t.status = .Proposed
  | _ => false

/-- The entry claims the subtask for spawning. -/
def claims (id : TaskId) : HostEntry → Bool
  | ⟨_, .claim_orchestration_task id', .ok claimed, _⟩ => id' = id && claimed
  | _ => false

/-- The subtask was approved after its last upsert. -/
def approved_since (id : TaskId) : List HostEntry → Bool := since (approves id) (upserts id)

/-- The last upsert of the subtask has not been followed by its move to
`Proposed`. -/
def unparked (id : TaskId) : List HostEntry → Bool := since (upserts id) (parks id)

/-- A subtask is claimed only when it is not half-way through a proposal. -/
def ClaimsParked (cfg : Configuration) : HostLabel → Prop
  | .call a _ => ∀ id, cfg.next a = some (.claim_orchestration_task id) →
      unparked id cfg.trace = false
  | _ => True

theorem claims_eq_true {id : TaskId} {e : HostEntry} (h : claims id e = true) :
    e.event = ⟨.claim_orchestration_task id, .ok true⟩ := by
  unfold claims at h
  split at h
  · obtain ⟨hid, rfl⟩ := Bool.and_eq_true_iff.mp h
    obtain rfl := of_decide_eq_true hid
    rfl
  · cases h

/-! ## The invariant -/

/-- What holds in every configuration of such a run. -/
structure ApprovalInv (cfg : Configuration) : Prop where
  planned : ∀ id t, cfg.world.task id = some t → t.status = .Planned →
    approved_since id cfg.trace = true ∨ unparked id cfg.trace = true
  creating : ∀ id t, cfg.world.task id = some t → t.status = .Creating →
    approved_since id cfg.trace = true ∧ unparked id cfg.trace = false
  /-- A pass holds approved subtasks only, and they are still where the pass, a
  cancellation or a detachment puts them. -/
  held : ∀ l id, cfg.log .coordinator = some l → Holds l id →
    approved_since id cfg.trace = true ∧ unparked id cfg.trace = false ∧
      ∃ t, cfg.world.task id = some t ∧
        (t.status = .Creating ∨ t.status = .Running ∨ t.status = .Canceled ∨ t.status = .Detached)
  pending : ∀ id, Pending cfg id → unparked id cfg.trace = true
  /-- What a turn may propose again has not been proposed again, and no pass is
  spawning it. -/
  again : ∀ sid l r, cfg.log (.controller sid) = some l → Again l r →
    (∃ t, cfg.world.task r.id = some t ∧ t.status ≠ .Proposed ∧ t.status ≠ .Planned ∧
      t.status ≠ .Creating) ∧ ∀ l', cfg.log .coordinator = some l' → ¬ Holds l' r.id
  claimed : ∀ e older id, (e :: older) <:+ cfg.trace → claims id e = true →
    approved_since id older = true

section Step

variable {cfg cfg' : Configuration} {a : Actor} {call : Call}
  {reply : Except String (Reply call)} {l : RunLog} {id : TaskId}

theorem approved_since_call (hc : Called cfg cfg' a call reply l)
    (h : approved_since id cfg.trace = true)
    (hne : upserts id ⟨a, call, reply, cfg.world⟩ = false) :
    approved_since id cfg'.trace = true := by
  rw [hc.trace]
  exact since_cons.mpr (.inr ⟨hne, h⟩)

theorem unparked_call_eq_false (hc : Called cfg cfg' a call reply l)
    (h : unparked id cfg.trace = false) (hne : upserts id ⟨a, call, reply, cfg.world⟩ = false) :
    unparked id cfg'.trace = false := by
  rw [hc.trace, unparked, since, hne, show since (upserts id) (parks id) cfg.trace = false from h]
  simp

variable {K : Configuration → HostLabel → Prop} {x : Choice}

theorem ApprovalInv.of_claim (ih : ApprovalInv cfg) (hK : ClaimsParked cfg (.call a x))
    (hc : Called cfg cfg' a (.claim_orchestration_task id) (.ok true) l) :
    approved_since id cfg.trace = true := by
  obtain ⟨t, ht, hs, -, -⟩ := hc.exec.claim
  rcases ih.planned id t ht hs with h | h
  · exact h
  · rw [hK id hc.next] at h
    cases h

variable (hreach : Reachable K cfg) (ih : ApprovalInv cfg) (hc : Called cfg cfg' a call reply l)

include hreach ih hc

/-- What has been upserted is `Planned`, and no pass is spawning it. -/
theorem ApprovalInv.of_upsert (hup : upserts id ⟨a, call, reply, cfg.world⟩ = true) :
    (∃ t, cfg'.world.task id = some t ∧ t.status = .Planned) ∧
      ∀ l', cfg.log .coordinator = some l' → ¬ Holds l' id := by
  obtain ⟨task, he⟩ := upserts_eq_true hup
  have hx := hc.exec
  have hJ := hc.justified
  cases he
  obtain ⟨sid, rfl, hturn⟩ := hJ.of_turn_call rfl
  refine ⟨?_, fun l' hl' hholds => ?_⟩
  · rcases hx.upsert.1 with ⟨-, ht⟩ | ⟨t, -, -, -, ht⟩
    · exact ⟨_, ht, rfl⟩
    · exact ⟨_, ht, rfl⟩
  · rcases upsert_cases hreach hc.log hturn hx with hnone | ⟨r, hagain, rfl⟩
    · -- a pass holds subtasks that exist
      obtain ⟨c, rows, r, hat, rfl, -⟩ := hholds
      obtain ⟨t, ht, -⟩ := hat.known hreach hl'
      rw [hnone] at ht
      cases ht
    · exact (ih.again sid l r hc.log hagain).2 l' hl' hholds

omit hreach in
theorem ApprovalInv.planned_call {t' : Task} (ht' : cfg'.world.task id = some t')
    (hs' : t'.status = .Planned) :
    approved_since id cfg'.trace = true ∨ unparked id cfg'.trace = true := by
  by_cases hup : upserts id ⟨a, call, reply, cfg.world⟩ = true
  · rw [hc.trace]
    exact .inr (since_cons.mpr (.inl hup))
  have hup := Bool.not_eq_true _ ▸ hup
  have hJ := hc.justified
  have hx := hc.exec
  rcases hx.task ht' with ⟨t, ht, hmove⟩ | hborn
  · rcases hmove.to_planned hs' with hs | ⟨hs, he⟩ | ⟨error, limit, status, he⟩ | ⟨error, he⟩ |
      ⟨task, he⟩
    · refine (ih.planned id t ht hs).imp (approved_since_call hc · hup) fun h => ?_
      -- the move to `Proposed` is not this call: the row is still `Planned`
      rw [hc.trace]
      refine since_cons.mpr (.inr ⟨?_, h⟩)
      by_contra hparks
      obtain ⟨error, he⟩ := parks_eq_true (Bool.not_eq_false _ ▸ hparks)
      cases he
      rw [hx.task_status ht] at ht'
      cases ht'
      cases hs'
    · cases he
      rw [hc.trace]
      refine .inl (since_cons.mpr (.inl ?_))
      simp [approves, ht, hs]
    · cases he
      obtain ⟨rfl, c, rows, r, hat, hcall⟩ := hJ.of_task_call rfl
      exact .inl (approved_since_call hc
        (ih.held l id hc.log (holds_of_spawn_failure hat hcall)).1 hup)
    · cases he
      rcases hJ.proposes_or_ne with ⟨h, -⟩ | ⟨-, h, -⟩
      · cases h
      · exact absurd rfl h
    · cases he
      simp [upserts] at hup
  · cases hborn with
    | fresh _ _ _ => simp [upserts] at hup

theorem ApprovalInv.creating_call (hK : ClaimsParked cfg (.call a x)) {t' : Task}
    (ht' : cfg'.world.task id = some t') (hs' : t'.status = .Creating) :
    approved_since id cfg'.trace = true ∧ unparked id cfg'.trace = false := by
  have hup : upserts id ⟨a, call, reply, cfg.world⟩ = false := by
    by_contra hup
    obtain ⟨⟨t, ht, hs⟩, -⟩ := ih.of_upsert hreach hc (Bool.not_eq_false _ ▸ hup)
    rw [ht'] at ht
    rw [Option.some.inj ht, hs] at hs'
    cases hs'
  -- whatever holds now goes on, since the call upserts nothing
  suffices h : approved_since id cfg.trace = true ∧ unparked id cfg.trace = false from
    ⟨approved_since_call hc h.1 hup, unparked_call_eq_false hc h.2 hup⟩
  have hJ := hc.justified
  rcases hc.exec.task ht' with ⟨t, ht, hmove⟩ | hborn
  · rcases hmove.to_creating hs' with hs | ⟨hs, he⟩ | ⟨error, he⟩
    · exact ih.creating id t ht hs
    · cases he
      exact ⟨ih.of_claim hK hc, hK id hc.next⟩
    · cases he
      rcases hJ.proposes_or_ne with ⟨h, -⟩ | ⟨-, -, h⟩
      · cases h
      · exact absurd rfl h
  · cases hborn with
    | fresh _ _ _ => cases hs'

variable {l' : RunLog}

theorem ApprovalInv.held_status {l₀ : RunLog} (hl₀ : cfg.log .coordinator = some l₀)
    (hl' : cfg'.log .coordinator = some l') (hholds₀ : Holds l₀ id) (hholds : Holds l' id) :
    ∃ t, cfg'.world.task id = some t ∧
      (t.status = .Creating ∨ t.status = .Running ∨ t.status = .Canceled ∨
        t.status = .Detached) := by
  obtain ⟨-, hparked, t, ht, hs⟩ := ih.held l₀ id hl₀ hholds₀
  obtain ⟨t', ht', hmove⟩ := hc.exec.task_of_some ht
  refine ⟨t', ht', ?_⟩
  have hJ := hc.justified
  have hx := hc.exec
  cases hmove with
  | keep | judged | summarized | reported => exact hs
  | linked _ _ => exact .inr (.inl rfl)
  | detached _ _ _ => exact .inr (.inr (.inr rfl))
  | claimed _ _ => exact .inl rfl
  | approved _ h | admitted _ h | review_claimed h | reset h => simp [h] at hs
  | continued h _ => rcases h with h | h | h <;> simp [h] at hs
  | upserted _ _ =>
    exact absurd hholds₀ ((ih.of_upsert hreach hc (by simp [upserts])).2 l₀ hl₀)
  | @spawn_failed error limit status hstatus =>
    -- the pass that records the failure no longer holds the subtask
    obtain ⟨rfl, c, rows, r, hat, hcall⟩ := hJ.of_task_call rfl
    obtain ⟨c', rows', r', -, -, -, hb⟩ := hholds
    rw [hc.own l' hl', belief] at hb
    rcases hstatus with rfl | rfl <;> simp [RunEvent.tells] at hb
  | written =>
    rcases hJ.of_task_status with ⟨rfl, c, rows, r, hat, hcall⟩ | ⟨-, rfl, -⟩ |
      ⟨sid, task, l'', rfl, -, rfl⟩
    · -- the row the pass spawns is the one it would write
      obtain ⟨c', rows', r', hat', hid', hw, -⟩ := hholds₀
      obtain rfl := Option.some.inj (hl₀.symm.trans hc.log)
      obtain ⟨hid, hstatus⟩ := hcall.statusWritable
      obtain ⟨rfl, -, rfl⟩ := at_unique hreach hl₀ hat hat' (hid.trans hid'.symm)
      exact absurd hstatus hw.not_statusWritable
    · exact .inr (.inr (.inl rfl))
    · rw [ih.pending id ⟨sid, task, l'', hc.log⟩] at hparked
      cases hparked

theorem ApprovalInv.held_call (hK : ClaimsParked cfg (.call a x))
    (hl' : cfg'.log .coordinator = some l') (hholds : Holds l' id) :
    approved_since id cfg'.trace = true ∧ unparked id cfg'.trace = false ∧
      ∃ t, cfg'.world.task id = some t ∧ (t.status = .Creating ∨ t.status = .Running ∨
        t.status = .Canceled ∨ t.status = .Detached) := by
  -- a subtask that was held before is not upserted now
  have hold : ∀ l₀, cfg.log .coordinator = some l₀ → Holds l₀ id →
      approved_since id cfg'.trace = true ∧ unparked id cfg'.trace = false ∧
        ∃ t, cfg'.world.task id = some t ∧ (t.status = .Creating ∨ t.status = .Running ∨
          t.status = .Canceled ∨ t.status = .Detached) := by
    intro l₀ hl₀ hholds₀
    have hup : upserts id ⟨a, call, reply, cfg.world⟩ = false := by
      by_contra hup
      exact (ih.of_upsert hreach hc (Bool.not_eq_false _ ▸ hup)).2 l₀ hl₀ hholds₀
    obtain ⟨happ, hparked, -⟩ := ih.held l₀ id hl₀ hholds₀
    exact ⟨approved_since_call hc happ hup, unparked_call_eq_false hc hparked hup,
      ih.held_status hreach hc hl₀ hl' hholds₀ hholds⟩
  rcases hc.log_cases hl' with ⟨ha, rfl⟩ | ⟨-, hl₀⟩
  · subst ha
    rcases holds_cons hreach hc.log hc.justified hc.exec hholds with h | he | ⟨hw, t, ht, hs⟩
    · exact hold l hc.log h
    · cases he
      have hup : upserts id ⟨.coordinator, .claim_orchestration_task id, .ok true, cfg.world⟩
          = false := rfl
      obtain ⟨t, -, -, -, ht'⟩ := hc.exec.claim
      exact ⟨approved_since_call hc (ih.of_claim hK hc) hup,
        unparked_call_eq_false hc (hK id hc.next) hup, _, ht', .inl rfl⟩
    · have ht' : cfg'.world.task id = some t := by rw [hw]; exact ht
      obtain ⟨happ, hparked⟩ := ih.creating_call hreach hc hK ht' hs
      exact ⟨happ, hparked, t, ht', .inl hs⟩
  · exact hold l' hl₀ hholds

theorem ApprovalInv.pending_call (h : Pending cfg' id) : unparked id cfg'.trace = true := by
  obtain ⟨sid, task, l', hl'⟩ := h
  rw [hc.trace]
  rcases hc.log_cases hl' with ⟨rfl, he⟩ | ⟨ha, hl'⟩
  · obtain ⟨he, -⟩ := cons.inj he
    cases he
    exact since_cons.mpr (.inl (by simp [upserts]))
  · refine since_cons.mpr (.inr ⟨?_, ih.pending id ⟨sid, task, l', hl'⟩⟩)
    -- the move to `Proposed` of another turn would be in the same campaign
    by_contra hparks
    obtain ⟨error, he⟩ := parks_eq_true (Bool.not_eq_false _ ▸ hparks)
    have hJ := hc.justified
    cases he
    rcases hJ.proposes_or_ne with ⟨-, sid', task', l'', rfl, rfl⟩ | ⟨h, -⟩
    · obtain ⟨t, ht, -, hown⟩ := upserted_owned hreach hl' mem_cons_self
      obtain ⟨t', ht', -, hown'⟩ := upserted_owned hreach hc.log mem_cons_self
      rw [Option.some.inj (ht.symm.trans ht')] at hown
      exact ha (by rw [hown.unique hown'])
    · exact absurd rfl h

variable {sid : SessionId} {r : SessionOrchestrationTaskRow}

omit hc in
/-- What the turn has just listed is not being spawned. -/
theorem ApprovalInv.not_holds_of_listed (hl : cfg.log (.controller sid) = some l)
    {c : SessionOrchestrationRow} {t : Task} (hc : campaign_read l = some c)
    (hlist : snapshot l = none) (hin : inserted l = none) (ht : cfg.world.task r.id = some t)
    (hcid : t.session_orchestration_id = c.id) (hs : r.status = t.status) (hmay : MayRepeat c r)
    (hl' : cfg.log .coordinator = some l') : ¬ Holds l' r.id := by
  intro hholds
  obtain ⟨-, -, t', ht', hstatus⟩ := ih.held l' r.id hl' hholds
  rw [← Option.some.inj (ht.symm.trans ht'), ← hs] at hstatus
  rcases hmay with ⟨-, hcont⟩ | ⟨hdone, hretry⟩
  · rcases hstatus with h | h | h | h <;> simp [h, can_continue] at hcont
  · -- a canceled subtask of a finished campaign: no pass has that campaign open
    obtain ⟨c', rows', r', hat, hid, -⟩ := hholds
    obtain ⟨t'', ht'', hcid', -⟩ := hat.known hreach hl'
    rw [hid, ht] at ht''
    rw [← Option.some.inj ht'', hcid] at hcid'
    exact (done_closed hreach hl hc hdone hlist hin).2 l' c' hl' hat.loaded hcid'.symm
      (hcid' ▸ hat.isOpen)

/-- A listed row that the turn may still propose again keeps away from the
statuses before a spawn. -/
theorem ApprovalInv.again_status {l₀ : RunLog} (hl₀ : cfg.log (.controller sid) = some l₀)
    (hagain : Again l₀ r)
    (hfresh : a = .controller sid → ¬ Upserted (⟨call, reply⟩ :: l) r.task_key) :
    ∃ t, cfg'.world.task r.id = some t ∧ t.status ≠ .Proposed ∧ t.status ≠ .Planned ∧
      t.status ≠ .Creating := by
  obtain ⟨⟨t, ht, hs₁, hs₂, hs₃⟩, hheld⟩ := ih.again sid l₀ r hl₀ hagain
  obtain ⟨c, rows, hread, hlist, hr, -⟩ := hagain
  obtain ⟨t₀, ht₀, hcid, hkey⟩ := (listed_known hreach hl₀ hlist).2 r hr
  cases ht.symm.trans ht₀
  have hown : Owns cfg.world sid t.session_orchestration_id :=
    hcid.symm ▸ turn_owns hreach sid l₀ hl₀ c.id (.inl ⟨c, hread, rfl⟩)
  obtain ⟨t', ht', hmove⟩ := hc.exec.task_of_some ht
  have hJ := hc.justified
  have hx := hc.exec
  refine ⟨t', ht', fun hs => ?_, fun hs => ?_, fun hs => ?_⟩
  · rcases hmove.to_proposed hs with h | ⟨error, he⟩
    · exact hs₁ h
    · -- whoever proposes the row owns the campaign, and has upserted the key
      cases he
      rcases hJ.proposes_or_ne with ⟨-, sid', task, l', rfl, rfl⟩ | ⟨h, -⟩
      · obtain ⟨t₁, ht₁, hkey₁, hown₁⟩ := upserted_owned hreach hc.log mem_cons_self
        cases ht.symm.trans ht₁
        refine hfresh (by rw [hown.unique hown₁]) ⟨task, r.id, ?_, ?_⟩
        · exact mem_cons_of_mem _ mem_cons_self
        · rw [← hkey₁, hkey]
      · exact h rfl
  · rcases hmove.to_planned hs with
      h | ⟨h, -⟩ | ⟨error, limit, status, he⟩ | ⟨error, he⟩ | ⟨task, he⟩
    · exact hs₂ h
    · exact hs₁ h
    · cases he
      obtain ⟨rfl, c', rows', r', hat, hcall⟩ := hJ.of_task_call rfl
      exact hheld l hc.log (holds_of_spawn_failure hat hcall)
    · cases he
      rcases hJ.proposes_or_ne with ⟨h, -⟩ | ⟨-, h, -⟩
      · cases h
      · exact h rfl
    · cases he
      obtain ⟨sid', rfl, hturn⟩ := hJ.of_turn_call rfl
      have hown' := turn_owns hreach sid' l hc.log _ hturn.touches_of_upsert
      rcases hx.upsert.1 with ⟨hnone, -⟩ | ⟨t₁, ht₁, hcid₁, hkey₁, -⟩
      · rw [ht] at hnone
        cases hnone
      · cases ht.symm.trans ht₁
        refine hfresh (by rw [hown.unique (hcid₁ ▸ hown')]) ⟨task, r.id, mem_cons_self, ?_⟩
        rw [← hkey₁, hkey]
  · rcases hmove.to_creating hs with h | ⟨h, -⟩ | ⟨error, he⟩
    · exact hs₃ h
    · exact hs₂ h
    · cases he
      rcases hJ.proposes_or_ne with ⟨h, -⟩ | ⟨-, -, h⟩
      · cases h
      · exact h rfl

omit ih in
/-- A call makes no pass hold what it did not hold and a turn may propose again. -/
theorem ApprovalInv.not_holds_call (hnot : ∀ l', cfg.log .coordinator = some l' → ¬ Holds l' id)
    {t : Task} (ht : cfg.world.task id = some t) (hplanned : t.status ≠ .Planned)
    (hcreating : t.status ≠ .Creating) (hl' : cfg'.log .coordinator = some l') : ¬ Holds l' id := by
  intro hholds
  rcases hc.log_cases hl' with ⟨ha, rfl⟩ | ⟨-, hl'⟩
  · subst ha
    rcases holds_cons hreach hc.log hc.justified hc.exec hholds with h | he | ⟨-, t', ht', hs⟩
    · exact hnot l hc.log h
    · have hx := hc.exec
      cases he
      obtain ⟨t', ht', hs, -⟩ := hx.claim
      exact hplanned (Option.some.inj (ht.symm.trans ht') ▸ hs)
    · exact hcreating (Option.some.inj (ht.symm.trans ht') ▸ hs)
  · exact hnot l' hl' hholds

theorem ApprovalInv.again_call (hl' : cfg'.log (.controller sid) = some l') (hagain : Again l' r) :
    (∃ t, cfg'.world.task r.id = some t ∧ t.status ≠ .Proposed ∧ t.status ≠ .Planned ∧
      t.status ≠ .Creating) ∧ ∀ l', cfg'.log .coordinator = some l' → ¬ Holds l' r.id := by
  -- a row that could be proposed again before
  have hold : ∀ l₀, cfg.log (.controller sid) = some l₀ → Again l₀ r →
      (a = .controller sid → ¬ Upserted (⟨call, reply⟩ :: l) r.task_key) →
      (∃ t, cfg'.world.task r.id = some t ∧ t.status ≠ .Proposed ∧ t.status ≠ .Planned ∧
        t.status ≠ .Creating) ∧ ∀ l', cfg'.log .coordinator = some l' → ¬ Holds l' r.id := by
    intro l₀ hl₀ hagain₀ hfresh
    obtain ⟨⟨t, ht, -, hs₂, hs₃⟩, hnot⟩ := ih.again sid l₀ r hl₀ hagain₀
    exact ⟨ih.again_status hreach hc hl₀ hagain₀ hfresh,
      fun l' hl' => ApprovalInv.not_holds_call hreach hc hnot ht hs₂ hs₃ hl'⟩
  rcases hc.log_cases hl' with ⟨rfl, rfl⟩ | ⟨ha, hl₀⟩
  · have hfresh : ¬ Upserted (⟨call, reply⟩ :: l) r.task_key := by
      obtain ⟨c, rows, -, -, -, hfresh, -⟩ := hagain
      exact hfresh
    rcases again_cons hc.justified hagain with h | ⟨c, rows, he, hr, hread, hlist, hin, hmay⟩
    · exact hold l hc.log h fun _ => hfresh
    · have hx := hc.exec
      cases he
      obtain ⟨hw, t, ht, hcid, hrow⟩ := hx.row_of_load_tasks hr
      have hs : r.status = t.status := by rw [hrow]; rfl
      refine ⟨⟨t, by rw [hw]; exact ht, ?_⟩, fun l' hl' => ?_⟩
      · rw [← hs]
        rcases hmay with ⟨-, hcont⟩ | ⟨-, hretry⟩
        · refine ⟨?_, ?_, ?_⟩ <;> intro h <;> simp [h, can_continue] at hcont
        · refine ⟨?_, ?_, ?_⟩ <;> intro h <;> simp [h, is_retryable] at hretry
      · rw [hc.others .coordinator (by simp)] at hl'
        exact ih.not_holds_of_listed hreach hc.log hread hlist hin ht hcid hs hmay hl'
  · exact hold l' hl₀ hagain fun h => absurd h.symm ha

theorem ApprovalInv.step (hK : ClaimsParked cfg (.call a x)) : ApprovalInv cfg' where
  planned _ _ := ih.planned_call hc
  creating _ _ := ih.creating_call hreach hc hK
  held _ _ := ih.held_call hreach hc hK
  pending _ := ih.pending_call hreach hc
  again _ _ _ := ih.again_call hreach hc
  claimed e older id hsuffix hclaims := by
    rw [hc.trace, suffix_cons_iff] at hsuffix
    rcases hsuffix with heq | hsuffix
    · cases heq
      have he := claims_eq_true hclaims
      cases he
      exact ih.of_claim hK hc
    · exact ih.claimed e older id hsuffix hclaims

omit hreach hc in
theorem ApprovalInv.quiet {lab : HostLabel} (hq : Quiet cfg cfg' lab) :
    ApprovalInv cfg' := by
  refine ⟨?_, ?_, fun l id hl hholds => ?_, ?_, fun sid l r hl hagain => ?_, ?_⟩
  · simpa only [hq.tasks, hq.trace] using ih.planned
  · simpa only [hq.tasks, hq.trace] using ih.creating
  · rcases hq.logs _ l hl with rfl | hl
    · exact absurd hholds not_holds_nil
    · simpa only [hq.tasks, hq.trace] using ih.held l id hl hholds
  · rintro id ⟨sid, task, l, hl⟩
    rcases hq.logs _ _ hl with he | hl
    · cases he
    · rw [hq.trace]
      exact ih.pending id ⟨sid, task, l, hl⟩
  · rcases hq.logs _ l hl with rfl | hl
    · obtain ⟨c, rows, hc, -⟩ := hagain
      cases hc
    · obtain ⟨hstatus, hnot⟩ := ih.again sid l r hl hagain
      refine ⟨by simpa only [hq.tasks] using hstatus, fun l' hl' => ?_⟩
      rcases hq.logs _ l' hl' with rfl | hl'
      · exact not_holds_nil
      · exact hnot l' hl'
  · simpa only [hq.trace] using ih.claimed

end Step

/-- **Claimed subtasks are approved.** In a run in which no subtask is claimed
between its upsert and its move to `Proposed`, every claim of the history is of a
subtask that an approval had moved out of `Proposed` after its last upsert. -/
theorem claimed_subtasks_approved {cfg : Configuration} (h : Reachable ClaimsParked cfg)
    {e : HostEntry} {older : List HostEntry} (hsuffix : (e :: older) <:+ cfg.trace) {id : TaskId}
    (hclaims : claims id e = true) : approved_since id older = true := by
  have hinv : ApprovalInv cfg := by
    refine reachable_steps ApprovalInv h ?_ (fun cfg cfg' lab _ ih _ hq => ih.quiet hq)
      fun cfg cfg' a x c r l hreach ih hK hc _ => ih.step hreach hc hK
    refine ⟨fun id t ht => ?_, fun id t ht => ?_, fun l id hl => ?_, ?_, fun sid l r hl => ?_,
      fun e older id hsuffix => ?_⟩
    · cases ht
    · cases ht
    · cases hl
    · rintro id ⟨sid, task, l, hl⟩
      cases hl
    · cases hl
    · exact absurd (suffix_nil.mp hsuffix) (by simp)
  exact hinv.claimed e older id hsuffix hclaims

/-! ### A run that meets the condition, and one that does not -/

/-- The test of `ClaimsParked` on a step. -/
def claims_parked (cfg : Configuration) : HostLabel → Bool
  | .call a _ => match cfg.next a with
      | some (.claim_orchestration_task id) => !unparked id cfg.trace
      | _ => true
  | _ => true

theorem claimsParked_of_claims_parked (cfg : Configuration) (lab : HostLabel)
    (h : claims_parked cfg lab = true) : ClaimsParked cfg lab := by
  cases lab with
  | call a x =>
    intro id hnext
    simpa [claims_parked, hnext] using h
  | _ => trivial

/-- The newest entry claims the subtask. -/
def newest_claims (id : TaskId) (approved : Bool) (cfg : Configuration) : Bool :=
  match cfg.trace with
  | e :: older => claims id e && approved_since id older == approved
  | [] => false

theorem newest_claims_eq_true {id : TaskId} {approved : Bool} {cfg : Configuration}
    (h : newest_claims id approved cfg = true) :
    ∃ e older, cfg.trace = e :: older ∧ claims id e = true ∧ approved_since id older
      = approved := by
  unfold newest_claims at h
  split at h
  · rename_i e older heq
    obtain ⟨hclaims, happroved⟩ := Bool.and_eq_true_iff.mp h
    exact ⟨e, older, heq, hclaims, eq_of_beq happroved⟩
  · cases h

/-- An approved plan is spawned. -/
theorem claimed_subtasks_approved_run : ∃ cfg e older, Reachable ClaimsParked cfg ∧
    (e :: older) <:+ cfg.trace ∧ claims 1 e = true ∧ approved_since 1 older = true := by
  have hrun : (host.runIf claims_parked start (approved_campaign ++ [.start .reconcile]
      ++ steps .coordinator 3)).any (fun cfg => newest_claims 1 true cfg = true) = true := by
    decide +kernel
  obtain ⟨cfg, hreach, hnewest⟩ :=
    System.exists_reaches_of_runIf claimsParked_of_claims_parked hrun
  obtain ⟨e, older, htrace, hclaims, -⟩ := newest_claims_eq_true hnewest
  have hsuffix : (e :: older) <:+ cfg.trace := htrace ▸ suffix_refl _
  exact ⟨cfg, e, older, hreach, hsuffix, hclaims,
    claimed_subtasks_approved hreach hsuffix hclaims⟩

/-- A follow-up turn of a running campaign has upserted a third subtask and not
yet moved it to `Proposed` when a pass claims it. -/
theorem unapproved_subtask_claimed : ∃ cfg e older, Reachable System.anyStep cfg ∧
    cfg.trace = e :: older ∧ claims 3 e = true ∧ approved_since 3 older = false := by
  have hrun : (host.run start (started_campaign
      ++ [.start (.controller_turn "k" (proposing [proposal .Implementation "c"]))]
      ++ steps (.controller "k") 4 ++ [.start .reconcile] ++ steps .coordinator 3)).any
      (fun cfg => newest_claims 3 false cfg = true) = true := by
    decide +kernel
  obtain ⟨cfg, hreach, hnewest⟩ := System.exists_reaches_of_run _ hrun
  obtain ⟨e, older, htrace, hclaims, happroved⟩ := newest_claims_eq_true hnewest
  exact ⟨cfg, e, older, hreach, htrace, hclaims, happroved⟩

end Agentty.Orchestration
