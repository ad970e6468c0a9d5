/-
A subtask enters integration with a pass of the generation that is completed, as
long as no generation begins with an old pass.

A roll-up begins a generation of verification: the controller judges the settled
subtasks, and `complete_orchestration_rollup` admits those that are `Ready` with
a pass. A pass is withdrawn when a passed subtask is continued or upserted, and
when a parked wave is reset, but not when a turn routes other work while the
campaign is being verified; such a subtask goes through the next running phase
with its pass, may be worked on by automated remediation there, and is admitted
by the next roll-up without a new verdict.
-/
import Agentty.Orchestration.TurnFacts

set_option autoImplicit false

namespace Agentty.Orchestration

/-! ## Events -/

/-- The entry records a pass of the subtask, in a campaign that is being
verified. -/
def passes (id : TaskId) : HostEntry → Bool
  | ⟨_, .record_orchestration_verdict cid task_key is_pass _, .ok _, before⟩ =>
    is_pass && decide (before.campaign_status cid = some .Verifying)
      && (before.task id).any fun t => t.session_orchestration_id = cid && t.task_key = task_key
        && (t.status = .Ready || t.status = .Reported)
  | _ => false

/-- The entry gives the subtask new work: a continuation, a remediation or a
spawn, from its claim to its delivery. -/
def works (id : TaskId) : HostEntry → Bool
  | ⟨_, .upsert_orchestration_task _, .ok id', _⟩ => id' = id
  | ⟨_, .queue_orchestration_continuation id' _ _ _, .ok queued, _⟩ => id' = id && queued
  | ⟨_, .claim_orchestration_review_application id' _ _, .ok claimed, _⟩ => id' = id && claimed
  | ⟨_, .claim_orchestration_task id', .ok claimed, _⟩ => id' = id && claimed
  | ⟨_, .create_session _ mode _, .ok _, _⟩ => mode.task_id = id
  | ⟨_, .link_orchestration_task_child id' _, .ok linked, _⟩ => id' = id && linked
  | ⟨_, .send_message _ (.child_prompt task), .ok _, _⟩ => task.id = id
  | ⟨_, .submit_coordinator_message _ (.orchestration_continuation id' _) _, .ok _, _⟩ => id' = id
  | _ => false

/-- The entry begins a generation of the campaign. -/
def rolls_up (cid : CampaignId) : HostEntry → Bool
  | ⟨_, .claim_orchestration_rollup cid', .ok claimed, _⟩ => cid' = cid && claimed
  | _ => false

/-- The subtask was passed in the current generation, and has not been given work
since. -/
def passed_since (cid : CampaignId) (id : TaskId) : List HostEntry → Bool :=
  since (passes id) fun e => works id e || rolls_up cid e

/-- The entry completes a roll-up and admits the subtask to integration. -/
def admits_subtask (id : TaskId) : HostEntry → Bool
  | ⟨_, .complete_orchestration_rollup cid, .ok _, before⟩ =>
    (before.task id).any (·.status = .Ready) &&
      ((complete_orchestration_rollup before cid).1.task id).any (·.status = .AwaitingIntegration)
  | _ => false

/-- A generation begins only while no ready subtask of the campaign carries a
pass. -/
def RollsUpUnpassed (cfg : Configuration) : HostLabel → Prop
  | .call a _ => ∀ cid, cfg.next a = some (.claim_orchestration_rollup cid) →
      cfg.world.campaign_status cid = some .Running → ∀ id t, cfg.world.task id = some t →
      t.session_orchestration_id = cid → t.status = .Ready → t.verification_verdict ≠ some .Pass
  | _ => True

theorem admits_subtask_eq_true {id : TaskId} {e : HostEntry} (h : admits_subtask id e = true) :
    ∃ cid reply t, e.event = ⟨.complete_orchestration_rollup cid, reply⟩ ∧
      e.before.task id = some t ∧ t.session_orchestration_id = cid ∧ t.status = .Ready ∧
      t.verification_verdict = some .Pass ∧ e.before.campaign_status cid = some .Verifying := by
  unfold admits_subtask at h
  split at h
  · rename_i a cid reply w
    obtain ⟨hready, hmoved⟩ := Bool.and_eq_true_iff.mp h
    obtain ⟨t, ht, hs⟩ := (Option.any_eq_true _ _).mp hready
    obtain ⟨t', ht', hs'⟩ := (Option.any_eq_true _ _).mp hmoved
    have hs := of_decide_eq_true hs
    obtain ⟨t₀, ht₀, rfl | ⟨-, hc, hcid, -, hv, -⟩⟩ := task_of_transition rfl ht'
    · cases ht.symm.trans ht₀
      rw [hs] at hs'
      cases hs'
    · cases ht.symm.trans ht₀
      exact ⟨cid, _, t, rfl, ht, hcid, hs, hv rfl, hc⟩
  · cases h

/-! ## No work while verifying -/

variable {rows : List SessionOrchestrationTaskRow} {r : SessionOrchestrationTaskRow}
  {c : SessionOrchestrationRow} {call : Call} {l : RunLog}

variable {K : Configuration → HostLabel → Prop} {cfg : Configuration}

/-- A pass works on no subtask of a campaign that is being verified. -/
theorem not_task_call_of_verifying (hreach : Reachable K cfg) (hl : cfg.log .coordinator = some l)
    (hat : At l c rows r) (hcall : TaskCall c rows r l call) {t : Task}
    (ht : cfg.world.task r.id = some t) :
    cfg.world.campaign_status t.session_orchestration_id ≠ some .Verifying := by
  intro hverifying
  have hne : c.status ≠ .Verifying := by
    intro hs
    cases hcall <;> simp_all [Reconciles]
  obtain ⟨k, hk, hopen⟩ := open_status hreach hl hat.loaded hat.isOpen
  obtain ⟨t', ht', hcid, -⟩ := hat.known hreach hl
  rw [Option.some.inj (ht.symm.trans ht'), hcid] at hverifying
  obtain ⟨k', hk', hs⟩ := Option.map_eq_some_iff.mp hverifying
  rw [← Option.some.inj (hk.symm.trans hk')] at hs
  exact hne (hopen.2.1 hs)

section Step

variable {cfg cfg' : Configuration} {a : Actor} {call : Call}
  {reply : Except String (Reply call)} {l : RunLog} {id : TaskId}

/-- Who gives work to a subtask: a turn that upserts or continues it, or a pass. -/
theorem works_cases {w : World} (hJ : Justified a l call)
    (h : works id ⟨a, call, reply, w⟩ = true) :
    (∃ task, (⟨call, reply⟩ : RunEvent) = ⟨.upsert_orchestration_task task, .ok id⟩) ∨
    (∃ prompt criteria areas, (⟨call, reply⟩ : RunEvent) =
      ⟨.queue_orchestration_continuation id prompt criteria areas, .ok true⟩) ∨
    (a = .coordinator ∧ ∃ c rows r, At l c rows r ∧ r.id = id ∧ TaskCall c rows r l call) := by
  -- a call about a subtask is about the one it names
  have hpass : call.is_task_call = true →
      (∀ c rows r, TaskCall c rows r l call → r.id = id) →
      a = .coordinator ∧ ∃ c rows r, At l c rows r ∧ r.id = id ∧ TaskCall c rows r l call := by
    intro hcall hid
    obtain ⟨ha, c, rows, r, hat, htask⟩ := hJ.of_task_call hcall
    exact ⟨ha, c, rows, r, hat, hid c rows r htask, htask⟩
  unfold works at h
  split at h
  · rename_i heq
    cases heq
    obtain rfl := of_decide_eq_true h
    exact .inl ⟨_, rfl⟩
  · rename_i heq
    cases heq
    obtain ⟨hid, rfl⟩ := Bool.and_eq_true_iff.mp h
    obtain rfl := of_decide_eq_true hid
    exact .inr (.inl ⟨_, _, _, rfl⟩)
  iterate 2
    · rename_i heq
      cases heq
      obtain ⟨hid, -⟩ := Bool.and_eq_true_iff.mp h
      obtain rfl := of_decide_eq_true hid
      refine .inr (.inr (hpass rfl fun c rows r htask => ?_))
      cases htask
      rfl
  · rename_i heq
    cases heq
    obtain rfl := of_decide_eq_true h
    refine .inr (.inr (hpass rfl fun c rows r htask => ?_))
    cases htask with
    | create _ _ _ hmode => rw [hmode]; cases r.kind <;> rfl
  · rename_i heq
    cases heq
    obtain ⟨hid, -⟩ := Bool.and_eq_true_iff.mp h
    obtain rfl := of_decide_eq_true hid
    refine .inr (.inr (hpass rfl fun c rows r htask => ?_))
    cases htask <;> rfl
  · rename_i heq
    cases heq
    obtain rfl := of_decide_eq_true h
    refine .inr (.inr (hpass rfl fun c rows r htask => ?_))
    cases htask with
    | send _ _ _ htask => exact htask.symm
  · rename_i heq
    cases heq
    obtain rfl := of_decide_eq_true h
    refine .inr (.inr ?_)
    cases a with
    | coordinator =>
      cases hJ with
      | campaign hload hcall =>
        cases hcall with
        | task ho hlist hr htask =>
          refine ⟨rfl, _, _, _, ⟨hload, ho, hlist, hr⟩, ?_, htask⟩
          cases htask
          rfl
    | app | controller => cases hJ
  · cases h

variable {cid : CampaignId}

theorem rolls_up_eq_true {e : HostEntry} (h : rolls_up cid e = true) :
    e.event = ⟨.claim_orchestration_rollup cid, .ok true⟩ := by
  unfold rolls_up at h
  split at h
  · obtain ⟨hid, rfl⟩ := Bool.and_eq_true_iff.mp h
    obtain rfl := of_decide_eq_true hid
    rfl
  · cases h

/-- While the campaign is being verified, a call that leaves the subtask `Ready`
with a pass gives it no work. -/
theorem works_eq_false (hreach : Reachable K cfg) (hc : Called cfg cfg' a call reply l)
    {t t' : Task} (ht : cfg.world.task id = some t) (ht' : cfg'.world.task id = some t')
    (hs' : t'.status = .Ready)
    (hverifying : cfg.world.campaign_status t.session_orchestration_id = some .Verifying) :
    works id ⟨a, call, reply, cfg.world⟩ = false := by
  by_contra hworks
  have hJ := hc.justified
  have hx := hc.exec
  rcases works_cases hJ (Bool.not_eq_false _ ▸ hworks) with
    ⟨task, he⟩ | ⟨prompt, criteria, areas, he⟩ | ⟨rfl, c, rows, r, hat, rfl, hcall⟩
  · cases he
    have hplanned : t'.status = .Planned := by
      rcases hx.upsert.1 with ⟨-, h⟩ | ⟨t₀, -, -, -, h⟩ <;>
        · rw [ht'] at h
          rw [Option.some.inj h]
          rfl
    rw [hplanned] at hs'
    cases hs'
  · cases he
    obtain ⟨-, -, -, t₁, ht₁, hs₁, -⟩ := hx.queue
    rw [Option.some.inj (ht'.symm.trans ht₁), hs₁] at hs'
    cases hs'
  · exact not_task_call_of_verifying hreach hc.log hat hcall ht hverifying

/-- A campaign comes to be verified by a claimed roll-up only. -/
theorem verifying_of_call (hc : Called cfg cfg' a call reply l)
    (h : cfg'.world.campaign_status cid = some .Verifying) :
    cfg.world.campaign_status cid = some .Verifying ∨
      (call = .claim_orchestration_rollup cid ∧
        cfg.world.campaign_status cid = some .Running) := by
  obtain ⟨k', hk', hs'⟩ := Option.map_eq_some_iff.mp h
  have hJ := hc.justified
  rcases hc.exec.campaign hk' with ⟨k, hk, hmove⟩ | hborn
  · have hold : k.status = .Verifying → cfg.world.campaign_status cid = some .Verifying :=
      fun hs => Option.map_eq_some_iff.mpr ⟨k, hk, hs⟩
    cases hmove with
    | keep | planned | surfaced | cleared => exact .inl (hold hs')
    | rollup_claimed hs => exact .inr ⟨rfl, Option.map_eq_some_iff.mpr ⟨k, hk, hs⟩⟩
    | written =>
      subst hs'
      cases a with
      | coordinator =>
        cases hJ with
        | campaign _ h =>
          cases h with
          | task _ _ _ h => cases h
      | app => cases hJ
      | controller sid =>
        cases hJ with
        | route_status _ _ hstatus => rcases hstatus with h | h <;> cases h
    | approved | rolled_up | began | integrating | completed => cases hs'
  · cases hborn with
    | fresh _ _ =>
      obtain ⟨sid, rfl, hturn⟩ := hJ.of_turn_call rfl
      cases hturn
      cases hs'

/-- A call that leaves a subtask of a campaign under verification `Ready` with a
pass has just passed it, or found it so. -/
theorem passes_of_call (hreach : Reachable K cfg) (hc : Called cfg cfg' a call reply l) {t' : Task}
    (ht' : cfg'.world.task id = some t') (hs' : t'.status = .Ready)
    (hv' : t'.verification_verdict = some .Pass)
    (hverifying : cfg.world.campaign_status t'.session_orchestration_id = some .Verifying) :
    passes id ⟨a, call, reply, cfg.world⟩ = true ∨
      ∃ t, cfg.world.task id = some t ∧ t.status = .Ready ∧
        t.verification_verdict = some .Pass := by
  have hJ := hc.justified
  rcases hc.exec.task ht' with ⟨t, ht, hmove⟩ | hborn
  · cases hmove with
    | keep | summarized | reported => exact .inr ⟨_, ht, hs', hv'⟩
    | @judged is_pass reason recorded hcs hs =>
      have hpass : is_pass = true := by
        by_contra hne
        simp [hne] at hv'
      simp [passes, hpass, hcs, ht, hs]
    | written =>
      -- a pass writes nothing about such a subtask, others do not write `Ready`
      simp only at hs'
      subst hs'
      rcases hJ.of_task_status with
        ⟨rfl, c, rows, r, hat, hcall⟩ | ⟨-, h, -⟩ | ⟨sid, task, l', -, h, -⟩
      · obtain ⟨rfl, -⟩ := hcall.statusWritable
        exact not_task_call_of_verifying hreach hc.log hat hcall ht hverifying |>.elim
      · cases h
      · cases h
    | spawn_failed hs => rcases hs with rfl | rfl <;> cases hs'
    | reset _ => cases hv'
    | approved | admitted | claimed | linked | review_claimed | continued | detached | upserted =>
      cases hs'
  · cases hborn with
    | fresh _ _ _ => cases hs'

end Step

/-! ## The invariant -/

/-- What holds in every configuration of such a run: ready passes of a campaign
under verification are of its generation. -/
structure VerificationInv (cfg : Configuration) : Prop where
  ready : ∀ id t, cfg.world.task id = some t → t.status = .Ready →
    t.verification_verdict = some .Pass →
    cfg.world.campaign_status t.session_orchestration_id = some .Verifying →
    passed_since t.session_orchestration_id id cfg.trace = true
  admitted : ∀ e older id, (e :: older) <:+ cfg.trace → admits_subtask id e = true →
    ∃ t, e.before.task id = some t ∧ t.verification_verdict = some .Pass ∧
      passed_since t.session_orchestration_id id older = true

theorem VerificationInv.step {cfg cfg' : Configuration} {a : Actor} {x : Choice}
    {reply : Except String (Reply call)} (hreach : Reachable K cfg) (ih : VerificationInv cfg)
    (hK : RollsUpUnpassed cfg (.call a x)) (hc : Called cfg cfg' a call reply l) :
    VerificationInv cfg' := by
  refine ⟨fun id t' ht' hs' hv' hverifying' => ?_, fun e older id hsuffix hadmits => ?_⟩
  · rw [hc.trace]
    rcases verifying_of_call hc hverifying' with hverifying | ⟨rfl, hrunning⟩
    · rcases passes_of_call hreach hc ht' hs' hv' hverifying with h | ⟨t, ht, hs, hv⟩
      · exact since_cons.mpr (.inl h)
      · obtain ⟨t₀, ht₀, hmove⟩ := hc.exec.task_of_some ht
        cases ht'.symm.trans ht₀
        rw [hmove.campaign] at hverifying ⊢
        refine since_cons.mpr
          (.inr ⟨Bool.or_eq_false_iff.mpr ⟨?_, ?_⟩, ih.ready id t ht hs hv hverifying⟩)
        · exact works_eq_false hreach hc ht ht' hs' hverifying
        · by_contra hrolls
          have he := rolls_up_eq_true (Bool.not_eq_false _ ▸ hrolls)
          have hx := hc.exec
          cases he
          rw [hx.claim_rollup] at hverifying
          cases hverifying
    · -- a generation begins: by assumption no ready subtask carries a pass
      rcases hc.exec.task ht' with ⟨t, ht, hmove⟩ | hborn
      · cases hmove
        exact absurd hv' (hK _ hc.next hrunning id t' ht rfl hs')
      · cases hborn
  · rw [hc.trace, List.suffix_cons_iff] at hsuffix
    rcases hsuffix with heq | hsuffix
    · cases heq
      obtain ⟨cid, r, t, -, ht, rfl, hs, hv, hverifying⟩ := admits_subtask_eq_true hadmits
      exact ⟨t, ht, hv, ih.ready id t ht hs hv hverifying⟩
    · exact ih.admitted e older id hsuffix hadmits

/-- **Passes are of the completed generation.** In a run in which no generation
begins with a passed ready subtask, every subtask that a completed roll-up admits
to integration carries a pass that the controller recorded in that generation,
and was given no work after that. -/
theorem admitted_subtasks_passed {cfg : Configuration} (h : Reachable RollsUpUnpassed cfg)
    {e : HostEntry} {older : List HostEntry} (hsuffix : (e :: older) <:+ cfg.trace) {id : TaskId}
    (hadmits : admits_subtask id e = true) :
    ∃ t, e.before.task id = some t ∧ t.verification_verdict = some .Pass ∧
      passed_since t.session_orchestration_id id older = true := by
  have hinv : VerificationInv cfg := by
    refine reachable_steps VerificationInv h ?_ ?_
      fun cfg cfg' a x c r l hreach ih hK hc _ => ih.step hreach hK hc
    · refine ⟨fun id t ht => ?_, fun e older id hsuffix => ?_⟩
      · cases ht
      · exact absurd (List.suffix_nil.mp hsuffix) (by simp)
    · intro cfg cfg' lab _ ih _ hq
      refine ⟨?_, ?_⟩
      · simpa only [hq.tasks, hq.trace, World.campaign_status, hq.campaigns] using ih.ready
      · simpa only [hq.trace] using ih.admitted
  exact hinv.admitted e older id hsuffix hadmits

/-! ### A run that meets the condition, and one that does not -/

/-- The test of `RollsUpUnpassed` on a step: no subtask at all is passed. -/
def rolls_up_unpassed (cfg : Configuration) : HostLabel → Bool
  | .call a _ => match cfg.next a with
      | some (.claim_orchestration_rollup _) =>
        cfg.world.tasks.rows.all fun row => row.2.verification_verdict ≠ some .Pass
      | _ => true
  | _ => true

theorem rollsUpUnpassed_of_test (cfg : Configuration) (lab : HostLabel)
    (h : rolls_up_unpassed cfg lab = true) : RollsUpUnpassed cfg lab := by
  cases lab with
  | call a x =>
    intro cid hnext _ id t ht _ _
    simp only [rolls_up_unpassed, hnext, List.all_eq_true, decide_eq_true_eq] at h
    exact h (id, t) (Table.get?_eq_some_iff.mp ht)
  | _ => trivial

/-- The newest entry admits the subtask. -/
def newest_admits (id : TaskId) (passed : Bool) (cfg : Configuration) : Bool :=
  match cfg.trace with
  | e :: older => admits_subtask id e && passed_since 1 id older == passed
  | [] => false

theorem newest_admits_eq_true {id : TaskId} {passed : Bool}
    (h : newest_admits id passed cfg = true) :
    ∃ e older, cfg.trace = e :: older ∧ admits_subtask id e = true ∧
      passed_since 1 id older = passed := by
  unfold newest_admits at h
  split at h
  · rename_i e older heq
    obtain ⟨hadmits, hpassed⟩ := Bool.and_eq_true_iff.mp h
    exact ⟨e, older, heq, hadmits, eq_of_beq hpassed⟩
  · cases h

/-- The roll-up of a generation has been worked off, and a pass completes it. -/
def completed_rollup (generation : Nat) : List HostLabel :=
  [.env (.operation_status (.orchestration_rollup 1 generation) .Done), .start .reconcile]
    ++ steps .coordinator 4

/-- Both subtasks are passed in the first generation. -/
theorem admitted_subtasks_passed_run : ∃ cfg e older, Reachable RollsUpUnpassed cfg ∧
    (e :: older) <:+ cfg.trace ∧ admits_subtask 1 e = true ∧
    ∃ t, e.before.task 1 = some t ∧ t.verification_verdict = some .Pass ∧
      passed_since t.session_orchestration_id 1 older = true := by
  have hrun : (host.runIf rolls_up_unpassed start (verifying_campaign
      ++ [.start (.controller_turn "k" (passing ["a", "b"]))] ++ steps (.controller "k") 4
      ++ completed_rollup 1)).any (fun cfg => newest_admits 1 true cfg = true) = true := by
    decide +kernel
  obtain ⟨cfg, hreach, hnewest⟩ := System.exists_reaches_of_runIf rollsUpUnpassed_of_test hrun
  obtain ⟨e, older, htrace, hadmits, -⟩ := newest_admits_eq_true hnewest
  have hsuffix : (e :: older) <:+ cfg.trace := htrace ▸ List.suffix_refl _
  exact ⟨cfg, e, older, hreach, hsuffix, hadmits, admitted_subtasks_passed hreach hsuffix hadmits⟩

/-- A focused review of a child that leaves something to apply, or nothing. -/
def review_of (suggestions : Option String) : Observation where
  added_lines := 1
  answer := none
  deleted_lines := 0
  focused_review_status := suggestions.map fun _ => .Ready
  focused_review_text := suggestions.map ("### Suggestions\n" ++ ·)
  has_diff := suggestions.map fun _ => true
  input_tokens := 0
  output_tokens := 0
  questions := none

/-- The controller passes the first subtask and routes a third one, which is
approved and spawned. Meanwhile a review of the first child is applied. -/
def remediated_campaign : List HostLabel :=
  verifying_campaign
    ++ [.start (.controller_turn "k"
      { passing ["a"] with subtasks := [proposal .Implementation "c"] })]
    ++ steps (.controller "k") 7 ++ [.start (.approve "k" none)] ++ steps .app 2
    ++ [.env (.session_observed "x" (review_of (some "rename"))), .start .reconcile]
    ++ steps .coordinator 7 ++ [serves .coordinator "z"] ++ steps .coordinator 3
    ++ [.env (.operation_status (.orchestration_continuation 1 1) .Done),
      .env (.session_observed "x" (review_of none))]
    ++ moved "x" [.InProgress, .Review] ++ moved "z" [.InProgress, .Review]

/-- The first subtask keeps the pass of the first generation through its
remediation, and the second roll-up admits it although its controller said
nothing about it. -/
theorem stale_pass_admitted : ∃ cfg e older, Reachable System.anyStep cfg ∧
    cfg.trace = e :: older ∧ admits_subtask 1 e = true ∧ passed_since 1 1 older = false := by
  have hrun : (host.run start (remediated_campaign ++ [.start .reconcile] ++ steps .coordinator 7
      ++ [.start .reconcile] ++ steps .coordinator 6
      ++ [.start (.controller_turn "k" (passing []))] ++ steps (.controller "k") 2
      ++ completed_rollup 2)).any (fun cfg => newest_admits 1 false cfg = true) = true := by
    decide +kernel
  obtain ⟨cfg, hreach, hnewest⟩ := System.exists_reaches_of_run _ hrun
  obtain ⟨e, older, htrace, hadmits, hpassed⟩ := newest_admits_eq_true hnewest
  exact ⟨cfg, e, older, hreach, htrace, hadmits, hpassed⟩

end Agentty.Orchestration
