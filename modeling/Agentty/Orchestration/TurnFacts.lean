/-
What a controller turn in flight can rely on, in every run.

Only turns of a campaign's own controller insert subtasks into it, and a
controller runs one turn at a time. So the list a turn has read, with the
subtasks it has upserted itself, stays complete, and an upsert either inserts a
new row or hits a row of that list which the turn was allowed to propose again.
-/
import Agentty.Orchestration.PassFacts

set_option autoImplicit false

namespace Agentty.Orchestration

/-! ## The campaign a turn works on -/

variable {sid : SessionId} {l : RunLog} {c : SessionOrchestrationRow}

theorem TurnCall.read_cons {call : Call} (hJ : TurnCall sid l call)
    (reply : Except String (Reply call)) (h : campaign_read l = some c) :
    campaign_read (⟨call, reply⟩ :: l) = some c := by
  rw [campaign_read_cons]
  cases hread : RunEvent.read? ⟨call, reply⟩ with
  | none => exact h
  | some row =>
    obtain ⟨sid', he⟩ := RunEvent.read?_eq_some hread
    cases he
    cases hJ
    cases h

variable {task : PersistedOrchestrationTask}

theorem TurnCall.touches_of_upsert (h : TurnCall sid l (.upsert_orchestration_task task)) :
    Touches l task.session_orchestration_id := by
  cases h with
  | route_new hc _ _ _ hid | route_again hc _ _ _ hid | plan_retry hc _ _ _ hid =>
    exact .inl ⟨_, hc, hid.symm⟩
  | plan_new hin hid _ => exact .inr (hid ▸ hin)

variable {K : Configuration → HostLabel → Prop} {cfg : Configuration}

theorem turn_list (h : Reachable K cfg) (hl : cfg.log (.controller sid) = some l)
    {cid : CampaignId} {rows : List SessionOrchestrationTaskRow}
    (hlist : snapshot l = some (cid, rows)) : ∃ c, campaign_read l = some c ∧ c.id = cid := by
  refine reachable_logs (fun _ a l => ∀ sid, a = .controller sid → ∀ cid rows,
    snapshot l = some (cid, rows) → ∃ c, campaign_read l = some c ∧ c.id = cid) h ?_ ?_ ?_ ?_ _ l hl
    sid rfl cid rows hlist
  · intro w a sid _ cid rows hlist
    cases hlist
  · rintro cfg w' a l call reply _ _ ih hJ _ sid rfl cid rows hlist
    rcases snapshot_cons_eq_some hlist with he | ⟨-, hlist⟩
    · cases he
      have hread := fun c => TurnCall.read_cons (c := c) hJ (.ok rows)
      cases hJ with
      | list hc => exact ⟨_, hread _ hc, rfl⟩
    · obtain ⟨c, hc, hid⟩ := ih sid rfl cid rows hlist
      exact ⟨c, TurnCall.read_cons hJ _ hc, hid⟩
  · exact fun cfg w' a l b l₀ call reply _ _ ih _ _ _ _ => ih
  · exact fun w w' m a l _ ih => ih

/-- The campaign is over, and no pass has it open. -/
def Closed (cfg : Configuration) (id : CampaignId) : Prop :=
  (∃ k, cfg.world.campaign id = some k ∧ k.status.is_active = false) ∧
    ∀ l c, cfg.log .coordinator = some l → Loaded l c → c.id = id → ¬ IsOpen l id

/-- A call keeps a campaign closed, unless a turn reopens it. -/
theorem Closed.call {cfg' : Configuration} {a : Actor} {call : Call}
    {reply : Except String (Reply call)} {id : CampaignId} (h : Closed cfg id)
    (hc : Called cfg cfg' a call reply l)
    (hfree : ∀ sid, a = .controller sid → ¬ Reopens l id ∨
      ∀ status, call ≠ .update_orchestration_status id status) :
    Closed cfg' id := by
  obtain ⟨⟨k, hk, hinactive⟩, hopen⟩ := h
  refine ⟨?_, fun l' c hl' hload hid ho => ?_⟩
  · obtain ⟨k', hk', hmove⟩ := hc.exec.campaign_of_some hk
    refine ⟨k', hk', ?_⟩
    have hJ := hc.justified
    cases hmove with
    | keep | planned | surfaced | cleared => exact hinactive
    | began hs | approved hs | rolled_up hs | rollup_claimed hs | integrating hs =>
      rw [hs] at hinactive; cases hinactive
    | completed hs => rfl
    | @written status =>
      rcases hJ.status_write with rfl | ⟨sid, hsid, hre⟩
      · rfl
      · rcases hfree sid hsid with h | h
        · exact absurd hre h
        · exact absurd rfl (h status)
  · rcases hc.log_cases hl' with ⟨rfl, rfl⟩ | ⟨-, hl'⟩
    · rcases loaded_cons hc.justified hload with ⟨rfl, cs, he, hcs⟩ | hload
      · -- only active campaigns are loaded
        have hx := hc.exec
        cases he
        obtain ⟨-, rfl⟩ := hx.load_active
        obtain ⟨k', hk', hactive, -⟩ := mem_load_active_orchestrations hcs
        subst hid
        rw [Option.some.inj (hk.symm.trans hk'), hactive] at hinactive
        cases hinactive
      · exact hopen l c hc.log hload hid (isOpen_of_cons ho).1
    · exact hopen l' c hl' hload hid ho

/-- **A finished campaign that a turn has read stays closed** until the turn has
read its subtasks, or has a new campaign. -/
theorem done_closed (h : Reachable K cfg) (hl : cfg.log (.controller sid) = some l)
    (hc : campaign_read l = some c) (hs : c.status = .Done) (hlist : snapshot l = none)
    (hin : inserted l = none) : Closed cfg c.id := by
  refine reachable_steps (fun cfg => ∀ sid l c, cfg.log (.controller sid) = some l →
    campaign_read l = some c → c.status = .Done → snapshot l = none → inserted l = none →
    Closed cfg c.id) h ?_ ?_ ?_ sid l c hl hc hs hlist hin
  · intro sid l c hl
    cases hl
  · intro cfg cfg' lab _ ih _ hq sid l c hl hc hs hlist hin
    rcases hq.logs _ l hl with rfl | hl
    · cases hc
    · obtain ⟨⟨k, hk, hinactive⟩, hopen⟩ := ih sid l c hl hc hs hlist hin
      refine ⟨⟨k, by rw [hq.campaigns]; exact hk, hinactive⟩, fun l' c' hl' hload => ?_⟩
      rcases hq.logs _ l' hl' with rfl | hl'
      · exact absurd hload not_loaded_nil
      · exact hopen l' c' hl' hload
  · intro cfg cfg' a x call reply l₀ hreach ih _ hcall _ sid l c hl hc hs hlist hin
    rcases hcall.log_cases hl with ⟨rfl, rfl⟩ | ⟨ha, hl⟩
    · have hlist' : snapshot l₀ = none := by
        rw [snapshot_cons] at hlist
        exact (Option.or_eq_none_iff.mp hlist).2
      have hin' : inserted l₀ = none := by
        rw [inserted_cons] at hin
        exact (Option.or_eq_none_iff.mp hin).2
      rw [campaign_read_cons] at hc
      rcases Option.or_eq_some_iff.mp hc with hread | ⟨-, hc'⟩
      · -- the campaign is read as done now, so no pass can have it open
        obtain ⟨sid', he⟩ := RunEvent.read?_eq_some hread
        have hx := hcall.exec
        cases he
        obtain ⟨hw, hload⟩ := hx.load_controller
        obtain ⟨k, hk, -, hrow⟩ := load_orchestration_for_controller_eq_some hload
        have hdone : k.status = .Done := by rw [← (campaign_row_eq_some hrow).2.1, hs]
        refine ⟨⟨k, by rw [hw]; exact hk, by rw [hdone]; rfl⟩, fun l' c' hl' hload' hid ho => ?_⟩
        rw [hcall.others .coordinator (by simp)] at hl'
        rw [← hid] at ho
        obtain ⟨k', hk', hopen⟩ := open_status hreach hl' hload' ho
        rw [hid] at hk'
        rw [Option.some.inj (hk'.symm.trans hk)] at hopen
        exact hopen.1 hdone
      · -- the turn reopens the campaign only after it has listed its subtasks
        have hno : ∀ id status, ¬ TurnCall sid l₀ (.update_orchestration_status id status) := by
          intro id status hJ
          cases hJ with
          | route_status hr hroutes _ =>
            rw [Option.some.inj (hr.symm.trans hc'), hs] at hroutes
            cases hroutes
          | supersede hr hsup _ =>
            rw [Option.some.inj (hr.symm.trans hc'), hs] at hsup
            cases hsup
          | plan_status _ _ hlisted => exact hlisted hin' hlist'
        refine (ih sid l₀ c hcall.log hc' hs hlist' hin').call hcall fun _ _ => .inr ?_
        rintro status rfl
        exact hno _ _ hcall.justified
    · refine (ih sid l c hl hc hs hlist hin).call hcall fun sid' hsid => .inl fun hre => ?_
      subst hsid
      have hown := turn_owns hreach sid l hl c.id (.inl ⟨c, hc, rfl⟩)
      have hown' := turn_owns hreach sid' l₀ hcall.log c.id hre.touches
      exact ha (by rw [hown.unique hown'])

/-! ## Complete lists -/

variable {id : TaskId}

/-- **A subtask belongs to a campaign that exists.** -/
theorem task_campaign (h : Reachable K cfg) {t : Task} (ht : cfg.world.task id = some t) :
    ∃ k, cfg.world.campaign t.session_orchestration_id = some k := by
  refine reachable_world (fun w => ∀ id t, w.task id = some t →
    ∃ k, w.campaign t.session_orchestration_id = some k) h ?_ ?_ ?_ id t ht
  · intro id t ht
    cases ht
  · intro cfg w' a l call reply _ _ ih _ hx id t' ht'
    have hexists : ∃ k, cfg.world.campaign t'.session_orchestration_id = some k := by
      rcases hx.task ht' with ⟨t, ht, hmove⟩ | hborn
      · rw [hmove.campaign]
        exact ih id t ht
      · cases hborn with
        | fresh _ _ hcampaign => exact Option.isSome_iff_exists.mp hcampaign
    obtain ⟨k, hk⟩ := hexists
    obtain ⟨k', hk', -⟩ := hx.campaign_of_some hk
    exact ⟨k', hk'⟩
  · intro w w' m henv ih id t ht
    rw [World.task, env_tasks henv] at ht
    rw [World.campaign, env_campaigns henv]
    exact ih id t ht

/-- The log knows every subtask of the campaigns it works on: those of its list
and those it has upserted. -/
structure Covers (w : World) (l : RunLog) : Prop where
  list : ∀ cid rows, snapshot l = some (cid, rows) → ∀ id t, w.task id = some t →
    t.session_orchestration_id = cid → (∃ r ∈ rows, r.id = id) ∨ Upserted l t.task_key
  inserted : ∀ cid, inserted l = some cid → ∀ id t, w.task id = some t →
    t.session_orchestration_id = cid → Upserted l t.task_key

variable {w' : World}

theorem Covers.own {call : Call} {reply : Except String (Reply call)} (h : Covers cfg.world l)
    (hreach : Reachable K cfg) (hx : Exec cfg.world call reply w') :
    Covers w' (⟨call, reply⟩ :: l) := by
  -- a row after the call is an older one, or the turn has just upserted it
  have hrow : ∀ id t', w'.task id = some t' →
      (∃ t, cfg.world.task id = some t ∧ t'.session_orchestration_id = t.session_orchestration_id ∧
        t'.task_key = t.task_key) ∨ Upserted (⟨call, reply⟩ :: l) t'.task_key := by
    intro id t' ht'
    rcases hx.task ht' with ⟨t, ht, hmove⟩ | hborn
    · exact .inl ⟨t, ht, hmove.campaign, hmove.key⟩
    · cases hborn with
      | @fresh task _ _ _ => exact .inr ⟨task, id, List.mem_cons_self, rfl⟩
  refine ⟨fun cid rows hlist id t' ht' hcid => ?_, fun cid hin id t' ht' hcid => ?_⟩
  · rcases hrow id t' ht' with ⟨t, ht, hcid', hkey⟩ | hup
    · rcases snapshot_cons_eq_some hlist with he | ⟨-, hlist⟩
      · cases he
        obtain ⟨-, rfl⟩ := hx.load_tasks
        exact .inl ⟨task_row cfg.world id t,
          mem_load_orchestration_tasks.mpr ⟨t, ht, hcid'.symm.trans hcid, rfl⟩, rfl⟩
      · refine (h.list cid rows hlist id t ht (hcid'.symm.trans hcid)).imp_right fun hup => ?_
        rw [hkey]
        exact hup.cons _
    · exact .inr hup
  · rcases hrow id t' ht' with ⟨t, ht, hcid', hkey⟩ | hup
    · rw [inserted_cons] at hin
      rcases Option.or_eq_some_iff.mp hin with hin | ⟨-, hin⟩
      · -- a campaign that has just been inserted had no subtasks
        obtain ⟨sid, status, max, he⟩ := RunEvent.inserted?_eq_some hin
        cases he
        obtain ⟨hnone, -⟩ := hx.insert
        obtain ⟨k, hk⟩ := task_campaign hreach ht
        rw [hcid'.symm.trans hcid, hnone] at hk
        cases hk
      · rw [hkey]
        exact (h.inserted cid hin id t ht (hcid'.symm.trans hcid)).cons _
    · exact hup

/-- The calls of others, who insert no subtask into a campaign of the turn. -/
theorem Covers.other {w : World} {call : Call} {reply : Except String (Reply call)}
    (h : Covers w l) (hx : Exec w call reply w')
    (hne : ∀ task, call = .upsert_orchestration_task task →
      ¬ Touches l task.session_orchestration_id)
    (hlist : ∀ cid rows, snapshot l = some (cid, rows) → Touches l cid) : Covers w' l := by
  refine ⟨fun cid rows hs id t' ht' hcid => ?_, fun cid hin id t' ht' hcid => ?_⟩
  · rcases hx.task ht' with ⟨t, ht, hmove⟩ | hborn
    · rw [hmove.key]
      exact h.list cid rows hs id t ht (hmove.campaign.symm.trans hcid)
    · cases hborn with
      | @fresh task _ _ _ =>
        subst hcid
        exact absurd (hlist _ rows hs) (hne task rfl)
  · rcases hx.task ht' with ⟨t, ht, hmove⟩ | hborn
    · rw [hmove.key]
      exact h.inserted cid hin id t ht (hmove.campaign.symm.trans hcid)
    · cases hborn with
      | @fresh task _ _ _ =>
        subst hcid
        exact absurd (.inr hin) (hne task rfl)

/-- **The list of a turn stays complete.** -/
theorem turn_covers (h : Reachable K cfg) (hl : cfg.log (.controller sid) = some l) :
    Covers cfg.world l := by
  refine reachable_logs (fun w a l => ∀ sid, a = .controller sid → Covers w l) h ?_ ?_ ?_ ?_ _ l hl
    sid rfl
  · refine fun w a sid _ => ⟨fun cid rows hlist => ?_, fun cid hin => ?_⟩
    · cases hlist
    · cases hin
  · exact fun cfg w' a l call reply hreach _ ih _ hx sid hsid => (ih sid hsid).own hreach hx
  · rintro cfg w' a l b l₀ call reply hreach hl ih hb hl₀ hJ hx sid rfl
    refine (ih sid rfl).other hx ?_ ?_
    · -- two turns with the campaign in their hands are of the same controller
      rintro task rfl htouch
      obtain ⟨sid', rfl, hturn⟩ := hJ.of_turn_call rfl
      have hown := turn_owns hreach sid l hl _ htouch
      have hown' := turn_owns hreach sid' l₀ hl₀ _ hturn.touches_of_upsert
      exact hb (by rw [hown'.unique hown])
    · intro cid rows hlist
      obtain ⟨c, hc, hid⟩ := turn_list hreach hl hlist
      exact .inl ⟨c, hc, hid⟩
  · intro w w' m a l henv ih sid hsid
    have hcov := ih sid hsid
    refine ⟨fun cid rows hlist id t ht => ?_, fun cid hin id t ht => ?_⟩
    · rw [World.task, env_tasks henv] at ht
      exact hcov.list cid rows hlist id t ht
    · rw [World.task, env_tasks henv] at ht
      exact hcov.inserted cid hin id t ht

/-! ## Upserts -/

/-- What an upsert finds and leaves. -/
theorem Exec.upsert {w : World} (h : Exec w (.upsert_orchestration_task task) (.ok id) w') :
    ((w.task id = none ∧ w'.task id = some task.fresh) ∨
      ∃ t, w.task id = some t ∧ t.session_orchestration_id = task.session_orchestration_id ∧
        t.task_key = task.task_key ∧ w'.task id = some (task.overwrite t)) ∧
    ∀ sid s, w'.session sid = some s → s.orchestration_task_id ≠ some id := by
  obtain ⟨x, hx⟩ := h.served
  simp only [serve, upsert_orchestration_task] at hx
  -- sessions of the subtask have been unlinked
  have hunlink : ∀ (w₀ : World) sid s, (unlink_sessions w₀ id).session sid = some s →
      s.orchestration_task_id ≠ some id := by
    intro w₀ sid s hs hlink
    obtain ⟨s₀, -, ⟨-, rfl⟩ | ⟨hp, rfl⟩⟩ := Table.exists_of_get?_updateAll hs
    · cases hlink
    · simp [hlink] at hp
  split at hx
  · cases hx
  split at hx
  · next id₀ hfind =>
    cases hx
    obtain ⟨t, ht, hcid, hkey⟩ := find_task_eq_some hfind
    refine ⟨.inr ⟨t, ht, hcid, hkey, ?_⟩, hunlink _⟩
    simp [World.task, Table.get?_update_self, ht]
  · cases hx
    refine ⟨.inl ⟨Table.get?_nextId _, ?_⟩, hunlink _⟩
    simp [World.task, Table.get?_push]

/-- **A turn owns what it has upserted**, under the key it has upserted. -/
theorem upserted_owned (h : Reachable K cfg) (hl : cfg.log (.controller sid) = some l)
    (hmem : (⟨.upsert_orchestration_task task, .ok id⟩ : RunEvent) ∈ l) :
    ∃ t, cfg.world.task id = some t ∧ t.task_key = task.task_key ∧
      Owns cfg.world sid t.session_orchestration_id := by
  have hkeep : ∀ {w w' : World} {call : Call} {reply : Except String (Reply call)}
      {sid : SessionId} {id : TaskId} {key : String}, Exec w call reply w' →
      (∃ t, w.task id = some t ∧ t.task_key = key ∧ Owns w sid t.session_orchestration_id) →
      ∃ t, w'.task id = some t ∧ t.task_key = key ∧ Owns w' sid t.session_orchestration_id := by
    rintro w w' call reply sid id key hx ⟨t, ht, hkey, hown⟩
    obtain ⟨t', ht', hmove⟩ := hx.task_of_some ht
    exact ⟨t', ht', hmove.key.trans hkey, hmove.campaign ▸ hown.exec hx⟩
  refine reachable_logs (fun w a l => ∀ sid task id, a = .controller sid →
    (⟨.upsert_orchestration_task task, .ok id⟩ : RunEvent) ∈ l → ∃ t, w.task id = some t ∧
      t.task_key = task.task_key ∧ Owns w sid t.session_orchestration_id) h ?_ ?_ ?_ ?_ _ l hl sid
    task id rfl hmem
  · intro w a sid task id _ hmem
    cases hmem
  · rintro cfg w' a l call reply hreach hl ih hJ hx sid task id rfl hmem
    rcases List.mem_cons.mp hmem with he | hmem
    · cases he
      have hown := (turn_owns hreach sid l hl _ (TurnCall.touches_of_upsert hJ)).exec hx
      rcases hx.upsert.1 with ⟨-, ht⟩ | ⟨t, -, hcid, hkey, ht⟩
      · exact ⟨_, ht, rfl, hown⟩
      · exact ⟨_, ht, hkey, hcid.symm ▸ hown⟩
    · exact hkeep hx (ih sid task id rfl hmem)
  · exact fun cfg w' a l b l₀ call reply _ _ ih _ _ _ hx sid task id hsid hmem =>
    hkeep hx (ih sid task id hsid hmem)
  · intro w w' m a l henv ih sid task id hsid hmem
    obtain ⟨t, ht, hkey, k, hk, hk'⟩ := ih sid task id hsid hmem
    refine ⟨t, by rw [World.task, env_tasks henv]; exact ht, hkey, k, ?_, hk'⟩
    rw [World.campaign, env_campaigns henv]
    exact hk

/-- A turn may propose a listed row again: it can be continued in an active
campaign, or retried in a finished one. -/
def MayRepeat (c : SessionOrchestrationRow) (r : SessionOrchestrationTaskRow) : Prop :=
  (c.status.routes = true ∧ can_continue r.status = true) ∨
    (c.status = .Done ∧ is_retryable r = true)

/-- A row of the turn's list that the turn may propose again and has not yet. -/
def Again (l : RunLog) (r : SessionOrchestrationTaskRow) : Prop :=
  ∃ c rows, campaign_read l = some c ∧ snapshot l = some (c.id, rows) ∧ r ∈ rows ∧
    ¬ Upserted l r.task_key ∧ inserted l = none ∧ MayRepeat c r

variable {r : SessionOrchestrationTaskRow}

/-- Such a row was listed before, or is listed now. -/
theorem again_cons {call : Call} {reply : Except String (Reply call)} (hJ : TurnCall sid l call)
    (h : Again (⟨call, reply⟩ :: l) r) :
    Again l r ∨ ∃ c rows, (⟨call, reply⟩ : RunEvent) = ⟨.load_orchestration_tasks c.id, .ok rows⟩ ∧
      r ∈ rows ∧ campaign_read l = some c ∧ snapshot l = none ∧ inserted l = none ∧
      MayRepeat c r := by
  obtain ⟨c, rows, hc, hlist, hr, hup, hin, hmay⟩ := h
  have hin' : inserted l = none := by
    rw [inserted_cons] at hin
    exact (Option.or_eq_none_iff.mp hin).2
  rcases snapshot_cons_eq_some hlist with he | ⟨hnone, hlist⟩
  · cases he
    refine .inr ⟨c, rows, rfl, hr, hc, ?_, hin', hmay⟩
    have hfirst : ∀ cid, TurnCall sid l (.load_orchestration_tasks cid) → snapshot l = none := by
      intro cid hJ
      cases hJ with
      | list _ _ hl _ _ => exact hl
    exact hfirst _ hJ
  · refine .inl ⟨c, rows, ?_, hlist, hr, fun h => hup (h.cons _), hin', hmay⟩
    rw [campaign_read_cons] at hc
    rcases Option.or_eq_some_iff.mp hc with hread | ⟨-, hc⟩
    · obtain ⟨sid', he⟩ := RunEvent.read?_eq_some hread
      cases he
      cases hJ
      cases hlist
    · exact hc

/-- **An upsert inserts a new row, or hits one the turn may propose again.** -/
theorem upsert_cases (h : Reachable K cfg) (hl : cfg.log (.controller sid) = some l)
    (hJ : TurnCall sid l (.upsert_orchestration_task task))
    (hx : Exec cfg.world (.upsert_orchestration_task task) (.ok id) w') :
    cfg.world.task id = none ∨ ∃ r, Again l r ∧ r.id = id := by
  rcases hx.upsert.1 with ⟨hnone, -⟩ | ⟨t, ht, hcid, hkey, -⟩
  · exact .inl hnone
  · have hcov := turn_covers h hl
    -- a listed row of the key is this row
    have hlisted : ∀ cid rows r, snapshot l = some (cid, rows) → r ∈ rows →
        task.session_orchestration_id = cid → r.task_key = task.task_key → r.id = id := by
      intro cid rows r hlist hr hid hrkey
      obtain ⟨t', ht', hcid', hkey'⟩ := (listed_known h hl hlist).2 r hr
      exact keys_unique h ht' ht (by rw [hcid', hcid, hid]) (by rw [hkey', hrkey, hkey])
    cases hJ with
    | @route_new _ c rows _ hc hs hin hlist hid hnew hfresh =>
      rcases hcov.list c.id rows hlist id t ht (hcid.trans hid) with ⟨r, hr, hrid⟩ | hup
      · obtain ⟨t', ht', -, hkey'⟩ := (listed_known h hl hlist).2 r hr
        rw [hrid, ht] at ht'
        cases ht'
        exact absurd (hkey'.symm.trans hkey) (hnew r hr)
      · exact absurd (hkey ▸ hup) hfresh
    | plan_new hin hid hfresh =>
      have hup := hcov.inserted _ hin id t ht (hcid.trans hid)
      exact absurd (hkey ▸ hup) hfresh
    | @route_again _ c rows r _ hc hs hin hlist hid hr hrkey _ _ hcont hfresh =>
      exact .inr ⟨r, ⟨c, rows, hc, hlist, hr, hrkey ▸ hfresh, hin, .inl ⟨hs, hcont⟩⟩,
        hlisted c.id rows r hlist hr hid hrkey⟩
    | @plan_retry _ c rows r _ hc hs hin hlist hid hr hrkey hretry _ hfresh =>
      exact .inr ⟨r, ⟨c, rows, hc, hlist, hr, hrkey ▸ hfresh, hin, .inr ⟨hs, hretry⟩⟩,
        hlisted c.id rows r hlist hr hid hrkey⟩

end Agentty.Orchestration
