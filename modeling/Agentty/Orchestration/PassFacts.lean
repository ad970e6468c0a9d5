/-
What a pass in flight can rely on, in every run.

A pass loads the active campaigns once and then works on one after another from
what it has read. Other actors move the campaigns meanwhile, but not everywhere:
only the coordinator claims roll-ups, completes them and finishes campaigns, so
as long as the pass has not tried to move a campaign it has loaded, that campaign
is not done, and it is being verified or integrated only if it was so before.
-/
import Agentty.Orchestration.Facts

set_option autoImplicit false

namespace Agentty.Orchestration

open List

section Log

variable {l : RunLog} {call : Call} {reply : Except String (Reply call)}
  {c : SessionOrchestrationRow}

theorem loaded_cons (hJ : Justified .coordinator l call) (h : Loaded (⟨call, reply⟩ :: l) c) :
    (l = [] ∧ ∃ cs, (⟨call, reply⟩ : RunEvent) = ⟨.load_active_orchestrations, .ok cs⟩ ∧ c ∈ cs) ∨
      Loaded l c := by
  obtain ⟨cs, hmem, hc⟩ := h
  rcases mem_cons.mp hmem with he | hmem
  · cases he
    cases hJ with
    | load_active => exact .inl ⟨rfl, cs, rfl, hc⟩
    | campaign _ h =>
      cases h with
      | task _ _ _ h => cases h
  · exact .inr ⟨cs, hmem, hc⟩

theorem not_loaded_nil : ¬ Loaded [] c := by
  rintro ⟨cs, hmem, -⟩
  cases hmem

theorem isOpen_of_cons {e : RunEvent} {id : CampaignId} (h : IsOpen (e :: l) id) :
    IsOpen l id ∧ e.1.closes id = false :=
  ⟨fun e' he' => h e' (mem_cons_of_mem _ he'), h e mem_cons_self⟩

/-- What tells a pass about a subtask: a list, or a call about a row of it. -/
theorem Justified.tells_cases {id : TaskId} {status : OrchestrationTaskStatus}
    (hJ : Justified .coordinator l call) (h : RunEvent.tells ⟨call, reply⟩ id = some status) :
    (∃ cid rows, (⟨call, reply⟩ : RunEvent) = ⟨.load_orchestration_tasks cid, .ok rows⟩) ∨
      ∃ c rows r, At l c rows r ∧ r.id = id ∧ TaskCall c rows r l call := by
  cases hJ with
  | load_active => cases h
  | campaign hload hcall =>
    cases hcall with
    | task ho hl hr hcall =>
      rename_i rows r
      by_cases hid : id = r.id
      · exact .inr ⟨_, rows, r, ⟨hload, ho, hl, hr⟩, hid.symm, hcall⟩
      · rw [hcall.tells_of_ne hid] at h
        cases h
    | list _ =>
      cases reply with
      | error e => cases h
      | ok rows => exact .inl ⟨_, rows, rfl⟩
    | _ => cases h

theorem tells_list {cid : CampaignId} {rows : List SessionOrchestrationTaskRow}
    {r : SessionOrchestrationTaskRow} (hnd : (rows.map (·.id)).Nodup) (hr : r ∈ rows) :
    RunEvent.tells ⟨.load_orchestration_tasks cid, .ok rows⟩ r.id = some r.status := by
  have hfind : rows.find? (fun x => decide (x.id = r.id)) = some r := by
    cases hf : rows.find? (fun x => decide (x.id = r.id)) with
    | none => simpa using find?_eq_none.mp hf r hr
    | some r' =>
      have hid : r'.id = r.id := by simpa using find?_some hf
      rw [inj_on_of_nodup_map hnd (mem_of_find?_eq_some hf) hr hid]
  simp only [RunEvent.tells, hfind, Option.map_some]

end Log

variable {K : Configuration → HostLabel → Prop} {cfg : Configuration} {l : RunLog}
  {c : SessionOrchestrationRow} {c' : SessionOrchestrationRow}

/-- **A pass has loaded one row of a campaign.** -/
theorem loaded_unique (h : Reachable K cfg) (hl : cfg.log .coordinator = some l) (hc : Loaded l c)
    (hc' : Loaded l c') (hid : c.id = c'.id) : c = c' := by
  refine reachable_logs (fun _ a l => a = .coordinator → ∀ c c', Loaded l c → Loaded l c' →
    c.id = c'.id → c = c') h ?_ ?_ ?_ ?_ _ l hl rfl c c' hc hc' hid
  · exact fun _ _ _ c c' hc => absurd hc not_loaded_nil
  · rintro cfg w' a l call reply _ _ ih hJ hx rfl c c' hc hc' hid
    rcases loaded_cons hJ hc with ⟨rfl, cs, he, hcs⟩ | hc
    · rcases loaded_cons hJ hc' with ⟨-, cs', he', hcs'⟩ | hc'
      · cases he
        cases he'
        obtain ⟨-, hrows⟩ := hx.load_active
        have hnd := nodup_load_active_orchestrations (w := cfg.world)
        rw [hrows] at hnd
        exact inj_on_of_nodup_map hnd hcs hcs' hid
      · exact absurd hc' not_loaded_nil
    · rcases loaded_cons hJ hc' with ⟨rfl, -⟩ | hc'
      · exact absurd hc not_loaded_nil
      · exact ih rfl c c' hc hc' hid
  · exact fun cfg w' a l b l₀ call reply _ _ ih _ _ _ _ => ih
  · exact fun w w' m a l _ ih => ih

variable {rows : List SessionOrchestrationTaskRow} {r : SessionOrchestrationTaskRow}

/-- So it works on one row of a subtask. -/
theorem at_unique (h : Reachable K cfg) (hl : cfg.log .coordinator = some l)
    {rows' : List SessionOrchestrationTaskRow} {r' : SessionOrchestrationTaskRow}
    (hat : At l c rows r) (hat' : At l c' rows' r') (hid : r.id = r'.id) :
    c = c' ∧ rows = rows' ∧ r = r' := by
  obtain ⟨hcid, rfl⟩ := Prod.mk.inj (Option.some.inj (hat.list.symm.trans hat'.list))
  refine ⟨loaded_unique h hl hat.loaded hat'.loaded hcid, rfl, ?_⟩
  exact inj_on_of_nodup_map (listed_known h hl hat.list).1 hat.mem hat'.mem hid

theorem At.known (h : Reachable K cfg) (hl : cfg.log .coordinator = some l) (hat : At l c rows r) :
    Known cfg.world c.id r :=
  (listed_known h hl hat.list).2 r hat.mem

/-- The statuses a campaign can have while a pass that has loaded it as `s` has
not tried to move it. -/
def OpenAs (s status : OrchestrationStatus) : Prop :=
  status ≠ .Done ∧ (status = .Verifying → s = .Verifying) ∧
    (status = .AwaitingIntegration → s = .AwaitingIntegration) ∧
    (status = .Integrating → s = .AwaitingIntegration ∨ s = .Integrating)

variable {call : Call} {reply : Except String (Reply call)}

/-- A call moves a campaign that a pass has open only in this way. -/
theorem OpenAs.move {w : World} {k k' : Campaign} {a : Actor} {s : OrchestrationStatus}
    {id : CampaignId} (h : OpenAs s k.status) (hJ : Justified a l call)
    (hopen : a = .coordinator → call.closes id = false)
    (hmove : CampaignMove w id k call reply k') : OpenAs s k'.status := by
  cases hmove with
  | keep | planned | surfaced | cleared => exact h
  | approved | began => exact ⟨by simp, by simp, by simp, by simp⟩
  | integrating hs => exact ⟨by simp, by simp, by simp, fun _ => .inl (h.2.2.1 hs)⟩
  -- only the coordinator makes these moves, and they close the campaign
  | rolled_up | rollup_claimed | completed =>
    obtain ⟨ha, -⟩ := hJ.of_pass_call rfl
    simpa [Call.closes] using hopen ha
  | @written status =>
    rcases hJ.status_written with rfl | rfl | rfl <;> exact ⟨by simp, by simp, by simp, by simp⟩

/-- **Where a campaign can be that a pass has open.** -/
theorem open_status (h : Reachable K cfg) (hl : cfg.log .coordinator = some l) (hc : Loaded l c)
    (ho : IsOpen l c.id) : ∃ k, cfg.world.campaign c.id = some k ∧ OpenAs c.status k.status := by
  refine reachable_logs (fun w a l => a = .coordinator → ∀ c, Loaded l c → IsOpen l c.id →
    ∃ k, w.campaign c.id = some k ∧ OpenAs c.status k.status) h ?_ ?_ ?_ ?_ _ l hl rfl c hc ho
  · exact fun _ _ _ c hc => absurd hc not_loaded_nil
  · rintro cfg w' a l call reply _ _ ih hJ hx rfl c hc ho
    obtain ⟨ho, hclose⟩ := isOpen_of_cons ho
    rcases loaded_cons hJ hc with ⟨rfl, cs, he, hcs⟩ | hc
    · cases he
      obtain ⟨rfl, rfl⟩ := hx.load_active
      obtain ⟨k, hk, hactive, hrow⟩ := mem_load_active_orchestrations hcs
      refine ⟨k, hk, ?_⟩
      rw [(campaign_row_eq_some hrow).2.1]
      refine ⟨fun hdone => ?_, fun h => h, fun h => h, .inr⟩
      rw [hdone] at hactive
      cases hactive
    · obtain ⟨k, hk, hopen⟩ := ih rfl c hc ho
      obtain ⟨k', hk', hmove⟩ := hx.campaign_of_some hk
      exact ⟨k', hk', hopen.move hJ (fun _ => hclose) hmove⟩
  · intro cfg w' a l b l₀ call reply _ _ ih hb _ hJ hx ha c hc ho
    obtain ⟨k, hk, hopen⟩ := ih ha c hc ho
    obtain ⟨k', hk', hmove⟩ := hx.campaign_of_some hk
    exact ⟨k', hk', hopen.move hJ (fun h => absurd (h.trans ha.symm) hb) hmove⟩
  · intro w w' m a l henv ih ha c hc ho
    rw [World.campaign, env_campaigns henv]
    exact ih ha c hc ho

/-! ## Spawning -/

/-- The pass is spawning the subtask, or has spawned it from the list it works
on: it believes the row it read as `Planned` or `Creating` to be `Creating` or
`Running`. -/
def Holds (l : RunLog) (id : TaskId) : Prop :=
  ∃ c rows r, At l c rows r ∧ r.id = id ∧ SpawnWritable c r ∧
    (belief l id = some .Creating ∨ belief l id = some .Running)

variable {id : TaskId}

theorem not_holds_nil : ¬ Holds [] id := by
  rintro ⟨c, rows, r, hat, -⟩
  exact not_at_nil hat

/-- A failed spawn is recorded for a subtask the pass is spawning. -/
theorem holds_of_spawn_failure {error : String} {limit : Nat} (hat : At l c rows r)
    (h : TaskCall c rows r l (.record_orchestration_spawn_failure id error limit)) :
    Holds l id := by
  obtain ⟨hid, hw⟩ := h.spawnWritable
  refine ⟨c, rows, r, hat, hid, hw, ?_⟩
  cases h with
  | recover_failed _ _ _ hb => exact .inl hb
  | create_failed => exact .inl (by simp [belief, RunEvent.tells])
  | send_failed => exact .inr (by simp [belief, RunEvent.tells])

/-- What a call about a row that the pass spawns tells it: the claim, the link,
or a failure. -/
theorem SpawnWritable.tells {w w' : World} {status : OrchestrationTaskStatus}
    (hw : SpawnWritable c r) (h : TaskCall c rows r l call) (hx : Exec w call reply w')
    (htells : RunEvent.tells ⟨call, reply⟩ r.id = some status) :
    ((⟨call, reply⟩ : RunEvent) = ⟨.claim_orchestration_task r.id, .ok true⟩ ∧
      status = .Creating) ∨
    (∃ child, (⟨call, reply⟩ : RunEvent) = ⟨.link_orchestration_task_child r.id child, .ok true⟩ ∧
      status = .Running ∧ belief l r.id = some .Creating) ∨
    ((∃ error limit, (⟨call, reply⟩ : RunEvent) =
      ⟨.record_orchestration_spawn_failure r.id error limit, .ok status⟩) ∧
      (status = .Planned ∨ status = .Failed)) := by
  cases reply with
  | error e => cases h <;> cases htells
  | ok answer =>
    have hcall := h
    cases h with
    | claim _ _ _ _ _ =>
      simp only [RunEvent.tells] at htells
      split at htells
      · rename_i hok
        obtain ⟨-, rfl⟩ := hok
        exact .inl ⟨rfl, (Option.some.inj htells).symm⟩
      · cases htells
    | recover_link _ _ _ hb =>
      simp only [RunEvent.tells] at htells
      split at htells
      · rename_i hok
        obtain ⟨-, rfl⟩ := hok
        exact .inr (.inl ⟨_, rfl, (Option.some.inj htells).symm, hb⟩)
      · cases htells
    | link _ _ _ _ =>
      simp only [RunEvent.tells] at htells
      split at htells
      · rename_i hok
        obtain ⟨-, rfl⟩ := hok
        refine .inr (.inl ⟨_, rfl, (Option.some.inj htells).symm, ?_⟩)
        simp [belief, RunEvent.tells]
      · cases htells
    | recover_failed | create_failed | send_failed =>
      simp only [RunEvent.tells, if_pos] at htells
      cases htells
      exact .inr (.inr ⟨⟨_, _, rfl⟩, hx.valid⟩)
    | claim_review _ hchild _ _ _ => exact absurd hw.2.1 hchild
    -- a row that is spawned has no status written otherwise
    | follow | lost | reported | integrate | canceled =>
      exact absurd hcall.statusWritable.2 hw.not_statusWritable
    | _ => cases htells

/-- **How a pass comes to hold a subtask**: it reads it as `Creating`, or claims
it. -/
theorem holds_cons (hreach : Reachable K cfg) (hl : cfg.log .coordinator = some l) {w' : World}
    (hJ : Justified .coordinator l call) (hx : Exec cfg.world call reply w')
    (h : Holds (⟨call, reply⟩ :: l) id) :
    Holds l id ∨ (⟨call, reply⟩ : RunEvent) = ⟨.claim_orchestration_task id, .ok true⟩ ∨
      (w' = cfg.world ∧ ∃ t, cfg.world.task id = some t ∧ t.status = .Creating) := by
  obtain ⟨c, rows, r, hat, rfl, hw, hb⟩ := h
  rw [belief] at hb
  rcases at_cons hJ hat with he | ⟨hnone, hat₀⟩
  · -- the row has just been read
    cases he
    have hnd := (hx.load_tasks).2 ▸ nodup_load_orchestration_tasks c.id
    rw [tells_list hnd hat.mem] at hb
    obtain ⟨rfl, t, ht, -, hrow⟩ := hx.row_of_load_tasks hat.mem
    refine .inr (.inr ⟨rfl, t, ht, ?_⟩)
    have hstatus : r.status = t.status := by rw [hrow]; rfl
    rcases hb with hb | hb
    · exact hstatus ▸ Option.some.inj hb
    · have hrun : r.status = .Running := Option.some.inj hb
      rcases hw.2.2 with hr | hr <;> rw [hr] at hrun <;> cases hrun
  · cases htells : RunEvent.tells ⟨call, reply⟩ r.id with
    | none =>
      rw [htells] at hb
      exact .inl ⟨c, rows, r, hat₀, rfl, hw, hb⟩
    | some status =>
      rw [htells] at hb
      rcases hJ.tells_cases htells with ⟨cid, rows', he⟩ | ⟨c', rows', r', hat', hid, hcall⟩
      · rw [he] at hnone
        cases hnone
      · obtain ⟨rfl, rfl, rfl⟩ := at_unique hreach hl hat₀ hat' hid.symm
        rcases hw.tells hcall hx htells with ⟨he, -⟩ | ⟨child, -, -, hb'⟩ | ⟨-, hs⟩
        · exact .inr (.inl he)
        · exact .inl ⟨c, rows, r, hat₀, rfl, hw, .inl hb'⟩
        · rcases hs with rfl | rfl <;> simp at hb

end Agentty.Orchestration
