/-
Every subtask that is merging locally has had its merge requested, as long as
the process is not killed between the status write and the request.

`integrate_task` writes `Merging` and then asks the app to merge the child's
branch. A later pass does not ask again under the local strategy: it only looks
at the child's status. So the two calls belong together, and the only thing that
can part them is a crash; an error answer to the request is recorded by the same
pass.

The first part is about the programs: the call after a write of `Merging` is the
request, and no program ends before it. The second part is about runs.
-/
import Agentty.Orchestration.Links

set_option autoImplicit false

namespace Agentty.Orchestration

open List

open Prog (Meets Obeys meets_perform meets_attempt meets_traverse)

/-! ## What a pass owes -/

/-- The integration approach an event has read for a campaign. -/
def RunEvent.approach? (id : CampaignId) (e : RunEvent) : Option IntegrationApproach :=
  match e with
  | ⟨.load_orchestration_integration_approach id', .ok approach⟩ =>
    if id' = id then some approach else none
  | _ => none

/-- The integration approach the pass has read for a campaign. -/
def approach_read (l : RunLog) (id : CampaignId) : Option IntegrationApproach :=
  l.findSome? (RunEvent.approach? id)

/-- The call moves a subtask to `Merging`. -/
def Call.starts_merge : Call → Bool
  | .update_orchestration_task_status _ status _ => status = .Merging
  | _ => false

/-- The newest call of the pass moved the subtask to `Merging`. -/
def Merges (l : RunLog) (id : TaskId) : Prop :=
  ∃ error l', l = ⟨.update_orchestration_task_status id .Merging error, .ok ()⟩ :: l'

/-- Nothing is owed. -/
def Paid (l : RunLog) : Prop := ∀ id, ¬ Merges l id

/-- How a branch is integrated. -/
def integration_request (child : SessionId) : IntegrationApproach → Call
  | .LocalMerge => .merge_session child
  | .ReviewRequest => .create_review_request child

/-- **The debt of a pass**: after it has moved a subtask to `Merging`, its next
call asks for the integration of the child of the row it has read. -/
def Requests (l : RunLog) (call : Call) : Prop :=
  ∀ id, Merges l id → ∃ cid rows r child approach, snapshot l = some (cid, rows) ∧ r ∈ rows ∧
    r.id = id ∧ r.child_session_id = some child ∧ approach_read l cid = some approach ∧
    call = integration_request child approach

theorem paid_nil : Paid [] := by
  rintro id ⟨error, l', h⟩
  cases h

variable {l : RunLog} {call : Call}

/-- Only a write of `Merging` makes a debt. -/
theorem paid_cons {reply : Except String (Reply call)} (h : call.starts_merge = false) :
    Paid (⟨call, reply⟩ :: l) := by
  rintro id ⟨error, l', he⟩
  cases he
  simp [Call.starts_merge] at h

theorem Paid.requests (h : Paid l) (call : Call) : Requests l call :=
  fun id hm => absurd hm (h id)

variable {c : SessionOrchestrationRow}

/-- A pass over a campaign that is not being integrated writes no `Merging`. -/
theorem CampaignCall.starts_merge_eq_false (hs : c.status ≠ .Integrating)
    (h : CampaignCall c l call) : call.starts_merge = false := by
  cases h with
  | task _ _ _ h =>
    cases h with
    | follow _ _ hf _ =>
      cases hf with
      | review _ hs _ => rcases hs with rfl | rfl <;> rfl
      | @mapped child_status _ _ _ => cases child_status <;> rfl
    | integrate hc _ => exact absurd hc hs
    | _ => rfl
  | _ => rfl

/-! ## The integrating pass -/

section Integrating

variable {cid : CampaignId} {rows : List SessionOrchestrationTaskRow}
  {approach : IntegrationApproach} {l : RunLog} {r a : SessionOrchestrationTaskRow}

/-- The pass has read the approach and the list, and owes nothing. -/
structure Prepared (cid : CampaignId) (rows : List SessionOrchestrationTaskRow)
    (approach : IntegrationApproach) (l : RunLog) : Prop where
  paid : Paid l
  list : snapshot l = some (cid, rows)
  approach : approach_read l cid = some approach

/-- A call that reads neither keeps this. -/
theorem Prepared.cons (h : Prepared cid rows approach l) {reply : Except String (Reply call)}
    (hm : call.starts_merge = false) (hlist : RunEvent.list? ⟨call, reply⟩ = none)
    (happroach : RunEvent.approach? cid ⟨call, reply⟩ = none) :
    Prepared cid rows approach (⟨call, reply⟩ :: l) := by
  refine ⟨paid_cons hm, ?_, ?_⟩
  · rw [snapshot_cons, hlist]
    exact h.list
  · rw [approach_read, findSome?_cons, happroach]
    exact h.approach

theorem update_task_status_prepared {next : OrchestrationTaskStatus} {error : Option String}
    (hnext : next ≠ .Merging) (h : Prepared cid rows approach l) (ha : Keeps r a) :
    Meets Valid Requests (fun l a' => Prepared cid rows approach l ∧ Keeps r a') Paid
      (update_task_status a next error) l := by
  have hm : (Call.update_orchestration_task_status a.id next error).starts_merge = false :=
    decide_eq_false hnext
  unfold update_task_status
  split
  · exact ⟨h, ha⟩
  · refine meets_perform (h.paid.requests _) (fun _ _ => ?_) fun _ => paid_cons hm
    exact ⟨h.cons hm rfl rfl, ha.status next error⟩

theorem publish_review_request_prepared {child : SessionId} (h : Prepared cid rows approach l)
    (ha : Keeps r a) :
    Meets Valid Requests (fun l a' => Prepared cid rows approach l ∧ Keeps r a') Paid
      (publish_review_request a child) l := by
  refine meets_attempt (h.paid.requests _) (fun _ _ => ?_) fun _ => ?_
  · exact update_task_status_prepared (by decide) (h.cons rfl rfl rfl) ha
  · exact update_task_status_prepared (by decide) (h.cons rfl rfl rfl) ha

/-- The loop over the rows settles what was requested before, and owes nothing. -/
theorem reconcile_row_prepared (h : Prepared cid rows approach l) :
    Meets Valid Requests (fun l a => Prepared cid rows approach l ∧ Keeps r a) Paid
      ((reconcile_review_requested_task r).bind fun a => reconcile_merging_task approach a) l := by
  have hrequested : Meets Valid Requests (fun l a => Prepared cid rows approach l ∧ Keeps r a) Paid
      (reconcile_review_requested_task r) l := by
    unfold reconcile_review_requested_task
    split
    · exact ⟨h, Keeps.refl r⟩
    split
    · exact update_task_status_prepared (by decide) h (Keeps.refl r)
    · exact update_task_status_prepared (by decide) h (Keeps.refl r)
    · exact update_task_status_prepared (by decide) h (Keeps.refl r)
    · exact ⟨h, Keeps.refl r⟩
  refine hrequested.bind ?_
  rintro l' a ⟨h', ha⟩
  unfold reconcile_merging_task
  split
  · exact ⟨h', ha⟩
  split
  · split
    · exact publish_review_request_prepared h' ha
    · exact update_task_status_prepared (by decide) h' ha
  · split
    · exact update_task_status_prepared (by decide) h' ha
    · exact update_task_status_prepared (by decide) h' ha
    · exact update_task_status_prepared (by decide) h' ha
    · exact ⟨h', ha⟩

/-- **The write of `Merging` and the request**: the one place where a pass owes
something, and pays it with its next call. -/
theorem integrate_task_pays (h : Prepared cid rows approach l) (hr : r ∈ rows) (ha : Keeps r a)
    (hwait : a.status = .AwaitingIntegration) :
    Meets Valid Requests (fun l _ => Paid l) Paid (integrate_task approach a) l := by
  unfold integrate_task
  split
  · exact (update_task_status_prepared (by decide) h ha).post (fun _ _ h => h.1.paid) fun _ h => h
  rename_i child hchild
  have hne : ¬ a.status = .Merging := by rw [hwait]; decide
  unfold update_task_status
  rw [if_neg hne]
  refine meets_perform (h.paid.requests _) (fun _ _ => ?_) fun e => ?_
  · -- the debt, and the call that pays it
    have hdue : ∀ call, call = integration_request child approach →
        Requests (⟨.update_orchestration_task_status a.id .Merging none, .ok ()⟩ :: l) call := by
      rintro call rfl id ⟨error, l', he⟩
      cases he
      refine ⟨cid, rows, r, child, approach, ?_, hr, ha.id.symm, ?_, ?_, rfl⟩
      · rw [snapshot_cons]
        exact h.list
      · rw [← ha.child, hchild]
      · rw [approach_read, findSome?_cons]
        exact h.approach
    -- any later write settles the subtask
    have hsettle : ∀ (b : SessionOrchestrationTaskRow) (next : OrchestrationTaskStatus)
        (error : Option String) (call : Call) (reply : Except String (Reply call)) (l' : RunLog),
        next ≠ .Merging → call.starts_merge = false →
        Meets Valid Requests (fun l _ => Paid l) Paid (update_task_status b next error)
          (⟨call, reply⟩ :: l') := by
      intro b next error call reply l' hnext hcall
      have hpaid : Paid (⟨call, reply⟩ :: l') := paid_cons hcall
      have hm : (Call.update_orchestration_task_status b.id next error).starts_merge = false :=
        decide_eq_false hnext
      unfold update_task_status
      split
      · exact hpaid
      · exact meets_perform (hpaid.requests _) (fun _ _ => paid_cons hm) fun _ => paid_cons hm
    cases approach with
    | ReviewRequest =>
      refine meets_attempt (hdue _ rfl) (fun _ _ => ?_) fun _ => ?_
      · exact hsettle _ _ _ _ _ _ (by decide) rfl
      · exact hsettle _ _ _ _ _ _ (by decide) rfl
    | LocalMerge =>
      refine meets_attempt (hdue _ rfl) (fun _ _ => ?_) fun _ => ?_
      · exact paid_cons rfl
      · exact hsettle _ _ _ _ _ _ (by decide) rfl
  · -- the write itself failed
    rintro id ⟨error, l', he⟩
    cases he

end Integrating

theorem reconcile_integration_pays (hl : Paid l) :
    Meets Valid Requests (fun l _ => Paid l) Paid (reconcile_integration c) l := by
  refine meets_perform (hl.requests _) (fun approach _ => ?_)
    fun _ => paid_cons rfl
  have hpaid : Paid (⟨.load_orchestration_integration_approach c.id, .ok approach⟩ :: l) :=
    paid_cons rfl
  refine meets_perform (hpaid.requests _) (fun rows _ => ?_)
    fun _ => paid_cons rfl
  have hprepared : Prepared c.id rows approach (⟨.load_orchestration_tasks c.id, .ok rows⟩ ::
      ⟨.load_orchestration_integration_approach c.id, .ok approach⟩ :: l) := by
    refine ⟨paid_cons rfl, by simp [RunEvent.list?], ?_⟩
    simp [approach_read, findSome?_cons, RunEvent.approach?]
  -- the results of the loop stand for rows of the list
  refine (meets_traverse (fun l (done rest : List SessionOrchestrationTaskRow) =>
    Prepared c.id rows approach l ∧ (∀ a ∈ done, ∃ r ∈ rows, Keeps r a) ∧ ∀ r ∈ rest, r ∈ rows) ?_
    rows _ [] ⟨hprepared, fun a ha => (not_mem_nil ha).elim, fun r hr => hr⟩).bind ?_
  · rintro l' done r rest ⟨h, hdone, hrest⟩
    refine (reconcile_row_prepared h).post ?_ fun _ h => h
    rintro l'' a ⟨h', ha⟩
    refine ⟨h', fun b hb => ?_, fun b hb => hrest b (mem_cons_of_mem _ hb)⟩
    rcases mem_append.mp hb with hb | hb
    · exact hdone b hb
    · rw [mem_singleton.mp hb]
      exact ⟨r, hrest r mem_cons_self, ha⟩
  · rintro l' tasks ⟨h, hdone, -⟩
    unfold advance_integration
    split
    · exact h.paid
    split
    · rename_i a hfind
      obtain ⟨r, hr, ha⟩ := hdone a (by simpa using mem_of_find?_eq_some hfind)
      have hwait : a.status = .AwaitingIntegration := by simpa using find?_some hfind
      exact (integrate_task_pays h hr ha hwait).bind fun _ _ h => h
    · split
      · refine meets_perform (h.paid.requests _) (fun _ _ => ?_) fun _ => ?_ <;>
          exact paid_cons rfl
      · exact h.paid

/-- The work on one campaign owes nothing when it is done. -/
theorem reconcile_campaign_pays (ho : IsOpen l c.id) (hl : Paid l) :
    Meets Valid Requests (fun l _ => Paid l) Paid (reconcile_campaign c) l := by
  by_cases hs : c.status = .Integrating
  · unfold reconcile_campaign
    rw [hs]
    exact reconcile_integration_pays hl
  · -- a pass in another phase does not start a merge
    refine ((reconcile_campaign_obeys ho).frame Paid (fun l call hl _ => hl.requests call)
      (fun l call reply _ hcall => ?_) hl).post (fun _ _ h => h.1) fun _ h => h
    exact paid_cons (hcall.starts_merge_eq_false hs)

/-- **A pass pays what it owes**, and owes nothing when it ends or fails. -/
theorem reconcile_once_pays :
    Meets Valid Requests (fun l _ => Paid l) Paid reconcile_once [] := by
  refine meets_perform (paid_nil.requests _) (fun cs hcs => ?_) fun _ => paid_cons rfl
  refine (meets_traverse (fun l _ (rest : List SessionOrchestrationRow) => Paid l ∧
    (rest.map SessionOrchestrationRow.id).Nodup ∧ ∀ c ∈ rest, IsOpen l c.id) ?_ cs _ []
    ⟨paid_cons rfl, hcs, fun c _ e he => ?_⟩).bind fun l _ h => h.1
  · rintro l done c rest ⟨hpaid, hnd, hall⟩
    have hopen := hall c mem_cons_self
    rw [map_cons, nodup_cons] at hnd
    -- the work on one campaign leaves the others open
    have hframe := (reconcile_campaign_obeys hopen).frame (K := CampaignCall c)
      (fun l => ∀ c' ∈ rest, IsOpen l c'.id) (fun _ _ _ h => h) ?_
      fun c' hc' => hall c' (mem_cons_of_mem _ hc')
    · exact ((reconcile_campaign_pays hopen hpaid).and hframe).mono (fun _ _ h => h.1)
        (fun _ _ h => ⟨h.1, hnd.2, h.2.1⟩) fun _ h => h.1
    · intro l' call reply hrest hcall c' hc'
      refine (hrest c' hc').cons (hcall.closes_of_ne fun h => hnd.1 ?_)
      rw [← h]
      exact mem_map_of_mem hc'
  · rw [mem_singleton.mp he]
    rfl

/-- What an actor owes: only the coordinator owes anything. -/
def Owed (a : Actor) (l : RunLog) (call : Call) : Prop := a = .coordinator → Requests l call

/-- **The process pays what it owes.** -/
theorem host_pays : host.Concludes Valid Owed (fun a l => a = .coordinator → Paid l) where
  valid := exec_valid
  meets d := by
    -- the programs of the other actors owe nothing
    have hother : ∀ p : Run Unit, host.actor d ≠ .coordinator →
        Obeys Valid (Justified (host.actor d)) (fun _ _ => True) p [] →
        Meets Valid (Owed (host.actor d)) (fun l _ => host.actor d = .coordinator → Paid l)
          (fun l => host.actor d = .coordinator → Paid l) p [] := by
      intro p ha h
      refine (h.frame (fun _ => True) (fun l call _ _ => ?_) (fun _ _ _ _ _ => trivial)
        trivial).post (fun _ _ _ h => absurd h ha) fun _ _ h => absurd h ha
      exact fun h => absurd h ha
    cases d with
    | reconcile =>
      exact reconcile_once_pays.mono (fun _ _ h _ => h) (fun _ _ h _ => h) fun _ h _ => h
    | _ => exact hother _ (by simp [host, Command.actor]) (host_certified.meets _)

/-! ## Facts about every run -/

section Facts

variable {K : Configuration → HostLabel → Prop} {cfg : Configuration} {l : RunLog}

variable {t : Task} {rows : List SessionOrchestrationTaskRow} {cid : CampaignId}

/-- A subtask whose row a pass has read with a child has that child or none: only
the pass links children, and not to such a row. -/
theorem child_of_row (h : Reachable K cfg) (hl : cfg.log .coordinator = some l)
    (hlist : snapshot l = some (cid, rows)) {r : SessionOrchestrationTaskRow} (hr : r ∈ rows)
    {child : SessionId} (hchild : r.child_session_id = some child)
    (ht : cfg.world.task r.id = some t) :
    t.child_session_id = none ∨ t.child_session_id = some child := by
  -- a call keeps the child or takes it away, unless it links another one
  have hkeep : ∀ {w : World} {id : TaskId} {t t' : Task} {call : Call}
      {reply : Except String (Reply call)}, TaskMove w id t call reply t' →
      (∀ child', call ≠ .link_orchestration_task_child id child') →
      t.child_session_id = none ∨ t.child_session_id = some child →
      t'.child_session_id = none ∨ t'.child_session_id = some child := by
    intro w id t t' call reply hmove hne h
    cases hmove with
    | linked _ _ => exact absurd rfl (hne _)
    | spawn_failed | detached | upserted => exact .inl rfl
    | _ => exact h
  refine reachable_logs (fun w a l => a = .coordinator → ∀ cid rows, snapshot l = some (cid, rows) →
    ∀ r ∈ rows, r.child_session_id = some child → ∀ t, w.task r.id = some t →
      t.child_session_id = none ∨ t.child_session_id = some child) h ?_ ?_ ?_ ?_ _ l hl rfl cid rows
    hlist r hr hchild t ht
  · intro w a _ cid rows hlist
    cases hlist
  · rintro cfg w' a l call reply hreach hlog ih hJ hx rfl cid rows hlist r hr hchild t' ht'
    rcases snapshot_cons_eq_some hlist with he | ⟨hnone, hlist⟩
    · cases he
      obtain ⟨rfl, t, ht, -, hrow⟩ := hx.row_of_load_tasks hr
      cases ht.symm.trans ht'
      right
      rw [← hchild, hrow]
      rfl
    · obtain ⟨t, ht, -⟩ := (listed_known hreach hlog hlist).2 r hr
      obtain ⟨t₁, ht₁, hmove⟩ := hx.task_of_some ht
      cases ht₁.symm.trans ht'
      refine hkeep hmove (fun child' he => ?_) (ih rfl cid rows hlist r hr hchild t ht)
      -- a row that is linked was read without a child
      subst he
      obtain ⟨-, c, rows', r', hat, hcall⟩ := hJ.of_task_call rfl
      obtain ⟨-, rfl⟩ := Prod.mk.inj (Option.some.inj (hlist.symm.trans hat.list))
      have hrow : ∀ r' ∈ rows, r'.id = r.id → r'.child_session_id ≠ none := by
        intro r' hr' hid
        rw [inj_on_of_nodup_map (listed_known hreach hlog hlist).1 hr' hr hid, hchild]
        simp
      have hid : r'.id = r.id ∧ r'.child_session_id = none := by
        generalize hrid : r.id = rid at hcall
        cases hcall with
        | recover_link _ _ hnone | link _ _ hnone => exact ⟨rfl, hnone⟩
      exact hrow r' hat.mem hid.1 hid.2
  · intro cfg w' a l b l₀ call reply hreach hlog ih hb _ hJ hx ha cid rows hlist r hr hchild t' ht'
    obtain ⟨t, ht, -⟩ := (listed_known hreach hlog hlist).2 r hr
    obtain ⟨t₁, ht₁, hmove⟩ := hx.task_of_some ht
    cases ht₁.symm.trans ht'
    refine hkeep hmove (fun child' he => ?_) (ih ha cid rows hlist r hr hchild t ht)
    subst he
    exact hb ((hJ.of_task_call rfl).1.trans ha.symm)
  · intro w w' m a l henv ih ha cid rows hlist r hr hchild t ht
    rw [World.task, env_tasks henv] at ht
    exact ih ha cid rows hlist r hr hchild t ht

variable {k : Campaign}

theorem CampaignMove.approach {w : World} {id : CampaignId} {k' : Campaign}
    {reply : Except String (Reply call)} (h : CampaignMove w id k call reply k') :
    k'.integration_approach = k.integration_approach ∨ k.status = .AwaitingIntegration := by
  cases h with
  | integrating hs => exact .inr hs
  | _ => exact .inl rfl

/-- The approach an integrating pass has read is the campaign's. -/
theorem approach_kept (h : Reachable K cfg) (hl : cfg.log .coordinator = some l)
    (hload : Loaded l c) (ho : IsOpen l c.id) (hs : c.status = .Integrating)
    {approach : IntegrationApproach} (hread : approach_read l c.id = some approach) :
    ∃ k, cfg.world.campaign c.id = some k ∧ k.integration_approach = approach := by
  -- no approval is possible while the pass has the campaign open
  have hkeep : ∀ (cfg : Configuration) (l : RunLog) (w' : World) (call : Call)
      (reply : Except String (Reply call)), Reachable K cfg → cfg.log .coordinator = some l →
      Loaded l c → IsOpen l c.id → Exec cfg.world call reply w' →
      (∃ k, cfg.world.campaign c.id = some k ∧ k.integration_approach = approach) →
      ∃ k, w'.campaign c.id = some k ∧ k.integration_approach = approach := by
    rintro cfg l w' call reply hreach hlog hload ho hx ⟨k, hk, happroach⟩
    obtain ⟨k', hk', hmove⟩ := hx.campaign_of_some hk
    refine ⟨k', hk', ?_⟩
    rcases hmove.approach with h | h
    · exact h.trans happroach
    · obtain ⟨k₀, hk₀, hopen⟩ := open_status hreach hlog hload ho
      cases hk.symm.trans hk₀
      have := hopen.2.2.1 h
      rw [hs] at this
      cases this
  refine reachable_logs (fun w a l => a = .coordinator → Loaded l c → IsOpen l c.id →
    approach_read l c.id = some approach →
    ∃ k, w.campaign c.id = some k ∧ k.integration_approach = approach) h ?_ ?_ ?_ ?_
    _ l hl rfl hload ho hread
  · exact fun _ _ _ hload => absurd hload not_loaded_nil
  · rintro cfg w' a l call reply hreach hlog ih hJ hx rfl hload ho hread
    obtain ⟨ho, -⟩ := isOpen_of_cons ho
    rw [approach_read, findSome?_cons] at hread
    split at hread
    · -- it has just been read
      rename_i approach' he
      cases hread
      have he' : (⟨call, reply⟩ : RunEvent) =
          ⟨.load_orchestration_integration_approach c.id, .ok approach⟩ := by
        unfold RunEvent.approach? at he
        split at he
        · rename_i id' a' heq
          split at he
          · rename_i hid
            subst hid
            rw [heq, Option.some.inj he]
          · cases he
        · cases he
      cases he'
      obtain ⟨rfl, h⟩ := hx.load_approach
      exact h
    · rcases loaded_cons hJ hload with ⟨rfl, -⟩ | hload
      · cases hread
      · exact hkeep cfg l w' call reply hreach hlog hload ho hx (ih rfl hload ho hread)
  · intro cfg w' a l b l₀ call reply hreach hlog ih _ _ _ hx ha hload ho hread
    subst ha
    exact hkeep cfg l w' call reply hreach hlog hload ho hx (ih rfl hload ho hread)
  · intro w w' m a l henv ih ha hload ho hread
    rw [World.campaign, env_campaigns henv]
    exact ih ha hload ho hread

variable {id : TaskId}

/-- Nobody but the coordinator moves a subtask to `Merging`, and only while it
integrates the campaign. -/
theorem Justified.of_merging {a : Actor} {error : Option String}
    (h : Justified a l (.update_orchestration_task_status id .Merging error)) :
    a = .coordinator ∧ ∃ c rows r, At l c rows r ∧ r.id = id ∧ c.status = .Integrating := by
  rcases h.of_task_status with ⟨ha, c, rows, r, hat, hcall⟩ | ⟨-, hs, -⟩ | ⟨-, -, -, -, hs, -⟩
  · refine ⟨ha, c, rows, r, hat, ?_⟩
    by_cases hc : c.status = .Integrating
    · exact ⟨(hcall.statusWritable).1, hc⟩
    · have := CampaignCall.starts_merge_eq_false hc (.task hat.isOpen hat.list hat.mem hcall)
      simp [Call.starts_merge] at this
  · cases hs
  · cases hs

/-- When a pass has just read that every subtask has settled, none is merging. -/
theorem not_merging_of_settled (h : Reachable K cfg)
    (hl : cfg.log .coordinator = some (⟨.load_orchestration_tasks cid, .ok rows⟩ :: l))
    (hall : ∀ r ∈ rows, r.status.is_settled = true) (ht : cfg.world.task id = some t)
    (hcid : t.session_orchestration_id = cid) : t.status ≠ .Merging := by
  refine reachable_logs (fun w a l => a = .coordinator → ∀ l',
    l = ⟨.load_orchestration_tasks cid, .ok rows⟩ :: l' → ∀ id t, w.task id = some t →
      t.session_orchestration_id = cid → t.status ≠ .Merging) h ?_ ?_ ?_ ?_ _ _ hl rfl l rfl id t ht
    hcid
  · intro w a _ l' he
    cases he
  · intro cfg w' a l call reply _ _ _ _ hx _ l' he id t ht hcid hs
    cases he
    obtain ⟨rfl, rfl⟩ := hx.load_tasks
    have hrow : task_row cfg.world id t ∈ load_orchestration_tasks cfg.world cid :=
      mem_load_orchestration_tasks.mpr ⟨t, ht, hcid, rfl⟩
    have hsettled : t.status.is_settled = true := hall _ hrow
    rw [hs] at hsettled
    cases hsettled
  · intro cfg w' a l b l₀ call reply _ _ ih hb _ hJ hx ha l' he id t' ht' hcid hs
    rcases hx.task ht' with ⟨t, ht, hmove⟩ | hborn
    · rcases hmove.to_merging hs with ⟨hs, -⟩ | ⟨error, he'⟩
      · exact ih ha l' he id t ht (hmove.campaign ▸ hcid) hs
      · cases he'
        exact hb (hJ.of_merging.1.trans ha.symm)
    · cases hborn with
      | fresh _ _ _ => cases hs
  · intro w w' m a l henv ih ha l' he id t ht
    rw [World.task, env_tasks henv] at ht
    exact ih ha l' he id t ht

/-- **No subtask is merging while its campaign is verified or waits for the
approval of its integration.** -/
theorem not_merging_before_integration (h : Reachable K cfg) (ht : cfg.world.task id = some t)
    (hs : t.status = .Merging) (hk : cfg.world.campaign t.session_orchestration_id = some k) :
    k.status ≠ .Verifying ∧ k.status ≠ .AwaitingIntegration := by
  refine reachable_world (fun w => ∀ id t k, w.task id = some t → t.status = .Merging →
    w.campaign t.session_orchestration_id = some k →
    k.status ≠ .Verifying ∧ k.status ≠ .AwaitingIntegration) h ?_ ?_ ?_ id t k ht hs hk
  · intro id t k ht
    cases ht
  · intro cfg w' a l call reply hreach hlog ih hJ hx id t' k' ht' hs hk'
    rcases hx.task ht' with ⟨t, ht, hmove⟩ | hborn
    · have hcid := hmove.campaign
      obtain ⟨k, hk⟩ := task_campaign hreach ht
      obtain ⟨k₁, hk₁, hcmove⟩ := hx.campaign_of_some hk
      rw [hcid] at hk'
      cases hk₁.symm.trans hk'
      rcases hmove.to_merging hs with ⟨hs, -⟩ | ⟨error, he⟩
      · have hold := ih id t k ht hs hk
        cases hcmove with
        | rollup_claimed _ =>
          -- the pass has just read that nothing is merging
          obtain ⟨rfl, c, -, hcall⟩ := hJ.of_pass_call rfl
          generalize hrid : t.session_orchestration_id = cid at hcall
          cases hcall with
          | claim_rollup _ _ hall =>
            exact absurd hs (not_merging_of_settled hreach hlog hall ht hrid)
          | task _ _ _ h => cases h
        | rolled_up hs' => exact absurd hs' hold.1
        | written => rcases hJ.status_written with rfl | rfl | rfl <;> simp
        | keep | planned | surfaced | cleared => exact hold
        | _ => simp
      · -- the pass that integrates has the campaign open
        cases he
        obtain ⟨rfl, c, rows, r, hat, hid, hc⟩ := hJ.of_merging
        obtain ⟨t₀, ht₀, hcid₀, -⟩ := hat.known hreach hlog
        rw [hid] at ht₀
        cases ht.symm.trans ht₀
        obtain ⟨k₀, hk₀, hopen⟩ := open_status hreach hlog hat.loaded hat.isOpen
        rw [← hcid₀] at hk₀
        cases hk.symm.trans hk₀
        cases hcmove with
        | keep =>
          refine ⟨fun h => ?_, fun h => ?_⟩
          · have := hopen.2.1 h
            rw [hc] at this
            cases this
          · have := hopen.2.2.1 h
            rw [hc] at this
            cases this
    · cases hborn with
      | fresh _ _ _ => cases hs
  · intro w w' m henv ih id t k ht hs hk
    rw [World.task, env_tasks henv] at ht
    rw [World.campaign, env_campaigns henv] at hk
    exact ih id t k ht hs hk

/-- **Between the write and the request** the pass is about to make the request,
for the child the subtask has, if it still has one. -/
theorem request_due (h : Reachable K cfg) (hl : cfg.log .coordinator = some l) (hm : Merges l id)
    (ht : cfg.world.task id = some t)
    (hk : cfg.world.campaign t.session_orchestration_id = some k)
    (hlocal : k.integration_approach = .LocalMerge) :
    ∃ child, cfg.next .coordinator = some (.merge_session child) ∧
      (t.child_session_id = none ∨ t.child_session_id = some child) := by
  obtain ⟨th, hth, rfl⟩ := Option.map_eq_some_iff.mp hl
  obtain ⟨cid, rows, r, child, approach, hlist, hr, rfl, hchild, hread, hcall⟩ :=
    System.Reaches.justified host_pays (fun _ => rfl) h hth rfl id hm
  refine ⟨child, ?_, child_of_row h hl hlist hr hchild ht⟩
  -- the approach it has read is the one of the campaign
  obtain ⟨error, l', he⟩ := hm
  obtain ⟨-, c, rows', r', hat, hid, hs⟩ :=
    (log_justified h (a := .coordinator) (by rw [hl, he])).of_merging
  have hload : Loaded th.log c := he ▸ hat.loaded.cons _
  have hopen : IsOpen th.log c.id := he ▸ hat.isOpen.cons rfl
  have hlist' : snapshot th.log = some (c.id, rows') := by
    rw [he, snapshot_cons]
    exact hat.list
  obtain ⟨rfl, rfl⟩ := Prod.mk.inj (Option.some.inj (hlist.symm.trans hlist'))
  obtain ⟨t₀, ht₀, hcid, -⟩ := (listed_known h hl hlist).2 r hr
  cases ht.symm.trans ht₀
  obtain ⟨k', hk', happroach⟩ := approach_kept h hl hload hopen hs hread
  rw [← hcid] at hk'
  cases hk.symm.trans hk'
  rw [hlocal] at happroach
  subst happroach
  rw [Config.next, hth, Option.map_some, hcall]
  rfl

end Facts

/-! ## The property -/

/-- The entry asks for the merge of a child. -/
def requests_merge (child : SessionId) : HostEntry → Bool
  | ⟨.coordinator, .merge_session child', _, _⟩ => child' = child
  | _ => false

/-- The entry moves the subtask to `Merging`. -/
def starts_merge (id : TaskId) : HostEntry → Bool
  | ⟨_, .update_orchestration_task_status id' status _, .ok _, _⟩ =>
    id' = id && status = .Merging
  | _ => false

/-- The merge of the child has been requested since the subtask was last moved to
`Merging`. -/
def merge_requested (id : TaskId) (child : SessionId) : List HostEntry → Bool :=
  since (requests_merge child) (starts_merge id)

/-- The process is not killed while a pass is about to request a merge. -/
def CrashesBetweenMerges (cfg : Configuration) : HostLabel → Prop
  | .crash => ∀ child, cfg.next .coordinator ≠ some (.merge_session child)
  | _ => True

variable {id : TaskId}

theorem starts_merge_eq_true {e : HostEntry} (h : starts_merge id e = true) :
    ∃ error, e.event = ⟨.update_orchestration_task_status id .Merging error, .ok ()⟩ := by
  unfold starts_merge at h
  split at h
  · obtain ⟨hid, hs⟩ := Bool.and_eq_true_iff.mp h
    obtain rfl := of_decide_eq_true hid
    obtain rfl := of_decide_eq_true hs
    exact ⟨_, rfl⟩
  · cases h

/-- What holds of a subtask that is merging locally. -/
def MergingInv (cfg : Configuration) (id : TaskId) : Prop :=
  ∀ t k, cfg.world.task id = some t → t.status = .Merging →
    cfg.world.campaign t.session_orchestration_id = some k → k.integration_approach = .LocalMerge →
    (∃ child, (t.child_session_id = none ∨ t.child_session_id = some child) ∧
      merge_requested id child cfg.trace = true) ∨
    ∃ l, cfg.log .coordinator = some l ∧ Merges l id

variable {K : Configuration → HostLabel → Prop} {cfg cfg' : Configuration}

/-- After the write the pass goes on. -/
theorem merges_of_starts_merge {a : Actor} {error : Option String} (hreach : Reachable K cfg)
    (hc : Called cfg cfg' a (.update_orchestration_task_status id .Merging error) (.ok ()) l) :
    ∃ l', cfg'.log .coordinator = some l' ∧ Merges l' id := by
  obtain ⟨rfl, -⟩ := hc.justified.of_merging
  obtain ⟨x, hstep⟩ := hc.stepped
  rcases System.Reaches.concludes host_pays (fun _ => rfl) hreach hstep hc.log hc.trace with
    hlog | hpaid
  · exact ⟨_, hlog, error, l, rfl⟩
  · exact absurd ⟨error, l, rfl⟩ (hpaid rfl id)

theorem MergingInv.step {a : Actor} {reply : Except String (Reply call)} (hreach : Reachable K cfg)
    (ih : MergingInv cfg id) (hc : Called cfg cfg' a call reply l) : MergingInv cfg' id := by
  intro t' k' ht' hs' hk' hlocal'
  rcases hc.exec.task ht' with ⟨t, ht, hmove⟩ | hborn
  · rcases hmove.to_merging hs' with ⟨hs, hchild⟩ | ⟨error, he⟩
    · -- it was merging before, under the same approach
      obtain ⟨k, hk⟩ := task_campaign hreach ht
      obtain ⟨k₁, hk₁, hcmove⟩ := hc.exec.campaign_of_some hk
      rw [hmove.campaign] at hk'
      cases hk₁.symm.trans hk'
      have hlocal : k.integration_approach = .LocalMerge := by
        rcases hcmove.approach with h | h
        · exact h.symm.trans hlocal'
        · exact absurd h (not_merging_before_integration hreach ht hs hk).2
      rw [hchild, hc.trace]
      by_cases hstarts : starts_merge id ⟨a, call, reply, cfg.world⟩ = true
      · -- the same status is written again
        obtain ⟨error, he⟩ := starts_merge_eq_true hstarts
        cases he
        exact .inr (merges_of_starts_merge hreach hc)
      · have hoff := Bool.not_eq_true _ ▸ hstarts
        rcases ih t k ht hs hk hlocal with ⟨child, hmatch, hreq⟩ | ⟨l₀, hl₀, hm⟩
        · exact .inl ⟨child, hmatch, since_cons.mpr (.inr ⟨hoff, hreq⟩)⟩
        · by_cases ha : a = .coordinator
          · -- the pass makes its request now
            subst ha
            obtain ⟨child, hnext, hmatch⟩ := request_due hreach hl₀ hm ht hk hlocal
            obtain rfl := Option.some.inj (hc.next.symm.trans hnext)
            exact .inl ⟨child, hmatch, since_cons.mpr (.inl (decide_eq_true rfl))⟩
          · refine .inr ⟨l₀, ?_, hm⟩
            rw [hc.others _ (fun h => ha h.symm)]
            exact hl₀
    · -- it has just been moved
      cases he
      exact .inr (merges_of_starts_merge hreach hc)
  · cases hborn with
    | fresh _ _ _ => cases hs'

theorem MergingInv.quiet {lab : HostLabel} (hreach : Reachable K cfg) (ih : MergingInv cfg id)
    (hK : CrashesBetweenMerges cfg lab) (hq : Quiet cfg cfg' lab) : MergingInv cfg' id := by
  intro t k ht hs hk hlocal
  rw [hq.tasks] at ht
  rw [hq.campaigns] at hk
  rw [hq.trace]
  rcases ih t k ht hs hk hlocal with h | ⟨l, hl, hm⟩
  · exact .inl h
  · rcases hq.kept with rfl | hkept
    · obtain ⟨child, hnext, -⟩ := request_due hreach hl hm ht hk hlocal
      exact absurd hnext (hK child)
    · exact .inr ⟨l, hkept _ l hl, hm⟩

/-- **Every local merge is requested.** In a run in which the process is not
killed between the two calls, the merge of a subtask that is `Merging` under the
local strategy has been requested since that write, or the pass that wrote it is
about to request it. -/
theorem merging_requested {cfg : Configuration} (h : Reachable CrashesBetweenMerges cfg)
    {id : TaskId} {t : Task} {k : Campaign} (ht : cfg.world.task id = some t)
    (hs : t.status = .Merging) (hk : cfg.world.campaign t.session_orchestration_id = some k)
    (hlocal : k.integration_approach = .LocalMerge) :
    ∃ child, (t.child_session_id = none ∨ t.child_session_id = some child) ∧
      (merge_requested id child cfg.trace = true ∨
        cfg.next .coordinator = some (.merge_session child)) := by
  have hinv : ∀ id, MergingInv cfg id := by
    refine reachable_steps (fun cfg => ∀ id, MergingInv cfg id) h ?_ ?_ ?_
    · intro id t k ht
      cases ht
    · exact fun cfg cfg' lab hreach ih hK hq id => (ih id).quiet hreach hK hq
    · exact fun cfg cfg' a x c r l hreach ih _ hc _ id => (ih id).step hreach hc
  rcases hinv id t k ht hs hk hlocal with ⟨child, hmatch, hreq⟩ | ⟨l, hl, hm⟩
  · exact ⟨child, hmatch, .inl hreq⟩
  · obtain ⟨child, hnext, hmatch⟩ := request_due h hl hm ht hk hlocal
    exact ⟨child, hmatch, .inr hnext⟩

/-! ### A run that meets the condition, and one that does not -/

/-- The subtask is merging under the local strategy. -/
def merging_locally (id : TaskId) (cfg : Configuration) : Bool :=
  (cfg.world.task id).any fun t => t.status = .Merging &&
    (cfg.world.campaign t.session_orchestration_id).any (·.integration_approach = .LocalMerge)

/-- The process is not killed at all. -/
def never_killed (_ : Configuration) : HostLabel → Bool
  | .crash => false
  | _ => true

theorem crashesBetweenMerges_of_never_killed (cfg : Configuration) (lab : HostLabel)
    (h : never_killed cfg lab = true) : CrashesBetweenMerges cfg lab := by
  cases lab with
  | crash => cases h
  | _ => trivial

/-- The first branch is being merged. -/
theorem merging_requested_run : ∃ cfg t k, Reachable CrashesBetweenMerges cfg ∧
    cfg.world.task 1 = some t ∧ t.status = .Merging ∧
    cfg.world.campaign t.session_orchestration_id = some k ∧
    k.integration_approach = .LocalMerge ∧
    ∃ child, (t.child_session_id = none ∨ t.child_session_id = some child) ∧
      (merge_requested 1 child cfg.trace = true ∨
        cfg.next .coordinator = some (.merge_session child)) := by
  have hrun : (host.runIf never_killed start (integrating_campaign ++ [.start .reconcile]
      ++ steps .coordinator 5)).any (fun cfg => ∃ t ∈ cfg.world.task 1, t.status = .Merging ∧
        ∃ k ∈ cfg.world.campaign t.session_orchestration_id,
          k.integration_approach = .LocalMerge) = true := by
    decide +kernel
  obtain ⟨cfg, hreach, t, ht, hs, k, hk, hlocal⟩ :=
    System.exists_reaches_of_runIf crashesBetweenMerges_of_never_killed hrun
  exact ⟨cfg, t, k, hreach, ht, hs, hk, hlocal, merging_requested hreach ht hs hk hlocal⟩

/-- The process is killed right after a subtask has been moved to `Merging`. -/
def stranded_campaign : List HostLabel :=
  integrating_campaign ++ [.start .reconcile] ++ steps .coordinator 4 ++ [.crash]

/-- Nobody has requested a merge. -/
def none_requested (cfg : Configuration) : Bool :=
  cfg.trace.all fun e => match e.call with
    | .merge_session _ => false
    | _ => true

/-- After the restart a whole pass over the campaign requests no merge and changes
no subtask: the subtask is `Merging` and nobody has ever asked to merge it. -/
theorem merging_subtask_stranded : ∃ cfg cfg', Reachable System.anyStep cfg ∧
    merging_locally 1 cfg = true ∧ cfg.log .coordinator = none ∧
    host.run cfg ([.start .reconcile] ++ steps .coordinator 3) = some cfg' ∧
    cfg'.log .coordinator = none ∧ none_requested cfg' = true ∧
    cfg'.world.tasks.rows = cfg.world.tasks.rows ∧
    cfg'.world.campaigns.rows = cfg.world.campaigns.rows := by
  have hrun : (host.run start stranded_campaign).any (fun cfg => merging_locally 1 cfg = true ∧
      cfg.log .coordinator = none ∧
      ∃ cfg' ∈ host.run cfg (.start .reconcile :: steps .coordinator 3),
        cfg'.log .coordinator = none ∧ none_requested cfg' = true ∧
        cfg'.world.tasks.rows = cfg.world.tasks.rows ∧
        cfg'.world.campaigns.rows = cfg.world.campaigns.rows) = true := by
    decide +kernel
  obtain ⟨cfg, hreach, hlocally, hidle, cfg', hpass⟩ := System.exists_reaches_of_run _ hrun
  exact ⟨cfg, cfg', hreach, hlocally, hidle, hpass⟩

end Agentty.Orchestration
