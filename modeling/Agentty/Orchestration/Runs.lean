/-
Runs of the process.

The certificate of `host` joins the program lemmas with what the store answers:
in every run, every call is justified by the log of the program that issues it
(`Justified`), and every step can be seen as a `View` of the world, the trace
and the logs. The invariants of the later modules are proved from that view.
-/
import Agentty.Orchestration.SessionMoves
import Agentty.Orchestration.HandlerPrograms

set_option autoImplicit false

namespace Agentty.Orchestration

open List

/-! ## What a load answers -/

section Loads

variable {w : World}

theorem mem_load_orchestration_tasks {cid : CampaignId} {r : SessionOrchestrationTaskRow} :
    r ∈ load_orchestration_tasks w cid ↔
      ∃ t, w.task r.id = some t ∧ t.session_orchestration_id = cid ∧ r = task_row w r.id t := by
  rw [load_orchestration_tasks, mem_insertionSort, mem_map]
  constructor
  · rintro ⟨⟨id, t⟩, hmem, rfl⟩
    obtain ⟨ht, hcid⟩ := Table.mem_select.mp hmem
    exact ⟨t, ht, by simpa using hcid, rfl⟩
  · rintro ⟨t, ht, hcid, hr⟩
    refine ⟨(r.id, t), Table.mem_select.mpr ⟨ht, by simpa using hcid⟩, hr.symm⟩

theorem nodup_load_orchestration_tasks (cid : CampaignId) :
    ((load_orchestration_tasks w cid).map (·.id)).Nodup := by
  rw [load_orchestration_tasks, ((perm_insertionSort _ _).map _).nodup_iff, map_map]
  exact Table.nodup_select w.tasks _

variable {c : SessionOrchestrationRow}

theorem campaign_row_eq_some {id : CampaignId} {k : Campaign} (h : campaign_row w id k = some c) :
    c.id = id ∧ c.status = k.status ∧ c.controller_session_id = k.controller_session_id ∧
      c.max_parallelism = k.max_parallelism ∧
      c.verification_generation = k.verification_generation ∧
      c.relayed_question_task_id = k.relayed_question_task_id := by
  obtain ⟨s, -, rfl⟩ := Option.map_eq_some_iff.mp h
  exact ⟨rfl, rfl, rfl, rfl, rfl, rfl⟩

theorem mem_load_active_orchestrations (h : c ∈ load_active_orchestrations w) :
    ∃ k, w.campaign c.id = some k ∧ k.status.is_active = true ∧ campaign_row w c.id k = some c := by
  rw [load_active_orchestrations, mem_insertionSort, mem_filterMap] at h
  obtain ⟨⟨id, k⟩, hmem, hrow⟩ := h
  obtain ⟨hk, hactive⟩ := Table.mem_select.mp hmem
  obtain ⟨rfl, -⟩ := campaign_row_eq_some hrow
  exact ⟨k, hk, hactive, hrow⟩

theorem load_orchestration_for_controller_eq_some {sid : SessionId}
    (h : load_orchestration_for_controller w sid = some c) :
    ∃ k, w.campaign c.id = some k ∧ k.controller_session_id = sid ∧
      campaign_row w c.id k = some c := by
  have hmem := mem_of_mem_head? h
  rw [mem_insertionSort, mem_filterMap] at hmem
  obtain ⟨⟨id, k⟩, hmem, hrow⟩ := hmem
  obtain ⟨hk, hsid⟩ := Table.mem_select.mp hmem
  obtain ⟨rfl, -⟩ := campaign_row_eq_some hrow
  exact ⟨k, hk, by simpa using hsid, hrow⟩

/-- Campaign rows keep the ids of the table, which are different. -/
theorem nodup_filterMap_campaign_row (w : World) :
    ∀ rows : List (CampaignId × Campaign), (rows.map Prod.fst).Nodup →
      ((rows.filterMap fun row => campaign_row w row.1 row.2).map (·.id)).Nodup := by
  intro rows hnd
  induction rows with
  | nil => exact nodup_nil
  | cons row rows ih =>
    rw [map_cons, nodup_cons] at hnd
    rw [filterMap_cons]
    split
    · exact ih hnd.2
    rename_i c hrow
    rw [map_cons, nodup_cons]
    refine ⟨fun hmem => hnd.1 ?_, ih hnd.2⟩
    obtain ⟨c', hc', hid⟩ := mem_map.mp hmem
    obtain ⟨row', hrow', heq⟩ := mem_filterMap.mp hc'
    rw [← (campaign_row_eq_some hrow).1, ← hid, (campaign_row_eq_some heq).1]
    exact mem_map_of_mem hrow'

theorem nodup_load_active_orchestrations :
    ((load_active_orchestrations w).map (·.id)).Nodup := by
  rw [load_active_orchestrations, ((perm_insertionSort _ _).map _).nodup_iff]
  exact nodup_filterMap_campaign_row w _ (Table.nodup_select w.campaigns _)

end Loads

/-! ## The environment -/

section Environment

variable {w w' : World} {m : EnvMove}

theorem env_rows (h : env w m = some w') : w'.tasks = w.tasks ∧ w'.campaigns = w.campaigns := by
  cases m with
  | session_created =>
    simp only [env] at h
    split at h
    · cases h
      exact ⟨rfl, rfl⟩
    · cases h
  | _ => cases h; exact ⟨rfl, rfl⟩

theorem env_tasks (h : env w m = some w') : w'.tasks = w.tasks := (env_rows h).1

theorem env_campaigns (h : env w m = some w') : w'.campaigns = w.campaigns := (env_rows h).2

/-- **How the environment changes a session row.** -/
inductive EnvSession (id : SessionId) (s : Session) : EnvMove → Session → Prop where
  | keep {m : EnvMove} : EnvSession id s m s
  | status {next : SessionStatus} (h : s.status.can_transition_to next = true) :
      EnvSession id s (.session_status id next) { s with status := next }
  | observed {o : Observation} : EnvSession id s (.session_observed id o) (s.observe o)

variable {id : SessionId}

/-- A stopped session stays stopped, and a canceled one canceled. -/
theorem EnvSession.stopped {s s' : Session} (h : EnvSession id s m s')
    (hs : s.status.is_stopped = true) :
    s'.status.is_stopped = true ∧ (s.status = .Canceled → s'.status = .Canceled) := by
  cases h with
  | keep | observed => exact ⟨hs, fun h => h⟩
  | @status next h =>
    cases hstatus : s.status <;> simp [hstatus, SessionStatus.is_stopped] at hs <;>
      cases next <;> simp [hstatus, SessionStatus.can_transition_to,
        SessionStatus.is_stopped] at h ⊢

theorem env_session (h : env w m = some w') {s' : Session} (hs' : w'.session id = some s') :
    (∃ s, w.session id = some s ∧ EnvSession id s m s') ∨
      (w.session id = none ∧ ∃ project orchestrator,
        s' = created_session project orchestrator) := by
  cases m with
  | session_status =>
    cases h
    obtain ⟨s, hs, ⟨rfl, hp, rfl⟩ | ⟨-, rfl⟩⟩ := Table.exists_of_get?_update hs'
    · exact .inl ⟨s, hs, .status hp⟩
    · exact .inl ⟨_, hs, .keep⟩
  | session_observed id₀ o =>
    cases h
    obtain ⟨s, hs, ⟨rfl, -, rfl⟩ | ⟨-, rfl⟩⟩ := Table.exists_of_get?_update hs'
    · exact .inl ⟨s, hs, .observed⟩
    · exact .inl ⟨_, hs, .keep⟩
  | session_created id₀ project orchestrator =>
    simp only [env] at h
    split at h
    · rename_i hnone
      cases h
      simp only [World.session, Table.get?_insert] at hs'
      split at hs'
      · rename_i hid
        subst hid
        exact .inr ⟨hnone, project, orchestrator, (Option.some.inj hs').symm⟩
      · exact .inl ⟨s', hs', .keep⟩
    · cases h
  | operation_status | settings_changed => cases h; exact .inl ⟨s', hs', .keep⟩

theorem env_grows (h : env w m = some w') : w.sessions.Grows w'.sessions := by
  cases m with
  | session_created id project_id orchestrator =>
    simp only [env] at h
    split at h
    · rename_i hnone
      cases h
      exact Table.grows_insert _ _ _ hnone
    · cases h
  | session_status | session_observed => cases h; exact Table.grows_update _ _ _ _
  | operation_status | settings_changed => cases h; exact Table.Grows.refl _

theorem env_session_of_some (h : env w m = some w') {s : Session} (hs : w.session id = some s) :
    ∃ s', w'.session id = some s' ∧ EnvSession id s m s' := by
  obtain ⟨s', hs'⟩ := env_grows h id s hs
  rcases env_session h hs' with ⟨s₀, hs₀, hmove⟩ | ⟨hnone, -⟩
  · cases hs.symm.trans hs₀
    exact ⟨s', hs', hmove⟩
  · cases hs.symm.trans hnone

end Environment

/-! ## The certificate -/

theorem exec_valid (w : World) (x : Choice) (c : Call) (a : Reply c)
    (h : (exec w x c).2 = .ok a) : Valid c a := by
  unfold exec at h
  split at h
  · cases h
  cases c <;> try exact trivial
  case load_orchestration_for_controller sid =>
    cases h
    intro c hc
    obtain ⟨k, -, hsid, hrow⟩ := load_orchestration_for_controller_eq_some hc
    rw [(campaign_row_eq_some hrow).2.2.1, hsid]
  case load_active_orchestrations =>
    cases h
    exact nodup_load_active_orchestrations
  case load_orchestration_tasks cid =>
    cases h
    refine ⟨nodup_load_orchestration_tasks cid, fun r hr hnone => ?_⟩
    obtain ⟨t, -, -, hrow⟩ := mem_load_orchestration_tasks.mp hr
    rw [hrow] at hnone ⊢
    have hchild : t.child_session_id = none := hnone
    simp [task_row, hchild]
  case record_orchestration_spawn_failure id error limit =>
    simp only [serve, record_orchestration_spawn_failure] at h
    split at h
    · cases h
    cases h
    split
    · exact .inl rfl
    · exact .inr rfl

/-- **The process is certified**: every program of every actor keeps to the
catalogue of that actor. -/
theorem host_certified : host.Certified Valid Justified where
  valid := exec_valid
  meets d := by
    cases d with
    | reconcile => exact reconcile_once_obeys
    | controller_turn =>
      exact persist_controller_plan_obeys.bind fun _ _ _ => trivial
    | approve => exact approve_orchestration_obeys.bind fun _ _ _ => trivial
    | detach child => exact Prog.obeys_perform .detach fun _ _ => trivial
    | cancel sid => exact cancel_api_session_obeys
    | answer => exact answer_api_questions_obeys

/-- A step of the process, as seen from the world, the trace and the logs. -/
abbrev StepView (cfg cfg' : Configuration) (l : HostLabel) : Prop := host.View Justified cfg cfg' l

variable {K : Configuration → HostLabel → Prop} {cfg : Configuration}

/-- **The invariant rule of the process**, over views. -/
theorem reachable_induct (Inv : Configuration → Prop) (h : Reachable K cfg) (init : Inv start)
    (step : ∀ cfg l cfg', Reachable K cfg → Inv cfg → K cfg l → host.step cfg l = some cfg' →
      StepView cfg cfg' l → Inv cfg') :
    Inv cfg :=
  System.Reaches.invariant Inv h init fun cfg l cfg' hreach hinv hK hstep =>
    step cfg l cfg' hreach hinv hK hstep (hreach.view host_certified (fun _ => rfl) hstep)

theorem reachable_world (P : World → Prop) (h : Reachable K cfg) (init : P .initial)
    (call : ∀ cfg w' a l c (r : Except String (Reply c)), Reachable K cfg → cfg.log a = some l →
      P cfg.world → Justified a l c → Exec cfg.world c r w' → P w')
    (envs : ∀ w w' m, env w m = some w' → P w → P w') : P cfg.world := by
  refine reachable_induct (fun cfg => P cfg.world) h init ?_
  intro cfg lab cfg' hreach ih _ _ hview
  cases hview with
  | start _ hworld | crash hworld => rw [hworld]; exact ih
  | call a x c r l₀ _ hlog hJ _ hexec => exact call cfg _ a l₀ c r hreach hlog ih hJ ⟨x, hexec⟩
  | env m hworld => exact envs _ _ m hworld ih

/-- The rule for what a running program's log says about the world in every run:
it has to survive the program's own calls and everybody else's. -/
theorem reachable_logs (P : World → Actor → RunLog → Prop) (h : Reachable K cfg)
    (nil : ∀ w a, P w a [])
    (own : ∀ cfg w' a l c (r : Except String (Reply c)), Reachable K cfg → cfg.log a = some l →
      P cfg.world a l → Justified a l c → Exec cfg.world c r w' → P w' a (⟨c, r⟩ :: l))
    (other : ∀ cfg w' a l b l₀ c (r : Except String (Reply c)), Reachable K cfg →
      cfg.log a = some l → P cfg.world a l → b ≠ a → cfg.log b = some l₀ → Justified b l₀ c →
      Exec cfg.world c r w' → P w' a l)
    (envs : ∀ w w' m a l, env w m = some w' → P w a l → P w' a l) :
    ∀ a l, cfg.log a = some l → P cfg.world a l := by
  refine reachable_induct (fun cfg => ∀ a l, cfg.log a = some l → P cfg.world a l) h ?_ ?_
  · intro a l hl
    cases hl
  · intro cfg lab cfg' hreach ih _ _ hview a l hl
    cases hview with
    | start d hworld _ _ hown hothers =>
      rw [hworld]
      by_cases ha : a = host.actor d
      · subst ha
        rw [hown l hl]
        exact nil _ _
      · rw [hothers a ha] at hl
        exact ih a l hl
    | call b x c r l₀ _ hlog hJ _ hexec _ hown hothers =>
      by_cases ha : a = b
      · subst ha
        rw [hown l hl]
        exact own cfg _ a l₀ c r hreach hlog (ih a l₀ hlog) hJ ⟨x, hexec⟩
      · rw [hothers a ha] at hl
        exact other cfg _ a l b l₀ c r hreach hl (ih a l hl) (fun h => ha h.symm) hlog hJ
          ⟨x, hexec⟩
    | env m hworld _ hlogs =>
      rw [hlogs] at hl
      exact envs _ _ m a l hworld (ih a l hl)
    | crash _ _ hlogs =>
      rw [hlogs] at hl
      cases hl

variable {a : Actor} {c : Call}

/-- The newest call of a log was justified by the rest of it. -/
theorem log_justified (h : Reachable K cfg) {r : Except String (Reply c)} {l : RunLog}
    (hl : cfg.log a = some (⟨c, r⟩ :: l)) : Justified a l c := by
  refine reachable_logs (fun _ a l' => ∀ c (r : Except String (Reply c)) l, l' = ⟨c, r⟩ :: l →
    Justified a l c) h ?_ ?_ ?_ ?_ a _ hl c r l rfl
  · intro w a c r l he
    cases he
  · intro cfg w' a l' c' r' _ _ _ hJ _ c r l he
    cases he
    exact hJ
  · exact fun cfg w' a l b l₀ c r _ _ ih _ _ _ _ => ih
  · exact fun w w' m a l _ ih => ih

/-- A step that executes no call: it changes neither the trace nor campaigns nor
subtasks, sessions at most by a move of the environment, and a log is as it was,
empty, or gone. -/
structure Quiet (cfg cfg' : Configuration) (lab : HostLabel) : Prop where
  trace : cfg'.trace = cfg.trace
  tasks : ∀ id, cfg'.world.task id = cfg.world.task id
  campaigns : ∀ id, cfg'.world.campaign id = cfg.world.campaign id
  world : cfg'.world = cfg.world ∨ ∃ m, env cfg.world m = some cfg'.world
  logs : ∀ b l, cfg'.log b = some l → l = [] ∨ cfg.log b = some l
  kept : lab = .crash ∨ ∀ b l, cfg.log b = some l → cfg'.log b = some l

/-- A step that executes a call of an actor. -/
structure Called (cfg cfg' : Configuration) (a : Actor) (c : Call) (r : Except String (Reply c))
    (l : RunLog) : Prop where
  next : cfg.next a = some c
  log : cfg.log a = some l
  justified : Justified a l c
  exec : Exec cfg.world c r cfg'.world
  trace : cfg'.trace = ⟨a, c, r, cfg.world⟩ :: cfg.trace
  own : ∀ l', cfg'.log a = some l' → l' = ⟨c, r⟩ :: l
  others : ∀ b, b ≠ a → cfg'.log b = cfg.log b
  stepped : ∃ x, host.step cfg (.call a x) = some cfg'

variable {cfg' : Configuration}

/-- The log of an actor after a call is the longer one of the caller, or as it
was. -/
theorem Called.log_cases {r : Except String (Reply c)} {l : RunLog} (h : Called cfg cfg' a c r l)
    {b : Actor} {l' : RunLog} (hl : cfg'.log b = some l') :
    (b = a ∧ l' = ⟨c, r⟩ :: l) ∨ (b ≠ a ∧ cfg.log b = some l') := by
  by_cases hb : b = a
  · subst hb
    exact .inl ⟨rfl, h.own l' hl⟩
  · exact .inr ⟨hb, h.others b hb ▸ hl⟩

theorem called_of_step (h : Reachable K cfg) {x : Choice}
    (hstep : host.step cfg (.call a x) = some cfg') : ∃ c r l, Called cfg cfg' a c r l := by
  cases System.Reaches.view host_certified (fun _ => rfl) h hstep with
  | call a x c r l hnext hlog hJ _ hexec htrace hown hothers =>
    exact ⟨c, r, l, hnext, hlog, hJ, ⟨x, hexec⟩, htrace, hown, hothers, x, hstep⟩

/-- **The invariant rule of the process, by kind of step.** -/
theorem reachable_steps (Inv : Configuration → Prop) (h : Reachable K cfg) (init : Inv start)
    (quiet : ∀ cfg cfg' lab, Reachable K cfg → Inv cfg → K cfg lab → Quiet cfg cfg' lab → Inv cfg')
    (call : ∀ cfg cfg' a x c (r : Except String (Reply c)) l, Reachable K cfg → Inv cfg →
      K cfg (.call a x) → Called cfg cfg' a c r l → exec cfg.world x c = (cfg'.world, r) →
      Inv cfg') :
    Inv cfg := by
  refine reachable_induct Inv h init ?_
  intro cfg lab cfg' hreach ih hK hstep hview
  cases hview with
  | start d hworld htrace hidle hown hothers =>
    refine quiet cfg cfg' _ hreach ih hK ⟨htrace, fun _ => by rw [hworld], fun _ => by rw [hworld],
      .inl hworld, fun b l hl => ?_, .inr fun b l hl => ?_⟩
    · by_cases hb : b = host.actor d
      · subst hb
        exact .inl (hown l hl)
      · exact .inr (hothers b hb ▸ hl)
    · by_cases hb : b = host.actor d
      · subst hb
        rw [hidle] at hl
        cases hl
      · rw [hothers b hb]
        exact hl
  | call a x c r l hnext hlog hJ _ hexec htrace hown hothers =>
    exact call cfg cfg' a x c r l hreach ih hK
      ⟨hnext, hlog, hJ, ⟨x, hexec⟩, htrace, hown, hothers, x, hstep⟩ hexec
  | env m hworld htrace hlogs =>
    exact quiet cfg cfg' _ hreach ih hK ⟨htrace, fun _ => by rw [World.task, env_tasks hworld],
      fun _ => by rw [World.campaign, env_campaigns hworld], .inr ⟨m, hworld⟩,
      fun b l hl => .inr (hlogs b ▸ hl), .inr fun b l hl => (hlogs b).symm ▸ hl⟩
  | crash hworld htrace hlogs =>
    refine quiet cfg cfg' _ hreach ih hK ⟨htrace, fun _ => by rw [hworld], fun _ => by rw [hworld],
      .inl hworld, fun b l hl => ?_, .inl rfl⟩
    rw [hlogs] at hl
    cases hl

/-! ## Answers of single calls -/

section Answers

variable {w w' : World}

theorem Exec.valid {a : Reply c} (h : Exec w c (.ok a) w') : Valid c a := by
  obtain ⟨x, hx⟩ := h
  exact exec_valid w x c a (congrArg Prod.snd hx)

theorem Exec.load_controller {sid : SessionId} {row : Option SessionOrchestrationRow}
    (h : Exec w (.load_orchestration_for_controller sid) (.ok row) w') :
    w' = w ∧ load_orchestration_for_controller w sid = row := by
  obtain ⟨x, hx⟩ := h.served
  cases hx
  exact ⟨rfl, rfl⟩

theorem Exec.load_active {rows : List SessionOrchestrationRow}
    (h : Exec w .load_active_orchestrations (.ok rows) w') :
    w' = w ∧ load_active_orchestrations w = rows := by
  obtain ⟨x, hx⟩ := h.served
  cases hx
  exact ⟨rfl, rfl⟩

variable {cid : CampaignId}

theorem Exec.load_tasks {rows : List SessionOrchestrationTaskRow}
    (h : Exec w (.load_orchestration_tasks cid) (.ok rows) w') :
    w' = w ∧ load_orchestration_tasks w cid = rows := by
  obtain ⟨x, hx⟩ := h.served
  cases hx
  exact ⟨rfl, rfl⟩

theorem Exec.load_approach {approach : IntegrationApproach}
    (h : Exec w (.load_orchestration_integration_approach cid) (.ok approach) w') :
    w' = w ∧ ∃ k, w.campaign cid = some k ∧ k.integration_approach = approach := by
  obtain ⟨x, hx⟩ := h.served
  obtain ⟨rfl, hr⟩ := Prod.mk.inj hx
  refine ⟨rfl, ?_⟩
  simp only [load_orchestration_integration_approach] at hr
  split at hr
  · next k hk => exact ⟨k, hk, Except.ok.inj hr⟩
  · cases hr

variable {id : CampaignId}

theorem Exec.insert {sid : SessionId} {status : OrchestrationStatus} {max : Int}
    (h : Exec w (.insert_orchestration sid status max) (.ok id) w') :
    w.campaign id = none ∧ ∃ k, w'.campaign id = some k ∧ k.controller_session_id = sid ∧
      k.status = status := by
  obtain ⟨x, hx⟩ := h.served
  simp only [serve, insert_orchestration] at hx
  split at hx
  · cases hx
  cases hx
  refine ⟨Table.get?_nextId _, ?_⟩
  rw [World.campaign, Table.get?_push, if_pos rfl]
  exact ⟨_, rfl, rfl, rfl⟩

variable {id : TaskId}

theorem Exec.claim (h : Exec w (.claim_orchestration_task id) (.ok true) w') :
    ∃ t, w.task id = some t ∧ t.status = .Planned ∧
      w.campaign_status t.session_orchestration_id = some .Running ∧
      w'.task id = some { t with status := .Creating, last_error := none } := by
  obtain ⟨x, hx⟩ := h.served
  obtain ⟨rfl, hr⟩ := Prod.mk.inj hx
  obtain ⟨t, ht, hguard⟩ := Table.affects_iff.mp (Except.ok.inj hr)
  have hguard' := hguard
  simp only [Bool.and_eq_true, decide_eq_true_eq, is_running] at hguard'
  refine ⟨t, ht, hguard'.1, hguard'.2, ?_⟩
  simp only [World.task, claim_orchestration_task, update_task, Table.get?_update_self]
  rw [ht, Option.map_some, if_pos hguard]

theorem Exec.claim_rollup (h : Exec w (.claim_orchestration_rollup id) (.ok true) w') :
    w.campaign_status id = some .Running := by
  obtain ⟨x, hx⟩ := h.served
  obtain ⟨rfl, hr⟩ := Prod.mk.inj hx
  obtain ⟨k, hk, hguard⟩ := Table.affects_iff.mp (Except.ok.inj hr)
  exact Option.map_eq_some_iff.mpr ⟨k, hk, of_decide_eq_true hguard⟩

theorem Exec.queue {prompt : String} {criteria areas : List String}
    (h : Exec w (.queue_orchestration_continuation id prompt criteria areas) (.ok true) w') :
    ∃ t, w.task id = some t ∧ t.child_session_id.isSome = true ∧
      ∃ t', w'.task id = some t' ∧ t'.status = .ContinuationPending ∧
        t'.verification_verdict = none := by
  obtain ⟨x, hx⟩ := h.served
  obtain ⟨queued, hx, ⟨⟩⟩ := answered_eq hx
  simp only [queue_orchestration_continuation] at hx
  split at hx
  case isFalse => cases hx
  next haff =>
  obtain ⟨t, ht, hguard⟩ := Table.affects_iff.mp haff
  cases hx
  refine ⟨t, ht, (Bool.and_eq_true_iff.mp hguard).1, ?_⟩
  simp only [World.task, clear_child_review_tasks, update_task, Table.get?_update_self]
  rw [ht, Option.map_some, if_pos hguard]
  exact ⟨_, rfl, rfl, rfl⟩

theorem Exec.task_status {status : OrchestrationTaskStatus} {error : Option String}
    (h : Exec w (.update_orchestration_task_status id status error) (.ok ()) w') {t : Task}
    (ht : w.task id = some t) : w'.task id = some { t with status, last_error := error } := by
  obtain ⟨x, hx⟩ := h.served
  cases hx
  simp [World.task, update_orchestration_task_status, Table.get?_update_self, ht]

theorem Exec.detach {child : SessionId} {s : Session} {t : Task}
    (h : Exec w (.detach_orchestration_child child) (.ok true) w') (hs : w.session child = some s)
    (hlink : s.orchestration_task_id = some id) (ht : w.task id = some t) :
    w'.task id = some { t with child_session_id := none, status := .Detached } := by
  obtain ⟨x, hx⟩ := h.served
  obtain ⟨detached, hx, ⟨⟩⟩ := answered_eq hx
  simp only [detach_orchestration_child, hs, hlink] at hx
  split at hx
  · cases hx
    simp [World.task, Table.get?_update_self, ht]
  · cases hx

theorem Exec.begin (h : Exec w (.begin_orchestration_cancellation id) (.ok true) w') :
    ∃ k, w.campaign id = some k ∧ k.status.is_active = true ∧
      w'.campaign id = some { k with status := .Canceling } := by
  obtain ⟨x, hx⟩ := h.served
  obtain ⟨rfl, hr⟩ := Prod.mk.inj hx
  obtain ⟨k, hk, hactive⟩ := Table.affects_iff.mp (Except.ok.inj hr)
  refine ⟨k, hk, hactive, ?_⟩
  simp only [World.campaign, begin_orchestration_cancellation, update_campaign,
    Table.get?_update_self]
  rw [hk, Option.map_some, if_pos hactive]

end Answers

/-! ## Concrete runs

The labels of a run on concrete inputs; they are for the runs that show what can
happen. -/

def proposal (kind : OrchestrationTaskKind) (task_key : String) : SubtaskItem where
  acceptance_criteria := ["done"]
  kind := kind
  prompt := "work"
  task_key := task_key
  title := "task"
  touched_areas := []

def proposing (subtasks : List SubtaskItem) : AgentResponse where
  answer := "plan"
  questions := []
  subtasks := subtasks
  verification_verdicts := []

def passing (task_keys : List String) : AgentResponse where
  answer := "verified"
  questions := []
  subtasks := []
  verification_verdicts := task_keys.map fun task_key =>
    { reason := "fine", task_key, verdict := .Pass }

/-- The next call of an actor is served; a created session gets this id. -/
def serves (a : Actor) (session_id : SessionId) : HostLabel :=
  .call a { error := none, session_id }

/-- The next calls of an actor are served. -/
def steps (a : Actor) (n : Nat) : List HostLabel := replicate n (serves a "")

/-- A plan of two implementation subtasks is proposed by the controller `k`. -/
def proposed_campaign : List HostLabel :=
  [.env (.session_created "k" 1 true),
    .start (.controller_turn "k"
      (proposing [proposal .Implementation "a", proposal .Implementation "b"]))]
    ++ steps (.controller "k") 11

/-- The plan is approved. -/
def approved_campaign : List HostLabel :=
  proposed_campaign ++ [.start (.approve "k" none)] ++ steps .app 2

/-- Both subtasks are spawned and prompted; their children are `x` and `y`. -/
def started_campaign : List HostLabel :=
  approved_campaign ++ [.start .reconcile] ++ steps .coordinator 3 ++ [serves .coordinator "x"]
    ++ steps .coordinator 3 ++ [serves .coordinator "y"] ++ steps .coordinator 3

/-- A session goes through statuses by itself. -/
def moved (id : SessionId) (statuses : List SessionStatus) : List HostLabel :=
  statuses.map fun status => .env (.session_status id status)

/-- Both children have finished a turn, their subtasks have settled, and the
roll-up has been submitted to the controller. -/
def verifying_campaign : List HostLabel :=
  started_campaign ++ moved "k" [.InProgress, .Review] ++ moved "x" [.InProgress, .Review]
    ++ moved "y" [.InProgress, .Review] ++ [.start .reconcile] ++ steps .coordinator 9

/-- Both subtasks are passed and admitted, and the user has their branches merged
one after the other. -/
def integrating_campaign : List HostLabel :=
  verifying_campaign ++ [.start (.controller_turn "k" (passing ["a", "b"]))]
    ++ steps (.controller "k") 4
    ++ [.env (.operation_status (.orchestration_rollup 1 1) .Done), .start .reconcile]
    ++ steps .coordinator 4 ++ [.start (.approve "k" (some .LocalMerge))] ++ steps .app 3

/-- The actors of the concrete runs. -/
def cast : List Actor := [.coordinator, .app, .controller "k"]

/-- Certain calls are issued by a certain actor, while no other program is in
flight, and the process is not killed: the quiet runs that meet the conditions
on races. -/
def Alone (who : Call → Option Actor) (cfg : Configuration) : HostLabel → Prop
  | .call a _ => ∀ c b, cfg.next a = some c → who c = some b →
      a = b ∧ ∀ b', b' ≠ b → cfg.log b' = none
  | .crash => False
  | _ => True

/-- The test of `Alone` on a step of a concrete run. -/
def alone (who : Call → Option Actor) (cfg : Configuration) : HostLabel → Bool
  | .start (.controller_turn sid _) => sid = "k"
  | .call a _ => match (cfg.next a).bind who with
      | some b => a = b && cast.all fun b' => b' = b || (cfg.running b').isNone
      | none => true
  | .crash => false
  | _ => true

theorem alone_sound (who : Call → Option Actor) (cfg : Configuration) (lab : HostLabel)
    (hrun : System.Config.RunsOnly cast cfg) (h : alone who cfg lab = true) :
    Alone who cfg lab := by
  cases lab with
  | call a x =>
    intro c b hnext hc
    simp only [alone, hnext, Option.bind_some, hc, Bool.and_eq_true, decide_eq_true_eq,
      all_eq_true] at h
    refine ⟨h.1, fun b' hb' => ?_⟩
    rw [Config.log, Option.map_eq_none_iff]
    by_cases hcast : b' ∈ cast
    · have hidle := h.2 b' hcast
      simpa [hb'] using hidle
    · exact hrun b' hcast
  | crash => cases h
  | _ => trivial

/-- The controller of the concrete runs is `k`. -/
def StartsCast (check : Configuration → HostLabel → Bool) : Prop :=
  ∀ cfg sid response, check cfg (.start (.controller_turn sid response)) = true → sid = "k"

variable {ls : List HostLabel} {check : Configuration → HostLabel → Bool}

/-- **A concrete run that passes a test meets a condition** that the test implies,
given who can be in flight at all. -/
theorem reaches_of_test
    (hcheck : ∀ cfg lab, System.Config.RunsOnly cast cfg → check cfg lab = true → K cfg lab)
    (hstart : StartsCast check) (hrun : System.Config.RunsOnly cast cfg)
    (h : host.runIf check cfg ls = some cfg') :
    host.Reaches K cfg cfg' ∧ System.Config.RunsOnly cast cfg' := by
  refine System.reaches_of_runIf cast hcheck ?_ ls cfg cfg' hrun h
  intro cfg d h
  cases d with
  | controller_turn sid response => simp [host, Command.actor, cast, hstart cfg sid response h]
  | _ => simp [host, Command.actor, cast]

variable {p : Configuration → Prop} [DecidablePred p]

theorem exists_reachable_of_test
    (hcheck : ∀ cfg lab, System.Config.RunsOnly cast cfg → check cfg lab = true → K cfg lab)
    (hstart : StartsCast check) (h : (host.runIf check start ls).any (fun cfg => p cfg) = true) :
    ∃ cfg, Reachable K cfg ∧ System.Config.RunsOnly cast cfg ∧ p cfg := by
  obtain ⟨cfg, hrun, hcfg⟩ := (Option.any_eq_true _ _).mp h
  obtain ⟨hreach, honly⟩ := reaches_of_test hcheck hstart (fun _ _ => rfl) hrun
  exact ⟨cfg, hreach, honly, of_decide_eq_true hcfg⟩

theorem startsCast_alone (who : Call → Option Actor) : StartsCast (alone who) :=
  fun _ _ _ h => of_decide_eq_true h

section

variable {who : Call → Option Actor} (hK : ∀ cfg lab, Alone who cfg lab → K cfg lab)

include hK

theorem exists_reachable_alone
    (h : (host.runIf (alone who) start ls).any (fun cfg => p cfg) = true) :
    ∃ cfg, Reachable K cfg ∧ System.Config.RunsOnly cast cfg ∧ p cfg :=
  exists_reachable_of_test (fun cfg lab hrun h => hK cfg lab (alone_sound who cfg lab hrun h))
    (startsCast_alone who) h

end

end Agentty.Orchestration
