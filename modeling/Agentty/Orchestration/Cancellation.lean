/-
Cancellation is final, as long as it begins between turns.

`begin_orchestration_cancellation` moves an active campaign to `Canceling`, and
every guarded write of a campaign's status refuses a campaign in that state. The
unguarded one, `update_orchestration_status`, does not: a controller turn that
has read the campaign before the cancellation writes `Running` or
`AwaitingApproval` by id when it gets there. A run in which no such turn is in
flight when a cancellation begins keeps the campaign canceling or canceled.
-/
import Agentty.Orchestration.Facts

set_option autoImplicit false

namespace Agentty.Orchestration

/-- The campaign is being canceled, or is canceled. -/
def Ending (w : World) (id : CampaignId) : Prop :=
  ∃ k, w.campaign id = some k ∧ (k.status = .Canceling ∨ k.status = .Canceled)

/-- A turn in flight may still reopen the campaign. -/
def InHands (cfg : Configuration) (id : CampaignId) : Prop :=
  ∃ sid l, cfg.log (.controller sid) = some l ∧ Reopens l id

/-- The step does not begin a cancellation while a turn has the campaign in its
hands. -/
def BeginsBetweenTurns (cfg : Configuration) : HostLabel → Prop
  | .call a _ => ∀ id, cfg.next a = some (.begin_orchestration_cancellation id) → ¬ InHands cfg id
  | _ => True

/-- What holds in every configuration of such a run. -/
structure CancellationInv (cfg : Configuration) : Prop where
  /-- No turn in flight can reopen a campaign that ends. -/
  free : ∀ id, Ending cfg.world id → ¬ InHands cfg id
  /-- What the coordinator has loaded as `Canceling` still ends. -/
  loaded : ∀ l c, cfg.log .coordinator = some l → Loaded l c → c.status = .Canceling →
    Ending cfg.world c.id
  /-- So does what the app has begun to cancel. -/
  began : ∀ l id, cfg.log .app = some l → Began l id → Ending cfg.world id

variable {w w' : World} {a : Actor} {l : RunLog} {c : Call} {r : Except String (Reply c)}
  {id : CampaignId}

/-- **A call keeps a campaign ending**, unless a turn reopens it. -/
theorem Ending.exec (h : Ending w id) (hJ : Justified a l c) (hx : Exec w c r w')
    (hfree : ∀ sid, a = .controller sid → ¬ Reopens l id) : Ending w' id := by
  obtain ⟨k, hk, hs⟩ := h
  obtain ⟨k', hk', hmove⟩ := hx.campaign_of_some hk
  refine ⟨k', hk', ?_⟩
  cases hmove with
  | keep | planned | surfaced | cleared => exact hs
  | began => exact .inl rfl
  | @written status =>
    rcases hJ.status_write with rfl | ⟨sid, hsid, hreopens⟩
    · exact .inr rfl
    · exact absurd hreopens (hfree sid hsid)
  | approved hs' | rolled_up hs' | rollup_claimed hs' | integrating hs' =>
    rw [hs'] at hs; simp at hs
  | completed hs' => rcases hs' with hs' | hs' <;> rw [hs'] at hs <;> simp at hs

theorem ending_of_exec (hJ : Justified a l c) (hx : Exec w c r w') (h : Ending w' id) :
    Ending w id ∨ c = .begin_orchestration_cancellation id ∨
      c = .update_orchestration_status id .Canceled := by
  obtain ⟨k', hk', hs⟩ := h
  rcases hx.campaign hk' with ⟨k, hk, hmove⟩ | hborn
  · cases hmove with
    | began => exact .inr (.inl rfl)
    | @written status =>
      rcases hJ.status_write with rfl | ⟨sid, rfl, hreopens⟩
      · exact .inr (.inr rfl)
      · -- a turn that may reopen the campaign writes no ending status, except by superseding
        cases hJ with
        | route_status _ _ hstatus => rcases hstatus with rfl | rfl <;> simp at hs
        | supersede => exact .inr (.inr rfl)
        | plan_status => simp at hs
    | keep => exact .inl ⟨_, hk, hs⟩
    | planned | surfaced | cleared => exact .inl ⟨k, hk, hs⟩
    | approved | rolled_up | rollup_claimed | integrating | completed => simp at hs
  · cases hborn with
    | fresh =>
      cases a with
      | coordinator =>
        cases hJ with
        | campaign _ h =>
          cases h with
          | task _ _ _ h => cases h
      | app => cases hJ
      | controller sid => cases hJ; simp at hs

/-- How a turn comes to be able to reopen a campaign: it reads it in such a
status, or inserts it. Neither is a campaign that ends. -/
theorem reopens_cons {sid : SessionId} (hJ : TurnCall sid l c) (hx : Exec w c r w')
    (h : Reopens (⟨c, r⟩ :: l) id) (hend : Ending w' id) : Reopens l id := by
  obtain ⟨k, hk, hs⟩ := hend
  rw [Reopens, campaign_read_cons, inserted_cons] at h
  rcases h with ⟨row, hrow, rfl, hstatus⟩ | hin
  · rcases Option.or_eq_some_iff.mp hrow with hrow | ⟨-, hrow⟩
    · obtain ⟨sid', he⟩ := RunEvent.read?_eq_some hrow
      cases he
      obtain ⟨rfl, hload⟩ := hx.load_controller
      obtain ⟨k', hk', -, hk'row⟩ := load_orchestration_for_controller_eq_some hload
      cases hk.symm.trans hk'
      rw [(campaign_row_eq_some hk'row).2.1] at hstatus
      rcases hs with hs | hs <;> rw [hs] at hstatus <;> simp [OrchestrationStatus.routes] at hstatus
    · exact .inl ⟨row, hrow, rfl, hstatus⟩
  · rcases Option.or_eq_some_iff.mp hin with hin | ⟨-, hin⟩
    · obtain ⟨sid', status, max, he⟩ := RunEvent.inserted?_eq_some hin
      cases he
      obtain ⟨-, k', hk', -, hk's⟩ := hx.insert
      cases hk.symm.trans hk'
      cases hJ
      rw [hk's] at hs
      simp at hs
    · exact .inr hin

variable {cfg : Configuration}

/-- The step that may break the invariant is a call. -/
theorem CancellationInv.call {cfg' : Configuration} {K : Configuration → HostLabel → Prop}
    {x : Choice} {l₀ : RunLog} (hreach : Reachable K cfg) (ih : CancellationInv cfg)
    (hK : BeginsBetweenTurns cfg (.call a x)) (h : Called cfg cfg' a c r l₀) :
    CancellationInv cfg' := by
  have hlog := h.log
  have hJ := h.justified
  have hx := h.exec
  have hkeep : ∀ id, Ending cfg.world id → Ending cfg'.world id := by
    intro id h
    refine h.exec hJ hx fun sid hsid hre => ih.free id h ⟨sid, l₀, ?_, hre⟩
    rw [← hsid]
    exact hlog
  -- whoever makes a campaign end, no turn has it in its hands
  have hnew : ∀ id, Ending cfg'.world id → ¬ InHands cfg id := by
    intro id hend hhands
    rcases ending_of_exec hJ hx hend with h' | rfl | rfl
    · exact ih.free id h' hhands
    · exact hK id h.next hhands
    · cases a with
      | coordinator =>
        cases hJ with
        | campaign hload h =>
          cases h with
          | cancel _ hs _ _ => exact ih.free _ (ih.loaded l₀ _ hlog hload hs) hhands
          | task _ _ _ h => cases h
      | app =>
        cases hJ with
        | cancel _ hbegan _ _ => exact ih.free _ (ih.began l₀ _ hlog hbegan) hhands
      | controller sid =>
        cases hJ with
        | route_status _ _ hstatus => rcases hstatus with h | h <;> cases h
        | supersede hc hs hin =>
          obtain ⟨sid', l', hl', hre⟩ := hhands
          -- the superseding turn owns the campaign, so it is the only one
          have hsid : sid' = sid := (turn_owns hreach sid' l' hl' _ hre.touches).unique
            (turn_owns hreach sid l₀ hlog _ (.inl ⟨_, hc, rfl⟩))
          subst hsid
          cases hl'.symm.trans hlog
          rcases hre with ⟨c', hc', -, hstatus⟩ | hin'
          · rw [Option.some.inj (hc'.symm.trans hc), hs] at hstatus
            simp [OrchestrationStatus.routes] at hstatus
          · rw [hin] at hin'
            cases hin'
  refine ⟨fun id hend => ?_, fun l row hl hload hs => ?_, fun l id hl hbegan => ?_⟩
  · rintro ⟨sid, l, hl, hre⟩
    rcases h.log_cases hl with ⟨rfl, rfl⟩ | ⟨-, hl⟩
    · exact hnew id hend ⟨sid, l₀, hlog, reopens_cons hJ hx hre hend⟩
    · exact hnew id hend ⟨sid, l, hl, hre⟩
  · rcases h.log_cases hl with ⟨rfl, rfl⟩ | ⟨-, hl⟩
    · obtain ⟨rows, hmem, hrow⟩ := hload
      rcases List.mem_cons.mp hmem with he | hmem
      · cases he
        obtain ⟨hw, hrows⟩ := hx.load_active
        rw [← hrows] at hrow
        rw [hw]
        obtain ⟨k, hk, -, hkrow⟩ := mem_load_active_orchestrations hrow
        exact ⟨k, hk, .inl (by rw [← (campaign_row_eq_some hkrow).2.1, hs])⟩
      · exact hkeep _ (ih.loaded l₀ row hlog ⟨rows, hmem, hrow⟩ hs)
    · exact hkeep _ (ih.loaded l row hl hload hs)
  · rcases h.log_cases hl with ⟨rfl, rfl⟩ | ⟨-, hl⟩
    · rcases List.mem_cons.mp hbegan with he | hbegan
      · cases he
        obtain ⟨k, -, -, hk⟩ := hx.begin
        exact ⟨_, hk, .inl rfl⟩
      · exact hkeep _ (ih.began l₀ id hlog hbegan)
    · exact hkeep _ (ih.began l id hl hbegan)

/-- Steps that are no call change neither campaigns nor what a log says. -/
theorem CancellationInv.quiet {cfg' : Configuration} {lab : HostLabel} (ih : CancellationInv cfg)
    (h : Quiet cfg cfg' lab) : CancellationInv cfg' := by
  have hend : ∀ id, Ending cfg'.world id ↔ Ending cfg.world id := by
    intro id
    rw [Ending, h.campaigns]
    exact Iff.rfl
  refine ⟨fun id hend' => ?_, fun l c hl hload hs => ?_, fun l id hl hbegan => ?_⟩
  · rintro ⟨sid, l, hl, hre⟩
    rcases h.logs _ l hl with rfl | hl
    · exact not_touches_nil id hre.touches
    · exact ih.free id ((hend id).mp hend') ⟨sid, l, hl, hre⟩
  · rcases h.logs _ l hl with rfl | hl
    · obtain ⟨rows, hmem, -⟩ := hload
      cases hmem
    · exact (hend _).mpr (ih.loaded l c hl hload hs)
  · rcases h.logs _ l hl with rfl | hl
    · cases hbegan
    · exact (hend _).mpr (ih.began l id hl hbegan)

theorem cancellation_inv (h : Reachable BeginsBetweenTurns cfg) : CancellationInv cfg := by
  refine reachable_steps CancellationInv h ?_ (fun cfg cfg' lab _ ih _ hq => ih.quiet hq)
    fun cfg cfg' a x c r l hreach ih hK hc _ => ih.call hreach hK hc
  refine ⟨fun id hend => ?_, fun l c hl => ?_, fun l id hl => ?_⟩
  · obtain ⟨k, hk, -⟩ := hend
    cases hk
  · cases hl
  · cases hl

theorem canceled_of_exec (h : w.campaign_status id = some .Canceled) (hJ : Justified a l c)
    (hx : Exec w c r w') (hfree : ∀ sid, a = .controller sid → ¬ Reopens l id) :
    w'.campaign_status id = some .Canceled := by
  obtain ⟨k, hk, hs⟩ := Option.map_eq_some_iff.mp h
  obtain ⟨k', hk', hmove⟩ := hx.campaign_of_some hk
  refine Option.map_eq_some_iff.mpr ⟨k', hk', ?_⟩
  cases hmove with
  | keep | planned | surfaced | cleared => exact hs
  | began hs' | approved hs' | rolled_up hs' | rollup_claimed hs' | integrating hs' =>
    rw [hs] at hs'; cases hs'
  | @written status =>
    rcases hJ.status_write with rfl | ⟨sid, hsid, hreopens⟩
    · rfl
    · exact absurd hreopens (hfree sid hsid)
  | completed hs' => rw [hs] at hs'; simp at hs'

/-- **Cancellation is final.** In a run in which no cancellation begins while a
turn has the campaign in its hands, a campaign that is `Canceling` is `Canceling`
or `Canceled` ever after, and a `Canceled` one stays `Canceled`. -/
theorem cancellation_is_final {cfg cfg' : Configuration} (h : Reachable BeginsBetweenTurns cfg)
    (h' : host.Reaches BeginsBetweenTurns cfg cfg') (id : CampaignId) :
    (cfg.world.campaign_status id = some .Canceling →
      cfg'.world.campaign_status id = some .Canceling ∨
        cfg'.world.campaign_status id = some .Canceled) ∧
    (cfg.world.campaign_status id = some .Canceled →
      cfg'.world.campaign_status id = some .Canceled) := by
  -- an ending campaign goes on ending, and a canceled one stays canceled
  have hrun : (Ending cfg.world id → Ending cfg'.world id) ∧
      (cfg.world.campaign_status id = some .Canceled →
        cfg'.world.campaign_status id = some .Canceled) := by
    refine System.Reaches.invariant (fun cfg' => (Ending cfg.world id → Ending cfg'.world id) ∧
      (cfg.world.campaign_status id = some .Canceled →
        cfg'.world.campaign_status id = some .Canceled)) h' ⟨fun h => h, fun h => h⟩ ?_
    intro mid lab next hmid ih hK hstep
    have hreach : Reachable BeginsBetweenTurns mid := Relation.ReflTransGen.trans h hmid
    have hinv := cancellation_inv hreach
    cases hreach.view host_certified (fun _ => rfl) hstep with
    | start _ hworld | crash hworld => rw [hworld]; exact ih
    | env m hworld _ _ =>
      simp only [Ending, World.campaign_status, World.campaign, env_campaigns hworld] at ih ⊢
      exact ih
    | call a x c r l₀ _ hlog hJ _ hexec _ _ _ =>
      -- a turn that may reopen the campaign is not in flight
      have hfree : Ending mid.world id → ∀ sid, a = .controller sid → ¬ Reopens l₀ id := by
        intro hend sid hsid hre
        exact hinv.free id hend ⟨sid, l₀, hsid ▸ hlog, hre⟩
      refine ⟨fun h => (ih.1 h).exec hJ ⟨x, hexec⟩ (hfree (ih.1 h)), fun h => ?_⟩
      refine canceled_of_exec (ih.2 h) hJ ⟨x, hexec⟩ (hfree ?_)
      obtain ⟨k, hk, hs⟩ := Option.map_eq_some_iff.mp (ih.2 h)
      exact ⟨k, hk, .inr hs⟩
  refine ⟨fun hs => ?_, hrun.2⟩
  obtain ⟨k, hk, hstatus⟩ := Option.map_eq_some_iff.mp hs
  obtain ⟨k', hk', hs'⟩ := hrun.1 ⟨k, hk, .inl hstatus⟩
  rcases hs' with hs' | hs'
  · exact .inl (Option.map_eq_some_iff.mpr ⟨k', hk', hs'⟩)
  · exact .inr (Option.map_eq_some_iff.mpr ⟨k', hk', hs'⟩)

/-! ### A run that meets the condition, and one that does not -/

/-- The app cancels alone. -/
def cancels_alone : Call → Option Actor
  | .begin_orchestration_cancellation _ => some .app
  | _ => none

theorem beginsBetweenTurns_of_alone (cfg : Configuration) (lab : HostLabel)
    (h : Alone cancels_alone cfg lab) : BeginsBetweenTurns cfg lab := by
  cases lab with
  | call a x =>
    rintro id hnext ⟨sid, l, hl, -⟩
    rw [(h _ .app hnext rfl).2 _ (by simp)] at hl
    cases hl
  | _ => trivial

/-- The user cancels an approved campaign: the run up to `Canceling`. -/
def canceling_run : List HostLabel :=
  approved_campaign ++ [.start (.cancel "k")] ++ steps .app 3

/-- A run that meets the condition of `cancellation_is_final`, from `Canceling`
to `Canceled`. -/
theorem cancellation_is_final_run :
    ∃ cfg cfg', Reachable BeginsBetweenTurns cfg ∧ host.Reaches BeginsBetweenTurns cfg cfg' ∧
      cfg.world.campaign_status 1 = some .Canceling ∧
      (cfg'.world.campaign_status 1 = some .Canceling ∨
        cfg'.world.campaign_status 1 = some .Canceled) := by
  have hrun : (host.runIf (alone cancels_alone) start canceling_run).any (fun cfg =>
      cfg.world.campaign_status 1 = some .Canceling ∧
      (host.runIf (alone cancels_alone) cfg (steps .app 6)).isSome = true) = true := by
    decide +kernel
  obtain ⟨cfg, hreach, honly, hcanceling, hsome⟩ :=
    exists_reachable_alone beginsBetweenTurns_of_alone hrun
  obtain ⟨cfg', hcfg'⟩ := Option.isSome_iff_exists.mp hsome
  obtain ⟨hreach', -⟩ := reaches_of_test (fun cfg lab hrun h =>
    beginsBetweenTurns_of_alone cfg lab (alone_sound _ cfg lab hrun h))
      (startsCast_alone _) honly hcfg'
  exact ⟨cfg, cfg', hreach, hreach', hcanceling,
    (cancellation_is_final hreach hreach' 1).1 hcanceling⟩

/-- A turn that read the campaign before the user canceled it parks it for
approval afterwards. -/
theorem canceling_campaign_reopened :
    ∃ cfg cfg', Reachable System.anyStep cfg ∧
      cfg.world.campaign_status 1 = some .Canceling ∧
      host.Reaches System.anyStep cfg cfg' ∧
      cfg'.world.campaign_status 1 = some .AwaitingApproval := by
  have hrun : (host.run start (approved_campaign
      ++ [.start (.controller_turn "k" (proposing [proposal .Implementation "c"]))]
      ++ steps (.controller "k") 3 ++ [.start (.cancel "k")] ++ steps .app 3)).any (fun cfg =>
        cfg.world.campaign_status 1 = some .Canceling ∧
        (host.run cfg (steps (.controller "k") 3)).any (fun cfg' =>
          cfg'.world.campaign_status 1 = some .AwaitingApproval) = true) = true := by
    decide +kernel
  obtain ⟨cfg, hreach, hcanceling, hrun⟩ := System.exists_reaches_of_run _ hrun
  obtain ⟨cfg', hreopened⟩ := System.exists_reaches_of_run _ hrun
  exact ⟨cfg, cfg', hreach, hcanceling, hreopened⟩

end Agentty.Orchestration
