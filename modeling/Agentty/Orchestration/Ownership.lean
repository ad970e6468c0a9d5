/-
Who may write a campaign.

A campaign belongs to the controller it was inserted for, for good, and a
controller runs one turn at a time. So at most one turn in flight has a given
campaign in its hands, and a turn's writes concern campaigns of its own
controller.
-/
import Agentty.Orchestration.Runs

set_option autoImplicit false

namespace Agentty.Orchestration

/-- The campaign exists and belongs to the controller. -/
def Owns (w : World) (sid : SessionId) (id : CampaignId) : Prop :=
  ∃ k, w.campaign id = some k ∧ k.controller_session_id = sid

variable {w : World} {sid : SessionId} {id : CampaignId}

theorem Owns.unique {sid' : SessionId} (h : Owns w sid id) (h' : Owns w sid' id) : sid = sid' := by
  obtain ⟨k, hk, rfl⟩ := h
  obtain ⟨k', hk', rfl⟩ := h'
  rw [Option.some.inj (hk.symm.trans hk')]

variable {c : Call} {r : Except String (Reply c)}

theorem CampaignMove.controller {k k' : Campaign} (h : CampaignMove w id k c r k') :
    k'.controller_session_id = k.controller_session_id := by
  cases h <;> rfl

theorem Owns.exec {w' : World} (h : Owns w sid id) (hx : Exec w c r w') : Owns w' sid id := by
  obtain ⟨k, hk, rfl⟩ := h
  obtain ⟨k', hk', hmove⟩ := hx.campaign_of_some hk
  exact ⟨k', hk', hmove.controller⟩

/-- The turn has the campaign in its hands: it has read or inserted it. -/
def Touches (l : RunLog) (id : CampaignId) : Prop :=
  (∃ c, campaign_read l = some c ∧ c.id = id) ∨ inserted l = some id

theorem not_touches_nil (id : CampaignId) : ¬ Touches [] id := by
  rintro (⟨c, hc, -⟩ | h)
  · cases hc
  · cases h

variable {e : RunEvent}

/-- A campaign comes into a turn's hands by a read or an insert. -/
theorem touches_cons {l : RunLog} (h : Touches (e :: l) id) :
    Touches l id ∨ (∃ c, RunEvent.read? e = some c ∧ c.id = id) ∨
      RunEvent.inserted? e = some id := by
  rw [Touches, campaign_read_cons, inserted_cons] at h
  rcases h with ⟨c, hc, hid⟩ | hin
  · rcases Option.or_eq_some_iff.mp hc with hc | ⟨-, hc⟩
    · exact .inr (.inl ⟨c, hc, hid⟩)
    · exact .inl (.inl ⟨c, hc, hid⟩)
  · rcases Option.or_eq_some_iff.mp hin with hin | ⟨-, hin⟩
    · exact .inr (.inr hin)
    · exact .inl (.inr hin)

theorem RunEvent.read?_eq_some {c : SessionOrchestrationRow} (h : RunEvent.read? e = some c) :
    ∃ sid, e = ⟨.load_orchestration_for_controller sid, .ok (some c)⟩ := by
  unfold RunEvent.read? at h
  split at h
  · subst h
    exact ⟨_, rfl⟩
  · cases h

theorem RunEvent.inserted?_eq_some (h : RunEvent.inserted? e = some id) :
    ∃ sid status max, e = ⟨.insert_orchestration sid status max, .ok id⟩ := by
  unfold RunEvent.inserted? at h
  split at h
  · cases h
    exact ⟨_, _, _, rfl⟩
  · cases h

/-- A turn reads and inserts campaigns of its own controller only. -/
theorem TurnCall.owns_of_touches {l : RunLog} {w' : World} (hJ : TurnCall sid l c)
    (hx : Exec w c r w') (h : Touches (⟨c, r⟩ :: l) id) : Touches l id ∨ Owns w' sid id := by
  rcases touches_cons h with h | ⟨row, hrow, rfl⟩ | hin
  · exact .inl h
  · obtain ⟨sid', he⟩ := RunEvent.read?_eq_some hrow
    cases he
    obtain ⟨rfl, hload⟩ := hx.load_controller
    obtain ⟨k, hk, hsid, -⟩ := load_orchestration_for_controller_eq_some hload
    cases hJ
    exact .inr ⟨k, hk, hsid⟩
  · obtain ⟨sid', status, max, he⟩ := RunEvent.inserted?_eq_some hin
    cases he
    obtain ⟨-, k, hk, hsid, -⟩ := hx.insert
    cases hJ
    exact .inr ⟨k, hk, hsid⟩

/-- **Turns own what they touch.** -/
theorem turn_owns {K : Configuration → HostLabel → Prop} {cfg : Configuration}
    (h : Reachable K cfg) :
    ∀ sid l, cfg.log (.controller sid) = some l → ∀ id, Touches l id → Owns cfg.world sid id := by
  intro sid l hl
  refine reachable_logs (fun w a l => ∀ sid, a = .controller sid → ∀ id, Touches l id →
    Owns w sid id) h ?_ ?_ ?_ ?_ _ l hl sid rfl
  · exact fun w a sid _ id hid => absurd hid (not_touches_nil id)
  · rintro cfg w' a l c r _ _ ih hJ hx sid rfl id hid
    rcases TurnCall.owns_of_touches hJ hx hid with h | h
    · exact (ih sid rfl id h).exec hx
    · exact h
  · exact fun cfg w' a l b l₀ c r _ _ ih _ _ _ hx sid hsid id hid => (ih sid hsid id hid).exec hx
  · intro w w' m a l henv ih sid hsid id hid
    obtain ⟨k, hk, hk'⟩ := ih sid hsid id hid
    refine ⟨k, ?_, hk'⟩
    rw [World.campaign, env_campaigns henv]
    exact hk

end Agentty.Orchestration
