/-
The coordinator's programs keep to the catalogue of `Pass`.

One lemma per function of `Coordinator`, from the leaves up. Each says that
every call of the function is in the catalogue and what the row it returns has
to do with the row that was read: `Tracks` says that the returned row's status
is what the log says, which is what the caller goes on with.
-/
import Agentty.Orchestration.Pass

set_option autoImplicit false

namespace Agentty.Orchestration

open List

open Prog (Obeys Extends obeys_perform obeys_perform_last obeys_attempt obeys_traverse)

/-- The row's status is what the log says. -/
def Tracks (l : RunLog) (a : SessionOrchestrationTaskRow) : Prop := belief l a.id = some a.status

/-- The row `a` differs from the row `r` that was read in nothing but its status
and the texts and counters that go with it. -/
structure Keeps (r a : SessionOrchestrationTaskRow) : Prop where
  id : a.id = r.id
  kind : a.kind = r.kind
  child : a.child_session_id = r.child_session_id
  child_status : a.child_status = r.child_status
  questions : a.child_questions = r.child_questions
  verdict : a.verification_verdict = r.verification_verdict

theorem Keeps.refl (r : SessionOrchestrationTaskRow) : Keeps r r := ⟨rfl, rfl, rfl, rfl, rfl, rfl⟩

theorem Keeps.status {r a : SessionOrchestrationTaskRow} (h : Keeps r a)
    (s : OrchestrationTaskStatus) (e : Option String) :
    Keeps r { a with status := s, last_error := e } :=
  ⟨h.id, h.kind, h.child, h.child_status, h.questions, h.verdict⟩

/-- The row `a` stands for the row `r` that was read, as far as the pass knows
now. -/
structure Mirrors (r : SessionOrchestrationTaskRow) (l : RunLog)
    (a : SessionOrchestrationTaskRow) : Prop where
  id : a.id = r.id
  kind : a.kind = r.kind
  questions : a.child_questions = r.child_questions
  tracks : Tracks l a

/-- What a reconciled row has to do with the row that was read: a row that ends
up planned was planned or being created, and has no child. -/
structure Outcome (r : SessionOrchestrationTaskRow) (l : RunLog)
    (a : SessionOrchestrationTaskRow) : Prop extends Mirrors r l a where
  planned : a.status = .Planned →
    r.child_session_id = none ∧ a.child_session_id = none ∧
      (r.status = .Planned ∨ r.status = .Creating)

section Reconcile

variable {c : SessionOrchestrationRow} {rows : List SessionOrchestrationTaskRow}
  {r a : SessionOrchestrationTaskRow} {l : RunLog}

/-- An event that says nothing about the row leaves it tracked. -/
theorem Tracks.cons (h : Tracks l a) {e : RunEvent} (he : RunEvent.tells e a.id = none) :
    Tracks (e :: l) a := by
  rw [Tracks, belief, he]
  exact h

theorem Keeps.outcome (ha : Keeps r a) (ht : Tracks l a) (hs : a.status ≠ .Planned) :
    Outcome r l a :=
  ⟨⟨ha.id, ha.kind, ha.questions, ht⟩, fun h => absurd h hs⟩

/-- The work on a row keeps to the catalogue and leaves the row in order. -/
abbrev Handles (c : SessionOrchestrationRow) (rows : List SessionOrchestrationTaskRow)
    (r : SessionOrchestrationTaskRow) (p : Run SessionOrchestrationTaskRow) (l : RunLog) : Prop :=
  Obeys Valid (TaskCall c rows r) (Outcome r) p l

/-! ## Status writes -/

variable {error : Option String} {next : OrchestrationTaskStatus}

theorem update_task_status_obeys {J : RunLog → Call → Prop} (hb : Tracks l a)
    (hJ : belief l a.id ≠ some next → J l (.update_orchestration_task_status a.id next error)) :
    Obeys Valid J
      (fun l' a' => Tracks l' a' ∧ ∃ e, a' = { a with status := next, last_error := e })
      (update_task_status a next error) l := by
  unfold update_task_status
  split
  · rename_i heq
    refine ⟨hb, a.last_error, ?_⟩
    subst heq
    rfl
  · rename_i hne
    refine obeys_perform (hJ ?_) fun _ _ => ?_
    · rw [hb]
      exact fun h => hne (Option.some.inj h)
    · refine ⟨?_, error, rfl⟩
      simp [Tracks, belief, RunEvent.tells]

variable {s : OrchestrationTaskStatus} {child : SessionId}

theorem Follows.ne_planned (h : Follows r s) : s ≠ .Planned := by
  cases h with
  | review _ hs _ => rcases hs with rfl | rfl <;> exact OrchestrationTaskStatus.noConfusion
  | @mapped child_status _ _ _ => cases child_status <;> exact OrchestrationTaskStatus.noConfusion

/-- What a child between turns leaves to decide, once its prompt was worked off:
`reconcile_review_application` and `reconcile_continuation` agree on it. -/
theorem follows_of_child_status (hk : FollowsBranch r) {status : SessionStatus}
    (h : r.child_status = some status) (hs : OrchestrationTaskStatus.from_child_status status = s) :
    Follows r s := by
  subst hs
  by_cases hreview : status = .Review ∨ status = .AgentReview
  · refine .review ?_ (.inl ?_) hk
    · rcases hreview with rfl | rfl
      · exact .inl h
      · exact .inr h
    · rcases hreview with rfl | rfl <;> rfl
  · rw [not_or] at hreview
    refine .mapped ?_ hreview fun _ => hk
    rw [observed_child_status, h, Option.getD_some]

/-! ## Creation -/

theorem record_spawn_failure_obeys {error : String} (hid : a.id = r.id) (hkind : a.kind = r.kind)
    (hq : a.child_questions = r.child_questions) (hnone : a.child_session_id = none)
    (hchild : r.child_session_id = none) (hr : r.status = .Planned ∨ r.status = .Creating)
    (hJ : TaskCall c rows r l
      (.record_orchestration_spawn_failure r.id error INFRASTRUCTURE_RETRY_LIMIT)) :
    Handles c rows r (record_spawn_failure a error) l := by
  refine obeys_perform (by rw [hid]; exact hJ) fun status _ => ?_
  refine ⟨⟨hid, hkind, hq, ?_⟩, fun _ => ⟨hchild, hnone, hr⟩⟩
  simp [Tracks, belief, RunEvent.tells]

theorem reconcile_creating_task_obeys (hc : c.status = .Running) (hr : r.status = .Creating)
    (hchild : r.child_session_id = none) (hb : Tracks l r) :
    Handles c rows r (reconcile_creating_task r) l := by
  have hb' : belief l r.id = some .Creating := by rw [← hr]; exact hb
  refine obeys_perform (.recover_lookup hc hr hchild hb') fun found _ => ?_
  cases found with
  | none =>
    simp only [fail_task_spawn, hchild]
    exact record_spawn_failure_obeys rfl rfl rfl hchild hchild (.inr hr)
      (.recover_failed hc hr hchild hb')
  | some child =>
    refine obeys_perform (.recover_link hc hr hchild hb') fun linked _ => ?_
    cases linked with
    | true =>
      refine ⟨⟨rfl, rfl, rfl, ?_⟩, fun h => OrchestrationTaskStatus.noConfusion h⟩
      simp [Tracks, belief, RunEvent.tells]
    | false =>
      refine obeys_perform (.unclaimed hc hchild (.inr hr)) fun _ _ => ?_
      refine ⟨⟨rfl, rfl, rfl, ?_⟩, fun h => ?_⟩
      · simpa [Tracks, belief, RunEvent.tells] using hb
      · rw [hr] at h
        cases h

/-! ## Derived statuses -/

section

variable (hc : Reconciles c r)

include hc

section

variable (hchild : r.child_session_id ≠ none) (ha : Keeps r a) (hb : Tracks l a) (hs : Follows r s)

include hchild ha hb hs

theorem follow_obeys :
    Obeys Valid (TaskCall c rows r)
      (fun l' a' => Tracks l' a' ∧ ∃ e, a' = { a with status := s, last_error := e })
      (update_task_status a s error) l := by
  refine update_task_status_obeys hb fun hne => ?_
  rw [ha.id] at hne ⊢
  exact .follow hc hchild hs hne

/-- A derived status that is the last thing written about a row. -/
theorem follow_outcome : Handles c rows r (update_task_status a s error) l := by
  refine (follow_obeys hc hchild ha hb hs).post ?_
  rintro l' a' ⟨ht, e, rfl⟩
  exact (ha.status s e).outcome ht hs.ne_planned

end

theorem record_result_summary_obeys (ha : Keeps r a) (hb : Tracks l a) (hs : a.status ≠ .Planned) :
    Handles c rows r (record_result_summary a) l := by
  simp only [record_result_summary]
  split
  · exact ha.outcome hb hs
  · refine obeys_perform ?_ fun _ _ => ?_
    · rw [ha.id]
      exact .summary hc
    · exact ⟨⟨ha.id, ha.kind, ha.questions, hb.cons rfl⟩, fun h => absurd h hs⟩

theorem complete_task_review_obeys (hchild : r.child_session_id ≠ none) (ha : Keeps r a)
    (hb : Tracks l a) (hs : Follows r .Ready) : Handles c rows r (complete_task_review a) l := by
  refine (follow_obeys hc hchild ha hb hs).bind ?_
  rintro l' a' ⟨ht, e, rfl⟩
  exact record_result_summary_obeys hc (ha.status _ e) ht OrchestrationTaskStatus.noConfusion

/-! ## Prompts and reviews -/

/-- The remediation of a claimed review: it is delivered, or its outcome is
read. -/
theorem reconcile_review_application_obeys (hk : FollowsBranch r)
    (hrow : r.child_session_id = none → r.child_status = none) (ha : Keeps r a) (hb : Tracks l a)
    (hra : a.status = .ReviewApplying) (hgen : Delivers r l a.continuation_generation) :
    Handles c rows r (reconcile_review_application a) l := by
  have hne : a.status ≠ .Planned := by rw [hra]; exact OrchestrationTaskStatus.noConfusion
  -- a child that has a status exists
  have hchild : ∀ status, a.child_status = some status → r.child_session_id ≠ none := by
    intro status h hnone
    rw [ha.child_status, hrow hnone] at h
    cases h
  have hop : continuation_operation_id a
      = .orchestration_continuation r.id a.continuation_generation := by
    rw [continuation_operation_id, ha.id]
  refine obeys_perform (by rw [hop]; exact .operation hc) fun op _ => ?_
  let l' : RunLog := ⟨.load_rollup_operation_status (continuation_operation_id a), .ok op⟩ :: l
  have ht : Tracks l' a := hb.cons rfl
  have hfollow : ∀ status s, a.child_status = some status →
      OrchestrationTaskStatus.from_child_status status = s →
      Handles c rows r (update_task_status a s none) l' := by
    intro status s h hs
    refine follow_outcome hc (hchild status h) ha ht (follows_of_child_status hk ?_ hs)
    rw [← ha.child_status, h]
  have hdeliver : Redeliverable op → ∀ child prompt, a.child_session_id = some child →
      Handles c rows r
        ((perform (.submit_coordinator_message child (continuation_operation_id a)
          (.review_application prompt))).bind fun _ => .ret a) l' := by
    intro hstatus child prompt h
    refine obeys_perform ?_ fun _ _ => ha.outcome (ht.cons rfl) hne
    change TaskCall c rows r (_ :: l) _
    rw [hop]
    exact .deliver hc (ha.child ▸ h) hstatus hgen
  -- the cases of the source
  split
  iterate 3
    · split
      · trivial
      · trivial
      · exact hdeliver trivial _ _ (by assumption)
  · exact ha.outcome ht hne
  · exact ha.outcome ht hne
  · split
    all_goals first
      | exact hfollow _ _ (by assumption) rfl
      | exact ha.outcome ht hne

section

variable (hk : FollowsBranch r) (hchild : r.child_session_id ≠ none)
  (h : r.child_status = some .Review ∨ r.child_status = some .AgentReview) (ha : Keeps r a)
  (hgen : a.continuation_generation = r.continuation_generation) (hb : Tracks l a)

include hk hchild h ha hgen hb

/-- A review with suggestions is claimed and its remediation delivered. -/
theorem apply_focused_review_obeys {suggestions : String} :
    Handles c rows r (apply_focused_review a suggestions) l := by
  refine (follow_obeys hc hchild ha hb (.review h (.inl rfl) hk)).bind ?_
  rintro l' a' ⟨ht, e, rfl⟩
  have hid : a.id = r.id := ha.id
  refine obeys_perform ?_ fun claimed _ => ?_
  · simp only [Tracks, hid] at ht ⊢
    exact .claim_review hc hchild h hk ht
  · cases claimed with
    | false =>
      refine (ha.status _ e).outcome (ht.cons ?_) OrchestrationTaskStatus.noConfusion
      simp [RunEvent.tells]
    | true =>
      refine reconcile_review_application_obeys hc hk (fun hnone => absurd hnone hchild)
        ⟨ha.id, ha.kind, ha.child, ha.child_status, ha.questions, ha.verdict⟩ ?_ rfl ?_
      · simp [Tracks, belief, RunEvent.tells]
      · refine .inr ⟨?_, .apply_review suggestions, MAX_AUTOMATED_REVIEW_ITERATIONS, ?_⟩
        · rw [← hgen]
        · rw [← hid]
          exact mem_cons_self

/-- A child under review is waited for, ready, or sent back. -/
theorem reconcile_focused_review_obeys : Handles c rows r (reconcile_focused_review a) l := by
  have hready : Handles c rows r (complete_task_review a) l :=
    complete_task_review_obeys hc hchild ha hb (.review h (.inr rfl) hk)
  have hwait : Handles c rows r (update_task_status a .Reviewing none) l :=
    follow_outcome hc hchild ha hb (.review h (.inl rfl) hk)
  unfold reconcile_focused_review
  repeat' split
  all_goals first
    | exact hready
    | exact hwait
    | exact apply_focused_review_obeys hc hk hchild h ha hgen hb

end

theorem finish_continuation_obeys (hchild : r.child_session_id ≠ none) (hs : Follows r next)
    (hne : belief l r.id ≠ some next) : Handles c rows r (finish_continuation r next) l := by
  have ht : Tracks (⟨.update_orchestration_task_status r.id next none, .ok ()⟩ :: l)
      { r with status := next } := by simp [Tracks, belief, RunEvent.tells]
  simp only [finish_continuation]
  refine obeys_perform (.follow hc hchild hs hne) fun _ _ => ?_
  split
  · refine obeys_perform (.summary hc) fun _ _ => ?_
    exact ⟨⟨rfl, rfl, rfl, ht.cons rfl⟩, fun h => absurd h hs.ne_planned⟩
  · exact ⟨⟨rfl, rfl, rfl, ht⟩, fun h => absurd h hs.ne_planned⟩

/-- A pending continuation is delivered, or its outcome is read. -/
theorem reconcile_continuation_obeys (hr : r.status = .ContinuationPending) (hb : Tracks l r) :
    Handles c rows r (reconcile_continuation r) l := by
  have hk : FollowsBranch r := .inr (.inr hr)
  have hne : r.status ≠ .Planned := by rw [hr]; exact OrchestrationTaskStatus.noConfusion
  have hgen : Delivers r l r.continuation_generation := .inl ⟨rfl, .inr hr⟩
  unfold reconcile_continuation
  split
  · rename_i hchild
    refine (update_task_status_obeys hb fun _ => .lost hc hr hchild).post ?_
    rintro l' a' ⟨ht, e, rfl⟩
    exact ((Keeps.refl r).status _ e).outcome ht OrchestrationTaskStatus.noConfusion
  · rename_i child hchild
    have hsome : r.child_session_id ≠ none := by rw [hchild]; exact Option.some_ne_none child
    refine obeys_perform (.operation hc) fun op _ => ?_
    let l' : RunLog := ⟨.load_rollup_operation_status (continuation_operation_id r), .ok op⟩ :: l
    have ht : Tracks l' r := hb.cons rfl
    have hdeliver : Redeliverable op →
        Handles c rows r
          ((perform (.submit_coordinator_message child (continuation_operation_id r)
            (.continuation r))).bind fun _ => .ret r) l' := by
      intro hstatus
      exact obeys_perform (.deliver hc hchild hstatus hgen) fun _ _ =>
        (Keeps.refl r).outcome (ht.cons rfl) hne
    -- the pending status is none of those the outcome writes
    have hwrite : ∀ status s, r.child_status = some status →
        OrchestrationTaskStatus.from_child_status status = s → s ≠ .ContinuationPending →
        Handles c rows r (finish_continuation r s) l' := by
      intro status s h hs hpending
      refine finish_continuation_obeys hc hsome (follows_of_child_status hk h hs) ?_
      rw [show belief _ r.id = some r.status from ht, hr]
      exact fun h => hpending (Option.some.inj h).symm
    split
    · exact hdeliver trivial
    · exact hdeliver trivial
    · exact hdeliver trivial
    · exact (Keeps.refl r).outcome ht hne
    · exact (Keeps.refl r).outcome ht hne
    · split
      · rename_i h
        exact reconcile_focused_review_obeys hc hk hsome (.inl h) (Keeps.refl r) rfl ht
      · rename_i h
        exact reconcile_focused_review_obeys hc hk hsome (.inr h) (Keeps.refl r) rfl ht
      all_goals first
        | exact (Keeps.refl r).outcome ht hne
        | exact hwrite _ _ (by assumption) rfl OrchestrationTaskStatus.noConfusion

/-! ## Research -/

theorem record_research_report_obeys (hkind : r.kind = .Research) (hb : Tracks l r) :
    Obeys Valid (TaskCall c rows r)
      (fun l' a => Keeps r a ∧ a.status = r.status ∧ Tracks l' a) (record_research_report r) l := by
  simp only [record_research_report]
  split
  · exact ⟨Keeps.refl r, rfl, hb⟩
  · refine obeys_perform (.report hc hkind) fun _ _ => ?_
    exact ⟨⟨rfl, rfl, rfl, rfl, rfl, rfl⟩, rfl, hb.cons rfl⟩

section

variable (hkind : r.kind = .Research) (hr : r.status ≠ .Reported)
  (hchild : r.child_session_id = some child)

include hkind hr hchild

/-- The report counts once the child has stopped, or has just been canceled. -/
theorem reported_obeys (ha : Keeps r a) (hb : Tracks l a)
    (h : (observed_child_status r).is_stopped = true ∨
      ∃ l', l = ⟨.cancel_session child, .ok ()⟩ :: l')
    (error : Option String) : Handles c rows r (update_task_status a .Reported error) l := by
  refine (update_task_status_obeys hb fun _ => ?_).post ?_
  · rw [ha.id]
    exact .reported hc hkind hr hchild h
  · rintro l' a' ⟨ht, e, rfl⟩
    exact (ha.status _ e).outcome ht OrchestrationTaskStatus.noConfusion

theorem complete_research_task_obeys {child_status : SessionStatus} (hb : Tracks l r)
    (hstatus : observed_child_status r = child_status)
    (h : child_status = .Review ∨ child_status = .AgentReview ∨ child_status.is_stopped = true) :
    Handles c rows r (complete_research_task r child_status) l := by
  refine (record_research_report_obeys hc hkind hb).bind ?_
  rintro l' a ⟨ha, has, ht⟩
  have hac : a.child_session_id = some child := by rw [ha.child, hchild]
  split
  · rename_i hreview
    simp only [hac]
    -- a missing row counts as canceled, so a child under review has one
    have hreview' : r.child_status = some .Review ∨ r.child_status = some .AgentReview := by
      rw [← hstatus, observed_child_status] at hreview
      cases hcs : r.child_status with
      | none => simp [hcs] at hreview
      | some status => simpa [hcs] using hreview
    refine obeys_perform (.discard hc hkind hr hchild hreview') fun _ _ => ?_
    exact reported_obeys hc hkind hr hchild ha (ht.cons rfl) (.inr ⟨l', rfl⟩) _
  · rename_i hreview
    have hstop : child_status.is_stopped = true := by
      rcases h with h | h | h
      · exact absurd (.inl h) hreview
      · exact absurd (.inr h) hreview
      · exact h
    exact reported_obeys hc hkind hr hchild ha ht (.inl (hstatus ▸ hstop)) _

end

theorem reconcile_research_task_obeys (hkind : r.kind = .Research)
    (hchild : r.child_session_id = some child) (hb : Tracks l r) :
    Handles c rows r (reconcile_research_task r) l := by
  have hsome : r.child_session_id ≠ none := by rw [hchild]; exact Option.some_ne_none child
  -- a research row is never made ready by its child
  have hfollow : ∀ status s error, observed_child_status r = status →
      status ≠ .Review ∧ status ≠ .AgentReview →
      OrchestrationTaskStatus.from_child_status status = s → s ≠ .Ready →
      Handles c rows r (update_task_status r s error) l := by
    intro status s error h hreview hs hready
    refine follow_outcome hc hsome (Keeps.refl r) hb ?_
    rw [← hs]
    exact .mapped h hreview fun h => absurd (hs ▸ h) hready
  unfold reconcile_research_task
  split
  · rename_i hr
    refine (Keeps.refl r).outcome hb ?_
    rw [hr]
    exact OrchestrationTaskStatus.noConfusion
  · rename_i hr
    split
    all_goals first
      | exact hfollow _ _ _ (by assumption) (by decide) rfl (by decide)
      | exact complete_research_task_obeys hc hkind hr hchild hb (by assumption) (by decide)
      | skip
    rename_i hcanceled
    split
    · refine reported_obeys hc hkind hr hchild (Keeps.refl r) hb (.inl ?_) _
      rw [hcanceled]
      rfl
    · exact hfollow _ _ _ hcanceled (by decide) rfl (by decide)

/-! ## Rows -/

theorem reconcile_child_status_obeys (hkind : r.kind = .Implementation)
    (hchild : r.child_session_id ≠ none) (hb : Tracks l r) :
    Handles c rows r (reconcile_child_status r) l := by
  have hk : FollowsBranch r := .inl hkind
  have hstatus : ∀ status : SessionStatus, status ≠ .Canceled → observed_child_status r = status →
      r.child_status = some status := by
    intro status hne h
    rw [observed_child_status] at h
    cases hcs : r.child_status with
    | none => rw [hcs] at h; exact absurd h.symm hne
    | some => rw [hcs] at h; exact congrArg some h
  unfold reconcile_child_status
  split
  · rename_i h
    exact reconcile_focused_review_obeys hc hk hchild (.inl (hstatus _ (by decide) h))
      (Keeps.refl r) rfl hb
  · rename_i h
    exact reconcile_focused_review_obeys hc hk hchild (.inr (hstatus _ (by decide) h))
      (Keeps.refl r) rfl hb
  · rename_i hreview hagent
    have hf : Follows r (OrchestrationTaskStatus.from_child_status (observed_child_status r)) :=
      .mapped rfl ⟨hreview, hagent⟩ fun _ => hk
    split
    · rename_i hready
      exact complete_task_review_obeys hc hchild (Keeps.refl r) hb (hready ▸ hf)
    · exact follow_outcome hc hchild (Keeps.refl r) hb hf

/-- **One reconciled row** keeps to the catalogue. -/
theorem reconcile_task_obeys (hrow : r.child_session_id = none → r.child_status = none)
    (hb : Tracks l r) : Handles c rows r (reconcile_task r) l := by
  unfold reconcile_task
  split
  · rename_i hr
    exact reconcile_review_application_obeys hc (.inr (.inl hr)) hrow (Keeps.refl r) hb hr
      (.inl ⟨rfl, .inl hr⟩)
  split
  · rename_i hr
    exact reconcile_continuation_obeys hc hr hb
  split
  · rename_i hnone
    have hchild : r.child_session_id = none := Option.isNone_iff_eq_none.mp hnone
    split
    · rename_i hr
      -- a row that is being created is no live row, so the campaign runs
      have hrun : c.status = .Running := by
        rcases hc with h | ⟨-, h⟩
        · exact h
        · rw [hr] at h
          cases h
      exact reconcile_creating_task_obeys hrun hr hchild hb
    · exact ⟨⟨rfl, rfl, rfl, hb⟩, fun h => ⟨hchild, hchild, .inl h⟩⟩
  · rename_i hsome
    obtain ⟨child, hchild⟩ := Option.ne_none_iff_exists'.mp
      (fun h => hsome (Option.isNone_iff_eq_none.mpr h))
    split
    · rename_i hkind
      exact reconcile_research_task_obeys hc hkind hchild hb
    rename_i hkind
    refine reconcile_child_status_obeys hc ?_ (by rw [hchild]; exact Option.some_ne_none _) hb
    cases h : r.kind
    · rfl
    · exact absurd h hkind

end

/-! ## Fan-out -/

theorem start_child_obeys {source : SessionId} {mode : CreateSessionMode} {project : Nat}
    (hc : c.status = .Running) (hr : r.status = .Planned ∨ r.status = .Creating)
    (hchild : r.child_session_id = none) (hid : a.id = r.id) (hkind : a.kind = r.kind)
    (hq : a.child_questions = r.child_questions) (hmode : mode.task_id = r.id) :
    Obeys Valid (TaskCall c rows r) (fun _ _ => True) (start_child a child)
      (⟨.create_session source mode project, .ok child⟩ ::
        ⟨.claim_orchestration_task r.id, .ok true⟩ :: l) := by
  refine obeys_perform (by rw [hid]; exact .link hc hr hchild hmode) fun linked _ => ?_
  cases linked with
  | false => exact obeys_perform (by rw [hid]; exact .unclaimed hc hchild hr) fun _ _ => trivial
  | true =>
    refine obeys_attempt (by rw [hid]; exact .send hc hr hchild rfl) (fun _ _ => trivial)
      fun error => ?_
    refine obeys_perform (by rw [hid]; exact .retract hc hr hchild) fun _ _ => ?_
    refine Obeys.post (record_spawn_failure_obeys hid hkind hq ?_ hchild hr ?_)
      fun _ _ _ => trivial
    · rfl
    · rw [hid]
      exact .send_failed hc hr hchild

theorem spawn_task_obeys (hc : c.status = .Running) (ho : Outcome r l a)
    (ha : a.status = .Planned) (hslots : believed_slots l rows < c.max_parallelism.toNat) :
    Obeys Valid (TaskCall c rows r) (fun _ _ => True) (spawn_task c a) l := by
  obtain ⟨hchild, hnone, hr⟩ := ho.planned ha
  have hb : belief l r.id = some .Planned := by rw [← ho.id, ← ha]; exact ho.tracks
  refine obeys_perform (by rw [ho.id]; exact .claim hc hr hchild hb hslots) fun claimed _ => ?_
  cases claimed with
  | false => trivial
  | true =>
    refine obeys_attempt (by rw [ho.id, ho.kind]; exact .create hc hr hchild rfl)
      (fun child _ => ?_) fun error => ?_
    · rw [ho.id]
      refine start_child_obeys hc hr hchild rfl ho.kind ho.questions ?_
      rw [ho.kind]
      cases r.kind <;> rfl
    · simp only [fail_task_spawn, hnone]
      refine Obeys.post (record_spawn_failure_obeys ho.id ho.kind ho.questions ?_ hchild hr ?_)
        fun _ _ _ => trivial
      · rfl
      · rw [ho.id]
        exact .create_failed hc hr hchild

/-! ## Integration -/

/-- What the integrating loop leaves of a row. -/
structure Integrates (r : SessionOrchestrationTaskRow) (l : RunLog)
    (a : SessionOrchestrationTaskRow) : Prop where
  keeps : Keeps r a
  tracks : Tracks l a
  waiting : a.status = .AwaitingIntegration → r.status = .AwaitingIntegration
  merging : a.status = .Merging → r.status = .Merging ∨ r.status = .AwaitingIntegration

section

variable (hc : c.status = .Integrating)

include hc

theorem integrate_obeys (ha : Integrates r l a) (hs : IntegrationWrite r l s)
    (hwait : s ≠ .AwaitingIntegration) (hmerge : s = .Merging → r.status = .AwaitingIntegration) :
    Obeys Valid (TaskCall c rows r) (fun l' a' => Integrates r l' a' ∧ a'.status = s)
      (update_task_status a s error) l := by
  refine (update_task_status_obeys ha.tracks fun _ => ?_).post ?_
  · rw [ha.keeps.id]
    exact .integrate hc hs
  · rintro l' a' ⟨ht, e, rfl⟩
    exact ⟨⟨ha.keeps.status s e, ht, fun h => absurd h hwait, fun h => .inr (hmerge h)⟩, rfl⟩

theorem settle_obeys (ha : Integrates r l a)
    (hb : a.status = .Merging ∨ a.status = .AwaitingIntegration)
    (hs : s = .ReviewRequested ∨ s = .IntegrationFailed) :
    Obeys Valid (TaskCall c rows r) (Integrates r) (update_task_status a s error) l := by
  have hr : r.status = .Merging ∨ r.status = .AwaitingIntegration := by
    rcases hb with h | h
    · exact ha.merging h
    · exact .inr (ha.waiting h)
  have hbelief : belief l r.id = some .Merging ∨ belief l r.id = some .AwaitingIntegration := by
    rw [← ha.keeps.id, show belief l a.id = some a.status from ha.tracks]
    rcases hb with h | h
    · exact .inl (congrArg some h)
    · exact .inr (congrArg some h)
  refine (integrate_obeys hc ha (.settle hr hbelief hs) ?_ ?_).post fun _ _ h => h.1
  · rcases hs with rfl | rfl <;> exact OrchestrationTaskStatus.noConfusion
  · rcases hs with rfl | rfl <;> exact fun h => OrchestrationTaskStatus.noConfusion h

theorem publish_review_request_obeys (ha : Integrates r l a) (hm : a.status = .Merging)
    (hchild : a.child_session_id = some child) :
    Obeys Valid (TaskCall c rows r) (Integrates r) (publish_review_request a child) l := by
  have hr : r.status = .AwaitingIntegration ∨ r.status = .Merging := (ha.merging hm).symm
  have hb : belief l r.id = some .Merging := by
    rw [← ha.keeps.id, ← hm]
    exact ha.tracks
  have hJ : TaskCall c rows r l (.create_review_request child) :=
    .publish hc hr (ha.keeps.child ▸ hchild) hb
  refine obeys_attempt hJ (fun _ _ => ?_) fun error => ?_
  · exact settle_obeys hc ⟨ha.keeps, ha.tracks.cons rfl, ha.waiting, ha.merging⟩ (.inl hm)
      (.inl rfl)
  · exact settle_obeys hc ⟨ha.keeps, ha.tracks.cons rfl, ha.waiting, ha.merging⟩ (.inl hm)
      (.inr rfl)

theorem reconcile_review_requested_task_obeys (hb : Tracks l r) :
    Obeys Valid (TaskCall c rows r)
      (fun l' a => Integrates r l' a ∧ (a.status = .Merging → a = r))
      (reconcile_review_requested_task r) l := by
  have hr : Integrates r l r := ⟨Keeps.refl r, hb, id, .inl⟩
  -- a row that is published has left `Merging` behind
  have hwrite : ∀ s error, IntegrationWrite r l s → s ≠ .AwaitingIntegration → s ≠ .Merging →
      Obeys Valid (TaskCall c rows r)
        (fun l' a => Integrates r l' a ∧ (a.status = .Merging → a = r))
        (update_task_status r s error) l := by
    intro s error hs hwait hmerge
    refine (integrate_obeys hc hr hs hwait fun h => absurd h hmerge).post fun l' a h => ?_
    exact ⟨h.1, fun hm => absurd (h.2.symm.trans hm) hmerge⟩
  unfold reconcile_review_requested_task
  split
  · exact ⟨hr, fun _ => rfl⟩
  rename_i hrr
  have hrr : r.status = .ReviewRequested := not_not.mp hrr
  split
  · exact hwrite _ _ (.merged hrr (.inl (by assumption))) (by decide) (by decide)
  · exact hwrite _ _ (.merged hrr (.inr (by assumption))) (by decide) (by decide)
  · exact hwrite _ _ (.closed hrr (by assumption)) (by decide) (by decide)
  · exact ⟨hr, fun _ => rfl⟩

variable {approach : IntegrationApproach}

theorem reconcile_merging_task_obeys (ha : Integrates r l a) (har : a.status = .Merging → a = r) :
    Obeys Valid (TaskCall c rows r) (Integrates r) (reconcile_merging_task approach a) l := by
  unfold reconcile_merging_task
  split
  · exact ha
  rename_i hm
  have hm : a.status = .Merging := not_not.mp hm
  obtain rfl : a = r := har hm
  split
  · split
    · exact publish_review_request_obeys hc ha hm (by assumption)
    · exact settle_obeys hc ha (.inl hm) (.inr rfl)
  · split
    · exact (integrate_obeys hc ha (.integrated hm (.inr (by assumption))) (by decide)
        (fun h => by cases h)).post fun _ _ h => h.1
    · exact (integrate_obeys hc ha (.integrated hm (.inl (by assumption))) (by decide)
        (fun h => by cases h)).post fun _ _ h => h.1
    · exact settle_obeys hc ha (.inl hm) (.inr rfl)
    · exact ha

theorem integrate_task_obeys (ha : Integrates r l a) (hwait : a.status = .AwaitingIntegration) :
    Obeys Valid (TaskCall c rows r) (fun _ _ => True) (integrate_task approach a) l := by
  have hr : r.status = .AwaitingIntegration := ha.waiting hwait
  have hb : belief l r.id = some .AwaitingIntegration := by
    rw [← ha.keeps.id, ← hwait]
    exact ha.tracks
  unfold integrate_task
  split
  · exact (settle_obeys hc ha (.inr hwait) (.inr rfl)).post fun _ _ _ => trivial
  rename_i child hchild
  refine (integrate_obeys hc ha (.merging hr hb) (by decide) fun _ => hr).bind ?_
  rintro l' a' ⟨ha', hm⟩
  have hchild' : r.child_session_id = some child := by rw [← ha.keeps.child, hchild]
  split
  · refine (publish_review_request_obeys hc ha' hm ?_).post fun _ _ _ => trivial
    rw [ha'.keeps.child, hchild']
  have hJ : TaskCall c rows r l' (.merge_session child) := by
    refine .merge hc hr hchild' ?_
    rw [← ha'.keeps.id, ← hm]
    exact ha'.tracks
  refine obeys_attempt hJ (fun _ _ => trivial) fun error => ?_
  exact (settle_obeys hc ⟨ha'.keeps, ha'.tracks.cons rfl, ha'.waiting, ha'.merging⟩ (.inl hm)
    (.inr rfl)).post fun _ _ _ => trivial

end

/-! ## Cancellation -/

/-- A row that was canceled without an error is settled. -/
def SettledOr (r : SessionOrchestrationTaskRow) (l : RunLog) (error : Option String) : Prop :=
  error = none → ∃ s : OrchestrationTaskStatus, belief l r.id = some s ∧ s.is_settled = true

/-- A row whose child would stop is settled in the log. -/
theorem cancel_task_obeys (hc : c.status = .Canceling) (hb : Tracks l r) :
    Obeys Valid (TaskCall c rows r) (SettledOr r) (cancel_task r) l := by
  -- the write, once the child is known to have stopped
  have hwrite : ∀ l', r.status.is_settled = false → Tracks l' r → Stopped r l' →
      Obeys Valid (TaskCall c rows r) (SettledOr r)
        ((update_task_status r .Canceled none).bind fun _ => .ret (none : Option String)) l' := by
    intro l' hr ht hstop
    refine (update_task_status_obeys ht fun _ => .canceled hc hr hstop).bind ?_
    rintro l'' a ⟨ht', e, rfl⟩ -
    exact ⟨.Canceled, ht', rfl⟩
  unfold cancel_task
  split
  · rename_i hsettled
    exact fun _ => ⟨r.status, hb, hsettled⟩
  rename_i hsettled
  have hr : r.status.is_settled = false := Bool.not_eq_true _ ▸ hsettled
  split
  · rename_i hstop
    exact hwrite l hr hb (.already hstop)
  unfold known_child
  split
  · rename_i hsome
    obtain ⟨child, hchild⟩ := Option.isSome_iff_exists.mp hsome
    simp only [hchild]
    -- the child that was found is canceled
    refine obeys_attempt (.cancel_child hc hr (.inl hchild)) (fun _ _ => ?_) fun error h => ?_
    · exact hwrite _ hr (hb.cons rfl) (.canceled (.inl hchild))
    · cases h
  · rename_i hnone
    have hchild : r.child_session_id = none := by simpa using hnone
    refine obeys_perform (.cancel_lookup hc hr hchild) fun found _ => ?_
    cases found with
    | none => exact hwrite _ hr (hb.cons rfl) (.absent hchild)
    | some child =>
      refine obeys_attempt (.cancel_child hc hr (.inr ⟨hchild, l, rfl⟩)) (fun _ _ => ?_)
        fun error h => ?_
      · exact hwrite _ hr ((hb.cons rfl).cons rfl) (.canceled (.inr ⟨hchild, l, rfl⟩))
      · cases h

end Reconcile

/-! ## Campaigns -/

section Campaigns

variable {c : SessionOrchestrationRow} {rows : List SessionOrchestrationTaskRow} {l : RunLog}

/-- The pass works on a campaign from a list it has read. -/
structure Working (c : SessionOrchestrationRow) (rows : List SessionOrchestrationTaskRow)
    (l : RunLog) : Prop where
  isOpen : IsOpen l c.id
  list : snapshot l = some (c.id, rows)

variable {r : SessionOrchestrationTaskRow}

theorem TaskCall.working {call : Call} (h : TaskCall c rows r l call) (hw : Working c rows l)
    (reply : Except String (Reply call)) : Working c rows (⟨call, reply⟩ :: l) := by
  refine ⟨hw.isOpen.cons (h.closes_eq_false c.id), ?_⟩
  have hnone : RunEvent.list? ⟨call, reply⟩ = none := by cases h <;> rfl
  rw [snapshot_cons, hnone]
  exact hw.list

/-- A program about one row is a program about its campaign; it leaves what is
believed about the other rows alone. -/
theorem Obeys.of_task {β : Type} {Q : RunLog → β → Prop} {p : Run β} (hw : Working c rows l)
    (hr : r ∈ rows) (h : Obeys Valid (TaskCall c rows r) Q p l) :
    Obeys Valid (CampaignCall c)
      (fun l' b => Q l' b ∧ Working c rows l' ∧ ∀ id, id ≠ r.id → belief l' id = belief l id)
      p l := by
  have frame : ∀ l', Extends (TaskCall c rows r) l l' →
      Working c rows l' ∧ ∀ id, id ≠ r.id → belief l' id = belief l id := by
    intro l' hext
    refine hext.invariant (fun l' => Working c rows l' ∧
      ∀ id, id ≠ r.id → belief l' id = belief l id) ⟨hw, fun _ _ => rfl⟩ ?_
    rintro l' call reply hcall ⟨hw', hb⟩
    refine ⟨hcall.working hw' reply, fun id hid => ?_⟩
    rw [belief, hcall.tells_of_ne hid reply]
    exact hb id hid
  refine h.strengthen (fun l' call hext hcall => ?_) fun l' b hext hq => ⟨hq, frame l' hext⟩
  obtain ⟨hw', -⟩ := frame l' hext
  exact .task hw'.isOpen hw'.list hr hcall

/-- **The loop over the rows of a list.** What the body leaves of a row depends
on the log only through what is believed about that row, so the later rounds
keep it. -/
theorem traverse_rows_obeys {β : Type} {f : SessionOrchestrationTaskRow → Run β}
    (Post : SessionOrchestrationTaskRow → RunLog → β → Prop)
    (hnd : (rows.map (·.id)).Nodup)
    (hpost : ∀ r l l' b, belief l' r.id = belief l r.id → Post r l b → Post r l' b)
    (hf : ∀ r ∈ rows, ∀ l, Tracks l r → Obeys Valid (TaskCall c rows r) (Post r) (f r) l)
    (hw : Working c rows l) (ht : ∀ r ∈ rows, Tracks l r) :
    Obeys Valid (CampaignCall c)
      (fun l' bs => Working c rows l' ∧ List.Forall₂ (fun r b => Post r l' b) rows bs)
      (Prog.traverse f rows) l := by
  have hloop := obeys_traverse (V := Valid) (J := CampaignCall c) (f := f)
    (fun l' done rest => Working c rows l' ∧ (∀ r ∈ rest, Tracks l' r) ∧
      ∃ seen, rows = seen ++ rest ∧ List.Forall₂ (fun r b => Post r l' b) seen done) ?_
    rows l [] ⟨hw, ht, [], rfl, .nil⟩
  · refine hloop.post ?_
    rintro l' bs ⟨hw', -, seen, hseen, hall⟩
    rw [append_nil] at hseen
    subst hseen
    exact ⟨hw', hall⟩
  · rintro l' done r rest ⟨hw', hrest, seen, hseen, hall⟩
    have hr : r ∈ rows := by rw [hseen]; simp
    -- the ids of the other rows are different
    rw [hseen, map_append, map_cons, nodup_append] at hnd
    obtain ⟨-, hndr, hdisj⟩ := hnd
    rw [nodup_cons] at hndr
    have hne_rest : ∀ r' ∈ rest, r'.id ≠ r.id := fun r' h heq =>
      hndr.1 (heq ▸ mem_map_of_mem h)
    have hne_seen : ∀ r' ∈ seen, r'.id ≠ r.id := fun r' h =>
      hdisj _ (mem_map_of_mem h) _ mem_cons_self
    refine (Obeys.of_task hw' hr (hf r hr l' (hrest r mem_cons_self))).post ?_
    rintro l'' b ⟨hq, hw'', hb⟩
    refine ⟨hw'', fun r' h => ?_, seen ++ [r], by simp [hseen], ?_⟩
    · rw [Tracks, hb _ (hne_rest r' h)]
      exact hrest r' (mem_cons_of_mem _ h)
    · refine rel_append ?_ (.cons hq .nil)
      refine ((forall₂_and_left _ _).mpr ⟨hne_seen, hall⟩).imp fun r' b' h => ?_
      exact hpost r' l' l'' b' (hb _ h.1) h.2

theorem tracks_of_list (hnd : (rows.map (·.id)).Nodup) :
    ∀ r ∈ rows, Tracks (⟨.load_orchestration_tasks c.id, .ok rows⟩ :: l) r := by
  intro r hr
  have hfind : rows.find? (fun r' => r'.id = r.id) = some r := by
    obtain ⟨r', hr'⟩ := Option.isSome_iff_exists.mp
      (find?_isSome.mpr ⟨r, hr, by simp⟩ :
        (rows.find? fun r' => decide (r'.id = r.id)).isSome = true)
    have hid : r'.id = r.id := by simpa using find?_some hr'
    rw [hr', inj_on_of_nodup_map hnd (mem_of_find?_eq_some hr') hr hid]
  simp [Tracks, belief, RunEvent.tells, hfind]

theorem working_of_list (ho : IsOpen l c.id) :
    Working c rows (⟨.load_orchestration_tasks c.id, .ok rows⟩ :: l) :=
  ⟨ho.cons rfl, by simp [RunEvent.list?]⟩

variable {a : SessionOrchestrationTaskRow} {l' : RunLog}

theorem Mirrors.of_belief_eq (h : Mirrors r l a) (hb : belief l' r.id = belief l r.id) :
    Mirrors r l' a := by
  refine ⟨h.id, h.kind, h.questions, ?_⟩
  rw [Tracks, h.id, hb, ← h.id]
  exact h.tracks

theorem Outcome.of_belief_eq (h : Outcome r l a) (hb : belief l' r.id = belief l r.id) :
    Outcome r l' a :=
  ⟨h.toMirrors.of_belief_eq hb, h.planned⟩

/-! ### The rows a loop returns -/

section Rows

variable {tasks : List SessionOrchestrationTaskRow}

theorem exists_row {α β : Type} {R : α → β → Prop} {rows : List α} {tasks : List β}
    (h : List.Forall₂ R rows tasks) {a : β} (ha : a ∈ tasks) : ∃ r ∈ rows, R r a := by
  induction h with
  | nil => cases ha
  | cons hra _ ih =>
    rcases mem_cons.mp ha with rfl | ha
    · exact ⟨_, mem_cons_self, hra⟩
    · obtain ⟨r, hr, ho⟩ := ih ha
      exact ⟨r, mem_cons_of_mem _ hr, ho⟩

theorem map_id_of_mirrors (h : List.Forall₂ (fun r a => Mirrors r l a) rows tasks) :
    tasks.map (·.id) = rows.map (·.id) := by
  induction h with
  | nil => rfl
  | cons hra _ ih => rw [map_cons, map_cons, hra.id, ih]

/-- The slots the pass counts are those it believes to be occupied. -/
theorem occupied_slots_of_mirrors (h : List.Forall₂ (fun r a => Mirrors r l a) rows tasks) :
    occupied_slots (tasks.map (·.status)) = believed_slots l rows := by
  induction h with
  | nil => rfl
  | cons hra _ ih =>
    simp only [occupied_slots, believed_slots, map_cons, filter_cons] at ih ⊢
    rw [← hra.id, show belief l _ = some _ from hra.tracks, Option.any_some]
    split
    · simp only [length_cons, ih]
    · exact ih

theorem surface_child_questions_obeys
    (hs : c.status = .Running ∨ c.status = .AwaitingApproval) (hw : Working c rows l)
    (h : List.Forall₂ (fun r a => Mirrors r l a) rows tasks) :
    Obeys Valid (CampaignCall c)
      (fun l' _ => Working c rows l' ∧ ∀ id, belief l' id = belief l id)
      (surface_child_questions c tasks) l := by
  simp only [surface_child_questions]
  split
  · exact ⟨hw, fun _ => rfl⟩
  rename_i id questions hfind
  obtain ⟨a, ha, hsome⟩ := exists_of_findSome?_eq_some hfind
  simp only [Option.ite_none_right_eq_some, Option.map_eq_some_iff] at hsome
  obtain ⟨hwaiting, q, hq, hpair⟩ := hsome
  cases hpair
  obtain ⟨r, hr, ho⟩ := exists_row h ha
  have hJ : CampaignCall c l (.surface_orchestration_questions c.id a.id questions) := by
    rw [ho.id]
    refine .surface hw.isOpen hs hw.list hr ?_ (by rw [← ho.questions, hq])
    rw [← ho.id, ← hwaiting]
    exact ho.tracks
  refine obeys_perform hJ fun _ _ => ⟨⟨hw.isOpen.cons rfl, ?_⟩, fun _ => ?_⟩
  · rw [snapshot_cons]
    exact hw.list
  · simp [belief, RunEvent.tells]

end Rows

/-- The work on a campaign keeps to the catalogue. -/
abbrev Pursues (c : SessionOrchestrationRow) (p : Run Unit) (l : RunLog) : Prop :=
  Obeys Valid (CampaignCall c) (fun _ _ => True) p l

/-! ### A running campaign -/

/-- One row can change the count of believed slots by one at most. -/
theorem believed_slots_le_succ {id : TaskId} (hnd : (rows.map (·.id)).Nodup)
    (hb : ∀ id', id' ≠ id → belief l' id' = belief l id') :
    believed_slots l' rows ≤ believed_slots l rows + 1 := by
  induction rows with
  | nil => exact Nat.zero_le _
  | cons r rows ih =>
    rw [map_cons, nodup_cons] at hnd
    simp only [believed_slots, filter_cons] at ih ⊢
    by_cases hid : r.id = id
    · -- no other row has this id, so the rest of the count is the same
      have hrest : rows.filter (fun r => (belief l' r.id).any
            OrchestrationTaskStatus.occupies_parallelism_slot)
          = rows.filter fun r => (belief l r.id).any
            OrchestrationTaskStatus.occupies_parallelism_slot := by
        refine filter_congr fun r' hr' => ?_
        rw [hb r'.id fun h => hnd.1 ?_]
        rw [hid, ← h]
        exact mem_map_of_mem hr'
      rw [hrest]
      split <;> split <;> simp [Nat.le_succ_of_le]
    · rw [hb r.id hid]
      have := ih hnd.2
      split
      · simpa using this
      · exact this

variable {tasks : List SessionOrchestrationTaskRow}

/-- The loop that claims the slots the schedule gives. -/
theorem spawn_loop_obeys (hc : c.status = .Running) (hnd : (rows.map (·.id)).Nodup)
    (hw : Working c rows l) (h : List.Forall₂ (fun r a => Outcome r l a) rows tasks) :
    Obeys Valid (CampaignCall c) (fun l' _ => Working c rows l')
      (Prog.traverse (spawn_task c) (spawnable c tasks)) l := by
  have hmirrors : List.Forall₂ (fun r a => Mirrors r l a) rows tasks :=
    h.imp fun _ _ ho => ho.toMirrors
  have hloop := obeys_traverse (V := Valid) (J := CampaignCall c) (f := spawn_task c)
    (fun l' _ rest => Working c rows l' ∧ (rest.map (·.id)).Nodup ∧
      (rest = [] ∨ believed_slots l' rows + rest.length ≤ c.max_parallelism.toNat) ∧
      ∀ a ∈ rest, a.status = .Planned ∧ ∃ r ∈ rows, Outcome r l' a) ?_
    (spawnable c tasks) l [] ?_
  · exact hloop.post fun l' _ h => h.1
  · rintro l' done a rest ⟨hw', hids, hfree, hall⟩
    obtain ⟨ha, r, hr, ho⟩ := hall a mem_cons_self
    have hslots : believed_slots l' rows + rest.length < c.max_parallelism.toNat := by
      rcases hfree with h | h
      · cases h
      · rw [length_cons] at h
        omega
    rw [map_cons, nodup_cons] at hids
    refine (Obeys.of_task hw' hr (spawn_task_obeys hc ho ha (by omega))).post ?_
    rintro l'' b ⟨-, hw'', hb⟩
    refine ⟨hw'', hids.2, .inr ?_, fun a' ha' => ?_⟩
    · have := believed_slots_le_succ hnd hb
      omega
    · obtain ⟨hplanned, r', hr', ho'⟩ := hall a' (mem_cons_of_mem _ ha')
      refine ⟨hplanned, r', hr', ho'.of_belief_eq (hb _ fun heq => hids.1 ?_)⟩
      rw [ho.id, ← heq, ← ho'.id]
      exact mem_map_of_mem ha'
  · have hsub : (spawnable c tasks).Sublist tasks :=
      (take_sublist _ _).trans filter_sublist
    refine ⟨hw, ?_, ?_, fun a ha => ⟨?_, exists_row h (hsub.subset ha)⟩⟩
    · exact (map_id_of_mirrors hmirrors ▸ hnd).sublist (hsub.map _)
    · -- more slots occupied than there are leaves nothing to spawn
      have hlen : (spawnable c tasks).length
          ≤ c.max_parallelism.toNat - believed_slots l rows := by
        rw [spawnable, ← occupied_slots_of_mirrors hmirrors]
        refine (length_take_le _ _).trans ?_
        exact Nat.min_le_left _ _
      rcases Nat.eq_zero_or_pos (spawnable c tasks).length with h0 | hpos
      · exact .inl (eq_nil_of_length_eq_zero h0)
      · exact .inr (by omega)
    · have := mem_of_mem_take ha
      simpa using (mem_filter.mp this).2

theorem finish_fan_out_obeys (hc : c.status = .Running) (ho : IsOpen l c.id) :
    Pursues c (finish_fan_out c) l := by
  refine obeys_perform (.list ho) fun refreshed _ => ?_
  split
  · rename_i hsubmit
    have hall : ∀ r ∈ refreshed, r.status.is_settled = true := by
      simp only [schedule, Bool.and_eq_true, all_map, all_eq_true] at hsubmit
      exact hsubmit.2
    refine obeys_perform (.claim_rollup ho hc hall) fun claimed _ => ?_
    cases claimed with
    | false => trivial
    | true =>
      exact obeys_perform_last (.submit_claimed hc) fun _ _ => trivial
  · trivial

theorem reconcile_orchestration_obeys (hc : c.status = .Running) (ho : IsOpen l c.id) :
    Pursues c (reconcile_orchestration c) l := by
  refine obeys_perform (.list ho) fun rows hrows => ?_
  obtain ⟨hnd, hchild⟩ := hrows
  refine (traverse_rows_obeys Outcome hnd (fun r l l' a hb h => h.of_belief_eq hb)
    (fun r hr l ht => reconcile_task_obeys (.inl hc) (hchild r hr) ht)
    (working_of_list ho) (tracks_of_list hnd)).bind ?_
  rintro l₁ tasks ⟨hw, hrec⟩
  refine (surface_child_questions_obeys (.inl hc) hw (hrec.imp fun _ _ h => h.toMirrors)).bind ?_
  rintro l₂ _ ⟨hw, hb⟩
  refine (spawn_loop_obeys hc hnd hw (hrec.imp fun _ _ h => h.of_belief_eq (hb _))).bind ?_
  rintro l₃ _ hw
  exact finish_fan_out_obeys hc hw.isOpen

/-! ### The other phases -/

theorem reconcile_parked_plan_obeys (hc : c.status = .AwaitingApproval) (ho : IsOpen l c.id) :
    Pursues c (reconcile_parked_plan c) l := by
  refine obeys_perform (.list ho) fun rows hrows => ?_
  obtain ⟨hnd, hchild⟩ := hrows
  refine (traverse_rows_obeys Mirrors hnd (fun r l l' a hb h => h.of_belief_eq hb)
    (fun r hr l ht => ?_) (working_of_list ho) (tracks_of_list hnd)).bind ?_
  · split
    · rename_i hlive
      exact (reconcile_task_obeys (.inr ⟨hc, hlive⟩) (hchild r hr) ht).post fun _ _ h =>
        h.toMirrors
    · exact ⟨rfl, rfl, rfl, ht⟩
  · rintro l' tasks ⟨hw, hrec⟩
    exact (surface_child_questions_obeys (.inr hc) hw hrec).post fun _ _ _ => trivial

/-- Whether a row counts as integrated depends on what the loop keeps. -/
theorem settled_of_integrates (h : Integrates r l a) :
    task_is_integration_settled (believed l r) = task_is_integration_settled a := by
  have hs : (believed l r).status = a.status := by
    rw [believed, ← h.keeps.id, show belief l a.id = some a.status from h.tracks]
    rfl
  simp only [task_is_integration_settled, hs]
  rw [show (believed l r).kind = a.kind from h.keeps.kind.symm,
    show (believed l r).verification_verdict = a.verification_verdict from h.keeps.verdict.symm]

theorem reconcile_integration_obeys (hc : c.status = .Integrating) (ho : IsOpen l c.id) :
    Pursues c (reconcile_integration c) l := by
  refine obeys_perform (.approach ho hc) fun approach _ => ?_
  refine obeys_perform (.list (ho.cons rfl)) fun rows hrows => ?_
  obtain ⟨hnd, -⟩ := hrows
  refine (traverse_rows_obeys Integrates hnd (fun r l l' a hb h => ?_) (fun r _ l ht => ?_)
    (working_of_list (ho.cons rfl)) (tracks_of_list hnd)).bind ?_
  · refine ⟨h.keeps, ?_, h.waiting, h.merging⟩
    rw [Tracks, h.keeps.id, hb, ← h.keeps.id]
    exact h.tracks
  · refine (reconcile_review_requested_task_obeys hc ht).bind fun l' a h => ?_
    exact reconcile_merging_task_obeys hc h.1 h.2
  · rintro l' tasks ⟨hw, hall⟩
    unfold advance_integration
    split
    · trivial
    split
    · rename_i a hfind
      obtain ⟨r, hr, hi⟩ := exists_row hall (mem_of_find?_eq_some hfind)
      have hwait : a.status = .AwaitingIntegration := by simpa using find?_some hfind
      refine (Obeys.of_task hw hr (integrate_task_obeys hc hi hwait)).bind ?_
      exact fun _ _ _ => trivial
    · split
      · rename_i hsettled
        have hall' : ∀ r ∈ rows, task_is_integration_settled (believed l' r) = true := by
          intro r hr
          obtain ⟨a, ha, hi⟩ := exists_row hall.flip hr
          rw [settled_of_integrates hi]
          exact all_eq_true.mp hsettled a ha
        exact obeys_perform (.complete_campaign hw.isOpen (.inr hc) hw.list hall')
          fun _ _ => trivial
      · trivial

theorem reconcile_awaiting_integration_obeys (hc : c.status = .AwaitingIntegration)
    (ho : IsOpen l c.id) :
    Pursues c (reconcile_awaiting_integration c) l := by
  refine obeys_perform (.list ho) fun rows hrows => ?_
  split
  · rename_i hsettled
    have hw : Working c rows _ := working_of_list ho
    refine obeys_perform (.complete_campaign hw.isOpen (.inl hc) hw.list fun r hr => ?_)
      fun _ _ => trivial
    rw [settled_of_integrates ⟨Keeps.refl r, tracks_of_list hrows.1 r hr, id, .inl⟩]
    exact all_eq_true.mp hsettled r hr
  · trivial

theorem reconcile_rollup_obeys (hc : c.status = .Verifying) (ho : IsOpen l c.id) :
    Pursues c (reconcile_rollup c tasks) l := by
  refine obeys_perform (.rollup_operation ho hc) fun status _ => ?_
  have hsubmit : Redeliverable status →
      Pursues c
        (submit_rollup c tasks c.verification_generation)
        (⟨.load_rollup_operation_status (.orchestration_rollup c.id c.verification_generation),
          .ok status⟩ :: l) := fun h =>
    obeys_perform_last (.submit_rollup ho hc h) fun _ _ => trivial
  split
  · exact obeys_perform (.complete_rollup ho hc) fun _ _ => trivial
  · trivial
  · trivial
  · exact hsubmit trivial
  · exact hsubmit trivial
  · exact hsubmit trivial

theorem reconcile_cancellation_obeys (hc : c.status = .Canceling) (ho : IsOpen l c.id) :
    Pursues c (reconcile_cancellation c) l := by
  refine obeys_perform (.list ho) fun rows hrows => ?_
  refine (traverse_rows_obeys SettledOr hrows.1 (fun r l l' error hb h herror => ?_)
    (fun r _ l ht => cancel_task_obeys hc ht) (working_of_list ho) (tracks_of_list hrows.1)).bind ?_
  · rw [hb]
    exact h herror
  · rintro l' errors ⟨hw, hall⟩
    split
    · trivial
    rename_i hnone
    have hall' : ∀ r ∈ rows, (believed l' r).status.is_settled = true := by
      intro r hr
      obtain ⟨error, herror, h⟩ := exists_row hall.flip hr
      obtain ⟨s, hs, hsettled⟩ := h (findSome?_eq_none_iff.mp hnone error herror)
      rw [believed, hs]
      exact hsettled
    exact obeys_perform (.cancel hw.isOpen hc hw.list hall') fun _ _ => trivial

/-- **The work on one campaign** keeps to the catalogue. -/
theorem reconcile_campaign_obeys (ho : IsOpen l c.id) :
    Pursues c (reconcile_campaign c) l := by
  unfold reconcile_campaign
  split
  · exact reconcile_parked_plan_obeys (by assumption) ho
  · exact reconcile_awaiting_integration_obeys (by assumption) ho
  · exact reconcile_orchestration_obeys (by assumption) ho
  · exact obeys_perform (.list ho) fun rows _ => reconcile_rollup_obeys (by assumption)
      (ho.cons rfl)
  · exact reconcile_integration_obeys (by assumption) ho
  · exact reconcile_cancellation_obeys (by assumption) ho
  · trivial
  · trivial

end Campaigns

/-- **A coordinator pass** keeps to the catalogue. -/
theorem reconcile_once_obeys :
    Obeys Valid PassCall (fun _ _ => True) reconcile_once [] := by
  refine obeys_perform .load_active fun cs hcs => ?_
  have hloop := obeys_traverse (V := Valid) (J := PassCall) (f := reconcile_campaign)
    (fun l _ (rest : List SessionOrchestrationRow) =>
      (rest.map SessionOrchestrationRow.id).Nodup ∧ ∀ c ∈ rest, Loaded l c ∧ IsOpen l c.id) ?_
    cs [⟨.load_active_orchestrations, .ok cs⟩] [] ⟨hcs, fun c hc => ?_⟩
  · exact hloop.bind fun _ _ _ => trivial
  · rintro l done c rest ⟨hnd, hall⟩
    obtain ⟨hload, hopen⟩ := hall c mem_cons_self
    rw [map_cons, nodup_cons] at hnd
    -- what is loaded stays loaded, and only `c` itself is closed
    have frame : ∀ l', Extends (CampaignCall c) l l' →
        Loaded l' c ∧ ∀ c' ∈ rest, Loaded l' c' ∧ IsOpen l' c'.id := by
      intro l' hext
      refine hext.invariant (fun l' => Loaded l' c ∧ ∀ c' ∈ rest, Loaded l' c' ∧ IsOpen l' c'.id)
        ⟨hload, fun c' hc' => hall c' (mem_cons_of_mem _ hc')⟩ ?_
      rintro l' call reply hcall ⟨hc, hrest⟩
      refine ⟨hc.cons _, fun c' hc' => ⟨(hrest c' hc').1.cons _, (hrest c' hc').2.cons ?_⟩⟩
      refine hcall.closes_of_ne fun h => hnd.1 ?_
      rw [← h]
      exact mem_map_of_mem hc'
    refine (reconcile_campaign_obeys hopen).strengthen ?_ ?_
    · exact fun l' call hext hcall => .campaign (frame l' hext).1 hcall
    · exact fun l' _ hext _ => ⟨hnd.2, (frame l' hext).2⟩
  · refine ⟨⟨cs, mem_cons_self, hc⟩, fun e he => ?_⟩
    rw [mem_singleton.mp he]
    rfl

end Agentty.Orchestration
