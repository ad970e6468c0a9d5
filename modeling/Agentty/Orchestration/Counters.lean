/-
The counters of a subtask.

A subtask row counts the prompts after its first one (`continuation_generation`), the
children it was linked to, its failed spawns, and the review remediations since it was
last proposed or continued. Passes and turns write these columns while others do, and are
killed between two calls. They are exact all the same, and the automated review ends.
-/
import Agentty.Orchestration.Verification

set_option autoImplicit false

namespace Agentty.Orchestration

structure Counters where
  prompts : Nat
  links : Nat
  failures : Nat
  remediations : Nat
  deriving DecidableEq

def Counters.zero : Counters := ⟨0, 0, 0, 0⟩

/-- What an executed call adds to the counters of a subtask. -/
def count (id : TaskId) (e : HostEntry) (k : Counters) : Counters :=
  match e with
  | ⟨_, .claim_orchestration_review_application id' _ _, .ok true, _⟩ =>
    if id' = id then { k with prompts := k.prompts + 1, remediations := k.remediations + 1 } else k
  | ⟨_, .queue_orchestration_continuation id' _ _ _, .ok true, _⟩ =>
    if id' = id then { k with prompts := k.prompts + 1, remediations := 0 } else k
  | ⟨_, .link_orchestration_task_child id' _, .ok true, _⟩ =>
    if id' = id then { k with links := k.links + 1 } else k
  | ⟨_, .record_orchestration_spawn_failure id' _ _, .ok _, _⟩ =>
    if id' = id then { k with failures := k.failures + 1 } else k
  | ⟨_, .upsert_orchestration_task _, .ok id', _⟩ =>
    if id' = id then { k with remediations := 0 } else k
  | _ => k

/-- The counters of a subtask after a run, from its trace alone. -/
def counted (id : TaskId) (trace : List HostEntry) : Counters := trace.foldr (count id) .zero

def Task.counters (t : Task) : Counters :=
  ⟨t.continuation_generation, t.attempt_count, t.infrastructure_retry_count, t.review_iteration⟩

def World.counters (w : World) (id : TaskId) : Counters :=
  ((w.task id).map Task.counters).getD .zero

section Step

variable {w w' : World} {id : TaskId}

theorem World.counters_eq {t : Task} (ht : w.task id = some t) : w.counters id = t.counters := by
  simp [World.counters, ht]

/-- The row that a guarded `UPDATE` finds when it writes, and what it leaves. -/
theorem update_task_wrote {p : Task → Bool} {f : Task → Task}
    (h : (update_task w id p f).2 = true) :
    ∃ t, w.task id = some t ∧ p t = true ∧ (update_task w id p f).1.task id = some (f t) := by
  obtain ⟨t, ht, hp⟩ := Table.affects_iff.mp h
  refine ⟨t, ht, hp, ?_⟩
  simp only [World.task, update_task, Table.get?_update_self]
  rw [ht, Option.map_some, if_pos hp]

/-- The same for a review claim or a continuation. -/
theorem claim_wrote {p : Task → Bool} {f : Task → Task}
    (hx : answered (if (update_task w id p f).2 then
      (clear_child_review (update_task w id p f).1 id, true) else (w, false)) = (w', .ok true)) :
    ∃ t, w.task id = some t ∧ p t = true ∧ w'.task id = some (f t) := by
  unfold answered at hx
  split at hx
  · next hwrote =>
    cases hx
    exact update_task_wrote hwrote
  · cases hx

variable {a : Actor} {c : Call} {r : Except String (Reply c)}

/-- A call that changes no counter of the row. A new row has counted nothing. -/
theorem Exec.counters_of_moves (hx : Exec w c r w')
    (hmove : ∀ t t', TaskMove w id t c r t' → t'.counters = t.counters) :
    w'.counters id = w.counters id := by
  cases ht : w.task id with
  | some t =>
    obtain ⟨t', ht', hm⟩ := hx.task_of_some ht
    rw [World.counters_eq ht, World.counters_eq ht', hmove t t' hm]
  | none =>
    rw [World.counters, World.counters, ht]
    cases ht' : w'.task id with
    | none => rfl
    | some t' =>
      rcases hx.task ht' with ⟨t, ht₀, -⟩ | hborn
      · cases ht.symm.trans ht₀
      · cases hborn
        rfl

/-- **Every call counts what it does.** -/
theorem Exec.counters (hx : Exec w c r w') :
    w'.counters id = count id ⟨a, c, r, w⟩ (w.counters id) := by
  unfold count
  split
  case h_6 h₁ h₂ h₃ h₄ h₅ =>
    refine hx.counters_of_moves fun t t' hm => ?_
    cases hm with
    | review_claimed => exact (h₁ _ _ _ _ _ rfl).elim
    | continued => exact (h₂ _ _ _ _ _ _ rfl).elim
    | linked => exact (h₃ _ _ _ _ rfl).elim
    | spawn_failed => exact (h₄ _ _ _ _ _ _ rfl).elim
    | upserted => exact (h₅ _ _ _ _ rfl).elim
    | _ => rfl
  all_goals
    rename_i he
    cases he
    split <;> rename_i hid
    swap
    · -- another subtask is meant
      refine hx.counters_of_moves fun t t' hm => ?_
      cases hm <;> first | rfl | exact absurd rfl hid
    subst hid
    obtain ⟨x, hserved⟩ := hx.served
  iterate 2
    · obtain ⟨t, ht, -, ht'⟩ := claim_wrote hserved
      rw [World.counters_eq ht, World.counters_eq ht']
      rfl
  · obtain ⟨rfl, hlinked⟩ := Prod.mk.inj hserved
    obtain ⟨t, ht, -, ht'⟩ := update_task_wrote (Except.ok.inj hlinked)
    rw [World.counters_eq ht]
    exact World.counters_eq ht'
  · simp only [serve, record_orchestration_spawn_failure] at hserved
    split at hserved
    · cases hserved
    next t ht =>
    cases hserved
    rw [World.counters_eq ht]
    simp [World.counters, World.task, Table.get?_update_self, ht, Task.counters]
  · rcases hx.upsert.1 with ⟨hnone, ht'⟩ | ⟨t, ht, -, -, ht'⟩
    · rw [World.counters_eq ht', World.counters, hnone]
      rfl
    · rw [World.counters_eq ht, World.counters_eq ht']
      rfl

end Step

variable {K : Configuration → HostLabel → Prop} {cfg : Configuration}

/-- A review is claimed only below the limit. -/
theorem remediations_le (h : Reachable K cfg) (id : TaskId) :
    (cfg.world.counters id).remediations ≤ MAX_AUTOMATED_REVIEW_ITERATIONS := by
  refine reachable_world
    (fun w => (w.counters id).remediations ≤ MAX_AUTOMATED_REVIEW_ITERATIONS) h ?_ ?_ ?_
  · exact Nat.zero_le _
  · intro cfg w' a l c r _ _ ih hJ hx
    rw [hx.counters (a := a)]
    unfold count
    split
    · rename_i he
      cases he
      split
      · next hid =>
        subst hid
        obtain ⟨-, c, rows, r, -, hcall⟩ := hJ.of_task_call rfl
        cases hcall
        obtain ⟨x, hserved⟩ := hx.served
        obtain ⟨t, ht, hp, -⟩ := claim_wrote hserved
        simp only [Bool.and_eq_true, decide_eq_true_eq] at hp
        rw [World.counters_eq ht]
        exact hp.1.2
      · exact ih
    all_goals
      try split
      all_goals first | exact ih | exact Nat.zero_le _
  · intro w w' m henv ih
    rw [World.counters, World.task, env_tasks henv]
    exact ih

/-- **The counters of a subtask are exact, and the automated review ends**, in every
run. No two prompts of a subtask have one generation, however often its key is
proposed; and from one proposal or continuation to the next, no more remediations are
started than allowed. -/
theorem counters_are_exact (h : Reachable K cfg) {id : TaskId} {t : Task}
    (ht : cfg.world.task id = some t) : t.counters = counted id cfg.trace ∧
      (counted id cfg.trace).remediations ≤ MAX_AUTOMATED_REVIEW_ITERATIONS := by
  have hexact : cfg.world.counters id = counted id cfg.trace := by
    refine reachable_steps (fun cfg => cfg.world.counters id = counted id cfg.trace) h rfl ?_ ?_
    · intro cfg cfg' lab _ ih _ hq
      rw [World.counters, hq.tasks, hq.trace]
      exact ih
    · intro cfg cfg' a x c r l _ ih _ hc _
      rw [hc.trace, counted, List.foldr_cons, ← counted, ← ih]
      exact hc.exec.counters
  rw [← hexact]
  exact ⟨(World.counters_eq ht).symm, remediations_le h id⟩

/-- The first subtask has been linked once and remediated once. -/
theorem counters_are_exact_remediated : ∃ cfg t, Reachable System.anyStep cfg ∧
    cfg.world.task 1 = some t ∧ t.counters = ⟨1, 1, 0, 1⟩ ∧ counted 1 cfg.trace = ⟨1, 1, 0, 1⟩ := by
  have hrun : (host.run start remediated_campaign).any (fun cfg =>
      ∃ t ∈ cfg.world.task 1, t.counters = ⟨1, 1, 0, 1⟩) = true := by
    decide +kernel
  obtain ⟨cfg, hreach, t, ht, hcounters⟩ := System.exists_reaches_of_run _ hrun
  exact ⟨cfg, t, hreach, ht, hcounters, (counters_are_exact hreach ht).1 ▸ hcounters⟩

end Agentty.Orchestration
