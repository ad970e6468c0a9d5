/-
The permits of utility runs.

A run takes a permit before its record becomes `Running`, and gives it back when its work is
over, however it ends: the work of a run that is cancelled is drained first.
-/
import Mathlib.Data.Finset.Card
import Agentty.Worker.UtilityCancellation

set_option autoImplicit false

namespace Agentty.Worker.Utility

variable {Id : Type} {s s' : State Id} {capacity : Nat}

/-- The work of the run is between its permit and its end. -/
def State.Busy (s : State Id) (r : Nat) : Prop :=
  ∃ run, s.runs r = some run ∧ run.work.still = false

/-- Every permit is free, or that of one run that is busy. -/
def Permitted (capacity : Nat) (s : State Id) : Prop :=
  ∃ busy : Finset Nat, (∀ r, r ∈ busy ↔ s.Busy r) ∧ s.capacity + busy.card = capacity

/-- One run changes, or is new. -/
theorem Permitted.update (h : Permitted capacity s) {r : Nat} {run' : Run Id} {b : Bool}
    (hbusy : b = true ↔ s.Busy r) (hruns : s'.runs = Function.update s.runs r (some run'))
    (hfree : s'.capacity + (!run'.work.still).toNat = s.capacity + b.toNat) :
    Permitted capacity s' := by
  obtain ⟨busy, hmem, hcount⟩ := h
  have hother : ∀ i, i ≠ r → (s'.Busy i ↔ s.Busy i) := by
    intro i hi
    simp [State.Busy, hruns, Function.update_of_ne hi]
  have hself : s'.Busy r ↔ run'.work.still = false := by simp [State.Busy, hruns]
  rw [← hmem] at hbusy
  refine ⟨if run'.work.still then busy.erase r else insert r busy, fun i => ?_, ?_⟩
  · by_cases hi : i = r
    · subst hi
      rw [hself]
      split <;> simp_all
    · rw [hother i hi, ← hmem]
      split <;> simp [hi]
  · -- the set changes exactly if the run was busy before and is not now, or the reverse
    cases hstill : run'.work.still <;> cases b <;> simp_all <;> grind -linarith

/-- What leaves the runs and the free permits alone. -/
def Aside (s s' : State Id) : Prop := s'.runs = s.runs ∧ s'.capacity = s.capacity

theorem Permitted.aside (h : Permitted capacity s) (haside : Aside s s') :
    Permitted capacity s' := by
  unfold Permitted State.Busy
  rw [haside.1, haside.2]
  exact h

variable [DecidableEq Id]

theorem entry_aside (x : Id) : Aside s (s.entry x).1 := by
  unfold State.entry
  split <;> exact ⟨rfl, rfl⟩

theorem release_session_aside (x : Id) (object : Nat) : Aside s (release_session s x object) := by
  unfold release_session
  split <;> exact ⟨rfl, rfl⟩

theorem run_effect_aside (r : Nat) (session : Option (Id × Nat)) (act : Act) :
    Aside s (run_effect s r session act) := by
  unfold run_effect
  split <;> try split
  all_goals first | exact ⟨rfl, rfl⟩ | exact release_session_aside _ _

/-- A run takes a permit as it becomes busy, and gives it back as it ceases to be. -/
theorem run_step_permits {run run' : Run Id} {act : Act} {free : Nat}
    (h : run_step s run act = some (run', free)) :
    free + (!run'.work.still).toNat = s.capacity + (!run.work.still).toNat := by
  cases act <;> simp only [run_step, advance] at h <;> grind -linarith [Work.still]

/-- **No step loses a permit, or makes one.** -/
theorem Permitted.step (h : Permitted capacity s) (hs : Inv s) {l : Label Id}
    (hstep : step s l = some s') : Permitted capacity s' := by
  cases l with
  | submit session =>
    obtain ⟨-, ⟨⟩⟩ := Option.ite_none_right_eq_some.mp hstep
    cases session with
    | none =>
      have hfresh := hs.owned.fresh_run _ (Nat.le_refl _)
      exact h.update (b := false) (by simp [State.Busy, hfresh]) rfl rfl
    | some x =>
      have hfresh := (hs.entry x).1.owned.fresh_run _ (Nat.le_refl _)
      exact (h.aside (entry_aside x)).update (r := (s.entry x).1.next_run) (b := false)
        (by simp [State.Busy, hfresh]) rfl rfl
  | run r act =>
    obtain ⟨run, hrun, hmap⟩ := Option.bind_eq_some_iff.mp hstep
    obtain ⟨⟨run', free⟩, hrun', ⟨⟩⟩ := Option.map_eq_some_iff.mp hmap
    exact h.update (b := !run.work.still) (by simp [State.Busy, hrun])
      (congrArg (Function.update · r (some run')) (run_effect_aside r run.session act).1)
      (run_step_permits hrun')
  | cancel_session x | cancel_session_and_wait x =>
    cases hstep
    exact h.aside (entry_aside x)
  | close j recorded ok =>
    obtain ⟨caller, -, hclose⟩ := Option.bind_eq_some_iff.mp hstep
    obtain ⟨-, ⟨⟩⟩ := Option.ite_none_right_eq_some.mp hclose
    exact h.aside ⟨rfl, rfl⟩
  | proceed j =>
    obtain ⟨caller, -, hproceed⟩ := Option.bind_eq_some_iff.mp hstep
    split at hproceed <;> try split at hproceed
    all_goals cases hproceed
    all_goals first | exact h.aside ⟨rfl, rfl⟩ | exact h.aside (release_session_aside _ _)
  | abandon j | shutdown =>
    cases hstep
    exact h.aside ⟨rfl, rfl⟩

/-- **Permits are conserved** in every run: each is free or that of one busy run, so that no
more runs are busy than there are permits; and when the tasks of all runs are over, all are
free again. -/
theorem permits_conserved (h : Machine.Reaches step Machine.anyStep (State.new capacity) s) :
    Permitted capacity s ∧
      ((∀ r run, s.runs r = some run → run.pc.live = false) → s.capacity = capacity) := by
  have hinv : Permitted capacity s ∧ Inv s := by
    refine h.invariant (fun s => Permitted capacity s ∧ Inv s) ?_ fun _ _ _ hs _ hstep =>
      ⟨hs.1.step hs.2 hstep, step_inv hstep hs.2⟩
    exact ⟨⟨∅, by simp [State.Busy, State.new], rfl⟩, inv_new capacity⟩
  obtain ⟨⟨busy, hmem, hcount⟩, hs⟩ := hinv
  refine ⟨⟨busy, hmem, hcount⟩, fun hover => ?_⟩
  have hnone : busy = ∅ := by
    refine Finset.eq_empty_of_forall_notMem fun r hr => ?_
    obtain ⟨run, hrun, hwork⟩ := (hmem r).mp hr
    have hcalm := (hs.runs.shaped r run hrun).calm (hover r run hrun) false
    exact Bool.false_ne_true (hwork.symm.trans hcalm.2.1)
  rw [← hcount, hnone, Finset.card_empty, Nat.add_zero]

/-- The only permit is taken. -/
theorem permits_conserved_taken : ∃ s : State Nat,
    Machine.Reaches step Machine.anyStep (State.new 1) s ∧ s.capacity = 0 ∧ Permitted 1 s := by
  have hrun : (Machine.run step (fun _ _ => true) (State.new 1) ((cancellation true).take 4)).any
      (fun s => s.capacity = 0) = true := by
    decide +kernel
  obtain ⟨s, hreach, hcapacity⟩ := Machine.exists_reaches _ hrun
  exact ⟨s, hreach, hcapacity, (permits_conserved hreach).1⟩

end Agentty.Worker.Utility
