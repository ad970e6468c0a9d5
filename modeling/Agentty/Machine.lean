/-
State machines by a partial step function.

A machine is a function from a state and a label to the next state, if the label is
enabled. A run may be restricted by a condition on its steps. Results about runs follow
from the invariant rule; a computed run shows that a state is reached.
-/
import Mathlib.Logic.Relation

set_option autoImplicit false

namespace Agentty.Machine

variable {S L : Type}

/-- A step whose label meets a condition on the state it is taken in. -/
def Step (step : S → L → Option S) (K : S → L → Prop) (s s' : S) : Prop :=
  ∃ l, K s l ∧ step s l = some s'

/-- A run all of whose steps meet a condition. -/
def Reaches (step : S → L → Option S) (K : S → L → Prop) : S → S → Prop :=
  Relation.ReflTransGen (Step step K)

def anyStep : S → L → Prop := fun _ _ => True

variable {step : S → L → Option S} {K : S → L → Prop} {s₀ s : S}

/-- **The invariant rule.** -/
theorem Reaches.invariant (Inv : S → Prop) (h : Reaches step K s₀ s) (init : Inv s₀)
    (keep : ∀ s l s', Inv s → K s l → step s l = some s' → Inv s') : Inv s := by
  induction h with
  | refl => exact init
  | tail _ hstep ih =>
    obtain ⟨l, hl, hs⟩ := hstep
    exact keep _ l _ ih hl hs

/-- The steps of a list, one after another, each checked. -/
def run (step : S → L → Option S) (check : S → L → Bool) : S → List L → Option S
  | s, [] => some s
  | s, l :: ls =>
    if check s l then (step s l).bind fun s' => run step check s' ls else none

/-- A computed run whose checks imply the condition. -/
theorem reaches_of_run {check : S → L → Bool} (hcheck : ∀ s l, check s l = true → K s l)
    {ls : List L} {s' : S} (h : run step check s ls = some s') : Reaches step K s s' := by
  induction ls generalizing s with
  | nil =>
    cases h
    exact Relation.ReflTransGen.refl
  | cons l ls ih =>
    rw [run] at h
    split at h
    · next hl =>
      obtain ⟨mid, hs, hrest⟩ := Option.bind_eq_some_iff.mp h
      exact Relation.ReflTransGen.head ⟨l, hcheck s l hl, hs⟩ (ih hrest)
    · cases h

theorem exists_reaches_of_run {check : S → L → Bool} (hcheck : ∀ s l, check s l = true → K s l)
    {ls : List L} {p : S → Prop} [DecidablePred p]
    (h : (run step check s₀ ls).any (fun s => decide (p s)) = true) :
    ∃ s, Reaches step K s₀ s ∧ p s := by
  obtain ⟨s, hrun, hs⟩ := (Option.any_eq_true _ _).mp h
  exact ⟨s, reaches_of_run hcheck hrun, of_decide_eq_true hs⟩

/-- A computed run of arbitrary steps. -/
theorem exists_reaches (ls : List L) {p : S → Prop} [DecidablePred p]
    (h : (run step (fun _ _ => true) s₀ ls).any (fun s => decide (p s)) = true) :
    ∃ s, Reaches step anyStep s₀ s ∧ p s :=
  exists_reaches_of_run (fun _ _ _ => trivial) h

end Agentty.Machine
