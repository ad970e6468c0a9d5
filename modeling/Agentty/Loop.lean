/-
Loops that may not end.

A loop is a body that either goes on with another state or ends with a result, run with a
number of turns. It has no result if the turns run out, so that a statement that it has one
says that the loop ends. `loop_ends` is the rule of a falling measure. A test over a list that
rests on such loops ends if it ends for every element.
-/
import Mathlib.Tactic.Common

set_option autoImplicit false

namespace Agentty

open List

variable {σ ρ : Type}

/-- A loop that is given a number of turns. -/
def loop (body : σ → σ ⊕ ρ) : Nat → σ → Option ρ
  | 0, _ => none
  | fuel + 1, s =>
    match body s with
    | .inl s' => loop body fuel s'
    | .inr r => some r

variable {body : σ → σ ⊕ ρ}

variable {s : σ}

theorem loop_inl {s' : σ} (fuel : Nat) (h : body s = .inl s') :
    loop body (fuel + 1) s = loop body fuel s' := by
  simp only [loop, h]

theorem loop_inr {r : ρ} (fuel : Nat) (h : body s = .inr r) : loop body (fuel + 1) s = some r := by
  simp only [loop, h]

/-- A loop ends if each turn that goes on makes a measure smaller. -/
theorem loop_ends (Inv : σ → Prop) (measure : σ → Nat)
    (hbody : ∀ s s', Inv s → body s = .inl s' → Inv s' ∧ measure s' < measure s) {fuel : Nat}
    (hs : Inv s) (hfuel : measure s < fuel) : (loop body fuel s).isSome := by
  induction fuel generalizing s with
  | zero => exact absurd hfuel (Nat.not_lt_zero _)
  | succ fuel ih =>
    cases hb : body s with
    | inl s' =>
      obtain ⟨hs', hless⟩ := hbody s s' hs hb
      rw [loop_inl fuel hb]
      apply ih hs'
      omega
    | inr r =>
      rw [loop_inr fuel hb]
      rfl

/-! ## Tests that may not end -/

variable {α : Type} {test : α → Option Bool}

variable {l : List α}

theorem filterAuxM_of_isSome (h : ∀ a ∈ l, (test a).isSome) (acc : List α) :
    l.filterAuxM test acc =
      some ((l.filter fun a => (test a).getD false).reverse ++ acc) := by
  induction l generalizing acc with
  | nil => rfl
  | cons a l ih =>
    obtain ⟨answer, hanswer⟩ := Option.isSome_iff_exists.mp (h a mem_cons_self)
    have hrest : ∀ a ∈ l, (test a).isSome := fun a ha => h a (mem_cons_of_mem _ ha)
    have hstep : (a :: l).filterAuxM test acc =
        l.filterAuxM test (bif answer then a :: acc else acc) := by
      simp only [filterAuxM, hanswer]
      rfl
    rw [hstep, ih hrest, filter_cons, hanswer]
    cases answer <;> simp

theorem filterM_of_isSome (h : ∀ a ∈ l, (test a).isSome) :
    l.filterM test = some (l.filter fun a => (test a).getD false) := by
  simp [filterM, filterAuxM_of_isSome h]

theorem anyM_isSome (h : ∀ a ∈ l, (test a).isSome) : (l.anyM test).isSome := by
  induction l with
  | nil => rfl
  | cons a l ih =>
    obtain ⟨answer, hanswer⟩ := Option.isSome_iff_exists.mp (h a mem_cons_self)
    rw [anyM, hanswer]
    cases answer with
    | true => rfl
    | false => exact ih fun a ha => h a (mem_cons_of_mem _ ha)

end Agentty
