/-
Chains of parents in an arbitrary parent relation.

`link v` is what is known of `v`: nothing, or that it is a root, or its parent. A parent may
be unknown and the relation may have cycles; a chain is a way up that ends at a root, and so
it exists for those vertices only whose ancestors are all known and lie on no cycle.

Two changes of a relation are treated: a leaf is linked anew (`chain_iff_of_leaf`), and some
vertices become roots (`Chain.of_cut`).
-/
import Mathlib.Data.List.Nodup
import Mathlib.Logic.Relation

set_option autoImplicit false

namespace Agentty

open List

variable {V : Type}

/-- The way from a vertex up to its root. -/
inductive Chain (link : V → Option (Option V)) : V → List V → Prop
  | root {v : V} : link v = some none → Chain link v [v]
  | up {v p : V} {c : List V} : link v = some (some p) → Chain link p c → Chain link v (v :: c)

/-- The vertex at the end of the way up. -/
def Root (link : V → Option (Option V)) (v r : V) : Prop :=
  ∃ c, Chain link v c ∧ c.getLast? = some r

/-- No vertex is an ancestor of itself. -/
def Acyclic (link : V → Option (Option V)) : Prop :=
  ∀ v, ¬ Relation.TransGen (fun v p => link v = some (some p)) v v

variable {link link' : V → Option (Option V)}

namespace Chain

variable {v u r : V} {c c' : List V}

section

variable (h : Chain link v c)

include h

theorem ne_nil : c ≠ [] := by
  cases h <;> exact cons_ne_nil _ _

theorem unique (h' : Chain link v c') : c = c' := by
  induction h generalizing c' with
  | root hv =>
    cases h' with
    | root _ => rfl
    | up hv' _ =>
      rw [hv] at hv'
      cases hv'
  | up hv _ ih =>
    cases h' with
    | root hv' =>
      rw [hv] at hv'
      cases hv'
    | up hv' h' =>
      rw [hv] at hv'
      cases hv'
      rw [ih h']

theorem of_mem (hu : u ∈ c) : ∃ c', Chain link u c' ∧ c' <:+ c := by
  induction h with
  | root hv =>
    obtain rfl := mem_singleton.mp hu
    exact ⟨_, .root hv, suffix_refl _⟩
  | up hv h ih =>
    rcases mem_cons.mp hu with rfl | hu
    · exact ⟨_, .up hv h, suffix_refl _⟩
    · obtain ⟨c', hc', hsuffix⟩ := ih hu
      exact ⟨c', hc', hsuffix.trans (suffix_cons _ _)⟩

/-- A vertex that occurred again would have a chain that is its own proper part. -/
theorem nodup : c.Nodup := by
  induction h with
  | root _ => exact nodup_singleton _
  | up hv h ih =>
    refine nodup_cons.mpr ⟨?_, ih⟩
    intro hmem
    obtain ⟨c', hc', hsuffix⟩ := h.of_mem hmem
    have hlength := hsuffix.length_le
    rw [hc'.unique (.up hv h), length_cons] at hlength
    omega

theorem isSome : ∀ u ∈ c, (link u).isSome := by
  induction h with
  | root hv =>
    intro u hu
    rw [mem_singleton.mp hu, hv]
    rfl
  | up hv _ ih =>
    intro u hu
    rcases mem_cons.mp hu with rfl | hu
    · rw [hv]
      rfl
    · exact ih u hu

end

/-- Some vertices become roots, all of them with a chain before: the old chains are those of
before, and no shorter. -/
theorem of_cut (hcut : ∀ u, link' u ≠ link u → link' u = some none ∧ ∃ c, Chain link u c)
    (h : Chain link' v c') : ∃ c, Chain link v c ∧ c'.length ≤ c.length := by
  induction h with
  | @root v hv =>
    by_cases hsame : link' v = link v
    · exact ⟨_, .root (hsame ▸ hv), Nat.le_refl _⟩
    · obtain ⟨-, c, hc⟩ := hcut v hsame
      refine ⟨c, hc, ?_⟩
      exact length_pos_iff.mpr hc.ne_nil
  | @up v p c' hv _ ih =>
    obtain ⟨c, hc, hlength⟩ := ih
    have hsame : link' v = link v := by
      by_contra hne
      rw [(hcut v hne).1] at hv
      cases hv
    exact ⟨_, .up (hsame ▸ hv) hc, Nat.succ_le_succ hlength⟩

end Chain

namespace Root

variable {v r r' : V}

theorem unique (h : Root link v r) (h' : Root link v r') : r = r' := by
  obtain ⟨c, hc, hlast⟩ := h
  obtain ⟨c', hc', hlast'⟩ := h'
  rw [hc.unique hc', hlast'] at hlast
  exact (Option.some.inj hlast).symm

theorem up {p : V} (hv : link v = some (some p)) (h : Root link p r) : Root link v r := by
  obtain ⟨c, hc, hlast⟩ := h
  refine ⟨v :: c, .up hv hc, ?_⟩
  rw [getLast?_cons_of_ne_nil hc.ne_nil]
  exact hlast

theorem of_chain {c : List V} (h : Chain link v c) : ∃ r, Root link v r :=
  ⟨_, c, h, getLast?_eq_some_getLast h.ne_nil⟩

/-- After some vertices became roots, two vertices of one root had one root before. -/
theorem of_cut (hcut : ∀ u, link' u ≠ link u → link' u = some none ∧ ∃ c, Chain link u c)
    (h : Root link' v r') : ∃ r, Root link v r ∧ Root link r' r := by
  obtain ⟨c', hc', hlast⟩ := h
  induction hc' with
  | @root v hv =>
    obtain rfl : v = r' := by simpa using hlast
    by_cases hsame : link' v = link v
    · obtain ⟨r, hr⟩ := of_chain (.root (hsame ▸ hv) : Chain link v [v])
      exact ⟨r, hr, hr⟩
    · obtain ⟨-, c, hc⟩ := hcut v hsame
      obtain ⟨r, hr⟩ := of_chain hc
      exact ⟨r, hr, hr⟩
  | @up v p c' hv hc' ih =>
    rw [getLast?_cons_of_ne_nil hc'.ne_nil] at hlast
    obtain ⟨r, hp, hr'⟩ := ih hlast
    have hsame : link' v = link v := by
      by_contra hne
      rw [(hcut v hne).1] at hv
      cases hv
    exact ⟨r, hp.up (hsame ▸ hv), hr'⟩

end Root

section leaf

variable {s : V}

section

variable (hoff : ∀ u, u ≠ s → link' u = link u) (hleaf : ∀ u, link u ≠ some (some s))

include hoff hleaf

theorem chain_iff_of_leaf {v : V} (hv : v ≠ s) {c : List V} : Chain link' v c ↔ Chain link v c := by
  constructor
  · intro h
    induction h with
    | root hlink => exact .root (hoff _ hv ▸ hlink)
    | @up v p c hlink _ ih =>
      rw [hoff v hv] at hlink
      apply Chain.up hlink
      apply ih
      rintro rfl
      exact hleaf v hlink
  · intro h
    induction h with
    | root hlink => exact .root ((hoff _ hv).trans hlink)
    | @up v p c hlink _ ih =>
      apply Chain.up ((hoff v hv).trans hlink)
      apply ih
      rintro rfl
      exact hleaf v hlink

theorem root_iff_of_leaf {v r : V} (hv : v ≠ s) : Root link' v r ↔ Root link v r := by
  unfold Root
  simp only [chain_iff_of_leaf hoff hleaf hv]

end

/-- A leaf that is linked anew, and not to itself, closes no cycle. -/
theorem Acyclic.of_leaf (h : Acyclic link) (hoff : ∀ u, u ≠ s → link' u = link u)
    (hleaf : ∀ u, link u ≠ some (some s)) (hself : link' s ≠ some (some s)) :
    Acyclic link' := by
  -- no link ends at the leaf, so a way between other vertices is one of before
  have htarget : ∀ u p, link' u = some (some p) → p ≠ s := by
    rintro u p hlink rfl
    by_cases hu : u = p
    · subst hu
      exact hself hlink
    · rw [hoff u hu] at hlink
      exact hleaf u hlink
  have hway : ∀ v w, v ≠ s → Relation.TransGen (fun v p => link' v = some (some p)) v w →
      Relation.TransGen (fun v p => link v = some (some p)) v w ∧ w ≠ s := by
    intro v w hv hw
    induction hw with
    | single hlink =>
      refine ⟨.single ?_, htarget _ _ hlink⟩
      rwa [hoff _ hv] at hlink
    | tail _ hlink ih =>
      refine ⟨ih.1.tail ?_, htarget _ _ hlink⟩
      rwa [hoff _ ih.2] at hlink
  intro v hcycle
  have hv : v ≠ s := by
    rcases Relation.TransGen.tail'_iff.mp hcycle with ⟨u, -, hlink⟩
    exact htarget u v hlink
  exact h v (hway v v hv hcycle).1

end leaf

end Agentty
