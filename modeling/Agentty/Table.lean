/-
Keyed tables: what a repository sees of a SQL table with a primary key.

A table is a list of rows in insertion order whose keys are pairwise different;
the list is the order a `SELECT` without an `ORDER BY` would scan. The key is
not part of the row's value, so an `UPDATE` cannot change it and the uniqueness
of keys travels inside the type. Rows are never deleted here, so the next
`AUTOINCREMENT` key is one above the largest.

Every lemma below is about `get?`: proofs about the repository look at one row
at a time and never at the list.
-/
import Mathlib.Data.List.Nodup
import Mathlib.Tactic.Common

set_option autoImplicit false

namespace Agentty

open List

/-- Rows of `V` under pairwise different keys of `K`. -/
structure Table (K V : Type) where
  /-- The rows in insertion order. -/
  rows : List (K × V)
  /-- No two rows share a key. -/
  nodup : (rows.map Prod.fst).Nodup

namespace Table

variable {K V : Type}

def empty : Table K V := ⟨[], nodup_nil⟩

/-! ## Reading -/

/-- The row under a key, if there is one. -/
def get? [DecidableEq K] (t : Table K V) (k : K) : Option V :=
  (t.rows.find? fun row => row.1 = k).map Prod.snd

variable {t : Table K V} {k : K}

theorem get?_eq_some_iff [DecidableEq K] {v : V} : t.get? k = some v ↔ (k, v) ∈ t.rows := by
  obtain ⟨rows, hnd⟩ := t
  simp only [get?]
  induction rows with
  | nil => simp
  | cons row rows ih =>
    obtain ⟨k', v'⟩ := row
    rw [map_cons, nodup_cons] at hnd
    by_cases hk : k' = k
    · subst hk
      -- the head is the only row of this key
      have hnot : (k', v) ∉ rows := fun h => hnd.1 (mem_map.mpr ⟨_, h, rfl⟩)
      simp [hnot, eq_comm]
    · have hne : ¬ ((k, v) = (k', v')) := fun h => hk (congrArg Prod.fst h).symm
      simp [hk, hne, ih hnd.2]

theorem get?_eq_none_iff [DecidableEq K] : t.get? k = none ↔ k ∉ t.rows.map Prod.fst := by
  constructor
  · intro h hk
    obtain ⟨⟨k', v⟩, hmem, rfl⟩ := mem_map.mp hk
    rw [get?_eq_some_iff.mpr hmem] at h
    cases h
  · intro h
    cases hget : t.get? k with
    | none => rfl
    | some v => exact absurd (mem_map.mpr ⟨_, get?_eq_some_iff.mp hget, rfl⟩) h

/-! ## `UPDATE … SET … WHERE …` -/

/-- Rewrite every row that meets the `WHERE` clause. -/
def updateAll (t : Table K V) (p : K → V → Bool) (f : V → V) : Table K V where
  rows := t.rows.map fun row => (row.1, if p row.1 row.2 then f row.2 else row.2)
  nodup := by
    have : (Prod.fst ∘ fun row : K × V => (row.1, if p row.1 row.2 then f row.2 else row.2))
        = Prod.fst := rfl
    rw [map_map, this]
    exact t.nodup

theorem get?_updateAll [DecidableEq K] (t : Table K V) (p : K → V → Bool) (f : V → V) (k : K) :
    (t.updateAll p f).get? k = (t.get? k).map fun v => if p k v then f v else v := by
  ext v
  simp only [get?_eq_some_iff, Option.map_eq_some_iff, updateAll, mem_map, Prod.mk.injEq,
    Prod.exists]
  constructor
  · rintro ⟨k', v', hmem, rfl, rfl⟩
    exact ⟨v', hmem, rfl⟩
  · rintro ⟨v', hmem, rfl⟩
    exact ⟨k, v', hmem, rfl, rfl⟩

/-- Rewrite the row of one key if it meets the rest of the `WHERE` clause. -/
def update [DecidableEq K] (t : Table K V) (k : K) (p : V → Bool) (f : V → V) : Table K V :=
  t.updateAll (fun k' v => k' = k && p v) f

/-- Whether `update` finds a row: `rows_affected() == 1`. -/
def affects [DecidableEq K] (t : Table K V) (k : K) (p : V → Bool) : Bool := (t.get? k).any p

theorem get?_update [DecidableEq K] (t : Table K V) (k : K) (p : V → Bool) (f : V → V) (k' : K) :
    (t.update k p f).get? k'
      = if k' = k then (t.get? k').map fun v => if p v then f v else v else t.get? k' := by
  rw [update, get?_updateAll]
  by_cases hk : k' = k
  · simp [hk]
  · cases t.get? k' <;> simp [hk]

theorem get?_update_self [DecidableEq K] (t : Table K V) (k : K) (p : V → Bool) (f : V → V) :
    (t.update k p f).get? k = (t.get? k).map fun v => if p v then f v else v := by
  rw [get?_update, if_pos rfl]

@[simp] theorem affects_iff [DecidableEq K] {p : V → Bool} :
    t.affects k p = true ↔ ∃ v, t.get? k = some v ∧ p v = true := by
  simp [affects, Option.any_eq_true]

variable {p : K → V → Bool} {f : V → V}

/-- A row after an `UPDATE` of many rows: it was hit, or is what it was. -/
theorem exists_of_get?_updateAll [DecidableEq K] {v' : V} (h : (t.updateAll p f).get? k = some v') :
    ∃ v, t.get? k = some v ∧ ((p k v = true ∧ v' = f v) ∨ (p k v = false ∧ v' = v)) := by
  rw [get?_updateAll] at h
  obtain ⟨v, hv, rfl⟩ := Option.map_eq_some_iff.mp h
  refine ⟨v, hv, ?_⟩
  by_cases hp : p k v = true
  · exact .inl ⟨hp, if_pos hp⟩
  · exact .inr ⟨Bool.not_eq_true _ ▸ hp, if_neg hp⟩

theorem exists_of_get?_update [DecidableEq K] {k' : K} {p : V → Bool} {v' : V}
    (h : (t.update k p f).get? k' = some v') :
    ∃ v, t.get? k' = some v ∧
      ((k' = k ∧ p v = true ∧ v' = f v) ∨ (¬ (k' = k ∧ p v = true) ∧ v' = v)) := by
  obtain ⟨v, hv, ⟨hp, rfl⟩ | ⟨hp, rfl⟩⟩ := exists_of_get?_updateAll h
  · have hp : k' = k ∧ p v = true := by simpa using hp
    exact ⟨v, hv, .inl ⟨hp.1, hp.2, rfl⟩⟩
  · refine ⟨_, hv, .inr ⟨fun hkp => ?_, rfl⟩⟩
    simp [hkp.1, hkp.2] at hp

/-! ## `INSERT` -/

/-- Append a row under a key that is not in the table. -/
def insert [DecidableEq K] (t : Table K V) (k : K) (v : V) (h : t.get? k = none) : Table K V where
  rows := t.rows ++ [(k, v)]
  nodup := by
    rw [map_append]
    refine List.Nodup.append t.nodup (nodup_singleton _) ?_
    simpa using get?_eq_none_iff.mp h

theorem get?_insert [DecidableEq K] (t : Table K V) (k : K) (v : V) (h : t.get? k = none)
    (k' : K) : (t.insert k v h).get? k' = if k' = k then some v else t.get? k' := by
  ext v'
  rw [get?_eq_some_iff]
  simp only [insert, mem_append, mem_singleton, Prod.mk.injEq]
  by_cases hk : k' = k
  · subst hk
    have hnot : (k', v') ∉ t.rows := fun hm => by rw [get?_eq_some_iff.mpr hm] at h; cases h
    simp [hnot, eq_comm]
  · simp [hk, get?_eq_some_iff]

/-- The key the next `INSERT` of an `AUTOINCREMENT` table takes. -/
def nextId (t : Table Nat V) : Nat := (t.rows.map Prod.fst).foldr max 0 + 1

theorem le_foldr_max : ∀ {l : List Nat} {n : Nat}, n ∈ l → n ≤ l.foldr max 0
  | _ :: _, _, h => by
      rcases mem_cons.mp h with rfl | h
      · exact Nat.le_max_left _ _
      · exact Nat.le_trans (le_foldr_max h) (Nat.le_max_right _ _)

theorem get?_nextId (t : Table Nat V) : t.get? t.nextId = none := by
  refine get?_eq_none_iff.mpr fun h => ?_
  exact Nat.not_succ_le_self _ (le_foldr_max h)

/-- Append a row under the next `AUTOINCREMENT` key. -/
def push (t : Table Nat V) (v : V) : Table Nat V := t.insert t.nextId v t.get?_nextId

theorem get?_push (t : Table Nat V) (v : V) (k : Nat) :
    (t.push v).get? k = if k = t.nextId then some v else t.get? k :=
  get?_insert t _ v _ k

/-- A table that has grown out of another one: no row is lost. -/
def Grows [DecidableEq K] (t t' : Table K V) : Prop :=
  ∀ k v, t.get? k = some v → ∃ v', t'.get? k = some v'

theorem Grows.refl [DecidableEq K] (t : Table K V) : t.Grows t := fun _ v h => ⟨v, h⟩

theorem grows_updateAll [DecidableEq K] (t : Table K V) (p : K → V → Bool) (f : V → V) :
    t.Grows (t.updateAll p f) := fun k v h => by
  rw [get?_updateAll, h]
  exact ⟨_, rfl⟩

theorem grows_update [DecidableEq K] (t : Table K V) (k : K) (p : V → Bool) (f : V → V) :
    t.Grows (t.update k p f) := grows_updateAll t _ f

theorem grows_insert [DecidableEq K] (t : Table K V) (k : K) (v : V) (h : t.get? k = none) :
    t.Grows (t.insert k v h) := fun k' v' h' => by
  rw [get?_insert]
  split
  · exact ⟨v, rfl⟩
  · exact ⟨v', h'⟩

theorem grows_push (t : Table Nat V) (v : V) : t.Grows (t.push v) := grows_insert t _ v _

/-! ## `SELECT` -/

/-- The rows that meet the `WHERE` clause, with their keys, in table order. -/
def select (t : Table K V) (p : K → V → Bool) : List (K × V) :=
  t.rows.filter fun row => p row.1 row.2

theorem mem_select [DecidableEq K] {v : V} :
    (k, v) ∈ t.select p ↔ t.get? k = some v ∧ p k v = true := by
  rw [select, mem_filter, get?_eq_some_iff]

theorem nodup_select (t : Table K V) (p : K → V → Bool) :
    ((t.select p).map Prod.fst).Nodup :=
  t.nodup.sublist (List.Sublist.map _ filter_sublist)

theorem ext_rows {t' : Table K V} (h : t.rows = t'.rows) : t = t' := by
  cases t
  cases t'
  cases h
  rfl

theorem updateAll_of_select (h : t.select p = []) (f : V → V) : t.updateAll p f = t := by
  refine ext_rows ?_
  have hnone : ∀ row ∈ t.rows, p row.1 row.2 = false := fun row hrow => by
    simpa using filter_eq_nil_iff.mp h row hrow
  have hmap : ∀ row ∈ t.rows, (row.1, if p row.1 row.2 then f row.2 else row.2) = row :=
    fun row hrow => by simp [hnone row hrow]
  exact (map_congr_left hmap).trans (map_id' _)

theorem select_key_eq_nil_iff [DecidableEq K] {p : V → Bool} :
    t.select (fun k' v => k' = k && p v) = [] ↔ t.affects k p = false := by
  rw [← Bool.not_eq_true, affects_iff, eq_nil_iff_forall_not_mem]
  constructor
  · rintro h ⟨v, hv, hp⟩
    exact h (k, v) (mem_select.mpr ⟨hv, by simp [hp]⟩)
  · rintro h ⟨k', v⟩ hmem
    obtain ⟨hv, htest⟩ := mem_select.mp hmem
    simp only [Bool.and_eq_true, decide_eq_true_eq] at htest
    obtain ⟨rfl, hp⟩ := htest
    exact h ⟨v, hv, hp⟩

/-- A `SELECT` that does not look at what an `UPDATE` writes. -/
theorem select_updateAll {q : K → V → Bool} (h : ∀ k v, p k (f v) = p k v) :
    (t.updateAll q f).select p
      = (t.select p).map fun row => (row.1, if q row.1 row.2 then f row.2 else row.2) := by
  simp only [select, updateAll, filter_map]
  congr 1
  refine filter_congr fun row _ => ?_
  simp only [Function.comp_apply]
  split
  · exact h _ _
  · rfl

theorem select_push (t : Table Nat V) (p : Nat → V → Bool) (v : V) :
    (t.push v).select p = t.select p ++ if p t.nextId v then [(t.nextId, v)] else [] := by
  simp only [select, push, insert, filter_append, filter_cons, filter_nil]

/-! ## Ascending keys -/

/-- Keys in insertion order ascend from one, as those of an `AUTOINCREMENT` table do. -/
def Ascending (t : Table Nat V) : Prop := (0 :: t.rows.map Prod.fst).Pairwise (· < ·)

theorem lt_nextId {t : Table Nat V} {row : Nat × V} (h : row ∈ t.rows) : row.1 < t.nextId :=
  Nat.lt_succ_of_le (le_foldr_max (mem_map_of_mem h))

theorem ascending_empty : (empty : Table Nat V).Ascending := pairwise_singleton _ _

section

variable {t : Table Nat V} (h : t.Ascending)

include h

theorem Ascending.pos {row : Nat × V} (hrow : row ∈ t.rows) : 0 < row.1 :=
  (pairwise_cons.mp h).1 row.1 (mem_map_of_mem hrow)

theorem Ascending.push (v : V) : (t.push v).Ascending := by
  simp only [Ascending, Table.push, insert, map_append, map_cons, map_nil,
    ← cons_append]
  refine pairwise_append.mpr ⟨h, pairwise_singleton _ _, fun a ha b hb => ?_⟩
  rw [mem_singleton.mp hb]
  rcases mem_cons.mp ha with rfl | ha
  · exact Nat.succ_pos _
  · obtain ⟨row, hrow, rfl⟩ := mem_map.mp ha
    exact lt_nextId hrow

theorem Ascending.updateAll (p : Nat → V → Bool) (f : V → V) : (t.updateAll p f).Ascending := by
  simpa [Ascending, Table.updateAll, map_map, Function.comp_def] using h

theorem Ascending.select (p : Nat → V → Bool) : ((t.select p).map Prod.fst).Pairwise (· < ·) :=
  (pairwise_cons.mp h).2.sublist (List.Sublist.map _ filter_sublist)

end

end Table

end Agentty
