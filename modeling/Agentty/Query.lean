/-
What a `SELECT` does with the rows it has found: `ORDER BY` and aggregates. And what a
transaction that commits has done: each of its steps has succeeded.

Sorting is insertion sort, which is stable and evaluates. The lemmas are about rows
that are already in order, because rows of an append-only table are found that way.
-/
import Mathlib.Data.List.Sort
import Mathlib.Data.List.Induction

set_option autoImplicit false

namespace Agentty.Query

open List

variable {α : Type}

/-- `ORDER BY`: `before` is the order asked for. -/
def order_by (before : α → α → Prop) [DecidableRel before] (rows : List α) : List α :=
  rows.insertionSort before

variable {before : α → α → Prop} {rows : List α}

theorem order_by_eq [DecidableRel before] (h : rows.Pairwise before) :
    order_by before rows = rows :=
  h.insertionSort_eq

/-- A row that belongs after all others is inserted at the end. -/
theorem orderedInsert_last [DecidableRel before] {a : α} (h : ∀ b ∈ rows, ¬ before a b) :
    rows.orderedInsert before a = rows ++ [a] := by
  induction rows with
  | nil => rfl
  | cons b rows ih =>
    rw [orderedInsert_of_not_le before rows (h b mem_cons_self),
      ih fun c hc => h c (mem_cons_of_mem _ hc), cons_append]

theorem order_by_reverse [DecidableRel before] (h : rows.Pairwise fun a b => ¬ before a b) :
    order_by before rows = rows.reverse := by
  induction rows with
  | nil => rfl
  | cons a rows ih =>
    obtain ⟨ha, h⟩ := pairwise_cons.mp h
    have hrest : rows.insertionSort before = rows.reverse := ih h
    rw [order_by, insertionSort_cons, hrest, reverse_cons]
    exact orderedInsert_last fun b hb => ha b (mem_reverse.mp hb)

theorem max?_ascending {ns : List Nat} (h : ns.Pairwise (· < ·)) : ns.max? = ns.getLast? := by
  cases ns using reverseRecOn with
  | nil => rfl
  | append_singleton ns n =>
    rw [getLast?_concat, max?_eq_some_iff]
    refine ⟨by simp, fun m hm => ?_⟩
    rcases mem_append.mp hm with hm | hm
    · exact Nat.le_of_lt ((pairwise_append.mp h).2.2 m hm n (mem_singleton_self n))
    · exact Nat.le_of_eq (mem_singleton.mp hm)

/-! ## Transactions -/

section Transactions

variable {ε β : Type}

/-- A transaction that commits has committed its first step. -/
theorem bind_eq_ok {result : Except ε α} {f : α → Except ε β} {b : β} :
    (result >>= f) = .ok b ↔ ∃ a, result = .ok a ∧ f a = .ok b := by
  cases result with
  | error | ok => simp [bind, Except.bind]

/-- A transaction that commits has passed the check that could have ended it. -/
theorem guard_eq_ok {passed : Bool} {error : ε} {f : PUnit → Except ε α} {rest : Except ε α} {a : α}
    (h : (if (!passed) = true then throw error >>= f else rest) = .ok a) :
    passed = true ∧ rest = .ok a := by
  cases passed with
  | false => cases h
  | true => exact ⟨rfl, h⟩

end Transactions

end Agentty.Query
