/-
The title of a session.

A title is set by the user, set provisionally, or generated. Setting one and beginning a
generation take the next number of the session; a generated title is applied if nothing of
its number or a greater one was applied before it arrives. Every database statement is one
step, and results arrive in any order, late or repeatedly. The numbers are unbounded here.
-/
import Agentty.Machine

set_option autoImplicit false

namespace Agentty.Session.Titles

/-- The title columns of a session. -/
structure SessionRow where
  title : Option String
  is_title_provisional : Bool
  title_generation : Nat
  applied_title_generation : Nat
  deriving DecidableEq, Repr

def set_title (is_title_provisional : Bool) (row : SessionRow) (title : String) : SessionRow where
  title := some title
  is_title_provisional
  title_generation := row.title_generation + 1
  applied_title_generation := row.title_generation + 1

def update_session_title : SessionRow → String → SessionRow := set_title false

def update_session_provisional_title : SessionRow → String → SessionRow := set_title true

/-- The row with the number that is returned, if there is one to update. -/
def begin_session_title_generation (row : SessionRow) (requires_provisional_title : Bool) :
    Option SessionRow :=
  if requires_provisional_title ∧ ¬ row.is_title_provisional then none
  else some { row with
    is_title_provisional := true
    title_generation := row.title_generation + 1 }

def update_session_title_for_generation (row : SessionRow) (expected_generation : Nat)
    (title : String) : Option SessionRow :=
  if expected_generation ≤ row.title_generation ∧ row.applied_title_generation < expected_generation
  then some { row with
    title := some title
    is_title_provisional := false
    applied_title_generation := expected_generation }
  else none

/-- A session, and the updates of its title that were applied, the newest first. -/
structure State where
  row : SessionRow
  applied : List (Nat × String)

/-- One statement. Nothing is assumed of the number that a result comes with. -/
inductive Label where
  | update (title : String)
  | update_provisional (title : String)
  | begin_generation (requires_provisional_title : Bool)
  | generated (expected_generation : Nat) (title : String)

def State.apply (s : State) (title : String) (row : SessionRow) : State :=
  ⟨row, (row.applied_title_generation, title) :: s.applied⟩

def step (s : State) : Label → Option State
  | .update title => some (s.apply title (update_session_title s.row title))
  | .update_provisional title => some (s.apply title (update_session_provisional_title s.row title))
  | .begin_generation requires_provisional_title => some
    { s with row := (begin_session_title_generation s.row requires_provisional_title).getD s.row }
  | .generated expected_generation title => some
    ((update_session_title_for_generation s.row expected_generation title).elim s (s.apply title))

structure Inv (s : State) : Prop where
  bounded : s.row.applied_title_generation ≤ s.row.title_generation
  below : ∀ update ∈ s.applied, update.1 ≤ s.row.applied_title_generation
  increasing : s.applied.Pairwise fun newer older => older.1 < newer.1
  shown : ∀ update ∈ s.applied.head?,
    update.1 = s.row.applied_title_generation ∧ s.row.title = some update.2

variable {s s' : State} {l : Label}

/-- A title is applied under a number above that of the one before. -/
theorem Inv.apply (h : Inv s) {title : String} {row : SessionRow}
    (hlt : s.row.applied_title_generation < row.applied_title_generation)
    (hle : row.applied_title_generation ≤ row.title_generation) (htitle : row.title = some title) :
    Inv (s.apply title row) := by
  have hnewest : ∀ update ∈ s.applied, update.1 < row.applied_title_generation :=
    fun update hupdate => Nat.lt_of_le_of_lt (h.below update hupdate) hlt
  refine ⟨hle, ?_, List.pairwise_cons.mpr ⟨hnewest, h.increasing⟩, ?_⟩
  · intro update hupdate
    rcases List.mem_cons.mp hupdate with rfl | hupdate
    · exact Nat.le_refl _
    · exact Nat.le_of_lt (hnewest update hupdate)
  · rintro update ⟨⟩
    exact ⟨rfl, htitle⟩

theorem Inv.step (h : Inv s) (hstep : step s l = some s') :
    Inv s' ∧ s.row.applied_title_generation ≤ s'.row.applied_title_generation := by
  have hbounded := h.bounded
  cases l with
  | update title | update_provisional title =>
    cases hstep
    have hlt : s.row.applied_title_generation < s.row.title_generation + 1 := by omega
    exact ⟨h.apply hlt (Nat.le_refl _) rfl, Nat.le_of_lt hlt⟩
  | begin_generation requires_provisional_title =>
    cases hstep
    unfold begin_session_title_generation
    split
    · exact ⟨h, Nat.le_refl _⟩
    · exact ⟨⟨Nat.le_succ_of_le hbounded, h.below, h.increasing, h.shown⟩, Nat.le_refl _⟩
  | generated expected_generation title =>
    cases hstep
    unfold update_session_title_for_generation
    split
    · next hnew => exact ⟨h.apply hnew.2 hnew.1 rfl, Nat.le_of_lt hnew.2⟩
    · exact ⟨h, Nat.le_refl _⟩

theorem inv_new (title : Option String) (is_title_provisional : Bool) :
    Inv ⟨⟨title, is_title_provisional, 0, 0⟩, []⟩ := by
  constructor <;> simp

theorem reaches_inv (h : Inv s) (hreach : Machine.Reaches step Machine.anyStep s s') :
    Inv s' ∧ s.row.applied_title_generation ≤ s'.row.applied_title_generation := by
  refine hreach.invariant (fun s' => Inv s' ∧
    s.row.applied_title_generation ≤ s'.row.applied_title_generation) ⟨h, Nat.le_refl _⟩ ?_
  intro s₁ l s₂ h₁ _ hstep
  obtain ⟨h₂, hle⟩ := h₁.1.step hstep
  exact ⟨h₂, Nat.le_trans h₁.2 hle⟩

/-- After a title was set, the numbers of the generations begun before stay below. -/
theorem rejected_after_set (h : Inv s) {provisional : Bool} {set : String}
    (hreach : Machine.Reaches step Machine.anyStep
      (s.apply set (set_title provisional s.row set)) s')
    {begun : Nat} (hbegun : begun ≤ s.row.title_generation) (late : String) :
    update_session_title_for_generation s'.row begun late = none := by
  have hset : Inv (s.apply set (set_title provisional s.row set)) :=
    h.apply (Nat.lt_succ_of_le h.bounded) (Nat.le_refl _) rfl
  have hlt : s.row.title_generation < s'.row.applied_title_generation :=
    (reaches_inv hset hreach).2
  rw [update_session_title_for_generation, if_neg]
  omega

/-- **Titles are applied in the order of their numbers**, in every run: the row shows the
applied title of the greatest number, and a title that was set is never replaced by the
result of a generation that had begun before. -/
theorem titles_applied_in_order {title : Option String} {is_title_provisional : Bool}
    (h : Machine.Reaches step Machine.anyStep ⟨⟨title, is_title_provisional, 0, 0⟩, []⟩ s) :
    s.row.applied_title_generation ≤ s.row.title_generation ∧
    s.applied.Pairwise (fun newer older => older.1 < newer.1) ∧
    (∀ update ∈ s.applied.head?,
      update.1 = s.row.applied_title_generation ∧ s.row.title = some update.2) ∧
    ∀ provisional set s', Machine.Reaches step Machine.anyStep
      (s.apply set (set_title provisional s.row set)) s' →
      ∀ begun ≤ s.row.title_generation, ∀ late,
        update_session_title_for_generation s'.row begun late = none := by
  have hs := (reaches_inv (inv_new title is_title_provisional) h).1
  exact ⟨hs.bounded, hs.increasing, hs.shown, fun _ _ _ hset _ hbegun late =>
    rejected_after_set hs hset hbegun late⟩

/-- A generation is begun, the user sets a title, and the result is late. -/
theorem titles_applied_in_order_late : ∃ s,
    Machine.Reaches step Machine.anyStep ⟨⟨none, true, 0, 0⟩, []⟩ s ∧
    s.applied = [(2, "mine")] ∧ s.row.applied_title_generation ≤ s.row.title_generation := by
  have hrun : (Machine.run step (fun _ _ => true) ⟨⟨none, true, 0, 0⟩, []⟩
      [.begin_generation true, .update "mine", .generated 1 "late"]).any
      (fun s => s.applied = [(2, "mine")]) = true := by
    decide
  obtain ⟨s, hreach, happlied⟩ := Machine.exists_reaches _ hrun
  exact ⟨s, hreach, happlied, (titles_applied_in_order hreach).1⟩

/-- An applied update whose number is the greatest is the newest one. -/
theorem Inv.title_of_greatest (h : Inv s) {update : Nat × String} (hupdate : update ∈ s.applied)
    (hgreatest : ∀ other ∈ s.applied, other.1 ≤ update.1) : s.row.title = some update.2 := by
  obtain ⟨newest, older, happlied⟩ := List.exists_cons_of_ne_nil (List.ne_nil_of_mem hupdate)
  have hincreasing := h.increasing
  have hshown := (h.shown newest (by rw [happlied]; rfl)).2
  rw [happlied] at hincreasing hupdate hgreatest
  rcases List.mem_cons.mp hupdate with rfl | hupdate
  · exact hshown
  · have hlt := (List.pairwise_cons.mp hincreasing).1 update hupdate
    have hle := hgreatest newest List.mem_cons_self
    omega

/-- **The stored title is that of the applied update of the greatest generation**, and the one
that the session had as long as none was applied. The applied generation is at most the
session's and does not decrease, and the result of a generation that was begun before a title
was set has no effect in any later state. -/
theorem title_of_greatest_generation {title : Option String} {is_title_provisional : Bool}
    (h : Machine.Reaches step Machine.anyStep ⟨⟨title, is_title_provisional, 0, 0⟩, []⟩ s) :
    (s.applied = [] → s.row.title = title) ∧
    (∀ update ∈ s.applied, (∀ other ∈ s.applied, other.1 ≤ update.1) →
      s.row.title = some update.2) ∧
    s.row.applied_title_generation ≤ s.row.title_generation ∧
    (∀ s', Machine.Reaches step Machine.anyStep s s' →
      s.row.applied_title_generation ≤ s'.row.applied_title_generation) ∧
    ∀ l new, l = .update new ∨ l = .update_provisional new → ∀ s₁, step s l = some s₁ →
      ∀ s', Machine.Reaches step Machine.anyStep s₁ s' →
        ∀ begun ≤ s.row.title_generation, ∀ late, step s' (.generated begun late) = some s' := by
  have hs := (reaches_inv (inv_new title is_title_provisional) h).1
  refine ⟨?_, fun _ => hs.title_of_greatest, hs.bounded,
    fun _ hlater => (reaches_inv hs hlater).2, ?_⟩
  · refine h.invariant (fun s => s.applied = [] → s.row.title = title) (fun _ => rfl) ?_
    intro s₁ l s₂ h₁ _ hstep
    cases l with
    | update | update_provisional =>
      cases hstep
      rintro ⟨⟩
    | begin_generation =>
      cases hstep
      unfold begin_session_title_generation
      split <;> exact h₁
    | generated =>
      cases hstep
      unfold update_session_title_for_generation
      split
      · rintro ⟨⟩
      · exact h₁
  · rintro l new (rfl | rfl) s₁ hstep s' hreach begun hbegun late
    all_goals
      cases hstep
      have hnone := rejected_after_set hs hreach hbegun late
      simp only [step, hnone, Option.elim_none]

theorem title_of_greatest_generation_set : ∃ s s',
    Machine.Reaches step Machine.anyStep ⟨⟨some "first", true, 0, 0⟩, []⟩ s ∧
    step s (.update "mine") = some s' ∧ s.row.title_generation = 1 ∧
    step s' (.generated 1 "late") = some s' ∧ s'.row.title = some "mine" := by
  have hrun : (Machine.run step (fun _ _ => true) ⟨⟨some "first", true, 0, 0⟩, []⟩
      [.begin_generation true]).any (fun s => s.row.title_generation = 1) = true := by
    decide
  obtain ⟨s, hreach, hgeneration⟩ := Machine.exists_reaches _ hrun
  have hrejected := (title_of_greatest_generation hreach).2.2.2.2 (.update "mine") "mine" (.inl rfl)
    _ rfl _ .refl 1 (Nat.le_of_eq hgeneration.symm) "late"
  exact ⟨s, _, hreach, rfl, hgeneration, hrejected, rfl⟩

end Agentty.Session.Titles
