/-
Status updates of one session, and the reload of the session list.

`update_status` checks and sets the status of the session's handle under a lock, and writes the
database after the lock is released. A reload reads the row of the session, then the status of
the handle, and sets the handle to what it makes of the two, under a second lock. The lock is
held for no two of these steps, so any of them may stand between two others.

The database follows the handle only as long as the writes are made in the order of the sets
(`InOrder`), and a reload undoes no transition only as long as none falls between its own
steps (`Apart`). The code enforces neither.
-/
import Mathlib.Data.List.Chain
import Agentty.System
import Agentty.Machine
import Agentty.Orchestration.Status

set_option autoImplicit false

namespace Agentty.Session.StatusUpdates

open List

open Orchestration (SessionStatus)

/-! ## Updates -/

structure Status where
  /-- the status of the handle -/
  memory : SessionStatus
  /-- the writes of the updates that have set the handle, in the order of the sets -/
  pending : List SessionStatus
  /-- the persisted statuses, newest first -/
  persisted : List SessionStatus
  deriving DecidableEq, Repr

/-- A session that is loaded with the status of its row. -/
def Status.new (status : SessionStatus) : Status := ⟨status, [], [status]⟩

inductive Update where
  /-- The check and the set of a new call; a call that fails the check returns. -/
  | check_and_set (new : SessionStatus)
  /-- `update_session_status_with_timing_at` of the call that was the `i`th to set the handle
  among those that have not written -/
  | write (i : Nat)
  deriving DecidableEq, Repr

def update_status (s : Status) : Update → Option Status
  | .check_and_set new =>
    if s.memory.can_transition_to new then
      some { s with memory := new, pending := s.pending ++ [new] }
    else some s
  | .write i =>
    (s.pending[i]?).map fun new =>
      { s with pending := s.pending.eraseIdx i, persisted := new :: s.persisted }

/-- The writes are made in the order of the sets. -/
def InOrder (_ : Status) (update : Update) : Prop :=
  ∀ i, update = .write i → i = 0

def Allowed (newer older : SessionStatus) : Prop := older.can_transition_to newer = true

/-- The pending writes lead, by allowed transitions, from the persisted status to that of the
handle. -/
structure Inv (s : Status) : Prop where
  chain : (s.pending.reverse ++ s.persisted).IsChain Allowed
  head : (s.pending.reverse ++ s.persisted).head? = some s.memory

theorem inv_new (status : SessionStatus) : Inv (Status.new status) :=
  ⟨isChain_singleton status, rfl⟩

theorem update_inv {s s' : Status} {update : Update} (hs : Inv s) (hk : InOrder s update)
    (h : update_status s update = some s') : Inv s' := by
  cases update with
  | check_and_set new =>
    rw [update_status] at h
    split at h
    · next hallowed =>
      cases h
      refine ⟨?_, ?_⟩
      · simp only [reverse_append, reverse_singleton, cons_append,
          nil_append]
        -- the new status follows that of the handle, which heads the chain
        rw [isChain_cons]
        refine ⟨?_, hs.chain⟩
        intro older holder
        rw [hs.head] at holder
        cases holder
        exact hallowed
      · simp
    · cases h
      exact hs
  | write i =>
    obtain rfl := hk i rfl
    obtain ⟨new, hnew, rfl⟩ := Option.map_eq_some_iff.mp h
    -- the oldest pending write becomes the newest persisted one: the chain is the same
    have hlist : (s.pending.eraseIdx 0).reverse ++ new :: s.persisted =
        s.pending.reverse ++ s.persisted := by
      cases hpending : s.pending with
      | nil => simp [hpending] at hnew
      | cons =>
        rw [hpending, getElem?_cons_zero] at hnew
        cases hnew
        simp
    refine ⟨?_, ?_⟩
    · rw [hlist]
      exact hs.chain
    · rw [hlist]
      exact hs.head

/-- In every run whose writes are made in the order of the sets, the persisted statuses follow
allowed transitions, and once all updates have returned the persisted status is that of the
handle. -/
theorem persisted_follows_handle (status : SessionStatus) (s : Status)
    (h : Machine.Reaches update_status InOrder (Status.new status) s) :
    s.persisted.IsChain Allowed ∧ (s.pending = [] → s.persisted.head? = some s.memory) := by
  have hs : Inv s := h.invariant Inv (inv_new status) fun _ _ _ hs hk hstep =>
      update_inv hs hk hstep
  refine ⟨?_, ?_⟩
  · exact hs.chain.right_of_append
  · intro hpending
    have hhead := hs.head
    rwa [hpending, reverse_nil, nil_append] at hhead

def check_order (_ : Status) : Update → Bool
  | .write i => i == 0
  | _ => true

theorem persisted_follows_handle_turn :
    ∃ s, Machine.Reaches update_status InOrder (Status.new .Draft) s ∧
      s.persisted = [.Review, .InProgress, .Draft] ∧ s.memory = .Review ∧
      (s.pending = [] → s.persisted.head? = some s.memory) := by
  have hrun : (Machine.run update_status check_order (Status.new .Draft)
      [.check_and_set .InProgress, .check_and_set .Review, .write 0, .write 0]).any
      (fun s => s.persisted = [.Review, .InProgress, .Draft] ∧ s.memory = .Review) = true := by
    decide
  obtain ⟨s, hreaches, hpersisted, hmemory⟩ :=
    Machine.exists_reaches_of_run (K := InOrder) (fun s l h => by
      rintro i rfl
      exact beq_iff_eq.mp h) hrun
  exact ⟨s, hreaches, hpersisted, hmemory, (persisted_follows_handle .Draft s hreaches).2⟩

/-- The writes of a turn that starts and ends are made the other way round: the row goes from
`Draft` to `Review` and ends as `InProgress`, while the handle is at `Review`. -/
theorem writes_overtake :
    ∃ s, Machine.Reaches update_status Machine.anyStep (Status.new .Draft) s ∧
      s.pending = [] ∧ s.memory = .Review ∧ s.persisted = [.InProgress, .Review, .Draft] ∧
      SessionStatus.Draft.can_transition_to .Review = false := by
  have hrun : (Machine.run update_status (fun _ _ => true) (Status.new .Draft)
      [.check_and_set .InProgress, .check_and_set .Review, .write 1, .write 0]).any
      (fun s => s.pending = [] ∧ s.memory = .Review ∧
        s.persisted = [.InProgress, .Review, .Draft]) = true := by
    decide
  obtain ⟨s, hreaches, hpending, hmemory, hpersisted⟩ := Machine.exists_reaches _ hrun
  exact ⟨s, hreaches, hpending, hmemory, hpersisted, rfl⟩

/-! ## The reload -/

/-- `matches!(status, Merged | Done | Canceled)` -/
def settled : SessionStatus → Bool
  | .Merged | .Done | .Canceled => true
  | _ => false

def merge_loaded_session_status (status_from_db status_from_handle : SessionStatus) :
    SessionStatus :=
  if settled status_from_db then status_from_db else status_from_handle

/-- What a reload has read. -/
inductive Reload where
  | idle
  | row (status_from_db : SessionStatus)
  | handle (status_from_db status_from_handle : SessionStatus)
  deriving DecidableEq, Repr

structure State where
  status : Status
  reload : Reload
  /-- the status that the last successful transition has set -/
  last : SessionStatus
  /-- the statuses that a transition has left for another -/
  left : List SessionStatus
  deriving DecidableEq, Repr

/-- A session that is loaded with the status of its row. -/
def State.new (status : SessionStatus) : State := ⟨Status.new status, .idle, status, []⟩

inductive Label where
  | update (update : Update)
  /-- The row is written past the handle. -/
  | persist (status : SessionStatus)
  /-- the steps of `load_sessions` and `status_and_transcript_from_existing_handle` -/
  | read_row
  | read_handle
  | set_handle
  deriving DecidableEq, Repr

def step (s : State) : Label → Option State
  | .update update =>
    (update_status s.status update).map fun status =>
      match update with
      | .check_and_set new =>
        if s.status.memory.can_transition_to new then
          { s with
            status
            last := new
            left := if s.status.memory = new then s.left else s.status.memory :: s.left }
        else s
      | .write _ => { s with status }
  | .persist status =>
    some { s with status := { s.status with persisted := status :: s.status.persisted } }
  | .read_row =>
    match s.reload, s.status.persisted with
    | .idle, status_from_db :: _ => some { s with reload := .row status_from_db }
    | _, _ => none
  | .read_handle =>
    match s.reload with
    | .row status_from_db => some { s with reload := .handle status_from_db s.status.memory }
    | _ => none
  | .set_handle =>
    match s.reload with
    | .handle status_from_db status_from_handle =>
      some { s with
        status := { s.status with
          memory := merge_loaded_session_status status_from_db status_from_handle }
        reload := .idle }
    | _ => none

/-- The row that a reload holds. -/
def Reload.held : Reload → Option SessionStatus
  | .idle => none
  | .row status_from_db | .handle status_from_db _ => some status_from_db

/-- No transition falls between the reload's read of the handle and its write, and no reload
holds a `Merged` row that the handle has left or leaves. -/
def Apart (s : State) (l : Label) : Prop :=
  (∀ new, l = .update (.check_and_set new) → s.status.memory.can_transition_to new = true →
    s.status.memory ≠ new →
      (∀ row handle, s.reload ≠ .handle row handle) ∧
        (s.status.memory = .Merged → s.reload.held ≠ some .Merged)) ∧
  (l = .read_row → .Merged ∈ s.left → s.status.persisted.head? ≠ some .Merged)

/-- The handle has the status of the last transition, or one that was persisted, is final for
the app, and was not left. -/
def Kept (s : State) : Prop :=
  s.status.memory = s.last ∨
    (settled s.status.memory = true ∧ s.status.memory ∈ s.status.persisted ∧
      s.status.memory ∉ s.left)

/-! ## What a reload keeps -/

structure Reloading (s : State) : Prop where
  kept : Kept s
  /-- The row that a reload holds was persisted, and if it is final it was not left. -/
  row : ∀ status_from_db, s.reload.held = some status_from_db →
    status_from_db ∈ s.status.persisted ∧ (settled status_from_db = true → status_from_db ∉ s.left)
  /-- The status that a reload has read is still that of the handle. -/
  handle : ∀ status_from_db status_from_handle,
    s.reload = .handle status_from_db status_from_handle → s.status.memory = status_from_handle
  left : ∀ status ∈ s.left, settled status = true → status = .Merged

variable {s : State}

theorem Reloading.persist (hs : Reloading s) (pending : List SessionStatus)
    (status : SessionStatus) :
    Reloading { s with
      status := { s.status with pending, persisted := status :: s.status.persisted } } := by
  refine ⟨?_, ?_, hs.handle, hs.left⟩
  · rcases hs.kept with hlast | ⟨hsettled, hpersisted, hleft⟩
    · exact .inl hlast
    · exact .inr ⟨hsettled, mem_cons_of_mem _ hpersisted, hleft⟩
  · intro row hrow
    obtain ⟨hpersisted, hleft⟩ := hs.row row hrow
    exact ⟨mem_cons_of_mem _ hpersisted, hleft⟩

/-- `Done` and `Canceled` are never left, so `Merged` is the only final status that is. -/
theorem merged_of_left {old new : SessionStatus} (hallowed : old.can_transition_to new = true)
    (hne : old ≠ new) (hsettled : settled old = true) : old = .Merged := by
  revert hallowed hne hsettled
  cases old with
  | Merged => exact fun _ _ _ => rfl
  | Done | Canceled => cases new <;> simp [SessionStatus.can_transition_to]
  | _ => exact nofun

/-- A transition is made while no reload holds what it changes. -/
theorem Reloading.transition (hs : Reloading s) {new : SessionStatus}
    (pending : List SessionStatus) (hallowed : s.status.memory.can_transition_to new = true)
    (hhandle : s.status.memory ≠ new → ∀ row handle, s.reload ≠ .handle row handle)
    (hheld : s.status.memory ≠ new → s.status.memory = .Merged → s.reload.held ≠ some .Merged) :
    Reloading { s with
      status := { s.status with memory := new, pending }
      last := new
      left := if s.status.memory = new then s.left else s.status.memory :: s.left } := by
  refine ⟨.inl rfl, ?_, ?_, ?_⟩
  · intro row hrow
    obtain ⟨hpersisted, hleft⟩ := hs.row row hrow
    refine ⟨hpersisted, ?_⟩
    intro hsettled
    dsimp only
    by_cases hsame : s.status.memory = new
    · rw [if_pos hsame]
      exact hleft hsettled
    · rw [if_neg hsame, mem_cons, not_or]
      refine ⟨?_, hleft hsettled⟩
      rintro rfl
      have hmerged := merged_of_left hallowed hsame hsettled
      exact hheld hsame hmerged (hmerged ▸ hrow)
  · intro row handle hreload
    by_cases hsame : s.status.memory = new
    · rw [← hs.handle row handle hreload]
      exact hsame.symm
    · exact absurd hreload (hhandle hsame row handle)
  · intro status hstatus hsettled
    by_cases hsame : s.status.memory = new
    · rw [if_pos hsame] at hstatus
      exact hs.left status hstatus hsettled
    · rw [if_neg hsame, mem_cons] at hstatus
      rcases hstatus with rfl | hstatus
      · exact merged_of_left hallowed hsame hsettled
      · exact hs.left status hstatus hsettled

theorem step_reloading {s' : State} {l : Label} (hs : Reloading s) (hk : Apart s l)
    (h : step s l = some s') : Reloading s' := by
  cases l with
  | update update =>
    cases update with
    | check_and_set new =>
      by_cases hallowed : s.status.memory.can_transition_to new = true
      · simp only [step, update_status, if_pos hallowed, Option.map_some,
          Option.some.injEq] at h
        subst h
        have hapart := hk.1 new rfl hallowed
        exact hs.transition _ hallowed (fun hne => (hapart hne).1) fun hne => (hapart hne).2
      · simp only [step, update_status, if_neg hallowed, Option.map_some,
          Option.some.injEq] at h
        subst h
        exact hs
    | write i =>
      simp only [step, update_status, Option.map_map, Option.map_eq_some_iff] at h
      obtain ⟨new, -, rfl⟩ := h
      exact hs.persist (s.status.pending.eraseIdx i) new
  | persist status =>
    cases h
    exact hs.persist s.status.pending status
  | read_row =>
    simp only [step] at h
    split at h
    · next row rows hidle hrows =>
      cases h
      refine ⟨hs.kept, ?_, nofun, hs.left⟩
      intro row' hrow'
      cases hrow'
      refine ⟨by simp [hrows], ?_⟩
      -- a final row that was left is `Merged`, and no reload reads that one
      intro hsettled hleft
      have hmerged := hs.left _ hleft hsettled
      subst hmerged
      exact hk.2 rfl hleft (by simp [hrows])
    · cases h
  | read_handle =>
    simp only [step] at h
    split at h
    · next row hreload =>
      cases h
      refine ⟨hs.kept, ?_, ?_, hs.left⟩
      · intro row' hrow'
        exact hs.row row' (by rw [hreload]; exact hrow')
      · rintro row' handle' ⟨⟩
        rfl
    · cases h
  | set_handle =>
    simp only [step] at h
    split at h
    · next row handle hreload =>
      cases h
      obtain ⟨hpersisted, hleft⟩ := hs.row row (by rw [hreload]; rfl)
      refine ⟨?_, nofun, nofun, hs.left⟩
      by_cases hsettled : settled row = true
      · refine .inr ?_
        simp only [merge_loaded_session_status, if_pos hsettled]
        exact ⟨hsettled, hpersisted, hleft hsettled⟩
      · -- the handle keeps its status
        have hkept := hs.kept
        have hhandle := hs.handle row handle hreload
        simp only [Kept, merge_loaded_session_status, if_neg hsettled, ← hhandle]
        exact hkept
    · cases h

/-- In every run in which no transition falls into a reload, the reload undoes none: the handle
has the status of the last transition, or a final one that was persisted and not left. -/
theorem reload_keeps_transitions (status : SessionStatus) (s : State)
    (h : Machine.Reaches step Apart (State.new status) s) : Kept s :=
  (h.invariant Reloading ⟨.inl rfl, nofun, nofun, nofun⟩ fun _ _ _ hs hk hstep =>
    step_reloading hs hk hstep).kept

def check_apart (s : State) : Label → Bool
  | .update (.check_and_set _) => decide (s.reload = .idle)
  | .read_row => decide (.Merged ∉ s.left)
  | _ => true

theorem apart_of_check {l : Label} (h : check_apart s l = true) : Apart s l := by
  refine ⟨?_, ?_⟩
  · rintro new rfl - -
    have hidle : s.reload = .idle := of_decide_eq_true h
    rw [hidle]
    exact ⟨nofun, fun _ => nofun⟩
  · rintro rfl hleft
    exact absurd hleft (of_decide_eq_true h)

theorem reload_keeps_transitions_merged :
    ∃ s, Machine.Reaches step Apart (State.new .Review) s ∧ s.status.memory = .Merged ∧
      s.last = .AgentReview ∧ Kept s := by
  have hrun : (Machine.run step check_apart (State.new .Review)
      [.update (.check_and_set .AgentReview), .persist .Merged, .read_row, .read_handle,
        .set_handle]).any
      (fun s => s.status.memory = .Merged ∧ s.last = .AgentReview) = true := by
    decide
  obtain ⟨s, hreaches, hmemory, hlast⟩ :=
    Machine.exists_reaches_of_run (K := Apart) (fun _ _ => apart_of_check) hrun
  exact ⟨s, hreaches, hmemory, hlast, reload_keeps_transitions .Review s hreaches⟩

/-- A turn starts between the reload's read of the handle and its write: the handle is back at
`Review`. -/
theorem reload_undoes_transition :
    ∃ s, Machine.Reaches step Machine.anyStep (State.new .Review) s ∧ s.reload = .idle ∧
      s.last = .InProgress ∧ s.status.memory = .Review ∧ ¬ Kept s := by
  have hrun : (Machine.run step (fun _ _ => true) (State.new .Review)
      [.read_row, .read_handle, .update (.check_and_set .InProgress), .set_handle]).any
      (fun s => s.reload = .idle ∧ s.last = .InProgress ∧ s.status.memory = .Review) = true := by
    decide
  obtain ⟨s, hreaches, hreload, hlast, hmemory⟩ := Machine.exists_reaches _ hrun
  refine ⟨s, hreaches, hreload, hlast, hmemory, ?_⟩
  rw [Kept, hlast, hmemory]
  simp [settled]

end Agentty.Session.StatusUpdates
