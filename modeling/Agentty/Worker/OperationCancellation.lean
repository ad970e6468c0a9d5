/-
Cancellation requests and the operations of a session worker.

The marks of the worker are updates by id, whatever the row says, so each is safe only
because of what the row says at that point. That is known: an operation has at most one
command under way, since a claim needs a row that has ended, and the row of an operation
with a command is at each point of the command as that command left it, but for the flag.
The flag follows the requests, and the terminal marks read it.
-/
import Agentty.System
import Agentty.Worker.Operations

set_option autoImplicit false

namespace Agentty.Worker.Operations

open Function

variable {Op S : Type} [DecidableEq Op]

/-! ## The invariant -/

/-- The status of a row at a point of the command of its operation. -/
def Pc.Stored (pc : Pc) (status : Option Status) : Prop :=
  match pc with
  | .unsent => status = some .queued
  | .pending | .first_unfinished => status = none ∨ status = some .queued
  | .first_cancel | .first_mark | .mark_running | .begin_preparation => status = some .queued
  | .last_unfinished | .last_cancel | .last_mark | .start | .body | .terminal _ =>
    status = some .running
  | .finished => True

/-- The flag of the operation was last read while no cancellation was requested. -/
def last_check_clear (op : Op) (log : List (Event Op)) : Bool :=
  since (fun event => decide (event = .checked op false))
    (fun event => decide (event = .checked op true)) log

/-- What holds of a row. -/
structure Row.Sound (row : Row S) (requested : Bool) : Prop where
  flag : row.cancel_requested = requested
  /-- The terminal marks turn into a cancellation under the flag. -/
  settled : row.cancel_requested = true → row.status ≠ .done ∧ row.status ≠ .failed

/-- What holds in every state of a run. `stored` is what makes the marks safe, and `unique` is
what keeps it: a second command could write the row under the first one. -/
structure Inv (s : State Op S) : Prop where
  bound : ∀ n, s.next ≤ n → s.commands n = none
  unique : ∀ n m c d, s.commands n = some c → s.commands m = some d → c.op = d.op →
    c.pc.live = true → d.pc.live = true → n = m
  stored : ∀ n c, s.commands n = some c → c.pc.Stored ((s.rows c.op).map Row.status)
  sound : ∀ op row, s.rows op = some row → row.Sound (s.requested op)
  absent : ∀ op, s.rows op = none → s.requested op = false
  clear : ∀ n c, s.commands n = some c → c.pc = .start → last_check_clear c.op s.log = true
  trace : Every (fun event older => ∀ op, event = .started op → last_check_clear op older = true)
    s.log

/-- No command of the operation is under way. -/
def Idle (s : State Op S) (op : Op) : Prop :=
  ∀ n c, s.commands n = some c → c.op = op → c.pc.live = false

variable {s : State Op S} {op : Op}

/-- The guard of a step looks through the commands that were ever numbered. -/
theorem idle_of_live_eq_false (hs : Inv s) (h : live s op = false) : Idle s op := by
  intro n c hn hop
  by_contra hlive
  rw [Bool.not_eq_false] at hlive
  have hlt : n < s.next := by
    by_contra hge
    rw [hs.bound n (by omega)] at hn
    cases hn
  have htrue : live s op = true := by
    refine List.any_eq_true.mpr ⟨n, List.mem_range.mpr hlt, ?_⟩
    simp [hn, hop, hlive]
  rw [h] at htrue
  cases htrue

/-- An operation that can be claimed has no command under way. -/
theorem idle_of_claimable (hs : Inv s) (h : claimable s op = true)
    (habsent : s.rows op = none → live s op = false) : Idle s op := by
  cases hrow : s.rows op with
  | none => exact idle_of_live_eq_false hs (habsent hrow)
  | some row =>
    intro n c hn hop
    -- a claim takes only a row that has ended, and a live command has another one
    have hstored := hs.stored n c hn
    simp only [claimable, hrow] at h
    cases hpc : c.pc <;> simp only [hpc, Pc.Stored] at hstored <;> grind -linarith [Pc.live]

/-! ## Moves -/

variable {n : Nat} {command : Command Op S}

/-- A command is added, or moved, if no other command of its operation is under way. -/
theorem Inv.put (hs : Inv s) (command : Command Op S) {next : Nat} (hnext : s.next ≤ next)
    (hlt : n < next)
    (hover : ∀ m c, m ≠ n → s.commands m = some c → c.op = command.op → c.pc.live = false)
    (hstored : command.pc.Stored ((s.rows command.op).map Row.status))
    (hclear : command.pc = .start → last_check_clear command.op s.log = true) :
    Inv { s with commands := update s.commands n (some command), next } := by
  refine ⟨?_, ?_, ?_, hs.sound, hs.absent, ?_, hs.trace⟩
  · intro m hm
    have hm' : next ≤ m := hm
    have hne : m ≠ n := by omega
    simp only [update_of_ne hne]
    exact hs.bound m (by omega)
  · intro m k c d hc hd hop hc' hd'
    rcases update_eq_some hc with ⟨rfl, rfl⟩ | ⟨hm, hcold⟩
    · rcases update_eq_some hd with ⟨rfl, rfl⟩ | ⟨hk, hdold⟩
      · rfl
      · rw [hover k d hk hdold hop.symm] at hd'
        cases hd'
    · rcases update_eq_some hd with ⟨rfl, rfl⟩ | ⟨hk, hdold⟩
      · rw [hover m c hm hcold hop] at hc'
        cases hc'
      · exact hs.unique m k c d hcold hdold hop hc' hd'
  · intro m c hc
    rcases update_eq_some hc with ⟨rfl, rfl⟩ | ⟨-, hc⟩
    · exact hstored
    · exact hs.stored m c hc
  · intro m c hc hstart
    rcases update_eq_some hc with ⟨rfl, rfl⟩ | ⟨-, hc⟩
    · exact hclear hstart
    · exact hs.clear m c hc hstart

/-- The row of an operation is written, and with it whether its cancellation is requested. -/
theorem Inv.set_row (hs : Inv s) (op : Op) (row : Option (Row S)) (requested : Bool)
    (hstored : ∀ n c, s.commands n = some c → c.op = op → c.pc.Stored (row.map Row.status))
    (hsound : ∀ r, row = some r → r.Sound requested) (habsent : row = none → requested = false) :
    Inv { s with
      rows := update s.rows op row
      requested := update s.requested op requested } := by
  refine ⟨hs.bound, hs.unique, ?_, ?_, ?_, hs.clear, hs.trace⟩
  · intro n c hn
    by_cases hop : c.op = op
    · simp only [hop, update_self]
      exact hstored n c hn hop
    · simp only [update_of_ne hop]
      exact hs.stored n c hn
  · intro op' r hr
    by_cases hop : op' = op
    · simp only [hop, update_self] at hr ⊢
      exact hsound r hr
    · simp only [update_of_ne hop] at hr ⊢
      exact hs.sound op' r hr
  · intro op' hr
    by_cases hop : op' = op
    · simp only [hop, update_self] at hr ⊢
      exact habsent hr
    · simp only [update_of_ne hop] at hr ⊢
      exact hs.absent op' hr

/-- Nothing is asked of the row of a command that has finished: the next claim may write it. -/
theorem Pc.stored_of_not_live {pc : Pc} (h : pc.live = false) (status : Option Status) :
    pc.Stored status := by
  cases pc <;> trivial

/-- The command writes the row of its operation and goes on, in one step. Neither half keeps the
invariant by itself, since the row is stored for the point where the command stands. -/
theorem Inv.update_goto (hs : Inv s) (hn : s.commands n = some command)
    (hlive : command.pc.live = true) (f : Row S → Row S) (pc : Pc)
    (hsound : ∀ row, s.rows command.op = some row → (f row).Sound (s.requested command.op))
    (hstored : pc.Stored ((s.rows command.op).map fun row => (f row).status))
    (hclear : pc = .start → last_check_clear command.op s.log = true) :
    Inv ((s.update command.op f).goto n command pc) := by
  have hlt : n < s.next := by
    by_contra hge
    rw [hs.bound n (by omega)] at hn
    cases hn
  have hover : ∀ m c, m ≠ n → s.commands m = some c → c.op = command.op → c.pc.live = false := by
    intro m c hm hc hop
    by_contra hlive'
    exact hm (hs.unique m n c command hc hn hop (by simpa using hlive') hlive)
  -- the command rests while its row is written
  have hrests := hs.put { command with pc := .finished } le_rfl hlt hover trivial nofun
  have hwritten := hrests.set_row command.op ((s.rows command.op).map f) (s.requested command.op)
    (by
      intro m c hc hop
      rcases update_eq_some hc with ⟨-, rfl⟩ | ⟨hm, hc⟩
      · trivial
      · exact Pc.stored_of_not_live (hover m c hm hc hop) _)
    (by
      intro row hrow
      obtain ⟨old, hold, rfl⟩ := Option.map_eq_some_iff.mp hrow
      exact hsound old hold)
    (fun hnone => hs.absent _ (Option.map_eq_none_iff.mp hnone))
  have hmoved := hwritten.put (n := n) { command with pc } le_rfl hlt
    (by
      intro m c hm hc
      simp only [update_of_ne hm] at hc
      exact hover m c hm hc)
    (by simpa only [update_self, Option.map_map, comp_def] using hstored) hclear
  simp only [update_idem, update_eq_self] at hmoved
  exact hmoved

variable {op' : Op}

theorem update_rows_of_ne {f : Row S → Row S} (h : op' ≠ op) :
    (s.update op f).rows op' = s.rows op' := by
  simp only [State.update, update_of_ne h]

theorem Inv.goto (hs : Inv s) (hn : s.commands n = some command) (hlive : command.pc.live = true)
    (pc : Pc) (hstored : pc.Stored ((s.rows command.op).map Row.status))
    (hclear : pc = .start → last_check_clear command.op s.log = true) :
    Inv (s.goto n command pc) := by
  have hmoved := hs.update_goto hn hlive id pc (fun row hrow => hs.sound _ row hrow) hstored hclear
  simpa [State.update] using hmoved

/-- A check that finds the flag set would spoil the last check of a command about to start. There
is none: the checks of an operation are those of its one command. -/
theorem Inv.check (hs : Inv s) {b : Bool}
    (hstart : ∀ n c, s.commands n = some c → c.pc = .start → c.op = op → b = false) :
    Inv { s with log := .checked op b :: s.log } := by
  refine ⟨hs.bound, hs.unique, hs.stored, hs.sound, hs.absent, ?_, ⟨nofun, hs.trace⟩⟩
  intro n c hn hpc
  by_cases hop : c.op = op
  · rw [hop, hstart n c hn hpc hop]
    simp [last_check_clear, since]
  · simpa [last_check_clear, since, Ne.symm hop] using hs.clear n c hn hpc

theorem Inv.start (hs : Inv s) (h : last_check_clear op s.log = true) :
    Inv { s with log := .started op :: s.log } := by
  refine ⟨hs.bound, hs.unique, hs.stored, hs.sound, hs.absent, ?_, ?_, hs.trace⟩
  · intro n c hn hpc
    simpa [last_check_clear, since] using hs.clear n c hn hpc
  · intro op' heq
    cases heq
    exact h

/-- A row that is queued anew has no flag; the requests before it are forgotten with it. -/
theorem Inv.queue (hs : Inv s) (session : S)
    (hstored : ∀ n c, s.commands n = some c → c.op = op → c.pc.Stored (some .queued)) :
    Inv (s.queue op session) := by
  refine hs.set_row _ _ _ hstored ?_ nofun
  rintro row ⟨⟩
  exact ⟨rfl, nofun⟩

theorem Inv.add (hs : Inv s) (hidle : Idle s command.op)
    (hstored : command.pc.Stored ((s.rows command.op).map Row.status)) (hpc : command.pc ≠ .start) :
    Inv (s.add command) :=
  hs.put _ (Nat.le_succ _) (Nat.lt_succ_self _) (fun m c _ hc => hidle m c hc) hstored
    fun hstart => absurd hstart hpc

theorem Inv.queue_add (hs : Inv s) (hidle : Idle s op) (session : S) (preparation : Bool) :
    Inv ((s.queue op session).add ⟨op, session, preparation, .unsent⟩) := by
  have hqueued : Inv (s.queue op session) :=
    hs.queue session fun n c hn hop => Pc.stored_of_not_live (hidle n c hn hop) _
  refine hqueued.add hidle ?_ nofun
  simp [State.queue, Pc.Stored]

section Requests

variable [DecidableEq S]

omit [DecidableEq Op] in
/-- A request sets the flag and leaves the status, so no command notices it before its next check.
-/
theorem request_status (s : State Op S) (session : S) (op : Op) :
    ((request_cancel_for_session_operations s session).rows op).map Row.status =
      (s.rows op).map Row.status := by
  simp only [request_cancel_for_session_operations, Option.map_map]
  congr 1
  funext row
  simp only [comp_apply]
  split <;> rfl

/-- Only a row that has not ended takes the flag. One that is done was not asked to cancel in
time. -/
theorem Inv.request (hs : Inv s) (session : S) :
    Inv (request_cancel_for_session_operations s session) := by
  refine ⟨hs.bound, hs.unique, ?_, ?_, ?_, hs.clear, hs.trace⟩
  · intro n c hn
    rw [request_status]
    exact hs.stored n c hn
  · intro op row hrow
    obtain ⟨old, hold, rfl⟩ := Option.map_eq_some_iff.mp hrow
    have hsound := hs.sound op old hold
    simp only [request_cancel_for_session_operations, hold, Option.any_some]
    split
    · next hcancelable =>
      rw [hcancelable, Bool.or_true]
      refine ⟨rfl, fun _ => ?_⟩
      -- the row is queued or running
      have hunfinished : old.status.unfinished = true := (Bool.and_eq_true_iff.mp hcancelable).2
      constructor
      · intro hdone
        rw [show old.status = .done from hdone] at hunfinished
        cases hunfinished
      · intro hfailed
        rw [show old.status = .failed from hfailed] at hunfinished
        cases hunfinished
    · next hcancelable =>
      rw [Bool.not_eq_true] at hcancelable
      rw [hcancelable, Bool.or_false]
      exact hsound
  · intro op hrow
    have hnone : s.rows op = none := Option.map_eq_none_iff.mp hrow
    simp only [request_cancel_for_session_operations, hnone, hs.absent op hnone]
    rfl

end Requests

/-! ## The marks of the worker -/

variable {row : Row S} {requested : Bool}

section

variable (h : row.Sound requested)

include h

theorem Row.Sound.canceled : (mark_session_operation_canceled row).Sound requested :=
  ⟨h.flag, fun _ => ⟨nofun, nofun⟩⟩

theorem Row.Sound.running : (mark_session_operation_running row).Sound requested :=
  ⟨h.flag, fun _ => ⟨nofun, nofun⟩⟩

/-- `done` and `failed` read the flag in the same statement, so a request cannot come in between.
-/
theorem Row.Sound.done : (mark_session_operation_done row).Sound requested := by
  refine ⟨h.flag, ?_⟩
  intro hflag
  have hflag' : row.cancel_requested = true := hflag
  simp [mark_session_operation_done, hflag']

theorem Row.Sound.failed : (mark_session_operation_failed row).Sound requested := by
  refine ⟨h.flag, ?_⟩
  intro hflag
  have hflag' : row.cancel_requested = true := hflag
  simp [mark_session_operation_failed, hflag']

end

theorem Inv.finish (hs : Inv s) (hn : s.commands n = some command)
    (hlive : command.pc.live = true) (f : Row S → Row S)
    (hf : ∀ row : Row S, row.Sound (s.requested command.op) →
      (f row).Sound (s.requested command.op)) :
    Inv ((s.update command.op f).goto n command .finished) :=
  hs.update_goto hn hlive f .finished (fun row hrow => hf row (hs.sound _ row hrow)) trivial nofun

/-- The checks of a command are not those of one that is about to start. -/
theorem Inv.no_start (hs : Inv s) (hn : s.commands n = some command)
    (hlive : command.pc.live = true) (hpc : command.pc ≠ .start) :
    ∀ m c, s.commands m = some c → c.pc = .start → c.op ≠ command.op := by
  intro m c hm hstart hop
  have hsame := hs.unique m n c command hm hn hop (by rw [hstart]; rfl) hlive
  subst hsame
  rw [hn] at hm
  cases hm
  exact hpc hstart

variable {status : Status}

/-- What the check of the flag says about the request, for a row that is not ended. -/
theorem Inv.requested_eq (hs : Inv s) (hstatus : (s.rows op).map Row.status = some status)
    (hunfinished : status.unfinished = true) :
    is_cancel_requested_for_operation s op = s.requested op := by
  obtain ⟨row, hrow, rfl⟩ := Option.map_eq_some_iff.mp hstatus
  simp only [is_cancel_requested_for_operation, hrow, Option.any_some, hunfinished, Bool.and_true]
  exact (hs.sound op row hrow).flag

omit [DecidableEq Op] in
theorem is_unfinished_eq (h : (s.rows op).map Row.status = some status) :
    is_session_operation_unfinished s op = status.unfinished := by
  obtain ⟨row, hrow, rfl⟩ := Option.map_eq_some_iff.mp h
  simp [is_session_operation_unfinished, hrow]

variable {s' : State Op S}

/-- By cases on the point of the command: the status of the row is known there, and with it what
each read and each mark finds. -/
theorem Inv.process (hs : Inv s) {choice : Choice} (hn : s.commands n = some command)
    (h : process_session_command s n command choice = some s') : Inv s' := by
  have hstored := hs.stored n command hn
  cases hpc : command.pc <;> simp only [process_session_command, hpc] at h <;>
    simp only [hpc, Pc.Stored] at hstored
  case unsent | pending | finished => cases h
  all_goals have hlive : command.pc.live = true := by rw [hpc]; rfl
  -- a check of the flag is noted before the command goes on
  case' first_cancel | last_cancel =>
    have hcheck : Inv { s with log := .checked command.op (s.requested command.op) :: s.log } :=
      hs.check fun m c hm hstart hop =>
        absurd hop (hs.no_start hn hlive (by simp [hpc]) m c hm hstart)
  case first_unfinished =>
    cases h
    split
    · next hunfinished =>
      -- a gated command may come here before its row; it does not go on then
      refine hs.goto hn hlive .first_cancel ?_ (by simp)
      rcases hstored with hnone | hqueued
      · rw [Option.map_eq_none_iff] at hnone
        simp [is_session_operation_unfinished, hnone] at hunfinished
      · exact hqueued
    · exact hs.goto hn hlive .finished trivial (by simp)
  case first_cancel =>
    cases h
    refine hcheck.goto hn hlive _ ?_ ?_
    · split
      · exact hstored
      · split <;> exact hstored
    · split
      · simp
      · split <;> simp
  case first_mark | last_mark =>
    cases h
    exact hs.finish hn hlive _ fun _ => Row.Sound.canceled
  case mark_running =>
    cases h
    refine hs.update_goto hn hlive _ _ (fun row hrow => (hs.sound _ row hrow).running) ?_ (by simp)
    obtain ⟨row, hrow, -⟩ := Option.map_eq_some_iff.mp hstored
    rw [hrow]
    rfl
  case begin_preparation =>
    split at h
    · next row hrow =>
      split at h
      · cases h
        refine hs.update_goto hn hlive _ _ (fun row hrow => (hs.sound _ row hrow).running) ?_
          (by simp)
        rw [hrow]
        rfl
      · cases h
        exact hs.goto hn hlive .finished trivial (by simp)
    · cases h
      exact hs.goto hn hlive .finished trivial (by simp)
  case last_unfinished =>
    -- the row runs, so this check never ends the command
    cases h
    rw [is_unfinished_eq hstored]
    exact hs.goto hn hlive .last_cancel hstored (by simp)
  case last_cancel =>
    cases h
    refine hcheck.goto hn hlive _ ?_ ?_
    · split <;> exact hstored
    · -- the command starts only if the flag was not set when it was read
      rw [hs.requested_eq hstored rfl]
      split
      · simp
      · next hrequested =>
        simp [last_check_clear, since, hrequested]
  case start =>
    cases h
    exact (hs.start (hs.clear n command hn hpc)).goto hn hlive .body hstored (by simp)
  case body =>
    cases h
    exact hs.goto hn hlive (.terminal choice.outcome) hstored (by simp)
  case terminal outcome =>
    cases outcome <;> cases h
    · exact hs.finish hn hlive _ fun _ => Row.Sound.done
    · exact hs.finish hn hlive _ fun _ => Row.Sound.canceled
    · exact hs.finish hn hlive _ fun _ => Row.Sound.failed

/-! ## Runs -/

theorem inv_new : Inv (State.new : State Op S) :=
  ⟨fun _ _ => rfl, nofun, nofun, nofun, fun _ _ => rfl, nofun, trivial⟩

/-- A row that has ended has no command under way. This is what lets a claim reuse it. -/
theorem Inv.idle_of_ended (hs : Inv s) (hstatus : (s.rows op).map Row.status = some status)
    (hended : status.unfinished = false) : Idle s op := by
  intro n c hn hop
  have hstored := hs.stored n c hn
  by_contra hlive
  cases hpc : c.pc <;> simp only [hpc, Pc.Stored] at hstored <;>
    grind -linarith [Pc.live, Status.unfinished]

/-- Only a failed row is taken back, and the failed rows are among those whose cancellation was
not requested. -/
theorem Inv.reclaim (hs : Inv s) (hrow : s.rows op = some row) (hfailed : row.status = .failed) :
    Inv { s with rows := update s.rows op none } := by
  have hstatus : (s.rows op).map Row.status = some .failed := by
    rw [hrow, ← hfailed]
    rfl
  have hidle : Idle s op := hs.idle_of_ended hstatus rfl
  have hwritten := hs.set_row op none (s.requested op)
    (fun n c hn hop => Pc.stored_of_not_live (hidle n c hn hop) _) nofun
    (by
      -- a row whose cancellation was requested does not fail
      intro _
      have hsound := hs.sound op row hrow
      by_contra hrequested
      rw [Bool.not_eq_false] at hrequested
      exact (hsound.settled (hsound.flag.trans hrequested)).2 hfailed)
  rwa [update_eq_self] at hwritten

variable [DecidableEq S]

theorem step_inv {l : Label Op S} (hs : Inv s) (h : step s l = some s') : Inv s' := by
  cases l with
  | insert op session preparation =>
    obtain ⟨⟨-, hlive⟩, ⟨⟩⟩ := Option.ite_none_right_eq_some.mp h
    exact hs.queue_add (idle_of_live_eq_false hs hlive) session preparation
  | claim op session preparation =>
    obtain ⟨⟨hclaim, habsent⟩, ⟨⟩⟩ := Option.ite_none_right_eq_some.mp h
    exact hs.queue_add (idle_of_claimable hs hclaim habsent) session preparation
  | reclaim op =>
    obtain ⟨hfailed, ⟨⟩⟩ := Option.ite_none_right_eq_some.mp h
    obtain ⟨row, hrow, hstatus⟩ := (Option.any_eq_true _ _).mp hfailed
    exact hs.reclaim hrow (of_decide_eq_true hstatus)
  | gate =>
    obtain ⟨⟨hrow, hlive⟩, ⟨⟩⟩ := Option.ite_none_right_eq_some.mp h
    refine hs.add (idle_of_live_eq_false hs hlive) (.inl ?_) nofun
    rw [hrow]
    rfl
  | persist n =>
    obtain ⟨command, hn, h⟩ := Option.bind_eq_some_iff.mp h
    obtain ⟨⟨hpc, -, hlive⟩, ⟨⟩⟩ := Option.ite_none_right_eq_some.mp h
    refine hs.queue command.session fun m c hm hop => ?_
    rcases hpc with hpending | hfinished
    · -- a command of the operation that is under way is this one
      by_cases hlive' : c.pc.live = true
      · obtain rfl := hs.unique m n c command hm hn hop hlive' (by rw [hpending]; rfl)
        rw [hn] at hm
        cases hm
        rw [hpending]
        exact .inr rfl
      · exact Pc.stored_of_not_live (Bool.not_eq_true _ ▸ hlive') _
    · exact Pc.stored_of_not_live (idle_of_live_eq_false hs (hlive hfinished) m c hm hop) _
  | drop_gate n =>
    obtain ⟨command, hn, h⟩ := Option.bind_eq_some_iff.mp h
    obtain ⟨hpc, ⟨⟩⟩ := Option.ite_none_right_eq_some.mp h
    exact hs.goto hn (by rw [hpc]; rfl) .finished trivial nofun
  | submit n =>
    obtain ⟨command, hn, h⟩ := Option.bind_eq_some_iff.mp h
    obtain ⟨hpc, ⟨⟩⟩ := Option.ite_none_right_eq_some.mp h
    have hstored := hs.stored n command hn
    rw [hpc] at hstored
    exact hs.goto hn (by rw [hpc]; rfl) .pending (.inr hstored) nofun
  | reject n =>
    obtain ⟨command, hn, h⟩ := Option.bind_eq_some_iff.mp h
    obtain ⟨hpc, ⟨⟩⟩ := Option.ite_none_right_eq_some.mp h
    exact hs.finish hn (by rw [hpc]; rfl) _ fun _ => Row.Sound.failed
  | take n =>
    obtain ⟨command, hn, h⟩ := Option.bind_eq_some_iff.mp h
    obtain ⟨⟨hpc, -⟩, ⟨⟩⟩ := Option.ite_none_right_eq_some.mp h
    have hstored := hs.stored n command hn
    rw [hpc] at hstored
    exact hs.goto hn (by rw [hpc]; rfl) .first_unfinished hstored nofun
  | process =>
    obtain ⟨command, hn, h⟩ := Option.bind_eq_some_iff.mp h
    exact hs.process hn h
  | abandon n =>
    obtain ⟨command, hn, h⟩ := Option.bind_eq_some_iff.mp h
    obtain ⟨hpc, ⟨⟩⟩ := Option.ite_none_right_eq_some.mp h
    exact hs.finish hn (by rw [hpc]; rfl) _ fun _ => Row.Sound.canceled
  | request_cancel session =>
    cases h
    exact hs.request session

theorem Inv.of_reaches (h : Machine.Reaches step Machine.anyStep State.new s) : Inv s :=
  h.invariant Inv inv_new fun _ _ _ hs _ hstep => step_inv hs hstep

/-! ## Operations that are done -/

omit [DecidableEq S] in
/-- The worker writes the row of its command only, and only while that is under way. -/
theorem process_rows {choice : Choice} (h : process_session_command s n command choice = some s') :
    command.pc.live = true ∧ ∀ op, op ≠ command.op → s'.rows op = s.rows op := by
  cases hpc : command.pc with
  | unsent | pending | finished => simp only [process_session_command, hpc] at h; cases h
  | begin_preparation =>
    simp only [process_session_command, hpc] at h
    refine ⟨rfl, fun op hop => ?_⟩
    split at h
    · split at h
      · cases h
        exact update_rows_of_ne hop
      · cases h
        rfl
    · cases h
      rfl
  | terminal outcome =>
    refine ⟨rfl, fun op hop => ?_⟩
    cases outcome <;> simp only [process_session_command, hpc] at h <;> cases h <;>
      exact update_rows_of_ne hop
  | _ =>
    simp only [process_session_command, hpc] at h
    cases h
    exact ⟨rfl, fun op hop => by first | rfl | exact update_rows_of_ne hop⟩

/-- Nothing writes the row of an operation that is done: its commands have finished, a claim
refuses it, and a request leaves its status. -/
theorem Inv.done_stays {l : Label Op S} (hs : Inv s) (h : step s l = some s')
    (hdone : (s.rows op).map Row.status = some .done) :
    (s'.rows op).map Row.status = some .done := by
  have hidle : Idle s op := hs.idle_of_ended hdone rfl
  have hsome : s.rows op ≠ none := by
    intro hnone
    rw [hnone] at hdone
    cases hdone
  -- the mark of a command under way is for another operation
  have hmark : ∀ n command (f : Row S → Row S) pc, s.commands n = some command →
      command.pc.live = true →
      (((s.update command.op f).goto n command pc).rows op).map Row.status = some .done := by
    intro n command f pc hn hlive
    have hne : op ≠ command.op := by
      intro hop
      rw [hidle n command hn hop.symm] at hlive
      cases hlive
    exact (congrArg _ (update_rows_of_ne hne)).trans hdone
  have hqueue : ∀ op' session, op ≠ op' →
      ((s.queue op' session).rows op).map Row.status = some .done := by
    intro op' session hne
    simp only [State.queue, update_of_ne hne]
    exact hdone
  cases l with
  -- an operation that is done has a row, so it is not inserted again
  | insert op' session =>
    obtain ⟨⟨hnone, -⟩, ⟨⟩⟩ := Option.ite_none_right_eq_some.mp h
    exact hqueue op' session (by rintro rfl; exact hsome hnone)
  | claim op' session =>
    obtain ⟨⟨hclaim, -⟩, ⟨⟩⟩ := Option.ite_none_right_eq_some.mp h
    refine hqueue op' session ?_
    rintro rfl
    obtain ⟨row, hrow, hstatus⟩ := Option.map_eq_some_iff.mp hdone
    simp [claimable, hrow, hstatus] at hclaim
  | reclaim op' =>
    obtain ⟨hfailed, ⟨⟩⟩ := Option.ite_none_right_eq_some.mp h
    obtain ⟨row, hrow, hstatus⟩ := (Option.any_eq_true _ _).mp hfailed
    have hne : op ≠ op' := by
      rintro rfl
      rw [hrow, Option.map_some, of_decide_eq_true hstatus] at hdone
      cases hdone
    simp only [update_of_ne hne]
    exact hdone
  | gate =>
    obtain ⟨-, ⟨⟩⟩ := Option.ite_none_right_eq_some.mp h
    exact hdone
  | persist n =>
    obtain ⟨command, hn, h⟩ := Option.bind_eq_some_iff.mp h
    obtain ⟨⟨-, hnone, -⟩, ⟨⟩⟩ := Option.ite_none_right_eq_some.mp h
    exact hqueue command.op command.session (by rintro rfl; exact hsome hnone)
  | drop_gate n | submit n | take n =>
    obtain ⟨command, hn, h⟩ := Option.bind_eq_some_iff.mp h
    obtain ⟨-, ⟨⟩⟩ := Option.ite_none_right_eq_some.mp h
    exact hdone
  | reject n | abandon n =>
    obtain ⟨command, hn, h⟩ := Option.bind_eq_some_iff.mp h
    obtain ⟨hpc, ⟨⟩⟩ := Option.ite_none_right_eq_some.mp h
    exact hmark n command _ _ hn (by rw [hpc]; rfl)
  | process n choice =>
    obtain ⟨command, hn, h⟩ := Option.bind_eq_some_iff.mp h
    obtain ⟨hlive, hrows⟩ := process_rows h
    have hne : op ≠ command.op := by
      intro hop
      rw [hidle n command hn hop.symm] at hlive
      cases hlive
    rw [hrows op hne]
    exact hdone
  | request_cancel =>
    cases h
    rw [request_status]
    exact hdone

/-! ## The guarantee -/

/-- In every run of cancellation requests, claims and the workers' processing: an operation
whose cancellation was requested is neither done nor failed until it is claimed again, a body
starts only if no cancellation was requested when the flag was last read, and an operation
that is done stays so. -/
theorem requested_operation_is_canceled (s : State Op S)
    (h : Machine.Reaches step Machine.anyStep State.new s) :
    (∀ op row, s.rows op = some row → s.requested op = true →
      row.status ≠ .done ∧ row.status ≠ .failed) ∧
    Every (fun event older => ∀ op, event = .started op → last_check_clear op older = true) s.log ∧
    ∀ l s', step s l = some s' → ∀ op,
      (s.rows op).map Row.status = some .done → (s'.rows op).map Row.status = some .done := by
  have hs : Inv s := Inv.of_reaches h
  refine ⟨?_, hs.trace, fun l s' hstep op => hs.done_stays hstep⟩
  intro op row hrow hrequested
  have hsound := hs.sound op row hrow
  exact hsound.settled (hsound.flag.trans hrequested)

/-- A command is canceled in its body, which ends well. -/
def canceled_in_body : List (Label Nat Nat) :=
  let choice : Choice := ⟨true, .ok⟩
  [.insert 0 0 false, .submit 0, .take 0, .process 0 choice, .process 0 choice, .process 0 choice,
    .process 0 choice, .process 0 choice, .process 0 choice, .request_cancel 0,
    .process 0 choice, .process 0 choice]

theorem requested_operation_is_canceled_in_body :
    ∃ s : State Nat Nat, Machine.Reaches step Machine.anyStep State.new s ∧
      s.requested 0 = true ∧ .started 0 ∈ s.log ∧ (s.rows 0).map Row.status = some .canceled ∧
      ∀ op row, s.rows op = some row → s.requested op = true →
        row.status ≠ .done ∧ row.status ≠ .failed := by
  have hrun : (Machine.run step (fun _ _ => true) State.new canceled_in_body).any
      (fun s => s.requested 0 = true ∧ .started 0 ∈ s.log ∧
        (s.rows 0).map Row.status = some .canceled) = true := by
    decide +kernel
  obtain ⟨s, hreaches, hrequested, hstarted, hstatus⟩ := Machine.exists_reaches _ hrun
  exact ⟨s, hreaches, hrequested, hstarted, hstatus,
    (requested_operation_is_canceled s hreaches).1⟩

end Agentty.Worker.Operations
