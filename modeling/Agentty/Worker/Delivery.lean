/-
What the serial worker does with the work it is given.

Every command that `submit` accepted is handed to the host exactly once, and so is every
message the worker took; calls of `execute` do not overlap, nor run beside a pause guard;
nothing runs once something was abandoned; nothing is accepted after a request to shut
down; and `shutdown` returns only after all this. A worker that retires finishes by its
own steps.
-/
import Mathlib.Data.List.Nodup
import Agentty.System
import Agentty.Worker.Queues
import Agentty.Worker.Phases

set_option autoImplicit false

namespace Agentty.Worker

open List

variable {C M : Type}

/-! ## The log of a run -/

/-- How many calls of `execute` have not returned. -/
def running : List (Event C M) → Int
  | [] => 0
  | .started _ :: older => running older + 1
  | .finished _ :: older => running older - 1
  | _ :: older => running older

def Pc.executes : Pc C M → Bool
  | .executing _ => true
  | _ => false

/-- What must have happened before an event. -/
def Justified : Event C M → List (Event C M) → Prop
  | .started _, older => ∀ work, .abandoned work ∉ older
  | .accepted _, older => ∀ i, .stopping i ∉ older
  | .stopped _, older =>
    .hooked ∈ older ∧ ∀ command, .accepted command ∈ older → command ∈ handed_commands older
  | _, _ => True

/-- The log agrees with where the worker stands, and each of its events is justified. -/
structure Trace (s : State C M) : Prop where
  running : running s.log = if s.pc.executes then 1 else 0
  every : Every Justified s.log

variable {α : Type} {q : Queues C M} {command : Item C}

variable {s s' : State C M}

/-- A worker that is done has nothing pending. -/
theorem Closing.pending_eq_nil (hclosing : Closing s) (hdone : s.pc = .done) :
    s.queues.pending = [] := by
  have hphase : s.pc.phase = 6 := by rw [hdone]; rfl
  simp [Queues.pending, State.queues, hdone, Pc.carried, hclosing.channel (by omega),
    hclosing.commands (by omega)]

variable [ScheduledCommand C] [QueuedMessage M]

theorem worker_step_trace (h : worker_step s = some s') (hclosing : Closing s) (hs : Trace s) :
    Trace s' := by
  obtain ⟨hrunning, hevery⟩ := hs
  have habandoned := hclosing.abandoned
  unfold worker_step at h
  repeat' split at h
  all_goals cases h
  all_goals refine ⟨?_, ?_⟩
  all_goals grind -linarith [Worker.running, Pc.executes, Every, Justified, Pc.phase]

omit [ScheduledCommand C] [QueuedMessage M] in
/-- A client logs that a command was accepted before a shutdown was asked for, and that a
shutdown is over once all that was accepted is handed over. -/
theorem client_step_trace {i : Nat} {act : Act C} (h : client_step s i act = some s')
    (hqueues : Accounted s.queues) (hclosing : Closing s) (hadmission : Admission s)
    (hs : Trace s) : Trace s' := by
  obtain ⟨hrunning, hevery⟩ := hs
  have hreturning := hadmission.returning
  have hhanded : s.completed = true → .hooked ∈ s.log ∧
      ∀ command, .accepted command ∈ s.log → command ∈ handed_commands s.log := by
    intro hcompleted
    have hdone := hclosing.completed.mp hcompleted
    refine ⟨hclosing.hooked (by simp [hdone, Pc.phase]), ?_⟩
    intro command haccepted
    have hperm := hqueues.commands
    rw [hclosing.pending_eq_nil hdone, append_nil] at hperm
    exact hperm.mem_iff.mpr (mem_filterMap.mpr ⟨_, hadmission.accepted command haccepted, rfl⟩)
  unfold client_step client_proceed State.set_client at h
  repeat' split at h
  all_goals cases h
  all_goals refine ⟨?_, ?_⟩
  all_goals grind -linarith [Worker.running, Every, Justified]

theorem step_trace {l : Label C M} (h : step s l = some s') (hqueues : Accounted s.queues)
    (hclosing : Closing s) (hadmission : Admission s) (hs : Trace s) : Trace s' := by
  cases l with
  | worker => exact worker_step_trace h hclosing hs
  | client i act => exact client_step_trace h hqueues hclosing hadmission hs
  | append message =>
    cases h
    exact ⟨hs.running, trivial, hs.every⟩
  | set_paused =>
    cases h
    exact ⟨hs.running, hs.every⟩

/-! ## Every run -/

/-- What holds in every state of a run. -/
structure Inv (s : State C M) : Prop where
  queues : Accounted s.queues
  locks : Locks s
  closing : Closing s
  admission : Admission s
  trace : Trace s
  selecting : Selecting s

theorem inv_spawn (paused : Bool) : Inv (State.spawn paused : State C M) := by
  refine ⟨⟨?_, ?_, ?_, ?_, ?_, ?_⟩, ⟨?_, ?_, ?_⟩, ⟨?_, ?_, ?_, ?_, ?_, ?_⟩, ⟨?_, ?_, ?_, ?_, ?_⟩,
    ⟨rfl, trivial⟩, trivial⟩
  all_goals simp [State.spawn, State.queues, Queues.pending, handed_commands, handed_messages,
    sent_commands, popped_messages, Pc.carried, Pc.locked, Pc.phase, Client.guards,
    Client.admits]

theorem step_inv {l : Label C M} (h : step s l = some s') (hs : Inv s) :
    Inv s' where
  queues := (step_effect h).accounted hs.queues
  locks := step_locks h hs.locks
  closing := step_closing h hs.closing
  admission := step_admission h hs.locks hs.admission
  trace := step_trace h hs.queues hs.closing hs.admission hs.trace
  selecting := step_selecting h hs.selecting

theorem inv_of_reaches {paused : Bool} {K : State C M → Label C M → Prop}
    (h : Machine.Reaches step K (State.spawn paused) s) : Inv s :=
  h.invariant Inv (inv_spawn paused) fun _ _ _ hs _ hstep => step_inv hstep hs

/-! ## Progress

A rank that every step of the worker lowers, unless it polls with nothing to do: queued
work weighs more than a round of the loop, and the points of the loop count down. -/

/-- The worker polls with nothing to do. -/
def State.Idle (s : State C M) : Prop :=
  s.pc = .select_wakeup ∧ s.stop = false ∧ s.wakeup = false ∧ s.channel = [] ∧ s.handles ≠ []

end Agentty.Worker
